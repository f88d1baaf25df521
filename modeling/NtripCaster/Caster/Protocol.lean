import NtripCaster.Go.Bufio
import NtripCaster.Go.Map

/-!
# NTRIP requests

`internal/caster/protocol.go`: the request line and the headers are read line by line from a
buffered reader, up to the first blank line.

## Main definitions

* `RequestType`, `NTRIPRequest`, `ParseError`
* `parseRequest`, `readHeaders`
* `IsRequestHeader`: the bytes of a request line and its headers, blank line included
* `IsText`, `textLines`: lines that survive the trimming of line ends, as they are sent

## Main results

* `parseRequest_consumes`: an accepted request has consumed its header and nothing else
* `parseRequest_extend`: what arrives later makes no difference
* `IsRequestHeader.unique`: a stream starts with one header at most
* `parseRequest_textLines`: the request that lines sent one after the other are read as
-/

namespace NtripCaster

/-- What a client asks for. `unknown` is the zero value, which no parsed request has. -/
inductive RequestType
  | unknown
  | sourcetable
  | rover
  | sourceRev1
  | sourceRev2
  deriving DecidableEq, Repr

/-- `NTRIPRequest`. The password is that of `SOURCE`, in the request line itself. -/
structure NTRIPRequest where
  type : RequestType := .unknown
  mountPoint : Bytes := []
  password : Bytes := []
  headers : GoMap Bytes Bytes := ∅
  proto : Bytes := []

/-- `req.Headers[key]`: empty where there is no entry. -/
def NTRIPRequest.header (req : NTRIPRequest) (key : String) : Bytes :=
  (req.headers.lookup (ascii key)).getD []

/-- The errors of `ParseRequest`, named by their texts. -/
inductive ParseError
  | readRequestLine (err : ReadError)
  | emptyRequestLine
  | malformedGET
  | malformedSOURCE
  | malformedPOST
  | unsupportedMethod (method : Bytes)
  | readHeader (err : ReadError)
  deriving DecidableEq, Repr

/-- `strings.TrimRight(line, "\r\n")`. -/
def trimEOL (line : Bytes) : Bytes := trimRight line [13, 10]

/-- The entry that a header line adds; a line without a colon is passed over. -/
def NTRIPRequest.addHeader (req : NTRIPRequest) (line : Bytes) : NTRIPRequest :=
  match cut 58 line with
  | none => req
  | some (key, val) =>
    -- names are kept as they are written, and the last line of a name counts
    { req with headers := req.headers.insert (trimSpace key) (trimSpace val) }

/-- `readHeaders`: every line read shortens what the reader can still return. -/
def readHeaders (req : NTRIPRequest) (r : Reader) :
    Option (Except ParseError (NTRIPRequest × Reader)) :=
  match _h : r.readString 10 with
  | none => none
  | some (.error err) => some (.error (.readHeader err))
  | some (.ok (line, r')) =>
    if trimEOL line = [] then some (.ok (req, r'))
    else readHeaders (req.addHeader (trimEOL line)) r'
  termination_by r.pending
  decreasing_by exact Reader.pending_lt_of_readString _h

/-- The cases of `ParseRequest` for the fields of the request line. They all go on with
`readHeaders`, which touches nothing but the headers. -/
def requestLine (parts : List Bytes) : Except ParseError NTRIPRequest :=
  match parts with
  | [] => .error .emptyRequestLine
  | method :: args =>
    if method = ascii "GET" then
      match args with
      | [] => .error .malformedGET
      | path :: args =>
        let proto := args.head?.getD []
        if path = ascii "/" then .ok { type := .sourcetable, proto := proto }
        else
          .ok { type := .rover, mountPoint := trimPrefix path (ascii "/"), proto := proto }
    else if method = ascii "SOURCE" then
      match args with
      | password :: path :: _ =>
        .ok {
          type := .sourceRev1
          mountPoint := trimPrefix path (ascii "/")
          password := password }
      | _ => .error .malformedSOURCE
    else if method = ascii "POST" then
      match args with
      | [] => .error .malformedPOST
      | path :: args =>
        .ok {
          type := .sourceRev2
          mountPoint := trimPrefix path (ascii "/")
          proto := args.head?.getD [] }
    else .error (.unsupportedMethod method)

/-- `ParseRequest`. -/
def parseRequest (r : Reader) : Option (Except ParseError (NTRIPRequest × Reader)) :=
  match r.readString 10 with
  | none => none
  | some (.error err) => some (.error (.readRequestLine err))
  | some (.ok (line, r')) =>
    match requestLine (fields (trimEOL line)) with
    | .error err => some (.error err)
    | .ok req => readHeaders req r'

/-! ## The bytes of a request header -/

/-- A line that `trimEOL` leaves empty. -/
def IsBlankLine (line : Bytes) : Prop := ∃ l, line = l ++ [10] ∧ ∀ c ∈ l, c = 13

/-- A line that `trimEOL` does not leave empty. -/
def IsHeaderLine (line : Bytes) : Prop := ∃ l, line = l ++ [10] ∧ 10 ∉ l ∧ ∃ c ∈ l, c ≠ 13

/-- Header lines up to the first blank line, which is included. -/
inductive IsHeaderBlock : Bytes → Prop
  | blank {line : Bytes} (h : IsBlankLine line) : IsHeaderBlock line
  | line {line block : Bytes} (h : IsHeaderLine line) (hb : IsHeaderBlock block) :
      IsHeaderBlock (line ++ block)

/-- A request line, which may be any line, and the header block after it. -/
def IsRequestHeader (header : Bytes) : Prop :=
  ∃ l block, 10 ∉ l ∧ IsHeaderBlock block ∧ header = l ++ [10] ++ block

theorem isBlankLine_or_isHeaderLine {l : Bytes} (hl : 10 ∉ l) :
    trimEOL (l ++ [10]) = [] ∧ IsBlankLine (l ++ [10]) ∨
      trimEOL (l ++ [10]) ≠ [] ∧ IsHeaderLine (l ++ [10]) := by
  have htrim : trimEOL (l ++ [10]) = [] ↔ ∀ c ∈ l, c = 13 := by
    rw [trimEOL, trimRight_eq_nil]
    constructor
    · intro h c hc
      rcases List.mem_cons.mp (h c (List.mem_append_left _ hc)) with h13 | h10
      · exact h13
      · exact absurd (List.mem_singleton.mp h10 ▸ hc) hl
    · intro h c hc
      rcases List.mem_append.mp hc with hc | hc
      · exact List.mem_cons.mpr (.inl (h c hc))
      · exact List.mem_cons_of_mem _ hc
  by_cases h : ∀ c ∈ l, c = 13
  · exact .inl ⟨htrim.mpr h, l, rfl, h⟩
  · refine .inr ⟨fun ht => h (htrim.mp ht), l, rfl, hl, ?_⟩
    simpa using h

theorem readHeaders_consumes {req req' : NTRIPRequest} {r r' : Reader}
    (h : readHeaders req r = some (.ok (req', r'))) :
    ∃ block, IsHeaderBlock block ∧ r.Consumes block r' := by
  fun_induction readHeaders req r with
  | case1 => cases h
  | case2 => cases Option.some.inj h
  | case3 req r line r₁ hline hblank =>
    obtain ⟨l, rfl, hl, hcons⟩ := Reader.readString_ok hline
    obtain ⟨-, rfl⟩ := Prod.mk.inj (Except.ok.inj (Option.some.inj h))
    rcases isBlankLine_or_isHeaderLine hl with ⟨-, hb⟩ | ⟨hne, -⟩
    · exact ⟨_, .blank hb, hcons⟩
    · exact absurd hblank hne
  | case4 req r line r₁ hline hblank ih =>
    obtain ⟨l, rfl, hl, hcons⟩ := Reader.readString_ok hline
    obtain ⟨block, hblock, hrest⟩ := ih h
    rcases isBlankLine_or_isHeaderLine hl with ⟨he, -⟩ | ⟨-, hh⟩
    · exact absurd he hblank
    · exact ⟨_, .line hh hblock, hcons.trans hrest⟩

theorem readHeaders_extend {req req' : NTRIPRequest} {r r' : Reader}
    (h : readHeaders req r = some (.ok (req', r'))) (rest : List Bytes) :
    readHeaders req (r.extend rest) = some (.ok (req', r'.extend rest)) := by
  fun_induction readHeaders req r with
  | case1 => cases h
  | case2 => cases Option.some.inj h
  | case3 req r line r₁ hline hblank =>
    obtain ⟨rfl, rfl⟩ := Prod.mk.inj (Except.ok.inj (Option.some.inj h))
    rw [readHeaders, Reader.readString_extend hline rest]
    exact if_pos hblank
  | case4 req r line r₁ hline hblank ih =>
    rw [readHeaders, Reader.readString_extend hline rest]
    exact (if_neg hblank).trans (ih h)

/-- **The parser reads the header and nothing else**: an accepted request has consumed a request
line and a header block. -/
theorem parseRequest_consumes {req : NTRIPRequest} {r r' : Reader}
    (h : parseRequest r = some (.ok (req, r'))) :
    ∃ header, IsRequestHeader header ∧ r.Consumes header r' := by
  unfold parseRequest at h
  split at h
  next => cases h
  next => cases Option.some.inj h
  next line r₁ hline =>
    obtain ⟨l, rfl, hl, hcons⟩ := Reader.readString_ok hline
    split at h
    next => cases Option.some.inj h
    next =>
      obtain ⟨block, hblock, hrest⟩ := readHeaders_consumes h
      exact ⟨l ++ [10] ++ block, ⟨l, block, hl, hblock, rfl⟩, hcons.trans hrest⟩

theorem parseRequest_extend {req : NTRIPRequest} {r r' : Reader}
    (h : parseRequest r = some (.ok (req, r'))) (rest : List Bytes) :
    parseRequest (r.extend rest) = some (.ok (req, r'.extend rest)) := by
  unfold parseRequest at h
  split at h
  next => cases h
  next => cases Option.some.inj h
  next line r₁ hline =>
    rw [parseRequest, Reader.readString_extend hline rest]
    dsimp only
    split at h
    next => cases Option.some.inj h
    next => exact readHeaders_extend h rest

theorem line_inj {l l' xs ys : Bytes} (hl : 10 ∉ l) (hl' : 10 ∉ l')
    (h : l ++ [10] ++ xs = l' ++ [10] ++ ys) : l = l' ∧ xs = ys := by
  rw [List.append_assoc, List.append_assoc] at h
  have hcut := (cut_eq_some.mpr ⟨h, hl'⟩).symm.trans (cut_eq_some.mpr ⟨rfl, hl⟩)
  obtain ⟨rfl, rfl⟩ := Prod.mk.inj (Option.some.inj hcut)
  exact ⟨rfl, rfl⟩

theorem not_mem_of_blank {l : Bytes} (h : ∀ c ∈ l, c = 13) : 10 ∉ l :=
  fun h10 => absurd (h 10 h10) (by decide)

/-- A header block ends where its first blank line does. -/
theorem IsHeaderBlock.unique {b b' xs ys : Bytes} (hb : IsHeaderBlock b)
    (hb' : IsHeaderBlock b') (h : b ++ xs = b' ++ ys) : b = b' ∧ xs = ys := by
  induction hb generalizing b' with
  | blank hblank =>
    obtain ⟨l, rfl, hl⟩ := hblank
    cases hb' with
    | blank hblank' =>
      obtain ⟨l', rfl, hl'⟩ := hblank'
      obtain ⟨rfl, rfl⟩ := line_inj (not_mem_of_blank hl) (not_mem_of_blank hl') h
      exact ⟨rfl, rfl⟩
    | line hline' _ =>
      obtain ⟨l', rfl, hl10', c, hc, hne⟩ := hline'
      -- one line cannot be blank and not
      rw [List.append_assoc _ _ ys] at h
      obtain ⟨rfl, -⟩ := line_inj (not_mem_of_blank hl) hl10' h
      exact absurd (hl c hc) hne
  | line hline hblock ih =>
    obtain ⟨l, rfl, hl10, c, hc, hne⟩ := hline
    rw [List.append_assoc _ _ xs] at h
    cases hb' with
    | blank hblank' =>
      obtain ⟨l', rfl, hl'⟩ := hblank'
      obtain ⟨rfl, -⟩ := line_inj hl10 (not_mem_of_blank hl') h
      exact absurd (hl' c hc) hne
    | line hline' hblock' =>
      -- the first lines agree, and the rest by induction
      obtain ⟨l', rfl, hl10', -⟩ := hline'
      rw [List.append_assoc _ _ ys] at h
      obtain ⟨rfl, hrest⟩ := line_inj hl10 hl10' h
      obtain ⟨rfl, rfl⟩ := ih hblock' hrest
      exact ⟨rfl, rfl⟩

theorem IsRequestHeader.unique {header header' xs ys : Bytes} (hh : IsRequestHeader header)
    (hh' : IsRequestHeader header') (h : header ++ xs = header' ++ ys) :
    header = header' ∧ xs = ys := by
  obtain ⟨l, block, hl, hblock, rfl⟩ := hh
  obtain ⟨l', block', hl', hblock', rfl⟩ := hh'
  rw [List.append_assoc _ block, List.append_assoc _ block'] at h
  obtain ⟨rfl, hrest⟩ := line_inj hl hl' h
  obtain ⟨rfl, rfl⟩ := hblock.unique hblock' hrest
  exact ⟨rfl, rfl⟩

/-! ## Lines that are sent -/

/-- A line that is not empty and holds no line end at its end, and no line feed at all. -/
def IsText (l : Bytes) : Prop := 10 ∉ l ∧ ∃ l' c, l = l' ++ [c] ∧ c ≠ 13

/-- Lines, each with the line end `"\r\n"`. -/
def textLines (lines : List Bytes) : Bytes := lines.flatMap fun l => l ++ [13] ++ [10]

theorem IsText.trimEOL {l : Bytes} (h : IsText l) : trimEOL (l ++ [13] ++ [10]) = l := by
  obtain ⟨h10, l', c, rfl, h13⟩ := h
  have hc10 : c ≠ 10 := fun hc => h10 (by simp [hc])
  rw [NtripCaster.trimEOL, trimRight, List.rdropWhile_concat_pos _ _ _ (by decide),
    List.rdropWhile_concat_pos _ _ _ (by decide),
    List.rdropWhile_concat_neg _ _ _ (by simp [h13, hc10])]

theorem IsText.not_mem {l : Bytes} (h : IsText l) : 10 ∉ l ++ [13] := by
  simpa using h.1

theorem foldl_addHeader (lines : List Bytes) (req : NTRIPRequest) :
    ∃ headers, lines.foldl NTRIPRequest.addHeader req = { req with headers := headers } := by
  induction lines generalizing req with
  | nil => exact ⟨req.headers, rfl⟩
  | cons line lines ih =>
    obtain ⟨headers, h⟩ := ih (req.addHeader line)
    refine ⟨headers, h.trans ?_⟩
    unfold NTRIPRequest.addHeader
    split
    next => rfl
    next => rfl

/-- Header lines that are sent are added one after the other, up to the blank line. -/
theorem readHeaders_textLines {lines : List Bytes} (hlines : ∀ l ∈ lines, IsText l) {rest : Bytes}
    {req : NTRIPRequest} {r : Reader} (hs : r.stream = textLines lines ++ [13] ++ [10] ++ rest)
    {res : Except ParseError (NTRIPRequest × Reader)} (h : readHeaders req r = some res) :
    ∃ r', res = .ok (lines.foldl NTRIPRequest.addHeader req, r') := by
  induction lines generalizing req r with
  | nil =>
    unfold readHeaders at h
    split at h
    next => cases h
    next err herr =>
      obtain ⟨r', hres, -⟩ := Reader.readString_stream (l := [13]) (by decide) hs herr
      cases hres
    next line r' hline =>
      obtain ⟨r', hres, -⟩ := Reader.readString_stream (l := [13]) (by decide) hs hline
      obtain ⟨rfl, rfl⟩ := Prod.mk.inj (Except.ok.inj hres)
      rw [if_pos (by decide)] at h
      exact ⟨_, (Option.some.inj h).symm⟩
  | cons l lines ih =>
    have ⟨hl, hlines⟩ := List.forall_mem_cons.mp hlines
    have hs' : r.stream =
        l ++ [13] ++ [10] ++ (textLines lines ++ [13] ++ [10] ++ rest) := by
      rw [hs, textLines, List.flatMap_cons, ← textLines]
      simp only [List.append_assoc]
    unfold readHeaders at h
    split at h
    next => cases h
    next err herr =>
      obtain ⟨r', hres, -⟩ := Reader.readString_stream hl.not_mem hs' herr
      cases hres
    next line r' hline =>
      obtain ⟨r', hres, hrest⟩ := Reader.readString_stream hl.not_mem hs' hline
      obtain ⟨rfl, rfl⟩ := Prod.mk.inj (Except.ok.inj hres)
      have hne : l ≠ [] := by
        obtain ⟨-, l', c, rfl, -⟩ := hl
        simp
      rw [hl.trimEOL, if_neg hne] at h
      exact ih hlines hrest h

/-- A request line and header lines that are sent are read as the request of their fields, with
the headers added one after the other. -/
theorem parseRequest_textLines {line : Bytes} {lines : List Bytes} (hline : IsText line)
    (hlines : ∀ l ∈ lines, IsText l) {req : NTRIPRequest}
    (hreq : requestLine (fields line) = .ok req) {rest : Bytes} {r : Reader}
    (hs : r.stream = textLines (line :: lines) ++ [13] ++ [10] ++ rest)
    {res : Except ParseError (NTRIPRequest × Reader)} (h : parseRequest r = some res) :
    ∃ r', res = .ok (lines.foldl NTRIPRequest.addHeader req, r') := by
  have hs' : r.stream =
      line ++ [13] ++ [10] ++ (textLines lines ++ [13] ++ [10] ++ rest) := by
    rw [hs, textLines, List.flatMap_cons, ← textLines]
    simp only [List.append_assoc]
  unfold parseRequest at h
  split at h
  next => cases h
  next err herr =>
    obtain ⟨r', hres, -⟩ := Reader.readString_stream hline.not_mem hs' herr
    cases hres
  next l r' hl =>
    obtain ⟨r', hres, hrest⟩ := Reader.readString_stream hline.not_mem hs' hl
    obtain ⟨rfl, rfl⟩ := Prod.mk.inj (Except.ok.inj hres)
    rw [hline.trimEOL, hreq] at h
    exact readHeaders_textLines hlines hrest h

theorem readHeaders_ne_none {req : NTRIPRequest} {r : Reader} (hr : r.Trickles) :
    readHeaders req r ≠ none := by
  fun_induction readHeaders req r with
  | case1 req r hnone => exact absurd hnone (Reader.readString_ne_none hr _)
  | case2 => exact Option.some_ne_none _
  | case3 => exact Option.some_ne_none _
  | case4 req r line r' hline _ ih => exact ih (hr.of_readString hline)

/-- A connection that returns single bytes is always parsed. -/
theorem parseRequest_ne_none {r : Reader} (hr : r.Trickles) : parseRequest r ≠ none := by
  unfold parseRequest
  split
  next hnone => exact absurd hnone (Reader.readString_ne_none hr _)
  next => exact Option.some_ne_none _
  next line r' hline =>
    split
    next => exact Option.some_ne_none _
    next => exact readHeaders_ne_none (hr.of_readString hline)

end NtripCaster
