import NtripCaster.Auth.BasicAuth
import NtripCaster.Caster.Protocol

/-!
# The requests of the simulated stations

`sendSourceRequest` of `cmd/simbase/main.go` and `sendRoverRequest` of `cmd/simrover/main.go`,
against the parser of the caster.

## Main definitions

* `sendSourceRequest`, `sendRoverRequest`: the bytes written
* `ParsedAs`: however the bytes arrive, they are parsed as a request with a property

## Main results

* `parsedAs_textLines`: a request sent line by line is parsed as its lines say
* `authorization_header`: the credentials come back from the header they are sent in
* `requests_parsed`: what the stations send is what the caster reads
-/

namespace NtripCaster

/-- The error `unsupported rev %d`. -/
structure UnsupportedRev where
  rev : ℤ

/-- The `Authorization` line, which is sent for a user only. -/
def authorizationLine (user pass : Bytes) : Bytes :=
  if user ≠ [] then
    ascii "Authorization: Basic " ++ encodeBase64 (user ++ ascii ":" ++ pass) ++ ascii "\r\n"
  else []

/-- The bytes that `sendSourceRequest` writes. -/
def sendSourceRequest (rev : ℤ) (mount user pass : Bytes) : Except UnsupportedRev Bytes :=
  if rev = 1 then
    .ok (ascii "SOURCE " ++ pass ++ ascii " /" ++ mount ++ ascii "\r\n\r\n")
  else if rev = 2 then
    .ok (ascii "POST /" ++ mount ++ ascii " HTTP/1.1\r\n" ++ ascii "Host: localhost\r\n" ++
      ascii "Ntrip-Version: Ntrip/2.0\r\n" ++ ascii "Transfer-Encoding: chunked\r\n" ++
      authorizationLine user pass ++ ascii "\r\n")
  else .error ⟨rev⟩

/-- The bytes that `sendRoverRequest` writes. -/
def sendRoverRequest (mount user pass : Bytes) : Bytes :=
  ascii "GET /" ++ mount ++ ascii " HTTP/1.1\r\n" ++ ascii "Host: localhost\r\n" ++
    ascii "Ntrip-Version: Ntrip/2.0\r\n" ++ ascii "User-Agent: NTRIP simrover/1.0\r\n" ++
    authorizationLine user pass ++ ascii "\r\n"

/-- Whatever follows these bytes and however the connection cuts them, the parser returns a
request with the property, and a connection that returns single bytes is parsed. -/
def ParsedAs (bytes : Bytes) (P : NTRIPRequest → Prop) : Prop :=
  (∀ (conn : List Bytes) (more : Bytes), conn.flatten = bytes ++ more →
    ∀ res, parseRequest (newReader conn) = some res → ∃ req r', res = .ok (req, r') ∧ P req) ∧
  ∀ more, parseRequest (newReader ((bytes ++ more).map fun b => [b])) ≠ none

theorem parsedAs_textLines {line : Bytes} {lines : List Bytes} {req : NTRIPRequest}
    {P : NTRIPRequest → Prop} (hline : IsText line) (hlines : ∀ l ∈ lines, IsText l)
    (hreq : requestLine (fields line) = .ok req) (hP : P (lines.foldl NTRIPRequest.addHeader req)) :
    ParsedAs (textLines (line :: lines) ++ [13] ++ [10]) P := by
  refine ⟨fun conn more hconn res hres => ?_, fun more => parseRequest_ne_none ?_⟩
  · obtain ⟨r', rfl⟩ := parseRequest_textLines hline hlines hreq (r := newReader conn) hconn hres
    exact ⟨_, r', rfl, hP⟩
  · intro c hc
    obtain ⟨b, -, rfl⟩ := List.mem_map.mp hc
    rfl

theorem isText_append {u w : Bytes} (hu : 10 ∉ u) (hne : w ≠ []) (hw : NoSpace w) :
    IsText (u ++ w) := by
  refine ⟨fun h => (List.mem_append.mp h).elim hu (hw.not_mem (by decide)), ?_⟩
  obtain ⟨w', c, rfl⟩ := (List.eq_nil_or_concat' w).resolve_left hne
  refine ⟨u ++ w', c, (List.append_assoc ..).symm, ?_⟩
  rintro rfl
  exact hw.not_mem (by decide) (List.mem_append_right _ (List.mem_singleton_self _))

/-- What remains to be looked at for a line of known bytes. -/
theorem isText_of_getLast? {l : Bytes} (h10 : 10 ∉ l) {c : UInt8} (hlast : l.getLast? = some c)
    (h13 : c ≠ 13) : IsText l := by
  obtain ⟨l', rfl⟩ := List.getLast?_eq_some_iff.mp hlast
  exact ⟨h10, l', c, rfl, h13⟩

/-- The fields of a request line. -/
theorem fields_requestLine {a b c : Bytes} (ha : NoSpace a) (hb : NoSpace b) (hc : NoSpace c)
    (hane : a ≠ []) (hbne : b ≠ []) (hcne : c ≠ []) :
    fields (a ++ 0x20 :: (b ++ 0x20 :: c)) = [a, b, c] := by
  rw [fields_word hane ha, fields_word hbne hb, fields_last hcne hc]

theorem NoSpace.path {mount : Bytes} (h : NoSpace mount) : NoSpace (0x2F :: mount) :=
  h.cons (by decide)

theorem trimPrefix_path (mount : Bytes) : trimPrefix (0x2F :: mount) (ascii "/") = mount := by
  simp [trimPrefix, ascii]

/-! ## The Authorization header -/

/-- The credentials of a user, as they are sent. -/
def credentials (user pass : Bytes) : Bytes := encodeBase64 (user ++ ascii ":" ++ pass)

theorem credentials_ne_nil (user pass : Bytes) : credentials user pass ≠ [] :=
  encodeBase64_ne_nil (by simp [ascii])

theorem graphic_of_mem_credentials {user pass : Bytes} {c : UInt8}
    (h : c ∈ credentials user pass) : Graphic c := by
  obtain ⟨hlow, hhigh⟩ := base64_of_mem h
  have h43 : (0x21 : UInt8) ≤ 43 := by decide
  have h122 : (122 : UInt8) ≤ 0x7E := by decide
  exact ⟨UInt8.le_trans h43 hlow, UInt8.le_trans hhigh h122⟩

theorem isText_authorization (user pass : Bytes) :
    IsText (ascii "Authorization: Basic " ++ credentials user pass) := by
  have hgraphic := @graphic_of_mem_credentials user pass
  refine ⟨fun h => (List.mem_append.mp h).elim (by decide) fun h10 => ?_, ?_⟩
  · exact absurd (hgraphic h10).1 (by decide)
  · obtain ⟨t, c, ht⟩ := (List.eq_nil_or_concat' _).resolve_left (credentials_ne_nil user pass)
    refine ⟨_ ++ t, c, by rw [ht, List.append_assoc], ?_⟩
    rintro rfl
    have h13 : 13 ∈ credentials user pass :=
      ht ▸ List.mem_append_right _ (List.mem_singleton_self _)
    exact absurd (hgraphic h13).1 (by decide)

/-- The header holds the trimmed value, and replaces whatever was there under its name. -/
theorem header_authorization (req : NTRIPRequest) (user pass : Bytes) :
    (req.addHeader (ascii "Authorization: Basic " ++ credentials user pass)).header
        "Authorization" = ascii "Basic " ++ credentials user pass := by
  have hline : ascii "Authorization: Basic " =
      ascii "Authorization" ++ 58 :: 0x20 :: ascii "Basic " := by decide
  have hcut : cut 58 (ascii "Authorization: Basic " ++ credentials user pass) =
      some (ascii "Authorization", 0x20 :: (ascii "Basic " ++ credentials user pass)) := by
    rw [hline, List.append_assoc]
    exact cut_eq_some.mpr ⟨rfl, by decide⟩
  have hval : trimSpace (0x20 :: (ascii "Basic " ++ credentials user pass)) =
      ascii "Basic " ++ credentials user pass := by
    obtain ⟨t, c, ht⟩ := (List.eq_nil_or_concat' _).resolve_left (credentials_ne_nil user pass)
    have hc : c ∈ credentials user pass := ht ▸ List.mem_append_right _ (List.mem_singleton_self _)
    have hbasic : ascii "Basic " = 66 :: ascii "asic " := by decide
    rw [hbasic, List.cons_append]
    refine trimSpace_space (t := 66 :: (ascii "asic " ++ t)) ⟨by decide, by decide⟩
      (graphic_of_mem_credentials hc) ?_
    rw [ht, List.cons_append, List.append_assoc]
  have hkey : trimSpace (ascii "Authorization") = ascii "Authorization" := by decide
  rw [NTRIPRequest.addHeader, hcut]
  simp only [NTRIPRequest.header, hkey, hval, AList.lookup_insert, Option.getD_some]

theorem parseBasicAuth_credentials {user pass : Bytes} (huser : 58 ∉ user) :
    parseBasicAuth (ascii "Basic " ++ credentials user pass) = some (user, pass) := by
  have hprefix : (ascii "Basic ").isPrefixOf (ascii "Basic " ++ credentials user pass) = true :=
    List.isPrefixOf_iff_prefix.mpr (List.prefix_append _ _)
  rw [parseBasicAuth, if_pos hprefix, List.drop_left, credentials, decodeBase64_encodeBase64]
  exact cut_eq_some.mpr ⟨by simp [ascii], huser⟩

/-! ## Builders and parser -/

/-- A request with further header lines before the credentials. -/
theorem parsedAs_authorization {line mount user pass : Bytes} {lines : List Bytes}
    {type : RequestType} {proto : Bytes} (hline : IsText line) (hlines : ∀ l ∈ lines, IsText l)
    (hreq : requestLine (fields line) =
      .ok { type := type, mountPoint := mount, proto := proto })
    (huser : 58 ∉ user) :
    ParsedAs (textLines (line ::
        (lines ++ [ascii "Authorization: Basic " ++ credentials user pass])) ++ [13] ++ [10])
      fun req => req.type = type ∧ req.mountPoint = mount ∧
        parseBasicAuth (req.header "Authorization") = some (user, pass) := by
  have hauth := header_authorization (lines.foldl NTRIPRequest.addHeader
    { type := type, mountPoint := mount, proto := proto }) user pass
  have htext := isText_authorization user pass
  generalize ascii "Authorization: Basic " ++ credentials user pass = auth at hauth htext ⊢
  have hlines' : ∀ l ∈ lines ++ [auth], IsText l :=
    List.forall_mem_append.mpr ⟨hlines, List.forall_mem_singleton.mpr htext⟩
  refine parsedAs_textLines hline hlines' hreq ?_
  -- the credentials are in the last header, and no header changes the request line
  obtain ⟨headers, hfold⟩ := foldl_addHeader (lines ++ [auth])
    { type := type, mountPoint := mount, proto := proto }
  refine ⟨by rw [hfold], by rw [hfold], ?_⟩
  rw [List.foldl_append, List.foldl_cons, List.foldl_nil, hauth, parseBasicAuth_credentials huser]

/-- The request line of a Rev2 request. -/
theorem isText_requestLine {method mount proto : Bytes} (h10 : 10 ∉ method)
    (hspace : NoSpace mount) (hne : proto ≠ []) (hproto : NoSpace proto) :
    IsText (method ++ 0x20 :: (0x2F :: mount ++ 0x20 :: proto)) := by
  have h := isText_append (u := method ++ 0x20 :: (0x2F :: mount ++ [0x20])) (w := proto) ?_
    hne hproto
  · simpa using h
  · simpa [h10] using hspace.not_mem (c := 10) (by decide)

theorem requestLine_get {mount : Bytes} (hmount : mount ≠ []) (proto : Bytes) :
    requestLine [ascii "GET", 0x2F :: mount, proto] =
      .ok { type := .rover, mountPoint := mount, proto := proto } := by
  have hslash : ascii "/" = [0x2F] := by decide
  have hpath : 0x2F :: mount ≠ ascii "/" := fun h => hmount (List.cons.inj (h.trans hslash)).2
  rw [requestLine, if_pos rfl]
  simp only [hpath, if_false, trimPrefix_path, List.head?_cons, Option.getD_some]

theorem requestLine_post (mount proto : Bytes) :
    requestLine [ascii "POST", 0x2F :: mount, proto] =
      .ok { type := .sourceRev2, mountPoint := mount, proto := proto } := by
  rw [requestLine, if_neg (by decide), if_neg (by decide), if_pos rfl]
  simp only [trimPrefix_path, List.head?_cons, Option.getD_some]

theorem requestLine_source (mount pass : Bytes) :
    requestLine [ascii "SOURCE", pass, 0x2F :: mount] =
      .ok { type := .sourceRev1, mountPoint := mount, password := pass } := by
  rw [requestLine, if_neg (by decide), if_pos rfl]
  simp only [trimPrefix_path]

/-- The bytes of a Rev2 request, line by line: the method and the third header are what the two
stations do not share. -/
theorem rev2_eq_textLines {first method third header mount user : Bytes}
    (hfirst : first = method ++ [0x20, 0x2F]) (hthird : third = header ++ [13] ++ [10])
    (huser : user ≠ []) (pass : Bytes) :
    first ++ mount ++ ascii " HTTP/1.1\r\n" ++ ascii "Host: localhost\r\n" ++
        ascii "Ntrip-Version: Ntrip/2.0\r\n" ++ third ++ authorizationLine user pass ++
        ascii "\r\n" =
      textLines ((method ++ 0x20 :: (0x2F :: mount ++ 0x20 :: ascii "HTTP/1.1")) ::
        ([ascii "Host: localhost", ascii "Ntrip-Version: Ntrip/2.0", header] ++
          [ascii "Authorization: Basic " ++ credentials user pass])) ++ [13] ++ [10] := by
  have hproto : ascii " HTTP/1.1\r\n" = 0x20 :: ascii "HTTP/1.1" ++ [13] ++ [10] := by decide
  have hhost : ascii "Host: localhost\r\n" = ascii "Host: localhost" ++ [13] ++ [10] := by decide
  have hversion : ascii "Ntrip-Version: Ntrip/2.0\r\n" =
      ascii "Ntrip-Version: Ntrip/2.0" ++ [13] ++ [10] := by decide
  have heol : ascii "\r\n" = [13] ++ [10] := by decide
  rw [hfirst, hthird, authorizationLine, if_pos huser, ← credentials, hproto, hhost, hversion, heol]
  simp only [textLines, List.flatMap_cons, List.flatMap_nil, List.append_assoc, List.cons_append,
    List.nil_append, List.append_nil]

/-- A Rev2 request is parsed as a request of its type, mount name and credentials. -/
theorem parsedAs_rev2 {first method third header mount user : Bytes} {type : RequestType}
    (hfirst : first = method ++ [0x20, 0x2F]) (hthird : third = header ++ [13] ++ [10])
    (hne : method ≠ []) (hmethod : NoSpace method) (hheader : IsText header)
    (hreq : requestLine [method, 0x2F :: mount, ascii "HTTP/1.1"] =
      .ok { type := type, mountPoint := mount, proto := ascii "HTTP/1.1" })
    (hspace : NoSpace mount) (huser : user ≠ []) (hcolon : 58 ∉ user) (pass : Bytes) :
    ParsedAs (first ++ mount ++ ascii " HTTP/1.1\r\n" ++ ascii "Host: localhost\r\n" ++
        ascii "Ntrip-Version: Ntrip/2.0\r\n" ++ third ++ authorizationLine user pass ++
        ascii "\r\n")
      fun req => req.type = type ∧ req.mountPoint = mount ∧
        parseBasicAuth (req.header "Authorization") = some (user, pass) := by
  have hhost : IsText (ascii "Host: localhost") :=
    isText_of_getLast? (c := 116) (by decide) (by decide) (by decide)
  have hversion : IsText (ascii "Ntrip-Version: Ntrip/2.0") :=
    isText_of_getLast? (c := 48) (by decide) (by decide) (by decide)
  have hproto : NoSpace (ascii "HTTP/1.1") := by decide +kernel
  have hprotone : ascii "HTTP/1.1" ≠ [] := by decide
  rw [← fields_requestLine hmethod hspace.path hproto hne (List.cons_ne_nil _ _) hprotone] at hreq
  have h10 : 10 ∉ method := hmethod.not_mem (by decide)
  have hline := isText_requestLine h10 hspace hprotone hproto
  have hlines : ∀ l ∈ [ascii "Host: localhost", ascii "Ntrip-Version: Ntrip/2.0", header],
      IsText l :=
    List.forall_mem_cons.mpr ⟨hhost, List.forall_mem_cons.mpr ⟨hversion,
      List.forall_mem_singleton.mpr hheader⟩⟩
  rw [rev2_eq_textLines hfirst hthird huser pass]
  exact parsedAs_authorization hline hlines hreq hcolon

/-- **Builders and parser agree**: what the simulated stations send for a mount name without
white space is read as a request of their type for this mount, with the user and the password,
respectively the Rev1 password, that they were given. -/
theorem requests_parsed (mount user pass : Bytes) (hmount : mount ≠ []) (hspace : NoSpace mount) :
    (user ≠ [] → 58 ∉ user →
      (∃ bytes, sendSourceRequest 2 mount user pass = .ok bytes ∧
        ParsedAs bytes fun req => req.type = .sourceRev2 ∧ req.mountPoint = mount ∧
          parseBasicAuth (req.header "Authorization") = some (user, pass)) ∧
      ParsedAs (sendRoverRequest mount user pass) fun req => req.type = .rover ∧
        req.mountPoint = mount ∧
          parseBasicAuth (req.header "Authorization") = some (user, pass)) ∧
    (pass ≠ [] → NoSpace pass →
      ∃ bytes, sendSourceRequest 1 mount user pass = .ok bytes ∧
        ParsedAs bytes fun req => req.type = .sourceRev1 ∧ req.password = pass ∧
          req.mountPoint = mount) := by
  refine ⟨fun huser hcolon => ⟨⟨_, rfl, ?_⟩, ?_⟩, fun hpass hpassSpace => ⟨_, rfl, ?_⟩⟩
  · have hpost : NoSpace (ascii "POST") := by decide +kernel
    have hchunked : IsText (ascii "Transfer-Encoding: chunked") :=
      isText_of_getLast? (c := 100) (by decide) (by decide) (by decide)
    exact parsedAs_rev2 (by decide) (by decide) (by decide) hpost hchunked
      (requestLine_post mount _) hspace huser hcolon pass
  · have hget : NoSpace (ascii "GET") := by decide +kernel
    have hagent : IsText (ascii "User-Agent: NTRIP simrover/1.0") :=
      isText_of_getLast? (c := 48) (by decide) (by decide) (by decide)
    exact parsedAs_rev2 (by decide) (by decide) (by decide) hget hagent
      (requestLine_get hmount _) hspace huser hcolon pass
  · have hsource : NoSpace (ascii "SOURCE") := by decide +kernel
    have hfields : fields (ascii "SOURCE" ++ 0x20 :: (pass ++ 0x20 :: (0x2F :: mount))) =
        [ascii "SOURCE", pass, 0x2F :: mount] :=
      fields_requestLine hsource hpassSpace hspace.path (by decide) hpass (List.cons_ne_nil _ _)
    have hline : IsText (ascii "SOURCE" ++ 0x20 :: (pass ++ 0x20 :: (0x2F :: mount))) := by
      have h :=
        isText_append (u := ascii "SOURCE" ++ 0x20 :: (pass ++ [0x20, 0x2F])) (w := mount) ?_
        hmount hspace
      · simpa using h
      · have h10 : 10 ∉ ascii "SOURCE" := by decide
        simpa [h10] using hpassSpace.not_mem (c := 10) (by decide)
    -- a Rev1 request has no headers
    have hnone : ∀ l ∈ ([] : List Bytes), IsText l := fun l hl => by cases hl
    have hparsed := parsedAs_textLines hline hnone (hfields ▸ requestLine_source mount pass)
      (P := fun req => req.type = .sourceRev1 ∧ req.password = pass ∧ req.mountPoint = mount)
      ⟨rfl, rfl, rfl⟩
    have hfirst : ascii "SOURCE " = ascii "SOURCE" ++ [0x20] := by decide
    have hslash : ascii " /" = [0x20, 0x2F] := by decide
    have heol : ascii "\r\n\r\n" = [13] ++ [10] ++ [13] ++ [10] := by decide
    rw [hfirst, hslash, heol]
    simpa only [textLines, List.flatMap_cons, List.flatMap_nil, List.append_assoc,
      List.cons_append, List.nil_append, List.append_nil] using hparsed

/-- A mount name with a slash in front, and a password that is all separators. -/
theorem requests_parsed_separators :
    (∃ bytes, sendSourceRequest 2 (ascii "/A:B") (ascii "user") (ascii ":/:") = .ok bytes ∧
        ParsedAs bytes fun req => req.type = .sourceRev2 ∧ req.mountPoint = ascii "/A:B" ∧
          parseBasicAuth (req.header "Authorization") = some (ascii "user", ascii ":/:")) ∧
      ParsedAs (sendRoverRequest (ascii "/A:B") (ascii "user") (ascii ":/:")) (fun req =>
        req.type = .rover ∧ req.mountPoint = ascii "/A:B" ∧
          parseBasicAuth (req.header "Authorization") = some (ascii "user", ascii ":/:")) ∧
      ∃ bytes, sendSourceRequest 1 (ascii "/A:B") (ascii "user") (ascii ":/:") = .ok bytes ∧
        ParsedAs bytes fun req => req.type = .sourceRev1 ∧ req.password = ascii ":/:" ∧
          req.mountPoint = ascii "/A:B" := by
  obtain ⟨hrev2, hrev1⟩ := requests_parsed (ascii "/A:B") (ascii "user") (ascii ":/:") (by decide)
    (by decide +kernel)
  obtain ⟨hsource, hrover⟩ := hrev2 (by decide) (by decide)
  exact ⟨hsource, hrover, hrev1 (by decide) (by decide +kernel)⟩

end NtripCaster
