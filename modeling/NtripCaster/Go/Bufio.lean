import NtripCaster.Go.Strings

/-!
# Buffered reading

A `bufio.Reader` on a connection. The connection is given by what its `Read` calls return, in
order; after the last of them it fails. A `Read` returns at least one byte and at most as many as
the free part of the buffer takes, so not every list of results belongs to a run: `none` stands
for "the connection cannot have returned this".

## Main definitions

* `Reader`, `Reader.readString`
* `Reader.Consumes`: what a call has taken from the stream
* `Reader.extend`: the same reader on a connection that returns more
* `Reader.stream`: the bytes still to come, however they are cut
* `Reader.Trickles`: a connection that returns one byte at a time

## Main results

* `Reader.readString_ok`: a call returns the stream up to the first delimiter, and takes no more
* `Reader.readString_extend`: what the connection returns later makes no difference
* `Reader.readString_stream`: a stream with a delimiter in it is read up to there
* `Reader.readString_ne_none`: single bytes can always be returned
-/

namespace NtripCaster

/-- The size that `NewReaderSize` is given. -/
def readerSize : ℕ := 4096

/-- `bufio.Reader`: the buffered bytes not read yet, and the results of the `Read` calls that the
connection has still to answer. -/
structure Reader where
  buf : Bytes
  conn : List Bytes
  deriving DecidableEq, Repr

/-- `bufio.NewReaderSize(conn, 4096)`. -/
def newReader (conn : List Bytes) : Reader := ⟨[], conn⟩

/-- The error of a `Read` call: end of file, a deadline or a broken connection. -/
inductive ReadError
  | read
  deriving DecidableEq, Repr

/-- A `Read` of a connection can return `r` if `n` bytes are offered to it. -/
def Readable (n : ℕ) (r : Bytes) : Prop := r ≠ [] ∧ r.length ≤ n

instance (n : ℕ) (r : Bytes) : Decidable (Readable n r) := inferInstanceAs (Decidable (_ ∧ _))

namespace Reader

/-- The loop of `ReadString`: `full` are the full buffers set aside so far, `buf` what is
buffered. -/
def collect (delim : UInt8) (full buf : Bytes) :
    List Bytes → Option (Except ReadError (Bytes × Reader))
  | [] =>
    match cut delim buf with
    | some (line, rest) => some (.ok (full ++ line ++ [delim], ⟨rest, []⟩))
    | none => some (.error .read)
  | r :: conn =>
    match cut delim buf with
    | some (line, rest) => some (.ok (full ++ line ++ [delim], ⟨rest, r :: conn⟩))
    | none =>
      -- `ErrBufferFull`: a full buffer is set aside before the next `Read`
      if buf.length < readerSize then
        if Readable (readerSize - buf.length) r then collect delim full (buf ++ r) conn else none
      else if Readable readerSize r then collect delim (full ++ buf) r conn
      else none

/-- `ReadString`. -/
def readString (delim : UInt8) (r : Reader) : Option (Except ReadError (Bytes × Reader)) :=
  collect delim [] r.buf r.conn

/-- The bytes that a reader can still return. -/
def pending (r : Reader) : ℕ := r.buf.length + r.conn.flatten.length

/-- The stream of `r` starts with `xs`, and `r'` is the reader after it. -/
def Consumes (r : Reader) (xs : Bytes) (r' : Reader) : Prop :=
  ∃ used, r.conn = used ++ r'.conn ∧ r.buf ++ used.flatten = xs ++ r'.buf

/-- The reader on a connection that returns `rest` after everything else. -/
def extend (r : Reader) (rest : List Bytes) : Reader := { r with conn := r.conn ++ rest }

variable {r r' r'' : Reader}

theorem Consumes.trans {xs ys : Bytes} (h : r.Consumes xs r') (h' : r'.Consumes ys r'') :
    r.Consumes (xs ++ ys) r'' := by
  obtain ⟨used, hconn, hbuf⟩ := h
  obtain ⟨used', hconn', hbuf'⟩ := h'
  refine ⟨used ++ used', by rw [hconn, hconn', List.append_assoc], ?_⟩
  rw [List.flatten_append, ← List.append_assoc, hbuf, List.append_assoc, hbuf', List.append_assoc]

theorem Consumes.pending_eq {xs : Bytes} (h : r.Consumes xs r') :
    r.pending = xs.length + r'.pending := by
  obtain ⟨used, hconn, hbuf⟩ := h
  have hlen := congrArg List.length hbuf
  rw [List.length_append, List.length_append] at hlen
  rw [pending, pending, hconn, List.flatten_append, List.length_append]
  omega

/-- A result of the loop is the stream up to the first delimiter. -/
theorem collect_ok {delim : UInt8} {full buf line : Bytes} {conn : List Bytes}
    (h : collect delim full buf conn = some (.ok (line, r'))) (hfull : delim ∉ full) :
    ∃ l used, line = l ++ [delim] ∧ delim ∉ l ∧ conn = used ++ r'.conn ∧
      full ++ buf ++ used.flatten = line ++ r'.buf := by
  induction conn generalizing full buf with
  | nil =>
    unfold collect at h
    split at h
    next l rest hcut =>
      obtain ⟨rfl, hl⟩ := cut_eq_some.mp hcut
      obtain ⟨rfl, rfl⟩ := Prod.mk.inj (Except.ok.inj (Option.some.inj h))
      exact ⟨full ++ l, [], rfl, by simp [hfull, hl], rfl, by simp⟩
    next => cases Option.some.inj h
  | cons r conn ih =>
    unfold collect at h
    split at h
    next l rest hcut =>
      obtain ⟨rfl, hl⟩ := cut_eq_some.mp hcut
      obtain ⟨rfl, rfl⟩ := Prod.mk.inj (Except.ok.inj (Option.some.inj h))
      exact ⟨full ++ l, [], rfl, by simp [hfull, hl], rfl, by simp⟩
    next hcut =>
      -- whatever is set aside or kept has no delimiter in it
      have hbuf := cut_eq_none.mp hcut
      split_ifs at h
      · obtain ⟨l, used, hline, hl, rfl, heq⟩ := ih h hfull
        exact ⟨l, r :: used, hline, hl, rfl, by simpa using heq⟩
      · obtain ⟨l, used, hline, hl, rfl, heq⟩ := ih h (by simp [hfull, hbuf])
        exact ⟨l, r :: used, hline, hl, rfl, by simpa using heq⟩

theorem readString_ok {delim : UInt8} {line : Bytes}
    (h : r.readString delim = some (.ok (line, r'))) :
    ∃ l, line = l ++ [delim] ∧ delim ∉ l ∧ r.Consumes line r' := by
  obtain ⟨l, used, hline, hl, hconn, hbuf⟩ := collect_ok h List.not_mem_nil
  exact ⟨l, hline, hl, used, hconn, by simpa using hbuf⟩

theorem pending_lt_of_readString {delim : UInt8} {line : Bytes}
    (h : r.readString delim = some (.ok (line, r'))) : r'.pending < r.pending := by
  obtain ⟨l, rfl, -, hcons⟩ := readString_ok h
  rw [hcons.pending_eq, List.length_append, List.length_singleton]
  omega

theorem collect_append {delim : UInt8} {full buf line : Bytes} {conn : List Bytes}
    (h : collect delim full buf conn = some (.ok (line, r'))) (rest : List Bytes) :
    collect delim full buf (conn ++ rest) = some (.ok (line, r'.extend rest)) := by
  induction conn generalizing full buf with
  | nil =>
    unfold collect at h
    split at h
    next l tail hcut =>
      obtain ⟨rfl, rfl⟩ := Prod.mk.inj (Except.ok.inj (Option.some.inj h))
      cases rest with
      | nil => simp [collect, hcut, extend]
      | cons r rest => simp [collect, hcut, extend]
    next => cases Option.some.inj h
  | cons r conn ih =>
    rw [List.cons_append]
    unfold collect at h ⊢
    split at h
    next l tail hcut =>
      obtain ⟨rfl, rfl⟩ := Prod.mk.inj (Except.ok.inj (Option.some.inj h))
      simp [extend]
    next =>
      split_ifs at h ⊢
      · exact ih h
      · exact ih h

theorem readString_extend {delim : UInt8} {line : Bytes}
    (h : r.readString delim = some (.ok (line, r'))) (rest : List Bytes) :
    (r.extend rest).readString delim = some (.ok (line, r'.extend rest)) :=
  collect_append h rest

/-! ## The stream of a reader -/

/-- The bytes buffered and still to be returned. -/
def stream (r : Reader) : Bytes := r.buf ++ r.conn.flatten

theorem Consumes.stream_eq {xs : Bytes} (h : r.Consumes xs r') : r.stream = xs ++ r'.stream := by
  obtain ⟨used, hconn, hbuf⟩ := h
  rw [stream, stream, hconn, List.flatten_append, ← List.append_assoc, hbuf, List.append_assoc]

/-- The loop fails only where there is no delimiter. -/
theorem collect_error {delim : UInt8} {full buf : Bytes} {conn : List Bytes} {err : ReadError}
    (h : collect delim full buf conn = some (.error err)) : delim ∉ buf ++ conn.flatten := by
  induction conn generalizing full buf with
  | nil =>
    unfold collect at h
    split at h
    next => cases Option.some.inj h
    next hcut => simpa using cut_eq_none.mp hcut
  | cons r conn ih =>
    unfold collect at h
    split at h
    next => cases Option.some.inj h
    next hcut =>
      have hbuf := cut_eq_none.mp hcut
      rw [List.flatten_cons, ← List.append_assoc]
      split_ifs at h
      · exact ih h
      · rw [List.append_assoc]
        exact fun hm => (List.mem_append.mp hm).elim hbuf (ih h)

/-- A line of the stream is read as it is, however the connection cuts it. -/
theorem readString_stream {delim : UInt8} {l rest : Bytes} (hl : delim ∉ l)
    (hs : r.stream = l ++ [delim] ++ rest) {res : Except ReadError (Bytes × Reader)}
    (h : r.readString delim = some res) :
    ∃ r', res = .ok (l ++ [delim], r') ∧ r'.stream = rest := by
  cases res with
  | error err =>
    refine absurd ?_ (collect_error h)
    rw [← stream, hs]
    simp
  | ok res =>
    obtain ⟨line, r'⟩ := res
    obtain ⟨l', rfl, hl', hcons⟩ := readString_ok h
    have hstream := hcons.stream_eq.symm.trans hs
    simp only [List.append_assoc, List.singleton_append] at hstream
    have hcut := (cut_eq_some.mpr ⟨hstream, hl⟩).symm.trans (cut_eq_some.mpr ⟨rfl, hl'⟩)
    obtain ⟨rfl, hrest⟩ := Prod.mk.inj (Option.some.inj hcut)
    exact ⟨r', rfl, hrest.symm⟩

/-- The connection returns one byte at a time. -/
def Trickles (r : Reader) : Prop := ∀ c ∈ r.conn, c.length = 1

theorem collect_ne_none {delim : UInt8} {conn : List Bytes} (h : ∀ c ∈ conn, c.length = 1)
    (full buf : Bytes) : collect delim full buf conn ≠ none := by
  have hreadable : ∀ {c : Bytes} {n : ℕ}, c.length = 1 → 0 < n → Readable n c :=
    fun hc hn => ⟨fun h0 => by simp [h0] at hc, by omega⟩
  induction conn generalizing full buf with
  | nil =>
    unfold collect
    split <;> exact Option.some_ne_none _
  | cons c conn ih =>
    have hc : c.length = 1 := h c (List.mem_cons_self ..)
    have hconn := fun d hd => h d (List.mem_cons_of_mem _ hd)
    unfold collect
    split
    next => exact Option.some_ne_none _
    next =>
      split_ifs with hfull hread hread
      · exact ih hconn _ _
      · exact absurd (hreadable hc (by omega)) hread
      · exact ih hconn _ _
      · exact absurd (hreadable hc (by decide)) hread

theorem readString_ne_none (h : r.Trickles) (delim : UInt8) : r.readString delim ≠ none :=
  collect_ne_none h _ _

theorem Trickles.of_readString {delim : UInt8} {line : Bytes} (hr : r.Trickles)
    (h : r.readString delim = some (.ok (line, r'))) : r'.Trickles := by
  obtain ⟨l, -, -, used, hconn, -⟩ := readString_ok h
  exact fun c hc => hr c (hconn ▸ List.mem_append_right _ hc)

end Reader

end NtripCaster
