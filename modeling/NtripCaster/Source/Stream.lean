import NtripCaster.Caster.Connection
import NtripCaster.Source.ReadLoop

/-!
# The stream of a source session

The request of a connection is read through a buffer, and the read loop of the session reads the
connection itself. What the buffer has taken beyond the header is never framed. It does not
matter to the packets exactly when no preamble is among it.

## Main definitions

* `ConnHandler.sourceSession`: a connection from its first byte to the end of its read loop

## Main results

* `ConnHandler.handle_reads`: a handler that starts a session has read the connection up to the
  `Read` that returned the end of the header, and drops the rest of that `Read`
* `sourceSession_complete_iff`: no packet is lost exactly when no preamble was dropped
* `sourceSession_not_complete`: a frame sent together with the request
-/

namespace NtripCaster

open Framing

namespace RTCMFramer

/-- A dropped beginning of the stream leaves the packets as they are, whatever follows, exactly
when it holds no preamble. -/
theorem pushAll_dropped_iff {a : Bytes} :
    (∀ rest : List Bytes, (∀ r ∈ rest, Readable readLoopSize r) →
        (pushAll {} rest).2 = (push {} (a ++ rest.flatten)).2) ↔ preamble ∉ a := by
  have hpush (xs : Bytes) : (push {} xs).2 = (pushAll {} [xs]).2 := by simp [pushAll]
  constructor
  · intro h hmem
    -- behind as many zeros as a buffer at rest can hold, the preamble has left the buffer
    obtain ⟨zeros, hlen, hzero⟩ : ∃ zeros : Bytes, zeros.length = 1028 ∧ ∀ x ∈ zeros, x = 0 :=
      ⟨List.replicate 1028 0, List.length_replicate, fun x hx => List.eq_of_mem_replicate hx⟩
    have hgap : rtcm3.Gap zeros := fun x hx => by
      rw [hzero x hx]
      rfl
    have hread : Readable readLoopSize zeros := by
      refine ⟨fun h0 => ?_, by rw [hlen, readLoopSize]; omega⟩
      rw [h0] at hlen
      cases hlen
    have hnone : (pushAll {} [zeros]).2 = [] := by
      have hparse := pushAll_parse [zeros]
      rw [List.flatten_singleton, Format.parse_gap hgap] at hparse
      exact List.map_eq_nil_iff.mp (congrArg Prod.fst hparse).symm
    obtain ⟨taken, hbuf, hlay, hrest⟩ := pushAll_layout [a ++ zeros] {} resting_nil
    have hpkts := h [zeros] (List.forall_mem_singleton.mpr hread)
    rw [hnone, hpush, List.flatten_singleton] at hpkts
    rw [← hpkts] at hlay
    have hlt := hrest.length_lt
    cases hlay with
    | gap hg =>
      rw [List.flatten_singleton, List.nil_append] at hbuf
      have hlengths := congrArg List.length hbuf
      rw [List.length_append, List.length_append, hlen] at hlengths
      have hpre : a <+: taken := List.prefix_of_prefix_length_le (List.prefix_append a zeros)
        (hbuf ▸ List.prefix_append taken _) (by
          simp only [maxFrame, headerLen, maxPayload, crcLen] at hlt
          omega)
      exact rtcm3_gap_iff.mp hg (hpre.subset hmem)
  · intro hno rest _
    have h := pushAll_parse [a ++ rest.flatten]
    rw [List.flatten_singleton, Format.parse_gap_append (rtcm3_gap_iff.mpr hno),
      pushAll_parse rest] at h
    rw [hpush]
    exact List.map_injective_iff.mpr RTCMPacket.data_injective (congrArg Prod.fst h)

end RTCMFramer

namespace ConnHandler

variable {bc : Bcrypt} {env : Env} {h h' : ConnHandler}

/-- `handle` on a connection whose `Read` calls return `conn`, and the `ReadLoop` of the source
session if it starts one. -/
def sourceSession (bc : Bcrypt) (env : Env) (h : ConnHandler) (conn : List Bytes) :
    Option (List SourceEffect) :=
  (h.handle bc env conn).bind fun p =>
    match p.2.1 with
    | .source _ _ _ => readLoop {} p.2.2
    | _ => some []

/-- A handler that starts a source session leaves it exactly the `Read` results after the one
that returned the end of the header. -/
theorem handle_reads {header a : Bytes} {reads unread : List Bytes} {response m : Bytes}
    {info : SourceInfo} (hheader : IsRequestHeader header) (hreads : reads.flatten = header ++ a)
    (hlast : reads.dropLast.flatten.length < header.length)
    (hrun : h.handle bc env reads = some (h', .source response m info, unread))
    (rest : List Bytes) :
    h.handle bc env (reads ++ rest) = some (h', .source response m info, rest) := by
  unfold handle at hrun
  split at hrun
  next => cases hrun
  next => cases Option.some.inj hrun
  next req r hparse =>
    obtain ⟨header', hheader', used, hconn, hbuf⟩ := parseRequest_consumes hparse
    change reads = used ++ r.conn at hconn
    change used.flatten = header' ++ r.buf at hbuf
    have hflat : header' ++ (r.buf ++ r.conn.flatten) = header ++ a := by
      rw [← List.append_assoc, ← hbuf, ← List.flatten_append, ← hconn, hreads]
    obtain ⟨rfl, -⟩ := hheader'.unique hheader hflat
    -- the reader cannot have left a `Read` result aside: all but the last lie in the header
    have hnil : r.conn = [] := by
      by_contra hne
      rw [hconn, List.dropLast_append_of_ne_nil hne, List.flatten_append, hbuf,
        List.length_append, List.length_append] at hlast
      omega
    have hext : parseRequest (newReader (reads ++ rest)) = some (.ok (req, r.extend rest)) :=
      parseRequest_extend hparse rest
    obtain ⟨rfl, hserve⟩ := Prod.mk.inj (Option.some.inj hrun)
    obtain ⟨hsource, -⟩ := Prod.mk.inj hserve
    unfold handle
    rw [hext]
    simp only [hsource, Reader.extend, hnil, List.nil_append]

end ConnHandler

open RTCMFramer ConnHandler

/-- **The packets of a session are those of its stream exactly when no preamble was read ahead**:
let `reads` be what a connection returns up to the end of the request header, and `a` what it
returns of the stream along with that end. If the handler starts a source session, then it
broadcasts what `Push` returns on the whole stream, for whatever the connection returns next, if
and only if there is no preamble in `a`. -/
theorem sourceSession_complete_iff {bc : Bcrypt} {env : Env} {h : ConnHandler} {header a : Bytes}
    {reads : List Bytes} (hheader : IsRequestHeader header) (hreads : reads.flatten = header ++ a)
    (hlast : reads.dropLast.flatten.length < header.length)
    (hrun : ∃ h' response m info unread,
      h.handle bc env reads = some (h', .source response m info, unread)) :
    (∀ rest : List Bytes, (∀ r ∈ rest, Readable readLoopSize r) →
        (h.sourceSession bc env (reads ++ rest)).map broadcasts =
          some (push {} (a ++ rest.flatten)).2) ↔
      preamble ∉ a := by
  obtain ⟨h', response, m, info, unread, hrun⟩ := hrun
  rw [← pushAll_dropped_iff]
  refine forall_congr' fun rest => imp_congr_right fun hrest => ?_
  have hhandle := handle_reads hheader hreads hlast hrun rest
  have hsession : h.sourceSession bc env (reads ++ rest) = readLoop {} rest := by
    rw [sourceSession, hhandle]
    rfl
  rw [hsession, broadcasts_readLoop hrest, Option.some.injEq]

/-- A handler without authentication, and a registry with one mountpoint `M`. -/
def openHandler : ConnHandler where
  cfg := { auth := { defaultConfig.auth with enabled := false } }
  mgr := oneMountpoint
  acctSvc := .new .empty [] []
  globalLimiter := ⟨0, 5000⟩

/-- The header of the request `SOURCE x /M`. -/
def sourceHeader : Bytes := ascii "SOURCE x /M\r\n\r\n"

theorem sourceHeader_isRequestHeader : IsRequestHeader sourceHeader :=
  ⟨ascii "SOURCE x /M\r", ascii "\r\n", by decide,
    .blank ⟨[13], rfl, fun _ hc => List.mem_singleton.mp hc⟩, rfl⟩

theorem sourceSession_complete_iff_readAhead :
    (∀ rest : List Bytes, (∀ r ∈ rest, Readable readLoopSize r) →
        (openHandler.sourceSession plainBcrypt quietEnv
            ([ascii "SOURCE x /M\r\n", ascii "\r\n" ++ [0xD3]] ++ rest)).map broadcasts =
          some (push {} ([0xD3] ++ rest.flatten)).2) ↔
      preamble ∉ ([0xD3] : Bytes) :=
  sourceSession_complete_iff sourceHeader_isRequestHeader rfl (by decide)
    ⟨_, _, _, _, _, by with_unfolding_all rfl⟩

/-- The shortest frame, sent together with the request, is not broadcast. -/
theorem sourceSession_not_complete :
    ¬ ∀ (bc : Bcrypt) (env : Env) (h : ConnHandler) (header b : Bytes) (conn : List Bytes),
      IsRequestHeader header → conn.flatten = header ++ b →
      (∃ h' response m info unread,
        h.handle bc env conn = some (h', .source response m info, unread)) →
      (h.sourceSession bc env conn).map broadcasts = some (push {} b).2 := by
  intro hall
  have h := hall plainBcrypt quietEnv openHandler sourceHeader [0xD3, 0, 0, 1, 2, 3]
    [sourceHeader ++ [0xD3, 0, 0, 1, 2, 3]] sourceHeader_isRequestHeader rfl
    ⟨_, _, _, _, _, by with_unfolding_all rfl⟩
  exact absurd h (by decide +kernel)

end NtripCaster
