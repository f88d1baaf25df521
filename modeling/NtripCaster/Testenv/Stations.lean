import NtripCaster.Library.Separated
import NtripCaster.Simbase.Request

/-!
# The stations of the test environment

The mountpoints that `cmd/testenv/main.go` creates, the commands that it prints for the two
simulators, and what the simulators make of them: `buildMountList` of `cmd/simbase/main.go` and of
`cmd/simrover/main.go`, and the request of each station.

## Main definitions

* `Testenv.mountName`, `Testenv.mountNames`
* `Simbase.Flags`, `Simbase.buildMountList`, `Simrover.Flags`, `Simrover.buildMountList`
* `Testenv.simbaseFlags`, `Testenv.simroverFlags`: the flags of the printed commands
* `NTRIPRequest.Says`

## Main results

* `Testenv.mountNames_nodup`
* `Testenv.buildMountList_simbase`, `Testenv.buildMountList_simrover`: the printed commands name the
  mountpoints that were created
* `parsedAs_sendSourceRequest`, `parsedAs_sendRoverRequest`: with or without a user
-/

namespace NtripCaster

/-- `fmt.Sprintf("%s_%d", prefix, i)`. -/
def numbered (pre : Bytes) (i : ℕ) : Bytes := pre ++ ascii "_" ++ formatInt i

namespace Simbase

/-- The flags of a base station, with their defaults. -/
structure Flags where
  mount : Bytes := []
  mountPrefix : Bytes := ascii "BENCH"
  user : Bytes := []
  pass : Bytes := []
  rev : ℤ := 2
  count : ℕ := 1

/-- `buildMountList` of the base: one name, or numbered ones. -/
def buildMountList (mount pre : Bytes) (count : ℕ) : List Bytes :=
  if count = 1 ∧ mount ≠ [] then [mount]
  else if count = 1 ∧ mount = [] then [pre ++ ascii "_0"]
  else (List.range count).map (numbered pre)

/-- The mountpoints that the stations connect to, one each. -/
def Flags.mountList (flags : Flags) : List Bytes :=
  buildMountList flags.mount flags.mountPrefix flags.count

end Simbase

namespace Simrover

/-- The flags of the rovers, with their defaults. -/
structure Flags where
  mount : Bytes := []
  mounts : Bytes := []
  user : Bytes := []
  pass : Bytes := []
  count : ℕ := 1

/-- `buildMountList` of the rover: the names between the commas, or the single one. -/
def buildMountList (single multi : Bytes) : List Bytes :=
  if multi ≠ [] then ((multi.splitOn 0x2C).map trimSpace).filter (· ≠ [])
  else if single ≠ [] then [single]
  else []

/-- The mountpoints that the rovers connect to, one after the other. -/
def Flags.mountList (flags : Flags) : List Bytes := buildMountList flags.mount flags.mounts

end Simrover

namespace Testenv

/-! ## The mountpoints and the printed commands -/

/-- The account of the bases. -/
def baseUser : Bytes := ascii "base"
/-- The account of the rovers. -/
def roverUser : Bytes := ascii "rover1"
/-- The password of both. -/
def password : Bytes := ascii "test"

variable (numMounts : ℕ) (pre : Bytes) (auth : Bool)

/-- The name of the `i`th mountpoint. -/
def mountName (i : ℕ) : Bytes := if numMounts = 1 then pre else numbered pre i

/-- All mountpoints, in the order they are created in. -/
def mountNames : List Bytes := (List.range numMounts).map (mountName numMounts pre)

/-- The command for the base stations; it names a user if `auth` is on. -/
def simbaseFlags : Simbase.Flags where
  mount := if numMounts = 1 then mountName numMounts pre 0 else []
  mountPrefix := if numMounts = 1 then ascii "BENCH" else pre
  user := if auth then baseUser else []
  pass := if auth then password else []
  count := numMounts

/-- The command for the rovers. -/
def simroverFlags : Simrover.Flags where
  mount := if numMounts = 1 then mountName numMounts pre 0 else []
  mounts := if numMounts = 1 then [] else (ascii ",").intercalate (mountNames numMounts pre)
  user := if auth then roverUser else []
  pass := if auth then password else []
  count := if numMounts = 1 then 1 else 5000

variable {numMounts pre}

theorem numbered_injective (pre : Bytes) : Function.Injective (numbered pre) :=
  fun _ _ h => formatInt_injective (List.append_cancel_left h)

theorem mountNames_of_ne (h : numMounts ≠ 1) :
    mountNames numMounts pre = (List.range numMounts).map (numbered pre) :=
  List.map_congr_left fun _ _ => if_neg h

theorem mountNames_nodup (numMounts : ℕ) (pre : Bytes) : (mountNames numMounts pre).Nodup := by
  by_cases h : numMounts = 1
  · subst h
    exact List.nodup_singleton pre
  · rw [mountNames_of_ne h]
    exact List.nodup_range.map (numbered_injective pre)

/-- No code point of `numbered pre i` is white space: `_` stands in no encoding of one. -/
theorem noSpace_numbered (h : NoSpace pre) (i : ℕ) : NoSpace (numbered pre i) := by
  have hline : ∀ w ∈ spaces, 0x5F ∉ w := by decide
  intro w hw
  rw [numbered, List.append_assoc]
  exact Separated.not_infix_append_cons (hline w hw) (h w hw) (noSpace_formatInt i w hw)

theorem mem_mountNames {name : Bytes} (h : name ∈ mountNames numMounts pre) :
    name = pre ∨ ∃ i, name = numbered pre i := by
  obtain ⟨i, -, rfl⟩ := List.mem_map.mp h
  unfold mountName
  split_ifs
  · exact .inl rfl
  · exact .inr ⟨i, rfl⟩

theorem noSpace_of_mem_mountNames (hpre : NoSpace pre) {name : Bytes}
    (h : name ∈ mountNames numMounts pre) : NoSpace name := by
  rcases mem_mountNames h with rfl | ⟨i, rfl⟩
  · exact hpre
  · exact noSpace_numbered hpre i

theorem ne_nil_of_mem_mountNames (hpre : pre ≠ []) {name : Bytes}
    (h : name ∈ mountNames numMounts pre) : name ≠ [] := by
  rcases mem_mountNames h with rfl | ⟨i, rfl⟩
  · exact hpre
  · simp [numbered, hpre]

theorem comma_not_mem_of_mem_mountNames (hpre : 0x2C ∉ pre) {name : Bytes}
    (h : name ∈ mountNames numMounts pre) : 0x2C ∉ name := by
  rcases mem_mountNames h with rfl | ⟨i, rfl⟩
  · exact hpre
  · have hdigit : 0x2C ∉ formatInt i := fun hc => absurd (mem_formatInt hc).1 (by decide)
    simp [numbered, hpre, hdigit, ascii]

/-- The base stations connect to the mountpoints that were created. -/
theorem buildMountList_simbase (hpre : pre ≠ []) :
    (simbaseFlags numMounts pre auth).mountList = mountNames numMounts pre := by
  unfold Simbase.Flags.mountList Simbase.buildMountList simbaseFlags
  by_cases h : numMounts = 1
  · subst h
    exact if_pos ⟨rfl, hpre⟩
  · simp only [h, false_and, if_false]
    exact (mountNames_of_ne h).symm

/-- So do the rovers, unless the prefix is cut at a comma or loses white space. -/
theorem buildMountList_simrover (hpre : pre ≠ []) (hspace : NoSpace pre) (hcomma : 0x2C ∉ pre)
    (hnum : 1 ≤ numMounts) :
    (simroverFlags numMounts pre auth).mountList = mountNames numMounts pre := by
  unfold Simrover.Flags.mountList Simrover.buildMountList simroverFlags
  by_cases h : numMounts = 1
  · subst h
    exact (if_neg (not_not.mpr rfl)).trans (if_pos hpre)
  · simp only [h, if_false]
    have hnames : mountNames numMounts pre ≠ [] := by
      simpa [mountNames] using Nat.ne_of_gt hnum
    have hsplit : ((ascii ",").intercalate (mountNames numMounts pre)).splitOn 0x2C =
        mountNames numMounts pre :=
      List.splitOn_intercalate 0x2C (fun name => comma_not_mem_of_mem_mountNames hcomma) hnames
    have hne : (ascii ",").intercalate (mountNames numMounts pre) ≠ [] := by
      intro hnil
      rw [hnil, List.splitOn_nil] at hsplit
      exact ne_nil_of_mem_mountNames hpre (hsplit ▸ List.mem_singleton_self _) rfl
    have htrim : (mountNames numMounts pre).map trimSpace = mountNames numMounts pre :=
      (List.map_congr_left fun name hname =>
        trimSpace_of_noSpace (noSpace_of_mem_mountNames hspace hname)).trans (List.map_id _)
    rw [if_pos hne, hsplit, htrim, List.filter_eq_self]
    exact fun name hname => decide_eq_true (ne_nil_of_mem_mountNames hpre hname)

end Testenv

/-! ## The requests -/

/-- What a request of a station says; the credentials are those of a user, if there is one. -/
def NTRIPRequest.Says (req : NTRIPRequest) (type : RequestType) (mount user pass : Bytes) : Prop :=
  req.type = type ∧ req.mountPoint = mount ∧
    (user ≠ [] → parseBasicAuth (req.header "Authorization") = some (user, pass))

/-- A Rev2 request without a user, line by line. -/
theorem rev2_anonymous_eq_textLines {first method third header mount : Bytes}
    (hfirst : first = method ++ [0x20, 0x2F]) (hthird : third = header ++ [13] ++ [10])
    (pass : Bytes) :
    first ++ mount ++ ascii " HTTP/1.1\r\n" ++ ascii "Host: localhost\r\n" ++
        ascii "Ntrip-Version: Ntrip/2.0\r\n" ++ third ++ authorizationLine [] pass ++
        ascii "\r\n" =
      textLines ((method ++ 0x20 :: (0x2F :: mount ++ 0x20 :: ascii "HTTP/1.1")) ::
        [ascii "Host: localhost", ascii "Ntrip-Version: Ntrip/2.0", header]) ++ [13] ++ [10] := by
  have hproto : ascii " HTTP/1.1\r\n" = 0x20 :: ascii "HTTP/1.1" ++ [13] ++ [10] := by decide
  have hhost : ascii "Host: localhost\r\n" = ascii "Host: localhost" ++ [13] ++ [10] := by decide
  have hversion : ascii "Ntrip-Version: Ntrip/2.0\r\n" =
      ascii "Ntrip-Version: Ntrip/2.0" ++ [13] ++ [10] := by decide
  have heol : ascii "\r\n" = [13] ++ [10] := by decide
  rw [hfirst, hthird, authorizationLine, if_neg (not_not.mpr rfl), hproto, hhost, hversion, heol]
  simp only [textLines, List.flatMap_cons, List.flatMap_nil, List.append_assoc, List.cons_append,
    List.nil_append, List.append_nil]

/-- A Rev2 request is parsed as what it says, with or without a user. -/
theorem parsedAs_says {first method third header mount user : Bytes} {type : RequestType}
    (hfirst : first = method ++ [0x20, 0x2F]) (hthird : third = header ++ [13] ++ [10])
    (hne : method ≠ []) (hmethod : NoSpace method) (hheader : IsText header)
    (hreq : requestLine [method, 0x2F :: mount, ascii "HTTP/1.1"] =
      .ok { type := type, mountPoint := mount, proto := ascii "HTTP/1.1" })
    (hspace : NoSpace mount) (hcolon : 58 ∉ user) (pass : Bytes) :
    ParsedAs (first ++ mount ++ ascii " HTTP/1.1\r\n" ++ ascii "Host: localhost\r\n" ++
        ascii "Ntrip-Version: Ntrip/2.0\r\n" ++ third ++ authorizationLine user pass ++
        ascii "\r\n")
      fun req => req.Says type mount user pass := by
  by_cases huser : user = []
  · subst huser
    have hhost : IsText (ascii "Host: localhost") :=
      isText_of_getLast? (c := 116) (by decide) (by decide) (by decide)
    have hversion : IsText (ascii "Ntrip-Version: Ntrip/2.0") :=
      isText_of_getLast? (c := 48) (by decide) (by decide) (by decide)
    have hproto : NoSpace (ascii "HTTP/1.1") := by decide +kernel
    have hprotone : ascii "HTTP/1.1" ≠ [] := by decide
    rw [← fields_requestLine hmethod hspace.path hproto hne (List.cons_ne_nil _ _) hprotone] at hreq
    have hline := isText_requestLine (hmethod.not_mem (by decide)) hspace hprotone hproto
    have hlines : ∀ l ∈ [ascii "Host: localhost", ascii "Ntrip-Version: Ntrip/2.0", header],
        IsText l :=
      List.forall_mem_cons.mpr ⟨hhost, List.forall_mem_cons.mpr ⟨hversion,
        List.forall_mem_singleton.mpr hheader⟩⟩
    rw [rev2_anonymous_eq_textLines hfirst hthird]
    refine parsedAs_textLines hline hlines hreq ?_
    obtain ⟨headers, hfold⟩ := foldl_addHeader
      [ascii "Host: localhost", ascii "Ntrip-Version: Ntrip/2.0", header]
      { type := type, mountPoint := mount, proto := ascii "HTTP/1.1" }
    rw [hfold]
    exact ⟨rfl, rfl, absurd rfl⟩
  · have hparsed := parsedAs_rev2 hfirst hthird hne hmethod hheader hreq hspace huser hcolon pass
    refine ⟨fun conn more hconn res hres => ?_, hparsed.2⟩
    obtain ⟨req, r', hr, htype, hmount, hcred⟩ := hparsed.1 conn more hconn res hres
    exact ⟨req, r', hr, htype, hmount, fun _ => hcred⟩

theorem parsedAs_sendSourceRequest {mount user : Bytes} (hspace : NoSpace mount)
    (hcolon : 58 ∉ user) (pass : Bytes) :
    ∃ bytes, sendSourceRequest 2 mount user pass = .ok bytes ∧
      ParsedAs bytes fun req => req.Says .sourceRev2 mount user pass := by
  have hpost : NoSpace (ascii "POST") := by decide +kernel
  have hchunked : IsText (ascii "Transfer-Encoding: chunked") :=
    isText_of_getLast? (c := 100) (by decide) (by decide) (by decide)
  exact ⟨_, rfl, parsedAs_says (by decide) (by decide) (by decide) hpost hchunked
    (requestLine_post mount _) hspace hcolon pass⟩

theorem parsedAs_sendRoverRequest {mount user : Bytes} (hmount : mount ≠ [])
    (hspace : NoSpace mount) (hcolon : 58 ∉ user) (pass : Bytes) :
    ParsedAs (sendRoverRequest mount user pass) fun req => req.Says .rover mount user pass := by
  have hget : NoSpace (ascii "GET") := by decide +kernel
  have hagent : IsText (ascii "User-Agent: NTRIP simrover/1.0") :=
    isText_of_getLast? (c := 48) (by decide) (by decide) (by decide)
  exact parsedAs_says (by decide) (by decide) (by decide) hget hagent (requestLine_get hmount _)
    hspace hcolon pass

end NtripCaster
