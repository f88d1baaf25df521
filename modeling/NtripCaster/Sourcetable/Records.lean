import NtripCaster.Api.Restart
import NtripCaster.Library.Separated
import NtripCaster.Sourcetable.Generator

/-!
# What a client reads from the sourcetable

A client cuts the table at the line ends and a record at the semicolons. `Generate` writes the
name, the description and the format of a mountpoint as they are, and nothing keeps separators out
of them.

## Main definitions

* `records`: the fields of what stands between the first line and the end line
* `Describes`: one record for each of the mountpoints given, and nothing else
* `Plain`: a text without separators

## Main results

* `generate_describes_iff`: the table describes the enabled mountpoints if and only if their texts
  are plain
* `generate_not_describes`: a name with a semicolon
-/

namespace NtripCaster

open Separated Transition

/-- The line end of the table. -/
def crlf : Bytes := [13, 10]

/-- The separator of the fields. -/
def semicolon : UInt8 := 59

/-- The lines between the first one and the end line, each cut into its fields. -/
def records (table : Bytes) : List (List Bytes) :=
  (((split crlf table).drop 1).takeWhile (· ≠ ascii "ENDSOURCETABLE")).map (split [semicolon])

/-- Between its first line and its end line the table has, in some order, one `STR` record for each
of the mountpoints, with name, description and format in the fields 1, 2 and 3, and no other
line. -/
def Describes (table : Bytes) (mps : List MountPoint) : Prop :=
  (split crlf table).head? = some (ascii "SOURCETABLE 200 OK") ∧
  ascii "ENDSOURCETABLE" ∈ split crlf table ∧
  ((records table).map (List.take 4)).Perm
    (mps.map fun mp => [ascii "STR", mp.name, mp.description, mp.format])

/-- The text holds neither a semicolon nor a line end. -/
def Plain (s : Bytes) : Prop := semicolon ∉ s ∧ ¬ crlf <:+: s

/-- The texts of the mountpoint that its record holds. -/
def MountPoint.Plain (mp : MountPoint) : Prop :=
  NtripCaster.Plain mp.name ∧ NtripCaster.Plain mp.description ∧ NtripCaster.Plain mp.format

/-- The enabled mountpoints of the registry. -/
def Manager.enabledMounts (mgr : Manager) : List MountPoint :=
  mgr.mounts.values.filter MountPoint.enabled

theorem crlf_unbordered : Unbordered crlf := by decide

theorem semicolon_unbordered : Unbordered [semicolon] := by decide

theorem semicolon_not_mem_crlf : semicolon ∉ crlf := by decide

/-! ## The lines -/

/-- The record of a mountpoint without its line end. -/
def recordLine (mp : MountPoint) : Bytes :=
  ascii "STR" ++ semicolon :: (mp.name ++ semicolon :: (mp.description ++ semicolon ::
    (mp.format ++ semicolon :: ascii ";;;;;;;;0;;;;;")))

theorem strRecord_eq (mp : MountPoint) : strRecord mp = recordLine mp ++ crlf := by
  have hstr : ascii "STR;" = ascii "STR" ++ [semicolon] := by decide
  have hsep : ascii ";" = [semicolon] := by decide
  have hrest : ascii ";;;;;;;;;0;;;;;" = semicolon :: ascii ";;;;;;;;0;;;;;" := by decide
  have heol : ascii "\r\n" = crlf := by decide
  rw [strRecord, recordLine, hstr, hsep, hrest, heol]
  simp only [List.append_assoc, List.cons_append, List.nil_append]

theorem not_infix_recordLine {mp : MountPoint} (h : mp.Plain) : ¬ crlf <:+: recordLine mp := by
  obtain ⟨⟨-, hname⟩, ⟨-, hdesc⟩, -, hformat⟩ := h
  have hrest : ¬ crlf <:+: ascii ";;;;;;;;0;;;;;" := by decide
  have hstr : ¬ crlf <:+: ascii "STR" := by decide
  -- no field holds a line end, and no line end reaches over a semicolon
  exact not_infix_append_cons semicolon_not_mem_crlf hstr
    (not_infix_append_cons semicolon_not_mem_crlf hname
      (not_infix_append_cons semicolon_not_mem_crlf hdesc
        (not_infix_append_cons semicolon_not_mem_crlf hformat hrest)))

theorem split_flatMap_strRecord {mps : List MountPoint} (h : ∀ mp ∈ mps, mp.Plain) (s : Bytes) :
    split crlf (mps.flatMap strRecord ++ s) = mps.map recordLine ++ split crlf s := by
  induction mps with
  | nil => rfl
  | cons mp mps ih =>
    obtain ⟨hmp, hmps⟩ := List.forall_mem_cons.mp h
    rw [List.flatMap_cons, strRecord_eq, List.append_assoc, List.append_assoc,
      split_piece crlf_unbordered (not_infix_recordLine hmp), ih hmps]
    rfl

theorem split_recordLine {mp : MountPoint} (h : mp.Plain) :
    (split [semicolon] (recordLine mp)).take 4 =
      [ascii "STR", mp.name, mp.description, mp.format] := by
  obtain ⟨⟨hname, -⟩, ⟨hdesc, -⟩, hformat, -⟩ := h
  have hpiece : ∀ {a : Bytes}, semicolon ∉ a → ∀ s,
      split [semicolon] (a ++ semicolon :: s) = a :: split [semicolon] s := fun ha s =>
    split_piece semicolon_unbordered (fun hin => ha ((List.singleton_infix_iff _ _).mp hin)) s
  have hstr : semicolon ∉ ascii "STR" := by decide
  rw [recordLine, hpiece hstr, hpiece hname, hpiece hdesc, hpiece hformat]
  rfl

theorem recordLine_ne_end (mp : MountPoint) : recordLine mp ≠ ascii "ENDSOURCETABLE" := by
  have hstr : ascii "STR" = [83, 84, 82] := by decide
  have hend : (ascii "ENDSOURCETABLE").head? = some 69 := by decide
  intro h
  rw [← h, recordLine, hstr] at hend
  exact absurd (Option.some.inj hend) (by decide)

/-! ## The table -/

theorem split_generate {ord : RangeOrder MountPoint} {mgr : Manager}
    (h : ∀ mp ∈ (mgr.list ord).filter MountPoint.enabled, mp.Plain) :
    split crlf (generate ord mgr) = ascii "SOURCETABLE 200 OK" ::
      (((mgr.list ord).filter MountPoint.enabled).map recordLine ++
        [ascii "ENDSOURCETABLE", []]) := by
  have hfirst : ascii "SOURCETABLE 200 OK\r\n" = ascii "SOURCETABLE 200 OK" ++ crlf := by decide
  have hlast : ascii "ENDSOURCETABLE\r\n" = ascii "ENDSOURCETABLE" ++ (crlf ++ []) := by decide
  have hok : ¬ crlf <:+: ascii "SOURCETABLE 200 OK" := by decide
  have hend : ¬ crlf <:+: ascii "ENDSOURCETABLE" := by decide
  rw [generate, hfirst, hlast, List.append_assoc, List.append_assoc,
    split_piece crlf_unbordered hok, split_flatMap_strRecord h, split_piece crlf_unbordered hend]
  rfl

/-- A text that comes back as a field is plain. -/
theorem plain_of_mem_records {table : Bytes} {r : List Bytes} {s : Bytes} (hr : r ∈ records table)
    (hs : s ∈ r) : Plain s := by
  obtain ⟨line, hline, rfl⟩ := List.mem_map.mp hr
  have hmem : line ∈ split crlf table :=
    List.mem_of_mem_drop ((List.takeWhile_prefix _).subset hline)
  constructor
  · intro h
    exact not_infix_of_mem_split (List.cons_ne_nil _ _) hs ((List.singleton_infix_iff _ _).mpr h)
  · intro h
    exact not_infix_of_mem_split crlf_unbordered.1 hmem (h.trans (infix_of_mem_split hs))

theorem Describes.plain {table : Bytes} {mps : List MountPoint} (h : Describes table mps) :
    ∀ mp ∈ mps, mp.Plain := by
  intro mp hmp
  obtain ⟨r, hr, htake⟩ := List.mem_map.mp (h.2.2.mem_iff.mpr (List.mem_map_of_mem hmp))
  have hfield : ∀ s ∈ [mp.name, mp.description, mp.format], Plain s := fun s hs =>
    plain_of_mem_records hr ((List.take_subset 4 r) (htake ▸ List.mem_cons_of_mem _ hs))
  exact ⟨hfield _ (by simp), hfield _ (by simp), hfield _ (by simp)⟩

/-- **The sourcetable describes exactly the enabled mountpoints** if and only if none of them has a
name, a description or a format with a semicolon or a line end in it. -/
theorem generate_describes_iff (ord : RangeOrder MountPoint) (mgr : Manager) :
    Describes (generate ord mgr) mgr.enabledMounts ↔ ∀ mp ∈ mgr.enabledMounts, mp.Plain := by
  refine ⟨Describes.plain, fun h => ?_⟩
  have hperm : ((mgr.list ord).filter MountPoint.enabled).Perm mgr.enabledMounts :=
    (ord.visit_perm _).filter _
  have hsplit := split_generate fun mp hmp => h mp (hperm.mem_iff.mp hmp)
  have hplain : ∀ mp ∈ (mgr.list ord).filter MountPoint.enabled, mp.Plain :=
    fun mp hmp => h mp (hperm.mem_iff.mp hmp)
  generalize (mgr.list ord).filter MountPoint.enabled = mps at hperm hsplit hplain
  have hne : ∀ line ∈ mps.map recordLine, decide (line ≠ ascii "ENDSOURCETABLE") = true := by
    intro line hline
    obtain ⟨mp, -, rfl⟩ := List.mem_map.mp hline
    exact decide_eq_true (recordLine_ne_end mp)
  have hrecords : (records (generate ord mgr)).map (List.take 4) =
      mps.map fun mp => [ascii "STR", mp.name, mp.description, mp.format] := by
    rw [records, hsplit, List.drop_one, List.tail_cons, List.takeWhile_append_of_pos hne,
      List.takeWhile_cons_of_neg (by simp), List.append_nil, List.map_map, List.map_map]
    exact List.map_congr_left fun mp hmp => split_recordLine (hplain mp hmp)
  refine ⟨by rw [hsplit, List.head?_cons], by rw [hsplit]; simp, ?_⟩
  rw [hrecords]
  exact hperm.map _

/-- The mountpoint `A;B` is created like any other: a client reads the name `A` from its record. -/
theorem generate_not_describes :
    ¬ ∀ (bc : Bcrypt) (cfg : MountpointDefaultsConfig) (ord : RangeOrder MountPoint) (h : Handlers),
      (mountpointSystem bc cfg).Reachable h →
        Describes (generate ord h.mgr) h.mgr.enabledMounts := by
  intro hall
  obtain ⟨h, hrun, hget⟩ : ∃ h, (mountpointSystem plainBcrypt {}).run startedM
        [.create faultless { name := ascii "A;B" }] = some h ∧
      (h.mgr.get (ascii "A;B")).map (fun mp => (mp.enabled, mp.name)) =
        some (true, ascii "A;B") := ⟨_, rfl, rfl⟩
  obtain ⟨mp, hmp, hsame⟩ := Option.map_eq_some_iff.mp hget
  obtain ⟨hen, hname⟩ := Prod.mk.inj hsame
  have hmem : mp ∈ h.mgr.enabledMounts :=
    List.mem_filter.mpr ⟨GoMap.mem_values.mpr ⟨_, hmp⟩, hen⟩
  have hplain := (hall _ _ .stored h (.of_run _ ⟨_, rfl⟩ hrun)).plain mp hmem
  have hsemicolon : semicolon ∈ ascii "A;B" := by decide
  exact hplain.1.1 (hname ▸ hsemicolon)

end NtripCaster
