import NtripCaster.Account.Listing
import NtripCaster.Api.Online
import NtripCaster.Caster.Disabling
import NtripCaster.Library.Query
import NtripCaster.Mountpoint.Antenna

/-!
# The listings of the admin API

`ListMountpoints`, `ListSources`, `ListClients` and `Stats` of `internal/api/handlers.go` show the
sessions of the mountpoints from different fields: the map of the clients, the source, the
counters. Here each of them is made at one moment.

## Main definitions

* `stats`, `listSources`, `listClients`, `listMountpoints`: the four handlers
* `RegistryState.Agree`: the answers at one moment say the same

## Main results

* `ListClients.run_listClients`: `listClients` is what the handler does step by step
* `registrySystem_listed`: the invariant behind the listings
* `listings_agree`: the answers agree in every reachable state
-/

namespace NtripCaster

open Tables Transition

/-! ## The handlers -/

/-- `metrics.MountStatsSnapshot`. -/
structure MountStatsSnapshot where
  clientCount : ℤ
  sourceOnline : Bool
  bytesIn : ℤ
  bytesOut : ℤ
  slowClients : ℤ
  kickCount : ℤ
  deriving DecidableEq, Repr

/-- `Snapshot`. -/
def MountStats.snapshot (s : MountStats) : MountStatsSnapshot where
  clientCount := s.clientCount
  sourceOnline := s.sourceOnline != 0
  bytesIn := s.bytesIn
  bytesOut := s.bytesOut
  slowClients := s.slowClients
  kickCount := s.kickCount

/-- `mountStat`. -/
structure MountStat extends MountStatsSnapshot where
  name : Bytes
  deriving DecidableEq, Repr

/-- The answer of `Stats`, without its time. -/
structure StatsAnswer where
  totalClients : ℤ
  totalSources : ℤ
  mountpoints : List MountStat

/-- `Stats`, on what `Manager.List` returns. -/
def stats (mps : List MountPoint) : StatsAnswer :=
  mps.foldl (fun answer mp =>
    let snap := mp.stats.snapshot
    { mountpoints := answer.mountpoints ++ [{ snap with name := mp.name }]
      totalClients := answer.totalClients + snap.clientCount
      totalSources :=
        if snap.sourceOnline then answer.totalSources + 1 else answer.totalSources })
    ⟨0, 0, []⟩

/-- The name that a row shows; `user` is what `GetUser` finds. -/
def usernameOf (user : ℤ → Option Bytes) (userID : ℤ) : Bytes :=
  if 0 < userID then (user userID).getD [] else []

/-- `srcInfo`, with the source for its ID and its user ID. -/
structure SrcInfo where
  mountPoint : Bytes
  source : SourceInfo
  username : Bytes
  bytesIn : ℤ
  deriving DecidableEq, Repr

/-- The turn of `ListSources` on a mountpoint; `bytesIn` is the counter of a session. -/
def sourceRows (q : ClientQuery) (user : ℤ → Option Bytes) (bytesIn : SourceInfo → ℤ)
    (mp : MountPoint) : List SrcInfo :=
  match mp.source with
  | none => []
  | some si =>
    if si.id = [] then []
    else if q.mountFilter ≠ [] ∧ mp.name ≠ q.mountFilter then []
    else if q.usernameFilter ≠ [] ∧ usernameOf user si.userID ≠ q.usernameFilter then []
    else [⟨mp.name, si, usernameOf user si.userID, bytesIn si⟩]

/-- `ListSources`. -/
def listSources (q : ClientQuery) (user : ℤ → Option Bytes) (bytesIn : SourceInfo → ℤ)
    (mps : List MountPoint) : List SrcInfo :=
  mps.flatMap (sourceRows q user bytesIn)

/-- `ClientInfos`, with the counters that the sessions have. -/
def RoverState.clientInfos (s : RoverState) (ord : RangeOrder Client) (mp : MountPoint) :
    List ClientInfo :=
  (ord.visit mp.clientsByID.values).map fun c =>
    ⟨c, (s.sessions[c.ref]?).elim 0 Session.bytesOut⟩

/-- The loop of `ListClients` over the clients of a mountpoint. -/
def clientRows (q : ClientQuery) (user : ℤ → Option Bytes) (name : Bytes)
    (infos : List ClientInfo) : List CliInfo :=
  infos.flatMap fun info =>
    let username := usernameOf user info.client.userID
    if q.usernameFilter ≠ [] ∧ username ≠ q.usernameFilter then []
    else [⟨name, info.client, username, info.bytesOut⟩]

/-- `ListClients`. -/
def listClients (q : ClientQuery) (user : ℤ → Option Bytes) (ord : RangeOrder Client)
    (s : RoverState) (mps : List MountPoint) : List CliInfo :=
  mps.flatMap fun mp =>
    if q.mountFilter ≠ [] ∧ mp.name ≠ q.mountFilter then []
    else clientRows q user mp.name (s.clientInfos ord mp)

/-- The parameters of `ListMountpoints`. -/
structure MountpointsQuery where
  page : Bytes
  limit : Bytes
  search : Bytes
  format : Bytes
  enabled : Bytes

/-- `mpInfo`; the antenna is left out of the answer if it is nil. -/
structure MpInfo where
  row : ListedMountPoint
  sourceOnline : Bool := false
  clientCount : ℤ := 0
  antenna : Option AntennaPosition := none

/-- The turn of `ListMountpoints` on a row, with what `Get` finds. -/
def mpInfo (get : Bytes → Option (MountPoint × AntennaState)) (row : ListedMountPoint) : MpInfo :=
  match get row.name with
  | none => { row := row }
  | some (mp, antenna) =>
    { row := row
      sourceOnline := mp.stats.snapshot.sourceOnline
      clientCount := mp.stats.snapshot.clientCount
      antenna := antenna.getAntennaPosition }

/-- The answer of `ListMountpoints`. -/
structure MountpointsAnswer where
  data : List MpInfo
  total : ℕ
  page : Int64
  limit : Int64

/-- `ListMountpoints`. -/
def listMountpoints (like : Bytes → Bytes → Bool) (q : MountpointsQuery) (t : MountPointTable)
    (get : Bytes → Option (MountPoint × AntennaState)) :
    Except ListingError MountpointsAnswer :=
  let page := parseIntParam q.page 1
  let limit := parseIntParam q.limit 50
  let enabled := if q.enabled ≠ [] then some (q.enabled == ascii "true") else none
  match listMountPointRowsPaginated like t page limit q.search q.format enabled with
  | .error e => .error e
  | .ok (rows, total) => .ok ⟨rows.map (mpInfo get), total, page, limit⟩

/-- The entries of an answer are made of rows of the table. -/
theorem listMountpoints_data {like : Bytes → Bytes → Bool} {q : MountpointsQuery}
    {t : MountPointTable} {get : Bytes → Option (MountPoint × AntennaState)}
    {answer : MountpointsAnswer} (h : listMountpoints like q t get = .ok answer) :
    ∃ rows : List ListedMountPoint, answer.data = rows.map (mpInfo get) := by
  unfold listMountpoints at h
  dsimp only at h
  generalize listMountPointRowsPaginated like t (parseIntParam q.page 1) (parseIntParam q.limit 50)
    q.search q.format _ = result at h
  cases result with
  | error e => cases h
  | ok listing => exact ⟨listing.1, congrArg MountpointsAnswer.data (Except.ok.inj h).symm⟩

namespace RegistryState

variable (s : RegistryState)

/-- The mountpoint that index `m` stands for. -/
def point (m : ℕ) : Option MountPoint := (s.rovers.mounts[m]?).map Mount.point

/-- `Manager.List`. -/
def list (ord : RangeOrder ℕ) : List MountPoint := (ord.visit s.mounts.values).filterMap s.point

/-- `Manager.Get`, with the antenna position of the mountpoint. -/
def get (antenna : ℕ → AntennaState) (name : Bytes) : Option (MountPoint × AntennaState) :=
  (s.mounts.lookup name).bind fun m => (s.point m).map fun mp => (mp, antenna m)

end RegistryState

/-! ## `ListClients` step by step -/

namespace ListClients

variable {q : ClientQuery} {user : ℤ → Option Bytes} {ord : RangeOrder Client} {s : RoverState}
  {start ms todo : List ℕ} {m : ℕ} {mt : Mount}

/-- The handler of a request goes from one place to another while the server stands still. -/
def Reads (q : ClientQuery) (s : RoverState) (start : List ℕ) (l l' : ListClients) : Prop :=
  ∃ choices : List (RangeOrder Client × Option Bytes),
    (listClientsSystem q s start).run ⟨s, l⟩ (choices.map fun c => .list c.1 c.2) = some ⟨s, l'⟩

theorem Reads.refl (l : ListClients) : Reads q s start l l := ⟨[], rfl⟩

theorem Reads.trans {l l' l'' : ListClients} (h : Reads q s start l l')
    (h' : Reads q s start l' l'') : Reads q s start l l'' := by
  obtain ⟨choices, hrun⟩ := h
  obtain ⟨choices', hrun'⟩ := h'
  refine ⟨choices ++ choices', ?_⟩
  rw [List.map_append, System.run_append, hrun]
  exact hrun'

theorem Reads.step {l l' : ListClients} (ord : RangeOrder Client) (name : Option Bytes)
    (h : l.step q s ord name = some l') : Reads q s start l l' := by
  refine ⟨[(ord, name)], ?_⟩
  simp [System.run, listClientsSystem, ListClientsState.step, h]

/-- The entries of a mountpoint are made. -/
theorem reads_infos {left : List Client} (hleft : ∀ c ∈ left, ∃ x, s.sessions[c.ref]? = some x)
    (infos : List ClientInfo) (result : List CliInfo) :
    Reads q s start ⟨.clientInfos m left infos todo, result⟩
      ⟨.rows m (infos ++ left.map fun c =>
        ⟨c, (s.sessions[c.ref]?).elim 0 Session.bytesOut⟩) todo, result⟩ := by
  induction left generalizing infos with
  | nil =>
    refine .step .stored none ?_
    simp [ListClients.step]
  | cons c left ih =>
    obtain ⟨⟨x, hx⟩, hleft⟩ := List.forall_mem_cons.mp hleft
    have hfirst : Reads q s start ⟨.clientInfos m (c :: left) infos todo, result⟩
        ⟨.clientInfos m left (infos ++ [⟨c, x.bytesOut⟩]) todo, result⟩ :=
      .step .stored none (by simp [ListClients.step, hx])
    have hrest := ih hleft (infos ++ [⟨c, x.bytesOut⟩])
    refine hfirst.trans ?_
    simpa [hx] using hrest

/-- The entries of a mountpoint become rows. -/
theorem reads_rows (hmt : s.mounts[m]? = some mt) (infos : List ClientInfo)
    (result : List CliInfo) :
    Reads q s start ⟨.rows m infos todo, result⟩
      ⟨.mounts todo, result ++ clientRows q user mt.point.name infos⟩ := by
  induction infos generalizing result with
  | nil =>
    refine .step .stored none ?_
    simp [ListClients.step, clientRows]
  | cons info infos ih =>
    have hstep : ListClients.step q s .stored (user info.client.userID)
        ⟨.rows m (info :: infos) todo, result⟩ =
        some (if q.usernameFilter ≠ [] ∧ usernameOf user info.client.userID ≠ q.usernameFilter then
            ⟨.rows m infos todo, result⟩
          else ⟨.rows m infos todo, result ++ [⟨mt.point.name, info.client,
            usernameOf user info.client.userID, info.bytesOut⟩]⟩) := by
      simp only [ListClients.step, hmt, Option.map_some]
      rfl
    by_cases huser : q.usernameFilter ≠ [] ∧ usernameOf user info.client.userID ≠ q.usernameFilter
    · rw [if_pos huser] at hstep
      have hrows : clientRows q user mt.point.name (info :: infos) =
          clientRows q user mt.point.name infos := by
        rw [clientRows, List.flatMap_cons, if_pos huser, List.nil_append]
        rfl
      rw [hrows]
      exact .trans (.step _ _ hstep) (ih result)
    · rw [if_neg huser] at hstep
      have hrows : clientRows q user mt.point.name (info :: infos) =
          [⟨mt.point.name, info.client, usernameOf user info.client.userID, info.bytesOut⟩] ++
            clientRows q user mt.point.name infos := by
        rw [clientRows, List.flatMap_cons, if_neg huser]
        rfl
      rw [hrows, ← List.append_assoc]
      exact .trans (.step _ _ hstep) (ih _)

/-- The mountpoints are read. -/
theorem reads_mounts (hk : Known s.mounts s.sessions) (hms : ∀ m ∈ ms, ∃ mt, s.mounts[m]? = some mt)
    (result : List CliInfo) :
    Reads q s start ⟨.mounts ms, result⟩ ⟨.mounts [], result ++ listClients q user ord s
      (ms.filterMap fun m => (s.mounts[m]?).map Mount.point)⟩ := by
  induction ms generalizing result with
  | nil =>
    rw [List.filterMap_nil, listClients, List.flatMap_nil, List.append_nil]
    exact .refl _
  | cons m ms ih =>
    obtain ⟨⟨mt, hmt⟩, hms⟩ := List.forall_mem_cons.mp hms
    rw [List.filterMap_cons_some (by rw [hmt]; rfl), listClients, List.flatMap_cons,
      ← List.append_assoc]
    refine Reads.trans ?_ (ih hms _)
    by_cases hname : q.mountFilter ≠ [] ∧ mt.point.name ≠ q.mountFilter
    · rw [if_pos hname, List.append_nil]
      refine .step ord none ?_
      simp only [ListClients.step, hmt, Option.map_some, if_pos hname]
    · rw [if_neg hname]
      have hfirst : Reads q s start ⟨.mounts (m :: ms), result⟩
          ⟨.clientInfos m (ord.visit mt.point.clientsByID.values) [] ms, result⟩ :=
        .step ord none (by simp only [ListClients.step, hmt, Option.map_some, if_neg hname])
      refine hfirst.trans (.trans (reads_infos (fun c hc => ?_) [] result) ?_)
      · have hperm := (ord.visit_perm _).trans (hk.rep m mt hmt).snapshot_perm.symm
        obtain ⟨x, hx, -⟩ := hk.snapshot m mt hmt c (hperm.mem_iff.mp hc)
        exact ⟨x, hx⟩
      · rw [List.nil_append]
        exact reads_rows hmt _ result

/-- **`listClients` is what the handler does step by step** when the server stands still. -/
theorem run_listClients (q : ClientQuery) (user : ℤ → Option Bytes) (ord : RangeOrder Client)
    (hk : Known s.mounts s.sessions) (hms : ∀ m ∈ ms, ∃ mt, s.mounts[m]? = some mt) :
    ∃ choices : List (RangeOrder Client × Option Bytes),
      (listClientsSystem q s ms).run ⟨s, ⟨.mounts ms, []⟩⟩
        (choices.map fun c => .list c.1 c.2) =
      some ⟨s, ⟨.mounts [], listClients q user ord s
        (ms.filterMap fun m => (s.mounts[m]?).map Mount.point)⟩⟩ :=
  (reads_mounts hk hms [] : Reads q s ms _ _)

end ListClients

/-! ## What the rows come from -/

/-- The request without filters. -/
def ClientQuery.all : ClientQuery := ⟨[], []⟩

/-- A row is in the answer to the request. -/
def ClientQuery.selects (q : ClientQuery) (mountPoint username : Bytes) : Bool :=
  decide ((q.mountFilter = [] ∨ mountPoint = q.mountFilter) ∧
    (q.usernameFilter = [] ∨ username = q.usernameFilter))

section Rows

variable {q : ClientQuery} {user : ℤ → Option Bytes} {bytesIn : SourceInfo → ℤ}
  {ord : RangeOrder Client} {s : RoverState} {mp : MountPoint} {mps : List MountPoint}

theorem sourceRows_all : sourceRows .all user bytesIn mp =
    (mp.source.toList.filter fun si => si.id != []).map fun si =>
      ⟨mp.name, si, usernameOf user si.userID, bytesIn si⟩ := by
  unfold sourceRows ClientQuery.all
  cases mp.source with
  | none => rfl
  | some si => by_cases hid : si.id = [] <;> simp [hid]

theorem clientRows_all (name : Bytes) (infos : List ClientInfo) :
    clientRows .all user name infos = infos.map fun info =>
      ⟨name, info.client, usernameOf user info.client.userID, info.bytesOut⟩ := by
  rw [List.map_eq_flatMap]
  unfold clientRows ClientQuery.all
  simp

/-- One row under the two filters. -/
theorem filter_selects {τ : Type} {row : τ} {name username : τ → Bytes} :
    [row].filter (fun row => q.selects (name row) (username row)) =
      if q.mountFilter ≠ [] ∧ name row ≠ q.mountFilter then []
      else if q.usernameFilter ≠ [] ∧ username row ≠ q.usernameFilter then []
      else [row] := by
  unfold ClientQuery.selects
  split_ifs with hm hu
  · simp [hm]
  · simp [hu]
  · refine List.filter_eq_self.mpr fun row' hrow => decide_eq_true ?_
    rw [List.mem_singleton.mp hrow, or_iff_not_imp_left, or_iff_not_imp_left]
    exact ⟨fun h => by_contra fun h' => hm ⟨h, h'⟩, fun h => by_contra fun h' => hu ⟨h, h'⟩⟩

/-- The filters of `ListSources` select rows. -/
theorem listSources_eq_filter : listSources q user bytesIn mps =
    (listSources .all user bytesIn mps).filter fun row =>
      q.selects row.mountPoint row.username := by
  rw [listSources, listSources, List.filter_flatMap]
  refine List.flatMap_congr fun mp _ => ?_
  unfold sourceRows ClientQuery.all
  cases mp.source with
  | none => rfl
  | some si =>
    by_cases hid : si.id = []
    · simp [hid]
    · simp [hid, filter_selects]

/-- The filters of `ListClients` select rows. -/
theorem listClients_eq_filter : listClients q user ord s mps =
    (listClients .all user ord s mps).filter fun row =>
      q.selects row.mountPoint row.username := by
  rw [listClients, listClients, List.filter_flatMap]
  refine List.flatMap_congr fun mp _ => ?_
  have hall : (if ClientQuery.all.mountFilter ≠ [] ∧ mp.name ≠ ClientQuery.all.mountFilter then []
      else clientRows .all user mp.name (s.clientInfos ord mp)) =
      clientRows .all user mp.name (s.clientInfos ord mp) := by
    simp [ClientQuery.all]
  rw [hall, clientRows_all, List.map_eq_flatMap, List.filter_flatMap]
  by_cases hm : q.mountFilter ≠ [] ∧ mp.name ≠ q.mountFilter
  · simp only [filter_selects, if_pos hm]
    simp
  · simp only [filter_selects, if_neg hm]
    rfl

end Rows

/-- The row of `Stats` for a mountpoint. -/
def mountStat (mp : MountPoint) : MountStat := { mp.stats.snapshot with name := mp.name }

/-- The loop of `Stats` sums up the mountpoints. -/
theorem stats_eq (mps : List MountPoint) :
    stats mps = ⟨(mps.map fun mp => mp.stats.clientCount).sum,
      mps.countP fun mp => mp.stats.snapshot.sourceOnline, mps.map mountStat⟩ := by
  have hfold : ∀ (answer : StatsAnswer), mps.foldl (fun answer mp =>
      let snap := mp.stats.snapshot
      { mountpoints := answer.mountpoints ++ [{ snap with name := mp.name }]
        totalClients := answer.totalClients + snap.clientCount
        totalSources :=
          if snap.sourceOnline then answer.totalSources + 1 else answer.totalSources }) answer =
      ⟨answer.totalClients + (mps.map fun mp => mp.stats.clientCount).sum,
        answer.totalSources + mps.countP fun mp => mp.stats.snapshot.sourceOnline,
        answer.mountpoints ++ mps.map mountStat⟩ := by
    induction mps with
    | nil => simp
    | cons mp mps ih =>
      intro answer
      rw [List.foldl_cons, ih, StatsAnswer.mk.injEq]
      refine ⟨?_, ?_, ?_⟩
      · rw [List.map_cons, List.sum_cons, ← add_assoc]
        rfl
      · rw [List.countP_cons]
        split_ifs <;> simp [*]
        omega
      · rw [List.map_cons, List.append_assoc]
        rfl
  rw [stats, hfold]
  simp

/-! ## The registry behind the listings -/

namespace Known

variable {mounts : List Mount} {sessions : List Session} {mt : Mount}

/-- A new mountpoint. -/
theorem create (h : Known mounts sessions) (hfresh : mt.Fresh) :
    Known (mounts ++ [mt]) sessions where
  ref := h.ref
  rep m mt' hmt' := by
    rcases getElem?_snoc_eq_some hmt' with hmt' | ⟨-, rfl⟩
    · exact h.rep m mt' hmt'
    · obtain ⟨_, _, _, _, _, _, rfl⟩ := hfresh
      exact .newMountPoint _ _ _ _ _ _
  snapshot m mt' hmt' d hd := by
    rcases getElem?_snoc_eq_some hmt' with hmt' | ⟨-, rfl⟩
    · exact h.snapshot m mt' hmt' d hd
    · obtain ⟨_, _, _, _, _, _, rfl⟩ := hfresh
      simp [newMountPoint] at hd

end Known

namespace RegistryState

variable {s s' : RegistryState}

/-- The invariant behind the listings: the mountpoints keep their clients and sources as
`MountPoint.Rep` says, the registry leads to mountpoints of its names, and their sources have come
from handshakes. -/
structure Listed (s : RegistryState) : Prop where
  known : Known s.rovers.mounts s.rovers.sessions
  named : ∀ name m, s.mounts.lookup name = some m →
    ∃ mt, s.rovers.mounts[m]? = some mt ∧ mt.point.name = name
  sources : ∀ (m : ℕ) (mt : Mount), s.rovers.mounts[m]? = some mt →
    ∀ src, mt.point.source = some src → ∃ x ∈ s.handshakes, x.info = src

namespace Listed

/-- The rovers and mountpoints take a step. -/
theorem rovers (h : s.Listed) {a : RoverStep} {r : RoverState} (hstep : s.rovers.step a = some r)
    (hset : ∀ m src, a = .operate m (.setSource src) → ∃ x ∈ s.handshakes, x.info = src) :
    Listed { s with rovers := r } where
  known := h.known.effect (RoverState.step_effect hstep)
  named name m hm := by
    obtain ⟨mt, hmt, hname⟩ := h.named name m hm
    obtain ⟨mt', hmt', hname', -⟩ := RoverState.mount_step h.known hstep hmt
    exact ⟨mt', hmt', hname'.trans hname⟩
  sources m mt' hmt' := by
    have hon : s.rovers.OnMount m (fun src => ∃ x ∈ s.handshakes, x.info = src) fun _ => True :=
      fun mt hmt => ⟨h.sources m mt hmt, fun _ _ _ => trivial⟩
    have hon' := hon.step hstep (fun _ _ => trivial) (fun _ _ => trivial) (hset m)
    exact (hon' mt' hmt').1

/-- The handshakes move on, and more may start. -/
theorem handshakes (h : s.Listed) {l : List SourceHandshake}
    (hl : ∀ x ∈ s.handshakes, ∃ y ∈ l, y.info = x.info) : Listed { s with handshakes := l } where
  known := h.known
  named := h.named
  sources m mt hmt src hsrc := by
    obtain ⟨x, hx, rfl⟩ := h.sources m mt hmt src hsrc
    exact hl x hx

theorem calls (h : s.Listed) (l : List AdminCall) : Listed { s with calls := l } :=
  ⟨h.known, h.named, h.sources⟩

theorem create (h : s.Listed) {name description format : Bytes}
    {writeQueue writeTimeout maxClients : ℤ}
    (hs : s.create name description format writeQueue writeTimeout maxClients = some s') :
    s'.Listed := by
  unfold RegistryState.create at hs
  split_ifs at hs with htaken
  obtain rfl := Option.some.inj hs
  refine ⟨h.known.create ⟨_, _, _, _, _, _, rfl⟩, fun name' m hm => ?_, fun m mt hmt src hsrc => ?_⟩
  · rcases GoMap.lookup_insert_eq_some.mp hm with ⟨rfl, rfl⟩ | ⟨-, hm⟩
    · exact ⟨_, List.getElem?_concat_length, rfl⟩
    · obtain ⟨mt, hmt, hname⟩ := h.named name' m hm
      exact ⟨mt, getElem?_append_of_eq_some hmt, hname⟩
  · rcases getElem?_snoc_eq_some hmt with hmt | ⟨-, rfl⟩
    · exact h.sources m mt hmt src hsrc
    · cases hsrc

theorem source (h : s.Listed) {k : ℕ} (hs : s.source k = some s') : s'.Listed := by
  obtain ⟨x, hx, hs⟩ := Option.bind_eq_some_iff.mp hs
  obtain ⟨mt, hmt, hs⟩ := Option.bind_eq_some_iff.mp hs
  have hmoved : ∀ pc : SourcePC, ∀ y ∈ s.handshakes,
      ∃ z ∈ s.handshakes.set k { x with pc := pc }, z.info = y.info := by
    intro pc y hy
    obtain ⟨j, hj⟩ := List.getElem?_of_mem hy
    obtain ⟨z, hz, hinfo⟩ := exists_getElem?_set (b := { x with pc := pc })
      (P := fun z => z.info = y.info) hx ⟨y, hj, rfl⟩ fun _ heq => heq
    exact ⟨z, List.mem_of_getElem? hz, hinfo⟩
  split at hs
  next => exact Option.some.inj hs ▸ h.handshakes (hmoved _)
  next =>
    obtain ⟨r, hr, rfl⟩ := Option.map_eq_some_iff.mp hs
    refine (h.rovers hr fun m src ha => ?_).handshakes (hmoved _)
    obtain ⟨-, hop⟩ := RoverStep.operate.inj ha
    exact ⟨x, List.mem_of_getElem? hx, CriticalSection.setSource.inj hop⟩
  next => cases hs

theorem call (h : s.Listed) {k : ℕ} {ord : RangeOrder Client} (hs : s.call k ord = some s') :
    s'.Listed := by
  obtain ⟨c, hc, hs⟩ := Option.bind_eq_some_iff.mp hs
  split at hs
  next =>
    obtain ⟨mt, -, rfl⟩ := Option.map_eq_some_iff.mp hs
    exact h.calls _
  next args wasEnabled hpc =>
    obtain ⟨r, hr, hs⟩ := Option.map_eq_some_iff.mp hs
    have hr' := h.rovers hr fun m src ha => by cases ha
    split at hs
    · exact hs ▸ hr'.calls _
    · exact hs ▸ hr'.calls _
  next =>
    obtain ⟨r, hr, rfl⟩ := Option.map_eq_some_iff.mp hs
    exact (h.rovers hr fun m src ha => by cases ha).calls _
  next =>
    obtain ⟨-, hs⟩ := Option.ite_none_right_eq_some.mp hs
    exact Option.some.inj hs ▸ h.calls _
  next => cases hs

theorem step (h : s.Listed) {a : RegistryStep} (hs : s.step a = some s') : s'.Listed := by
  cases a with
  | create name description format writeQueue writeTimeout maxClients => exact h.create hs
  | getRover name id userID =>
    obtain ⟨m, -, hs⟩ := Option.bind_eq_some_iff.mp hs
    obtain ⟨r, hr, rfl⟩ := Option.map_eq_some_iff.mp hs
    exact h.rovers hr fun m src ha => by cases ha
  | getSource name info =>
    obtain ⟨m, -, rfl⟩ := Option.map_eq_some_iff.mp hs
    exact h.handshakes fun x hx => ⟨x, List.mem_append_left _ hx, rfl⟩
  | source k => exact h.source hs
  | rover a =>
    obtain ⟨hown, hs⟩ := Option.ite_none_right_eq_some.mp hs
    obtain ⟨r, hr, rfl⟩ := Option.map_eq_some_iff.mp hs
    refine h.rovers hr fun m src ha => ?_
    rw [ha] at hown
    cases hown
  | update name args =>
    obtain ⟨m, -, rfl⟩ := Option.map_eq_some_iff.mp hs
    exact h.calls _
  | delete name =>
    obtain ⟨m, -, rfl⟩ := Option.map_eq_some_iff.mp hs
    refine ⟨h.known, fun name' m' hm' => ?_, h.sources⟩
    exact h.named name' m' (GoMap.lookup_erase_eq_some.mp hm').2
  | call k ord => exact h.call hs

end Listed

end RegistryState

theorem registrySystem_listed {maxClients : ℤ} {s : RegistryState}
    (h : (registrySystem maxClients).Reachable s) : s.Listed := by
  refine h.invariant ?_ fun s a s' _ hs hstep => hs.step hstep
  rintro s rfl
  refine ⟨.init fun mt hmt => ?_, fun name m hm => ?_, fun m mt hmt => ?_⟩
  · cases hmt
  · simp at hm
  · cases hmt

/-! ## The answers at one moment -/

namespace RegistryState

variable {s : RegistryState} {ord ord' : RangeOrder ℕ} {mp : MountPoint}

theorem list_perm (s : RegistryState) (ord ord' : RangeOrder ℕ) :
    (s.list ord).Perm (s.list ord') :=
  ((ord.visit_perm _).trans (ord'.visit_perm _).symm).filterMap _

namespace Listed

/-- The mountpoints of a list have the names of the registry. -/
theorem names_perm (h : s.Listed) (ord : RangeOrder ℕ) :
    ((s.list ord).map MountPoint.name).Perm s.mounts.keys := by
  have hnames : (s.mounts.values.filterMap s.point).map MountPoint.name = s.mounts.keys := by
    rw [GoMap.values, List.filterMap_map, List.map_filterMap]
    show _ = s.mounts.entries.map Sigma.fst
    rw [← List.filterMap_eq_map]
    refine List.filterMap_congr fun e he => ?_
    obtain ⟨mt, hmt, hname⟩ := h.named e.1 e.2 (AList.mem_lookup_iff.mpr he)
    simp [point, hmt, hname]
  rw [← hnames]
  exact ((ord.visit_perm _).filterMap _).map _

theorem names_nodup (h : s.Listed) (ord : RangeOrder ℕ) :
    ((s.list ord).map MountPoint.name).Nodup :=
  (h.names_perm ord).nodup_iff.mpr s.mounts.keys_nodup

theorem mem_list (h : s.Listed) (ord : RangeOrder ℕ) :
    mp ∈ s.list ord ↔ ∃ m, s.mounts.lookup mp.name = some m ∧ s.point m = some mp := by
  rw [list, List.mem_filterMap]
  constructor
  · rintro ⟨m, hm, hpoint⟩
    obtain ⟨name, hname⟩ := GoMap.mem_values.mp (ord.mem_visit.mp hm)
    obtain ⟨mt, hmt, rfl⟩ := h.named name m hname
    obtain rfl : mt.point = mp := by simpa [point, hmt] using hpoint
    exact ⟨m, hname, hpoint⟩
  · rintro ⟨m, hm, hpoint⟩
    exact ⟨m, ord.mem_visit.mpr (GoMap.mem_values.mpr ⟨_, hm⟩), hpoint⟩

theorem rep (h : s.Listed) (hmp : mp ∈ s.list ord) : mp.Rep := by
  obtain ⟨m, -, hpoint⟩ := (h.mem_list ord).mp hmp
  obtain ⟨mt, hmt, rfl⟩ := Option.map_eq_some_iff.mp hpoint
  exact h.known.rep m mt hmt

/-- The sources that are shown: a row for each mountpoint that is online. -/
theorem sourceRows_eq (h : s.Listed) (hids : ∀ x ∈ s.handshakes, x.info.id ≠ [])
    (hmp : mp ∈ s.list ord) (user : ℤ → Option Bytes) (bytesIn : SourceInfo → ℤ) :
    sourceRows .all user bytesIn mp = mp.source.toList.map fun si =>
      ⟨mp.name, si, usernameOf user si.userID, bytesIn si⟩ := by
  rw [sourceRows_all]
  cases hsrc : mp.source with
  | none => rfl
  | some si =>
    obtain ⟨m, -, hpoint⟩ := (h.mem_list ord).mp hmp
    obtain ⟨mt, hmt, rfl⟩ := Option.map_eq_some_iff.mp hpoint
    obtain ⟨x, hx, rfl⟩ := h.sources m mt hmt si hsrc
    simp [hids x hx]

end Listed

end RegistryState

/-- What is shown of a mountpoint: whether it is online, and how many clients it has. -/
structure Shown (sources : List SrcInfo) (clients : List CliInfo) (name : Bytes) (online : Bool)
    (count : ℤ) : Prop where
  online : online = true ↔ ∃ row ∈ sources, row.mountPoint = name
  count : count = (clients.filter fun row => row.mountPoint == name).length

namespace RegistryState

section Answers

variable {s : RegistryState} {ord₁ ord₂ ord₃ : RangeOrder ℕ} {mp : MountPoint}
  (user : ℤ → Option Bytes) (bytesIn : SourceInfo → ℤ) (ord : RangeOrder Client)

theorem length_clientRows (r : RoverState) (hrep : mp.Rep) :
    ((clientRows .all user mp.name (r.clientInfos ord mp)).length : ℤ) = mp.stats.clientCount := by
  rw [clientRows_all, List.length_map, RoverState.clientInfos, List.length_map,
    (ord.visit_perm _).length_eq, GoMap.length_values, hrep.clientCount]

theorem snapshot_sourceOnline (hrep : mp.Rep) :
    mp.stats.snapshot.sourceOnline = mp.source.isSome := by
  rw [MountStats.snapshot, hrep.sourceOnline]
  cases mp.source.isSome <;> rfl

theorem listClients_all (r : RoverState) (mps : List MountPoint) :
    listClients .all user ord r mps =
      mps.flatMap fun mp => clientRows .all user mp.name (r.clientInfos ord mp) := by
  refine List.flatMap_congr fun mp _ => ?_
  simp [ClientQuery.all]

variable (hlisted : s.Listed) (hids : ∀ x ∈ s.handshakes, x.info.id ≠ [])

include hlisted hids

/-- A registered mountpoint is shown as it is. -/
theorem shown_of_mem (hmp : mp ∈ s.list ord₁) :
    Shown (listSources .all user bytesIn (s.list ord₂))
      (listClients .all user ord s.rovers (s.list ord₃)) mp.name mp.stats.snapshot.sourceOnline
      mp.stats.snapshot.clientCount := by
  have hrep := hlisted.rep hmp
  refine ⟨?_, ?_⟩
  · have hmem : mp ∈ s.list ord₂ := (s.list_perm ord₁ ord₂).mem_iff.mp hmp
    rw [snapshot_sourceOnline hrep]
    constructor
    · intro honline
      obtain ⟨si, hsi⟩ := Option.isSome_iff_exists.mp honline
      refine ⟨⟨mp.name, si, usernameOf user si.userID, bytesIn si⟩, ?_, rfl⟩
      refine List.mem_flatMap.mpr ⟨mp, hmem, ?_⟩
      rw [hlisted.sourceRows_eq hids hmem, hsi]
      exact List.mem_singleton_self _
    · rintro ⟨row, hrow, hname⟩
      obtain ⟨mp', hmp', hrow⟩ := List.mem_flatMap.mp hrow
      rw [hlisted.sourceRows_eq hids hmp'] at hrow
      obtain ⟨si, hsi, rfl⟩ := List.mem_map.mp hrow
      obtain rfl := List.inj_on_of_nodup_map (hlisted.names_nodup ord₂) hmp' hmem hname
      rw [Option.mem_toList.mp hsi]
      rfl
  · have hmem : mp ∈ s.list ord₃ := (s.list_perm ord₁ ord₃).mem_iff.mp hmp
    have hrows : ∀ mp ∈ s.list ord₃, ∀ row ∈ clientRows .all user mp.name
        (s.rovers.clientInfos ord mp), row.mountPoint = mp.name := by
      intro mp _ row hrow
      rw [clientRows_all] at hrow
      obtain ⟨info, -, rfl⟩ := List.mem_map.mp hrow
      rfl
    rw [listClients_all, filter_flatMap_key (hlisted.names_nodup ord₃) hrows hmem,
      length_clientRows user ord _ hrep]
    rfl

/-- A mountpoint that is not registered is shown without anybody. -/
theorem shown_of_not_registered {name : Bytes} (hname : s.mounts.lookup name = none) :
    Shown (listSources .all user bytesIn (s.list ord₂))
      (listClients .all user ord s.rovers (s.list ord₃)) name false 0 := by
  have hno : ∀ (ord : RangeOrder ℕ), ∀ mp ∈ s.list ord, mp.name ≠ name := by
    rintro ord mp hmp rfl
    obtain ⟨m, hm, -⟩ := (hlisted.mem_list ord).mp hmp
    rw [hname] at hm
    cases hm
  refine ⟨iff_of_false (by simp) ?_, ?_⟩
  · rintro ⟨row, hrow, rfl⟩
    obtain ⟨mp, hmp, hrow⟩ := List.mem_flatMap.mp hrow
    rw [hlisted.sourceRows_eq hids hmp] at hrow
    obtain ⟨si, -, rfl⟩ := List.mem_map.mp hrow
    exact hno ord₂ mp hmp rfl
  · rw [listClients_all, List.filter_eq_nil_iff.mpr]
    · rfl
    · intro row hrow heq
      obtain ⟨mp, hmp, hrow⟩ := List.mem_flatMap.mp hrow
      rw [clientRows_all] at hrow
      obtain ⟨info, -, rfl⟩ := List.mem_map.mp hrow
      exact hno ord₃ mp hmp (beq_iff_eq.mp heq)

/-- The totals are the numbers of rows. -/
theorem totals_eq :
    (stats (s.list ord₁)).totalClients =
        (listClients .all user ord s.rovers (s.list ord₃)).length ∧
      (stats (s.list ord₁)).totalSources =
        (listSources .all user bytesIn (s.list ord₂)).length := by
  rw [stats_eq]
  constructor
  · have hsum := ((s.list_perm ord₁ ord₃).map fun mp => mp.stats.clientCount).sum_eq
    rw [listClients_all, hsum, length_flatMap_eq_sum]
    exact fun mp hmp => length_clientRows user ord s.rovers (hlisted.rep hmp)
  · have hcount := (s.list_perm ord₁ ord₂).countP_eq fun mp => mp.stats.snapshot.sourceOnline
    rw [hcount, listSources, length_flatMap_eq_countP]
    intro mp hmp
    rw [hlisted.sourceRows_eq hids hmp, snapshot_sourceOnline (hlisted.rep hmp)]
    cases mp.source <;> rfl

end Answers

/-- The answers of `Stats`, `ListSources`, `ListClients` and `ListMountpoints` say the same about a
registry with these names; the last one may be that the query was refused. -/
structure Agree (names : List Bytes) (statistics : StatsAnswer) (sources : List SrcInfo)
    (clients : List CliInfo) (mountpoints : Except ListingError MountpointsAnswer) : Prop where
  names : (statistics.mountpoints.map MountStat.name).Perm names
  totalClients : statistics.totalClients = clients.length
  totalSources : statistics.totalSources = sources.length
  statistics : ∀ r ∈ statistics.mountpoints,
    Shown sources clients r.name r.sourceOnline r.clientCount
  mountpoints : ∀ answer, mountpoints = .ok answer → ∀ info ∈ answer.data,
    Shown sources clients info.row.name info.sourceOnline info.clientCount

/-- **The listings agree**: in every reachable state, in which devices have come and gone and
mountpoints have been created, updated and deleted in any interleaving, the answers made at that
moment say the same, in whatever orders `Manager.List` gives the mountpoints; each page of
`ListMountpoints` does, also about rows that the registry does not have; and the filters of
`ListSources` and `ListClients` select rows. -/
theorem listings_agree {maxClients : ℤ} {s : RegistryState}
    (h : (registrySystem maxClients).Reachable s) (hids : ∀ x ∈ s.handshakes, x.info.id ≠ [])
    (ord₁ ord₂ ord₃ : RangeOrder ℕ) (ord : RangeOrder Client) (user : ℤ → Option Bytes)
    (bytesIn : SourceInfo → ℤ) (antenna : ℕ → AntennaState) (like : Bytes → Bytes → Bool)
    (t : MountPointTable) (page : MountpointsQuery) (q : ClientQuery) :
    Agree s.mounts.keys (stats (s.list ord₁))
        (listSources .all user bytesIn (s.list ord₂))
        (listClients .all user ord s.rovers (s.list ord₃))
        (listMountpoints like page t (s.get antenna)) ∧
      (listSources q user bytesIn (s.list ord₂) =
        (listSources .all user bytesIn (s.list ord₂)).filter fun row =>
          q.selects row.mountPoint row.username) ∧
      listClients q user ord s.rovers (s.list ord₃) =
        (listClients .all user ord s.rovers (s.list ord₃)).filter fun row =>
          q.selects row.mountPoint row.username := by
  have hlisted := registrySystem_listed h
  obtain ⟨hclients, hsources⟩ := totals_eq user bytesIn ord hlisted hids
  refine ⟨⟨?_, hclients, hsources, fun r hr => ?_, fun answer hanswer info hinfo => ?_⟩,
    listSources_eq_filter, listClients_eq_filter⟩
  · rw [stats_eq, List.map_map]
    exact hlisted.names_perm ord₁
  · rw [stats_eq] at hr
    obtain ⟨mp, hmp, rfl⟩ := List.mem_map.mp hr
    exact shown_of_mem user bytesIn ord hlisted hids hmp
  · obtain ⟨rows, hrows⟩ := listMountpoints_data hanswer
    rw [hrows] at hinfo
    obtain ⟨row, -, rfl⟩ := List.mem_map.mp hinfo
    cases hm : s.mounts.lookup row.name with
    | none =>
      have hget : s.get antenna row.name = none := by rw [get, hm]; rfl
      rw [mpInfo, hget]
      exact shown_of_not_registered user bytesIn ord hlisted hids hm
    | some m =>
      obtain ⟨mt, hmt, hname⟩ := hlisted.named row.name m hm
      have hpoint : s.point m = some mt.point := by rw [point, hmt]; rfl
      have hget : s.get antenna row.name = some (mt.point, antenna m) := by
        rw [get, hm, Option.bind_some, hpoint]
        rfl
      rw [mpInfo, hget]
      have hmem : mt.point ∈ s.list ord₁ := (hlisted.mem_list ord₁).mpr ⟨m, hname ▸ hm, hpoint⟩
      rw [← hname]
      exact shown_of_mem user bytesIn ord hlisted hids hmem

/-- A base station and a rover connect to a new mountpoint `M`. -/
def oneRover : List RegistryStep :=
  [.create (ascii "M") [] (ascii "RTCM3") 64 3000000000 0,
    .getSource (ascii "M") ⟨0, ascii "s", 7⟩, .source 0, .source 0,
    .getRover (ascii "M") (ascii "a") 8] ++
  List.replicate 6 (.rover (.handler 0 .stored .ok))

/-- The table with the row of `M`. -/
def tableM : MountPointTable :=
  (MountPointTable.create .empty (ascii "M") [] (ascii "RTCM3")).elim .empty Prod.fst

/-- The four listings of a mountpoint with one rover, filtered and not. -/
theorem listings_agree_oneRover :
    let user : ℤ → Option Bytes := fun id => if id = 8 then some (ascii "rover") else none
    ∃ s, (registrySystem 8).run ⟨∅, ⟨newGlobalLimiter 8, [], [], []⟩, [], []⟩ oneRover = some s ∧
      (stats (s.list .stored)).totalClients = 1 ∧
      ((listMountpoints (fun _ _ => true) ⟨[], [], [], [], []⟩ tableM
        (s.get fun _ => {})).map fun answer => answer.data.map fun info =>
          (info.row.name, info.sourceOnline, info.clientCount)) = .ok [(ascii "M", true, 1)] ∧
      Agree s.mounts.keys (stats (s.list .stored))
        (listSources .all user (fun _ => 0) (s.list .stored))
        (listClients .all user .stored s.rovers (s.list .stored))
        (listMountpoints (fun _ _ => true) ⟨[], [], [], [], []⟩ tableM (s.get fun _ => {})) ∧
      (listSources ⟨[], ascii "base"⟩ user (fun _ => 0) (s.list .stored) =
        (listSources .all user (fun _ => 0) (s.list .stored)).filter fun row =>
          ClientQuery.selects ⟨[], ascii "base"⟩ row.mountPoint row.username) ∧
      listClients ⟨[], ascii "base"⟩ user .stored s.rovers (s.list .stored) =
        (listClients .all user .stored s.rovers (s.list .stored)).filter fun row =>
          ClientQuery.selects ⟨[], ascii "base"⟩ row.mountPoint row.username := by
  intro user
  obtain ⟨s, hs, hids, hclients, hdata⟩ :
      ∃ s, (registrySystem 8).run ⟨∅, ⟨newGlobalLimiter 8, [], [], []⟩, [], []⟩ oneRover = some s ∧
        s.handshakes.map (fun x => x.info.id) = [ascii "s"] ∧
        (stats (s.list .stored)).totalClients = 1 ∧
        ((listMountpoints (fun _ _ => true) ⟨[], [], [], [], []⟩ tableM
          (s.get fun _ => {})).map fun answer => answer.data.map fun info =>
            (info.row.name, info.sourceOnline, info.clientCount)) = .ok [(ascii "M", true, 1)] :=
    ⟨_, rfl, rfl, rfl, rfl⟩
  refine ⟨s, hs, hclients, hdata, listings_agree (.of_run _ rfl hs) (fun x hx => ?_) _ _ _ _ _ _ _
    _ _ _ _⟩
  have hmem : x.info.id ∈ s.handshakes.map fun x => x.info.id := List.mem_map_of_mem hx
  rw [hids] at hmem
  rw [List.mem_singleton.mp hmem]
  exact List.cons_ne_nil _ _

end RegistryState

end NtripCaster
