import NtripCaster.Go.Bytes
import NtripCaster.Go.Map

/-!
# Mountpoints

`internal/mountpoint/mountpoint.go`: a mountpoint holds at most one source and its rover
clients. Broadcasts read a snapshot of the clients without a lock; every writer holds the
mutex and rebuilds the snapshot. Each operation here is one critical section; what it still has
to do after unlocking (stop a source, kick clients) is returned as a `Teardown`.

## Main definitions

* `Client`, `SourceInfo`: the immutable parts of the sessions a mountpoint refers to
* `MountPoint` and its operations `setSource`, `clearSource`, `addClient`, `removeClient`,
  `kickClient`, `kickClientsByUser`, `kickSourceByUser`, `disconnectAll`, `update`
-/

namespace NtripCaster

/-- The part of a `client.Client` that never changes: which object it is, its ID, the user it
authenticated as (0 for none), the capacity of its `WriteChan` and its write timeout. -/
structure Client where
  ref : ℕ
  id : Bytes
  userID : ℤ
  queueSize : ℕ
  writeTimeout : ℤ
  deriving DecidableEq, Repr

/-- The largest size that `make` takes for a channel of slices, on a 64-bit platform: with 24 bytes
for each of them and 112 for the channel, 2⁴⁸ bytes at most. -/
def maxChanSize : ℤ := 11728124029606

/-- `make(chan []byte, size)` does not panic; memory is taken to suffice. -/
def FitsChan (size : ℤ) : Prop := 0 ≤ size ∧ size ≤ maxChanSize

instance (size : ℤ) : Decidable (FitsChan size) :=
  inferInstanceAs (Decidable (0 ≤ size ∧ size ≤ maxChanSize))

/-- The view of a connected source that a mountpoint keeps: which `source.Source` object it is,
its ID and the user it authenticated as (0 for none). -/
structure SourceInfo where
  ref : ℕ
  id : Bytes
  userID : ℤ
  deriving DecidableEq, Repr

/-- `metrics.MountStats`; its counters, of 64 bits, are taken to stay below 2⁶³. -/
structure MountStats where
  clientCount : ℤ := 0
  sourceOnline : ℤ := 0
  bytesIn : ℤ := 0
  bytesOut : ℤ := 0
  slowClients : ℤ := 0
  kickCount : ℤ := 0
  deriving DecidableEq, Repr

/-- `MountPoint`: its settings, its sessions and the snapshot of its clients. -/
structure MountPoint where
  name : Bytes
  description : Bytes
  format : Bytes
  enabled : Bool
  writeQueue : ℤ
  writeTimeout : ℤ
  maxClients : ℤ
  source : Option SourceInfo
  clientsByID : GoMap Bytes Client
  snapshot : List Client
  stats : MountStats

/-- `ErrClientLimitReached`. -/
inductive AddClientError
  | clientLimitReached
  deriving DecidableEq, Repr

/-- What an operation does after it has released the mutex: call `Stop` on a source and
`KickSlowConsumer` on clients, in this order. -/
structure Teardown where
  stop : Option SourceInfo := none
  kick : List Client := []
  deriving DecidableEq, Repr

/-- `NewMountPoint`: an enabled mountpoint without sessions. -/
def newMountPoint (name description format : Bytes) (writeQueue writeTimeout maxClients : ℤ) :
    MountPoint where
  name := name
  description := description
  format := format
  enabled := true
  writeQueue := writeQueue
  writeTimeout := writeTimeout
  maxClients := maxClients
  source := none
  clientsByID := ∅
  snapshot := []
  stats := {}

namespace MountPoint

variable (m : MountPoint)

/-- `rebuildSnapshotLocked`, with the order of its loop over `clientsByID`. -/
def rebuildSnapshotLocked (ord : RangeOrder Client) : MountPoint :=
  { m with snapshot := ord.visit m.clientsByID.values }

/-- `Stats.ClientCount.Store(int64(len(m.clientsByID)))`. -/
def storeClientCount : MountPoint :=
  { m with stats := { m.stats with clientCount := m.clientsByID.len } }

/-- `SetSource`: `false` if a source is already connected. -/
def setSource (info : SourceInfo) : MountPoint × Bool :=
  if m.source.isSome then (m, false)
  else ({ m with source := some info, stats := { m.stats with sourceOnline := 1 } }, true)

/-- `ClearSource`: does nothing unless the current source has the given ID; the clients stay
registered and are kicked after the unlock. -/
def clearSource (ord : RangeOrder Client) (srcID : Bytes) : MountPoint × Teardown :=
  match m.source with
  | none => (m, {})
  | some src =>
    if src.id ≠ srcID then (m, {})
    else
      -- the clients leave the map one by one, when their write loops end
      ({ m with source := none, stats := { m.stats with sourceOnline := 0 } },
        { stop := some src, kick := ord.visit m.clientsByID.values })

/-- `HasSource`. -/
def hasSource : Bool := m.source.isSome

/-- `SourceID`: empty if there is no source. -/
def sourceID : Bytes := m.source.elim [] SourceInfo.id

/-- `AddClient`: fails if `MaxClients` is positive and reached. -/
def addClient (ord : RangeOrder Client) (c : Client) : Except AddClientError MountPoint :=
  if 0 < m.maxClients ∧ m.maxClients ≤ m.clientsByID.len then .error .clientLimitReached
  else
    .ok (({ m with clientsByID := m.clientsByID.insert c.id c }).rebuildSnapshotLocked
      ord).storeClientCount

/-- The common part of the operations that take one client off the map. -/
def deleteClient (ord : RangeOrder Client) (id : Bytes) : MountPoint :=
  (({ m with clientsByID := m.clientsByID.erase id }).rebuildSnapshotLocked ord).storeClientCount

/-- `RemoveClient`: takes the client off the map without closing it. -/
def removeClient (ord : RangeOrder Client) (id : Bytes) : MountPoint :=
  match m.clientsByID.lookup id with
  | none => m
  | some _ => m.deleteClient ord id

/-- `KickClient`: takes the client off the map and closes it. -/
def kickClient (ord : RangeOrder Client) (id : Bytes) : MountPoint × Teardown :=
  match m.clientsByID.lookup id with
  | none => (m, {})
  | some c => (m.deleteClient ord id, { kick := [c] })

/-- `KickClientsByUser`: `ord` is the order of the loop that collects and deletes, `ord'` the
order in which the snapshot is rebuilt. -/
def kickClientsByUser (ord ord' : RangeOrder Client) (userID : ℤ) : MountPoint × Teardown :=
  let toKick := (ord.visit m.clientsByID.values).filter (·.userID == userID)
  let deleted :=
    { m with clientsByID := m.clientsByID.deleteWhere fun _ c => c.userID == userID }
  if toKick ≠ [] then
    ((deleted.rebuildSnapshotLocked ord').storeClientCount, { kick := toKick })
  else (deleted, {}) -- the snapshot is not rebuilt if there was nobody to kick

/-- `KickSourceByUser`: also takes all clients off the map, since the source is gone. -/
def kickSourceByUser (ord ord' : RangeOrder Client) (userID : ℤ) :
    MountPoint × Teardown × Bool :=
  match m.source with
  | none => (m, {}, false)
  | some src =>
    if src.userID ≠ userID then (m, {}, false)
    else
      let clients := ord.visit m.clientsByID.values
      let cleared := { m with
        source := none
        clientsByID := ∅
        stats := { m.stats with sourceOnline := 0 } }
      let rebuilt := cleared.rebuildSnapshotLocked ord'
      ({ rebuilt with stats := { rebuilt.stats with clientCount := 0 } },
        { stop := some src, kick := clients }, true)

/-- `DisconnectAll`: takes the source off; the clients stay registered and are kicked after the
unlock. -/
def disconnectAll (ord : RangeOrder Client) : MountPoint × Teardown :=
  ({ m with source := none, stats := { m.stats with sourceOnline := 0 } },
    { stop := m.source, kick := ord.visit m.clientsByID.values })

/-- The critical section of `Manager.UpdateMountPoint`. -/
def update (description format : Bytes) (enabled : Bool)
    (writeQueue writeTimeout maxClients : ℤ) : MountPoint :=
  { m with
    description := description
    format := format
    enabled := enabled
    writeQueue := writeQueue
    writeTimeout := writeTimeout
    maxClients := maxClients }

end MountPoint

end NtripCaster
