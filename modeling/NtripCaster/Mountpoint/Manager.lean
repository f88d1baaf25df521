import NtripCaster.Mountpoint.MountPoint

/-!
# The mountpoint registry

`internal/mountpoint/manager.go`. The registry maps names to pointers, each held under one name
only, so what is done to a mountpoint through its pointer is done to the entry of that name.

## Main definitions

* `Manager`, `Manager.get`, `Manager.list`
* `Manager.set`: the registry after an operation on the mountpoint of a name
* `Manager.create`, `delete`, `updateMountPoint`, `disconnectUser`: the calls of the admin API, from
  start to end
-/

namespace NtripCaster

/-- `Manager`: the registry by name. -/
structure Manager where
  mounts : GoMap Bytes MountPoint

namespace Manager

variable (mgr : Manager)

/-- `NewManager`. -/
def new : Manager := ⟨∅⟩

/-- `Get`: `none` for the source's `nil`. -/
def get (name : Bytes) : Option MountPoint := mgr.mounts.lookup name

/-- `List`, with the order of its loop over `mounts`. -/
def list (ord : RangeOrder MountPoint) : List MountPoint := ord.visit mgr.mounts.values

/-- The mountpoint that `name` points to is now `mp`. -/
def set (name : Bytes) (mp : MountPoint) : Manager := ⟨mgr.mounts.insert name mp⟩

/-- `Create`: `none` if the name is taken. -/
def create (name description format : Bytes) (writeQueue writeTimeout maxClients : ℤ) :
    Option Manager :=
  match mgr.get name with
  | some _ => none
  | none =>
    some (mgr.set name (newMountPoint name description format writeQueue writeTimeout maxClients))

/-- `Delete`, with what `DisconnectAll` tears down: `none` if there is no such mountpoint. -/
def delete (ord : RangeOrder Client) (name : Bytes) : Option (Manager × Teardown) :=
  (mgr.get name).map fun mp => (⟨mgr.mounts.erase name⟩, (mp.disconnectAll ord).2)

/-- `UpdateMountPoint`, with what `DisconnectAll` tears down: `none` if there is no such
mountpoint. -/
def updateMountPoint (ord : RangeOrder Client) (name description format : Bytes) (enabled : Bool)
    (writeQueue writeTimeout maxClients : ℤ) : Option (Manager × Teardown) :=
  (mgr.get name).map fun mp =>
    let mp' := mp.update description format enabled writeQueue writeTimeout maxClients
    if mp.enabled && !enabled then
      (mgr.set name (mp'.disconnectAll ord).1, (mp'.disconnectAll ord).2)
    else (mgr.set name mp', {})

/-- `DisconnectUser`, with the order of its loop over `mounts` and what it tears down. -/
def disconnectUser (visit : RangeOrder Bytes) (ord ord' : RangeOrder Client) (userID : ℤ) :
    Manager × List Teardown :=
  (visit.visit mgr.mounts.keys).foldl (fun (mgr, teardowns) name =>
    match mgr.get name with
    | none => (mgr, teardowns)
    | some mp =>
      let (mp, stopped, _) := mp.kickSourceByUser ord ord' userID
      let (mp, kicked) := mp.kickClientsByUser ord ord' userID
      (mgr.set name mp, teardowns ++ [stopped, kicked])) (mgr, [])

@[simp] theorem get_set_self (name : Bytes) (mp : MountPoint) :
    (mgr.set name mp).get name = some mp :=
  AList.lookup_insert _

variable {mgr}

theorem get_set_ne {name name' : Bytes} (h : name' ≠ name) (mp : MountPoint) :
    (mgr.set name mp).get name' = mgr.get name' :=
  AList.lookup_insert_ne h

end Manager

/-- A registry with one mountpoint `M`, without a source. -/
def oneMountpoint : Manager :=
  Manager.new.set (ascii "M") (newMountPoint (ascii "M") [] [] 64 3000000000 0)

end NtripCaster
