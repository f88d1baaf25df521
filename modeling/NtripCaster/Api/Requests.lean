import NtripCaster.Account.Admin

/-!
# Admin requests

The decoded bodies of the requests of `internal/api/handlers.go` that change users and mountpoints,
and what their handlers take from the row for a field that a body leaves out.

## Main definitions

* `UpdateUserRequest`, with the role and `enabled` it gives a user
* `CreateMountpointRequest`, `UpdateMountpointRequest`, with the columns it gives a mountpoint
-/

namespace NtripCaster

/-- The body of `PUT /api/users/{id}`: an empty role or password and a missing `enabled` leave
theirs as it is. -/
structure UpdateUserRequest where
  role : Bytes := []
  enabled : Option Bool := none
  password : Bytes := []
  deriving DecidableEq, Repr

namespace UpdateUserRequest

variable (req : UpdateUserRequest) (user : User)

/-- The role that `UpdateUser` stores. -/
def roleFor : Bytes := if req.role ≠ [] then req.role else user.role

/-- The `enabled` that `UpdateUser` stores. -/
def enabledFor : Bool := req.enabled.getD user.enabled

end UpdateUserRequest

/-- The body of `POST /api/mountpoints`. -/
structure CreateMountpointRequest where
  name : Bytes
  description : Bytes := []
  format : Bytes := []
  sourceSecret : Bytes := []
  maxClients : ℤ := 0
  deriving DecidableEq, Repr

/-- The format that `CreateMountpoint` stores. -/
def CreateMountpointRequest.formatOrDefault (req : CreateMountpointRequest) : Bytes :=
  if req.format = [] then ascii "RTCM3" else req.format

/-- The body of `PUT /api/mountpoints/{id}`: an empty description or format and a missing field
leave theirs as it is; an empty secret clears it. -/
structure UpdateMountpointRequest where
  description : Bytes := []
  format : Bytes := []
  enabled : Option Bool := none
  sourceSecret : Option Bytes := none
  maxClients : Option ℤ := none
  deriving DecidableEq, Repr

namespace UpdateMountpointRequest

variable (req : UpdateMountpointRequest) (row : MountPointRow)

/-- The description that `UpdateMountpoint` stores. -/
def descriptionFor : Bytes := if req.description ≠ [] then req.description else row.description

/-- The format that `UpdateMountpoint` stores. -/
def formatFor : Bytes := if req.format ≠ [] then req.format else row.format

/-- The `enabled` that `UpdateMountpoint` stores. -/
def enabledFor : Bool := req.enabled.getD row.isEnabled

/-- The client limit that `UpdateMountpoint` gives the mountpoint in memory. -/
def maxClientsFor : ℤ := req.maxClients.getD row.limit

end UpdateMountpointRequest

end NtripCaster
