import Mathlib.Data.Int.Notation
import NtripCaster.Go.Bytes

/-!
# Configuration

The part of `internal/config/config.go` that the connection handlers and the admin API read.
-/

namespace NtripCaster

/-- `AuthConfig`. The documented values are `user_binding` and `secret` for `ntripSourceAuth`,
`none` and `basic` for `ntripRoverAuth`. -/
structure AuthConfig where
  enabled : Bool
  ntripSourceAuth : Bytes
  ntripRoverAuth : Bytes
  deriving DecidableEq, Repr

/-- `MountpointDefaultsConfig`, "unless overridden per-mountpoint"; a time in nanoseconds. -/
structure MountpointDefaultsConfig where
  writeQueue : ℤ := 64
  writeTimeout : ℤ := 3 * 1000000000
  deriving DecidableEq, Repr

/-- The section that the handlers of connections read. -/
structure Config where
  auth : AuthConfig
  deriving DecidableEq, Repr

/-- `defaultConfig`. -/
def defaultConfig : Config where
  auth :=
    { enabled := true
      ntripSourceAuth := ascii "user_binding"
      ntripRoverAuth := ascii "basic" }

end NtripCaster
