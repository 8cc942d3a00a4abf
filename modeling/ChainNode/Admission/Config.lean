import ChainNode.Admission.Outcome
import ChainNode.Transaction

/-!
# Configuration of admission
-/

namespace ChainNode.Admission

/-- All times are in milliseconds. -/
structure Config where
  cycleInterval : UInt64 := 500
  expiredCooldown : UInt64 := 600000
  invalidCooldown : UInt64 := 3600000
  timestampTooOldCooldown : UInt64 := 86400000
  /-- Takes signatures as valid without checking them. -/
  liteMode : Bool := false
  /-- The types that are kept out of the unconfirmed cache. -/
  lowPriorityTypes : List TransactionType := [.chat]
deriving DecidableEq

namespace Config

/-- Short cycles, all else as by default. -/
def forTesting : Config := { cycleInterval := 10 }

def isLowPriority (c : Config) (type : TransactionType) : Bool := c.lowPriorityTypes.contains type

/-- How long a signature is barred when the repository refuses its transaction. -/
def cooldownFor (c : Config) : InvalidReason → UInt64
  | .timestampTooOld => c.timestampTooOldCooldown
  | _ => c.invalidCooldown

end Config
end ChainNode.Admission
