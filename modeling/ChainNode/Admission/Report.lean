import ChainNode.Admission.Outcome
import ChainNode.Json.Value

/-!
# Reports

What a cycle did, and where the pipeline stands.
-/

namespace ChainNode.Admission

structure CycleReport where
  /-- Candidates that got their tag. -/
  validated : Nat := 0
  /-- Candidates removed at their deadline. -/
  expired : Nat := 0
  /-- Candidates removed for a bad signature, or refused by the repository. -/
  rejected : Nat := 0
  imported : Nat := 0
  alreadyKnown : Nat := 0
  /-- Tagged candidates after the validate phase. -/
  pendingImport : Nat := 0
  /-- Cool-downs that have ended. -/
  purged : Nat := 0
  importSkipped : Option ImportSkip := none
  /-- The batch ended before its last candidate, for a sync request or a stop. -/
  importInterrupted : Bool := false
  stopped : Bool := false
deriving DecidableEq

namespace CycleReport

/-- The cycle changed the queue or the cool-downs. -/
def hasActivity (r : CycleReport) : Bool :=
  decide (0 < r.validated + r.expired + r.rejected + r.imported + r.alreadyKnown + r.purged)

def skipToJson : Option ImportSkip → Json.Value
  | none => .null
  | some .synchronizing => .ofPlain "Synchronizing"
  | some .chainLockBusy => .ofPlain "ChainLockBusy"

def toJson (r : CycleReport) : Json.Value :=
  .ofFields [("validated", .ofNat r.validated), ("expired", .ofNat r.expired),
    ("rejected", .ofNat r.rejected), ("imported", .ofNat r.imported),
    ("already_known", .ofNat r.alreadyKnown), ("pending_import", .ofNat r.pendingImport),
    ("purged", .ofNat r.purged), ("import_skipped", skipToJson r.importSkipped),
    ("import_interrupted", .bool r.importInterrupted), ("stopped", .bool r.stopped)]

def render (r : CycleReport) : String := r.toJson.text

end CycleReport

structure Status where
  pending : Nat
  validated : Nat
  /-- Signatures with a cool-down that is not purged yet. -/
  invalid : Nat
  liteMode : Bool
deriving DecidableEq

end ChainNode.Admission
