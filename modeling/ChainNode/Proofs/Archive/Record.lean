import ChainNode.Archive.Record
import ChainNode.Proofs.Archive.Record.V1
import ChainNode.Proofs.Archive.Record.V2

/-!
# Records of either version

The blocks that a version can represent correspond one to one to the records that it decodes.
-/

namespace ChainNode.Archive.RecordVersion

variable {b : Block} {bs : Bytes} {v : RecordVersion}

def Representable : RecordVersion → Block → Prop
  | .v1 => RecordV1.Representable
  | .v2 => RecordV2.Representable

theorem decode_eq_ok_iff : v.decode bs = .ok b ↔ v.Representable b ∧ v.encode b = bs := by
  cases v with
  | v1 => exact RecordV1.decode_eq_ok_iff
  | v2 => exact RecordV2.decode_eq_ok_iff

end ChainNode.Archive.RecordVersion
