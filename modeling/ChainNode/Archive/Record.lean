import ChainNode.Archive.Record.V1
import ChainNode.Archive.Record.V2

/-!
# Block records

A segment's format version says in which of two layouts its records are written.
-/

namespace ChainNode.Archive.RecordVersion

def encode : RecordVersion → Block → Bytes
  | .v1 => RecordV1.encode
  | .v2 => RecordV2.encode

def decode : RecordVersion → Bytes → Except ArchiveError Block
  | .v1 => RecordV1.decode
  | .v2 => RecordV2.decode

end ChainNode.Archive.RecordVersion
