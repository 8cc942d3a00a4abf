import ChainNode.Bytes

/-!
# Archived blocks

A finalized block as it is kept in the archive. The states of its automated transactions are kept in
full by version 1 records, and as one hash by version 2 records.
-/

namespace ChainNode.Archive

structure BlockHeader where
  height : UInt32
  /-- Milliseconds since the epoch. -/
  timestamp : UInt64
  /-- The parent's signature. -/
  reference : Signature
  minter : PublicKey
  signature : Signature
deriving DecidableEq

inductive AtStates
  | full (states : List Bytes)
  | hash (digest : Hash)
deriving DecidableEq

structure Block where
  header : BlockHeader
  transactions : List Bytes
  atStates : AtStates
deriving DecidableEq

namespace Block

def height (b : Block) : UInt32 := b.header.height

def signature (b : Block) : Signature := b.header.signature

end Block

inductive RecordVersion
  | v1
  | v2
deriving DecidableEq

namespace RecordVersion

/-- The version that a segment's format number stands for. -/
def ofFormat? (format : Int32) : Option RecordVersion :=
  if format = 1 then some .v1 else if format = 2 then some .v2 else none

def format : RecordVersion → Int32
  | .v1 => 1
  | .v2 => 2

theorem ofFormat?_eq_some_iff {n : Int32} {v : RecordVersion} :
    ofFormat? n = some v ↔ n = v.format := by
  unfold ofFormat?
  cases v <;> simp only [format] <;> grind

end RecordVersion

/-- A record as it is stored, for handing on undecoded. -/
structure SerializedBlock where
  height : UInt32
  version : RecordVersion
  bytes : Bytes
deriving DecidableEq

end ChainNode.Archive
