import ChainNode.Archive.Block
import ChainNode.Archive.Error
import ChainNode.Bytes.BigEndian

/-!
# Segments

A segment holds the records of a range of heights. All its numbers are signed, highest byte first.

```text
[0:4)          format version (1 or 2)
[4:8)          first height
[8:12)         last height
[12:16)        block count (unused)
[16:20)        length V of the variable header
[20:20+V)      variable header (opaque)
[20+V:24+V)    reserved
index          one offset per height, relative to the data region
data region    per record: height | length | payload
```
-/

namespace ChainNode.Archive

/-- An open segment: its bytes, and where the next read starts. -/
structure Cursor where
  bytes : Bytes
  position : UInt64 := 0
deriving DecidableEq

/-- Reading moves the cursor; a read that would go past the end fails. -/
abbrev Reading := StateT Cursor (Except ArchiveError)

namespace Reading

def seek (position : UInt64) : Reading Unit := modify fun c => { c with position }

def skip (count : UInt64) : Reading Unit := modify fun c => { c with position := c.position + count }

/-- The next `count` bytes. -/
def bytes (count : UInt64) (field : Field) : Reading Bytes := fun c =>
  let bs := (c.bytes.drop c.position.toNat).take count.toNat
  if bs.length = count.toNat then
    .ok (bs, { c with position := c.position + count })
  else
    .error (.truncated field)

def int32 (field : Field) : Reading Int32 := BigEndian.toInt32 <$> bytes 4 field

def nonNegative (value : Int32) (quantity : Quantity) : Reading UInt64 :=
  if value < 0 then throw (.decode (.negativeQuantity quantity value))
  else return value.toInt64.toUInt64

end Reading

structure SegmentHeader where
  version : Int32
  first : Int32
  last : Int32
  blockCount : Int32
  /-- Where the index starts. -/
  indexStart : UInt64
deriving DecidableEq

namespace SegmentHeader

-- Heights are compared with 64 bits: one may lie above every signed number of 32.
def covers (s : SegmentHeader) (height : UInt32) : Bool :=
  decide (s.first.toInt64 ≤ height.toUInt64.toInt64) &&
    decide (height.toUInt64.toInt64 ≤ s.last.toInt64)

/-- Where the index entry of a covered height stands. -/
def indexPosition (s : SegmentHeader) (height : UInt32) : UInt64 :=
  s.indexStart + (height.toUInt64.toInt64 - s.first.toInt64).toUInt64 * 4

/-- Where the data region starts. A range whose last height lies below the first has no index. -/
def dataStart (s : SegmentHeader) : UInt64 :=
  s.indexStart + (max (s.last.toInt64 - s.first.toInt64 + 1) 0).toUInt64 * 4

end SegmentHeader

namespace Segment

open Reading

def readHeader : Reading SegmentHeader := do
  seek 0
  let version ← int32 .formatVersion
  let first ← int32 .startHeight
  let last ← int32 .endHeight
  let blockCount ← int32 .blockCount
  let variableLength ← nonNegative (← int32 .variableHeaderLength) .variableHeaderLength
  skip variableLength
  -- the reserved bytes are read only for the sake of their being there
  let _ ← int32 .reservedLength
  return { version, first, last, blockCount, indexStart := 20 + variableLength + 4 }

/-- Finds the record of `height` through the index and reads it as it is stored. -/
def readRecord (height : UInt32) : Reading SerializedBlock := do
  let header ← readHeader
  let some version := RecordVersion.ofFormat? header.version
    | throw (.unsupportedVersion header.version)
  if !header.covers height then throw (.heightOutOfRange height header.first header.last)
  seek (header.indexPosition height)
  let offset ← nonNegative (← int32 .indexEntry) .recordOffset
  -- offsets count from the start of the data region
  seek (header.dataStart + offset)
  let recordHeight ← int32 .recordHeight
  if recordHeight.toInt ≠ height.toNat then throw (.heightMismatch height recordHeight.toInt)
  let length ← nonNegative (← int32 .recordLength) .recordLength
  return { height, version, bytes := ← bytes length .recordPayload }

/-- The record of `height` in a segment just opened. -/
def record (segment : Bytes) (height : UInt32) : Except ArchiveError SerializedBlock :=
  (readRecord height).run' { bytes := segment }

/-- One record after the other from an open segment. A failed read leaves the cursor where it was. -/
def recordsInTurn : List UInt32 → Cursor → List (Except ArchiveError SerializedBlock)
  | [], _ => []
  | height :: heights, c =>
    match readRecord height c with
    | .ok (r, c) => .ok r :: recordsInTurn heights c
    | .error e => .error e :: recordsInTurn heights c

end Segment
end ChainNode.Archive
