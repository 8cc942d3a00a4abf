import ChainNode.Archive.Record.Decoder
import ChainNode.Bytes.BigEndian

/-!
# Version 1 records

```text
height i32 | timestamp i64 | reference [64] | minter [32] | signature [64]
transaction count i32 | (length i32, bytes) * count
AT state count i32    | (length i32, bytes) * count
```

All numbers are signed and highest byte first, and none may be negative. A record ends where its last
AT state ends.
-/

namespace ChainNode.Archive.RecordV1

open Decoder

def encodeItem (item : Bytes) : Bytes := BigEndian.encode 4 item.length ++ item

def encodeList (items : List Bytes) : Bytes :=
  BigEndian.encode 4 items.length ++ items.flatMap encodeItem

/-- The record of a block. A block that has only a hash of its AT states gets none. -/
def encode (b : Block) : Bytes :=
  BigEndian.ofUInt32 b.header.height ++ BigEndian.ofUInt64 b.header.timestamp ++
    b.header.reference.toBytes ++ b.header.minter.toBytes ++ b.header.signature.toBytes ++
    encodeList b.transactions ++
    encodeList (match b.atStates with
      | .full states => states
      | .hash _ => [])

def readInt32 (field : Field) : Decoder Int32 := do
  return BigEndian.toInt32 (← take 4 (.truncated field)).toBytes

def readLength (field : Field) : Decoder Nat := do
  let n ← readInt32 field
  if n < 0 then throw (.decode (.negativeLength n field))
  return n.toNatClampNeg

def readItem (field : Field) : Decoder Bytes := do
  let length ← readLength field
  return (← take length (.truncated field)).toBytes

/-- Every item takes at least the four bytes of its length, so a count that the bytes left cannot
hold is refused before the first item is read. -/
def readList (field : Field) : Decoder (List Bytes) := do
  let count ← readLength field
  if (← get).length / 4 < count then throw (.truncated field)
  times (readItem field) count

def readBlock : Decoder Block := do
  let height ← readInt32 .blockHeight
  let timestamp := BigEndian.toInt64 (← take 8 (.truncated .blockTimestamp)).toBytes
  -- a record that ends within the timestamp is cut short, whatever its height
  if height < 0 then throw (.decode (.negativeHeight height))
  if timestamp < 0 then throw (.decode (.negativeTimestamp timestamp))
  let reference ← take 64 (.truncated .blockReference)
  let minter ← take 32 (.truncated .minterPublicKey)
  let signature ← take 64 (.truncated .blockSignature)
  let transactions ← readList .transactions
  let states ← readList .atStates
  finish fun left => .decode (.trailingBytes left)
  return {
    header := ⟨height.toUInt32, timestamp.toUInt64, reference, minter, signature⟩
    transactions
    atStates := .full states }

def decode (bs : Bytes) : Except ArchiveError Block := readBlock.run' bs

end ChainNode.Archive.RecordV1
