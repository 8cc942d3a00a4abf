import ChainNode.Archive.Record.Decoder
import ChainNode.Bytes.LittleEndian

/-!
# Version 2 records

```text
height u32 | timestamp u64 | length u64, reference [64] | minter [32] | length u64, signature [64]
transaction count u64 | (length u64, bytes) * count
AT states hash [32]
```

All numbers are unsigned and lowest byte first. Reference and signature state their length although it
can only be 64, the minter and the hash do not.
-/

namespace ChainNode.Archive.RecordV2

open Decoder

/-- What a version 2 record holds. -/
structure Body where
  header : BlockHeader
  transactions : List Bytes
  atStatesHash : Hash
deriving DecidableEq

def encodeBytes (bs : Bytes) : Bytes := LittleEndian.encode 8 bs.length ++ bs

def Body.encode (r : Body) : Bytes :=
  LittleEndian.encode 4 r.header.height.toNat ++ LittleEndian.encode 8 r.header.timestamp.toNat ++
    encodeBytes r.header.reference.toBytes ++ r.header.minter.toBytes ++
    encodeBytes r.header.signature.toBytes ++ LittleEndian.encode 8 r.transactions.length ++
    r.transactions.flatMap encodeBytes ++ r.atStatesHash.toBytes

def readNat (width : Nat) : Decoder Nat := do
  return LittleEndian.decode (← take width (.decode .endOfRecord)).toBytes

def readSignature : Decoder Signature := do
  let length ← readNat 8
  -- a wrong length is noticed only once its bytes are there
  let bs ← take length (.decode .bytesCutOff)
  match FixedBytes.ofBytes? 64 bs.toBytes with
  | some signature => return signature
  | none => throw (.decode (.signatureLength length))

def readTransaction : Decoder Bytes := do
  let length ← readNat 8
  return (← take length (.decode .endOfRecord)).toBytes

def readBody : Decoder Body := do
  let height ← readNat 4
  let timestamp ← readNat 8
  let reference ← readSignature
  let minter ← take 32 (.decode .endOfRecord)
  let signature ← readSignature
  let count ← readNat 8
  let transactions ← times readTransaction count
  let atStatesHash ← take 32 (.decode .endOfRecord)
  finish fun _ => .decode .bytesRemaining
  return {
    header := ⟨UInt32.ofNat height, UInt64.ofNat timestamp, reference, minter, signature⟩
    transactions
    atStatesHash }

def Body.decode (bs : Bytes) : Except ArchiveError Body := readBody.run' bs

def Body.toBlock (r : Body) : Block := ⟨r.header, r.transactions, .hash r.atStatesHash⟩

/-- What a version 2 record keeps of a block: in place of AT states in full, a hash of zeros. -/
def Body.ofBlock (b : Block) : Body where
  header := b.header
  transactions := b.transactions
  atStatesHash := match b.atStates with
    | .full _ => .replicate 32 0
    | .hash digest => digest

def encode (b : Block) : Bytes := (Body.ofBlock b).encode

def decode (bs : Bytes) : Except ArchiveError Block := Body.toBlock <$> Body.decode bs

end ChainNode.Archive.RecordV2
