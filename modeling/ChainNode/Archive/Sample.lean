import ChainNode.Archive.Block
import ChainNode.Bytes.BigEndian
import ChainNode.Numeral

/-!
# Sample blocks

One block for every height, all of whose fields follow from the height. Each refers to the one below
it, and a minute lies between them.
-/

namespace ChainNode.Archive.Sample

def genesisTimestamp : UInt64 := 1600000000000

def blockInterval : UInt64 := 60000

/-- The height in four bytes, then filler. -/
def signature (height : UInt32) : Signature :=
  ⟨BigEndian.ofUInt32 height ++ List.replicate 60 0xb0, by simp⟩

def header (height : UInt32) : BlockHeader where
  height := height
  timestamp := genesisTimestamp + height.toUInt64 * blockInterval
  reference := signature (if height = 0 then 0 else height - 1)
  minter := .replicate 32 height.toUInt8
  signature := signature height

def asciiBytes (cs : List Char) : Bytes := cs.map fun c => UInt8.ofNat c.toNat

/-- One to three transactions. -/
def transactions (height : UInt32) : List Bytes :=
  (List.range (height.toNat % 3 + 1)).map fun i =>
    asciiBytes ("tx-".toList ++ Numeral.toChars height.toNat ++ '-' :: Numeral.toChars i)

def blockV1 (height : UInt32) : Block where
  header := header height
  transactions := transactions height
  atStates := .full [asciiBytes ("at-".toList ++ Numeral.toChars height.toNat)]

def blockV2 (height : UInt32) : Block where
  header := header height
  transactions := transactions height
  atStates := .hash (.replicate 32 height.toUInt8)

end ChainNode.Archive.Sample
