/-!
# Byte strings

A byte string is a list of bytes. `FixedBytes n` is a byte string of exactly `n` bytes, the shape of
a signature, a public key or a hash.
-/

namespace ChainNode

abbrev Bytes := List UInt8

structure FixedBytes (n : Nat) where
  toBytes : Bytes
  length_toBytes : toBytes.length = n
deriving DecidableEq

namespace FixedBytes

@[ext] theorem ext {n : Nat} {x y : FixedBytes n} (h : x.toBytes = y.toBytes) : x = y := by
  cases x; cases y; cases h; rfl

def ofBytes? (n : Nat) (bs : Bytes) : Option (FixedBytes n) :=
  if h : bs.length = n then some ⟨bs, h⟩ else none

theorem ofBytes?_eq_some_iff {n : Nat} {bs : Bytes} {x : FixedBytes n} :
    ofBytes? n bs = some x ↔ bs = x.toBytes := by
  unfold ofBytes?
  split
  · simp [FixedBytes.ext_iff]
  · rename_i h
    simp only [reduceCtorEq, false_iff]
    rintro rfl
    exact h x.length_toBytes

theorem ofBytes?_toBytes {n : Nat} (x : FixedBytes n) : ofBytes? n x.toBytes = some x :=
  ofBytes?_eq_some_iff.2 rfl

/-- The byte `b`, `n` times. -/
def replicate (n : Nat) (b : UInt8) : FixedBytes n :=
  ⟨List.replicate n b, List.length_replicate⟩

end FixedBytes

/-- The signature of a transaction or of a block; each is known by it. -/
abbrev Signature := FixedBytes 64

abbrev PublicKey := FixedBytes 32

abbrev Hash := FixedBytes 32

end ChainNode
