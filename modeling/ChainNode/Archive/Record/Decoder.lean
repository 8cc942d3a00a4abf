import ChainNode.Archive.Block
import ChainNode.Archive.Error

/-!
# Reading a record from its front

A decoder takes what it needs from the front of the bytes that are left, or fails.
-/

namespace ChainNode.Archive

abbrev Decoder := StateT Bytes (Except ArchiveError)

namespace Decoder

/-- The next `n` bytes, or `fault` if fewer are left. -/
def take (n : Nat) (fault : ArchiveError) : Decoder (FixedBytes n) := fun bs =>
  if h : n ≤ bs.length then
    .ok (⟨bs.take n, List.length_take_of_le h⟩, bs.drop n)
  else
    .error fault

/-- Succeeds where nothing is left; `fault` is told how many bytes are. -/
def finish (fault : Nat → ArchiveError) : Decoder Unit := fun bs =>
  if bs.isEmpty then .ok ((), bs) else .error (fault bs.length)

/-- `count` items, one after the other. -/
def times {α : Type} (item : Decoder α) : (count : Nat) → Decoder (List α)
  | 0 => return []
  | count + 1 => do
    let x ← item
    return x :: (← times item count)

theorem take_append {n : Nat} (x : FixedBytes n) (rest : Bytes) (fault : ArchiveError) :
    take n fault (x.toBytes ++ rest) = .ok (x, rest) := by
  have h := x.length_toBytes
  unfold take
  rw [dif_pos (by simp [h])]
  congr 2
  · apply FixedBytes.ext
    simp [h]
  · simp [h]

theorem eq_append_of_take {n : Nat} {x : FixedBytes n} {bs rest : Bytes} {fault : ArchiveError}
    (h : take n fault bs = .ok (x, rest)) : bs = x.toBytes ++ rest := by
  unfold take at h
  split at h
  · cases h
    exact (List.take_append_drop n bs).symm
  · cases h

end Decoder
end ChainNode.Archive
