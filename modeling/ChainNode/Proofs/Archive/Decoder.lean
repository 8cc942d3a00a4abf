import ChainNode.Archive.Record.Decoder
import ChainNode.Proofs.Archive.Steps
import Mathlib.Data.List.Basic

/-!
# What a decoder reads

A decoder reads a format if it takes exactly the encodings of the format's values off the front, and
leaves the rest. Reading one after the other, or so many in a row, reads the encodings one after the
other.
-/

namespace ChainNode.Archive.Decoder

variable {α : Type} {item : Decoder α} {encode : α → Bytes} {Valid : α → Prop} {bs rest : Bytes}
  {n count : Nat} {xs : List α} {fault : ArchiveError}

/-- The decoder succeeds exactly where the encoding of a valid value stands in front, whatever
follows. -/
def Reads (d : Decoder α) (encode : α → Bytes) (Valid : α → Prop) : Prop :=
  ∀ x bs rest, d bs = .ok (x, rest) ↔ Valid x ∧ bs = encode x ++ rest

theorem take_eq_ok_iff {x : FixedBytes n} :
    take n fault bs = .ok (x, rest) ↔ bs = x.toBytes ++ rest := by
  constructor
  · exact eq_append_of_take
  · rintro rfl
    exact take_append x rest fault

theorem finish_eq_ok_iff {fault : Nat → ArchiveError} {u : Unit} :
    finish fault bs = .ok (u, rest) ↔ bs = [] ∧ rest = [] := by
  unfold finish
  cases bs with
  | nil => exact ⟨fun h => by cases h; exact ⟨rfl, rfl⟩, fun h => by rw [h.2]; rfl⟩
  | cons b bs => exact ⟨nofun, nofun⟩

theorem get_eq_ok_iff {left : Bytes} :
    (get : Decoder Bytes) bs = .ok (left, rest) ↔ left = bs ∧ rest = bs := by
  show (Except.ok (bs, bs) : Except ArchiveError _) = .ok (left, rest) ↔ _
  rw [Except.ok.injEq, Prod.mk.injEq, eq_comm (a := bs), eq_comm (a := bs)]

theorem Reads.times (h : item.Reads encode Valid) (count : Nat) :
    times item count bs = .ok (xs, rest) ↔
      xs.length = count ∧ (∀ x ∈ xs, Valid x) ∧ bs = xs.flatMap encode ++ rest := by
  -- the bytes and the items stay general: reading the first item changes both
  induction count generalizing bs xs with
  | zero =>
    rw [Decoder.times, pure_eq_ok_iff]
    constructor
    · rintro ⟨rfl, rfl⟩
      exact ⟨rfl, nofun, rfl⟩
    · rintro ⟨hlen, -, rfl⟩
      rw [List.length_eq_zero_iff] at hlen
      rw [hlen]
      exact ⟨rfl, rfl⟩
  | succ count ih =>
    simp only [Decoder.times, bind_eq_ok_iff, pure_eq_ok_iff]
    constructor
    · rintro ⟨x, mid, hx, ys, last, hys, rfl, rfl⟩
      obtain ⟨hvalid, rfl⟩ := (h x bs mid).mp hx
      obtain ⟨hlen, hall, rfl⟩ := ih.mp hys
      refine ⟨by rw [List.length_cons, hlen], List.forall_mem_cons.mpr ⟨hvalid, hall⟩, ?_⟩
      rw [List.flatMap_cons, List.append_assoc]
    · rintro ⟨hlen, hall, rfl⟩
      cases xs with
      | nil => cases hlen
      | cons x ys =>
        obtain ⟨hvalid, hrest⟩ := List.forall_mem_cons.mp hall
        refine ⟨x, ys.flatMap encode ++ rest, ?_, ys, rest, ?_, rfl, rfl⟩
        · rw [List.flatMap_cons, List.append_assoc]
          exact (h x _ _).mpr ⟨hvalid, rfl⟩
        · exact ih.mpr ⟨Nat.succ.inj hlen, hrest, rfl⟩

end ChainNode.Archive.Decoder
