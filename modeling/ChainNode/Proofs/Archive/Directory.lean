import ChainNode.Archive.Directory
import ChainNode.Proofs.Archive.Naming
import Mathlib.Data.List.Pairwise
import Mathlib.Data.List.Perm.Basic
import Mathlib.Order.Basic

/-!
# Finding a segment by height

Of segments whose ranges have no height in common, the one that covers a height is found, whatever the
order in which they were listed.
-/

namespace ChainNode.Archive

variable {e a b : SegmentEntry} {es fs : List SegmentEntry} {height : UInt32} {d : Directory}

namespace SegmentEntry

/-! ## Ranges -/

/-- The two ranges have no height in common. -/
def Apart (a b : SegmentEntry) : Prop := a.last < b.first ∨ b.last < a.first

instance : DecidableRel Apart := fun a b =>
  inferInstanceAs (Decidable (a.last < b.first ∨ b.last < a.first))

instance : Std.Symm Apart := ⟨fun _ _ h => Or.symm h⟩

theorem covers_iff : e.covers height = true ↔ e.first ≤ height ∧ height ≤ e.last := by
  simp only [covers, Bool.and_eq_true, decide_eq_true_eq]

theorem Apart.not_covers (h : a.Apart b) (ha : a.covers height = true) : b.covers height = false := by
  rw [covers_iff] at ha
  rw [Bool.eq_false_iff, ne_eq, covers_iff]
  unfold Apart at h
  simp only [UInt32.lt_iff_toNat_lt, UInt32.le_iff_toNat_le] at *
  omega

theorem eq_of_covers (hes : es.Pairwise Apart) (ha : a ∈ es) (hb : b ∈ es)
    (hca : a.covers height = true) (hcb : b.covers height = true) : a = b := by
  by_contra hne
  have hapart : a.Apart b := hes.forall ha hb hne
  rw [hapart.not_covers hca] at hcb
  cases hcb

end SegmentEntry

/-! ## Directories -/

namespace Directory

open SegmentEntry

theorem mem_of_find? (h : d.find? height = some e) : e ∈ d.entries ∧ e.covers height = true := by
  have hcovers := List.find?_some h
  exact ⟨List.mem_of_find?_eq_some h, hcovers⟩

theorem find?_eq_none_iff : d.find? height = none ↔ ∀ e ∈ d.entries, e.covers height = false := by
  rw [find?, List.find?_eq_none]
  simp only [Bool.not_eq_true]

theorem mem_ofEntries : e ∈ (ofEntries es).entries ↔ e ∈ es :=
  (perm_stableSort rangeLE es).mem_iff

theorem size_ofEntries (es : List SegmentEntry) : (ofEntries es).size = es.length :=
  (perm_stableSort rangeLE es).length_eq

/-- What is found does not depend on the order of the entries, if their ranges are apart. -/
theorem find?_ofEntries (hes : es.Pairwise Apart) (he : e ∈ es) (hcovers : e.covers height = true) :
    (ofEntries es).find? height = some e := by
  cases hfind : (ofEntries es).find? height with
  | none =>
    rw [find?_eq_none_iff.mp hfind e (mem_ofEntries.mpr he)] at hcovers
    cases hcovers
  | some f =>
    -- whichever entry comes first after sorting, only one covers the height
    obtain ⟨hf, hfc⟩ := mem_of_find? hfind
    rw [eq_of_covers hes (mem_ofEntries.mp hf) he hfc hcovers]

theorem toNat_max (a b : UInt32) : (max a b).toNat = max a.toNat b.toNat := by
  show (if a ≤ b then b else a).toNat = _
  split <;> rename_i hle <;> rw [UInt32.le_iff_toNat_le] at hle <;> omega

instance : Std.LawfulOrderMax UInt32 where
  max_le_iff a b c := by
    rw [UInt32.le_iff_toNat_le, UInt32.le_iff_toNat_le, UInt32.le_iff_toNat_le, toNat_max,
      Nat.max_le]
  max_eq_or a b := by
    rw [← UInt32.toNat_inj, ← UInt32.toNat_inj, toNat_max]
    omega

theorem lastHeight_ofEntries (hes : es.Perm fs) :
    (ofEntries es).lastHeight = (fs.map (·.last)).max?.getD 0 := by
  -- a maximum can be taken in any order, so the sort and the order of listing drop out
  have hcomm : RightCommutative fun (h : UInt32) (e : SegmentEntry) => max h e.last := ⟨by
    intro h a b
    apply UInt32.toNat_inj.mp
    simp only [toNat_max]
    omega⟩
  have hsorted : (ofEntries es).lastHeight = fs.foldl (fun h e => max h e.last) 0 :=
    ((perm_stableSort rangeLE es).trans hes).foldl_eq 0
  rw [hsorted]
  cases fs with
  | nil => rfl
  | cons e fs =>
    have hzero : max 0 e.last = e.last := by
      apply UInt32.toNat_inj.mp
      rw [toNat_max, UInt32.toNat_zero, Nat.zero_max]
    rw [List.map_cons, List.max?_cons', List.foldl_cons, List.foldl_map, hzero]
    rfl

end Directory
end ChainNode.Archive
