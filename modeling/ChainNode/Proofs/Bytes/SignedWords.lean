import ChainNode.Bytes.BigEndian
import Mathlib.Algebra.Group.Int.Defs
import Mathlib.Algebra.Group.Nat.Defs

/-!
# Signed words that are not negative

The numbers of the archive are signed words of which only the lower half is used. There a word, its
unsigned twin and the number they stand for are the same.
-/

namespace ChainNode

variable {n : Nat}

theorem toInt_int32 (v : Int32) :
    v.toInt = if v.toUInt32.toNat < 2 ^ 31 then (v.toUInt32.toNat : Int)
      else v.toUInt32.toNat - 2 ^ 32 := by
  show v.toBitVec.toInt = _
  rw [BitVec.toInt_eq_toNat_cond]
  show (if 2 * v.toUInt32.toNat < 2 ^ 32 then (v.toUInt32.toNat : Int)
    else v.toUInt32.toNat - (2 ^ 32 : Nat)) = _
  split <;> split <;> omega

theorem toInt_int64 (v : Int64) :
    v.toInt = if v.toUInt64.toNat < 2 ^ 63 then (v.toUInt64.toNat : Int)
      else v.toUInt64.toNat - 2 ^ 64 := by
  show v.toBitVec.toInt = _
  rw [BitVec.toInt_eq_toNat_cond]
  show (if 2 * v.toUInt64.toNat < 2 ^ 64 then (v.toUInt64.toNat : Int)
    else v.toUInt64.toNat - (2 ^ 64 : Nat)) = _
  split <;> split <;> omega

theorem int32_neg_iff (v : Int32) : v < 0 ↔ 2 ^ 31 ≤ v.toUInt32.toNat := by
  have hv := toInt_int32 v
  have hlt := v.toUInt32.toNat_lt
  rw [Int32.lt_iff_toInt_lt, Int32.toInt_zero]
  split at hv <;> omega

theorem int64_neg_iff (v : Int64) : v < 0 ↔ 2 ^ 63 ≤ v.toUInt64.toNat := by
  have hv := toInt_int64 v
  have hlt := v.toUInt64.toNat_lt
  rw [Int64.lt_iff_toInt_lt, Int64.toInt_zero]
  split at hv <;> omega

theorem toInt_int32_of_nonneg {v : Int32} (h : ¬ v < 0) : v.toInt = v.toUInt32.toNat := by
  rw [int32_neg_iff] at h
  rw [toInt_int32, if_pos (by omega)]

theorem toNatClampNeg_of_nonneg {v : Int32} (h : ¬ v < 0) : v.toNatClampNeg = v.toUInt32.toNat := by
  show v.toInt.toNat = _
  rw [toInt_int32_of_nonneg h]
  rfl

theorem toInt_eq_toNat_iff {v : Int32} {n : UInt32} :
    v.toInt = n.toNat ↔ v.toUInt32 = n ∧ n.toNat < 2 ^ 31 := by
  rw [toInt_int32, ← UInt32.toNat_inj]
  have hlt := v.toUInt32.toNat_lt
  split <;> omega

/-! Widened to 64 bits, a 32-bit word keeps its number, and sums of a few of them do not wrap. -/

theorem toNat_add_of_lt {a b : UInt64} (h : a.toNat + b.toNat < 2 ^ 64) :
    (a + b).toNat = a.toNat + b.toNat := by
  rw [UInt64.toNat_add, Nat.mod_eq_of_lt h]

theorem toInt_widened (n : UInt32) : n.toUInt64.toInt64.toInt = n.toNat := by
  have hn := toInt_int64 n.toUInt64.toInt64
  have hlt := n.toNat_lt
  have hword : n.toUInt64.toInt64.toUInt64.toNat = n.toNat := UInt32.toNat_toUInt64 n
  rw [hword, if_pos (by omega)] at hn
  exact hn

theorem toNat_int64_of_nonneg {v : Int64} (h : 0 ≤ v.toInt) : v.toUInt64.toNat = v.toInt.toNat := by
  have hv := toInt_int64 v
  have hlt := v.toUInt64.toNat_lt
  split at hv <;> omega

theorem toInt_max_zero (v : Int64) : (max v 0).toInt = max v.toInt 0 := by
  show (if v ≤ 0 then 0 else v).toInt = _
  split <;> rename_i hle <;> rw [Int64.le_iff_toInt_le, Int64.toInt_zero] at hle
  · rw [Int64.toInt_zero]
    omega
  · omega

theorem toNat_widened_of_nonneg {v : Int32} (h : ¬ v < 0) :
    v.toInt64.toUInt64.toNat = v.toUInt32.toNat := by
  have hv : v.toInt64.toInt = v.toUInt32.toNat := by
    rw [Int32.toInt_toInt64, toInt_int32_of_nonneg h]
  rw [toNat_int64_of_nonneg (by omega), hv]
  rfl

theorem ofNat_widened_of_nonneg {v : Int32} (h : ¬ v < 0) :
    UInt64.ofNat v.toUInt32.toNat = v.toInt64.toUInt64 := by
  rw [← toNat_widened_of_nonneg h, UInt64.ofNat_toNat]

/-- Every number that fits is the number of a word that is not negative. -/
theorem exists_int32_of_lt (h : n < 2 ^ 31) :
    ∃ v : Int32, ¬ v < 0 ∧ v.toUInt32.toNat = n ∧ BigEndian.ofInt32 v = BigEndian.encode 4 n := by
  have hn : (UInt32.ofNat n).toNat = n := by
    rw [UInt32.toNat_ofNat']
    omega
  refine ⟨(UInt32.ofNat n).toInt32, ?_, hn, ?_⟩
  · rw [int32_neg_iff]
    show ¬ 2 ^ 31 ≤ (UInt32.ofNat n).toNat
    omega
  · show BigEndian.encode 4 (UInt32.ofNat n).toNat = _
    rw [hn]

end ChainNode
