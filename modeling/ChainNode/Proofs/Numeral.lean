import ChainNode.Numeral
import Mathlib.Data.List.Induction

/-!
# What numerals denote

Digit by digit: each one behind a numeral multiplies its value by ten and adds its own. What is read is
exactly what the text denotes.
-/

namespace ChainNode.Numeral

/-- One or more digits, and the number that they stand for. -/
inductive Denotes : List Char → Nat → Prop
  | digit {d : Nat} (small : d < 10) : Denotes [d.digitChar] d
  | concat {cs : List Char} {n d : Nat} (before : Denotes cs n) (small : d < 10) :
      Denotes (cs ++ [d.digitChar]) (10 * n + d)

/-- A numeral with or without a plus sign before it. -/
def Reads (cs : List Char) (n : Nat) : Prop :=
  Denotes cs n ∨ ∃ digits, cs = '+' :: digits ∧ Denotes digits n

variable {cs : List Char} {c : Char} {n d : Nat}

/-! ## Digits -/

theorem exists_digitChar (h : c.isDigit = true) : ∃ d < 10, c = d.digitChar := by
  obtain ⟨hlow, hhigh⟩ := Char.isDigit_iff_toNat.mp h
  change 48 ≤ c.toNat at hlow
  change c.toNat ≤ 57 at hhigh
  refine ⟨c.toNat - 48, by omega, Char.toNat_inj.mp ?_⟩
  rw [Nat.toNat_digitChar_of_lt_ten (by omega)]
  omega

theorem ofDigitChars_singleton (hd : d < 10) : Nat.ofDigitChars 10 [d.digitChar] 0 = d := by
  rw [Nat.ofDigitChars_cons_digitChar_of_lt_ten hd, Nat.ofDigitChars_nil, Nat.mul_zero, Nat.zero_add]

theorem ofDigitChars_concat (cs : List Char) (hd : d < 10) :
    Nat.ofDigitChars 10 (cs ++ [d.digitChar]) 0 = 10 * Nat.ofDigitChars 10 cs 0 + d := by
  rw [Nat.ofDigitChars_append, Nat.ofDigitChars_cons_digitChar_of_lt_ten hd, Nat.ofDigitChars_nil]

theorem Denotes.isDigit (h : Denotes cs n) (hc : c ∈ cs) : c.isDigit = true := by
  have hsmall {d : Nat} (hd : d < 10) : d.digitChar.isDigit = true := by
    rw [Nat.isDigit_digitChar, decide_eq_true hd]
  induction h with
  | digit small =>
    rw [List.mem_singleton.mp hc]
    exact hsmall small
  | concat before small ih =>
    rcases List.mem_append.mp hc with hmem | hlast
    · exact ih hmem
    · rw [List.mem_singleton.mp hlast]
      exact hsmall small

theorem Denotes.eq_ofDigitChars (h : Denotes cs n) : n = Nat.ofDigitChars 10 cs 0 := by
  induction h with
  | digit small => exact (ofDigitChars_singleton small).symm
  | concat before small ih => rw [ofDigitChars_concat _ small, ← ih]

theorem Denotes.ne_nil (h : Denotes cs n) : cs ≠ [] := by
  cases h with
  | digit small => exact List.cons_ne_nil _ _
  | concat before small => exact List.append_ne_nil_of_right_ne_nil _ (List.cons_ne_nil _ _)

/-- By induction on the digits, last one first. -/
theorem denotes_ofDigitChars (hne : cs ≠ []) (hdigits : ∀ c ∈ cs, c.isDigit = true) :
    Denotes cs (Nat.ofDigitChars 10 cs 0) := by
  induction cs using List.reverseRecOn with
  | nil => exact absurd rfl hne
  | append_singleton cs c ih =>
    obtain ⟨d, hd, rfl⟩ := exists_digitChar (hdigits c (List.mem_append_right _ List.mem_cons_self))
    by_cases hcs : cs = []
    · rw [hcs, List.nil_append, ofDigitChars_singleton hd]
      exact .digit hd
    · rw [ofDigitChars_concat cs hd]
      exact .concat (ih hcs fun c hc => hdigits c (List.mem_append_left _ hc)) hd

theorem ofChars?_eq_some_iff : ofChars? cs = some n ↔ Denotes cs n := by
  unfold ofChars?
  constructor
  · intro h
    split at h
    · rename_i hcs
      rw [← Option.some.inj h]
      exact denotes_ofDigitChars hcs.1 (List.all_eq_true.mp hcs.2)
    · cases h
  · intro h
    rw [if_pos ⟨h.ne_nil, List.all_eq_true.mpr fun c hc => h.isDigit hc⟩, ← h.eq_ofDigitChars]

theorem denotes_toChars (n : Nat) : Denotes (toChars n) n :=
  ofChars?_eq_some_iff.mp (ofChars?_toChars n)

/-! ## Numbers that fit -/

theorem ofChars?_withoutPlus_iff : ofChars? (withoutPlus cs) = some n ↔ Reads cs n := by
  rw [ofChars?_eq_some_iff]
  unfold withoutPlus Reads
  split
  · rename_i digits
    constructor
    · exact fun h => Or.inr ⟨digits, rfl, h⟩
    · rintro (h | ⟨digits', heq, h⟩)
      · -- a plus sign is no digit
        cases h.isDigit List.mem_cons_self
      · rw [(List.cons.inj heq).2]
        exact h
  · rename_i hplus
    exact ⟨Or.inl, fun h => h.resolve_right fun ⟨digits, heq, _⟩ => hplus digits heq⟩

theorem toUInt32?_eq_some_iff {n : UInt32} : toUInt32? cs = some n ↔ Reads cs n.toNat := by
  rw [← ofChars?_withoutPlus_iff]
  unfold toUInt32?
  split
  · rename_i m hm
    rw [hm, Option.some.injEq]
    split
    · rename_i hfits
      rw [Option.some.injEq, ← UInt32.toNat_inj, UInt32.toNat_ofNat_of_lt' hfits]
    · rename_i hlarge
      exact ⟨nofun, fun h => absurd (h ▸ n.toNat_lt) hlarge⟩
  · rename_i hnone
    rw [hnone]
    exact ⟨nofun, nofun⟩

theorem Reads.unique {m : Nat} (hm : Reads cs m) (hn : Reads cs n) : m = n := by
  have hsame := (ofChars?_withoutPlus_iff.mpr hm).symm.trans (ofChars?_withoutPlus_iff.mpr hn)
  exact Option.some.inj hsame

theorem Reads.notMem (h : Reads cs n) (hdigit : c.isDigit = false) (hplus : c ≠ '+') : c ∉ cs := by
  have hfree {digits : List Char} (hdigits : Denotes digits n) : c ∉ digits := by
    intro hmem
    rw [hdigits.isDigit hmem] at hdigit
    cases hdigit
  rcases h with h | ⟨digits, rfl, h⟩
  · exact hfree h
  · rw [List.mem_cons, not_or]
    exact ⟨hplus, hfree h⟩

end ChainNode.Numeral
