import ChainNode.StableSort
import Mathlib.Data.List.Basic

/-!
# What comes first in a sorted list

Sorting brings that element to the front which no other comes before, and of several such elements the one
that stood first. Elements that the order does not tell apart stay in their order.
-/

namespace ChainNode

variable {α : Type}

/-! ## The first of a list -/

section
variable {r : α → α → Prop} {a b c : α} {as : List α}

/-- No element comes before `a`, and those that might change places with it stand behind it. -/
def IsFirst (r : α → α → Prop) (as : List α) (a : α) : Prop :=
  ∃ before behind, as = before ++ a :: behind ∧ (∀ b ∈ before, ¬ r b a) ∧ ∀ b ∈ behind, r a b

theorem IsFirst.mem (h : IsFirst r as a) : a ∈ as := by
  obtain ⟨before, behind, rfl, -, -⟩ := h
  exact List.mem_append_right before List.mem_cons_self

theorem IsFirst.leads (h : IsFirst r as a) (total : ∀ a b, r a b ∨ r b a) (hb : b ∈ as) : r a b := by
  obtain ⟨before, behind, rfl, hbefore, hbehind⟩ := h
  rcases List.mem_append.mp hb with hmem | hmem
  · exact (total a b).resolve_right (hbefore b hmem)
  · rcases List.mem_cons.mp hmem with rfl | hmem
    · exact (total b b).elim id id
    · exact hbehind b hmem

theorem not_isFirst_nil (r : α → α → Prop) (a : α) : ¬ IsFirst r [] a :=
  fun h => List.not_mem_nil h.mem

/-- Either the head comes first, or it comes behind what is first in the rest. -/
theorem isFirst_cons_iff :
    IsFirst r (a :: as) c ↔ (c = a ∧ ∀ b ∈ as, r a b) ∨ (¬ r a c ∧ IsFirst r as c) := by
  constructor
  · rintro ⟨before, behind, heq, hbefore, hbehind⟩
    cases before with
    | nil =>
      obtain ⟨rfl, rfl⟩ := List.cons.inj heq
      exact Or.inl ⟨rfl, hbehind⟩
    | cons x before =>
      obtain ⟨rfl, rfl⟩ := List.cons.inj heq
      obtain ⟨hx, hrest⟩ := List.forall_mem_cons.mp hbefore
      exact Or.inr ⟨hx, before, behind, rfl, hrest, hbehind⟩
  · rintro (⟨rfl, hall⟩ | ⟨hc, before, behind, rfl, hbefore, hbehind⟩)
    · exact ⟨[], as, rfl, nofun, hall⟩
    · exact ⟨a :: before, behind, rfl, List.forall_mem_cons.mpr ⟨hc, hbefore⟩, hbehind⟩

end

/-! ## The first of a sorted list -/

section
variable {le : α → α → Bool} {c : α} {as : List α}

theorem head?_insertSorted (le : α → α → Bool) (a : α) (bs : List α) :
    (insertSorted le a bs).head? =
      some (bs.head?.elim a fun b => if le a b then a else b) := by
  cases bs with
  | nil => rfl
  | cons b bs =>
    rw [insertSorted, List.head?_cons, Option.elim_some]
    split <;> rfl

theorem head?_stableSort_eq_some_iff (trans : ∀ a b c, le a b → le b c → le a c)
    (total : ∀ a b, le a b ∨ le b a) :
    (stableSort le as).head? = some c ↔ IsFirst (le · ·) as c := by
  induction as generalizing c with
  | nil =>
    constructor
    · intro h
      cases h
    · exact fun h => absurd h (not_isFirst_nil _ c)
  | cons a as ih =>
    rw [stableSort, head?_insertSorted, isFirst_cons_iff, Option.some.injEq]
    cases hhead : (stableSort le as).head? with
    | none =>
      have hnil : as = [] := by
        rw [List.head?_eq_none_iff] at hhead
        exact (hhead ▸ perm_stableSort le as).nil_eq.symm
      rw [hnil]
      exact ⟨fun h => Or.inl ⟨h.symm, List.forall_mem_nil _⟩,
        fun h => (h.resolve_right fun hc => not_isFirst_nil _ c hc.2).1.symm⟩
    | some b =>
      have hb : IsFirst (le · ·) as b := ih.mp hhead
      have honly : IsFirst (le · ·) as c ↔ b = c := by rw [← ih, hhead, Option.some.injEq]
      rw [honly, Option.elim_some]
      by_cases hab : le a b = true
      · -- what is behind `b` is behind `a` as well
        have hall : ∀ x ∈ as, le a x = true := fun x hx => trans a b x hab (hb.leads total hx)
        rw [if_pos hab]
        constructor
        · exact fun h => Or.inl ⟨h.symm, hall⟩
        · rintro (⟨rfl, -⟩ | ⟨hac, rfl⟩)
          · rfl
          · exact absurd hab hac
      · rw [if_neg hab]
        constructor
        · rintro rfl
          exact Or.inr ⟨hab, rfl⟩
        · rintro (⟨-, hall⟩ | ⟨-, rfl⟩)
          · exact absurd (hall b hb.mem) hab
          · rfl

/-! ## Ties -/

theorem stableSort_eq_self (h : as.Pairwise (le · ·)) : stableSort le as = as :=
  ((sublist_stableSort h (List.Sublist.refl as)).eq_of_length (perm_stableSort le as).length_eq.symm).symm

/-- Elements that the order does not tell apart stay in their order. -/
theorem filter_stableSort_of_ties (trans : ∀ a b c, le a b → le b c → le a c)
    (total : ∀ a b, le a b ∨ le b a) {keep : α → Bool}
    (hties : ∀ a b, keep a = true → keep b = true → le a b = true) (as : List α) :
    (stableSort le as).filter keep = as.filter keep := by
  rw [filter_stableSort trans total]
  apply stableSort_eq_self
  apply List.pairwise_of_forall_mem_list
  intro a ha b hb
  exact hties a b (List.mem_filter.mp ha).2 (List.mem_filter.mp hb).2

end

end ChainNode
