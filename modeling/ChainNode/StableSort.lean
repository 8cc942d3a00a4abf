/-!
# Stable sorting

Insertion sort. The order is given as a test `le`; elements that it does not tell apart keep their
order (`sublist_stableSort`).
-/

namespace ChainNode

variable {α : Type}

/-- `a` before the first element that it is not behind. -/
def insertSorted (le : α → α → Bool) (a : α) : List α → List α
  | [] => [a]
  | b :: bs => if le a b then a :: b :: bs else b :: insertSorted le a bs

def stableSort (le : α → α → Bool) : List α → List α
  | [] => []
  | a :: as => insertSorted le a (stableSort le as)

theorem perm_insertSorted (le : α → α → Bool) (a : α) (bs : List α) :
    (insertSorted le a bs).Perm (a :: bs) := by
  induction bs with
  | nil => exact List.Perm.refl _
  | cons b bs ih =>
    unfold insertSorted
    split
    · exact List.Perm.refl _
    · exact (ih.cons b).trans (List.Perm.swap a b bs)

theorem perm_stableSort (le : α → α → Bool) (as : List α) : (stableSort le as).Perm as := by
  induction as with
  | nil => exact List.Perm.refl _
  | cons a as ih => exact (perm_insertSorted le a _).trans (ih.cons a)

theorem pairwise_insertSorted {le : α → α → Bool} (trans : ∀ a b c, le a b → le b c → le a c)
    (total : ∀ a b, le a b ∨ le b a) (a : α) {bs : List α} (h : bs.Pairwise (le · ·)) :
    (insertSorted le a bs).Pairwise (le · ·) := by
  induction bs with
  | nil => exact List.pairwise_singleton _ _
  | cons b bs ih =>
    unfold insertSorted
    split
    · rename_i hab
      exact List.pairwise_cons.2 ⟨fun c hc => (List.mem_cons.1 hc).elim (fun e => e ▸ hab)
        fun hc => trans a b c hab (List.rel_of_pairwise_cons h hc), h⟩
    · rename_i hab
      refine List.pairwise_cons.2 ⟨fun c hc => ?_, ih h.tail⟩
      rcases List.mem_cons.1 ((perm_insertSorted le a bs).mem_iff.1 hc) with rfl | hc
      · exact (total c b).resolve_left hab
      · exact List.rel_of_pairwise_cons h hc

theorem pairwise_stableSort {le : α → α → Bool} (trans : ∀ a b c, le a b → le b c → le a c)
    (total : ∀ a b, le a b ∨ le b a) (as : List α) : (stableSort le as).Pairwise (le · ·) := by
  induction as with
  | nil => exact List.Pairwise.nil
  | cons a as ih => exact pairwise_insertSorted trans total a ih

theorem sublist_insertSorted (le : α → α → Bool) (a : α) (bs : List α) :
    bs.Sublist (insertSorted le a bs) := by
  induction bs with
  | nil => exact List.nil_sublist _
  | cons b bs ih =>
    unfold insertSorted
    split
    · exact List.sublist_cons_self _ _
    · exact ih.cons_cons b

theorem cons_sublist_insertSorted {le : α → α → Bool} {a : α} {cs bs : List α}
    (h : ∀ c ∈ cs, le a c) (hs : cs.Sublist bs) : (a :: cs).Sublist (insertSorted le a bs) := by
  induction hs with
  | slnil => exact List.Sublist.refl _
  | @cons cs bs b hs ih =>
    unfold insertSorted
    split
    · exact (hs.cons b).cons_cons a
    · exact (ih h).cons b
  | @cons_cons cs bs c hs ih =>
    have hc := h c List.mem_cons_self
    unfold insertSorted
    rw [if_pos hc]
    exact (hs.cons_cons c).cons_cons a

theorem sublist_stableSort {le : α → α → Bool} {cs as : List α} (h : cs.Pairwise (le · ·))
    (hs : cs.Sublist as) : cs.Sublist (stableSort le as) := by
  induction hs with
  | slnil => exact List.Sublist.refl _
  | @cons cs as a hs ih => exact (ih h).trans (sublist_insertSorted le a _)
  | @cons_cons cs as c hs ih =>
    exact cons_sublist_insertSorted (fun _ hx => List.rel_of_pairwise_cons h hx) (ih h.tail)

/-! ## Sorting a part -/

theorem insertSorted_of_forall {le : α → α → Bool} {a : α} {bs : List α} (h : ∀ b ∈ bs, le a b) :
    insertSorted le a bs = a :: bs := by
  cases bs with
  | nil => rfl
  | cons b bs => exact if_pos (h b List.mem_cons_self)

theorem filter_insertSorted {le : α → α → Bool} (trans : ∀ a b c, le a b → le b c → le a c)
    (keep : α → Bool) (a : α) {bs : List α} (h : bs.Pairwise (le · ·)) :
    (insertSorted le a bs).filter keep =
      if keep a then insertSorted le a (bs.filter keep) else bs.filter keep := by
  induction bs with
  | nil => exact List.filter_cons
  | cons b bs ih =>
    rw [insertSorted]
    split
    · -- `a` comes first, also among those that are kept
      rename_i hab
      rw [insertSorted_of_forall, List.filter_cons]
      intro c hc
      rcases List.mem_cons.1 (List.mem_filter.1 hc).1 with rfl | hc
      · exact hab
      · exact trans a b c hab (List.rel_of_pairwise_cons h hc)
    · rename_i hab
      rw [List.filter_cons, List.filter_cons, ih h.tail]
      split
      · split
        · rw [insertSorted, if_neg hab]
        · rfl
      · rfl

/-- What is kept of a sorted list is what is kept, sorted. -/
theorem filter_stableSort {le : α → α → Bool} (trans : ∀ a b c, le a b → le b c → le a c)
    (total : ∀ a b, le a b ∨ le b a) (keep : α → Bool) (as : List α) :
    (stableSort le as).filter keep = stableSort le (as.filter keep) := by
  induction as with
  | nil => rfl
  | cons a as ih =>
    rw [stableSort, filter_insertSorted trans keep a (pairwise_stableSort trans total as), ih,
      List.filter_cons]
    split <;> rfl

theorem insertSorted_congr {le le' : α → α → Bool} {a : α} {bs : List α}
    (h : ∀ b ∈ bs, le a b = le' a b) : insertSorted le a bs = insertSorted le' a bs := by
  induction bs with
  | nil => rfl
  | cons b bs ih =>
    rw [insertSorted, insertSorted, h b List.mem_cons_self,
      ih fun c hc => h c (List.mem_cons_of_mem b hc)]

/-- Only how the elements of the list compare counts. -/
theorem stableSort_congr {le le' : α → α → Bool} {as : List α}
    (h : ∀ a ∈ as, ∀ b ∈ as, le a b = le' a b) : stableSort le as = stableSort le' as := by
  induction as with
  | nil => rfl
  | cons a as ih =>
    rw [stableSort, stableSort, ih fun b hb c hc =>
      h b (List.mem_cons_of_mem a hb) c (List.mem_cons_of_mem a hc)]
    apply insertSorted_congr
    intro b hb
    exact h a List.mem_cons_self b (List.mem_cons_of_mem a ((perm_stableSort le' as).mem_iff.1 hb))

end ChainNode
