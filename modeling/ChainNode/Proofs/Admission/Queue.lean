import ChainNode.Admission.Queue
import Mathlib.Data.List.Nodup
import Mathlib.Data.List.Perm.Basic

/-!
# Laws of the candidate queue

A queue of distinct signatures is a finite map: look-up and membership agree, each operation keeps it
one, and a walk meets every candidate once. Every order of the candidates is the walk of some rank.
-/

namespace ChainNode.Admission.Queue

/-- No two candidates have one signature. -/
def Distinct (q : Queue) : Prop := (q.candidates.map (·.signature)).Nodup

variable {q : Queue} {s t : Signature} {c d : Candidate}

theorem contains_iff : q.contains s = true ↔ ∃ c ∈ q.candidates, c.signature = s := by
  rw [contains, get?, List.find?_isSome]
  simp only [decide_eq_true_eq]

theorem get?_eq_none_iff : q.get? s = none ↔ q.contains s = false := by
  rw [contains, Option.isSome_eq_false_iff, Option.isNone_iff_eq_none]

theorem mem_of_get? (h : q.get? s = some c) : c ∈ q.candidates ∧ c.signature = s := by
  refine ⟨List.mem_of_find?_eq_some h, ?_⟩
  have hp := List.find?_some h
  exact of_decide_eq_true hp

theorem Distinct.eq_of_signature (h : q.Distinct) (hc : c ∈ q.candidates) (hd : d ∈ q.candidates)
    (he : c.signature = d.signature) : c = d :=
  List.inj_on_of_nodup_map h hc hd he

theorem Distinct.get?_eq_some_iff (h : q.Distinct) :
    q.get? s = some c ↔ c ∈ q.candidates ∧ c.signature = s := by
  refine ⟨mem_of_get?, fun ⟨hc, hs⟩ => ?_⟩
  have hin : q.contains s = true := contains_iff.mpr ⟨c, hc, hs⟩
  obtain ⟨d, hd⟩ := Option.isSome_iff_exists.mp hin
  obtain ⟨hdm, hds⟩ := mem_of_get? hd
  rw [hd, h.eq_of_signature hdm hc (hds.trans hs.symm)]

theorem Distinct.get?_signature (h : q.Distinct) (hc : c ∈ q.candidates) :
    q.get? c.signature = some c :=
  h.get?_eq_some_iff.mpr ⟨hc, rfl⟩

/-- Queues of distinct signatures are told apart by looking the signatures up. -/
theorem Distinct.perm_of_get? {r : Queue} (hq : q.Distinct) (hr : r.Distinct)
    (h : ∀ s, q.get? s = r.get? s) : q.candidates.Perm r.candidates := by
  refine (List.perm_ext_iff_of_nodup hq.of_map hr.of_map).mpr ?_
  intro c
  have hqc : c ∈ q.candidates ↔ q.get? c.signature = some c := by
    rw [hq.get?_eq_some_iff, and_iff_left rfl]
  have hrc : c ∈ r.candidates ↔ r.get? c.signature = some c := by
    rw [hr.get?_eq_some_iff, and_iff_left rfl]
  rw [hqc, hrc, h]

/-! ## What the operations keep -/

theorem Distinct.insertIfAbsent (h : q.Distinct) (c : Candidate) : (q.insertIfAbsent c).2.Distinct := by
  unfold Queue.insertIfAbsent
  split
  · exact h
  · rename_i habsent
    rw [Distinct, List.map_append, List.map_singleton, ← List.concat_eq_append]
    refine List.Nodup.concat ?_ h
    intro hmem
    obtain ⟨d, hd, hs⟩ := List.mem_map.mp hmem
    exact habsent (contains_iff.mpr ⟨d, hd, hs⟩)

theorem signatures_markValid (q : Queue) (s : Signature) :
    (q.markValid s).2.candidates.map (·.signature) = q.candidates.map (·.signature) := by
  rw [markValid, List.map_map]
  apply List.map_congr_left
  intro c _
  show (if c.signature = s then c.markValid.2 else c).signature = c.signature
  split <;> rfl

theorem Distinct.markValid (h : q.Distinct) (s : Signature) : (q.markValid s).2.Distinct := by
  rw [Distinct, signatures_markValid]
  exact h

theorem Distinct.remove (h : q.Distinct) (s : Signature) : (q.remove s).2.Distinct :=
  List.Nodup.sublist (List.filter_sublist.map _) h

theorem contains_insertIfAbsent (q : Queue) (c : Candidate) (s : Signature) :
    (q.insertIfAbsent c).2.contains s = (q.contains s || decide (s = c.signature)) := by
  rw [contains, get?_insertIfAbsent]
  by_cases hs : s = c.signature
  · simp [hs]
  · simp [hs, contains]

theorem mem_of_mem_insertIfAbsent (h : d ∈ (q.insertIfAbsent c).2.candidates) :
    d ∈ q.candidates ∨ d = c := by
  unfold insertIfAbsent at h
  split at h
  · exact Or.inl h
  · exact (List.mem_append.mp h).imp_right List.mem_singleton.mp

theorem fst_insertIfAbsent (q : Queue) (c : Candidate) :
    (q.insertIfAbsent c).1 = !q.contains c.signature := by
  unfold insertIfAbsent
  split <;> simp_all

theorem size_insertIfAbsent (q : Queue) (c : Candidate) :
    (q.insertIfAbsent c).2.size = q.size + (q.insertIfAbsent c).1.toNat := by
  unfold insertIfAbsent
  split
  · rfl
  · simp [size]

theorem size_markValid (q : Queue) (s : Signature) : (q.markValid s).2.size = q.size := by
  rw [size, size, markValid, List.length_map]

theorem Distinct.size_remove (h : q.Distinct) (s : Signature) :
    (q.remove s).2.size + (q.contains s).toNat = q.size := by
  have hsplit : (q.remove s).2.size + q.candidates.countP (·.signature = s) = q.size := by
    have hlen : q.candidates.length = _ := List.length_eq_length_filter_add (·.signature = s)
    rw [size, size, Queue.remove, List.countP_eq_length_filter, hlen, Nat.add_comm]
    simp
  have hcount : q.candidates.countP (·.signature = s) = (q.candidates.map (·.signature)).count s := by
    rw [List.count, List.countP_map]
    apply List.countP_congr
    intro c _
    simp
  -- distinct signatures are counted at most once
  have hone : (q.candidates.map (·.signature)).count s = (q.contains s).toNat := by
    by_cases hs : q.contains s = true
    · obtain ⟨c, hc, he⟩ := contains_iff.mp hs
      rw [hs, List.count_eq_one_of_mem h (List.mem_map.mpr ⟨c, hc, he⟩)]
      rfl
    · rw [Bool.not_eq_true] at hs
      rw [hs]
      apply List.count_eq_zero.mpr
      intro hmem
      have hin := contains_iff.mpr (List.mem_map.mp hmem)
      rw [hs] at hin
      exact Bool.false_ne_true hin
  omega

/-! ## Walks -/

section
variable (rank : Signature → Nat)

theorem rank_trans (a b c : Candidate) (hab : decide (rank a.signature ≤ rank b.signature) = true)
    (hbc : decide (rank b.signature ≤ rank c.signature) = true) :
    decide (rank a.signature ≤ rank c.signature) = true :=
  decide_eq_true (Nat.le_trans (of_decide_eq_true hab) (of_decide_eq_true hbc))

theorem rank_total (a b : Candidate) :
    decide (rank a.signature ≤ rank b.signature) = true ∨
      decide (rank b.signature ≤ rank a.signature) = true :=
  (Nat.le_total _ _).imp decide_eq_true decide_eq_true

theorem pairwise_walk (q : Queue) :
    (q.walk rank).Pairwise fun a b => rank a.signature ≤ rank b.signature :=
  (pairwise_stableSort (rank_trans rank) (rank_total rank) q.candidates).imp of_decide_eq_true

end

theorem perm_walk (q : Queue) (rank : Signature → Nat) : (q.walk rank).Perm q.candidates :=
  perm_stableSort _ _

theorem mem_walk {rank : Signature → Nat} : c ∈ q.walk rank ↔ c ∈ q.candidates :=
  (q.perm_walk rank).mem_iff

theorem Distinct.nodup_walk (h : q.Distinct) (rank : Signature → Nat) :
    ((q.walk rank).map (·.signature)).Nodup :=
  (((q.perm_walk rank).map _).nodup_iff).mpr h

theorem mem_walkValidated {rank : Signature → Nat} {tx : Transaction} :
    tx ∈ q.walkValidated rank ↔ ∃ c ∈ q.candidates, c.isValid = true ∧ c.transaction = tx := by
  simp only [walkValidated, List.mem_map, List.mem_filter, mem_walk, and_assoc]

theorem perm_walkValidated (q : Queue) (rank rank' : Signature → Nat) :
    (q.walkValidated rank).Perm (q.walkValidated rank') :=
  (((q.perm_walk rank).trans (q.perm_walk rank').symm).filter _).map _

theorem Distinct.nodup_walkValidated (h : q.Distinct) (rank : Signature → Nat) :
    ((q.walkValidated rank).map (·.signature)).Nodup := by
  rw [walkValidated, List.map_map]
  exact (h.nodup_walk rank).sublist (List.filter_sublist.map _)

/-- Whatever the order of the candidates, some rank makes the walk go by it. -/
theorem Distinct.exists_walk_eq (h : q.Distinct) {order : List Candidate}
    (hp : order.Perm q.candidates) : ∃ rank, q.walk rank = order := by
  -- rank each signature by its place in the wanted order
  let place (s : Signature) : Nat := (order.map (·.signature)).idxOf s
  have hnodup : (order.map (·.signature)).Nodup := (hp.map _).nodup_iff.mpr h
  have hsorted := pairwise_walk place q
  have horder : order.Pairwise fun a b => place a.signature ≤ place b.signature := by
    rw [List.pairwise_iff_getElem]
    intro i j hi hj hij
    have hplace (k : Nat) (hk : k < order.length) : place order[k].signature = k := by
      have hm := hnodup.idxOf_getElem k (by rw [List.length_map]; exact hk)
      rwa [List.getElem_map] at hm
    rw [hplace i hi, hplace j hj]
    omega
  -- both lists are sorted by place, and no two candidates share one
  refine ⟨place, List.Perm.eq_of_pairwise ?_ hsorted horder ((q.perm_walk place).trans hp.symm)⟩
  intro a b ha hb hab hba
  have hmem : a.signature ∈ order.map (·.signature) :=
    List.mem_map.mpr ⟨a, hp.mem_iff.mpr (mem_walk.mp ha), rfl⟩
  have hs : a.signature = b.signature := (List.idxOf_inj hmem).mp (Nat.le_antisymm hab hba)
  exact h.eq_of_signature (mem_walk.mp ha) (hp.mem_iff.mp hb) hs

end ChainNode.Admission.Queue
