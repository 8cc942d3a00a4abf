import ChainNode.Proofs.Admission.Queue
import Mathlib.Data.Set.Card

/-!
# What the queue holds

Under each signature the queue holds what the operations on that signature alone make of it: the first
candidate stays until it is removed, and its tag may come but not go. All that is counted or listed is read
off this map.
-/

namespace ChainNode.Admission

variable {c d : Candidate}

theorem Candidate.markValid_eq_self (h : c.isValid = true) : c.markValid.2 = c := by
  obtain ⟨transaction, state, receivedAt⟩ := c
  have hstate : state = .signatureValid := of_decide_eq_true h
  rw [hstate]
  rfl

theorem Candidate.isValid_markValid (c : Candidate) : c.markValid.2.isValid = true := rfl

namespace Queue

inductive Operation
  | insert (candidate : Candidate)
  | markValid (signature : Signature)
  | remove (signature : Signature)
deriving DecidableEq

inductive Reply
  | flag (value : Bool)
  | candidate (value : Option Candidate)
deriving DecidableEq

def Operation.signature : Operation → Signature
  | .insert c => c.signature
  | .markValid s => s
  | .remove s => s

/-- What the operation answers and leaves where its signature is kept. -/
def Operation.on : Operation → Option Candidate → Reply × Option Candidate
  | .insert _, some c => (.flag false, some c)
  | .insert c, none => (.flag true, some c)
  | .markValid _, some c => (.flag !c.isValid, some c.markValid.2)
  | .markValid _, none => (.flag false, none)
  | .remove _, kept => (.candidate kept, none)

/-- What the operations on `s` leave there; those on other signatures do not count. -/
def held (s : Signature) (ops : List Operation) : Option Candidate :=
  (ops.filter (·.signature = s)).foldl (fun kept op => (op.on kept).2) none

def apply (q : Queue) : Operation → Reply × Queue
  | .insert c => (q.insertIfAbsent c).map .flag id
  | .markValid s => (q.markValid s).map .flag id
  | .remove s => (q.remove s).map .candidate id

def run (q : Queue) (ops : List Operation) : Queue := ops.foldl (fun q op => (q.apply op).2) q

/-- The queue is a map, and this is what the operations have made of it. -/
structure FirstWins (q : Queue) (ops : List Operation) : Prop where
  /-- No signature occurs twice, and each candidate is filed under its own. -/
  distinct : q.Distinct
  filed : ∀ s c, q.get? s = some c ↔ c ∈ q.candidates ∧ c.signature = s
  /-- What is there is what the operations on the signature alone leave there, -/
  holds : ∀ s, q.get? s = held s ops
  /-- and the next one is answered by it and changes nothing elsewhere. -/
  answers : ∀ op : Operation, (q.apply op).1 = (op.on (held op.signature ops)).1
  frame : ∀ op : Operation, ∀ t, t ≠ op.signature → (q.apply op).2.get? t = q.get? t
  /-- What is absent is taken in, and what is there stays, with its tag and its time. -/
  inserts_iff : ∀ c, (q.insertIfAbsent c).1 = true ↔ q.contains c.signature = false
  stays : ∀ c, q.contains c.signature = true → (q.insertIfAbsent c).2 = q
  inserted : ∀ c, q.contains c.signature = false →
    (q.insertIfAbsent c).2.get? c.signature = some c
  /-- A tag that is new is the only change that marking makes, -/
  marks_iff_ne : ∀ s, (q.markValid s).1 = true ↔ (q.markValid s).2 ≠ q
  marks_iff : ∀ s, (q.markValid s).1 = true ↔ ∃ c, q.get? s = some c ∧ c.isValid = false
  /-- and until the candidate is removed it stays. -/
  one_way : ∀ s c later, q.get? s = some c → .remove s ∉ later →
    (q.run later).get? s = some (if .markValid s ∈ later then c.markValid.2 else c)
  removed : ∀ s, (q.remove s).1 = q.get? s ∧ (q.remove s).2.get? s = none
  /-- Listings go by some order each; the tagged ones are the same in all of them. -/
  mem_walk_iff : ∀ rank c, c ∈ q.walk rank ↔ q.get? c.signature = some c
  walkValidated_perm : ∀ rank rank', (q.walkValidated rank).Perm
    (((q.walk rank').filter (·.isValid)).map (·.transaction))
  /-- The sizes count the tagged ones and the signatures. -/
  validatedSize_eq : ∀ rank, q.validatedSize = (q.walkValidated rank).length
  size_eq : q.size = {s | q.contains s = true}.ncard

variable {q : Queue} {s t : Signature} {op : Operation} {ops later : List Operation}

/-! ## One operation -/

theorem fst_apply (q : Queue) (op : Operation) : (q.apply op).1 = (op.on (q.get? op.signature)).1 := by
  cases op with
  | insert c =>
    show Reply.flag (q.insertIfAbsent c).1 = ((Operation.insert c).on (q.get? c.signature)).1
    rw [fst_insertIfAbsent, contains]
    cases q.get? c.signature <;> rfl
  | markValid s =>
    show Reply.flag (q.markValid s).1 = ((Operation.markValid s).on (q.get? s)).1
    rw [markValid]
    cases q.get? s <;> rfl
  | remove s => rfl

theorem get?_apply (q : Queue) (op : Operation) (s : Signature) :
    (q.apply op).2.get? s = if s = op.signature then (op.on (q.get? s)).2 else q.get? s := by
  cases op with
  | insert c =>
    show (q.insertIfAbsent c).2.get? s =
      if s = c.signature then ((Operation.insert c).on (q.get? s)).2 else q.get? s
    rw [get?_insertIfAbsent]
    cases q.get? s <;> rfl
  | markValid t =>
    show (q.markValid t).2.get? s = if s = t then ((Operation.markValid t).on (q.get? s)).2 else q.get? s
    rw [get?_markValid]
    cases q.get? s <;> rfl
  | remove t => exact q.get?_remove t s

theorem get?_apply_of_ne (q : Queue) (h : s ≠ op.signature) : (q.apply op).2.get? s = q.get? s := by
  rw [get?_apply, if_neg h]

theorem Distinct.apply (h : q.Distinct) (op : Operation) : (q.apply op).2.Distinct := by
  cases op with
  | insert c => exact h.insertIfAbsent c
  | markValid s => exact h.markValid s
  | remove s => exact h.remove s

/-- A candidate that no removal reaches is only ever tagged. -/
theorem get?_apply_of_ne_remove (h : q.get? s = some c) (hop : op ≠ .remove s) :
    (q.apply op).2.get? s = some (if op = .markValid s then c.markValid.2 else c) := by
  rw [get?_apply, h]
  by_cases hs : s = op.signature
  · rw [if_pos hs]
    cases op with
    | insert d => rfl
    | markValid t =>
      have ht : t = s := hs.symm
      rw [ht, if_pos rfl]
      rfl
    | remove t => exact absurd (congrArg Operation.remove hs.symm) hop
  · -- neither a tag nor anything else is set elsewhere
    have hne : op ≠ .markValid s := fun h => hs (by rw [h]; rfl)
    rw [if_neg hs, if_neg hne]

theorem snd_insertIfAbsent_of_contains (h : q.contains c.signature = true) :
    (q.insertIfAbsent c).2 = q := by
  rw [insertIfAbsent, if_pos h]

theorem get?_insertIfAbsent_of_absent (h : q.contains c.signature = false) :
    (q.insertIfAbsent c).2.get? c.signature = some c := by
  rw [get?_insertIfAbsent, if_pos rfl, get?_eq_none_iff.mpr h]
  rfl

theorem fst_markValid_iff (q : Queue) (s : Signature) :
    (q.markValid s).1 = true ↔ ∃ c, q.get? s = some c ∧ c.isValid = false := by
  rw [markValid]
  cases q.get? s with
  | none => simp
  | some c => simp

/-- A new tag, and only that, changes the queue. -/
theorem Distinct.markValid_ne_iff (h : q.Distinct) (s : Signature) :
    (q.markValid s).2 ≠ q ↔ ∃ c, q.get? s = some c ∧ c.isValid = false := by
  constructor
  · intro hne
    by_contra hnone
    apply hne
    have hkept : ∀ c ∈ q.candidates, (if c.signature = s then c.markValid.2 else c) = c := by
      intro c hc
      split
      · rename_i hs
        apply Candidate.markValid_eq_self
        by_contra hvalid
        exact hnone ⟨c, h.get?_eq_some_iff.mpr ⟨hc, hs⟩, Bool.not_eq_true _ ▸ hvalid⟩
      · rfl
    exact congrArg Queue.mk ((List.map_congr_left hkept).trans (List.map_id _))
  · rintro ⟨c, hc, hvalid⟩ heq
    have hafter := q.get?_markValid s s
    rw [heq, if_pos rfl, hc] at hafter
    have hsame : c = c.markValid.2 := Option.some.inj hafter
    rw [hsame, Candidate.isValid_markValid] at hvalid
    cases hvalid

/-! ## Any number of operations -/

theorem Distinct.run (h : q.Distinct) (ops : List Operation) : (q.run ops).Distinct := by
  induction ops generalizing q with
  | nil => exact h
  | cons op ops ih => exact ih (h.apply op)

/-- By induction from the last operation: `held` takes up one operation after the other, too. -/
theorem get?_run (ops : List Operation) (s : Signature) : (run {} ops).get? s = held s ops := by
  induction ops using List.reverseRecOn with
  | nil => rfl
  | append_singleton ops op ih =>
    have hrun : run {} (ops ++ [op]) = ((run {} ops).apply op).2 := List.foldl_concat ..
    rw [hrun, get?_apply, ih, held, held, List.filter_append]
    by_cases hs : s = op.signature
    · rw [if_pos hs, List.filter_singleton, decide_eq_true hs.symm, List.foldl_append]
      rfl
    · rw [if_neg hs, List.filter_singleton, decide_eq_false (Ne.symm hs), cond_false, List.append_nil]

theorem get?_run_of_notMem_remove (h : q.get? s = some c) (hlater : .remove s ∉ later) :
    (q.run later).get? s = some (if .markValid s ∈ later then c.markValid.2 else c) := by
  induction later generalizing q c with
  | nil => exact h
  | cons op later ih =>
    rw [List.mem_cons, not_or] at hlater
    have hstep := get?_apply_of_ne_remove h (Ne.symm hlater.1)
    have hrest := ih hstep hlater.2
    show ((q.apply op).2.run later).get? s = _
    rw [hrest]
    by_cases hop : op = .markValid s
    · -- a second tag is no change
      have htwice : c.markValid.2.markValid.2 = c.markValid.2 := rfl
      rw [if_pos hop, htwice, ite_self, if_pos (List.mem_cons.mpr (Or.inl hop.symm))]
    · rw [if_neg hop]
      simp only [List.mem_cons, Ne.symm hop, false_or]

/-! ## Listing and counting -/

theorem Distinct.mem_walk_iff (h : q.Distinct) (rank : Signature → Nat) :
    c ∈ q.walk rank ↔ q.get? c.signature = some c := by
  rw [mem_walk, h.get?_eq_some_iff, and_iff_left rfl]

theorem length_walkValidated (q : Queue) (rank : Signature → Nat) :
    (q.walkValidated rank).length = q.validatedSize := by
  rw [walkValidated, List.length_map, ← List.countP_eq_length_filter, (q.perm_walk rank).countP_eq,
    validatedSize]

theorem Distinct.size_eq_ncard (h : q.Distinct) : q.size = {s | q.contains s = true}.ncard := by
  have hset : {s | q.contains s = true} =
      ((q.candidates.map (·.signature)).toFinset : Set Signature) := by
    ext s
    simp only [Set.mem_ofPred_eq, contains_iff, List.coe_toFinset, List.mem_map]
  rw [hset, Set.ncard_coe_finset, List.toFinset_card_of_nodup h, List.length_map, size]

/-- After any operations the queue is a map: under each signature it has the first candidate that came since
the last removal, tagged if it was marked since. -/
theorem candidates_first_wins (ops : List Operation) : (run {} ops).FirstWins ops := by
  have hempty : ({} : Queue).Distinct := List.nodup_nil
  have hq : (run {} ops).Distinct := hempty.run ops
  constructor
  case distinct => exact hq
  case filed => exact fun s c => hq.get?_eq_some_iff
  case holds => exact get?_run ops
  case answers =>
    intro op
    rw [fst_apply, get?_run]
  case frame => exact fun op t ht => get?_apply_of_ne _ ht
  case inserts_iff =>
    intro c
    rw [fst_insertIfAbsent, Bool.not_eq_true']
  case stays => exact fun c hin => snd_insertIfAbsent_of_contains hin
  case inserted => exact fun c habsent => get?_insertIfAbsent_of_absent habsent
  case marks_iff_ne =>
    -- both say that there is a candidate without a tag
    exact fun s => (fst_markValid_iff _ s).trans (hq.markValid_ne_iff s).symm
  case marks_iff => exact fst_markValid_iff _
  case one_way => exact fun s c later hc hlater => get?_run_of_notMem_remove hc hlater
  case removed =>
    intro s
    refine ⟨rfl, ?_⟩
    rw [get?_remove, if_pos rfl]
  case mem_walk_iff => exact fun rank c => hq.mem_walk_iff rank
  case walkValidated_perm => exact perm_walkValidated _
  case validatedSize_eq => exact fun rank => (length_walkValidated _ rank).symm
  case size_eq => exact hq.size_eq_ncard

/-- A candidate, another one with its signature that comes later, and one with a signature of its own. -/
theorem candidates_first_wins_latecomer :
    let first : Candidate := ⟨⟨.payment, 1000, .replicate 32 7, [1], .replicate 64 9⟩, .unvalidated, 5⟩
    let second : Candidate := ⟨⟨.chat, 2000, .replicate 32 7, [2], .replicate 64 9⟩, .unvalidated, 6⟩
    let stranger : Candidate := ⟨⟨.payment, 1000, .replicate 32 7, [1], .replicate 64 8⟩, .unvalidated, 7⟩
    let s := first.signature
    let q := run {} [.insert first, .insert second]
    (q.insertIfAbsent second).2 = q ∧
    (q.run [.markValid s, .insert second]).get? s = some first.markValid.2 ∧
    ((q.remove s).2.insertIfAbsent second).2.get? s = some second ∧
    (q.apply (.insert stranger)).2.get? s = some first := by
  intro first second stranger s q
  have hboth := candidates_first_wins [.insert first, .insert second]
  have hanew := candidates_first_wins [.insert first, .insert second, .remove s]
  have hget : q.get? s = some first := by decide
  refine ⟨hboth.stays second (by decide), ?_, hanew.inserted second (by decide), ?_⟩
  · exact hboth.one_way s first _ hget (by decide)
  · exact (hboth.frame (.insert stranger) s (by decide)).trans hget

end Queue
end ChainNode.Admission
