import ChainNode.Admission.Pipeline
import ChainNode.Proofs.Admission.Cooldowns
import ChainNode.Proofs.Admission.Queue

/-!
# Rulings

Whatever a cycle finds out about a signature, it does one of four things with it: it keeps the candidate,
tags it, drops it, or drops it and bars the signature. A phase of a cycle is a list of such rulings on
different signatures, so what becomes of a signature is settled by the one ruling on it.
-/

namespace ChainNode.Admission

inductive Ruling
  | keep
  | tag
  | drop
  | bar (cooldown : UInt64)
deriving DecidableEq

namespace Ruling

/-- What is left of the candidate. -/
def leave : Ruling → Candidate → Option Candidate
  | .keep, c => some c
  | .tag, c => some c.markValid.2
  | .drop, _ => none
  | .bar _, _ => none

/-- The end of the signature's cool-down, from what it was. -/
def extend (now : UInt64) : Ruling → Option UInt64 → Option UInt64
  | .bar cooldown, old => some (old.elim (now + cooldown) (max · (now + cooldown)))
  | _, old => old

def removes : Ruling → Bool
  | .keep => false
  | .tag => false
  | .drop => true
  | .bar _ => true

def bars : Ruling → Bool
  | .bar _ => true
  | _ => false

theorem bind_leave_keep (o : Option Candidate) : o.bind Ruling.keep.leave = o := by
  cases o <;> rfl

theorem bind_leave_of_removes {r : Ruling} (h : r.removes = true) (o : Option Candidate) :
    o.bind r.leave = none := by
  cases r with
  | keep => cases h
  | tag => cases h
  | drop => cases o <;> rfl
  | bar cooldown => cases o <;> rfl

theorem extend_of_leave {r : Ruling} {c d : Candidate} (h : r.leave c = some d) (now : UInt64)
    (old : Option UInt64) : r.extend now old = old := by
  cases r with
  | keep => rfl
  | tag => rfl
  | drop => cases h
  | bar cooldown => cases h

/-- The ruling on `s`, which is kept if there is none. -/
def on (rulings : List (Signature × Ruling)) (s : Signature) : Ruling :=
  (rulings.lookup s).getD .keep

theorem on_cons (s t : Signature) (r : Ruling) (rulings : List (Signature × Ruling)) :
    on ((s, r) :: rulings) t = if t = s then r else on rulings t := by
  rw [on, List.lookup_cons]
  by_cases h : t = s
  · rw [h, beq_self_eq_true, if_pos rfl]
    rfl
  · rw [beq_false_of_ne h, if_neg h]
    rfl

theorem on_of_notMem {rulings : List (Signature × Ruling)} {s : Signature}
    (h : s ∉ rulings.map Prod.fst) : on rulings s = .keep := by
  have hnone : rulings.lookup s = none := by
    rw [List.lookup_eq_none_iff]
    intro x hx
    have hne : s ≠ x.1 := fun hs => h (hs ▸ List.mem_map_of_mem hx)
    simpa using hne
  rw [on, hnone]
  rfl

theorem on_of_mem {rulings : List (Signature × Ruling)} {s : Signature} {r : Ruling}
    (hnodup : (rulings.map Prod.fst).Nodup) (h : (s, r) ∈ rulings) : on rulings s = r := by
  induction rulings with
  | nil => cases h
  | cons x rulings ih =>
    obtain ⟨t, u⟩ := x
    rw [List.map_cons, List.nodup_cons] at hnodup
    rw [on_cons]
    rcases List.mem_cons.mp h with heq | htail
    · cases heq
      rw [if_pos rfl]
    · have hne : s ≠ t := fun hs => hnodup.1 (hs ▸ List.mem_map.mpr ⟨(s, r), htail, rfl⟩)
      rw [if_neg hne, ih hnodup.2 htail]

/-- With one ruling a signature, their order does not matter. -/
theorem on_perm {xs ys : List (Signature × Ruling)} (h : xs.Perm ys)
    (hnodup : (xs.map Prod.fst).Nodup) (s : Signature) : on xs s = on ys s := by
  have hnodup' : (ys.map Prod.fst).Nodup := (h.map _).nodup_iff.mp hnodup
  by_cases hs : s ∈ xs.map Prod.fst
  · obtain ⟨x, hx, rfl⟩ := List.mem_map.mp hs
    rw [on_of_mem hnodup (r := x.2) hx, on_of_mem hnodup' (h.mem_iff.mp hx)]
  · have hs' : s ∉ ys.map Prod.fst := fun hmem => hs ((h.map _).mem_iff.mpr hmem)
    rw [on_of_notMem hs, on_of_notMem hs']

end Ruling

namespace Pipeline

/-- Carries out one ruling. -/
def rule (p : Pipeline) (s : Signature) : Ruling → Pipeline
  | .keep => p
  | .tag => { p with queue := (p.queue.markValid s).2 }
  | .drop => p.removed s
  | .bar cooldown => p.barred s cooldown

/-- Carries out the rulings in turn. -/
def ruleAll (p : Pipeline) (rulings : List (Signature × Ruling)) : Pipeline :=
  rulings.foldl (fun p x => p.rule x.1 x.2) p

/-- Queue and cool-downs hold each signature once. -/
structure WellFormed (p : Pipeline) : Prop where
  queue : p.queue.Distinct
  cooldowns : p.cooldowns.Distinct

variable {p : Pipeline} {s t : Signature} {r : Ruling} {rulings : List (Signature × Ruling)}

/-! ## One ruling -/

@[simp] theorem environment_rule : (p.rule s r).environment = p.environment := by
  cases r <;> rfl

@[simp] theorem config_rule : (p.rule s r).config = p.config := by
  cases r <;> rfl

@[simp] theorem stopRequested_rule : (p.rule s r).stopRequested = p.stopRequested := by
  cases r <;> rfl

theorem get?_rule (p : Pipeline) (s t : Signature) (r : Ruling) :
    (p.rule s r).queue.get? t =
      if t = s then (p.queue.get? t).bind r.leave else p.queue.get? t := by
  have hremoved : (p.removed s).queue.get? t = if t = s then none else p.queue.get? t :=
    Queue.get?_remove _ _ _
  cases r with
  | keep =>
    rw [Ruling.bind_leave_keep, ite_self]
    rfl
  | tag =>
    show (p.queue.markValid s).2.get? t = _
    rw [Queue.get?_markValid]
    split
    · exact Option.map_eq_bind
    · rfl
  | drop =>
    show (p.removed s).queue.get? t = _
    rw [hremoved, Ruling.bind_leave_of_removes rfl]
  | bar cooldown =>
    show (p.removed s).queue.get? t = _
    rw [hremoved, Ruling.bind_leave_of_removes rfl]

theorem expiry?_rule (p : Pipeline) (s t : Signature) (r : Ruling) :
    (p.rule s r).cooldowns.expiry? t =
      if t = s then r.extend p.environment.now (p.cooldowns.expiry? t)
      else p.cooldowns.expiry? t := by
  cases r with
  | keep => exact (ite_self _).symm
  | tag => exact (ite_self _).symm
  | drop => exact (ite_self _).symm
  | bar cooldown =>
    show (p.cooldowns.record s (p.environment.now + cooldown)).expiry? t = _
    rw [Cooldowns.expiry?_record]
    by_cases h : t = s
    · rw [if_pos h, if_pos h, h]
      rfl
    · rw [if_neg h, if_neg h]

theorem WellFormed.rule (h : p.WellFormed) (s : Signature) (r : Ruling) : (p.rule s r).WellFormed := by
  cases r with
  | keep => exact h
  | tag => exact ⟨h.queue.markValid s, h.cooldowns⟩
  | drop => exact ⟨h.queue.remove s, h.cooldowns⟩
  | bar cooldown => exact ⟨h.queue.remove s, h.cooldowns.record s _⟩

theorem WellFormed.size_rule (h : p.WellFormed) (hin : p.queue.contains s = true) (r : Ruling) :
    (p.rule s r).queue.size + r.removes.toNat = p.queue.size := by
  have hremove := h.queue.size_remove s
  rw [hin] at hremove
  cases r with
  | keep => rfl
  | tag => exact p.queue.size_markValid s
  | drop => exact hremove
  | bar cooldown => exact hremove

/-! ## All rulings of a phase -/

theorem ruleAll_cons (p : Pipeline) (s : Signature) (r : Ruling) (rulings : List (Signature × Ruling)) :
    p.ruleAll ((s, r) :: rulings) = (p.rule s r).ruleAll rulings := rfl

theorem ruleAll_of_keep (h : ∀ x ∈ rulings, x.2 = .keep) : p.ruleAll rulings = p := by
  induction rulings with
  | nil => rfl
  | cons x rulings ih =>
    obtain ⟨s, r⟩ := x
    have hr : r = .keep := h (s, r) List.mem_cons_self
    rw [ruleAll_cons, hr]
    exact ih fun x hx => h x (List.mem_cons_of_mem _ hx)

theorem ruleAll_append (p : Pipeline) (xs ys : List (Signature × Ruling)) :
    p.ruleAll (xs ++ ys) = (p.ruleAll xs).ruleAll ys :=
  List.foldl_append

@[simp] theorem environment_ruleAll : (p.ruleAll rulings).environment = p.environment := by
  induction rulings generalizing p with
  | nil => rfl
  | cons x rulings ih =>
    obtain ⟨s, r⟩ := x
    rw [ruleAll_cons, ih, environment_rule]

@[simp] theorem config_ruleAll : (p.ruleAll rulings).config = p.config := by
  induction rulings generalizing p with
  | nil => rfl
  | cons x rulings ih =>
    obtain ⟨s, r⟩ := x
    rw [ruleAll_cons, ih, config_rule]

@[simp] theorem stopRequested_ruleAll : (p.ruleAll rulings).stopRequested = p.stopRequested := by
  induction rulings generalizing p with
  | nil => rfl
  | cons x rulings ih =>
    obtain ⟨s, r⟩ := x
    rw [ruleAll_cons, ih, stopRequested_rule]

theorem WellFormed.ruleAll (h : p.WellFormed) (rulings : List (Signature × Ruling)) :
    (p.ruleAll rulings).WellFormed := by
  induction rulings generalizing p with
  | nil => exact h
  | cons x rulings ih =>
    obtain ⟨s, r⟩ := x
    rw [ruleAll_cons]
    exact ih (h.rule s r)

theorem get?_ruleAll (hnodup : (rulings.map Prod.fst).Nodup) (t : Signature) :
    (p.ruleAll rulings).queue.get? t = (p.queue.get? t).bind (Ruling.on rulings t).leave := by
  induction rulings generalizing p with
  | nil => exact (Ruling.bind_leave_keep _).symm
  | cons x rulings ih =>
    obtain ⟨s, r⟩ := x
    rw [List.map_cons, List.nodup_cons] at hnodup
    rw [ruleAll_cons, ih hnodup.2, get?_rule, Ruling.on_cons]
    by_cases h : t = s
    · -- later rulings are on other signatures
      subst h
      rw [if_pos rfl, if_pos rfl, Ruling.on_of_notMem hnodup.1, Ruling.bind_leave_keep]
    · rw [if_neg h, if_neg h]

theorem expiry?_ruleAll (hnodup : (rulings.map Prod.fst).Nodup) (t : Signature) :
    (p.ruleAll rulings).cooldowns.expiry? t =
      (Ruling.on rulings t).extend p.environment.now (p.cooldowns.expiry? t) := by
  induction rulings generalizing p with
  | nil => rfl
  | cons x rulings ih =>
    obtain ⟨s, r⟩ := x
    rw [List.map_cons, List.nodup_cons] at hnodup
    rw [ruleAll_cons, ih hnodup.2, expiry?_rule, environment_rule, Ruling.on_cons]
    by_cases h : t = s
    · subst h
      rw [if_pos rfl, if_pos rfl, Ruling.on_of_notMem hnodup.1]
      rfl
    · rw [if_neg h, if_neg h]

theorem WellFormed.size_ruleAll (h : p.WellFormed) (hnodup : (rulings.map Prod.fst).Nodup)
    (hin : ∀ x ∈ rulings, p.queue.contains x.1 = true) :
    (p.ruleAll rulings).queue.size + rulings.countP (·.2.removes) = p.queue.size := by
  induction rulings generalizing p with
  | nil => rfl
  | cons x rulings ih =>
    obtain ⟨s, r⟩ := x
    rw [List.map_cons, List.nodup_cons] at hnodup
    -- the ruling on `s` leaves the others in the queue
    have hrest : ∀ x ∈ rulings, (p.rule s r).queue.contains x.1 = true := by
      intro x hx
      have hne : x.1 ≠ s := fun hs => hnodup.1 (List.mem_map.mpr ⟨x, hx, hs⟩)
      rw [Queue.contains, get?_rule, if_neg hne]
      exact hin x (List.mem_cons_of_mem _ hx)
    have htail := ih (h.rule s r) hnodup.2 hrest
    have hhead := h.size_rule (hin (s, r) List.mem_cons_self) r
    rw [ruleAll_cons, List.countP_cons]
    cases hr : r.removes
    · rw [hr] at hhead
      simp only [Bool.toNat_false, Bool.false_eq_true, if_false] at hhead ⊢
      omega
    · rw [hr] at hhead
      simp only [Bool.toNat_true, if_true] at hhead ⊢
      omega

theorem transaction_of_leave {c d : Candidate} (h : r.leave c = some d) :
    d.transaction = c.transaction := by
  cases r with
  | keep => cases h; rfl
  | tag => cases h; rfl
  | drop => cases h
  | bar cooldown => cases h

/-! ## The queue as a list -/

theorem candidates_rule (p : Pipeline) (s : Signature) (r : Ruling) :
    (p.rule s r).queue.candidates =
      p.queue.candidates.filterMap fun c => if c.signature = s then r.leave c else some c := by
  have hremoved (hr : r.removes = true) : p.queue.candidates.filter (·.signature ≠ s) =
      p.queue.candidates.filterMap fun c => if c.signature = s then r.leave c else some c := by
    rw [← List.filterMap_eq_filter]
    apply List.filterMap_congr
    intro c _
    have hleave : r.leave c = none := Ruling.bind_leave_of_removes hr (some c)
    by_cases hs : c.signature = s <;> simp [Option.guard, hs, hleave]
  cases r with
  | keep =>
    have hall : (fun c : Candidate => if c.signature = s then Ruling.keep.leave c else some c) =
        some := by
      funext c
      exact ite_self _
    rw [hall, List.filterMap_some]
    rfl
  | tag =>
    show (p.queue.markValid s).2.candidates = _
    rw [Queue.markValid, ← List.filterMap_eq_map]
    apply List.filterMap_congr
    intro c _
    show some (if c.signature = s then c.markValid.2 else c) = _
    split <;> rfl
  | drop => exact hremoved rfl
  | bar cooldown => exact hremoved rfl

theorem candidates_ruleAll (hnodup : (rulings.map Prod.fst).Nodup) :
    (p.ruleAll rulings).queue.candidates =
      p.queue.candidates.filterMap fun c => (Ruling.on rulings c.signature).leave c := by
  induction rulings generalizing p with
  | nil => exact List.filterMap_some.symm
  | cons x rulings ih =>
    obtain ⟨s, r⟩ := x
    rw [List.map_cons, List.nodup_cons] at hnodup
    rw [ruleAll_cons, ih hnodup.2, candidates_rule, List.filterMap_filterMap]
    apply List.filterMap_congr
    intro c _
    rw [Ruling.on_cons]
    by_cases h : c.signature = s
    · rw [if_pos h, if_pos h]
      cases hd : r.leave c with
      | none => rfl
      | some d =>
        -- later rulings are on other signatures
        have hs : d.signature = s := by rw [← h, Candidate.signature, transaction_of_leave hd]; rfl
        rw [Option.bind_some, hs, Ruling.on_of_notMem hnodup.1]
        rfl
    · rw [if_neg h, if_neg h, Option.bind_some]

theorem queue_ruleAll_perm {xs ys : List (Signature × Ruling)} (h : xs.Perm ys)
    (hnodup : (xs.map Prod.fst).Nodup) (p : Pipeline) :
    (p.ruleAll xs).queue = (p.ruleAll ys).queue := by
  apply congrArg Queue.mk
  rw [candidates_ruleAll hnodup, candidates_ruleAll ((h.map _).nodup_iff.mp hnodup)]
  apply List.filterMap_congr
  intro c _
  rw [Ruling.on_perm h hnodup]

/-! ## The order of the rulings -/

/-- The cool-downs come from the bars alone, whatever is queued meanwhile. -/
theorem cooldowns_ruleAll {p q : Pipeline} (hcooldowns : p.cooldowns = q.cooldowns)
    (hnow : p.environment.now = q.environment.now) (rulings : List (Signature × Ruling)) :
    (p.ruleAll rulings).cooldowns = (q.ruleAll (rulings.filter (·.2.bars))).cooldowns := by
  induction rulings generalizing p q with
  | nil => exact hcooldowns
  | cons x rulings ih =>
    obtain ⟨s, r⟩ := x
    rw [ruleAll_cons, List.filter_cons]
    cases r with
    | keep => exact ih hcooldowns hnow
    | tag => exact ih hcooldowns hnow
    | drop => exact ih hcooldowns hnow
    | bar cooldown =>
      refine ih (q := q.barred s cooldown) ?_ hnow
      show p.cooldowns.record s _ = q.cooldowns.record s _
      rw [hcooldowns, hnow]

/-- Rulings may change places, except that the bars among them stay in order. -/
theorem ruleAll_congr {xs ys : List (Signature × Ruling)} (h : xs.Perm ys)
    (hnodup : (xs.map Prod.fst).Nodup) (hbars : xs.filter (·.2.bars) = ys.filter (·.2.bars))
    (p : Pipeline) : p.ruleAll xs = p.ruleAll ys := by
  have hcooldowns : (p.ruleAll xs).cooldowns = (p.ruleAll ys).cooldowns := by
    rw [cooldowns_ruleAll rfl rfl xs, hbars, ← cooldowns_ruleAll rfl rfl ys]
  exact Pipeline.ext (by rw [config_ruleAll, config_ruleAll]) (queue_ruleAll_perm h hnodup p)
    hcooldowns (by rw [stopRequested_ruleAll, stopRequested_ruleAll])
    (by rw [environment_ruleAll, environment_ruleAll])

end Pipeline
end ChainNode.Admission
