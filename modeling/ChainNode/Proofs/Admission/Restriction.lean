import ChainNode.Proofs.Admission.Judging

/-!
# A pipeline without some signatures

What is ruled on one signature touches no other. So what is held under some signatures can be left out
before the candidates are judged or after, if the others are gone through in the same order.
-/

namespace ChainNode.Admission

/-- Both ranks put the signatures that are not hidden in the same order. -/
def RanksAlike (hidden : Signature → Bool) (rank rank' : Signature → Nat) : Prop :=
  ∀ s t, hidden s = false → hidden t = false → (rank s ≤ rank t ↔ rank' s ≤ rank' t)

variable {hidden : Signature → Bool} {s : Signature}

/-! ## The queue -/

namespace Queue

def without (hidden : Signature → Bool) (q : Queue) : Queue :=
  ⟨q.candidates.filter (!hidden ·.signature)⟩

variable {c : Candidate} {rank rank' : Signature → Nat}

theorem mem_without {q : Queue} :
    c ∈ (q.without hidden).candidates ↔ c ∈ q.candidates ∧ hidden c.signature = false := by
  rw [without, List.mem_filter, Bool.not_eq_true']

theorem get?_without (hs : hidden s = false) (q : Queue) : (q.without hidden).get? s = q.get? s := by
  rw [get?, get?, without, List.find?_filter]
  congr 1
  funext c
  rw [decide_eq_decide, decide_eq_true_eq, Bool.not_eq_true']
  exact ⟨And.right, fun hc => ⟨hc ▸ hs, hc⟩⟩

theorem contains_without (hs : hidden s = false) (q : Queue) :
    (q.without hidden).contains s = q.contains s := by
  rw [contains, contains, get?_without hs]

/-- Nobody hidden is missed where nobody hidden is counted. -/
theorem countP_without {q : Queue} {counted : Candidate → Bool}
    (h : ∀ c ∈ q.candidates, counted c = true → hidden c.signature = false) :
    (q.without hidden).candidates.countP counted = q.candidates.countP counted := by
  rw [without, List.countP_filter]
  apply List.countP_congr
  intro c hc
  rw [Bool.and_eq_true, Bool.not_eq_true', and_iff_left_iff_imp]
  exact h c hc

theorem insertIfAbsent_without (hc : hidden c.signature = false) (q : Queue) :
    (q.without hidden).insertIfAbsent c = (q.insertIfAbsent c).map id (·.without hidden) := by
  rw [insertIfAbsent, insertIfAbsent, contains_without hc]
  split
  · rfl
  · refine Prod.ext rfl (congrArg Queue.mk ?_)
    rw [List.filter_append, List.filter_singleton, hc]
    rfl

theorem without_insertIfAbsent (hc : hidden c.signature = true) (q : Queue) :
    (q.insertIfAbsent c).2.without hidden = q.without hidden := by
  unfold insertIfAbsent
  split
  · rfl
  · apply congrArg Queue.mk
    rw [List.filter_append, List.filter_singleton, hc]
    exact List.append_nil _

theorem walk_without (h : RanksAlike hidden rank rank') (q : Queue) :
    (q.without hidden).walk rank = (q.walk rank').filter (!hidden ·.signature) := by
  rw [walk, walk, filter_stableSort (rank_trans rank') (rank_total rank')]
  apply stableSort_congr
  intro c hc d hd
  exact decide_eq_decide.mpr (h _ _ (mem_without.mp hc).2 (mem_without.mp hd).2)

end Queue

/-! ## The cool-downs -/

namespace Cooldowns

def without (hidden : Signature → Bool) (c : Cooldowns) : Cooldowns :=
  ⟨c.expiries.filter (!hidden ·.1)⟩

theorem expiry?_without (hs : hidden s = false) (c : Cooldowns) :
    (c.without hidden).expiry? s = c.expiry? s := by
  obtain ⟨es⟩ := c
  show (es.filter (!hidden ·.1)).lookup s = es.lookup s
  induction es with
  | nil => rfl
  | cons e es ih =>
    obtain ⟨t, e⟩ := e
    rw [List.filter_cons, List.lookup_cons]
    by_cases hst : s = t
    · subst hst
      rw [hs, beq_self_eq_true]
      exact List.lookup_cons_self
    · rw [beq_false_of_ne hst]
      split
      · rw [List.lookup_cons, beq_false_of_ne hst, ih]
      · exact ih

theorem without_record (c : Cooldowns) (s : Signature) (expiry : UInt64) :
    (c.record s expiry).without hidden =
      if hidden s then c.without hidden else (c.without hidden).record s expiry := by
  obtain ⟨es⟩ := c
  have hextend : (extend s expiry es).filter (!hidden ·.1) =
      if hidden s then es.filter (!hidden ·.1) else extend s expiry (es.filter (!hidden ·.1)) := by
    induction es with
    | nil =>
      rw [extend, List.filter_singleton]
      cases hidden s <;> rfl
    | cons e es ih =>
      obtain ⟨t, e⟩ := e
      rw [extend]
      by_cases hts : t = s
      · subst hts
        rw [if_pos rfl, List.filter_cons, List.filter_cons]
        cases hidden t with
        | true => rfl
        | false => exact (if_pos rfl).symm
      · rw [if_neg hts, List.filter_cons, List.filter_cons, ih]
        cases hidden t with
        | true => rfl
        | false =>
          cases hidden s with
          | true => rfl
          | false => exact (if_neg hts).symm
  unfold without record
  rw [hextend]
  split <;> rfl

theorem purge_without (c : Cooldowns) (now : UInt64) :
    ((c.without hidden).purge now).2 = (c.purge now).2.without hidden :=
  congrArg Cooldowns.mk (List.filter_comm _ _ _)

end Cooldowns

/-! ## Rulings -/

namespace Pipeline

/-- The pipeline without what it holds under hidden signatures. -/
def without (hidden : Signature → Bool) (p : Pipeline) : Pipeline :=
  { p with queue := p.queue.without hidden, cooldowns := p.cooldowns.without hidden }

variable {rank rank' : Signature → Nat}

theorem queue_without_rule (p : Pipeline) (s : Signature) (r : Ruling) :
    (p.rule s r).queue.without hidden = ((p.without hidden).rule s r).queue := by
  let left (c : Candidate) : Option Candidate := if c.signature = s then r.leave c else some c
  have hsame {c d : Candidate} (h : left c = some d) : d.signature = c.signature := by
    change (if c.signature = s then r.leave c else some c) = some d at h
    split at h
    · exact congrArg Transaction.signature (transaction_of_leave h)
    · cases h
      rfl
  have hcandidates : (p.queue.candidates.filterMap left).filter (!hidden ·.signature) =
      (p.queue.candidates.filter (!hidden ·.signature)).filterMap left := by
    rw [List.filter_filterMap, List.filterMap_filter]
    apply List.filterMap_congr
    intro c _
    cases h : left c with
    | none => exact (ite_self _).symm
    | some d =>
      rw [Option.filter_some, hsame h]
  rw [Queue.without, candidates_rule, hcandidates]
  exact congrArg Queue.mk ((p.without hidden).candidates_rule s r).symm

/-- Nobody is queued under a hidden signature any more. -/
theorem queue_rule_without (hs : hidden s = true) (p : Pipeline) (r : Ruling) :
    ((p.without hidden).rule s r).queue = p.queue.without hidden := by
  apply congrArg Queue.mk
  rw [candidates_rule]
  refine (List.filterMap_congr ?_).trans List.filterMap_some
  intro c hc
  have hne : c.signature ≠ s := by
    rintro rfl
    rw [(Queue.mem_without.mp hc).2] at hs
    cases hs
  exact if_neg hne

theorem cooldowns_without_rule (p : Pipeline) (s : Signature) (r : Ruling) :
    (p.rule s r).cooldowns.without hidden =
      if hidden s then p.cooldowns.without hidden else ((p.without hidden).rule s r).cooldowns := by
  cases r with
  | bar cooldown => exact p.cooldowns.without_record s (p.environment.now + cooldown)
  | keep => exact (ite_self _).symm
  | tag => exact (ite_self _).symm
  | drop => exact (ite_self _).symm

theorem without_rule (p : Pipeline) (s : Signature) (r : Ruling) :
    (p.rule s r).without hidden =
      if hidden s then p.without hidden else (p.without hidden).rule s r := by
  have hcooldowns : (p.rule s r).cooldowns.without hidden = _ := p.cooldowns_without_rule s r
  cases hs : hidden s with
  | true =>
    rw [hs, if_pos rfl] at hcooldowns
    rw [if_pos rfl]
    exact Pipeline.ext config_rule ((p.queue_without_rule s r).trans (queue_rule_without hs p r))
      hcooldowns stopRequested_rule environment_rule
  | false =>
    rw [hs, if_neg Bool.false_ne_true] at hcooldowns
    rw [if_neg Bool.false_ne_true]
    have hconfig : ((p.without hidden).rule s r).config = p.config := config_rule
    have hstop : ((p.without hidden).rule s r).stopRequested = p.stopRequested :=
      stopRequested_rule
    have henvironment : ((p.without hidden).rule s r).environment = p.environment :=
      environment_rule
    exact Pipeline.ext (config_rule.trans hconfig.symm) (p.queue_without_rule s r) hcooldowns
      (stopRequested_rule.trans hstop.symm) (environment_rule.trans henvironment.symm)

theorem without_ruleAll (p : Pipeline) (rulings : List (Signature × Ruling)) :
    (p.ruleAll rulings).without hidden =
      (p.without hidden).ruleAll (rulings.filter (!hidden ·.1)) := by
  induction rulings generalizing p with
  | nil => rfl
  | cons x rulings ih =>
    obtain ⟨s, r⟩ := x
    rw [ruleAll_cons, ih, without_rule, List.filter_cons]
    cases hidden s <;> rfl

/-! ## Judging -/

theorem judgingOrder_without (h : RanksAlike hidden rank rank') (p : Pipeline) :
    (p.without hidden).judgingOrder rank =
      (p.judgingOrder rank').filter (!hidden ·.signature) := by
  have hwalk : (p.without hidden).queue.walk rank =
      (p.queue.walk rank').filter (!hidden ·.signature) := p.queue.walk_without h
  have hunverified : (p.without hidden).isUnverified = p.isUnverified := rfl
  rw [judgingOrder, judgingOrder, hwalk, hunverified, List.filter_append, List.filter_comm,
    List.filter_comm p.isUnverified]

theorem judgements_without (h : RanksAlike hidden rank rank') (p : Pipeline) :
    (p.without hidden).judgements rank = (p.judgements rank').filter (!hidden ·.1) := by
  rw [judgements, judgements, judgingOrder_without h, List.filter_map]
  rfl

end Pipeline
end ChainNode.Admission
