import ChainNode.Proofs.Admission.Ruling

/-!
# The judging phase

Judging goes through the candidates twice: first without a look at the signatures, then through those
whose signatures are left to verify. Between the two, it rules on each candidate once, by its own
transaction and tag, whatever the order of the walk. If the tip cannot be read, it rules on nobody.
-/

namespace ChainNode.Admission

/-- What a cycle finds about a candidate in the end. -/
def verdict (config : Config) (tip : Option ChainTip) (c : Candidate) : Verdict :=
  (firstVerdict config tip c).getD (.ofSignature c.transaction.verifies)

def Verdict.ruling (config : Config) : Verdict → Ruling
  | .expired => .bar config.expiredCooldown
  | .unchanged => .keep
  | .valid => .tag
  | .badSignature => .bar config.invalidCooldown

namespace CycleReport

/-- How many candidates the report says have left the queue. -/
def departed (r : CycleReport) : Nat := r.expired + r.rejected + r.imported + r.alreadyKnown

/-- The report with so many more verdicts of each kind. -/
def judging (r : CycleReport) (count : Verdict → Nat) : CycleReport :=
  { r with
    validated := r.validated + count .valid
    expired := r.expired + count .expired
    rejected := r.rejected + count .badSignature }

end CycleReport

theorem verdict_eq (config : Config) (tip : Option ChainTip) (c : Candidate) :
    verdict config tip c =
      if tip.any c.transaction.isExpiredAt then .expired
      else if c.isValid then .unchanged
      else if config.liteMode || c.transaction.verifies then .valid
      else .badSignature := by
  unfold verdict firstVerdict Verdict.ofSignature
  -- what verifies is not looked into
  generalize c.transaction.verifies = verified
  split
  · rfl
  · split
    · rfl
    · cases config.liteMode <;> rfl

/-- Only a candidate without a tag is found valid. -/
theorem isValid_of_verdict {config : Config} {tip : Option ChainTip} {c : Candidate}
    (h : verdict config tip c = .valid) : c.isValid = false := by
  rw [verdict_eq] at h
  cases hc : c.isValid with
  | false => rfl
  | true =>
    rw [hc] at h
    split at h
    · cases h
    · cases h

namespace Cycle

theorem pipeline_carryOut (c : Cycle) (s : Signature) (v : Verdict) :
    (c.carryOut s v).pipeline = c.pipeline.rule s (v.ruling c.pipeline.config) := by
  cases v <;> rfl

theorem departed_carryOut (c : Cycle) (s : Signature) (v : Verdict) :
    (c.carryOut s v).report.departed =
      c.report.departed + (v.ruling c.pipeline.config).removes.toNat := by
  cases v with
  | unchanged => rfl
  | valid => rfl
  | expired =>
    show c.report.expired + 1 + c.report.rejected + c.report.imported + c.report.alreadyKnown =
      c.report.departed + 1
    unfold CycleReport.departed
    omega
  | badSignature =>
    show c.report.expired + (c.report.rejected + 1) + c.report.imported + c.report.alreadyKnown =
      c.report.departed + 1
    unfold CycleReport.departed
    omega

theorem report_carryOut {c : Cycle} {s : Signature} {v : Verdict}
    (h : v = .valid → (c.pipeline.queue.markValid s).1 = true) :
    (c.carryOut s v).report = c.report.judging fun w => if v = w then 1 else 0 := by
  cases v with
  | unchanged => rfl
  | expired => rfl
  | badSignature => rfl
  | valid =>
    show { c.report with validated :=
      c.report.validated + (c.pipeline.queue.markValid s).1.toNat } = _
    rw [h rfl]
    rfl

section
variable (first : Candidate → Option Verdict) (last : Candidate → Verdict) (cs : List Candidate)
  (c : Cycle)

theorem foldl_firstPass :
    cs.foldl (fun c d => (first d).elim c (c.carryOut d.signature)) c =
      (cs.filter fun d => !(first d).isNone).foldl
        (fun c d => c.carryOut d.signature ((first d).getD (last d))) c := by
  rw [List.foldl_filter]
  congr 1
  funext c d
  cases first d <;> rfl

theorem foldl_secondPass :
    (cs.filter fun d => (first d).isNone).foldl (fun c d => c.carryOut d.signature (last d)) c =
      (cs.filter fun d => (first d).isNone).foldl
        (fun c d => c.carryOut d.signature ((first d).getD (last d))) c := by
  apply List.foldl_ext
  intro c d hd
  rw [Option.isNone_iff_eq_none.mp (List.mem_filter.mp hd).2, Option.getD_none]

end

section
variable (judged : Candidate → Verdict)

theorem pipeline_foldl_carryOut (cs : List Candidate) (c : Cycle) :
    (cs.foldl (fun c d => c.carryOut d.signature (judged d)) c).pipeline =
      c.pipeline.ruleAll
        (cs.map fun d => (d.signature, (judged d).ruling c.pipeline.config)) := by
  induction cs generalizing c with
  | nil => rfl
  | cons d cs ih =>
    rw [List.foldl_cons, ih, pipeline_carryOut, Pipeline.config_rule, List.map_cons,
      Pipeline.ruleAll_cons]

theorem departed_foldl_carryOut (cs : List Candidate) (c : Cycle) :
    (cs.foldl (fun c d => c.carryOut d.signature (judged d)) c).report.departed =
      c.report.departed +
        (cs.map fun d => (d.signature, (judged d).ruling c.pipeline.config)).countP
          (·.2.removes) := by
  induction cs generalizing c with
  | nil => rfl
  | cons d cs ih =>
    rw [List.foldl_cons, ih, departed_carryOut, pipeline_carryOut, Pipeline.config_rule,
      List.map_cons, List.countP_cons]
    cases ((judged d).ruling c.pipeline.config).removes
    · rfl
    · simp only [Bool.toNat_true, if_true]
      omega

theorem report_foldl_carryOut {cs : List Candidate} {c : Cycle}
    (hnodup : (cs.map (·.signature)).Nodup)
    (hfresh : ∀ d ∈ cs, judged d = .valid → (c.pipeline.queue.markValid d.signature).1 = true) :
    (cs.foldl (fun c d => c.carryOut d.signature (judged d)) c).report =
      c.report.judging fun v => cs.countP fun d => judged d = v := by
  induction cs generalizing c with
  | nil => rfl
  | cons d cs ih =>
    rw [List.map_cons, List.nodup_cons] at hnodup
    have hhead := report_carryOut (s := d.signature) (hfresh d List.mem_cons_self)
    -- the verdict on `d` does not touch the candidates after it
    have hrest : ∀ e ∈ cs, judged e = .valid →
        ((c.carryOut d.signature (judged d)).pipeline.queue.markValid e.signature).1 = true := by
      intro e he hvalid
      have hne : e.signature ≠ d.signature := fun hs => hnodup.1 (List.mem_map.mpr ⟨e, he, hs⟩)
      have hget := c.pipeline.get?_rule d.signature e.signature
        ((judged d).ruling c.pipeline.config)
      rw [if_neg hne, ← pipeline_carryOut] at hget
      have hbefore := hfresh e (List.mem_cons_of_mem _ he) hvalid
      unfold Queue.markValid at hbefore ⊢
      rwa [hget]
    rw [List.foldl_cons, ih hnodup.2 hrest, hhead]
    unfold CycleReport.judging
    simp only [List.countP_cons, decide_eq_true_eq, CycleReport.mk.injEq, and_true]
    omega

end
end Cycle

namespace Pipeline

/-- How a cycle judges the candidate. -/
def judgement (p : Pipeline) (c : Candidate) : Ruling :=
  match p.environment.chain.currentTip with
  | .error _ => .keep
  | .ok tip => (verdict p.config tip c).ruling p.config

/-- The candidate's signature has to be verified. -/
def isUnverified (p : Pipeline) (c : Candidate) : Bool :=
  match p.environment.chain.currentTip with
  | .error _ => false
  | .ok tip => (firstVerdict p.config tip c).isNone

/-- The candidates in the order in which they are ruled on. -/
def judgingOrder (p : Pipeline) (rank : Signature → Nat) : List Candidate :=
  (p.queue.walk rank).filter (!p.isUnverified ·) ++ (p.queue.walk rank).filter p.isUnverified

/-- The rulings of the judging phase, in order. -/
def judgements (p : Pipeline) (rank : Signature → Nat) : List (Signature × Ruling) :=
  (p.judgingOrder rank).map fun c => (c.signature, p.judgement c)

/-- On how many candidates a cycle comes to this verdict. -/
def judgedCount (p : Pipeline) (v : Verdict) : Nat :=
  match p.environment.chain.currentTip with
  | .error _ => 0
  | .ok tip => p.queue.candidates.countP fun c => verdict p.config tip c = v

variable {p : Pipeline} {s : Signature} {rank : Signature → Nat}

theorem judgement_of_tipFailing (h : p.environment.chain.tipFailing = true) (c : Candidate) :
    p.judgement c = .keep := by
  rw [judgement, ChainState.currentTip, h]
  rfl

theorem judgement_of_tipRead (h : p.environment.chain.tipFailing = false) (c : Candidate) :
    p.judgement c =
      if p.environment.chain.tip.any c.transaction.isExpiredAt then .bar p.config.expiredCooldown
      else if c.isValid then .keep
      else if p.config.liteMode || c.transaction.verifies then .tag
      else .bar p.config.invalidCooldown := by
  have hcurrent : p.environment.chain.currentTip = .ok p.environment.chain.tip := by
    rw [ChainState.currentTip, h]
    rfl
  rw [judgement, hcurrent]
  simp only [verdict_eq]
  split
  · rfl
  · split
    · rfl
    · split <;> rfl

/-- Every candidate is ruled on once, in one of the two passes. -/
theorem perm_judgingOrder (p : Pipeline) (rank : Signature → Nat) :
    (p.judgingOrder rank).Perm p.queue.candidates := by
  have hsplit : (p.judgingOrder rank).Perm (p.queue.walk rank) := by
    unfold judgingOrder
    exact List.perm_append_comm.trans (List.filter_append_perm p.isUnverified _)
  exact hsplit.trans (p.queue.perm_walk rank)

theorem mem_judgingOrder {c : Candidate} : c ∈ p.judgingOrder rank ↔ c ∈ p.queue.candidates :=
  (p.perm_judgingOrder rank).mem_iff

theorem WellFormed.nodup_judgingOrder (h : p.WellFormed) (rank : Signature → Nat) :
    ((p.judgingOrder rank).map (·.signature)).Nodup :=
  (((p.perm_judgingOrder rank).map _).nodup_iff).mpr h.queue

theorem perm_judgements (p : Pipeline) (rank rank' : Signature → Nat) :
    (p.judgements rank).Perm (p.judgements rank') :=
  ((p.perm_judgingOrder rank).trans (p.perm_judgingOrder rank').symm).map _

theorem map_fst_judgements :
    (p.judgements rank).map Prod.fst = (p.judgingOrder rank).map (·.signature) := by
  rw [judgements, List.map_map]
  rfl

theorem WellFormed.nodup_judgements (h : p.WellFormed) (rank : Signature → Nat) :
    ((p.judgements rank).map Prod.fst).Nodup := by
  rw [map_fst_judgements]
  exact h.nodup_judgingOrder rank

theorem contains_of_mem_judgements {x : Signature × Ruling} (hx : x ∈ p.judgements rank) :
    p.queue.contains x.1 = true := by
  obtain ⟨c, hc, rfl⟩ := List.mem_map.mp hx
  exact Queue.contains_iff.mpr ⟨c, mem_judgingOrder.mp hc, rfl⟩

theorem ruleAll_judgements_of_error {e : RepositoryError}
    (h : p.environment.chain.currentTip = .error e) : p.ruleAll (p.judgements rank) = p := by
  apply ruleAll_of_keep
  intro x hx
  obtain ⟨c, _, rfl⟩ := List.mem_map.mp hx
  show p.judgement c = .keep
  rw [judgement, h]

theorem countP_judgements_of_error {e : RepositoryError}
    (h : p.environment.chain.currentTip = .error e) :
    (p.judgements rank).countP (·.2.removes) = 0 := by
  have hkeep (c : Candidate) : p.judgement c = .keep := by rw [judgement, h]
  rw [List.countP_eq_zero]
  intro x hx
  obtain ⟨c, _, rfl⟩ := List.mem_map.mp hx
  rw [hkeep]
  exact Bool.false_ne_true

theorem WellFormed.on_judgements (h : p.WellFormed) {c : Candidate}
    (hc : p.queue.get? s = some c) : Ruling.on (p.judgements rank) s = p.judgement c := by
  obtain ⟨hmem, rfl⟩ := Queue.mem_of_get? hc
  apply Ruling.on_of_mem (h.nodup_judgements rank)
  exact List.mem_map.mpr ⟨c, mem_judgingOrder.mpr hmem, rfl⟩

theorem on_judgements_of_not_contains (hs : p.queue.contains s = false) :
    Ruling.on (p.judgements rank) s = .keep := by
  apply Ruling.on_of_notMem
  intro hmem
  obtain ⟨x, hx, rfl⟩ := List.mem_map.mp hmem
  rw [contains_of_mem_judgements hx] at hs
  cases hs

end Pipeline

namespace Cycle

variable (order : WalkOrder) (c : Cycle)

/-- The two passes together carry out the verdict on each candidate. -/
theorem judge_eq {tip : Option ChainTip}
    (h : c.pipeline.environment.chain.currentTip = .ok tip) :
    c.judge order = (c.pipeline.judgingOrder order.judging).foldl
      (fun c' d => c'.carryOut d.signature (verdict c.pipeline.config tip d)) c := by
  have hunverified : c.pipeline.isUnverified =
      fun d => (firstVerdict c.pipeline.config tip d).isNone := by
    funext d
    rw [Pipeline.isUnverified, h]
  have hsecond (cs : List Candidate) (c : Cycle) :
      (Transaction.verdicts (cs.map (·.transaction))).foldl
        (fun c v => c.carryOut v.1 (.ofSignature v.2)) c =
      cs.foldl (fun c d => c.carryOut d.signature (.ofSignature d.transaction.verifies)) c := by
    simp only [Transaction.verdicts, List.foldl_map, Candidate.signature]
  unfold judge Pipeline.judgingOrder verdict
  rw [h, hunverified, List.foldl_append, ← foldl_firstPass, ← foldl_secondPass]
  exact hsecond _ _

theorem pipeline_judge :
    (c.judge order).pipeline = c.pipeline.ruleAll (c.pipeline.judgements order.judging) := by
  cases htip : c.pipeline.environment.chain.currentTip with
  | error e =>
    rw [Pipeline.ruleAll_judgements_of_error htip, judge, htip]
  | ok tip =>
    rw [c.judge_eq order htip, pipeline_foldl_carryOut, Pipeline.judgements]
    simp only [Pipeline.judgement, htip]

theorem departed_judge :
    (c.judge order).report.departed =
      c.report.departed + (c.pipeline.judgements order.judging).countP (·.2.removes) := by
  cases htip : c.pipeline.environment.chain.currentTip with
  | error e =>
    rw [Pipeline.countP_judgements_of_error htip, judge, htip]
    rfl
  | ok tip =>
    rw [c.judge_eq order htip, departed_foldl_carryOut, Pipeline.judgements]
    simp only [Pipeline.judgement, htip]

/-- The report counts each verdict, whatever the order of the walk. -/
theorem report_judge {c : Cycle} (h : c.pipeline.WellFormed) (order : WalkOrder) :
    (c.judge order).report = c.report.judging c.pipeline.judgedCount := by
  cases htip : c.pipeline.environment.chain.currentTip with
  | error e =>
    have hnobody : c.pipeline.judgedCount = fun _ => 0 := by
      funext v
      rw [Pipeline.judgedCount, htip]
    rw [hnobody, judge, htip]
    rfl
  | ok tip =>
    rw [c.judge_eq order htip, report_foldl_carryOut _ (h.nodup_judgingOrder order.judging)]
    · congr 1
      funext v
      rw [Pipeline.judgedCount, htip]
      exact (c.pipeline.perm_judgingOrder order.judging).countP_eq _
    · intro d hd hvalid
      have hget := h.queue.get?_signature (Pipeline.mem_judgingOrder.mp hd)
      rw [Queue.markValid, hget]
      exact Bool.not_eq_true' _ |>.mpr (isValid_of_verdict hvalid)

end Cycle
end ChainNode.Admission
