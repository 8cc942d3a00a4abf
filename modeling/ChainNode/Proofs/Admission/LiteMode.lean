import ChainNode.Proofs.Admission.Run
import ChainNode.Proofs.Admission.Surroundings

/-!
# Lite mode on honest traffic

In lite mode a candidate is tagged at sight, without it after its signature is verified, in a pass of its
own. Where all signatures verify this is only a matter of when within one phase, and nobody can tell the
difference but by asking for the mode.
-/

namespace ChainNode.Admission

/-- The answer of a pipeline that is in lite mode, or out of it, to the same question. -/
def Answer.inMode (lite : Bool) : Answer → Answer
  | .status s => .status { s with liteMode := lite }
  | answer => answer

namespace Pipeline

/-- The same pipeline in lite mode, or out of it. -/
def inMode (lite : Bool) (p : Pipeline) : Pipeline := { p with config.liteMode := lite }

/-- The signatures of all that is queued verify. -/
def Genuine (p : Pipeline) : Prop := ∀ c ∈ p.queue.candidates, c.transaction.verifies = true

variable {p : Pipeline} {lite : Bool} {c : Candidate} {order : WalkOrder} {e : Event}
  {es : List Event}

/-! ## Judging -/

theorem rule_inMode (p : Pipeline) (s : Signature) (r : Ruling) :
    (p.inMode lite).rule s r = (p.rule s r).inMode lite := by
  cases r <;> rfl

theorem ruleAll_inMode (p : Pipeline) (rulings : List (Signature × Ruling)) :
    (p.inMode lite).ruleAll rulings = (p.ruleAll rulings).inMode lite := by
  induction rulings generalizing p with
  | nil => rfl
  | cons x rulings ih =>
    obtain ⟨s, r⟩ := x
    rw [ruleAll_cons, ruleAll_cons, rule_inMode, ih]

theorem verdict_inMode (config : Config) (tip : Option ChainTip)
    (h : c.transaction.verifies = true) :
    verdict { config with liteMode := lite } tip c = verdict config tip c := by
  rw [verdict_eq, verdict_eq, h, Bool.or_true, Bool.or_true]

theorem judgement_inMode (h : c.transaction.verifies = true) :
    (p.inMode lite).judgement c = p.judgement c := by
  have hruling (v : Verdict) :
      v.ruling { p.config with liteMode := lite } = v.ruling p.config := by cases v <;> rfl
  have htip : (p.inMode lite).environment.chain.currentTip = p.environment.chain.currentTip := rfl
  unfold judgement
  rw [htip]
  split
  · rfl
  · rename_i tip _
    exact (congrArg _ (verdict_inMode p.config tip h)).trans (hruling _)

/-- A candidate whose signature is still to be verified is not barred, if it does verify. -/
theorem bars_of_isUnverified (h : c.transaction.verifies = true) (hu : p.isUnverified c = true) :
    (p.judgement c).bars = false := by
  unfold isUnverified at hu
  unfold judgement
  split at hu
  · cases hu
  · rename_i tip _
    rw [verdict, Option.isNone_iff_eq_none.mp hu, Option.getD_none, h]
    rfl

/-- So the bars come in the order of the walk, as if there were one pass. -/
theorem Genuine.bars_judgements (h : p.Genuine) (rank : Signature → Nat) :
    (p.judgements rank).filter (·.2.bars) =
      ((p.queue.walk rank).map fun c => (c.signature, p.judgement c)).filter (·.2.bars) := by
  let barred (c : Candidate) : Bool := (p.judgement c).bars
  have hsettled : ((p.queue.walk rank).filter (!p.isUnverified ·)).filter barred =
      (p.queue.walk rank).filter barred := by
    rw [List.filter_filter]
    apply List.filter_congr
    intro c hc
    cases hu : p.isUnverified c with
    | false => exact Bool.and_true _
    | true =>
      have hkept : barred c = false := bars_of_isUnverified (h c (Queue.mem_walk.mp hc)) hu
      rw [hkept]
      rfl
  have hverified : ((p.queue.walk rank).filter p.isUnverified).filter barred = [] := by
    rw [List.filter_eq_nil_iff]
    intro c hc
    obtain ⟨hmem, hu⟩ := List.mem_filter.mp hc
    exact Bool.not_eq_true _ |>.mpr (bars_of_isUnverified (h c (Queue.mem_walk.mp hmem)) hu)
  have hall : (p.judgingOrder rank).filter barred = (p.queue.walk rank).filter barred := by
    rw [judgingOrder, List.filter_append, hsettled, hverified, List.append_nil]
  rw [judgements, List.filter_map, List.filter_map]
  exact congrArg (List.map _) hall

theorem Genuine.judgements_inMode (h : p.Genuine) (hp : p.WellFormed) (rank : Signature → Nat) :
    p.ruleAll ((p.inMode lite).judgements rank) = p.ruleAll (p.judgements rank) := by
  have hsame {cs : List Candidate} (hcs : ∀ c ∈ cs, c ∈ p.queue.candidates) :
      (cs.map fun c => (c.signature, (p.inMode lite).judgement c)) =
        cs.map fun c => (c.signature, p.judgement c) :=
    List.map_congr_left fun c hc => Prod.ext rfl (judgement_inMode (h c (hcs c hc)))
  have hgenuine : (p.inMode lite).Genuine := h
  have hwell : (p.inMode lite).WellFormed := ⟨hp.queue, hp.cooldowns⟩
  apply ruleAll_congr
  · -- each candidate has one ruling, and it is the same in either mode
    have hjudgements : (p.inMode lite).judgements rank =
        ((p.inMode lite).judgingOrder rank).map fun c => (c.signature, p.judgement c) :=
      hsame fun c hc => (mem_judgingOrder (p := p.inMode lite)).mp hc
    rw [hjudgements]
    exact (((p.inMode lite).perm_judgingOrder rank).trans (p.perm_judgingOrder rank).symm).map _
  · exact hwell.nodup_judgements rank
  · rw [hgenuine.bars_judgements, h.bars_judgements]
    exact congrArg _ (hsame fun c hc => Queue.mem_walk.mp hc)

theorem Genuine.judgedCount_inMode (h : p.Genuine) :
    (p.inMode lite).judgedCount = p.judgedCount := by
  have htip : (p.inMode lite).environment.chain.currentTip = p.environment.chain.currentTip := rfl
  funext v
  unfold judgedCount
  rw [htip]
  split
  · rfl
  · rename_i tip _
    apply List.countP_congr
    intro c hc
    have hverdict : verdict (p.inMode lite).config tip c = verdict p.config tip c :=
      verdict_inMode p.config tip (h c hc)
    rw [hverdict]

end Pipeline

/-! ## One cycle -/

namespace Cycle

def inMode (lite : Bool) (c : Cycle) : Cycle := { c with pipeline := c.pipeline.inMode lite }

variable {p : Pipeline} {lite : Bool}

theorem judge_inMode (h : p.Genuine) (hp : p.WellFormed) (order : WalkOrder) :
    (Cycle.mk (p.inMode lite) {}).judge order = ((Cycle.mk p {}).judge order).inMode lite := by
  have hwell : (p.inMode lite).WellFormed := ⟨hp.queue, hp.cooldowns⟩
  have hpipeline : ((Cycle.mk (p.inMode lite) {}).judge order).pipeline =
      ((Cycle.mk p {}).judge order).pipeline.inMode lite := by
    rw [pipeline_judge, pipeline_judge, Pipeline.ruleAll_inMode, h.judgements_inMode hp]
  have hreport : ((Cycle.mk (p.inMode lite) {}).judge order).report =
      ((Cycle.mk p {}).judge order).report := by
    rw [report_judge hwell, report_judge hp, h.judgedCount_inMode]
  exact congrArg₂ Cycle.mk hpipeline hreport

theorem ruled_inMode (config : Config) (q : SaveRequest) :
    q.ruled { config with liteMode := lite } = q.ruled config := by
  unfold SaveRequest.ruled SaveRequest.ruling
  cases q.answer with
  | error e => rfl
  | ok result =>
    cases result with
    | invalid reason => cases reason <;> rfl
    | _ => rfl

theorem follow_inMode (c : Cycle) (o : Course) :
    (c.inMode lite).follow o = (c.follow o).inMode lite := by
  have hruled : o.requests.map (·.ruled (c.inMode lite).pipeline.config) =
      o.requests.map (·.ruled c.pipeline.config) :=
    List.map_congr_left fun q _ => ruled_inMode c.pipeline.config q
  have hpipeline : (c.pipeline.inMode lite).ruleAll (o.requests.map (·.ruled c.pipeline.config)) =
      (c.pipeline.ruleAll (o.requests.map (·.ruled c.pipeline.config))).inMode lite :=
    c.pipeline.ruleAll_inMode _
  unfold follow
  rw [hruled]
  exact congrArg
    (fun p : Pipeline => Cycle.mk (p.within o.environment o.stopRequested) _) hpipeline

theorem importTagged_inMode (order : WalkOrder) (c : Cycle) :
    (c.inMode lite).importTagged order = (c.importTagged order).map (·.inMode lite) id := by
  have halike : (c.inMode lite).Alike c := ⟨rfl, rfl⟩
  have hcourse : (c.inMode lite).course order = c.course order := halike.course rfl rfl
  refine Prod.ext ?_ (halike.importTagged rfl).2
  rw [importTagged_eq_follow, hcourse, follow_inMode, ← importTagged_eq_follow]
  rfl

end Cycle

namespace Pipeline

variable {p : Pipeline} {lite : Bool} {order : WalkOrder} {e : Event} {es : List Event}

theorem Genuine.cycle_inMode (h : p.Genuine) (hp : p.WellFormed) (order : WalkOrder) :
    (p.inMode lite).cycle order = (p.cycle order).map id (·.inMode lite) := by
  have hstop : (p.inMode lite).stopRequested = p.stopRequested := rfl
  cases hgo : p.stopRequested with
  | true =>
    rw [cycle_of_stopRequested order (hstop.trans hgo), cycle_of_stopRequested order hgo]
    rfl
  | false =>
    have hopened : (p.inMode lite).opened order = (p.opened order).inMode lite := by
      unfold opened
      rw [Cycle.judge_inMode h hp]
      rfl
    rw [cycle_eq_cleanUp order (hstop.trans hgo), cycle_eq_cleanUp order hgo, hopened,
      Cycle.importTagged_inMode]
    show (if ((p.opened order).importTagged order).2 = some .stopped then _ else _) = _
    split
    · rfl
    · rfl

/-! ## Steps and runs -/

theorem Genuine.cycle (h : p.Genuine) (hp : p.WellFormed) (order : WalkOrder) :
    (p.cycle order).2.Genuine := by
  intro d hd
  have hget := (hp.cycle order).queue.get?_signature hd
  obtain ⟨c, hc, hjudged, -⟩ := hp.exists_of_get?_cycle hget
  rw [transaction_of_leave hjudged]
  exact h c (Queue.mem_of_get? hc).1

theorem Genuine.submit {tx : Transaction} (h : p.Genuine) (htx : tx.verifies = true) :
    (p.submit tx).2.Genuine := by
  intro d hd
  rcases mem_of_mem_submit hd with hold | rfl
  · exact h d hold
  · exact htx

theorem Genuine.step (h : p.Genuine) (hp : p.WellFormed)
    (he : ∀ tx, e = .submit tx → tx.verifies = true) : (p.step e).2.Genuine := by
  cases e with
  | submit tx => exact h.submit (he tx rfl)
  | cycle order => exact h.cycle hp order
  | requestStop => exact h
  | ask question => exact h
  | change change => exact h

theorem submit_inMode (p : Pipeline) (tx : Transaction) :
    (p.inMode lite).submit tx = (p.submit tx).map id (·.inMode lite) := by
  have hcool : (p.inMode lite).isCoolingDown tx.signature = p.isCoolingDown tx.signature := rfl
  unfold submit
  rw [hcool]
  split
  · rfl
  · have hqueue : (p.inMode lite).queue.insertIfAbsent
          ⟨tx, .unvalidated, (p.inMode lite).environment.now⟩ =
        p.queue.insertIfAbsent ⟨tx, .unvalidated, p.environment.now⟩ := rfl
    rw [hqueue]
    cases p.queue.insertIfAbsent ⟨tx, .unvalidated, p.environment.now⟩ with
    | mk isNew queue => cases isNew <;> rfl

theorem unknownSignatures_inMode (p : Pipeline) (signatures : List Signature) :
    (p.inMode lite).unknownSignatures signatures = p.unknownSignatures signatures := by
  induction signatures with
  | nil => rfl
  | cons s signatures ih =>
    unfold unknownSignatures
    rw [ih]
    rfl

theorem answer_inMode (p : Pipeline) (question : Question) :
    (p.inMode lite).answer question = (p.answer question).inMode lite := by
  cases question with
  | unknownSignatures signatures => exact congrArg Answer.signatures (p.unknownSignatures_inMode signatures)
  | _ => rfl

theorem Genuine.step_inMode (h : p.Genuine) (hp : p.WellFormed) (e : Event) :
    (p.inMode lite).step e = (p.step e).map (·.inMode lite) (·.inMode lite) := by
  cases e with
  | submit tx =>
    show ((p.inMode lite).submit tx).map Answer.outcome id = _
    rw [submit_inMode]
    rfl
  | cycle order =>
    show ((p.inMode lite).cycle order).map Answer.report id = _
    rw [h.cycle_inMode hp]
    rfl
  | requestStop => rfl
  | ask question => exact Prod.ext (p.answer_inMode question) rfl
  | change change => cases change <;> rfl

theorem Genuine.run_inMode (h : p.Genuine) (hp : p.WellFormed) (lite : Bool)
    (hes : ∀ tx, .submit tx ∈ es → tx.verifies = true) :
    (p.inMode lite).run es = (p.run es).inMode lite ∧
      (p.inMode lite).answers es = (p.answers es).map (·.inMode lite) := by
  induction es generalizing p with
  | nil => exact ⟨rfl, rfl⟩
  | cons e es ih =>
    have hhead : ∀ tx, e = .submit tx → tx.verifies = true :=
      fun tx he => hes tx (he ▸ List.mem_cons_self)
    obtain ⟨hrun, hanswers⟩ := ih (h.step hp hhead) (hp.step e)
      fun tx htx => hes tx (List.mem_cons_of_mem e htx)
    have hstep : (p.inMode lite).step e = (p.step e).map (·.inMode lite) (·.inMode lite) :=
      h.step_inMode hp e
    refine ⟨?_, ?_⟩
    · show ((p.inMode lite).step e).2.run es = _
      rw [hstep]
      exact hrun
    · show ((p.inMode lite).step e).1 :: ((p.inMode lite).step e).2.answers es = _
      rw [hstep, answers, List.map_cons]
      exact congrArg _ hanswers

/-- Where every submitted signature verifies, a pipeline in lite mode answers every step like one that
verifies, but for the mode in its status, and ends in the same state. -/
theorem liteMode_indistinguishable (config : Config) (now : UInt64) (tip : Option ChainTip)
    (es : List Event) (hes : ∀ tx, .submit tx ∈ es → tx.verifies = true) :
    let lite := start { config with liteMode := true } now tip
    let full := start { config with liteMode := false } now tip
    lite.answers es = (full.answers es).map (·.inMode true) ∧
    full.answers es = (lite.answers es).map (·.inMode false) ∧
    lite.run es = { full.run es with config := lite.config } := by
  intro lite full
  have hnobody (config : Config) : (start config now tip).Genuine := by
    intro c hc
    cases hc
  have hlite := (hnobody full.config).run_inMode (wellFormed_start full.config now tip) true hes
  have hfull := (hnobody lite.config).run_inMode (wellFormed_start lite.config now tip) false hes
  refine ⟨hlite.2, hfull.2, hlite.1.trans ?_⟩
  rw [inMode, config_run]
  rfl

/-- A signed payment is submitted, counted and imported. -/
def purchase : List Event := [.submit payment, .ask .status, .cycle {}, .ask .status]

theorem liteMode_indistinguishable_purchase :
    let lite := start { liteMode := true } 0 none
    let full := start {} 0 none
    (∀ tx, .submit tx ∈ purchase → tx.verifies = true) ∧
    lite.answers purchase = (full.answers purchase).map (·.inMode true) ∧
    full.answers purchase = (lite.answers purchase).map (·.inMode false) ∧
    lite.run purchase = { full.run purchase with config := lite.config } ∧
    (lite.run purchase).environment.repository.stored = [payment] := by
  intro lite full
  have hfacts : payment.verifies = true ∧
      (lite.run purchase).environment.repository.stored = [payment] := by decide +kernel
  have hgenuine : ∀ tx, .submit tx ∈ purchase → tx.verifies = true := by
    intro tx htx
    rcases List.mem_cons.mp htx with h | h
    · cases h
      exact hfacts.1
    · simp at h
  obtain ⟨hlite, hfull, hrun⟩ := liteMode_indistinguishable {} 0 none purchase hgenuine
  exact ⟨hgenuine, hlite, hfull, hrun, hfacts.2⟩

end Pipeline
end ChainNode.Admission
