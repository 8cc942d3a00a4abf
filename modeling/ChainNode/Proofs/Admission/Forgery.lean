import ChainNode.Proofs.Admission.Announcing
import ChainNode.Proofs.Admission.Restriction
import ChainNode.Proofs.Admission.Surroundings
import ChainNode.Proofs.Admission.Vetting

/-!
# Forged traffic

Submissions whose signatures do not verify can be left out of a run, and nobody else notices: they are
queued and barred under signatures of their own, they never get a tag, and a batch does not come to see
what has none. Only the counts of all that is queued, removed and barred give them away.
-/

namespace ChainNode.Admission

/-! ## Two runs -/

/-- Both orders go through what is not forged in the same way. -/
structure WalkOrder.Alike (forged : Signature → Bool) (order order' : WalkOrder) : Prop where
  judging : RanksAlike forged order.judging order'.judging
  importing : RanksAlike forged order.importing order'.importing

def Question.names : Question → List Signature
  | .unknownSignatures signatures => signatures
  | .isQueued s => [s]
  | .isCoolingDown s => [s]
  | .cooldownExpiry s => [s]
  | _ => []

def Change.names : Change → List Signature
  | .insertStored tx => [tx.signature]
  | .script s _ => [s]
  | _ => []

/-- The signatures that occur in the event. -/
def Event.names : Event → List Signature
  | .submit tx => [tx.signature]
  | .ask q => q.names
  | .change c => c.names
  | _ => []

def Event.isForgery (forged : Signature → Bool) : Event → Bool
  | .submit tx => forged tx.signature
  | _ => false

/-- The same event in both runs. No forged signature occurs in it, and a cycle goes through all others
in the same order. -/
inductive Common (forged : Signature → Bool) : Event → Event → Prop
  | cycle {order order' : WalkOrder} (alike : order.Alike forged order') :
    Common forged (.cycle order) (.cycle order')
  | same {e : Event} (honest : ∀ s ∈ e.names, forged s = false) : Common forged e e

theorem Common.honest {forged : Signature → Bool} {e e' : Event} (h : Common forged e e') :
    ∀ s ∈ e'.names, forged s = false := by
  cases h with
  | cycle alike => exact fun s hs => absurd hs List.not_mem_nil
  | same honest => exact honest

theorem Common.isForgery {forged : Signature → Bool} {e e' : Event} (h : Common forged e e') :
    e'.isForgery forged = false := by
  cases e' with
  | submit tx => exact h.honest tx.signature List.mem_cons_self
  | _ => rfl

/-- The second run is the first with forged submissions in between. -/
inductive Inserted (forged : Signature → Bool) : List Event → List Event → Prop
  | nil : Inserted forged [] []
  | common {e e' : Event} {es fs : List Event} (here : Common forged e e')
    (rest : Inserted forged es fs) : Inserted forged (e :: es) (e' :: fs)
  | forged {tx : Transaction} {es fs : List Event} (bad : tx.verifies = false)
    (own : forged tx.signature = true) (rest : Inserted forged es fs) :
    Inserted forged es (.submit tx :: fs)

/-- The report without the counts to which forgeries can add. -/
def CycleReport.veiled (r : CycleReport) : CycleReport :=
  { r with expired := 0, rejected := 0, purged := 0 }

def Answer.veiled : Answer → Answer
  | .report r => .report r.veiled
  | .status s => .status { s with pending := 0, invalid := 0 }
  | answer => answer

namespace Pipeline

/-- The answers of a run, but for those to forged submissions. -/
def answersBut (forged : Signature → Bool) (p : Pipeline) : List Event → List Answer
  | [] => []
  | e :: es =>
    if e.isForgery forged then (p.step e).2.answersBut forged es
    else (p.step e).1 :: (p.step e).2.answersBut forged es

/-- The pipelines differ at most in what they hold under forged signatures. -/
structure SameBut (forged : Signature → Bool) (p p' : Pipeline) : Prop where
  queued : ∀ s, forged s = false → p.queue.get? s = p'.queue.get? s
  barred : ∀ s, forged s = false → p.cooldowns.expiry? s = p'.cooldowns.expiry? s
  stopRequested : p.stopRequested = p'.stopRequested
  environment : p.environment = p'.environment

/-! ## No forgery is tagged -/

/-- What is queued under a forged signature has no tag, and will not get one. -/
structure Guarded (forged : Signature → Bool) (p : Pipeline) : Prop where
  wellFormed : p.WellFormed
  full : p.config.liteMode = false
  untagged : ∀ c ∈ p.queue.candidates, forged c.signature = true →
    c.isValid = false ∧ c.transaction.verifies = false

variable {forged : Signature → Bool} {p : Pipeline} {s : Signature} {c d : Candidate}
  {order order' : WalkOrder} {rank rank' : Signature → Nat} {tx : Transaction} {q : SaveRequest}
  {e e' : Event} {es fs : List Event}

theorem Guarded.honest_of_isValid (h : p.Guarded forged) (hc : c ∈ p.queue.candidates)
    (hvalid : c.isValid = true) : forged c.signature = false := by
  cases hs : forged c.signature with
  | false => rfl
  | true =>
    rw [(h.untagged c hc hs).1] at hvalid
    cases hvalid

theorem Guarded.untagged_of_judged (h : p.Guarded forged) (hc : p.queue.get? s = some c)
    (hd : (p.judgedAs s).leave c = some d) (hs : forged s = true) :
    d.isValid = false ∧ d.transaction.verifies = false := by
  obtain ⟨hmem, rfl⟩ := Queue.mem_of_get? hc
  obtain ⟨hvalid, hbad⟩ := h.untagged c hmem hs
  refine ⟨?_, (congrArg _ (transaction_of_leave hd)).trans hbad⟩
  cases hd' : d.isValid with
  | false => rfl
  | true =>
    rcases h.wellFormed.verifies_of_judged h.full hc hd hd' with htagged | hverifies
    · rw [htagged] at hvalid
      cases hvalid
    · rw [hverifies] at hbad
      cases hbad

theorem Guarded.judged (h : p.Guarded forged) (order : WalkOrder) :
    (p.judged order).Guarded forged := by
  refine ⟨h.wellFormed.judged order, by rw [config_judged]; exact h.full, ?_⟩
  intro d hd hs
  have hget := (h.wellFormed.judged order).queue.get?_signature hd
  rw [h.wellFormed.get?_judged] at hget
  obtain ⟨c, hc, hleave⟩ := Option.bind_eq_some_iff.mp hget
  exact h.untagged_of_judged hc hleave hs

theorem Guarded.opened (h : p.Guarded forged) (order : WalkOrder) (hgo : p.stopRequested = false) :
    (p.opened order).pipeline.Guarded forged := by
  rw [pipeline_opened order hgo]
  exact h.judged order

theorem Guarded.cycle (h : p.Guarded forged) (order : WalkOrder) :
    (p.cycle order).2.Guarded forged := by
  refine ⟨h.wellFormed.cycle order, by rw [config_cycle]; exact h.full, ?_⟩
  intro d hd hs
  have hget := (h.wellFormed.cycle order).queue.get?_signature hd
  obtain ⟨c, hc, hleave, -⟩ := h.wellFormed.exists_of_get?_cycle hget
  exact h.untagged_of_judged hc hleave hs

theorem Guarded.submit (h : p.Guarded forged)
    (htx : forged tx.signature = true → tx.verifies = false) : (p.submit tx).2.Guarded forged := by
  refine ⟨h.wellFormed.submit tx, by rw [config_submit]; exact h.full, ?_⟩
  intro d hd hs
  rcases mem_of_mem_submit hd with hold | rfl
  · exact h.untagged d hold hs
  · exact ⟨rfl, htx hs⟩

theorem Guarded.step (h : p.Guarded forged) (honest : ∀ s ∈ e.names, forged s = false) :
    (p.step e).2.Guarded forged := by
  cases e with
  | submit tx =>
    apply h.submit
    intro hs
    rw [honest tx.signature List.mem_cons_self] at hs
    cases hs
  | cycle order => exact h.cycle order
  | requestStop => exact ⟨h.wellFormed.step .requestStop, h.full, h.untagged⟩
  | ask question => exact h
  | change change => exact ⟨h.wellFormed.step (.change change), h.full, h.untagged⟩

/-! ## What leaves the queue is not forged -/

/-- No forgery was handed over, stored or announced. -/
structure Clean (forged : Signature → Bool) (e : Environment) : Prop where
  requests : ∀ q ∈ e.repository.requests, forged q.transaction.signature = false
  stored : ∀ tx ∈ e.repository.stored, forged tx.signature = false
  messages : ∀ signatures ∈ e.broadcaster.messages, ∀ s ∈ signatures, forged s = false

theorem Guarded.honest_of_mem_requestsOf (h : p.Guarded forged) (hq : q ∈ p.requestsOf order) :
    forged q.transaction.signature = false := by
  obtain ⟨c, d, hc, -, hd, hvalid⟩ := h.wellFormed.get?_of_mem_requestsOf hq
  cases hs : forged q.transaction.signature with
  | false => rfl
  | true =>
    rw [(h.untagged_of_judged hc hd hs).1] at hvalid
    cases hvalid

theorem Clean.cycle (hclean : Clean forged p.environment) (h : p.Guarded forged)
    (order : WalkOrder) : Clean forged (p.cycle order).2.environment := by
  have hstores : ∀ tx ∈ p.storesOf order, forged tx.signature = false := by
    intro tx htx
    rw [storesOf_eq] at htx
    obtain ⟨q, hq, rfl⟩ := List.mem_map.mp htx
    exact h.honest_of_mem_requestsOf (List.mem_filter.mp hq).1
  refine ⟨?_, ?_, ?_⟩
  · intro q hq
    rw [requests_cycle] at hq
    rcases List.mem_append.mp hq with hold | hnew
    · exact hclean.requests q hold
    · exact h.honest_of_mem_requestsOf hnew
  · intro tx htx
    rw [stored_cycle_eq] at htx
    rcases List.mem_append.mp htx with hold | hnew
    · exact hclean.stored tx hold
    · exact hstores tx hnew
  · intro signatures hsent s hs
    rw [messages_cycle] at hsent
    rcases List.mem_append.mp hsent with hold | hnew
    · exact hclean.messages signatures hold s hs
    · split at hnew
      · cases hnew
      · rw [List.mem_singleton.mp hnew] at hs
        obtain ⟨tx, htx, rfl⟩ := List.mem_map.mp hs
        exact hstores tx htx

theorem Clean.submit (hclean : Clean forged p.environment) (tx : Transaction) :
    Clean forged (p.submit tx).2.environment := by
  rw [environment_submit]
  exact hclean

theorem Clean.step (hclean : Clean forged p.environment) (h : p.Guarded forged)
    (honest : ∀ s ∈ e.names, forged s = false) : Clean forged (p.step e).2.environment := by
  cases e with
  | submit tx => exact hclean.submit tx
  | cycle order => exact hclean.cycle h order
  | requestStop => exact hclean
  | ask question => exact hclean
  | change change =>
    cases change with
    | insertStored tx =>
      refine ⟨hclean.requests, ?_, hclean.messages⟩
      intro u hu
      rcases List.mem_append.mp hu with hold | hnew
      · exact hclean.stored u hold
      · rw [List.mem_singleton.mp hnew]
        exact honest _ List.mem_cons_self
    | _ => exact ⟨hclean.requests, hclean.stored, hclean.messages⟩

/-! ## Judging without the forgeries -/

theorem WellFormed.without (h : p.WellFormed) (hidden : Signature → Bool) :
    (p.without hidden).WellFormed :=
  ⟨h.queue.sublist (List.filter_sublist.map _), h.cooldowns.sublist (List.filter_sublist.map _)⟩

theorem judged_without (h : order.Alike forged order') (p : Pipeline) :
    (p.without forged).judged order = (p.judged order').without forged := by
  have hrulings : (p.without forged).firstRulings order =
      (p.firstRulings order').filter (!forged ·.1) := by
    unfold firstRulings
    rw [judgements_without h.judging]
    show (if p.stopRequested then _ else _) = _
    split <;> rfl
  rw [judged, judged, hrulings, without_ruleAll]

section
variable (h : p.Guarded forged)
include h

theorem Guarded.validatedSize_without :
    (p.without forged).queue.validatedSize = p.queue.validatedSize :=
  Queue.countP_without fun _ hc => h.honest_of_isValid hc

theorem Guarded.walkValidated_without (hranks : RanksAlike forged rank rank') :
    (p.without forged).queue.walkValidated rank = p.queue.walkValidated rank' := by
  have hwalk : (p.without forged).queue.walk rank = _ := p.queue.walk_without hranks
  rw [Queue.walkValidated, Queue.walkValidated, hwalk, List.filter_filter]
  congr 1
  -- the tag alone already picks out honest candidates
  apply List.filter_congr
  intro c hc
  cases hvalid : c.isValid with
  | false => rfl
  | true =>
    rw [h.honest_of_isValid (Queue.mem_walk.mp hc) hvalid]
    rfl

theorem Guarded.judgedCount_without :
    (p.without forged).judgedCount .valid = p.judgedCount .valid := by
  have htip : (p.without forged).environment.chain.currentTip = p.environment.chain.currentTip := rfl
  unfold judgedCount
  rw [htip]
  split
  · rfl
  · rename_i tip _
    apply Queue.countP_without
    intro c hc hfound
    have hvalid : verdict p.config tip c = .valid := of_decide_eq_true hfound
    cases hs : forged c.signature with
    | false => rfl
    | true =>
      -- a forgery without a tag is found expired or bad
      rw [verdict_eq, h.full, (h.untagged c hc hs).1, (h.untagged c hc hs).2] at hvalid
      split at hvalid <;> cases hvalid

end
end Pipeline

/-! ## A cycle without the forgeries -/

namespace Cycle

/-- The first cycle is the second without the forgeries. -/
structure Shows (forged : Signature → Bool) (c c' : Cycle) : Prop where
  pipeline : c.pipeline = c'.pipeline.without forged
  report : c.report.veiled = c'.report.veiled

variable {forged : Signature → Bool} {c c' : Cycle} {p : Pipeline} {order order' : WalkOrder}

theorem shows_opened (h : p.Guarded forged) (horder : order.Alike forged order')
    (hgo : p.stopRequested = false) :
    ((p.without forged).opened order).Shows forged (p.opened order') := by
  have hpipeline : ((p.without forged).opened order).pipeline =
      (p.opened order').pipeline.without forged := by
    rw [Pipeline.pipeline_opened order (p := p.without forged) hgo,
      Pipeline.pipeline_opened order' hgo, Pipeline.judged_without horder]
  refine ⟨hpipeline, ?_⟩
  rw [(h.wellFormed.without forged).report_opened, h.wellFormed.report_opened, hpipeline,
    (h.opened order' hgo).validatedSize_without]
  unfold CycleReport.judging CycleReport.veiled
  rw [h.judgedCount_without]

theorem honest_of_mem_course {q : SaveRequest} (h : c.pipeline.Guarded forged)
    (hq : q ∈ (c.course order).requests) : forged q.transaction.signature = false := by
  have hmem := (c.asked_course order).subset (List.mem_map_of_mem hq)
  obtain ⟨d, hd, hvalid, htx⟩ := Queue.mem_walkValidated.mp hmem
  rw [← htx]
  exact h.honest_of_isValid hd hvalid

theorem Shows.follow (h : c.Shows forged c') {o : Course}
    (honest : ∀ q ∈ o.requests, forged q.transaction.signature = false) :
    (c.follow o).Shows forged (c'.follow o) := by
  -- no ruling of the course is on a forgery
  have hall : (o.requests.map (·.ruled c'.pipeline.config)).filter (!forged ·.1) =
      o.requests.map (·.ruled c'.pipeline.config) := by
    rw [List.filter_eq_self]
    intro x hx
    obtain ⟨q, hq, rfl⟩ := List.mem_map.mp hx
    exact Bool.not_eq_true' _ |>.mpr (honest q hq)
  constructor
  · have hruled : (c'.pipeline.ruleAll (o.requests.map (·.ruled c'.pipeline.config))).without
        forged = _ := c'.pipeline.without_ruleAll _
    rw [hall] at hruled
    unfold Cycle.follow
    rw [h.pipeline]
    exact congrArg (fun p : Pipeline => p.within o.environment o.stopRequested) hruled.symm
  · exact congrArg (fun r : CycleReport => { (r.importing o.requests).veiled with
      importSkipped := o.skipped
      importInterrupted := o.interrupted }) h.report

theorem Shows.importTagged (h : c.Shows forged c') (hguarded : c'.pipeline.Guarded forged)
    (horder : order.Alike forged order') :
    (c.importTagged order).1.Shows forged (c'.importTagged order').1 ∧
      (c.importTagged order).2 = (c'.importTagged order').2 := by
  have htxs : c.pipeline.queue.walkValidated order.importing =
      c'.pipeline.queue.walkValidated order'.importing := by
    rw [h.pipeline]
    exact hguarded.walkValidated_without horder.importing
  have halike : c.Alike c' := by
    have hflags : c.report.veiled.flags = c'.report.veiled.flags :=
      congrArg CycleReport.flags h.report
    exact ⟨by rw [h.pipeline]; rfl, hflags⟩
  have hcourse : c.course order = c'.course order' :=
    halike.course (by rw [h.pipeline]; rfl) htxs
  refine ⟨?_, (halike.importTagged htxs).2⟩
  -- both phases take one course, so it is followed from two pipelines
  rw [importTagged_eq_follow, importTagged_eq_follow, hcourse]
  exact h.follow fun q hq => honest_of_mem_course hguarded hq

theorem Shows.cleanUp (h : c.Shows forged c') : c.cleanUp.Shows forged c'.cleanUp := by
  constructor
  · unfold Cycle.cleanUp
    rw [h.pipeline]
    exact congrArg (fun cooldowns : Cooldowns => { c'.pipeline.without forged with cooldowns })
      (c'.pipeline.cooldowns.purge_without c'.pipeline.environment.now)
  · exact h.report

end Cycle

namespace Pipeline

variable {forged : Signature → Bool} {p : Pipeline} {s : Signature} {c d : Candidate}
  {order order' : WalkOrder} {tx : Transaction} {e e' : Event} {es fs : List Event}

theorem Guarded.cycle_without (h : p.Guarded forged) (horder : order.Alike forged order') :
    ((p.without forged).cycle order).2 = (p.cycle order').2.without forged ∧
      ((p.without forged).cycle order).1.veiled = (p.cycle order').1.veiled := by
  cases hgo : p.stopRequested with
  | true =>
    have hgo' : (p.without forged).stopRequested = true := hgo
    rw [cycle_of_stopRequested order hgo', cycle_of_stopRequested order' hgo]
    exact ⟨rfl, rfl⟩
  | false =>
    have hgo' : (p.without forged).stopRequested = false := hgo
    obtain ⟨hshows, hfailure⟩ :=
      (Cycle.shows_opened h horder hgo).importTagged (h.opened order' hgo) horder
    rw [cycle_eq_cleanUp order hgo', cycle_eq_cleanUp order' hgo, hfailure]
    split
    · exact ⟨hshows.pipeline, congrArg (fun r : CycleReport => { r with stopped := true })
        hshows.report⟩
    · exact ⟨hshows.cleanUp.pipeline, hshows.cleanUp.report⟩

/-! ## Steps and runs -/

theorem isCoolingDown_without (hs : forged s = false) (p : Pipeline) :
    (p.without forged).isCoolingDown s = p.isCoolingDown s := by
  have hexpiry : (p.without forged).cooldowns.expiry? s = p.cooldowns.expiry? s :=
    p.cooldowns.expiry?_without hs
  unfold isCoolingDown Cooldowns.isCoolingDown
  rw [hexpiry]
  rfl

theorem submit_without (htx : forged tx.signature = false) (p : Pipeline) :
    (p.without forged).submit tx = (p.submit tx).map id (·.without forged) := by
  have hinsert : (p.without forged).queue.insertIfAbsent
      ⟨tx, .unvalidated, (p.without forged).environment.now⟩ =
      (p.queue.insertIfAbsent ⟨tx, .unvalidated, p.environment.now⟩).map id (·.without forged) :=
    p.queue.insertIfAbsent_without htx
  unfold submit
  rw [isCoolingDown_without htx]
  split
  · rfl
  · rw [hinsert]
    cases p.queue.insertIfAbsent ⟨tx, .unvalidated, p.environment.now⟩ with
    | mk isNew queue => cases isNew <;> rfl

theorem without_submit (htx : forged tx.signature = true) (p : Pipeline) :
    (p.submit tx).2.without forged = p.without forged := by
  rcases p.submit_cases tx with ⟨-, -, heq⟩ | ⟨-, -, -, heq⟩ | ⟨-, -, -, heq⟩
  · rw [heq]
  · rw [heq]
  · rw [heq]
    have hqueue : (p.queue.insertIfAbsent ⟨tx, .unvalidated, p.environment.now⟩).2.without forged =
        p.queue.without forged := p.queue.without_insertIfAbsent htx
    exact congrArg (fun queue : Queue => { p.without forged with queue }) hqueue

theorem unknownSignatures_without {signatures : List Signature}
    (h : ∀ s ∈ signatures, forged s = false) (p : Pipeline) :
    (p.without forged).unknownSignatures signatures = p.unknownSignatures signatures := by
  induction signatures with
  | nil => rfl
  | cons s signatures ih =>
    have hs := h s List.mem_cons_self
    have hcontains : (p.without forged).queue.contains s = p.queue.contains s :=
      p.queue.contains_without hs
    unfold unknownSignatures
    rw [hcontains, isCoolingDown_without hs, ih fun t ht => h t (List.mem_cons_of_mem s ht)]
    rfl

theorem Guarded.answer_without (h : p.Guarded forged) {question : Question}
    (hnames : ∀ s ∈ question.names, forged s = false) :
    ((p.without forged).answer question).veiled = (p.answer question).veiled := by
  cases question with
  | unknownSignatures signatures => exact congrArg Answer.signatures (p.unknownSignatures_without hnames)
  | isQueued s => exact congrArg Answer.flag (p.queue.contains_without (hnames s List.mem_cons_self))
  | isCoolingDown s =>
    exact congrArg Answer.flag (p.isCoolingDown_without (hnames s List.mem_cons_self))
  | cooldownExpiry s =>
    exact congrArg Answer.time (p.cooldowns.expiry?_without (hnames s List.mem_cons_self))
  | status =>
    exact congrArg (fun validated => Answer.status ⟨0, validated, 0, p.config.liteMode⟩)
      h.validatedSize_without
  | isStopped => rfl
  | now => rfl

theorem Guarded.step_without (h : p.Guarded forged) (he : Common forged e e') :
    ((p.without forged).step e).2 = (p.step e').2.without forged ∧
      ((p.without forged).step e).1.veiled = (p.step e').1.veiled := by
  cases he with
  | cycle horder =>
    obtain ⟨hpipeline, hreport⟩ := h.cycle_without horder
    exact ⟨hpipeline, congrArg Answer.report hreport⟩
  | same hnames =>
    cases e with
    | submit tx =>
      have hsubmit := p.submit_without (hnames tx.signature List.mem_cons_self)
      have houtcome : ((p.without forged).submit tx).1 = (p.submit tx).1 :=
        (congrArg Prod.fst hsubmit).trans rfl
      exact ⟨congrArg Prod.snd hsubmit, congrArg Answer.outcome houtcome⟩
    | cycle order =>
      have horder : order.Alike forged order := ⟨fun _ _ _ _ => Iff.rfl, fun _ _ _ _ => Iff.rfl⟩
      obtain ⟨hpipeline, hreport⟩ := h.cycle_without horder
      exact ⟨hpipeline, congrArg Answer.report hreport⟩
    | requestStop => exact ⟨rfl, rfl⟩
    | ask question => exact ⟨rfl, h.answer_without hnames⟩
    | change change => exact ⟨rfl, rfl⟩

theorem Guarded.run_without (h : p.Guarded forged) (hclean : Clean forged p.environment)
    (hes : Inserted forged es fs) :
    (p.without forged).run es = (p.run fs).without forged ∧
      ((p.without forged).answers es).map (·.veiled) = (p.answersBut forged fs).map (·.veiled) ∧
      Clean forged (p.run fs).environment := by
  induction hes generalizing p with
  | nil => exact ⟨rfl, rfl, hclean⟩
  -- the first run stands still, and what the second takes in is left out
  | forged bad own rest ih =>
    obtain ⟨hrun, hanswers, hlast⟩ := ih (h.submit fun _ => bad) (hclean.submit _)
    rw [without_submit own] at hrun hanswers
    refine ⟨hrun, ?_, hlast⟩
    rw [answersBut, Event.isForgery, if_pos own]
    exact hanswers
  | common here rest ih =>
    obtain ⟨hpipeline, hanswer⟩ := h.step_without here
    obtain ⟨hrun, hanswers, hlast⟩ := ih (h.step here.honest) (hclean.step h here.honest)
    rw [← hpipeline] at hrun hanswers
    refine ⟨hrun, ?_, hlast⟩
    rw [answers, answersBut, here.isForgery, if_neg Bool.false_ne_true, List.map_cons,
      List.map_cons, hanswer, hanswers]

theorem sameBut_without (p : Pipeline) : SameBut forged (p.without forged) p :=
  ⟨fun _ hs => p.queue.get?_without hs, fun _ hs => p.cooldowns.expiry?_without hs, rfl, rfl⟩

/-- Without lite mode, submissions that do not verify change nothing for anybody else, as long as their
signatures are their own. Whatever is queued, tagged or barred under other signatures is the same without
them at every moment, and so are the repository, the lock, the announcements and what every step is
answered, but for the counts of all that is queued, removed and barred. None of them gets past the
queue. -/
theorem forgeries_invisible (config : Config) (now : UInt64) (tip : Option ChainTip)
    (forged : Signature → Bool) (es fs : List Event) (hfull : config.liteMode = false)
    (hes : Inserted forged es fs) :
    let p := start config now tip
    SameBut forged (p.run es) (p.run fs) ∧
    (p.answers es).map (·.veiled) = (p.answersBut forged fs).map (·.veiled) ∧
    Clean forged (p.run fs).environment := by
  intro p
  have hguarded : p.Guarded forged :=
    ⟨wellFormed_start config now tip, hfull, fun c hc => absurd hc List.not_mem_nil⟩
  have hclean : Clean forged p.environment :=
    ⟨fun q hq => absurd hq List.not_mem_nil, fun tx htx => absurd htx List.not_mem_nil,
      fun m hm => absurd hm List.not_mem_nil⟩
  obtain ⟨hrun, hanswers, hlast⟩ := hguarded.run_without hclean hes
  change p.run es = _ at hrun
  rw [hrun]
  exact ⟨sameBut_without _, hanswers, hlast⟩

/-- A signed payment is imported. -/
def trade : List Event := [.submit payment, .cycle {}]

/-- Somebody tries to get a forgery in first, and once more when it is barred. -/
def raid : List Event := .submit (sample 1) :: trade ++ [.submit (sample 1)]

theorem forgeries_invisible_raid :
    let forged : Signature → Bool := fun s => s = (sample 1).signature
    let p := start {} 0 none
    Inserted forged trade raid ∧
    SameBut forged (p.run trade) (p.run raid) ∧
    (p.answers trade).map (·.veiled) = (p.answersBut forged raid).map (·.veiled) ∧
    Clean forged (p.run raid).environment ∧
    (p.run raid).environment.repository.stored = [payment] ∧ (p.run raid).cooldowns.size = 1 := by
  intro forged p
  have hbad : (sample 1).verifies = false := by decide +kernel
  have hrun : forged payment.signature = false ∧
      (p.run raid).environment.repository.stored = [payment] ∧ (p.run raid).cooldowns.size = 1 := by
    decide +kernel
  have hown : forged (sample 1).signature = true := decide_eq_true rfl
  have hpayment : Common forged (.submit payment) (.submit payment) :=
    .same fun s hs => List.mem_singleton.mp hs ▸ hrun.1
  have hcycle : Common forged (.cycle {}) (.cycle {}) :=
    .same fun s hs => absurd hs List.not_mem_nil
  have hes : Inserted forged trade raid :=
    .forged hbad hown (.common hpayment (.common hcycle (.forged hbad hown .nil)))
  obtain ⟨hsame, hanswers, hclean⟩ := forgeries_invisible {} 0 none forged trade raid rfl hes
  exact ⟨hes, hsame, hanswers, hclean, hrun.2⟩

end Pipeline
end ChainNode.Admission
