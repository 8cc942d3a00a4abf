import ChainNode.Proofs.Admission.Announcing
import ChainNode.Proofs.Admission.Completion

/-!
# The order of the walk

What a cycle does about one signature depends on no other. So if nothing cuts the cycle short, every order
of the walk leads to the same end: only what is stored and announced comes in the order of the walk.
-/

namespace ChainNode.Admission

namespace SaveRequest

/-- What was asked and answered, whatever was stored at the time. -/
def bare (q : SaveRequest) : SaveRequest := { q with cache := .ofTransactions [], stored := [] }

end SaveRequest

section
variable {qs rs : List SaveRequest}

theorem importing_bare (r : CycleReport) (qs : List SaveRequest) :
    r.importing (qs.map (·.bare)) = r.importing qs := by
  simp only [CycleReport.importing, List.countP_map]
  rfl

theorem importing_perm (r : CycleReport) (h : (qs.map (·.bare)).Perm (rs.map (·.bare))) :
    r.importing qs = r.importing rs := by
  rw [← importing_bare r qs, ← importing_bare r rs]
  simp only [CycleReport.importing, h.countP_eq]

theorem savedAmong_bare (qs : List SaveRequest) :
    savedAmong (qs.map (·.bare)) = savedAmong qs := by
  rw [savedAmong, List.filter_map, List.map_map]
  rfl

theorem savedAmong_perm (h : (qs.map (·.bare)).Perm (rs.map (·.bare))) :
    (savedAmong qs).Perm (savedAmong rs) := by
  rw [← savedAmong_bare qs, ← savedAmong_bare rs]
  exact (h.filter _).map _

theorem Repository.scriptsAfter_bare (scripts : List (Signature × ImportResult)) (qs : List SaveRequest) :
    scriptsAfter scripts (qs.map (·.bare)) = scriptsAfter scripts qs := by
  rw [scriptsAfter, List.foldl_map]
  rfl

end

namespace Pipeline

variable {p : Pipeline} {q : SaveRequest}

/-! ## The judging phase -/

section
variable (order order' : WalkOrder)

theorem perm_firstRulings (p : Pipeline) :
    (p.firstRulings order).Perm (p.firstRulings order') := by
  unfold firstRulings
  split
  · exact List.Perm.nil
  · exact p.perm_judgements _ _

theorem WellFormed.queue_judged (hp : p.WellFormed) :
    (p.judged order).queue = (p.judged order').queue :=
  queue_ruleAll_perm (p.perm_firstRulings order order') (hp.nodup_firstRulings order) p

theorem WellFormed.perm_handedOver (hp : p.WellFormed) :
    ((p.judged order).queue.walkValidated order.importing).Perm
      ((p.judged order').queue.walkValidated order'.importing) := by
  rw [hp.queue_judged order order']
  exact Queue.perm_walkValidated _ _ _

end

/-! ## The import phase -/

/-- An answer is the one that the repository would have given before the cycle. -/
theorem WellFormed.bare_of_mem (hp : p.WellFormed) {order : WalkOrder}
    (hq : q ∈ p.requestsOf order) (hanswered : q.isAnswered = true) :
    q.bare = ⟨q.transaction, .ofTransactions [], [],
      .ok (p.environment.repository.answerFor q.transaction)⟩ := by
  obtain ⟨result, hresult⟩ := q.exists_answer hanswered
  have hsame := (p.logs_requestsOf order).eq_answerFor (hp.nodup_requestsOf order) hq hresult
  rw [SaveRequest.bare, hresult, hsame]

section
variable (order order' : WalkOrder) (h : p.Undisturbed p.queue.size) (hp : p.WellFormed)
include h hp

theorem Undisturbed.perm_requestsOf :
    ((p.requestsOf order).map (·.bare)).Perm ((p.requestsOf order').map (·.bare)) := by
  have hperm := hp.perm_handedOver order order'
  -- what lets a batch get under way does not depend on the order
  have hsame : p.requestsOf order ≠ [] ↔ p.requestsOf order' ≠ [] := by
    rw [requestsOf_ne_nil_iff, requestsOf_ne_nil_iff, ne_eq, ne_eq, ← List.length_eq_zero_iff,
      ← List.length_eq_zero_iff, hperm.length_eq]
  have hbare (order : WalkOrder) (hall : ∀ q ∈ p.requestsOf order, q.isAnswered = true) :
      (p.requestsOf order).map (·.bare) =
        ((p.requestsOf order).map (·.transaction)).map fun tx =>
          ⟨tx, .ofTransactions [], [], .ok (p.environment.repository.answerFor tx)⟩ := by
    rw [List.map_map]
    exact List.map_congr_left fun q hq => hp.bare_of_mem hq (hall q hq)
  rcases (h.completes hp order).2 with hnone | ⟨hasked, hall⟩
  · have hnone' : p.requestsOf order' = [] := by
      by_contra hsome
      exact hsame.mpr hsome hnone
    rw [hnone, hnone']
  · rcases (h.completes hp order').2 with hnone' | ⟨hasked', hall'⟩
    · have hnone : p.requestsOf order = [] := by
        by_contra hsome
        exact hsame.mp hsome hnone'
      rw [hnone, hnone']
    · rw [hbare order hall, hbare order' hall', hasked, hasked']
      exact hperm.map _

theorem Undisturbed.perm_lastRulings : (p.lastRulings order).Perm (p.lastRulings order') := by
  have hbare (order : WalkOrder) :
      p.lastRulings order = ((p.requestsOf order).map (·.bare)).map (·.ruled p.config) := by
    rw [List.map_map]
    rfl
  rw [hbare order, hbare order']
  exact (h.perm_requestsOf order order' hp).map _

theorem Undisturbed.queue_cycle : (p.cycle order).2.queue = (p.cycle order').2.queue := by
  obtain ⟨p', hp'⟩ := p.exists_imported order
  obtain ⟨p'', hp''⟩ := p.exists_imported order'
  rw [queue_cycle_of_imported hp', queue_cycle_of_imported hp'',
    queue_ruleAll_perm (h.perm_lastRulings order order' hp) (hp.nodup_lastRulings order)]
  -- the two judged pipelines differ in the order of their cool-downs only
  apply congrArg Queue.mk
  rw [candidates_ruleAll (hp.nodup_lastRulings order'), hp.queue_judged order order',
    ← candidates_ruleAll (hp.nodup_lastRulings order')]

theorem Undisturbed.perm_cooldownsLeft :
    (p.cooldownsLeft order).expiries.Perm (p.cooldownsLeft order').expiries := by
  refine (hp.cooldownsLeft order).perm_of_expiry? (hp.cooldownsLeft order') fun s => ?_
  have hsettled : p.settledAs order s = p.settledAs order' s :=
    Ruling.on_perm (h.perm_lastRulings order order' hp) (hp.nodup_lastRulings order) s
  rw [hp.expiry?_cooldownsLeft, hp.expiry?_cooldownsLeft, hsettled]

end

/-! ## The report -/

theorem GoesOn.importSkipped_cycle (h : p.GoesOn) (hp : p.WellFormed) (order : WalkOrder) :
    (p.cycle order).1.importSkipped =
      if ((p.judged order).queue.walkValidated order.importing).isEmpty then none
      else if p.isSynchronizing.1 then some .synchronizing
      else if p.environment.chain.lock.held then some .chainLockBusy
      else none := by
  have hskipped := (p.opened order).importSkipped_importTagged order
  have hfresh : (p.opened order).report.importSkipped = none := by
    rw [hp.report_opened order]
    rfl
  rw [hfresh, fst_isSynchronizing, environment_opened, pipeline_opened order h.going] at hskipped
  rw [h.cycle_eq, fst_isSynchronizing]
  exact hskipped

theorem GoesOn.report_cycle (h : p.GoesOn) (hp : p.WellFormed) (order : WalkOrder) :
    (p.cycle order).1 =
      { (({} : CycleReport).judging p.judgedCount).importing (p.requestsOf order) with
        pendingImport := (p.judged order).queue.validatedSize
        purged := ((p.cooldownsLeft order).purge p.environment.now).1
        importSkipped := (p.cycle order).1.importSkipped
        importInterrupted := (p.cycle order).1.importInterrupted } := by
  have hpurged := congrArg Prod.fst (h.cleanUp_cycle order)
  have haccount := (accounts_opened order h.going).1.report
  rw [hp.report_opened order, pipeline_opened order h.going] at haccount
  rw [← hpurged, h.cycle_eq, Cycle.cleanUp]
  generalize ((p.opened order).importTagged order).1.report = report at haccount
  dsimp only
  rw [haccount]
  rfl

theorem Undisturbed.report_cycle (h : p.Undisturbed p.queue.size) (hp : p.WellFormed)
    (order order' : WalkOrder) : (p.cycle order).1 = (p.cycle order').1 := by
  have hskipped : (p.cycle order).1.importSkipped = (p.cycle order').1.importSkipped := by
    rw [h.goes.importSkipped_cycle hp, h.goes.importSkipped_cycle hp,
      (hp.perm_handedOver order order').isEmpty_eq]
  rw [h.goes.report_cycle hp order, h.goes.report_cycle hp order', hskipped,
    importing_perm _ (h.perm_requestsOf order order' hp), hp.queue_judged order order',
    Cooldowns.fst_purge_perm (h.perm_cooldownsLeft order order' hp),
    (h.completes hp order).1, (h.completes hp order').1]

/-! ## Any order will do -/

/-- The cycle comes to the same end in both orders. What is stored and announced is the same, but for
the order in which it comes. -/
structure SameEnd (p : Pipeline) (order order' : WalkOrder) : Prop where
  report : (p.cycle order).1 = (p.cycle order').1
  queue : (p.cycle order).2.queue = (p.cycle order').2.queue
  cooldowns : (p.cycle order).2.cooldowns.expiries.Perm (p.cycle order').2.cooldowns.expiries
  expiry : ∀ s, (p.cycle order).2.cooldowns.expiry? s = (p.cycle order').2.cooldowns.expiry? s
  scripts : (p.cycle order).2.environment.repository.scripts =
    (p.cycle order').2.environment.repository.scripts
  stores : (p.storesOf order).Perm (p.storesOf order')
  announces : ∃ sent sent',
    (p.cycle order).2.environment.broadcaster.messages =
      p.environment.broadcaster.messages ++ sent ∧
    (p.cycle order').2.environment.broadcaster.messages =
      p.environment.broadcaster.messages ++ sent' ∧ List.Forall₂ List.Perm sent sent'

theorem exists_messages_cycle {order order' : WalkOrder}
    (h : (p.storesOf order).Perm (p.storesOf order')) :
    ∃ sent sent',
      (p.cycle order).2.environment.broadcaster.messages =
        p.environment.broadcaster.messages ++ sent ∧
      (p.cycle order').2.environment.broadcaster.messages =
        p.environment.broadcaster.messages ++ sent' ∧ List.Forall₂ List.Perm sent sent' := by
  refine ⟨_, _, p.messages_cycle order, p.messages_cycle order', ?_⟩
  rw [h.isEmpty_eq]
  split
  · exact .nil
  · exact .cons (h.map _) .nil

theorem sameEnd_of_stopRequested (h : p.stopRequested = true) (order order' : WalkOrder) :
    p.SameEnd order order' := by
  have hcycle : p.cycle order = p.cycle order' := by
    rw [cycle_of_stopRequested order h, cycle_of_stopRequested order' h]
  have hstores : (p.storesOf order).Perm (p.storesOf order') := by
    rw [storesOf, storesOf, hcycle]
  exact ⟨by rw [hcycle], by rw [hcycle], by rw [hcycle], fun s => by rw [hcycle], by rw [hcycle],
    hstores, exists_messages_cycle hstores⟩

theorem Undisturbed.sameEnd (h : p.Undisturbed p.queue.size) (hp : p.WellFormed)
    (order order' : WalkOrder) : p.SameEnd order order' := by
  have hrequests := h.perm_requestsOf order order' hp
  have hcooldowns : (p.cycle order).2.cooldowns.expiries.Perm
      (p.cycle order').2.cooldowns.expiries := by
    have hpurged (order : WalkOrder) : (p.cycle order).2.cooldowns =
        ((p.cooldownsLeft order).purge p.environment.now).2 :=
      congrArg Prod.snd (h.goes.cleanUp_cycle order)
    rw [hpurged order, hpurged order']
    exact (h.perm_cooldownsLeft order order' hp).filter _
  have hstores : (p.storesOf order).Perm (p.storesOf order') := by
    rw [storesOf_eq, storesOf_eq]
    exact savedAmong_perm hrequests
  refine ⟨h.report_cycle hp order order', h.queue_cycle order order' hp, hcooldowns, ?_, ?_,
    hstores, exists_messages_cycle hstores⟩
  · intro s
    apply Option.ext
    intro expiry
    rw [← (hp.cycle order).cooldowns.mem_iff, ← (hp.cycle order').cooldowns.mem_iff,
      hcooldowns.mem_iff]
  · rw [repository_cycle, repository_cycle, (p.logs_requestsOf order).scripts_replay,
      (p.logs_requestsOf order').scripts_replay, ← Repository.scriptsAfter_bare,
      ← Repository.scriptsAfter_bare _ (p.requestsOf order')]
    exact Repository.scriptsAfter_perm hrequests _

/-- If no countdown is under way, it does not matter in which order a cycle goes through the queue. -/
theorem cycle_order_irrelevant (config : Config) (now : UInt64) (tip : Option ChainTip)
    (es : List Event) (order order' : WalkOrder) :
    let p := (start config now tip).run es
    p.environment.sync.pendingAfter = none → p.environment.sync.stopAfter = none →
    p.environment.repository.savesLeft = none → p.SameEnd order order' := by
  intro p hpending hstop hsaves
  have hp : p.WellFormed := (wellFormed_start config now tip).run es
  cases hrequested : p.stopRequested with
  | true => exact sameEnd_of_stopRequested hrequested order order'
  | false =>
    have h : p.Undisturbed p.queue.size := by
      refine ⟨⟨hrequested, hstop⟩, ?_, ?_⟩
      · rw [hpending]
        exact fun left hleft => by cases hleft
      · rw [hsaves]
        exact fun left hleft => by cases hleft
    exact h.sameEnd hp order order'

/-- Three payments wait. The repository is to put the second off and to refuse the third. -/
def assortment : List Event :=
  [.submit (sample 1), .submit (sample 2), .submit (sample 3), .submit (sample 4),
    .change (.script (sample 2).signature .lockUnavailable),
    .change (.script (sample 3).signature (.invalid .insufficientFee))]

/-- The first payment comes last. -/
def firstLast : WalkOrder where
  importing s := if s = (sample 1).signature then 1 else 0

theorem cycle_order_irrelevant_assortment :
    let p := (start { liteMode := true } 2000 (some ⟨100, 2000⟩)).run assortment
    p.storesOf {} = [sample 1, sample 4] ∧ p.storesOf firstLast = [sample 4, sample 1] ∧
      p.SameEnd {} firstLast := by
  refine ⟨by decide, by decide, ?_⟩
  exact cycle_order_irrelevant _ _ _ _ _ _ (by decide) (by decide) (by decide)

end Pipeline
end ChainNode.Admission
