import ChainNode.Proofs.Admission.Cycle
import ChainNode.Proofs.Admission.Repository

/-!
# What a batch accounts for

A batch counts every answer of the repository in the report and announces exactly what was saved. It
comes to its end with all transactions answered, on an interruption, or on the first request that fails.
-/

namespace ChainNode.Admission

/-- The report with the answers to these requests counted in. -/
def CycleReport.importing (r : CycleReport) (qs : List SaveRequest) : CycleReport :=
  { r with
    imported := r.imported + qs.countP (·.isSaved)
    alreadyKnown := r.alreadyKnown + qs.countP (·.isKnown)
    rejected := r.rejected + qs.countP (·.isRefused) }

namespace Batch

/-- From `b` to `b'` these requests were made and their answers accounted for. Nobody touched the chain
state or the broadcaster meanwhile. -/
structure Accounts (b : Batch) (qs : List SaveRequest) (b' : Batch) : Prop where
  settles : b.cycle.pipeline.Settles qs b'.cycle.pipeline
  report : b'.cycle.report = { b.cycle.report.importing qs with
    importInterrupted := b'.cycle.report.importInterrupted }
  imported : b'.imported = b.imported ++ (savedAmong qs).map (·.signature)
  chain : b'.cycle.pipeline.environment.chain = b.cycle.pipeline.environment.chain
  broadcaster : b'.cycle.pipeline.environment.broadcaster =
    b.cycle.pipeline.environment.broadcaster

/-- How a batch over `txs` that made these requests came to its end. -/
inductive Ends (b : Batch) (txs : List Transaction) (qs : List SaveRequest) :
    Batch × Option AdmissionError → Prop
  | complete (b' : Batch) (asked : qs.map (·.transaction) = txs)
      (answered : ∀ q ∈ qs, q.isAnswered = true)
      (flag : b'.cycle.report.importInterrupted = b.cycle.report.importInterrupted) :
      Ends b txs qs (b', none)
  | interrupted (b' : Batch) (failure : Option AdmissionError) (fewer : qs.length < txs.length)
      (answered : ∀ q ∈ qs, q.isAnswered = true)
      (flag : b'.cycle.report.importInterrupted = true)
      (cause : failure = none ∨ failure = some .stopped) : Ends b txs qs (b', failure)
  | failed (b' : Batch) (before : List SaveRequest) (last : SaveRequest) (e : RepositoryError)
      (split : qs = before ++ [last]) (answered : ∀ q ∈ before, q.isAnswered = true)
      (failure : last.answer = .error e)
      (flag : b'.cycle.report.importInterrupted = b.cycle.report.importInterrupted) :
      Ends b txs qs (b', some (.repository e))

variable {b b' b'' : Batch} {tx : Transaction} {txs : List Transaction} {q : SaveRequest}
  {qs rs : List SaveRequest} {result : ImportResult} {e : RepositoryError}

/-! ## The account -/

theorem Accounts.append (h : b.Accounts qs b') (h' : b'.Accounts rs b'') :
    b.Accounts (qs ++ rs) b'' := by
  refine ⟨h.settles.append h'.settles, ?_, ?_, h'.chain.trans h.chain,
    h'.broadcaster.trans h.broadcaster⟩
  · have hreport := h'.report
    rw [h.report] at hreport
    rw [hreport]
    simp only [CycleReport.importing, List.countP_append, Nat.add_assoc]
  · rw [h'.imported, h.imported, List.append_assoc, savedAmong_append, List.map_append]

theorem accounts_queried (b : Batch) : b.Accounts [] b.queried :=
  ⟨b.cycle.pipeline.settles_querySync, rfl, (List.append_nil _).symm, rfl, rfl⟩

theorem accounts_interrupt (b : Batch) : b.Accounts [] b.interrupt :=
  ⟨.around b.cycle.pipeline _ rfl rfl, rfl, (List.append_nil _).symm, rfl, rfl⟩

theorem accounts_save_of_error (h : b.save tx = (.error e, b')) : b.Accounts [b.request tx] b' := by
  have hanswer : (b.request tx).answer = .error e := congrArg Prod.fst h
  have hb' : (b.save tx).2 = b' := congrArg Prod.snd h
  refine ⟨settles_save_of_error h, ?_, ?_, ?_, ?_⟩
  · rw [← hb', CycleReport.importing]
    simp only [SaveRequest.isSaved, SaveRequest.isKnown, SaveRequest.isRefused, List.countP_cons,
      List.countP_nil, hanswer]
    rfl
  · rw [savedAmong_singleton, SaveRequest.isSaved_of_error hanswer, ← hb']
    exact (List.append_nil _).symm
  · rw [← hb']
    rfl
  · rw [← hb']
    rfl

theorem accounts_settle_save (h : b.save tx = (.ok result, b')) :
    b.Accounts [b.request tx] (b'.settle tx result) := by
  have hanswer : (b.request tx).answer = .ok result := congrArg Prod.fst h
  have hb' : (b.save tx).2 = b' := congrArg Prod.snd h
  refine ⟨settles_settle_save h, ?_, ?_, ?_, ?_⟩
  · rw [← hb', CycleReport.importing]
    simp only [SaveRequest.isSaved, SaveRequest.isKnown, SaveRequest.isRefused, List.countP_cons,
      List.countP_nil, hanswer]
    cases result <;> rfl
  · rw [savedAmong_singleton, SaveRequest.isSaved_of_ok hanswer, ← hb']
    cases result with
    | saved => rfl
    | alreadyExists => exact (List.append_nil _).symm
    | lockUnavailable => exact (List.append_nil _).symm
    | invalid reason => exact (List.append_nil _).symm
  · rw [← hb']
    cases result <;> rfl
  · rw [← hb']
    cases result <;> rfl

/-! ## The end -/

theorem isAnswered_request (h : b.save tx = (.ok result, b')) :
    (b.request tx).isAnswered = true := by
  have hanswer : (b.request tx).answer = .ok result := congrArg Prod.fst h
  rw [SaveRequest.isAnswered, hanswer]

theorem importInterrupted_settle_save (h : b.save tx = (.ok result, b')) :
    (b'.settle tx result).cycle.report.importInterrupted =
      b.cycle.report.importInterrupted := by
  have hb' : (b.save tx).2 = b' := congrArg Prod.snd h
  rw [← hb']
  cases result <;> rfl

theorem Ends.cons {r : Batch × Option AdmissionError} (h : Ends b' txs qs r)
    (hq : q.transaction = tx) (hanswered : q.isAnswered = true)
    (hflag : b'.cycle.report.importInterrupted = b.cycle.report.importInterrupted) :
    Ends b (tx :: txs) (q :: qs) r := by
  have hall {xs : List SaveRequest} (hxs : ∀ x ∈ xs, x.isAnswered = true) :
      ∀ x ∈ q :: xs, x.isAnswered = true :=
    List.forall_mem_cons.mpr ⟨hanswered, hxs⟩
  cases h with
  | complete b'' asked answered flag =>
    exact .complete b'' (by rw [List.map_cons, hq, asked]) (hall answered) (flag.trans hflag)
  | interrupted b'' failure fewer answered flag cause =>
    exact .interrupted b'' failure (Nat.succ_lt_succ fewer) (hall answered) flag cause
  | failed b'' before last e split answered failure flag =>
    exact .failed b'' (q :: before) last e (by rw [split]; rfl) (hall answered) failure
      (flag.trans hflag)

theorem importAll_accounts (txs : List Transaction) (b : Batch) :
    ∃ qs, b.Accounts qs (importAll txs b).1 ∧ Ends b txs qs (importAll txs b) := by
  have hnobody : ∀ q ∈ ([] : List SaveRequest), q.isAnswered = true :=
    fun q hq => absurd hq List.not_mem_nil
  induction txs generalizing b with
  | nil =>
    refine ⟨[], ⟨.around b.cycle.pipeline _ rfl rfl, rfl, (List.append_nil _).symm, rfl, rfl⟩, ?_⟩
    exact .complete b rfl hnobody rfl
  | cons tx txs ih =>
    have hquery := b.accounts_queried
    have hfewer : ([] : List SaveRequest).length < (tx :: txs).length := Nat.succ_pos _
    rcases importAll_cons_cases tx txs b with ⟨-, heq⟩ | ⟨-, -, heq⟩ |
      ⟨-, -, ⟨e, b', hsave, heq⟩ | ⟨result, b', hsave, heq⟩⟩
    · rw [heq]
      exact ⟨[], b.accounts_interrupt, .interrupted _ _ hfewer hnobody rfl (Or.inr rfl)⟩
    · rw [heq]
      exact ⟨[], hquery.append b.queried.accounts_interrupt,
        .interrupted _ _ hfewer hnobody rfl (Or.inl rfl)⟩
    · rw [heq]
      have hanswer : (b.queried.request tx).answer = .error e := congrArg Prod.fst hsave
      have hb' : (b.queried.save tx).2 = b' := congrArg Prod.snd hsave
      refine ⟨_, hquery.append (accounts_save_of_error hsave), ?_⟩
      exact .failed b' [] _ e rfl hnobody hanswer (by rw [← hb']; rfl)
    · rw [heq]
      obtain ⟨qs, hqs, hends⟩ := ih (b'.settle tx result)
      refine ⟨_, (hquery.append (accounts_settle_save hsave)).append hqs, ?_⟩
      have hflag := importInterrupted_settle_save hsave
      exact hends.cons rfl (isAnswered_request hsave) hflag

end Batch

/-! ## The import phase -/

/-- The broadcaster once these signatures, if any, are announced with the chain lock free. -/
def Broadcaster.told (b : Broadcaster) (signatures : List Signature) : Broadcaster :=
  if signatures.isEmpty then b else (b.announce false signatures).2

theorem ChainState.releaseLock_tryAcquireLock {c : ChainState} (h : c.lock.held = false) :
    c.tryAcquireLock.2.releaseLock = { c with acquisitions := c.acquisitions + 1 } := by
  obtain ⟨tip, tipFailing, ⟨held, guards⟩, acquisitions⟩ := c
  change held = false at h
  subst h
  simp [tryAcquireLock, ChainLock.tryAcquire, releaseLock, ChainLock.release]

namespace Cycle

/-- From `c` to `c'` these requests were made and their answers accounted for, under the chain lock if
there were any, and what was saved is announced. -/
structure Accounts (c : Cycle) (qs : List SaveRequest) (c' : Cycle) : Prop where
  settles : c.pipeline.Settles qs c'.pipeline
  report : c'.report = { c.report.importing qs with
    importSkipped := c'.report.importSkipped
    importInterrupted := c'.report.importInterrupted }
  chain : (qs = [] ∧ c'.pipeline.environment.chain = c.pipeline.environment.chain) ∨
    (c.pipeline.environment.chain.lock.held = false ∧ c'.pipeline.environment.chain =
      { c.pipeline.environment.chain with
        acquisitions := c.pipeline.environment.chain.acquisitions + 1 })
  broadcaster : c'.pipeline.environment.broadcaster =
    c.pipeline.environment.broadcaster.told ((savedAmong qs).map (·.signature))

/-- How an import phase over `txs` that made these requests came to its end. -/
inductive Ends (c : Cycle) (txs : List Transaction) (qs : List SaveRequest) :
    Cycle × Option AdmissionError → Prop
  | idle (none : txs = []) (asked : qs = []) : Ends c txs qs (c, .none)
  | skipped (c' : Cycle) (reason : ImportSkip) (some : txs ≠ []) (asked : qs = [])
      (flag : c'.report.importSkipped = .some reason) : Ends c txs qs (c', .none)
  | unreadable (c' : Cycle) (e : RepositoryError)
      (offline : c.pipeline.environment.repository.failing = true) (asked : qs = []) :
      Ends c txs qs (c', .some (.repository e))
  | imported (b b' : Batch) (c' : Cycle) (failure : Option AdmissionError)
      (online : c.pipeline.environment.repository.failing = false)
      (opened : b.cycle.report = c.report) (closed : c'.report = b'.cycle.report)
      (ends : b.Ends txs qs (b', failure)) : Ends c txs qs (c', failure)

theorem broadcaster_asked (c : Cycle) :
    c.asked.pipeline.environment.broadcaster = c.pipeline.environment.broadcaster := by
  unfold asked Pipeline.isSynchronizing
  split <;> rfl

theorem Accounts.around {c c' : Cycle} (hsettles : c.pipeline.Settles [] c'.pipeline)
    (hreport : c'.report = { c.report with importSkipped := c'.report.importSkipped })
    (hchain : c'.pipeline.environment.chain = c.pipeline.environment.chain)
    (hbroadcaster : c'.pipeline.environment.broadcaster = c.pipeline.environment.broadcaster) :
    c.Accounts [] c' := by
  refine ⟨hsettles, ?_, Or.inl ⟨rfl, hchain⟩, hbroadcaster⟩
  rw [hreport]
  rfl

/-- The batch that is opened when the repository can be read. -/
def openBatch (c : Cycle) : Batch where
  cycle := c
  cache := .ofTransactions (c.pipeline.environment.repository.stored.filter fun tx =>
    !c.pipeline.config.lowPriorityTypes.contains tx.type)

theorem importLocked_eq (c : Cycle) (txs : List Transaction) :
    c.importLocked txs =
      if c.pipeline.environment.repository.failing then
        ({ cycle := c, cache := {} }, some (.repository Repository.offline))
      else Batch.importAll txs c.openBatch := by
  unfold importLocked Repository.unconfirmed openBatch
  split <;> rename_i h <;> split at h <;> cases h
  · rename_i hfailing
    rw [if_pos hfailing]
  · rename_i hfailing
    rw [if_neg hfailing]

/-- What the batch did is the phase's account once the lock is given back and the imports announced. -/
theorem accounts_unlocked {c : Cycle} {b b' : Batch} {qs : List SaveRequest}
    (hfree : c.pipeline.environment.chain.lock.held = false) (hcycle : b.cycle = c.asked.locked)
    (hnone : b.imported = []) (h : b.Accounts qs b') : c.Accounts qs (unlocked b') := by
  have hreport := report_unlocked b'
  have hasked : c.pipeline.Settles [] c.asked.locked.pipeline :=
    c.pipeline.settles_isSynchronizing.append (.around c.asked.pipeline _ rfl rfl)
  have hlocked : b'.cycle.pipeline.environment.chain =
      c.pipeline.environment.chain.tryAcquireLock.2 := by
    rw [h.chain, hcycle, ← c.chain_asked]
    rfl
  have hreleased : b'.cycle.releaseLock.pipeline.environment.chain =
      { c.pipeline.environment.chain with
        acquisitions := c.pipeline.environment.chain.acquisitions + 1 } := by
    rw [← ChainState.releaseLock_tryAcquireLock hfree, ← hlocked]
    rfl
  have himported : b'.imported = (savedAmong qs).map (·.signature) := by
    rw [h.imported, hnone, List.nil_append]
  have hbroadcaster : b'.cycle.releaseLock.pipeline.environment.broadcaster =
      c.pipeline.environment.broadcaster := by
    rw [← c.broadcaster_asked]
    show b'.cycle.pipeline.environment.broadcaster = _
    rw [h.broadcaster, hcycle]
    rfl
  refine ⟨?_, ?_, Or.inr ⟨hfree, ?_⟩, ?_⟩
  · have hsettles := h.settles
    rw [hcycle] at hsettles
    have hall := (hasked.append hsettles).append (settles_unlocked b')
    rwa [List.append_nil] at hall
  · rw [hreport, h.report, hcycle]
    rfl
  · -- announcing does not touch the chain state
    rw [← hreleased]
    unfold unlocked announce
    split <;> rfl
  · unfold unlocked announce Broadcaster.told
    rw [himported]
    split
    · exact hbroadcaster
    · show (b'.cycle.releaseLock.pipeline.environment.broadcaster.announce
        b'.cycle.releaseLock.pipeline.environment.chain.lock.held _).2 = _
      rw [hbroadcaster, hreleased, ← hfree]

theorem importTagged_accounts (order : WalkOrder) (c : Cycle) :
    ∃ qs, c.Accounts qs (c.importTagged order).1 ∧
      c.Ends (c.pipeline.queue.walkValidated order.importing) qs (c.importTagged order) := by
  rcases c.importTagged_cases order with ⟨hnone, heq⟩ | ⟨hsome, -, heq⟩ | ⟨hsome, -, -, heq⟩ |
    ⟨hsome, -, hfree, heq⟩
  · rw [heq]
    exact ⟨[], .around (.around c.pipeline _ rfl rfl) rfl rfl rfl, .idle hnone rfl⟩
  · rw [heq]
    exact ⟨[], .around c.pipeline.settles_isSynchronizing rfl c.chain_asked c.broadcaster_asked,
      .skipped _ .synchronizing hsome rfl rfl⟩
  · rw [heq]
    exact ⟨[], .around c.pipeline.settles_isSynchronizing rfl c.chain_asked c.broadcaster_asked,
      .skipped _ .chainLockBusy hsome rfl rfl⟩
  · rw [heq, importLocked_eq]
    split
    · rename_i hfailing
      have hoffline : c.pipeline.environment.repository.failing = true := by
        rw [← repository_asked]
        exact hfailing
      have haccounts : ({ cycle := c.asked.locked, cache := {} } : Batch).Accounts []
          { cycle := c.asked.locked, cache := {} } :=
        ⟨.around c.asked.locked.pipeline _ rfl rfl, rfl, rfl, rfl, rfl⟩
      exact ⟨[], accounts_unlocked hfree rfl rfl haccounts, .unreadable _ _ hoffline rfl⟩
    · rename_i honline
      have hreadable : c.pipeline.environment.repository.failing = false := by
        rw [← repository_asked]
        exact Bool.not_eq_true _ |>.mp honline
      obtain ⟨qs, haccounts, hends⟩ := Batch.importAll_accounts
        (c.pipeline.queue.walkValidated order.importing) c.asked.locked.openBatch
      exact ⟨qs, accounts_unlocked hfree rfl rfl haccounts,
        .imported _ _ _ _ hreadable rfl (report_unlocked _) hends⟩

theorem importSkipped_importTagged (c : Cycle) (order : WalkOrder) :
    (c.importTagged order).1.report.importSkipped =
      if (c.pipeline.queue.walkValidated order.importing).isEmpty then c.report.importSkipped
      else if c.pipeline.isSynchronizing.1 then some .synchronizing
      else if c.pipeline.environment.chain.lock.held then some .chainLockBusy
      else c.report.importSkipped := by
  have hlocked (txs : List Transaction) :
      (c.asked.locked.importLocked txs).1.cycle.report.importSkipped = c.report.importSkipped := by
    rw [importLocked_eq]
    split
    · rfl
    · obtain ⟨qs, hqs, -⟩ := Batch.importAll_accounts txs c.asked.locked.openBatch
      rw [hqs.report]
      rfl
  rw [importTagged_eq]
  split
  · rfl
  · split
    · rfl
    · split
      · rfl
      · rw [← hlocked]
        exact congrArg CycleReport.importSkipped (report_unlocked _)

end Cycle

/-! ## The whole cycle -/

namespace Pipeline

variable {p : Pipeline} {order : WalkOrder}

theorem fst_isSynchronizing (p : Pipeline) :
    p.isSynchronizing.1 = (p.environment.sync.inProgress || p.environment.sync.query.pending) := by
  unfold isSynchronizing
  cases p.environment.sync.inProgress <;> rfl

theorem cycle_of_stopRequested (order : WalkOrder) (h : p.stopRequested = true) :
    p.cycle order = ({ stopped := true }, p) := by
  rw [cycle, if_pos h]

section
variable (order : WalkOrder) (h : p.stopRequested = false)
include h

/-- Only a cycle that is stopped in its batch leaves the clean-up out. -/
theorem cycle_eq_cleanUp :
    p.cycle order =
      if ((p.opened order).importTagged order).2 = some .stopped then
        ({ ((p.opened order).importTagged order).1.report with stopped := true },
          ((p.opened order).importTagged order).1.pipeline)
      else (((p.opened order).importTagged order).1.cleanUp.report,
        ((p.opened order).importTagged order).1.cleanUp.pipeline) := by
  unfold cycle
  rw [if_neg (by rw [h]; exact Bool.false_ne_true)]
  rfl

theorem accounts_opened :
    (p.opened order).Accounts (p.requestsOf order) ((p.opened order).importTagged order).1 ∧
      (p.opened order).Ends ((p.judged order).queue.walkValidated order.importing)
        (p.requestsOf order) ((p.opened order).importTagged order) := by
  obtain ⟨qs, haccounts, hends⟩ := (p.opened order).importTagged_accounts order
  rw [requestsOf_eq_of_settles order h haccounts.settles, ← pipeline_opened order h]
  exact ⟨haccounts, hends⟩

end

theorem WellFormed.report_opened (h : p.WellFormed) (order : WalkOrder) :
    (p.opened order).report = { ({} : CycleReport).judging p.judgedCount with
      pendingImport := (p.opened order).pipeline.queue.validatedSize } := by
  rw [← Cycle.report_judge (c := ⟨p, {}⟩) h order]
  rfl

theorem cooldowns_cleanUp (order : WalkOrder) (h : p.stopRequested = false) :
    let c := ((p.opened order).importTagged order).1
    c.pipeline.cooldowns = p.cooldownsLeft order ∧
      (c.cleanUp.report.purged, c.cleanUp.pipeline.cooldowns) =
        (p.cooldownsLeft order).purge p.environment.now := by
  intro c
  have hsettles := (accounts_opened order h).1.settles
  rw [pipeline_opened order h] at hsettles
  have hcooldowns := cooldowns_of_settles hsettles
  have hnow : c.pipeline.environment.now = p.environment.now := by
    rw [hsettles.now, environment_judged]
  exact ⟨hcooldowns, by rw [Cycle.cleanUp, hcooldowns, hnow]⟩

/-- Cool-downs are purged by the cycles that do not report a stop, and by no others. -/
theorem WellFormed.purged_cycle (hp : p.WellFormed) (order : WalkOrder) :
    ((p.cycle order).1.purged, (p.cycle order).2.cooldowns) =
      if (p.cycle order).1.stopped then (0, p.cooldownsLeft order)
      else (p.cooldownsLeft order).purge p.environment.now := by
  cases h : p.stopRequested with
  | true =>
    have hleft : p.cooldownsLeft order = p.cooldowns := by
      rw [Pipeline.cooldownsLeft, Pipeline.judged, firstRulings, if_pos h, lastRulings,
        requestsOf_of_stopRequested order h]
      rfl
    rw [cycle_of_stopRequested order h, hleft]
    rfl
  | false =>
    have hreport := (accounts_opened order h).1.report
    rw [hp.report_opened order] at hreport
    obtain ⟨hcooldowns, hpurge⟩ := cooldowns_cleanUp order h
    rw [cycle_eq_cleanUp order h]
    split
    · show (((p.opened order).importTagged order).1.report.purged, _) = (0, p.cooldownsLeft order)
      rw [hcooldowns, hreport]
      rfl
    · have hstopped : ((p.opened order).importTagged order).1.cleanUp.report.stopped = false := by
        show ((p.opened order).importTagged order).1.report.stopped = false
        rw [hreport]
        rfl
      rw [if_neg (by rw [hstopped]; exact Bool.false_ne_true), hpurge]

theorem WellFormed.imported_cycle (hp : p.WellFormed) (order : WalkOrder) :
    (p.cycle order).1.imported = (savedAmong (p.requestsOf order)).length := by
  cases h : p.stopRequested with
  | true =>
    rw [requestsOf_of_stopRequested order h, cycle_of_stopRequested order h]
    rfl
  | false =>
    have hreport := (accounts_opened order h).1.report
    have himported : ((p.opened order).importTagged order).1.report.imported =
        0 + (p.requestsOf order).countP (·.isSaved) := by
      rw [hreport, hp.report_opened order]
      rfl
    rw [cycle_eq_cleanUp order h, length_savedAmong, ← Nat.zero_add (List.countP _ _), ← himported]
    split <;> rfl

theorem logs_requestsOf (p : Pipeline) (order : WalkOrder) :
    p.environment.repository.Logs (p.requestsOf order) := by
  rw [Repository.Logs, ← repository_cycle, requests_cycle]

theorem stored_cycle (p : Pipeline) (order : WalkOrder) :
    (p.cycle order).2.environment.repository.stored =
      p.environment.repository.stored ++ savedAmong (p.requestsOf order) := by
  rw [repository_cycle, (p.logs_requestsOf order).stored]

theorem broadcaster_cycle (p : Pipeline) (order : WalkOrder) :
    (p.cycle order).2.environment.broadcaster = p.environment.broadcaster.told
      ((savedAmong (p.requestsOf order)).map (·.signature)) := by
  cases h : p.stopRequested with
  | true =>
    rw [requestsOf_of_stopRequested order h, cycle_of_stopRequested order h]
    rfl
  | false =>
    have htold := (accounts_opened order h).1.broadcaster
    rw [environment_opened] at htold
    rw [environment_cycle_eq_opened order h, htold]

theorem chain_cycle (p : Pipeline) (order : WalkOrder) :
    (p.requestsOf order = [] ∧ (p.cycle order).2.environment.chain = p.environment.chain) ∨
      (p.environment.chain.lock.held = false ∧ (p.cycle order).2.environment.chain =
        { p.environment.chain with acquisitions := p.environment.chain.acquisitions + 1 }) := by
  cases h : p.stopRequested with
  | true =>
    rw [requestsOf_of_stopRequested order h, cycle_of_stopRequested order h]
    exact Or.inl ⟨rfl, rfl⟩
  | false =>
    have hchain := (accounts_opened order h).1.chain
    rw [environment_opened] at hchain
    rw [environment_cycle_eq_opened order h]
    exact hchain

end Pipeline
end ChainNode.Admission
