import ChainNode.Proofs.Admission.Account

/-!
# What an import phase goes by

Beside the transactions that it is handed, an import phase goes by the repository, the chain state, the
synchronizer, the order to stop and the types of low priority. Who else is queued or barred and what has
been reported so far makes no difference: in the same surroundings, phases over the same transactions
take the same course.
-/

namespace ChainNode.Admission

/-- What an import phase goes by, beside the transactions that it is handed. -/
structure Surroundings where
  stopRequested : Bool
  repository : Repository
  chain : ChainState
  sync : SyncStatus
  lowPriorityTypes : List TransactionType

/-- What the report says about how the import phase went. -/
def CycleReport.flags (r : CycleReport) : Option ImportSkip × Bool :=
  (r.importSkipped, r.importInterrupted)

namespace Pipeline

def surroundings (p : Pipeline) : Surroundings where
  stopRequested := p.stopRequested
  repository := p.environment.repository
  chain := p.environment.chain
  sync := p.environment.sync
  lowPriorityTypes := p.config.lowPriorityTypes

theorem surroundings_rule (p : Pipeline) (s : Signature) (r : Ruling) :
    (p.rule s r).surroundings = p.surroundings := by
  cases r <;> rfl

theorem surroundings_querySync (p : Pipeline) :
    p.querySync.2.surroundings = { p.surroundings with
      stopRequested := p.surroundings.stopRequested || p.surroundings.sync.stopsNext
      sync := p.surroundings.sync.query } := rfl

end Pipeline

/-! ## Batches -/

namespace Batch

/-- The batches differ at most in what a batch does not look at. -/
structure Alike (b b' : Batch) : Prop where
  surroundings : b.cycle.pipeline.surroundings = b'.cycle.pipeline.surroundings
  cache : b.cache = b'.cache
  imported : b.imported = b'.imported
  flags : b.cycle.report.flags = b'.cycle.report.flags

variable {b b' : Batch} {tx : Transaction}

theorem Alike.interrupt (h : b.Alike b') : b.interrupt.Alike b'.interrupt where
  surroundings := h.surroundings
  cache := h.cache
  imported := h.imported
  flags := congrArg (fun flags => (flags.1, true)) h.flags

theorem Alike.queried (h : b.Alike b') : b.queried.Alike b'.queried where
  surroundings := by
    show b.cycle.pipeline.querySync.2.surroundings = b'.cycle.pipeline.querySync.2.surroundings
    rw [Pipeline.surroundings_querySync, Pipeline.surroundings_querySync, h.surroundings]
  cache := h.cache
  imported := h.imported
  flags := h.flags

/-- What is saved and answered is settled by the repository and the cache alone. -/
theorem Alike.save (h : b.Alike b') (tx : Transaction) :
    (b.save tx).1 = (b'.save tx).1 ∧ (b.save tx).2.Alike (b'.save tx).2 := by
  have hrepository : b.cycle.pipeline.environment.repository =
      b'.cycle.pipeline.environment.repository := congrArg Surroundings.repository h.surroundings
  have hsave : b.cycle.pipeline.environment.repository.save tx b.cache =
      b'.cycle.pipeline.environment.repository.save tx b'.cache := by
    rw [hrepository, h.cache]
  have hanswer : (b.cycle.pipeline.environment.repository.save tx b.cache).1 =
      (b'.cycle.pipeline.environment.repository.save tx b'.cache).1 := by rw [hsave]
  refine ⟨hanswer, ?_, h.cache, h.imported, h.flags⟩
  show { b.cycle.pipeline.surroundings with
      repository := (b.cycle.pipeline.environment.repository.save tx b.cache).2 } =
    { b'.cycle.pipeline.surroundings with
      repository := (b'.cycle.pipeline.environment.repository.save tx b'.cache).2 }
  rw [h.surroundings, hsave]

theorem Alike.settle (h : b.Alike b') (tx : Transaction) (result : ImportResult) :
    (b.settle tx result).Alike (b'.settle tx result) := by
  have hlow : b.cycle.pipeline.config.isLowPriority = b'.cycle.pipeline.config.isLowPriority :=
    congrArg (fun s : Surroundings => s.lowPriorityTypes.contains) h.surroundings
  have hsurroundings : (b.settle tx result).cycle.pipeline.surroundings =
      (b'.settle tx result).cycle.pipeline.surroundings := by
    rw [pipeline_settle, pipeline_settle, Pipeline.surroundings_rule, Pipeline.surroundings_rule,
      h.surroundings]
  cases result with
  | saved =>
    refine ⟨hsurroundings, ?_, ?_, h.flags⟩
    · show (if b.cycle.pipeline.config.isLowPriority tx.type then b.cache else b.cache.push tx) =
        if b'.cycle.pipeline.config.isLowPriority tx.type then b'.cache else b'.cache.push tx
      rw [hlow, h.cache]
    · exact congrArg (· ++ [tx.signature]) h.imported
  | alreadyExists => exact ⟨hsurroundings, h.cache, h.imported, h.flags⟩
  | lockUnavailable => exact ⟨hsurroundings, h.cache, h.imported, h.flags⟩
  | invalid reason => exact ⟨hsurroundings, h.cache, h.imported, h.flags⟩

theorem Alike.importAll (h : b.Alike b') (txs : List Transaction) :
    (importAll txs b).1.Alike (importAll txs b').1 ∧ (importAll txs b).2 = (importAll txs b').2 := by
  induction txs generalizing b b' with
  | nil => exact ⟨h, rfl⟩
  | cons tx txs ih =>
    -- both batches take the same turn at each of the four questions
    have hstop : b.cycle.pipeline.stopRequested = b'.cycle.pipeline.stopRequested :=
      congrArg Surroundings.stopRequested h.surroundings
    have hsync : b.cycle.pipeline.querySync.1 = b'.cycle.pipeline.querySync.1 :=
      congrArg (fun s : Surroundings => s.sync.query.pending) h.surroundings
    obtain ⟨hanswer, hsaved⟩ := h.queried.save tx
    rw [importAll_cons_eq, importAll_cons_eq, hstop, hsync, hanswer]
    split
    · exact ⟨h.interrupt, rfl⟩
    · split
      · exact ⟨h.queried.interrupt, rfl⟩
      · split
        · exact ⟨hsaved, rfl⟩
        · exact ih (hsaved.settle tx _)

end Batch

/-! ## The phase -/

namespace Cycle

/-- The cycles differ at most in what an import phase does not look at. -/
structure Alike (c c' : Cycle) : Prop where
  surroundings : c.pipeline.surroundings = c'.pipeline.surroundings
  flags : c.report.flags = c'.report.flags

variable {c c' : Cycle} {order order' : WalkOrder}

theorem Alike.asked (h : c.Alike c') :
    c.pipeline.isSynchronizing.1 = c'.pipeline.isSynchronizing.1 ∧ c.asked.Alike c'.asked := by
  have hsync : c.pipeline.environment.sync = c'.pipeline.environment.sync :=
    congrArg Surroundings.sync h.surroundings
  unfold Cycle.asked Pipeline.isSynchronizing
  rw [hsync]
  split
  · exact ⟨rfl, h⟩
  · refine ⟨congrArg (fun s : Surroundings => s.sync.query.pending) h.surroundings, ?_, h.flags⟩
    show c.pipeline.querySync.2.surroundings = c'.pipeline.querySync.2.surroundings
    rw [Pipeline.surroundings_querySync, Pipeline.surroundings_querySync, h.surroundings]

theorem Alike.locked (h : c.Alike c') : c.locked.Alike c'.locked where
  surroundings := congrArg
    (fun s : Surroundings => { s with chain := s.chain.tryAcquireLock.2 }) h.surroundings
  flags := h.flags

theorem Alike.skipImport (h : c.Alike c') (reason : ImportSkip) :
    (c.skipImport reason).Alike (c'.skipImport reason) where
  surroundings := h.surroundings
  flags := congrArg (fun flags => (some reason, flags.2)) h.flags

theorem Alike.importLocked (h : c.Alike c') (txs : List Transaction) :
    (c.importLocked txs).1.Alike (c'.importLocked txs).1 ∧
      (c.importLocked txs).2 = (c'.importLocked txs).2 := by
  have hfailing : c.pipeline.environment.repository.failing =
      c'.pipeline.environment.repository.failing :=
    congrArg (fun s : Surroundings => s.repository.failing) h.surroundings
  have hopened : c.openBatch.Alike c'.openBatch := by
    refine ⟨h.surroundings, ?_, rfl, h.flags⟩
    exact congrArg (fun s : Surroundings => UnconfirmedCache.ofTransactions
      (s.repository.stored.filter fun tx => !s.lowPriorityTypes.contains tx.type)) h.surroundings
  rw [importLocked_eq, importLocked_eq, hfailing]
  split
  · exact ⟨⟨h.surroundings, rfl, rfl, h.flags⟩, rfl⟩
  · exact hopened.importAll txs

theorem surroundings_unlocked (b : Batch) :
    (unlocked b).pipeline.surroundings = { b.cycle.pipeline.surroundings with
      chain := b.cycle.pipeline.surroundings.chain.releaseLock } := by
  -- announcing touches the broadcaster only
  unfold unlocked announce
  split <;> rfl

theorem alike_unlocked {b b' : Batch} (h : b.Alike b') : (unlocked b).Alike (unlocked b') where
  surroundings := by rw [surroundings_unlocked, surroundings_unlocked, h.surroundings]
  flags := by rw [report_unlocked, report_unlocked, h.flags]

theorem Alike.importTagged (h : c.Alike c')
    (htxs : c.pipeline.queue.walkValidated order.importing =
      c'.pipeline.queue.walkValidated order'.importing) :
    (c.importTagged order).1.Alike (c'.importTagged order').1 ∧
      (c.importTagged order).2 = (c'.importTagged order').2 := by
  obtain ⟨hsync, hasked⟩ := h.asked
  have hheld : c.pipeline.environment.chain.lock.held = c'.pipeline.environment.chain.lock.held :=
    congrArg (fun s : Surroundings => s.chain.lock.held) h.surroundings
  rw [importTagged_eq, importTagged_eq, htxs, hsync, hheld]
  split
  · exact ⟨h, rfl⟩
  · split
    · exact ⟨hasked.skipImport _, rfl⟩
    · split
      · exact ⟨hasked.skipImport _, rfl⟩
      · obtain ⟨hbatch, hfailure⟩ := hasked.locked.importLocked
          (c'.pipeline.queue.walkValidated order'.importing)
        exact ⟨alike_unlocked hbatch, hfailure⟩

end Cycle

/-! ## The course of a phase -/

/-- What an import phase does: its requests, where they lead, and what it has to report. -/
@[ext]
structure Course where
  requests : List SaveRequest
  environment : Environment
  stopRequested : Bool
  skipped : Option ImportSkip
  interrupted : Bool

/-- The same course, with this broadcaster in the end. -/
def Course.withBroadcaster (o : Course) (b : Broadcaster) : Course :=
  { o with environment.broadcaster := b }

namespace Cycle

/-- The course that the import phase takes. -/
def course (c : Cycle) (order : WalkOrder) : Course where
  requests := (c.importTagged order).1.pipeline.environment.repository.requests.drop
    c.pipeline.environment.repository.requests.length
  environment := (c.importTagged order).1.pipeline.environment
  stopRequested := (c.importTagged order).1.pipeline.stopRequested
  skipped := (c.importTagged order).1.report.importSkipped
  interrupted := (c.importTagged order).1.report.importInterrupted

/-- The cycle after an import phase of this course. -/
def follow (c : Cycle) (o : Course) : Cycle where
  pipeline := (c.pipeline.ruleAll (o.requests.map (·.ruled c.pipeline.config))).within o.environment
    o.stopRequested
  report := { c.report.importing o.requests with
    importSkipped := o.skipped
    importInterrupted := o.interrupted }

section
variable {c c' : Cycle} {order order' : WalkOrder} {qs : List SaveRequest}

theorem requests_course (h : c.pipeline.Settles qs (c.importTagged order).1.pipeline) :
    (c.course order).requests = qs := by
  rw [course, h.requests, List.drop_left]

theorem asked_course (c : Cycle) (order : WalkOrder) :
    (c.course order).requests.map (·.transaction) <+:
      c.pipeline.queue.walkValidated order.importing := by
  obtain ⟨qs, hqs⟩ := c.importTagged_imports order
  rw [requests_course hqs.settles]
  exact hqs.asked

theorem importTagged_eq_follow (c : Cycle) (order : WalkOrder) :
    (c.importTagged order).1 = c.follow (c.course order) := by
  obtain ⟨qs, haccounts, -⟩ := c.importTagged_accounts order
  have hpipeline := haccounts.settles.ruled
  have hreport := haccounts.report
  unfold follow
  rw [requests_course haccounts.settles]
  show _ = Cycle.mk (Pipeline.within _ (c.importTagged order).1.pipeline.environment
    (c.importTagged order).1.pipeline.stopRequested) _
  rw [← hpipeline]
  exact congrArg (Cycle.mk _) hreport

/-- In the same surroundings, and with the same transactions to import, two cycles take the same course,
whoever hears of it. -/
theorem Alike.course_withBroadcaster (h : c.Alike c')
    (hnow : c.pipeline.environment.now = c'.pipeline.environment.now)
    (htxs : c.pipeline.queue.walkValidated order.importing =
      c'.pipeline.queue.walkValidated order'.importing) :
    c.course order =
      (c'.course order').withBroadcaster (c.course order).environment.broadcaster := by
  obtain ⟨⟨hsurroundings, hflags⟩, -⟩ := h.importTagged htxs
  have hbefore := congrArg Surroundings.repository h.surroundings
  have hafter := congrArg Surroundings.repository hsurroundings
  have hrequests : (c.course order).requests = (c'.course order').requests :=
    congrArg₂ (fun r r' : Repository => r'.requests.drop r.requests.length) hbefore hafter
  -- the clock stands still
  obtain ⟨qs, hqs⟩ := c.importTagged_imports order
  obtain ⟨qs', hqs'⟩ := c'.importTagged_imports order'
  have hstill := hqs.settles.now.trans (hnow.trans hqs'.settles.now.symm)
  exact Course.ext hrequests
    (Environment.ext hstill hafter (congrArg Surroundings.chain hsurroundings)
      (congrArg Surroundings.sync hsurroundings) rfl)
    (congrArg Surroundings.stopRequested hsurroundings) (congrArg Prod.fst hflags)
    (congrArg Prod.snd hflags)

theorem broadcaster_course (c : Cycle) (order : WalkOrder) :
    (c.course order).environment.broadcaster = c.pipeline.environment.broadcaster.told
      ((savedAmong (c.course order).requests).map (·.signature)) := by
  obtain ⟨qs, haccounts, -⟩ := c.importTagged_accounts order
  rw [requests_course haccounts.settles]
  exact haccounts.broadcaster

theorem Alike.course (h : c.Alike c')
    (henvironment : c.pipeline.environment = c'.pipeline.environment)
    (htxs : c.pipeline.queue.walkValidated order.importing =
      c'.pipeline.queue.walkValidated order'.importing) :
    c.course order = c'.course order' := by
  have hcourse := h.course_withBroadcaster (congrArg Environment.now henvironment) htxs
  have hrequests : (c.course order).requests = (c'.course order').requests :=
    (congrArg Course.requests hcourse).trans rfl
  have hbroadcaster : (c.course order).environment.broadcaster =
      (c'.course order').environment.broadcaster := by
    rw [broadcaster_course, broadcaster_course, hrequests, henvironment]
  rw [hcourse, hbroadcaster]
  rfl

end
end Cycle
end ChainNode.Admission
