import ChainNode.Proofs.Admission.Judging

/-!
# The import phase

A batch hands a prefix of its transactions to the repository, one request each, and every answer is a
ruling on the signature. All else that the phase does happens around the queue: the synchronizer is asked,
the chain lock taken and given back, the imports announced.
-/

namespace ChainNode.Admission

def ImportResult.ruling (config : Config) : ImportResult → Ruling
  | .saved => .drop
  | .alreadyExists => .drop
  | .lockUnavailable => .keep
  | .invalid reason => .bar (config.cooldownFor reason)

namespace SaveRequest

def ruling (config : Config) (q : SaveRequest) : Ruling :=
  match q.answer with
  | .ok result => result.ruling config
  | .error _ => .keep

/-- The signature that the request is about, and what its answer means for it. -/
def ruled (config : Config) (q : SaveRequest) : Signature × Ruling :=
  (q.transaction.signature, q.ruling config)

end SaveRequest

namespace Repository

/-- What is kept of a request to save. -/
def request (r : Repository) (tx : Transaction) (cache : UnconfirmedCache) : SaveRequest :=
  ⟨tx, cache, r.stored, (r.trySave tx).1⟩

/-- The repository after it was asked all this in turn. -/
def replay (r : Repository) (qs : List SaveRequest) : Repository :=
  qs.foldl (fun r q => (r.save q.transaction q.cache).2) r

theorem replay_append (r : Repository) (qs rs : List SaveRequest) :
    r.replay (qs ++ rs) = (r.replay qs).replay rs :=
  List.foldl_append

end Repository

namespace Pipeline

/-- The same queue and cool-downs in other surroundings. -/
def within (p : Pipeline) (environment : Environment) (stopRequested : Bool) : Pipeline :=
  { p with environment, stopRequested }

variable {p p' p'' : Pipeline} {environment : Environment} {stopRequested : Bool}

theorem rule_within (h : environment.now = p.environment.now) (s : Signature) (r : Ruling) :
    (p.within environment stopRequested).rule s r =
      (p.rule s r).within environment stopRequested := by
  cases r with
  | keep => rfl
  | tag => rfl
  | drop => rfl
  | bar cooldown =>
    show (p.within environment stopRequested).barred s cooldown = _
    rw [barred, within, h]
    rfl

theorem ruleAll_within (h : environment.now = p.environment.now)
    (rulings : List (Signature × Ruling)) :
    (p.within environment stopRequested).ruleAll rulings =
      (p.ruleAll rulings).within environment stopRequested := by
  induction rulings generalizing p with
  | nil => rfl
  | cons x rulings ih =>
    obtain ⟨s, r⟩ := x
    rw [ruleAll_cons, ruleAll_cons, rule_within h, ih]
    rw [environment_rule]
    exact h

/-- Between `p` and `p'` the repository was asked to save all this, and every answer was followed. -/
structure Settles (p : Pipeline) (qs : List SaveRequest) (p' : Pipeline) : Prop where
  ruled : p' = (p.ruleAll (qs.map (·.ruled p.config))).within p'.environment p'.stopRequested
  now : p'.environment.now = p.environment.now
  repository : p'.environment.repository = p.environment.repository.replay qs
  requests : p'.environment.repository.requests = p.environment.repository.requests ++ qs

variable {qs rs : List SaveRequest}

theorem Settles.config (h : p.Settles qs p') : p'.config = p.config := by
  rw [h.ruled, within, config_ruleAll]

theorem Settles.append (h : p.Settles qs p') (h' : p'.Settles rs p'') : p.Settles (qs ++ rs) p'' := by
  refine ⟨?_, h'.now.trans h.now, ?_, ?_⟩
  · -- the rulings of `rs` are carried out in other surroundings at the same moment
    have hnow : p'.environment.now = (p.ruleAll (qs.map (·.ruled p.config))).environment.now := by
      rw [environment_ruleAll, h.now]
    have hruled := h'.ruled
    rw [h.config] at hruled
    rw [List.map_append, ruleAll_append]
    conv_lhs => rw [hruled, h.ruled, ruleAll_within hnow]
    rfl
  · rw [h'.repository, h.repository, Repository.replay_append]
  · rw [h'.requests, h.requests, List.append_assoc]

theorem Settles.around (p : Pipeline) (stopRequested : Bool)
    (hnow : environment.now = p.environment.now)
    (hrepository : environment.repository = p.environment.repository) :
    p.Settles [] (p.within environment stopRequested) where
  ruled := rfl
  now := hnow
  repository := hrepository
  requests := by
    rw [List.append_nil]
    exact congrArg Repository.requests hrepository

theorem settles_querySync (p : Pipeline) : p.Settles [] p.querySync.2 :=
  Settles.around p _ rfl rfl

theorem settles_isSynchronizing (p : Pipeline) : p.Settles [] p.isSynchronizing.2 := by
  unfold isSynchronizing
  split
  · exact Settles.around p p.stopRequested rfl rfl
  · exact p.settles_querySync

end Pipeline

namespace Batch

theorem pipeline_settle (b : Batch) (tx : Transaction) (result : ImportResult) :
    (b.settle tx result).cycle.pipeline =
      b.cycle.pipeline.rule tx.signature (result.ruling b.cycle.pipeline.config) := by
  cases result <;> rfl

theorem departed_settle (b : Batch) (tx : Transaction) (result : ImportResult) :
    (b.settle tx result).cycle.report.departed =
      b.cycle.report.departed + (result.ruling b.cycle.pipeline.config).removes.toNat := by
  cases result with
  | lockUnavailable => rfl
  | saved =>
    show b.cycle.report.expired + b.cycle.report.rejected + (b.cycle.report.imported + 1) +
      b.cycle.report.alreadyKnown = b.cycle.report.departed + 1
    unfold CycleReport.departed
    omega
  | alreadyExists =>
    show b.cycle.report.expired + b.cycle.report.rejected + b.cycle.report.imported +
      (b.cycle.report.alreadyKnown + 1) = b.cycle.report.departed + 1
    unfold CycleReport.departed
    omega
  | invalid reason =>
    show b.cycle.report.expired + (b.cycle.report.rejected + 1) + b.cycle.report.imported +
      b.cycle.report.alreadyKnown = b.cycle.report.departed + 1
    unfold CycleReport.departed
    omega

/-- The request that handing over `tx` makes. -/
def request (b : Batch) (tx : Transaction) : SaveRequest :=
  b.cycle.pipeline.environment.repository.request tx b.cache

theorem snd_save (b : Batch) (tx : Transaction) :
    (b.save tx).2.cycle.pipeline =
      b.cycle.pipeline.within (b.save tx).2.cycle.pipeline.environment
        b.cycle.pipeline.stopRequested := rfl

section
variable {b b' : Batch} {tx : Transaction} {result : ImportResult} {e : RepositoryError}

theorem ruled_request (h : b.save tx = (.ok result, b')) (config : Config) :
    (b.request tx).ruled config = (tx.signature, result.ruling config) := by
  have hanswer : (b.request tx).answer = .ok result := congrArg Prod.fst h
  rw [SaveRequest.ruled, SaveRequest.ruling, hanswer]
  rfl

theorem ruled_request_of_error (h : b.save tx = (.error e, b')) (config : Config) :
    (b.request tx).ruled config = (tx.signature, .keep) := by
  have hanswer : (b.request tx).answer = .error e := congrArg Prod.fst h
  rw [SaveRequest.ruled, SaveRequest.ruling, hanswer]
  rfl

theorem settles_save_of_error (h : b.save tx = (.error e, b')) :
    b.cycle.pipeline.Settles [b.request tx] b'.cycle.pipeline := by
  have hb' : (b.save tx).2 = b' := congrArg Prod.snd h
  rw [← hb', snd_save]
  refine ⟨?_, rfl, rfl, rfl⟩
  rw [List.map_singleton, ruled_request_of_error h]
  rfl

theorem settles_settle_save (h : b.save tx = (.ok result, b')) :
    b.cycle.pipeline.Settles [b.request tx] (b'.settle tx result).cycle.pipeline := by
  have hb' : (b.save tx).2 = b' := congrArg Prod.snd h
  have hnow : (b.save tx).2.cycle.pipeline.environment.now = b.cycle.pipeline.environment.now := rfl
  rw [pipeline_settle, ← hb', snd_save, Pipeline.rule_within hnow]
  refine ⟨?_, rfl, rfl, rfl⟩
  rw [List.map_singleton, ruled_request h]
  cases result <;> rfl

end
end Batch

namespace Cycle

/-- Between `c` and `c'` these requests were made, for transactions from the head of `txs`, and the
report counts those that left. -/
structure Imports (c : Cycle) (txs : List Transaction) (qs : List SaveRequest) (c' : Cycle) :
    Prop where
  asked : qs.map (·.transaction) <+: txs
  settles : c.pipeline.Settles qs c'.pipeline
  departed : c'.report.departed =
    c.report.departed + (qs.map (·.ruled c.pipeline.config)).countP (·.2.removes)

variable {c c' c'' : Cycle} {txs : List Transaction} {qs : List SaveRequest}

theorem Imports.around (txs : List Transaction) (h : c.pipeline.Settles [] c'.pipeline)
    (hdeparted : c'.report.departed = c.report.departed) : c.Imports txs [] c' :=
  ⟨List.nil_prefix, h, hdeparted⟩

theorem Imports.after (h : c.Imports txs qs c') (h' : c'.pipeline.Settles [] c''.pipeline)
    (hdeparted : c''.report.departed = c'.report.departed) : c.Imports txs qs c'' := by
  refine ⟨h.asked, ?_, hdeparted.trans h.departed⟩
  have happ := h.settles.append h'
  rwa [List.append_nil] at happ

theorem Imports.before (h' : c'.Imports txs qs c'') (h : c.pipeline.Settles [] c'.pipeline)
    (hdeparted : c'.report.departed = c.report.departed) : c.Imports txs qs c'' := by
  refine ⟨h'.asked, h.append h'.settles, ?_⟩
  rw [h'.departed, hdeparted, h.config]

end Cycle

namespace Batch

section
variable {b b' : Batch} {tx : Transaction} {txs : List Transaction} {qs : List SaveRequest}
  {c : Cycle}

theorem imports_save_of_error {e : RepositoryError} (txs : List Transaction)
    (h : b.save tx = (.error e, b')) : b.cycle.Imports (tx :: txs) [b.request tx] b'.cycle := by
  refine ⟨⟨txs, rfl⟩, settles_save_of_error h, ?_⟩
  have hb' : (b.save tx).2 = b' := congrArg Prod.snd h
  rw [List.map_singleton, ruled_request_of_error h, ← hb']
  rfl

theorem imports_cons {result : ImportResult} (h : b.save tx = (.ok result, b'))
    (hrest : (b'.settle tx result).cycle.Imports txs qs c) :
    b.cycle.Imports (tx :: txs) (b.request tx :: qs) c := by
  have hhead := settles_settle_save h
  refine ⟨List.cons_prefix_cons.mpr ⟨rfl, hrest.asked⟩, hhead.append hrest.settles, ?_⟩
  have hb' : (b.save tx).2 = b' := congrArg Prod.snd h
  have hcount := hrest.departed
  rw [hhead.config, departed_settle, ← hb'] at hcount
  change _ = b.cycle.report.departed + (result.ruling b.cycle.pipeline.config).removes.toNat + _
    at hcount
  rw [hcount, List.map_cons, List.countP_cons, ruled_request h]
  cases (result.ruling b.cycle.pipeline.config).removes
  · rfl
  · simp only [Bool.toNat_true, if_true]
    omega

end

/-! ### The ways through a batch -/

/-- The batch once the synchronizer was asked about its next request. -/
def queried (b : Batch) : Batch := { b with cycle.pipeline := b.cycle.pipeline.querySync.2 }

theorem importAll_cons_eq (tx : Transaction) (txs : List Transaction) (b : Batch) :
    importAll (tx :: txs) b =
      if b.cycle.pipeline.stopRequested then (b.interrupt, some .stopped)
      else if b.cycle.pipeline.querySync.1 then (b.queried.interrupt, none)
      else match (b.queried.save tx).1 with
        | .error e => ((b.queried.save tx).2, some (.repository e))
        | .ok result => importAll txs ((b.queried.save tx).2.settle tx result) := by
  unfold queried
  rw [importAll]
  split
  · rfl
  · split
    · rename_i pipeline hsync
      rw [hsync]
      rfl
    · rename_i pipeline hsync
      rw [hsync, if_neg Bool.false_ne_true]
      split
      · rename_i e b' hsave
        rw [hsave]
      · rename_i result b' hsave
        rw [hsave]

theorem importAll_cons_cases (tx : Transaction) (txs : List Transaction) (b : Batch) :
    (b.cycle.pipeline.stopRequested = true ∧
      importAll (tx :: txs) b = (b.interrupt, some .stopped)) ∨
    (b.cycle.pipeline.stopRequested = false ∧ b.cycle.pipeline.querySync.1 = true ∧
      importAll (tx :: txs) b = (b.queried.interrupt, none)) ∨
    (b.cycle.pipeline.stopRequested = false ∧ b.cycle.pipeline.querySync.1 = false ∧
      ((∃ e b', b.queried.save tx = (.error e, b') ∧
        importAll (tx :: txs) b = (b', some (.repository e))) ∨
      ∃ result b', b.queried.save tx = (.ok result, b') ∧
        importAll (tx :: txs) b = importAll txs (b'.settle tx result))) := by
  rw [importAll_cons_eq]
  cases hstop : b.cycle.pipeline.stopRequested with
  | true =>
    rw [if_pos rfl]
    exact Or.inl ⟨rfl, rfl⟩
  | false =>
    rw [if_neg Bool.false_ne_true]
    refine Or.inr ?_
    cases hsync : b.cycle.pipeline.querySync.1 with
    | true =>
      rw [if_pos rfl]
      exact Or.inl ⟨rfl, rfl, rfl⟩
    | false =>
      rw [if_neg Bool.false_ne_true]
      refine Or.inr ⟨rfl, rfl, ?_⟩
      cases hsave : (b.queried.save tx).1 with
      | error e => exact Or.inl ⟨e, _, Prod.ext hsave rfl, rfl⟩
      | ok result => exact Or.inr ⟨result, _, Prod.ext hsave rfl, rfl⟩

theorem importAll_imports (txs : List Transaction) (b : Batch) :
    ∃ qs, b.cycle.Imports txs qs (importAll txs b).1.cycle := by
  induction txs generalizing b with
  | nil => exact ⟨[], .around [] (.around b.cycle.pipeline _ rfl rfl) rfl⟩
  | cons tx txs ih =>
    have hquery : b.cycle.pipeline.Settles [] b.queried.cycle.pipeline :=
      b.cycle.pipeline.settles_querySync
    rcases importAll_cons_cases tx txs b with ⟨-, heq⟩ | ⟨-, -, heq⟩ |
      ⟨-, -, ⟨e, b', hsave, heq⟩ | ⟨result, b', hsave, heq⟩⟩
    · rw [heq]
      exact ⟨[], .around _ (.around b.cycle.pipeline _ rfl rfl) rfl⟩
    · rw [heq]
      exact ⟨[], .around _ hquery rfl⟩
    · rw [heq]
      exact ⟨_, (imports_save_of_error txs hsave).before hquery rfl⟩
    · rw [heq]
      obtain ⟨qs, hqs⟩ := ih (b'.settle tx result)
      exact ⟨_, (imports_cons hsave hqs).before hquery rfl⟩

end Batch

theorem ChainState.fst_tryAcquireLock (c : ChainState) : c.tryAcquireLock.1 = !c.lock.held := by
  unfold tryAcquireLock ChainLock.tryAcquire
  cases c.lock.held <;> rfl

namespace Cycle

theorem settles_releaseLock (c : Cycle) : c.pipeline.Settles [] c.releaseLock.pipeline :=
  .around c.pipeline c.pipeline.stopRequested rfl rfl

theorem settles_announce (c : Cycle) (signatures : List Signature) :
    c.pipeline.Settles [] (c.announce signatures).pipeline := by
  unfold announce
  split
  · exact .around c.pipeline c.pipeline.stopRequested rfl rfl
  · exact .around c.pipeline c.pipeline.stopRequested rfl rfl

theorem report_announce (c : Cycle) (signatures : List Signature) :
    (c.announce signatures).report = c.report := by
  unfold announce
  split <;> rfl

theorem importLocked_imports (c : Cycle) (txs : List Transaction) :
    ∃ qs, c.Imports txs qs (c.importLocked txs).1.cycle := by
  unfold importLocked
  split
  · exact ⟨[], .around txs (.around c.pipeline c.pipeline.stopRequested rfl rfl) rfl⟩
  · rename_i stored _
    exact Batch.importAll_imports txs { cycle := c, cache := .ofTransactions stored }

/-! ### The ways through the phase -/

/-- The cycle once the synchronizer was asked whether to import. -/
def asked (c : Cycle) : Cycle := { c with pipeline := c.pipeline.isSynchronizing.2 }

/-- The cycle once it has tried to take the chain lock. -/
def locked (c : Cycle) : Cycle :=
  { c with pipeline.environment.chain := c.pipeline.environment.chain.tryAcquireLock.2 }

/-- What is left to do when the batch is over. -/
def unlocked (b : Batch) : Cycle := b.cycle.releaseLock.announce b.imported

theorem settles_unlocked (b : Batch) : b.cycle.pipeline.Settles [] (unlocked b).pipeline :=
  (settles_releaseLock b.cycle).append (settles_announce b.cycle.releaseLock b.imported)

theorem report_unlocked (b : Batch) : (unlocked b).report = b.cycle.report :=
  report_announce b.cycle.releaseLock b.imported

theorem chain_asked (c : Cycle) :
    c.asked.pipeline.environment.chain = c.pipeline.environment.chain := by
  unfold asked Pipeline.isSynchronizing
  split <;> rfl

theorem repository_asked (c : Cycle) :
    c.asked.pipeline.environment.repository = c.pipeline.environment.repository := by
  unfold asked Pipeline.isSynchronizing
  split <;> rfl

theorem importTagged_eq (order : WalkOrder) (c : Cycle) :
    c.importTagged order =
      if (c.pipeline.queue.walkValidated order.importing).isEmpty then (c, none)
      else if c.pipeline.isSynchronizing.1 then (c.asked.skipImport .synchronizing, none)
      else if c.pipeline.environment.chain.lock.held then (c.asked.skipImport .chainLockBusy, none)
      else (c.asked.locked.importLocked
        (c.pipeline.queue.walkValidated order.importing)).map unlocked id := by
  have hchain := c.chain_asked
  unfold importTagged locked asked
  unfold asked at hchain
  dsimp only
  split
  · rfl
  · split
    · rename_i pipeline hsync
      rw [hsync]
      rfl
    · rename_i pipeline hsync
      rw [hsync] at hchain ⊢
      have hfree := pipeline.environment.chain.fst_tryAcquireLock
      rw [← hchain, if_neg Bool.false_ne_true]
      split
      · rename_i hbusy
        rw [hbusy] at hfree
        rw [if_pos (Bool.not_eq_false' _ |>.mp hfree.symm)]
      · rename_i chain htaken
        rw [htaken] at hfree ⊢
        rw [if_neg (Bool.not_eq_true _ |>.mpr (Bool.not_eq_true' _ |>.mp hfree.symm))]
        rfl

theorem importTagged_cases (order : WalkOrder) (c : Cycle) :
    let txs := c.pipeline.queue.walkValidated order.importing
    (txs = [] ∧ c.importTagged order = (c, none)) ∨
    (txs ≠ [] ∧ c.pipeline.isSynchronizing.1 = true ∧
      c.importTagged order = (c.asked.skipImport .synchronizing, none)) ∨
    (txs ≠ [] ∧ c.pipeline.isSynchronizing.1 = false ∧
      c.pipeline.environment.chain.lock.held = true ∧
      c.importTagged order = (c.asked.skipImport .chainLockBusy, none)) ∨
    (txs ≠ [] ∧ c.pipeline.isSynchronizing.1 = false ∧
      c.pipeline.environment.chain.lock.held = false ∧
      c.importTagged order = (c.asked.locked.importLocked txs).map unlocked id) := by
  intro txs
  rw [importTagged_eq]
  by_cases hnone : txs = []
  · rw [if_pos (List.isEmpty_iff.mpr hnone)]
    exact Or.inl ⟨hnone, rfl⟩
  · rw [if_neg fun hempty => hnone (List.isEmpty_iff.mp hempty)]
    refine Or.inr ?_
    cases hsync : c.pipeline.isSynchronizing.1 with
    | true =>
      rw [if_pos rfl]
      exact Or.inl ⟨hnone, rfl, rfl⟩
    | false =>
      rw [if_neg Bool.false_ne_true]
      refine Or.inr ?_
      cases hheld : c.pipeline.environment.chain.lock.held with
      | true =>
        rw [if_pos rfl]
        exact Or.inl ⟨hnone, rfl, rfl, rfl⟩
      | false =>
        rw [if_neg Bool.false_ne_true]
        exact Or.inr ⟨hnone, rfl, rfl, rfl⟩

theorem importTagged_imports (order : WalkOrder) (c : Cycle) :
    ∃ qs, c.Imports (c.pipeline.queue.walkValidated order.importing) qs (c.importTagged order).1 := by
  have hasked : c.pipeline.Settles [] c.asked.pipeline := c.pipeline.settles_isSynchronizing
  rcases c.importTagged_cases order with ⟨-, heq⟩ | ⟨-, -, heq⟩ | ⟨-, -, -, heq⟩ | ⟨-, -, -, heq⟩
  · rw [heq]
    exact ⟨[], .around _ (.around c.pipeline c.pipeline.stopRequested rfl rfl) rfl⟩
  · rw [heq]
    exact ⟨[], .around _ hasked rfl⟩
  · rw [heq]
    exact ⟨[], .around _ hasked rfl⟩
  · rw [heq]
    have hlocked : c.pipeline.Settles [] c.asked.locked.pipeline :=
      hasked.append (.around c.asked.pipeline c.asked.pipeline.stopRequested rfl rfl)
    obtain ⟨qs, hqs⟩ := c.asked.locked.importLocked_imports
      (c.pipeline.queue.walkValidated order.importing)
    have hunlocked := hqs.after (settles_unlocked _) (congrArg CycleReport.departed (report_unlocked _))
    exact ⟨qs, hunlocked.before hlocked rfl⟩

end Cycle
end ChainNode.Admission
