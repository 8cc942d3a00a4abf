import ChainNode.Proofs.Admission.Account
import ChainNode.Proofs.Admission.Deadline

/-!
# The cache follows the repository

The cache of a batch is read from the repository once and then grows on its own account, by what the
batch is told is saved. At every request the two agree: the cache has the signatures of what is stored at
that moment, low priorities left out. These are kept out of the cache only, not out of the imports.
-/

namespace ChainNode.Admission

/-- The cache holds nothing but what is stored and not of low priority, and of this nothing is missed
when it is looked up. -/
structure Mirrors (config : Config) (stored : List Transaction) (cache : UnconfirmedCache) :
    Prop where
  held : ∀ tx ∈ cache.transactions, tx ∈ stored ∧ config.isLowPriority tx.type = false
  found : ∀ tx ∈ stored, config.isLowPriority tx.type = false → cache.contains tx.signature = true

namespace Mirrors

variable {config : Config} {stored : List Transaction} {cache : UnconfirmedCache} {tx : Transaction}
  {s : Signature}

theorem mem_signatures_iff (h : Mirrors config stored cache) :
    (∃ tx ∈ cache.transactions, tx.signature = s) ↔
      ∃ tx ∈ stored, config.isLowPriority tx.type = false ∧ tx.signature = s := by
  constructor
  · rintro ⟨tx, htx, rfl⟩
    obtain ⟨hstored, hpriority⟩ := h.held tx htx
    exact ⟨tx, hstored, hpriority, rfl⟩
  · rintro ⟨tx, htx, hpriority, rfl⟩
    exact UnconfirmedCache.contains_iff.mp (h.found tx htx hpriority)

theorem ofTransactions (config : Config) (stored : List Transaction) :
    Mirrors config stored
      (.ofTransactions (stored.filter fun tx => !config.lowPriorityTypes.contains tx.type)) := by
  constructor
  · intro tx htx
    obtain ⟨hstored, hpriority⟩ := List.mem_filter.mp htx
    exact ⟨hstored, Bool.not_eq_true' _ |>.mp hpriority⟩
  · intro tx htx hpriority
    refine UnconfirmedCache.contains_iff.mpr ⟨tx, List.mem_filter.mpr ⟨htx, ?_⟩, rfl⟩
    exact Bool.not_eq_true' _ |>.mpr hpriority

/-- What is of low priority may be stored unseen. -/
theorem store_lowPriority (h : Mirrors config stored cache)
    (hpriority : config.isLowPriority tx.type = true) : Mirrors config (stored ++ [tx]) cache := by
  constructor
  · intro u hu
    obtain ⟨hstored, hother⟩ := h.held u hu
    exact ⟨List.mem_append_left _ hstored, hother⟩
  · intro u hu hother
    rcases List.mem_append.mp hu with hstored | hnew
    · exact h.found u hstored hother
    · rw [List.mem_singleton.mp hnew, hpriority] at hother
      cases hother

theorem store_push (h : Mirrors config stored cache)
    (hpriority : config.isLowPriority tx.type = false) :
    Mirrors config (stored ++ [tx]) (cache.push tx) := by
  constructor
  · intro u hu
    have hmem : u ∈ cache.transactions ∨ u = tx := by
      unfold UnconfirmedCache.push at hu
      split at hu
      · exact Or.inl hu
      · exact (List.mem_append.mp hu).imp_right List.mem_singleton.mp
    rcases hmem with hold | rfl
    · obtain ⟨hstored, hother⟩ := h.held u hold
      exact ⟨List.mem_append_left _ hstored, hother⟩
    · exact ⟨List.mem_append_right _ (List.mem_singleton.mpr rfl), hpriority⟩
  · -- one that is stored under a signature of the cache is not pushed, but found all the same
    intro u hu hother
    rw [UnconfirmedCache.contains_push, Bool.or_eq_true, decide_eq_true_eq]
    rcases List.mem_append.mp hu with hstored | hnew
    · exact Or.inl (h.found u hstored hother)
    · exact Or.inr (congrArg Transaction.signature (List.mem_singleton.mp hnew).symm)

end Mirrors

/-! ## One batch -/

namespace Batch

variable {b b' : Batch} {tx : Transaction} {result : ImportResult} {q : SaveRequest}

/-- The batch's cache is up to date. -/
def UpToDate (b : Batch) : Prop :=
  Mirrors b.cycle.pipeline.config b.cycle.pipeline.environment.repository.stored b.cache

/-- The repository stores exactly what it says is saved. -/
theorem stored_settle_save (hsave : b.save tx = (.ok result, b')) :
    (b'.settle tx result).cycle.pipeline.environment.repository.stored =
      b.cycle.pipeline.environment.repository.stored ++ if result = .saved then [tx] else [] := by
  have hanswer : (b.request tx).answer = .ok result := congrArg Prod.fst hsave
  have hb' : (b.save tx).2 = b' := congrArg Prod.snd hsave
  have hafter : b'.cycle.pipeline.environment.repository.stored =
      b.cycle.pipeline.environment.repository.stored ++ savedAmong [b.request tx] := by
    rw [← hb']
    exact b.cycle.pipeline.environment.repository.stored_save tx b.cache
  rw [savedAmong_singleton, SaveRequest.isSaved_of_ok hanswer] at hafter
  simp only [decide_eq_true_eq] at hafter
  rw [pipeline_settle, Pipeline.environment_rule]
  exact hafter

theorem UpToDate.settle_save (h : b.UpToDate) (hsave : b.save tx = (.ok result, b')) :
    (b'.settle tx result).UpToDate := by
  have hb' : (b.save tx).2 = b' := congrArg Prod.snd hsave
  unfold UpToDate
  rw [(settles_settle_save hsave).config, stored_settle_save hsave, ← hb']
  cases result with
  | saved =>
    show Mirrors _ (_ ++ [tx])
      (if b.cycle.pipeline.config.isLowPriority tx.type then b.cache else b.cache.push tx)
    split
    · rename_i hlow
      exact h.store_lowPriority hlow
    · rename_i hhigh
      exact h.store_push (Bool.not_eq_true _ |>.mp hhigh)
  | alreadyExists =>
    rw [if_neg nofun, List.append_nil]
    exact h
  | lockUnavailable =>
    rw [if_neg nofun, List.append_nil]
    exact h
  | invalid reason =>
    rw [if_neg nofun, List.append_nil]
    exact h

/-- Whatever end the batch comes to, each of its requests comes with a cache that is up to date. -/
theorem UpToDate.importAll (h : b.UpToDate) (txs : List Transaction)
    (hq : q ∈ (Batch.importAll txs b).1.cycle.pipeline.environment.repository.requests) :
    q ∈ b.cycle.pipeline.environment.repository.requests ∨
      Mirrors b.cycle.pipeline.config q.stored q.cache := by
  induction txs generalizing b with
  | nil => exact Or.inl hq
  | cons tx txs ih =>
    have hquery : b.queried.UpToDate := h
    rcases importAll_cons_cases tx txs b with ⟨-, heq⟩ | ⟨-, -, heq⟩ |
      ⟨-, -, ⟨e, b', hsave, heq⟩ | ⟨result, b', hsave, heq⟩⟩
    · rw [heq] at hq
      exact Or.inl hq
    · rw [heq] at hq
      exact Or.inl hq
    · have hsettles := settles_save_of_error hsave
      rw [heq, hsettles.requests] at hq
      rcases List.mem_append.mp hq with hold | hnew
      · exact Or.inl hold
      · rw [List.mem_singleton.mp hnew]
        exact Or.inr h
    · have hsettles := settles_settle_save hsave
      rw [heq] at hq
      rcases ih (hquery.settle_save hsave) hq with hhead | htail
      · rw [hsettles.requests] at hhead
        rcases List.mem_append.mp hhead with hold | hnew
        · exact Or.inl hold
        · rw [List.mem_singleton.mp hnew]
          exact Or.inr h
      · rw [hsettles.config] at htail
        exact Or.inr htail

end Batch

/-! ## Cycles and runs -/

namespace Cycle

variable {c : Cycle} {order : WalkOrder} {txs : List Transaction} {q : SaveRequest}

theorem mirrors_importLocked
    (hq : q ∈ (c.importLocked txs).1.cycle.pipeline.environment.repository.requests) :
    q ∈ c.pipeline.environment.repository.requests ∨ Mirrors c.pipeline.config q.stored q.cache := by
  rw [importLocked_eq] at hq
  split at hq
  · exact Or.inl hq
  · have hopened : c.openBatch.UpToDate := .ofTransactions _ _
    exact hopened.importAll txs hq

theorem mirrors_importTagged
    (hq : q ∈ (c.importTagged order).1.pipeline.environment.repository.requests) :
    q ∈ c.pipeline.environment.repository.requests ∨ Mirrors c.pipeline.config q.stored q.cache := by
  have hasked : c.asked.pipeline.environment.repository = c.pipeline.environment.repository :=
    c.repository_asked
  rcases c.importTagged_cases order with ⟨-, heq⟩ | ⟨-, -, heq⟩ | ⟨-, -, -, heq⟩ | ⟨-, -, -, heq⟩
  · rw [heq] at hq
    exact Or.inl hq
  · rw [heq] at hq
    exact Or.inl (hasked ▸ hq)
  · rw [heq] at hq
    exact Or.inl (hasked ▸ hq)
  · rw [heq] at hq
    -- giving the lock back and announcing makes no request
    have hunlocked := (settles_unlocked
      (c.asked.locked.importLocked (c.pipeline.queue.walkValidated order.importing)).1).requests_eq
    have hconfig : c.asked.locked.pipeline.config = c.pipeline.config :=
      c.pipeline.settles_isSynchronizing.config
    have hlocked := c.asked.locked.mirrors_importLocked (hunlocked ▸ hq)
    rw [hconfig] at hlocked
    exact hlocked.imp_left fun hold => hasked ▸ hold

end Cycle

namespace Pipeline

variable {p : Pipeline} {order : WalkOrder} {q : SaveRequest} {es : List Event}

theorem mirrors_cycle (hq : q ∈ (p.cycle order).2.environment.repository.requests) :
    q ∈ p.environment.repository.requests ∨ Mirrors p.config q.stored q.cache := by
  cases h : p.stopRequested with
  | true =>
    rw [cycle_of_stopRequested order h] at hq
    exact Or.inl hq
  | false =>
    rw [environment_cycle_eq_opened order h] at hq
    have hconfig : (p.opened order).pipeline.config = p.config := by
      rw [pipeline_opened order h, config_judged]
    have hmirrors := Cycle.mirrors_importTagged hq
    rw [environment_opened, hconfig] at hmirrors
    exact hmirrors

theorem mirrors_step {e : Event} (hq : q ∈ (p.step e).2.environment.repository.requests) :
    q ∈ p.environment.repository.requests ∨ Mirrors p.config q.stored q.cache := by
  cases e with
  | cycle order => exact mirrors_cycle hq
  | submit tx =>
    change q ∈ (p.submit tx).2.environment.repository.requests at hq
    rw [environment_submit] at hq
    exact Or.inl hq
  | requestStop => exact Or.inl hq
  | ask question => exact Or.inl hq
  | change change =>
    rw [requests_step] at hq
    exact Or.inl (List.append_nil p.environment.repository.requests ▸ hq)

theorem mirrors_run (hq : q ∈ (p.run es).environment.repository.requests) :
    q ∈ p.environment.repository.requests ∨ Mirrors p.config q.stored q.cache := by
  induction es generalizing p with
  | nil => exact Or.inl hq
  | cons e es ih =>
    rcases ih hq with hstep | hrest
    · exact mirrors_step hstep
    · rw [config_step] at hrest
      exact Or.inr hrest

/-! ## Who is handed over -/

/-- A phase that is neither skipped nor interrupted, and does not fail, hands over whoever is tagged. -/
theorem handedOver_of_completed (h : p.stopRequested = false)
    (hdone : p.importFailure order = none) (hskipped : (p.cycle order).1.importSkipped = none)
    (hinterrupted : (p.cycle order).1.importInterrupted = false) :
    p.handedOver order = (p.judged order).queue.walkValidated order.importing := by
  have hreport : (p.cycle order).1 = ((p.opened order).importTagged order).1.cleanUp.report := by
    have hgoes : ((p.opened order).importTagged order).2 ≠ some .stopped := by
      intro hstop
      rw [importFailure, hstop] at hdone
      cases hdone
    rw [cycle_eq_cleanUp order h, if_neg hgoes]
  rw [hreport] at hskipped hinterrupted
  have hends := (accounts_opened order h).2
  change ((p.opened order).importTagged order).2 = none at hdone
  change ((p.opened order).importTagged order).1.report.importSkipped = none at hskipped
  change ((p.opened order).importTagged order).1.report.importInterrupted = false at hinterrupted
  unfold handedOver
  generalize (p.opened order).importTagged order = outcome at hends hdone hskipped hinterrupted
  cases hends with
  | idle none asked =>
    rw [asked, none]
    rfl
  | skipped c' reason some asked flag =>
    rw [flag] at hskipped
    cases hskipped
  | unreadable c' e offline asked => cases hdone
  | imported b b' c' failure online opened closed ends =>
    cases ends with
    | complete b' asked answered flag => exact asked
    | interrupted b' failure fewer answered flag cause =>
      rw [closed, flag] at hinterrupted
      cases hinterrupted
    | failed b' before last e split answered failure flag => cases hdone

/-- In every run the cache that comes with a request has, in its transactions and when it is looked up,
exactly the signatures of what is stored at that moment and not of low priority. What is stored then is
what was stored when the cycle began and what the requests before it have saved. Low priority or not,
every tagged candidate is handed over, unless the phase is skipped, interrupted or failing. -/
theorem cache_mirrors_stored (config : Config) (now : UInt64) (tip : Option ChainTip)
    (es : List Event) :
    let p := (start config now tip).run es
    (∀ q ∈ p.environment.repository.requests,
      (∀ s, q.cache.contains s = true ↔ ∃ tx ∈ q.cache.transactions, tx.signature = s) ∧
      (∀ s, (∃ tx ∈ q.cache.transactions, tx.signature = s) ↔
        ∃ tx ∈ q.stored, config.isLowPriority tx.type = false ∧ tx.signature = s) ∧
      ∀ tx ∈ q.cache.transactions, config.isLowPriority tx.type = false) ∧
    ∀ order,
      (∀ before q after, p.requestsOf order = before ++ q :: after →
        q ∈ (p.cycle order).2.environment.repository.requests ∧
        q.stored = p.environment.repository.stored ++ savedAmong before ∧
        ∀ tx ∈ savedAmong before, config.isLowPriority tx.type = false →
          q.cache.contains tx.signature = true) ∧
      (p.stopRequested = false → p.importFailure order = none →
        (p.cycle order).1.importSkipped = none → (p.cycle order).1.importInterrupted = false →
        p.handedOver order = (p.judged order).queue.walkValidated order.importing) := by
  intro p
  have hmirrors {q : SaveRequest} {fs : List Event}
      (hq : q ∈ ((start config now tip).run fs).environment.repository.requests) :
      Mirrors config q.stored q.cache := by
    rcases mirrors_run hq with hnone | hmirrors
    · cases hnone
    · exact hmirrors
  refine ⟨fun q hq => ⟨fun s => UnconfirmedCache.contains_iff,
    fun s => (hmirrors hq).mem_signatures_iff, fun tx htx => ((hmirrors hq).held tx htx).2⟩,
    fun order => ⟨?_, handedOver_of_completed⟩⟩
  intro before q after hsplit
  have hmem : q ∈ (p.cycle order).2.environment.repository.requests := by
    rw [requests_cycle, hsplit]
    exact List.mem_append_right _ (List.mem_append_right _ List.mem_cons_self)
  have hstored : q.stored = p.environment.repository.stored ++ savedAmong before :=
    (hsplit ▸ p.logs_requestsOf order).stored_of_split
  -- the cycle makes the run one event longer
  have hlonger : (start config now tip).run (es ++ [.cycle order]) = (p.cycle order).2 :=
    run_append _ es [.cycle order]
  have hcache : Mirrors config q.stored q.cache := by
    apply hmirrors
    rw [hlonger]
    exact hmem
  refine ⟨hmem, hstored, fun tx htx hpriority => hcache.found tx ?_ hpriority⟩
  rw [hstored]
  exact List.mem_append_right _ htx

/-- Two payments with a chat message between them. -/
def conversation : List Event :=
  [.submit (sample 1), .submit { sample 2 with type := .chat }, .submit (sample 3)]

/-- All three are imported, and the request for the last sees the first but not the message. -/
theorem cache_mirrors_stored_conversation :
    let p := (start { liteMode := true } 0 none).run conversation
    p.stopRequested = false ∧ p.importFailure {} = none ∧
    (p.cycle {}).1.importSkipped = none ∧ (p.cycle {}).1.importInterrupted = false ∧
    p.handedOver {} = [sample 1, { sample 2 with type := .chat }, sample 3] ∧
    ∃ before q, p.requestsOf {} = before ++ [q] ∧
      savedAmong before = [sample 1, { sample 2 with type := .chat }] ∧
      q.stored = savedAmong before ∧ q.cache.contains (sample 1).signature = true ∧
      q.cache.contains (sample 2).signature = false := by
  intro p
  obtain ⟨hrequests, hcompleted⟩ :=
    (cache_mirrors_stored { liteMode := true } 0 none conversation).2 {}
  have hall := hcompleted (by decide) (by decide +kernel) (by decide +kernel) (by decide +kernel)
  have hwalk : (p.judged {}).queue.walkValidated (WalkOrder.importing {}) =
      [sample 1, { sample 2 with type := .chat }, sample 3] := by decide +kernel
  refine ⟨by decide, by decide +kernel, by decide +kernel, by decide +kernel, hall.trans hwalk, ?_⟩
  let before := (p.requestsOf {}).take 2
  let q := (p.requestsOf {}).get ⟨2, by decide +kernel⟩
  have hsplit : p.requestsOf {} = before ++ [q] := by decide +kernel
  have hsaved : savedAmong before = [sample 1, { sample 2 with type := .chat }] := by decide +kernel
  obtain ⟨-, hstored, hseen⟩ := hrequests before q [] hsplit
  exact ⟨before, q, hsplit, hsaved, hstored.trans (by decide +kernel),
    hseen (sample 1) (by rw [hsaved]; exact List.mem_cons_self) (by decide), by decide +kernel⟩

end Pipeline
end ChainNode.Admission
