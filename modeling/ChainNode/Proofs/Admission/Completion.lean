import ChainNode.Proofs.Admission.Deadline
import ChainNode.Proofs.Admission.Account

/-!
# When a batch is completed

A pipeline that nobody stops cleans up after every cycle. If moreover no countdown runs out meanwhile, a
batch that gets under way is completed: every transaction is handed over, and every request is answered.
-/

namespace ChainNode.Admission

namespace SyncStatus

/-- So many queries in turn are answered that no sync is wanted. -/
structure QuietFor (s : SyncStatus) (queries : Nat) : Prop where
  pending : s.pending = false
  countdown : ∀ left, s.pendingAfter = some left → queries ≤ left

variable {s : SyncStatus} {n : Nat}

theorem countdown_query (h : ∀ left, s.pendingAfter = some left → n < left) :
    ∀ left, s.query.pendingAfter = some left → n ≤ left := by
  intro left hleft
  change (tick s.pendingAfter).2 = some left at hleft
  cases hafter : s.pendingAfter with
  | none =>
    rw [hafter] at hleft
    cases hleft
  | some after =>
    rw [hafter] at hleft
    cases after with
    | zero => cases hleft
    | succ after =>
      cases hleft
      exact Nat.le_of_lt_succ (h _ hafter)

theorem QuietFor.query (h : s.QuietFor (n + 1)) : s.query.QuietFor n := by
  refine ⟨?_, countdown_query h.countdown⟩
  show (s.pending || (tick s.pendingAfter).1) = false
  rw [h.pending, Bool.false_or]
  cases hafter : s.pendingAfter with
  | none => rfl
  | some after =>
    cases after with
    | zero => exact absurd (h.countdown _ hafter) (Nat.not_succ_le_zero n)
    | succ after => rfl

end SyncStatus

namespace Repository

/-- So many requests to save in turn are answered. -/
structure Takes (r : Repository) (saves : Nat) : Prop where
  online : r.failing = false
  budget : ∀ left, r.savesLeft = some left → saves ≤ left

variable {r : Repository} {n : Nat}

theorem failing_respond (r : Repository) (tx : Transaction) :
    (r.respond tx).2.failing = r.failing := by
  unfold respond
  split
  · rfl
  · rfl
  · split <;> rfl

theorem Takes.save (h : r.Takes (n + 1)) (tx : Transaction) (cache : UnconfirmedCache) :
    (r.save tx cache).1 = .ok (r.answerFor tx) ∧ (r.save tx cache).2.Takes n := by
  have hanswer : (r.save tx cache).1 = (r.request tx cache).answer := rfl
  have hbudget : r.savesLeft ≠ some 0 :=
    fun hnone => absurd (h.budget 0 hnone) (Nat.not_succ_le_zero n)
  rcases r.save_cases tx cache with ⟨e, herror, -⟩ | ⟨hok, hafter⟩
  · -- neither reason to fail is there
    exfalso
    have htry : (r.trySave tx).1 = .error e := herror
    unfold trySave at htry
    rw [if_neg (by rw [h.online]; exact Bool.false_ne_true)] at htry
    split at htry
    · rename_i hnone
      exact hbudget hnone
    · cases htry
  · refine ⟨hanswer.trans hok, ?_⟩
    rw [hafter]
    refine ⟨(r.failing_respond tx).trans h.online, fun left hleft => ?_⟩
    obtain ⟨before, hbefore, rfl⟩ := Option.map_eq_some_iff.mp hleft
    have hle := h.budget before hbefore
    omega

end Repository

/-! ## Nobody stops it -/

/-- The pipeline is not to stop, and no query will tell it to. -/
structure Pipeline.GoesOn (p : Pipeline) : Prop where
  going : p.stopRequested = false
  unstopped : p.environment.sync.stopAfter = none

theorem Pipeline.GoesOn.querySync {p : Pipeline} (h : p.GoesOn) : p.querySync.2.GoesOn := by
  refine ⟨?_, ?_⟩
  · show (p.stopRequested || (SyncStatus.tick p.environment.sync.stopAfter).1) = false
    rw [h.going, h.unstopped]
    rfl
  · show (SyncStatus.tick p.environment.sync.stopAfter).2 = none
    rw [h.unstopped]
    rfl

namespace Batch

variable {b b' : Batch} {tx : Transaction} {txs : List Transaction} {result : ImportResult}

theorem goesOn_settle_save (h : b.cycle.pipeline.GoesOn) (hsave : b.save tx = (.ok result, b')) :
    (b'.settle tx result).cycle.pipeline.GoesOn := by
  have hb' : (b.save tx).2 = b' := congrArg Prod.snd hsave
  rw [pipeline_settle, ← hb']
  refine ⟨?_, ?_⟩
  · rw [Pipeline.stopRequested_rule]
    exact h.going
  · rw [Pipeline.environment_rule]
    exact h.unstopped

theorem goesOn_importAll (h : b.cycle.pipeline.GoesOn) (txs : List Transaction) :
    (importAll txs b).1.cycle.pipeline.GoesOn ∧ (importAll txs b).2 ≠ some .stopped := by
  induction txs generalizing b with
  | nil => exact ⟨h, fun hstop => by cases hstop⟩
  | cons tx txs ih =>
    have hquery : b.queried.cycle.pipeline.GoesOn := h.querySync
    rcases importAll_cons_cases tx txs b with ⟨hstop, -⟩ | ⟨-, -, heq⟩ |
      ⟨-, -, ⟨e, b', hsave, heq⟩ | ⟨result, b', hsave, heq⟩⟩
    · rw [h.going] at hstop
      cases hstop
    · rw [heq]
      exact ⟨hquery, fun hstop => by cases hstop⟩
    · have hb' : (b.queried.save tx).2 = b' := congrArg Prod.snd hsave
      rw [heq, ← hb']
      exact ⟨⟨hquery.going, hquery.unstopped⟩, fun hstop => by cases hstop⟩
    · rw [heq]
      exact ih (goesOn_settle_save hquery hsave)

/-- A batch that nothing can disturb before its end is completed. -/
theorem importAll_completes (h : b.cycle.pipeline.GoesOn)
    (hquiet : b.cycle.pipeline.environment.sync.QuietFor txs.length)
    (htakes : b.cycle.pipeline.environment.repository.Takes txs.length) :
    (importAll txs b).2 = none ∧
      (importAll txs b).1.cycle.report.importInterrupted = b.cycle.report.importInterrupted := by
  induction txs generalizing b with
  | nil => exact ⟨rfl, rfl⟩
  | cons tx txs ih =>
    have hquery : b.queried.cycle.pipeline.GoesOn := h.querySync
    have hsilent : b.cycle.pipeline.querySync.1 = false := hquiet.query.pending
    obtain ⟨hanswered, hleft⟩ := htakes.save tx b.cache
    rcases importAll_cons_cases tx txs b with ⟨hstop, -⟩ | ⟨-, hsync, -⟩ |
      ⟨-, -, ⟨e, b', hsave, -⟩ | ⟨result, b', hsave, heq⟩⟩
    · rw [h.going] at hstop
      cases hstop
    · rw [hsilent] at hsync
      cases hsync
    · have herror : (b.cycle.pipeline.environment.repository.save tx b.cache).1 = .error e :=
        congrArg Prod.fst hsave
      rw [hanswered] at herror
      cases herror
    · have hb' : (b.queried.save tx).2 = b' := congrArg Prod.snd hsave
      have hafter : (b'.settle tx result).cycle.pipeline.environment =
          b'.cycle.pipeline.environment := by
        rw [pipeline_settle, Pipeline.environment_rule]
      have hrest := ih (b := b'.settle tx result) (goesOn_settle_save hquery hsave)
        (by rw [hafter, ← hb']; exact hquiet.query) (by rw [hafter, ← hb']; exact hleft)
      rw [heq]
      exact ⟨hrest.1, hrest.2.trans (importInterrupted_settle_save (b := b.queried) hsave)⟩

end Batch

namespace Cycle

variable {c : Cycle} {order : WalkOrder}

theorem goesOn_asked (h : c.pipeline.GoesOn) : c.asked.pipeline.GoesOn := by
  unfold asked Pipeline.isSynchronizing
  split
  · exact h
  · exact h.querySync

theorem goesOn_unlocked {b : Batch} (h : b.cycle.pipeline.GoesOn) :
    (unlocked b).pipeline.GoesOn := by
  unfold unlocked announce
  split
  · exact ⟨h.going, h.unstopped⟩
  · exact ⟨h.going, h.unstopped⟩

theorem goesOn_importTagged (h : c.pipeline.GoesOn) (order : WalkOrder) :
    (c.importTagged order).1.pipeline.GoesOn ∧ (c.importTagged order).2 ≠ some .stopped := by
  have hasked := goesOn_asked h
  rcases c.importTagged_cases order with ⟨-, heq⟩ | ⟨-, -, heq⟩ | ⟨-, -, -, heq⟩ | ⟨-, -, -, heq⟩
  · rw [heq]
    exact ⟨h, fun hstop => by cases hstop⟩
  · rw [heq]
    exact ⟨hasked, fun hstop => by cases hstop⟩
  · rw [heq]
    exact ⟨hasked, fun hstop => by cases hstop⟩
  · have hlocked : c.asked.locked.pipeline.GoesOn := ⟨hasked.going, hasked.unstopped⟩
    rw [heq, importLocked_eq]
    split
    · exact ⟨goesOn_unlocked hlocked, fun hstop => by cases hstop⟩
    · obtain ⟨hgoes, hstop⟩ := Batch.goesOn_importAll (b := c.asked.locked.openBatch) hlocked
        (c.pipeline.queue.walkValidated order.importing)
      exact ⟨goesOn_unlocked hgoes, hstop⟩

/-- An import phase that goes on has asked the synchronizer once, which said no. -/
theorem sync_asked (h : c.pipeline.isSynchronizing.1 = false) :
    c.asked.pipeline.environment.sync = c.pipeline.environment.sync.query ∧
      c.pipeline.environment.sync.query.pending = false := by
  unfold asked
  unfold Pipeline.isSynchronizing at h ⊢
  split
  · rename_i hsyncing
    rw [if_pos hsyncing] at h
    cases h
  · rename_i hidle
    rw [if_neg hidle] at h
    exact ⟨rfl, h⟩

theorem importLocked_completes {txs : List Transaction} (h : c.pipeline.GoesOn)
    (hquiet : c.pipeline.environment.sync.QuietFor txs.length)
    (hsaves : ∀ left, c.pipeline.environment.repository.savesLeft = some left → txs.length ≤ left) :
    ((c.importLocked txs).2 = none ∨ c.pipeline.environment.repository.failing = true) ∧
      (c.importLocked txs).1.cycle.report.importInterrupted = c.report.importInterrupted := by
  rw [importLocked_eq]
  split
  · rename_i hfailing
    exact ⟨Or.inr hfailing, rfl⟩
  · rename_i honline
    have htakes : c.pipeline.environment.repository.Takes txs.length :=
      ⟨Bool.not_eq_true _ |>.mp honline, hsaves⟩
    obtain ⟨hnone, hflag⟩ := Batch.importAll_completes (b := c.openBatch) h hquiet htakes
    exact ⟨Or.inl hnone, hflag⟩

/-- Unless the repository cannot be read, a phase that no countdown can disturb is completed. -/
theorem importTagged_completes {n : Nat} (h : c.pipeline.GoesOn)
    (hsync : ∀ left, c.pipeline.environment.sync.pendingAfter = some left → n < left)
    (hsaves : ∀ left, c.pipeline.environment.repository.savesLeft = some left → n ≤ left)
    (hlength : (c.pipeline.queue.walkValidated order.importing).length ≤ n) :
    ((c.importTagged order).2 = none ∨ c.pipeline.environment.repository.failing = true) ∧
      (c.importTagged order).1.report.importInterrupted = c.report.importInterrupted := by
  rcases c.importTagged_cases order with ⟨-, heq⟩ | ⟨-, -, heq⟩ | ⟨-, -, -, heq⟩ |
    ⟨-, hquiet, -, heq⟩
  · rw [heq]
    exact ⟨Or.inl rfl, rfl⟩
  · rw [heq]
    exact ⟨Or.inl rfl, rfl⟩
  · rw [heq]
    exact ⟨Or.inl rfl, rfl⟩
  · let txs := c.pipeline.queue.walkValidated order.importing
    obtain ⟨hquery, hpending⟩ := sync_asked hquiet
    have hgoes : c.asked.locked.pipeline.GoesOn :=
      ⟨(goesOn_asked h).going, (goesOn_asked h).unstopped⟩
    have hsilent : c.asked.pipeline.environment.sync.QuietFor txs.length := by
      rw [hquery]
      exact ⟨hpending, fun left hleft =>
        Nat.le_trans hlength (SyncStatus.countdown_query hsync left hleft)⟩
    have hbudget : ∀ left, c.asked.pipeline.environment.repository.savesLeft = some left →
        txs.length ≤ left := by
      rw [repository_asked]
      exact fun left hleft => Nat.le_trans hlength (hsaves left hleft)
    obtain ⟨hdone, hflag⟩ := importLocked_completes hgoes hsilent hbudget
    change _ ∨ c.asked.pipeline.environment.repository.failing = true at hdone
    rw [repository_asked] at hdone
    rw [heq]
    exact ⟨hdone, (congrArg CycleReport.importInterrupted (report_unlocked _)).trans hflag⟩

end Cycle

/-! ## The whole cycle -/

namespace Pipeline

variable {p : Pipeline} {order : WalkOrder}

theorem GoesOn.judged (h : p.GoesOn) (order : WalkOrder) : (p.judged order).GoesOn := by
  refine ⟨?_, ?_⟩
  · rw [stopRequested_judged]
    exact h.going
  · rw [environment_judged]
    exact h.unstopped

theorem GoesOn.opened (h : p.GoesOn) (order : WalkOrder) : (p.opened order).pipeline.GoesOn := by
  rw [pipeline_opened order h.going]
  exact h.judged order

theorem GoesOn.cycle_eq (h : p.GoesOn) (order : WalkOrder) :
    p.cycle order = (((p.opened order).importTagged order).1.cleanUp.report,
      ((p.opened order).importTagged order).1.cleanUp.pipeline) := by
  rw [cycle_eq_cleanUp order h.going, if_neg (Cycle.goesOn_importTagged (h.opened order) order).2]

theorem GoesOn.cycle (h : p.GoesOn) (order : WalkOrder) : (p.cycle order).2.GoesOn := by
  have hgoes := (Cycle.goesOn_importTagged (h.opened order) order).1
  rw [h.cycle_eq]
  exact ⟨hgoes.going, hgoes.unstopped⟩

theorem GoesOn.cleanUp_cycle (h : p.GoesOn) (order : WalkOrder) :
    ((p.cycle order).1.purged, (p.cycle order).2.cooldowns) =
      (p.cooldownsLeft order).purge p.environment.now := by
  rw [h.cycle_eq]
  exact (cooldowns_cleanUp order h.going).2

theorem GoesOn.expiry?_cycle (h : p.GoesOn) (hp : p.WellFormed) (order : WalkOrder)
    (s : Signature) :
    (p.cycle order).2.cooldowns.expiry? s = ((p.cooldownsLeft order).expiry? s).filter
      fun expiry => decide (p.environment.now ≤ expiry) := by
  have hpurged : (p.cycle order).2.cooldowns =
      ((p.cooldownsLeft order).purge p.environment.now).2 :=
    congrArg Prod.snd (h.cleanUp_cycle order)
  rw [hpurged, (hp.cooldownsLeft order).expiry?_purge]

/-- No countdown runs out in a cycle that has so many transactions to import. -/
structure Undisturbed (p : Pipeline) (n : Nat) : Prop where
  goes : p.GoesOn
  sync : ∀ left, p.environment.sync.pendingAfter = some left → n < left
  saves : ∀ left, p.environment.repository.savesLeft = some left → n ≤ left

theorem WellFormed.length_walkValidated_le (h : p.WellFormed) (order : WalkOrder) :
    ((p.judged order).queue.walkValidated order.importing).length ≤ p.queue.size := by
  have hjudged : (p.judged order).queue.candidates.length ≤ p.queue.candidates.length := by
    rw [Pipeline.judged, candidates_ruleAll (h.nodup_firstRulings order)]
    exact List.length_filterMap_le _ _
  have hwalk := ((p.judged order).queue.perm_walk order.importing).length_eq
  rw [Queue.walkValidated, List.length_map]
  exact Nat.le_trans (List.length_filter_le _ _) (hwalk ▸ hjudged)

theorem Undisturbed.completes (h : p.Undisturbed p.queue.size) (hp : p.WellFormed)
    (order : WalkOrder) :
    (p.cycle order).1.importInterrupted = false ∧
      (p.requestsOf order = [] ∨
        ((p.requestsOf order).map (·.transaction) =
            (p.judged order).queue.walkValidated order.importing ∧
          ∀ q ∈ p.requestsOf order, q.isAnswered = true)) := by
  have hgo := h.goes.going
  have henvironment := p.environment_opened order
  have hlength : ((p.opened order).pipeline.queue.walkValidated order.importing).length ≤
      p.queue.size := by
    rw [pipeline_opened order hgo]
    exact hp.length_walkValidated_le order
  have hfresh : (p.opened order).report.importInterrupted = false := by
    rw [hp.report_opened order]
    rfl
  obtain ⟨hnone, hflag⟩ := Cycle.importTagged_completes (h.goes.opened order)
    (by rw [henvironment]; exact h.sync) (by rw [henvironment]; exact h.saves) hlength
  rw [hfresh] at hflag
  refine ⟨by rw [h.goes.cycle_eq]; exact hflag, ?_⟩
  have hends := (accounts_opened order hgo).2
  generalize (p.opened order).importTagged order = outcome at hends hnone hflag
  cases hends with
  | idle none asked => exact Or.inl asked
  | skipped c' reason some asked flag => exact Or.inl asked
  | unreadable c' e offline asked => exact Or.inl asked
  | imported b b' c' failure online opened closed ends =>
    rw [online] at hnone
    have hdone : failure = none := hnone.resolve_right Bool.false_ne_true
    -- neither a failure nor the flag of an interruption is there
    cases ends with
    | complete b' asked answered flag => exact Or.inr ⟨asked, answered⟩
    | interrupted b' failure fewer answered flag cause =>
      rw [closed, flag] at hflag
      cases hflag
    | failed b' before last e split answered failure flag => cases hdone

end Pipeline
end ChainNode.Admission
