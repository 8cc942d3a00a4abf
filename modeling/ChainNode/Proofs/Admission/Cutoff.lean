import ChainNode.Proofs.Admission.Completion
import ChainNode.Proofs.Admission.Sifting

/-!
# How far a batch gets

A batch that gets under way goes through its transactions until the pipeline is told to stop, a sync is
requested, or the repository fails. The countdowns tell beforehand how many are answered. These are
settled by their answers, one by one, and the rest are as if there had been no batch.
-/

namespace ChainNode.Admission

/-! ## Countdowns -/

/-- How many saves are made before the pipeline is told to stop, before a sync is requested, and before
the repository fails. -/
structure Limits where
  stop : Option Nat
  sync : Option Nat
  saves : Option Nat

namespace Limits

/-- `n`, or the limit if it is lower. -/
def upTo (limit : Option Nat) (n : Nat) : Nat := limit.elim n (min · n)

/-- How many of `n` saves are made. -/
def cut (l : Limits) (n : Nat) : Nat := upTo l.stop (upTo l.sync (upTo l.saves n))

/-- Some of `n` saves are not made because of a stop. -/
def Stops (l : Limits) (n : Nat) : Prop := l.cut n < n ∧ l.stop = some (l.cut n)

/-- Some of `n` saves are not made because of a stop or a sync. -/
def Interrupts (l : Limits) (n : Nat) : Prop :=
  l.cut n < n ∧ (l.stop = some (l.cut n) ∨ l.sync = some (l.cut n))

/-- The limits after one save. -/
def next (l : Limits) : Limits := ⟨l.stop.map (· - 1), l.sync.map (· - 1), l.saves.map (· - 1)⟩

/-- No limit is reached yet. -/
structure Open (l : Limits) : Prop where
  stop : l.stop ≠ some 0
  sync : l.sync ≠ some 0
  saves : l.saves ≠ some 0

variable {l : Limits} {limit : Option Nat} {n k : Nat}

theorem le_upTo_iff : k ≤ upTo limit n ↔ (∀ m ∈ limit, k ≤ m) ∧ k ≤ n := by
  cases limit with
  | none => simp [upTo]
  | some m =>
    rw [upTo, Option.elim_some, Nat.le_min]
    simp only [Option.mem_some_iff, forall_eq']

theorem upTo_succ (h : limit ≠ some 0) (n : Nat) :
    upTo limit (n + 1) = upTo (limit.map (· - 1)) n + 1 := by
  cases limit with
  | none => rfl
  | some k =>
    cases k with
    | zero => exact absurd rfl h
    | succ k => exact Nat.succ_min_succ k n

theorem map_pred_eq_some_iff (h : limit ≠ some 0) :
    limit.map (· - 1) = some k ↔ limit = some (k + 1) := by
  cases limit with
  | none => simp
  | some m =>
    cases m with
    | zero => exact absurd rfl h
    | succ m => simp

theorem le_cut_iff : k ≤ l.cut n ↔ (∀ m ∈ l.stop, k ≤ m) ∧ (∀ m ∈ l.sync, k ≤ m) ∧
    (∀ m ∈ l.saves, k ≤ m) ∧ k ≤ n := by
  rw [cut, le_upTo_iff, le_upTo_iff, le_upTo_iff]

/-- Where a limit is reached, nothing more is saved. -/
theorem cut_of_reached (h : l.stop = some 0 ∨ l.sync = some 0 ∨ l.saves = some 0) (n : Nat) :
    l.cut n = 0 := by
  have hbounds := le_cut_iff.mp (Nat.le_refl (l.cut n))
  apply Nat.le_zero.mp
  rcases h with hstop | hsync | hsaves
  · exact hbounds.1 0 hstop
  · exact hbounds.2.1 0 hsync
  · exact hbounds.2.2.1 0 hsaves

theorem Open.cut_succ (h : l.Open) (n : Nat) : l.cut (n + 1) = l.next.cut n + 1 := by
  rw [cut, upTo_succ h.saves, upTo_succ h.sync, upTo_succ h.stop]
  rfl

theorem Open.stops_succ (h : l.Open) (n : Nat) : l.Stops (n + 1) ↔ l.next.Stops n := by
  rw [Stops, h.cut_succ, Nat.add_lt_add_iff_right, ← map_pred_eq_some_iff h.stop]
  rfl

theorem Open.interrupts_succ (h : l.Open) (n : Nat) : l.Interrupts (n + 1) ↔ l.next.Interrupts n := by
  rw [Interrupts, h.cut_succ, Nat.add_lt_add_iff_right, ← map_pred_eq_some_iff h.stop,
    ← map_pred_eq_some_iff h.sync]
  rfl

end Limits

namespace SyncStatus

variable {s : SyncStatus}

theorem pending_query_iff (h : s.pending = false) :
    s.query.pending = true ↔ s.pendingAfter = some 0 := by
  show (s.pending || (tick s.pendingAfter).1) = true ↔ _
  rw [h, Bool.false_or]
  cases s.pendingAfter with
  | none => simp [tick]
  | some left => cases left <;> simp [tick]

theorem pending_of_query (h : s.query.pending = false) : s.pending = false :=
  (Bool.or_eq_false_iff.mp h).1

theorem pendingAfter_query (h : s.query.pending = false) :
    s.query.pendingAfter = s.pendingAfter.map (· - 1) := by
  have hdue : (tick s.pendingAfter).1 = false := (Bool.or_eq_false_iff.mp h).2
  show (tick s.pendingAfter).2 = _
  cases hafter : s.pendingAfter with
  | none => rfl
  | some left =>
    cases left with
    | zero =>
      rw [hafter] at hdue
      cases hdue
    | succ left => rfl

/-- How many saves are made from here before a stop takes effect: one more than there are queries left,
since the candidate that the last query is made for is still saved. -/
def stopLimit (s : SyncStatus) (stopped : Bool) : Option Nat :=
  if stopped then some 0 else s.stopAfter.map (· + 1)

theorem stopLimit_query (s : SyncStatus) : s.query.stopLimit s.stopsNext = s.stopAfter := by
  show (if (tick s.stopAfter).1 then some 0 else (tick s.stopAfter).2.map (· + 1)) = _
  cases s.stopAfter with
  | none => rfl
  | some left => cases left <;> rfl

theorem map_pred_stopLimit (s : SyncStatus) : (s.stopLimit false).map (· - 1) = s.stopAfter := by
  show (s.stopAfter.map (· + 1)).map (· - 1) = _
  cases s.stopAfter <;> rfl

theorem stopLimit_ne_zero (s : SyncStatus) : s.stopLimit false ≠ some 0 := by
  show s.stopAfter.map (· + 1) ≠ some 0
  cases s.stopAfter <;> simp

end SyncStatus

namespace Repository

variable {r : Repository} {tx : Transaction} {cache : UnconfirmedCache}

/-- A repository that is online fails for one reason only. -/
theorem savesLeft_of_error {e : RepositoryError} (honline : r.failing = false)
    (h : (r.save tx cache).1 = .error e) : r.savesLeft = some 0 := by
  by_contra hleft
  have htakes : r.Takes 1 := by
    refine ⟨honline, fun left hsome => ?_⟩
    by_contra hzero
    rw [Nat.not_le, Nat.lt_one_iff] at hzero
    rw [hsome, hzero] at hleft
    exact hleft rfl
  rw [(htakes.save tx cache).1] at h
  cases h

theorem savesLeft_ne_of_ok {result : ImportResult} (h : (r.save tx cache).1 = .ok result) :
    r.savesLeft ≠ some 0 := by
  intro hspent
  change (r.trySave tx).1 = .ok result at h
  rw [trySave, hspent] at h
  split at h <;> cases h

theorem failing_save (r : Repository) (tx : Transaction) (cache : UnconfirmedCache) :
    (r.save tx cache).2.failing = r.failing := by
  rcases r.save_cases tx cache with ⟨e, -, hafter⟩ | ⟨-, hafter⟩
  · rw [hafter]
  · rw [hafter]
    exact r.failing_respond tx

theorem savesLeft_save {result : ImportResult} (h : (r.save tx cache).1 = .ok result) :
    (r.save tx cache).2.savesLeft = r.savesLeft.map (· - 1) := by
  have hanswer : (r.request tx cache).answer = .ok result := h
  rcases r.save_cases tx cache with ⟨e, herror, -⟩ | ⟨-, hafter⟩
  · rw [hanswer] at herror
    cases herror
  · rw [hafter]

/-- What the repository has, and what it will answer, under this signature. -/
def about (r : Repository) (s : Signature) : List Transaction × List (Signature × ImportResult) :=
  (r.stored.filter (·.signature = s), r.scripts.filter (·.1 = s))

theorem filter_takeScript {s t : Signature} (h : t ≠ s) (scripts : List (Signature × ImportResult)) :
    (takeScript t scripts).2.filter (·.1 = s) = scripts.filter (·.1 = s) := by
  induction scripts with
  | nil => rfl
  | cons x scripts ih =>
    obtain ⟨u, kept⟩ := x
    unfold takeScript
    by_cases hu : u = t
    · have hus : u ≠ s := hu ▸ h
      simp [hu, h]
    · simp [hu, List.filter_cons, ih]

section
variable {qs : List SaveRequest} {s : Signature}
  (hs : ∀ q ∈ qs, q.isAnswered = true → q.transaction.signature ≠ s)
include hs

theorem filter_scriptsAfter (scripts : List (Signature × ImportResult)) :
    (scriptsAfter scripts qs).filter (·.1 = s) = scripts.filter (·.1 = s) := by
  induction qs generalizing scripts with
  | nil => rfl
  | cons q qs ih =>
    rw [List.forall_mem_cons] at hs
    have hrest := ih hs.2 (if q.isAnswered then (takeScript q.transaction.signature scripts).2 else scripts)
    refine hrest.trans ?_
    split
    · rename_i hanswered
      exact filter_takeScript (hs.1 hanswered) scripts
    · rfl

theorem filter_savedAmong : (savedAmong qs).filter (·.signature = s) = [] := by
  rw [List.filter_eq_nil_iff]
  intro tx htx
  obtain ⟨q, hq, rfl⟩ := List.mem_map.mp htx
  obtain ⟨hmem, hsaved⟩ := List.mem_filter.mp hq
  have hanswered : q.isAnswered = true := by
    by_contra hnot
    rw [SaveRequest.isSaved_of_unanswered (Bool.not_eq_true _ |>.mp hnot)] at hsaved
    cases hsaved
  simpa using hs q hmem hanswered

/-- Requests under other signatures are nothing to this one, and neither are those that failed. -/
theorem Logs.about_replay (h : r.Logs qs) : (r.replay qs).about s = r.about s := by
  rw [about, h.stored, h.scripts_replay, List.filter_append, filter_savedAmong hs, List.append_nil,
    filter_scriptsAfter hs]
  rfl

end

theorem answered_save (r : Repository) (tx : Transaction) (cache : UnconfirmedCache) :
    (r.save tx cache).2.answered = r.answered ++ [r.request tx cache].filter (·.isAnswered) :=
  List.filter_append r.requests [r.request tx cache]

theorem answered_save_of_error {e : RepositoryError} (h : (r.save tx cache).1 = .error e) :
    (r.save tx cache).2.answered = r.answered := by
  have hanswer : (r.request tx cache).answer = .error e := h
  simp [answered_save, SaveRequest.isAnswered, hanswer]

theorem answered_save_of_ok {result : ImportResult} (h : (r.save tx cache).1 = .ok result) :
    (r.save tx cache).2.answered = r.answered ++ [r.request tx cache] := by
  have hanswer : (r.request tx cache).answer = .ok result := h
  simp [answered_save, SaveRequest.isAnswered, hanswer]

end Repository

/-! ## The batch -/

/-- From `c` to `c'`, the repository has answered for as many of the transactions as the limits allow, and
it is on record why there were no more. -/
structure Cycle.GetsTo (c : Cycle) (l : Limits) (txs : List Transaction) (c' : Cycle)
    (failure : Option AdmissionError) : Prop where
  answered : c'.pipeline.environment.repository.answered.map (·.transaction) =
    c.pipeline.environment.repository.answered.map (·.transaction) ++ txs.take (l.cut txs.length)
  interrupted : c'.report.importInterrupted = true ↔
    c.report.importInterrupted = true ∨ l.Interrupts txs.length
  stopped : failure = some .stopped ↔ l.Stops txs.length

theorem Cycle.getsTo_nil (c : Cycle) (l : Limits) : c.GetsTo l [] c none := by
  refine ⟨?_, ?_, ?_⟩
  · rw [List.take_nil, List.append_nil]
  · simp [Limits.Interrupts]
  · simp [Limits.Stops]

/-- Where a limit is reached, the batch ends before its next transaction. -/
theorem Cycle.getsTo_of_reached {l : Limits} {c c' : Cycle} {tx : Transaction}
    {txs : List Transaction} {failure : Option AdmissionError}
    (hreached : l.stop = some 0 ∨ l.sync = some 0 ∨ l.saves = some 0)
    (hanswered : c'.pipeline.environment.repository.answered =
      c.pipeline.environment.repository.answered)
    (hinterrupted : c'.report.importInterrupted = true ↔
      c.report.importInterrupted = true ∨ l.stop = some 0 ∨ l.sync = some 0)
    (hstopped : failure = some .stopped ↔ l.stop = some 0) :
    c.GetsTo l (tx :: txs) c' failure := by
  have hcut := Limits.cut_of_reached hreached (tx :: txs).length
  have hmore : 0 < (tx :: txs).length := Nat.succ_pos _
  refine ⟨?_, ?_, ?_⟩
  · rw [hanswered, hcut, List.take_zero, List.append_nil]
  · rw [hinterrupted, Limits.Interrupts, hcut, and_iff_right hmore]
  · rw [hstopped, Limits.Stops, hcut, and_iff_right hmore]

/-- A transaction that is answered for takes the batch one further. -/
theorem Cycle.GetsTo.cons {l : Limits} {c c₁ c' : Cycle} {tx : Transaction} {txs : List Transaction}
    {failure : Option AdmissionError} (hopen : l.Open)
    (hanswered : c₁.pipeline.environment.repository.answered.map (·.transaction) =
      c.pipeline.environment.repository.answered.map (·.transaction) ++ [tx])
    (hinterrupted : c₁.report.importInterrupted = c.report.importInterrupted)
    (hrest : c₁.GetsTo l.next txs c' failure) : c.GetsTo l (tx :: txs) c' failure := by
  refine ⟨?_, ?_, ?_⟩
  · rw [hrest.answered, hanswered, List.length_cons, hopen.cut_succ, List.take_succ_cons,
      List.append_assoc, List.singleton_append]
  · rw [hrest.interrupted, hinterrupted, List.length_cons, hopen.interrupts_succ]
  · rw [hrest.stopped, List.length_cons, hopen.stops_succ]

namespace Batch

variable {b b' : Batch} {tx : Transaction} {txs : List Transaction} {result : ImportResult}

/-- The limits of the batch from here on. -/
def limits (b : Batch) : Limits where
  stop := b.cycle.pipeline.environment.sync.stopLimit b.cycle.pipeline.stopRequested
  sync := b.cycle.pipeline.environment.sync.pendingAfter
  saves := b.cycle.pipeline.environment.repository.savesLeft

theorem environment_settle_save (hsave : b.save tx = (.ok result, b')) :
    (b'.settle tx result).cycle.pipeline.environment =
      { b.cycle.pipeline.environment with
        repository := (b.cycle.pipeline.environment.repository.save tx b.cache).2 } := by
  have hb' : (b.save tx).2 = b' := congrArg Prod.snd hsave
  rw [pipeline_settle, Pipeline.environment_rule, ← hb']
  rfl

theorem stopRequested_settle_save (hsave : b.save tx = (.ok result, b')) :
    (b'.settle tx result).cycle.pipeline.stopRequested = b.cycle.pipeline.stopRequested := by
  have hb' : (b.save tx).2 = b' := congrArg Prod.snd hsave
  rw [pipeline_settle, Pipeline.stopRequested_rule, ← hb']
  rfl

/-- One answered save takes one off each limit. -/
theorem limits_settle_save (hgo : b.cycle.pipeline.stopRequested = false)
    (hsync : b.cycle.pipeline.querySync.1 = false) (hsave : b.queried.save tx = (.ok result, b')) :
    (b'.settle tx result).limits = b.limits.next := by
  have hsaved : (b.cycle.pipeline.environment.repository.save tx b.cache).1 = .ok result :=
    congrArg Prod.fst hsave
  have hstop : b.queried.cycle.pipeline.stopRequested =
      b.cycle.pipeline.environment.sync.stopsNext := by
    show (b.cycle.pipeline.stopRequested || _) = _
    rw [hgo, Bool.false_or]
  unfold limits Limits.next
  rw [environment_settle_save hsave, stopRequested_settle_save hsave, hstop, hgo]
  rw [Limits.mk.injEq]
  exact ⟨(SyncStatus.stopLimit_query _).trans (SyncStatus.map_pred_stopLimit _).symm,
    SyncStatus.pendingAfter_query hsync, Repository.savesLeft_save hsaved⟩

theorem limits_stop_ne_zero (hgo : b.cycle.pipeline.stopRequested = false) :
    b.limits.stop ≠ some 0 := by
  rw [limits, hgo]
  exact SyncStatus.stopLimit_ne_zero _

theorem limits_sync_ne_zero (hquiet : b.cycle.pipeline.environment.sync.pending = false)
    (hsync : b.cycle.pipeline.querySync.1 = false) : b.limits.sync ≠ some 0 := by
  intro hdue
  have hpending : b.cycle.pipeline.environment.sync.query.pending = true :=
    (SyncStatus.pending_query_iff hquiet).mpr hdue
  rw [Pipeline.querySync, hpending] at hsync
  cases hsync

theorem importAll_getsTo (honline : b.cycle.pipeline.environment.repository.failing = false)
    (hquiet : b.cycle.pipeline.environment.sync.pending = false) (txs : List Transaction) :
    b.cycle.GetsTo b.limits txs (importAll txs b).1.cycle (importAll txs b).2 := by
  induction txs generalizing b with
  | nil => exact b.cycle.getsTo_nil b.limits
  | cons tx txs ih =>
    rcases importAll_cons_cases tx txs b with ⟨hstop, heq⟩ | ⟨hgo, hsync, heq⟩ |
      ⟨hgo, hsync, ⟨e, b', hsave, heq⟩ | ⟨result, b', hsave, heq⟩⟩
    · have hlimit : b.limits.stop = some 0 := by
        rw [limits, hstop]
        rfl
      rw [heq]
      apply Cycle.getsTo_of_reached (Or.inl hlimit)
      · rfl
      · simp [interrupt, hlimit]
      · simp [hlimit]
    · have hlimit : b.limits.sync = some 0 := (SyncStatus.pending_query_iff hquiet).mp hsync
      rw [heq]
      apply Cycle.getsTo_of_reached (Or.inr (Or.inl hlimit))
      · rfl
      · simp [interrupt, hlimit]
      · simp [limits_stop_ne_zero hgo]
    · have hfails : (b.cycle.pipeline.environment.repository.save tx b.cache).1 = .error e :=
        congrArg Prod.fst hsave
      have hb' : (b.queried.save tx).2 = b' := congrArg Prod.snd hsave
      have hlimit : b.limits.saves = some 0 := Repository.savesLeft_of_error honline hfails
      rw [heq, ← hb']
      apply Cycle.getsTo_of_reached (Or.inr (Or.inr hlimit))
      · exact Repository.answered_save_of_error hfails
      · simp [limits_stop_ne_zero hgo, limits_sync_ne_zero hquiet hsync, queried, save]
      · simp [limits_stop_ne_zero hgo]
    · have hsaved : (b.cycle.pipeline.environment.repository.save tx b.cache).1 = .ok result :=
        congrArg Prod.fst hsave
      have hopen : b.limits.Open := ⟨limits_stop_ne_zero hgo, limits_sync_ne_zero hquiet hsync,
        Repository.savesLeft_ne_of_ok hsaved⟩
      have henvironment := environment_settle_save hsave
      have hlimits := limits_settle_save hgo hsync hsave
      have hinterrupted : (b'.settle tx result).cycle.report.importInterrupted =
          b.cycle.report.importInterrupted :=
        (importInterrupted_settle_save hsave).trans rfl
      -- the rest of the batch goes on from the limits of now, each less by one
      have hrest : (b'.settle tx result).cycle.GetsTo (b'.settle tx result).limits txs
          (importAll txs (b'.settle tx result)).1.cycle (importAll txs (b'.settle tx result)).2 := by
        apply ih
        · rw [henvironment]
          exact (Repository.failing_save _ tx b.cache).trans honline
        · rw [henvironment]
          exact hsync
      rw [hlimits] at hrest
      rw [heq]
      refine Cycle.GetsTo.cons hopen ?_ hinterrupted hrest
      have hanswered := Repository.answered_save_of_ok hsaved
      rw [henvironment]
      exact (congrArg (List.map (·.transaction)) hanswered).trans List.map_append

end Batch

/-! ## The import phase -/

namespace Pipeline

/-- The limits of the batch in a cycle that begins now. The synchronizer is asked once before it. -/
def limits (p : Pipeline) : Limits where
  stop := p.environment.sync.stopAfter
  sync := p.environment.sync.pendingAfter.map (· - 1)
  saves := p.environment.repository.savesLeft

/-- The transactions that the batch of a cycle goes through, if nothing ends it before. -/
def offered (p : Pipeline) (order : WalkOrder) : List Transaction :=
  (p.opened order).pipeline.queue.walkValidated order.importing

/-- How many of them the limits let it settle. -/
def reach (p : Pipeline) (order : WalkOrder) : Nat := p.limits.cut (p.offered order).length

/-- Nothing keeps a cycle from opening a batch: it is not to stop, no sync is under way or wanted when it
asks, the chain lock is free, and the repository can be read. -/
structure ReadyToImport (p : Pipeline) : Prop where
  going : p.stopRequested = false
  unsynced : p.isSynchronizing.1 = false
  unlocked : p.environment.chain.lock.held = false
  online : p.environment.repository.failing = false

end Pipeline

namespace Cycle

variable {c : Cycle} {order : WalkOrder}

theorem stopRequested_asked (h : c.pipeline.isSynchronizing.1 = false) :
    c.asked.pipeline.stopRequested =
      (c.pipeline.stopRequested || c.pipeline.environment.sync.stopsNext) := by
  unfold asked
  unfold Pipeline.isSynchronizing at h ⊢
  split
  · rename_i hsyncing
    rw [if_pos hsyncing] at h
    cases h
  · rfl

theorem limits_openBatch (h : c.pipeline.ReadyToImport) :
    c.asked.locked.openBatch.limits = c.pipeline.limits := by
  obtain ⟨hquery, hpending⟩ := sync_asked h.unsynced
  have hstop := stopRequested_asked h.unsynced
  rw [h.going, Bool.false_or] at hstop
  show Limits.mk (c.asked.pipeline.environment.sync.stopLimit c.asked.pipeline.stopRequested)
    c.asked.pipeline.environment.sync.pendingAfter c.asked.pipeline.environment.repository.savesLeft = _
  rw [hquery, hstop, repository_asked, SyncStatus.stopLimit_query,
    SyncStatus.pendingAfter_query hpending]
  rfl

theorem repository_unlocked (b : Batch) : (unlocked b).pipeline.environment.repository =
    b.cycle.pipeline.environment.repository :=
  (settles_unlocked b).repository

theorem importTagged_getsTo (h : c.pipeline.ReadyToImport) (order : WalkOrder) :
    c.GetsTo c.pipeline.limits (c.pipeline.queue.walkValidated order.importing)
      (c.importTagged order).1 (c.importTagged order).2 := by
  rcases c.importTagged_cases order with ⟨hnone, heq⟩ | ⟨-, hsync, -⟩ | ⟨-, -, hheld, -⟩ |
    ⟨-, -, -, heq⟩
  · rw [hnone, heq]
    exact c.getsTo_nil _
  · rw [h.unsynced] at hsync
    cases hsync
  · rw [h.unlocked] at hheld
    cases hheld
  · obtain ⟨hquery, hpending⟩ := sync_asked h.unsynced
    have honline : c.asked.locked.pipeline.environment.repository.failing = false := by
      show c.asked.pipeline.environment.repository.failing = false
      rw [repository_asked, h.online]
    have hquiet : c.asked.locked.pipeline.environment.sync.pending = false := by
      show c.asked.pipeline.environment.sync.pending = false
      rw [hquery, hpending]
    have hbatch := Batch.importAll_getsTo (b := c.asked.locked.openBatch) honline hquiet
      (c.pipeline.queue.walkValidated order.importing)
    rw [heq, importLocked_eq, honline, if_neg Bool.false_ne_true, ← limits_openBatch h]
    -- asking and locking come before the batch, unlocking and announcing after it
    refine ⟨?_, ?_, hbatch.stopped⟩
    · show (unlocked _).pipeline.environment.repository.answered.map _ = _
      rw [repository_unlocked, hbatch.answered, ← c.repository_asked]
      rfl
    · show (unlocked _).report.importInterrupted = true ↔ _
      rw [report_unlocked]
      exact hbatch.interrupted

end Cycle

/-! ## The whole cycle -/

namespace Pipeline

variable {p q : Pipeline} {order : WalkOrder} {tx : Transaction}

theorem limits_opened (p : Pipeline) (order : WalkOrder) :
    (p.opened order).pipeline.limits = p.limits := by
  rw [limits, environment_opened]
  rfl

theorem ReadyToImport.pendingAfter_ne_zero (h : p.ReadyToImport) :
    p.environment.sync.pendingAfter ≠ some 0 := by
  intro hdue
  have hunsynced := h.unsynced
  rw [fst_isSynchronizing, Bool.or_eq_false_iff] at hunsynced
  have hquiet := SyncStatus.pending_of_query hunsynced.2
  rw [(SyncStatus.pending_query_iff hquiet).mpr hdue] at hunsynced
  cases hunsynced.2

theorem ReadyToImport.opened (h : p.ReadyToImport) (order : WalkOrder) :
    (p.opened order).pipeline.ReadyToImport := by
  have hunsynced := h.unsynced
  rw [fst_isSynchronizing] at hunsynced
  refine ⟨?_, ?_, ?_, ?_⟩
  · rw [pipeline_opened order h.going, stopRequested_judged, h.going]
  · rw [fst_isSynchronizing, environment_opened, hunsynced]
  · rw [environment_opened, h.unlocked]
  · rw [environment_opened, h.online]

theorem answered_cycle (p : Pipeline) (order : WalkOrder) :
    (p.cycle order).2.environment.repository.answered =
      p.environment.repository.answered ++ (p.requestsOf order).filter (·.isAnswered) := by
  have hrequests := p.requests_cycle order
  exact (congrArg (List.filter (·.isAnswered)) hrequests).trans (List.filter_append _ _)

/-- The repository answers for the first transactions of the walk, as many as the limits allow. -/
theorem ReadyToImport.answered (h : p.ReadyToImport) (order : WalkOrder) :
    ((p.requestsOf order).filter (·.isAnswered)).map (·.transaction) =
      (p.offered order).take (p.reach order) := by
  have hgets := (Cycle.importTagged_getsTo (h.opened order) order).answered
  rw [limits_opened, environment_opened, ← environment_cycle_eq_opened order h.going,
    answered_cycle, List.map_append, List.append_cancel_left_eq] at hgets
  exact hgets

theorem ReadyToImport.report_afterImport (h : p.ReadyToImport) (order : WalkOrder) :
    (p.afterImport order).report = { (p.opened order).report.importing (p.requestsOf order) with
      importInterrupted := (p.afterImport order).report.importInterrupted } := by
  have hready := h.opened order
  have hskipped := (p.opened order).importSkipped_importTagged order
  rw [hready.unsynced, hready.unlocked, if_neg Bool.false_ne_true, if_neg Bool.false_ne_true,
    ite_self] at hskipped
  rw [afterImport, (accounts_opened order h.going).1.report, hskipped]
  rfl

/-! ## What becomes of the transactions -/

/-- Between `p` and `q` nothing happened to the transaction, which is tagged and waits on. -/
def Waits (p q : Pipeline) (tx : Transaction) : Prop :=
  ∃ d ∈ p.queue.candidates, d.transaction = tx ∧ d.isValid = true ∧ p.Stays q d d.state

/-- Between `p` and `q` the repository answered for the transaction, and the answer was followed. -/
def SettledBy (p q : Pipeline) (tx : Transaction) : ImportResult → Prop
  | .saved => q.queue.contains tx.signature = false ∧ tx ∈ q.environment.repository.stored ∧
      q.cooldowns.expiry? tx.signature = p.cooldowns.expiry? tx.signature
  | .alreadyExists => q.queue.contains tx.signature = false ∧
      q.cooldowns.expiry? tx.signature = p.cooldowns.expiry? tx.signature
  | .lockUnavailable => p.Waits q tx
  | .invalid reason => p.ShutsOut q tx.signature (p.config.cooldownFor reason)

theorem Fares.settledBy {d : Candidate} {result : ImportResult} (hd : d ∈ p.queue.candidates)
    (hvalid : d.isValid = true) (h : p.Fares q d (result.ruling p.config))
    (hstored : result = .saved → d.transaction ∈ q.environment.repository.stored) :
    p.SettledBy q d.transaction result := by
  cases result with
  | saved => exact ⟨Queue.get?_eq_none_iff.mp h.get?, hstored rfl, h.expiry?⟩
  | alreadyExists => exact ⟨Queue.get?_eq_none_iff.mp h.get?, h.expiry?⟩
  | lockUnavailable => exact ⟨d, hd, rfl, hvalid, h.stays_keep⟩
  | invalid reason => exact h.shutsOut

theorem repository_afterImport (hgo : p.stopRequested = false) (order : WalkOrder) :
    (p.afterImport order).pipeline.environment.repository =
      p.environment.repository.replay (p.requestsOf order) := by
  rw [afterImport, ← environment_cycle_eq_opened order hgo, repository_cycle]

section
variable (hp : p.WellFormed) (hgo : p.stopRequested = false) (order : WalkOrder)
include hp hgo

/-- The import phase deals with each candidate by what is answered for it. -/
theorem WellFormed.fares_afterImport {d : Candidate} (hd : d ∈ (p.judged order).queue.candidates) :
    (p.judged order).Fares (p.afterImport order).pipeline d (p.settledAs order d.signature) := by
  have hsettles : (p.opened order).pipeline.Settles (p.requestsOf order) (p.afterImport order).pipeline :=
    (accounts_opened order hgo).1.settles
  rw [pipeline_opened order hgo] at hsettles
  have hqueue : (p.afterImport order).pipeline.queue =
      ((p.judged order).ruleAll (p.lastRulings order)).queue := by
    rw [hsettles.ruled, config_judged]
    rfl
  refine ⟨?_, ?_⟩
  · rw [hqueue, get?_ruleAll (hp.nodup_lastRulings order), (hp.judged order).queue.get?_signature hd]
    rfl
  · rw [cooldowns_of_settles hsettles, Pipeline.cooldownsLeft,
      expiry?_ruleAll (hp.nodup_lastRulings order)]
    rfl

theorem WellFormed.settledBy_of_answer {x : SaveRequest} {result : ImportResult}
    (hx : x ∈ p.requestsOf order) (hanswer : x.answer = .ok result) :
    (p.opened order).pipeline.SettledBy (p.afterImport order).pipeline x.transaction result := by
  obtain ⟨c, d, hc, hctx, hleave, hvalid⟩ := hp.get?_of_mem_requestsOf hx
  have hdtx : d.transaction = x.transaction := (transaction_of_leave hleave).trans hctx
  have hget : (p.judged order).queue.get? x.transaction.signature = some d := by
    rw [hp.get?_judged, hc]
    exact hleave
  have hd : d ∈ (p.judged order).queue.candidates := (Queue.mem_of_get? hget).1
  have hruling : p.settledAs order d.signature = result.ruling (p.judged order).config := by
    rw [Candidate.signature, hdtx, hp.settledAs_of_mem hx, SaveRequest.ruling, hanswer, config_judged]
  have hfares := hp.fares_afterImport hgo order hd
  rw [hruling] at hfares
  rw [pipeline_opened order hgo, ← hdtx]
  apply hfares.settledBy hd hvalid
  intro hsaved
  have hanswered : x.isSaved = true := by
    rw [SaveRequest.isSaved_of_ok hanswer, hsaved]
    rfl
  rw [repository_afterImport hgo, (p.logs_requestsOf order).stored, hdtx]
  apply List.mem_append_right
  exact List.mem_map_of_mem (List.mem_filter.mpr ⟨hx, hanswered⟩)

end

/-- What is beyond the limits is not settled. -/
theorem ReadyToImport.waits_of_mem_drop (h : p.ReadyToImport) (hp : p.WellFormed) (order : WalkOrder) :
    ∀ tx ∈ (p.offered order).drop (p.reach order),
      (p.opened order).pipeline.Waits (p.afterImport order).pipeline tx ∧
      (p.afterImport order).pipeline.environment.repository.about tx.signature =
        p.environment.repository.about tx.signature := by
  intro tx htx
  have hopened : (p.opened order).pipeline = p.judged order := pipeline_opened order h.going
  -- no transaction that was answered for has this signature
  have hothers : ∀ x ∈ p.requestsOf order, x.isAnswered = true →
      x.transaction.signature ≠ tx.signature := by
    intro x hx hanswered hsame
    have hnodup : ((p.offered order).map (·.signature)).Nodup := by
      rw [offered, hopened]
      exact (hp.judged order).queue.nodup_walkValidated order.importing
    have hfirst : x.transaction ∈ (p.offered order).take (p.reach order) := by
      rw [← h.answered order]
      exact List.mem_map_of_mem (List.mem_filter.mpr ⟨hx, hanswered⟩)
    rw [← List.take_append_drop (p.reach order) (p.offered order), List.map_append,
      List.nodup_append] at hnodup
    exact hnodup.2.2 _ (List.mem_map_of_mem hfirst) _ (List.mem_map_of_mem htx) hsame
  have hkeep : p.settledAs order tx.signature = .keep := by
    rcases hp.settledAs_cases order tx.signature with hkeep | ⟨x, hx, hsame, hruling⟩
    · exact hkeep
    · rw [hruling, SaveRequest.ruling]
      cases hanswer : x.answer with
      | error e => rfl
      | ok result => exact absurd hsame (hothers x hx (by rw [SaveRequest.isAnswered, hanswer]))
  obtain ⟨d, hd, hvalid, rfl⟩ := Queue.mem_walkValidated.mp (List.mem_of_mem_drop htx)
  refine ⟨⟨d, hd, rfl, hvalid, ?_⟩, ?_⟩
  · rw [hopened] at hd ⊢
    have hfares := hp.fares_afterImport h.going order hd
    rw [Candidate.signature, hkeep] at hfares
    exact hfares.stays_keep
  · rw [repository_afterImport h.going]
    exact (p.logs_requestsOf order).about_replay hothers

/-- How far the batch gets in terms of the countdowns: as far as each of them lets it. The candidate for
which a sync is requested is no longer saved, and the synchronizer is asked once before the first. -/
theorem ReadyToImport.le_cut_iff (h : p.ReadyToImport) {k n : Nat} :
    k ≤ p.limits.cut n ↔ k ≤ n ∧ (∀ queries ∈ p.environment.sync.pendingAfter, k < queries) ∧
      (∀ saves ∈ p.environment.repository.savesLeft, k ≤ saves) ∧
      ∀ stop ∈ p.environment.sync.stopAfter, k ≤ stop := by
  have hsync : (∀ m ∈ p.limits.sync, k ≤ m) ↔
      ∀ queries ∈ p.environment.sync.pendingAfter, k < queries := by
    have hne := h.pendingAfter_ne_zero
    show (∀ m ∈ p.environment.sync.pendingAfter.map (· - 1), k ≤ m) ↔ _
    cases hpending : p.environment.sync.pendingAfter with
    | none => simp
    | some queries =>
      have hpos : queries ≠ 0 := fun hzero => hne (hzero ▸ hpending)
      simp only [Option.map_some, Option.mem_some_iff, forall_eq']
      omega
  rw [Limits.le_cut_iff, hsync]
  constructor
  · intro ⟨hstop, hpending, hsaves, hn⟩
    exact ⟨hn, hpending, hsaves, hstop⟩
  · intro ⟨hn, hpending, hsaves, hstop⟩
    exact ⟨hstop, hpending, hsaves, hn⟩

/-- What a cycle's batch settles and what it leaves. -/
structure SettlesPrefix (p : Pipeline) (order : WalkOrder) : Prop where
  /-- The batch gets as far as each countdown lets it. -/
  le_reach_iff : ∀ k, k ≤ p.reach order ↔ k ≤ (p.offered order).length ∧
    (∀ queries ∈ p.environment.sync.pendingAfter, k < queries) ∧
    (∀ saves ∈ p.environment.repository.savesLeft, k ≤ saves) ∧
    ∀ stop ∈ p.environment.sync.stopAfter, k ≤ stop
  /-- The first transactions are answered for, and no others. -/
  answered : ((p.requestsOf order).filter (·.isAnswered)).map (·.transaction) =
    (p.offered order).take (p.reach order)
  /-- Each of them is settled by its own answer. -/
  settled : ∀ q ∈ p.requestsOf order, ∀ result, q.answer = .ok result →
    (p.opened order).pipeline.SettledBy (p.afterImport order).pipeline q.transaction result
  /-- The rest wait on, with their cool-downs and all that the repository has under their signatures. -/
  waits : ∀ tx ∈ (p.offered order).drop (p.reach order),
    (p.opened order).pipeline.Waits (p.afterImport order).pipeline tx ∧
    (p.afterImport order).pipeline.environment.repository.about tx.signature =
      p.environment.repository.about tx.signature
  /-- The answers are counted. -/
  counted : (p.afterImport order).report = { (p.opened order).report.importing (p.requestsOf order) with
    importInterrupted := (p.afterImport order).report.importInterrupted }
  /-- It is for a stop or a sync, and not for a failure, that the batch counts as interrupted. -/
  interrupted_iff : (p.afterImport order).report.importInterrupted = true ↔
    p.reach order < (p.offered order).length ∧
      (p.environment.sync.stopAfter = some (p.reach order) ∨
        p.environment.sync.pendingAfter = some (p.reach order + 1))
  stopped_iff : p.importFailure order = some .stopped ↔
    p.reach order < (p.offered order).length ∧
      p.environment.sync.stopAfter = some (p.reach order)
  /-- Unless it was for a stop, the cycle still cleans up. -/
  cleans_up : p.importFailure order ≠ some .stopped →
    p.cycle order = ((p.afterImport order).cleanUp.report, (p.afterImport order).cleanUp.pipeline)
  /-- How far the batch gets with a sync request and a failure in sight. -/
  reach_eq : ∀ queries saves, p.environment.sync.stopAfter = none →
    p.environment.sync.pendingAfter = some queries → p.environment.repository.savesLeft = some saves →
    p.reach order = min (p.offered order).length (min (queries - 1) saves)

theorem reach_eq_min (queries saves : Nat) (hstop : p.environment.sync.stopAfter = none)
    (hpending : p.environment.sync.pendingAfter = some queries)
    (hsaves : p.environment.repository.savesLeft = some saves) :
    p.reach order = min (p.offered order).length (min (queries - 1) saves) := by
  have hlimits : p.limits = ⟨none, some (queries - 1), some saves⟩ := by
    rw [limits, hstop, hpending, hsaves]
    rfl
  rw [reach, hlimits]
  show min (queries - 1) (min saves (p.offered order).length) = _
  omega

/-- A batch that gets under way settles the first transactions of the walk and no others: all there are,
or fewer if a countdown runs out before. -/
theorem batch_settles_prefix (config : Config) (now : UInt64) (tip : Option ChainTip) (es : List Event)
    (order : WalkOrder) :
    let p := (start config now tip).run es
    p.ReadyToImport → p.SettlesPrefix order := by
  intro p hready
  have hp : p.WellFormed := (wellFormed_start config now tip).run es
  have hgets := Cycle.importTagged_getsTo (hready.opened order) order
  rw [limits_opened] at hgets
  -- nothing has interrupted the cycle before its batch
  have hfresh : (p.opened order).report.importInterrupted = false := by
    rw [hp.report_opened order]
    rfl
  constructor
  case le_reach_iff => exact fun k => hready.le_cut_iff
  case answered => exact hready.answered order
  case settled => exact fun q hq result => hp.settledBy_of_answer hready.going order hq
  case waits => exact hready.waits_of_mem_drop hp order
  case counted => exact hready.report_afterImport order
  case stopped_iff => exact hgets.stopped
  case reach_eq => exact reach_eq_min
  case interrupted_iff =>
    -- the query before the batch is one that the countdown to a sync has had
    have hsync : p.limits.sync = some (p.reach order) ↔
        p.environment.sync.pendingAfter = some (p.reach order + 1) :=
      Limits.map_pred_eq_some_iff hready.pendingAfter_ne_zero
    rw [← hsync]
    have hinterrupted := hgets.interrupted
    rw [hfresh] at hinterrupted
    exact hinterrupted.trans (or_iff_right Bool.false_ne_true)
  case cleans_up =>
    intro hrest
    rw [cycle_eq_cleanUp order hready.going]
    exact if_neg hrest

/-- Six payments wait, of which one is stored already, one is to be put off and one to be refused. A sync
request is to come when the fifth is about to be saved. -/
def instalment : List Event :=
  [.submit (sample 1), .submit (sample 2), .submit (sample 3), .submit (sample 4), .submit (sample 5),
    .submit (sample 6), .change (.insertStored (sample 2)),
    .change (.script (sample 3).signature .lockUnavailable),
    .change (.script (sample 4).signature (.invalid .timestampTooOld)),
    .change (.requestSyncAfter 5), .change (.failAfterSaves 5)]

theorem batch_settles_prefix_instalment :
    let p := (start { liteMode := true } 1000 none).run instalment
    let before := (p.opened {}).pipeline
    let after := (p.afterImport {}).pipeline
    p.ReadyToImport ∧ p.reach {} = 4 ∧
    before.SettledBy after (sample 1) .saved ∧
    before.SettledBy after (sample 2) .alreadyExists ∧
    before.SettledBy after (sample 3) .lockUnavailable ∧
    before.SettledBy after (sample 4) (.invalid .timestampTooOld) ∧
    before.Waits after (sample 5) ∧ before.Waits after (sample 6) ∧
    (p.afterImport {}).report.importInterrupted = true ∧
    p.cycle {} = ((p.afterImport {}).cleanUp.report, (p.afterImport {}).cleanUp.pipeline) := by
  intro p before after
  have hready : p.ReadyToImport := ⟨by decide, by decide, by decide, by decide⟩
  have hsettles := batch_settles_prefix { liteMode := true } 1000 none instalment {} hready
  subst after before p
  have hanswered := fun (tx : Transaction) (result : ImportResult)
      (h : ∃ q ∈ ((start { liteMode := true } 1000 none).run instalment).requestsOf {},
        q.transaction = tx ∧ q.answer = .ok result) =>
    h.elim fun q hq => hq.2.1 ▸ hsettles.settled q hq.1 result hq.2.2
  refine ⟨hready, ?_, ?_, ?_, ?_, ?_, ?_, ?_, ?_, ?_⟩
  · rw [hsettles.reach_eq 5 5 (by decide) (by decide) (by decide)]
    decide +kernel
  · exact hanswered _ _ (by decide +kernel)
  · exact hanswered _ _ (by decide +kernel)
  · exact hanswered _ _ (by decide +kernel)
  · exact hanswered _ _ (by decide +kernel)
  · exact (hsettles.waits _ (by decide +kernel)).1
  · exact (hsettles.waits _ (by decide +kernel)).1
  · exact hsettles.interrupted_iff.mpr (by decide +kernel)
  · apply hsettles.cleans_up
    rw [ne_eq, hsettles.stopped_iff]
    decide +kernel

end Pipeline

end ChainNode.Admission
