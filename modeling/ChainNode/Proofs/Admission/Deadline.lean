import ChainNode.Proofs.Admission.Run
import Mathlib.Algebra.Group.Nat.Defs

/-!
# Deadlines

Judging bars every candidate whose deadline the tip has reached, so a cycle that can read the tip hands
none of them to the repository. A cycle that cannot read it imports what was tagged before, whatever the
deadline.
-/

namespace ChainNode

theorem Transaction.isExpiredAt_iff (tx : Transaction) (tip : ChainTip) :
    tx.isExpiredAt tip = true ↔
      min (tx.timestamp.toNat + 86400000) (2 ^ 64 - 1) ≤ tip.timestamp.toNat := by
  have hlifetime : Transaction.lifetime.toNat = 86400000 := rfl
  have hsize : UInt64.size = 2 ^ 64 := rfl
  have hfits : min (tx.timestamp.toNat + 86400000) (2 ^ 64 - 1) < UInt64.size := by omega
  rw [isExpiredAt, decide_eq_true_eq, UInt64.le_iff_toNat_le, deadline, hlifetime, hsize,
    UInt64.toNat_ofNat_of_lt' hfits]

namespace Admission

namespace Pipeline

/-- The transactions that the cycle hands to the repository. -/
def handedOver (p : Pipeline) (order : WalkOrder) : List Transaction :=
  (p.requestsOf order).map (·.transaction)

/-- The batch goes on to its next candidate. -/
def asksNext (p : Pipeline) : Bool := !p.stopRequested && !p.querySync.1

/-- A cycle with tagged candidates gets to its first request: nobody stops it or wants a sync until
then, the chain lock is free, and the repository can be read. -/
def opensBatch (p : Pipeline) : Bool :=
  !p.stopRequested && !p.environment.sync.inProgress && !p.environment.sync.query.pending &&
    !p.environment.sync.stopsNext && !p.environment.chain.lock.held &&
    !p.environment.repository.failing && !p.environment.sync.query.query.pending

theorem opensBatch_eq (p : Pipeline) :
    p.opensBatch = (!p.isSynchronizing.1 && !p.environment.chain.lock.held &&
      !p.environment.repository.failing && p.isSynchronizing.2.asksNext) := by
  unfold opensBatch isSynchronizing
  cases p.environment.sync.inProgress with
  | true => simp
  | false =>
    -- the query that is asked here is the first of the two
    have hasks : p.querySync.2.asksNext = (!(p.stopRequested || p.environment.sync.stopsNext) &&
        !p.environment.sync.query.query.pending) := rfl
    have hpending : p.querySync.1 = p.environment.sync.query.pending := rfl
    rw [if_neg Bool.false_ne_true, hpending, hasks]
    grind

end Pipeline

/-! ## When a request is made -/

section
variable {p p' : Pipeline} {q : SaveRequest} {qs : List SaveRequest}

theorem Pipeline.Settles.requests_eq (h : p.Settles [] p') :
    p'.environment.repository.requests = p.environment.repository.requests := by
  rw [h.requests, List.append_nil]

theorem Pipeline.Settles.requests_ne (h : p.Settles (q :: qs) p') :
    p'.environment.repository.requests ≠ p.environment.repository.requests := by
  intro hsame
  rw [h.requests, List.append_right_eq_self] at hsame
  cases hsame

end

theorem Batch.requests_importAll_cons_ne_iff (tx : Transaction) (txs : List Transaction) (b : Batch) :
    (importAll (tx :: txs) b).1.cycle.pipeline.environment.repository.requests ≠
        b.cycle.pipeline.environment.repository.requests ↔
      b.cycle.pipeline.asksNext = true := by
  have hquery : b.cycle.pipeline.Settles [] b.queried.cycle.pipeline :=
    b.cycle.pipeline.settles_querySync
  have hsame := hquery.requests_eq
  unfold Pipeline.asksNext
  rcases importAll_cons_cases tx txs b with ⟨hstop, heq⟩ | ⟨hstop, hsync, heq⟩ |
    ⟨hstop, hsync, hasked⟩
  · rw [heq, hstop]
    exact ⟨fun hne => absurd rfl hne, fun hgo => absurd hgo Bool.false_ne_true⟩
  · rw [heq, hstop, hsync]
    exact ⟨fun hne => absurd hsame hne, fun hgo => absurd hgo Bool.false_ne_true⟩
  · rw [hstop, hsync, ← hsame]
    refine ⟨fun _ => rfl, fun _ => ?_⟩
    -- whatever the repository answers, the request is on record
    rcases hasked with ⟨e, b', hsave, heq⟩ | ⟨result, b', hsave, heq⟩
    · rw [heq]
      exact (imports_save_of_error txs hsave).settles.requests_ne
    · rw [heq]
      obtain ⟨qs, hqs⟩ := importAll_imports txs (b'.settle tx result)
      exact (imports_cons hsave hqs).settles.requests_ne

namespace Cycle

theorem requests_importLocked_ne_iff (c : Cycle) (tx : Transaction) (txs : List Transaction) :
    (c.importLocked (tx :: txs)).1.cycle.pipeline.environment.repository.requests ≠
        c.pipeline.environment.repository.requests ↔
      c.pipeline.environment.repository.failing = false ∧ c.pipeline.asksNext = true := by
  unfold importLocked Repository.unconfirmed
  cases c.pipeline.environment.repository.failing with
  | true => exact ⟨fun hne => absurd rfl hne, fun h => absurd h.1.symm Bool.false_ne_true⟩
  | false =>
    rw [eq_self, true_and]
    exact Batch.requests_importAll_cons_ne_iff tx txs _

theorem requests_importTagged_ne_iff (order : WalkOrder) (c : Cycle) :
    (c.importTagged order).1.pipeline.environment.repository.requests ≠
        c.pipeline.environment.repository.requests ↔
      c.pipeline.queue.walkValidated order.importing ≠ [] ∧ c.pipeline.opensBatch = true := by
  have hasked : c.pipeline.Settles [] c.asked.pipeline := c.pipeline.settles_isSynchronizing
  rw [Pipeline.opensBatch_eq]
  rcases c.importTagged_cases order with ⟨hnone, heq⟩ | ⟨-, hsync, heq⟩ | ⟨-, -, hheld, heq⟩ |
    ⟨hsome, hsync, hheld, heq⟩
  · rw [heq]
    exact ⟨fun hne => absurd rfl hne, fun h => absurd hnone h.1⟩
  · rw [heq, hsync]
    exact ⟨fun hne => absurd hasked.requests_eq hne, fun h => absurd h.2 Bool.false_ne_true⟩
  · rw [heq, hheld, Bool.not_true, Bool.and_false, Bool.false_and, Bool.false_and]
    exact ⟨fun hne => absurd hasked.requests_eq hne, fun h => absurd h.2 Bool.false_ne_true⟩
  · obtain ⟨tx, txs, htxs⟩ := List.exists_cons_of_ne_nil hsome
    have hlocked := c.asked.locked.requests_importLocked_ne_iff tx txs
    change _ ≠ c.asked.pipeline.environment.repository.requests ↔
      c.asked.pipeline.environment.repository.failing = false ∧
        c.asked.pipeline.asksNext = true at hlocked
    rw [hasked.requests_eq, repository_asked] at hlocked
    -- giving the lock back and announcing makes no request
    have hunlocked := (settles_unlocked (c.asked.locked.importLocked (tx :: txs)).1).requests_eq
    have hopens : (!false && !false && !c.pipeline.environment.repository.failing &&
        c.asked.pipeline.asksNext) = true ↔
          c.pipeline.environment.repository.failing = false ∧ c.asked.pipeline.asksNext = true := by
      simp
    rw [heq, hsync, hheld, htxs]
    show (unlocked (c.asked.locked.importLocked (tx :: txs)).1).pipeline.environment.repository.requests
      ≠ _ ↔ _ ∧ (!false && !false && _ && c.asked.pipeline.asksNext) = true
    rw [hunlocked, hlocked, hopens]
    exact ⟨fun h => ⟨List.cons_ne_nil tx txs, h⟩, fun h => h.2⟩

end Cycle

namespace Pipeline

variable {p : Pipeline} {order : WalkOrder} {c : Candidate} {tip : ChainTip}

theorem requestsOf_ne_nil_iff :
    p.requestsOf order ≠ [] ↔
      (p.judged order).queue.walkValidated order.importing ≠ [] ∧ p.opensBatch = true := by
  cases h : p.stopRequested with
  | true =>
    have hclosed : p.opensBatch = false := by
      unfold opensBatch
      rw [h]
      rfl
    rw [requestsOf_of_stopRequested order h, hclosed]
    exact ⟨fun hne => absurd rfl hne, fun hopen => absurd hopen.2 Bool.false_ne_true⟩
  | false =>
    have hiff := (p.opened order).requests_importTagged_ne_iff order
    have hopens : (p.judged order).opensBatch = p.opensBatch := by
      rw [opensBatch, environment_judged, stopRequested_judged]
      rfl
    rw [← environment_cycle_eq_opened order h, pipeline_opened order h, hopens] at hiff
    rw [← hiff, requests_cycle, environment_judged, ne_eq, ne_eq,
      List.append_right_eq_self]

/-! ## Who is handed over -/

theorem judged_of_tipFailing (h : p.environment.chain.tipFailing = true) :
    p.judged order = p := by
  have herror : p.environment.chain.currentTip = .error (.io "tip unreadable") := by
    rw [ChainState.currentTip, h]
    rfl
  unfold judged firstRulings
  split
  · rfl
  · exact ruleAll_judgements_of_error herror

theorem WellFormed.of_mem_handedOver (h : p.WellFormed) (hc : c ∈ p.queue.candidates)
    (htip : p.environment.chain.tip = some tip) (hexpired : c.transaction.isExpiredAt tip = true)
    (hmem : c.transaction ∈ p.handedOver order) :
    p.environment.chain.tipFailing = true ∧ c.isValid = true ∧ p.opensBatch = true := by
  obtain ⟨q, hq, htx⟩ := List.mem_map.mp hmem
  have hopens := (requestsOf_ne_nil_iff.mp (List.ne_nil_of_mem hq)).2
  have hjudged := h.judgedAs_signature hc (stopRequested_of_mem_requestsOf hq)
  obtain ⟨c', d, hget, -, hleave, hvalid⟩ := h.get?_of_mem_requestsOf hq
  rw [htx] at hget hleave
  have hself : p.queue.get? c.transaction.signature = some c := h.queue.get?_signature hc
  rw [hself] at hget
  cases hget
  change (p.judgedAs c.signature).leave c = some d at hleave
  rw [hjudged] at hleave
  cases hread : p.environment.chain.tipFailing with
  | false =>
    -- judging bars it, so nothing is left to be handed over
    have hany : p.environment.chain.tip.any c.transaction.isExpiredAt = true := by
      rw [htip, Option.any_some, hexpired]
    rw [judgement_of_tipRead hread, if_pos hany] at hleave
    cases hleave
  | true =>
    rw [judgement_of_tipFailing hread] at hleave
    cases hleave
    exact ⟨rfl, hvalid, hopens⟩

theorem WellFormed.exists_mem_handedOver (h : p.WellFormed) (hc : c ∈ p.queue.candidates)
    (hfailing : p.environment.chain.tipFailing = true) (hvalid : c.isValid = true)
    (hopens : p.opensBatch = true) : ∃ order, c.transaction ∈ p.handedOver order := by
  -- nothing is judged without a tip, so the candidate may as well come first
  have hperm : (c :: p.queue.candidates.erase c).Perm p.queue.candidates :=
    (List.perm_cons_erase hc).symm
  obtain ⟨rank, hrank⟩ := h.queue.exists_walk_eq hperm
  let order : WalkOrder := { importing := rank }
  have hwalk : ∃ rest, (p.judged order).queue.walkValidated rank = c.transaction :: rest := by
    rw [judged_of_tipFailing hfailing, Queue.walkValidated, hrank, List.filter_cons_of_pos hvalid]
    exact ⟨_, rfl⟩
  obtain ⟨rest, hrest⟩ := hwalk
  have hsome : p.requestsOf order ≠ [] :=
    requestsOf_ne_nil_iff.mpr ⟨by rw [hrest]; exact List.cons_ne_nil _ _, hopens⟩
  obtain ⟨p', hp'⟩ := p.exists_imported order
  have hasked := hp'.asked
  rw [hrest] at hasked
  refine ⟨order, ?_⟩
  unfold handedOver
  cases hqs : p.requestsOf order with
  | nil => exact absurd hqs hsome
  | cons q qs =>
    rw [hqs, List.map_cons, List.cons_prefix_cons] at hasked
    rw [List.map_cons, hasked.1]
    exact List.mem_cons_self

/-- A candidate past its deadline is handed over in no cycle but one that cannot read the tip, and
there in some order of the walk if it is tagged and the import gets under way. -/
theorem expired_handedOver_iff (config : Config) (now : UInt64) (start? : Option ChainTip)
    (es : List Event) (c : Candidate) (tip : ChainTip) :
    let p := (start config now start?).run es
    c ∈ p.queue.candidates → p.environment.chain.tip = some tip →
    min (c.transaction.timestamp.toNat + 86400000) (2 ^ 64 - 1) ≤ tip.timestamp.toNat →
    ((∃ order, c.transaction ∈ p.handedOver order) ↔
      p.environment.chain.tipFailing = true ∧ c.isValid = true ∧ p.opensBatch = true) := by
  intro p hc htip hdeadline
  have hp : p.WellFormed := (wellFormed_start config now start?).run es
  have hexpired : c.transaction.isExpiredAt tip = true :=
    (c.transaction.isExpiredAt_iff tip).mpr hdeadline
  constructor
  · intro ⟨order, hmem⟩
    exact hp.of_mem_handedOver hc htip hexpired hmem
  · intro ⟨hfailing, hvalid, hopens⟩
    exact hp.exists_mem_handedOver hc hfailing hvalid hopens

/-- A payment is tagged during a sync. Then the tip gets to its deadline and can no longer be read. -/
def deferral : List Event :=
  [.change (.setSyncInProgress true), .submit (sample 1), .cycle {},
    .change (.setSyncInProgress false), .change (.setTip (some ⟨101, 86401000⟩)),
    .change (.setTipFailing true)]

theorem expired_handedOver_deferral :
    let p := (start { liteMode := true } 2000 (some ⟨100, 2000⟩)).run deferral
    let c : Candidate := ⟨sample 1, .signatureValid, 2000⟩
    c ∈ p.queue.candidates ∧ p.environment.chain.tip = some ⟨101, 86401000⟩ ∧
      min (c.transaction.timestamp.toNat + 86400000) (2 ^ 64 - 1) ≤ 86401000 ∧
      ∃ order, c.transaction ∈ p.handedOver order := by
  refine ⟨by decide, by decide, by decide, ?_⟩
  apply (expired_handedOver_iff _ _ _ _ _ ⟨101, 86401000⟩ (by decide) (by decide) (by decide)).mpr
  exact ⟨by decide, by decide, by decide⟩

/-- The cycle that follows stores the payment. -/
theorem expired_stored_deferral :
    let p := (start { liteMode := true } 2000 (some ⟨100, 2000⟩)).run deferral
    p.environment.chain.tip = some ⟨101, 86401000⟩ ∧
      (sample 1).isExpiredAt ⟨101, 86401000⟩ = true ∧
      p.handedOver {} = [sample 1] ∧
      (p.cycle {}).2.environment.repository.stored = [sample 1] := by
  decide

end Pipeline
end Admission
end ChainNode
