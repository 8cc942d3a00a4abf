import ChainNode.Proofs.Admission.Announcing
import ChainNode.Proofs.Admission.Completion

/-!
# Putting imports off

A cycle that is kept from importing, or from importing all, leaves the rest to a later one. What the
pipeline has stored together with what it still owes stays the same, and so does the cool-down that each
signature ends up with. So however often imports are put off, the first cycle that nothing hinders brings
everything to the one end.
-/

namespace ChainNode.Admission

/-- The change keeps imports from being made, or lets them go on. -/
def Change.hinders : Change → Bool
  | .takeLock _ => true
  | .dropLock _ => true
  | .setSyncInProgress _ => true
  | .setSyncPending _ => true
  | .requestSyncAfter _ => true
  | .setRepositoryFailing _ => true
  | .failAfterSaves _ => true
  | .setBroadcasterFailing _ => true
  | .observeLock => true
  | _ => false

/-- Time and tip stay, and nothing comes in but what a cycle imports. -/
def Event.defers : Event → Bool
  | .cycle _ => true
  | .ask _ => true
  | .change c => c.hinders
  | _ => false

namespace Pipeline

/-- Nobody stops the pipeline, the tip can be read, and the repository answers for itself. -/
structure Steady (p : Pipeline) : Prop where
  wellFormed : p.WellFormed
  goes : p.GoesOn
  readable : p.environment.chain.tipFailing = false
  unscripted : p.environment.repository.scripts = []

/-- What the pipeline is going to store under `s`. -/
def owed (p : Pipeline) (s : Signature) : Option Transaction :=
  if p.environment.repository.contains s then none
  else ((p.queue.get? s).bind (p.judgedAs s).leave).map (·.transaction)

/-- The transaction is stored, or is going to be. -/
def Promises (p : Pipeline) (tx : Transaction) : Prop :=
  tx ∈ p.environment.repository.stored ∨ p.owed tx.signature = some tx

/-- The end of the cool-down of `s` when the queue is judged and what has ended is dropped. -/
def prospect (p : Pipeline) (s : Signature) : Option UInt64 :=
  ((p.judgedAs s).extend p.environment.now (p.cooldowns.expiry? s)).filter
    fun expiry => decide (p.environment.now ≤ expiry)

/-- The two lead to the same end. -/
structure Agrees (p p' : Pipeline) : Prop where
  promises : ∀ tx, p'.Promises tx ↔ p.Promises tx
  prospect : ∀ s, p'.prospect s = p.prospect s

variable {p p' p'' : Pipeline} {order : WalkOrder} {s : Signature} {tx : Transaction}
  {c d : Candidate} {q : SaveRequest} {e : Event} {es : List Event}

theorem Agrees.refl (p : Pipeline) : p.Agrees p := ⟨fun _ => Iff.rfl, fun _ => rfl⟩

theorem Agrees.trans (h : p.Agrees p') (h' : p'.Agrees p'') : p.Agrees p'' :=
  ⟨fun tx => (h'.promises tx).trans (h.promises tx),
    fun s => (h'.prospect s).trans (h.prospect s)⟩

/-! ## What judging leaves -/

/-- What is left when the tip was read is tagged, and would be kept if it were judged again. -/
theorem Steady.judgement_of_left (h : p.Steady) (hleft : (p.judgement c).leave c = some d) :
    d.isValid = true ∧ p.judgement d = .keep := by
  have hsame := transaction_of_leave hleft
  rw [judgement_of_tipRead h.readable] at hleft ⊢
  -- the deadline is that of the same transaction
  rw [hsame]
  split at hleft
  · cases hleft
  · split at hleft
    · rename_i hexpired hvalid
      cases hleft
      rw [if_neg hexpired, if_pos hvalid]
      exact ⟨hvalid, rfl⟩
    · split at hleft
      · rename_i hexpired _ _
        cases hleft
        have htagged : c.markValid.2.isValid = true := rfl
        rw [if_neg hexpired, if_pos htagged]
        exact ⟨htagged, rfl⟩
      · cases hleft

theorem tip_cycle (p : Pipeline) (order : WalkOrder) :
    (p.cycle order).2.environment.chain.tip = p.environment.chain.tip ∧
      (p.cycle order).2.environment.chain.tipFailing = p.environment.chain.tipFailing := by
  rcases p.chain_cycle order with ⟨-, heq⟩ | ⟨-, heq⟩ <;> rw [heq] <;> exact ⟨rfl, rfl⟩

theorem judgement_cycle (p : Pipeline) (order : WalkOrder) (c : Candidate) :
    (p.cycle order).2.judgement c = p.judgement c := by
  obtain ⟨htip, hfailing⟩ := p.tip_cycle order
  have hcurrent : (p.cycle order).2.environment.chain.currentTip =
      p.environment.chain.currentTip := by
    rw [ChainState.currentTip, htip, hfailing]
    rfl
  rw [judgement, judgement, hcurrent, config_cycle]

/-- Nobody is judged twice. -/
theorem Steady.judgedAs_cycle (h : p.Steady) (order : WalkOrder) (s : Signature) :
    (p.cycle order).2.judgedAs s = .keep := by
  rw [judgedAs, if_neg (by rw [(h.goes.cycle order).going]; exact Bool.false_ne_true)]
  cases hd : (p.cycle order).2.queue.get? s with
  | none => rfl
  | some d =>
    obtain ⟨c, hc, hleft, -⟩ := h.wellFormed.exists_of_get?_cycle hd
    obtain ⟨hmem, hs⟩ := Queue.mem_of_get? hc
    rw [← hs, h.wellFormed.judgedAs_signature hmem h.goes.going] at hleft
    show (p.cycle order).2.judgement d = .keep
    rw [judgement_cycle]
    exact (h.judgement_of_left hleft).2

/-! ## What the repository answers -/

theorem Steady.answer_of_mem (h : p.Steady) (hq : q ∈ p.requestsOf order)
    (hanswered : q.isAnswered = true) :
    q.answer = .ok (if p.environment.repository.contains q.transaction.signature then .alreadyExists
      else .saved) := by
  obtain ⟨result, hresult⟩ := q.exists_answer hanswered
  rw [hresult, (p.logs_requestsOf order).eq_answerFor (h.wellFormed.nodup_requestsOf order) hq hresult,
    Repository.answerFor_eq, h.unscripted]
  rfl

theorem Steady.ruling_of_mem (h : p.Steady) (hq : q ∈ p.requestsOf order) :
    q.ruling p.config = if q.isAnswered then .drop else .keep := by
  cases hanswered : q.isAnswered with
  | true =>
    rw [SaveRequest.ruling, h.answer_of_mem hq hanswered]
    cases p.environment.repository.contains q.transaction.signature <;> rfl
  | false =>
    unfold SaveRequest.isAnswered at hanswered
    unfold SaveRequest.ruling
    split
    · rename_i result hok
      rw [hok] at hanswered
      cases hanswered
    · rfl

theorem Steady.isSaved_of_mem (h : p.Steady) (hq : q ∈ p.requestsOf order) :
    q.isSaved = true ↔ q.isAnswered = true ∧
      p.environment.repository.contains q.transaction.signature = false := by
  cases hanswered : q.isAnswered with
  | true =>
    rw [SaveRequest.isSaved_of_ok (h.answer_of_mem hq hanswered)]
    cases p.environment.repository.contains q.transaction.signature <;> decide
  | false =>
    rw [SaveRequest.isSaved_of_unanswered hanswered]
    exact ⟨fun h => absurd h Bool.false_ne_true, fun h => absurd h.1 Bool.false_ne_true⟩

/-- No answer bars a signature. -/
theorem Steady.extend_settledAs (h : p.Steady) (order : WalkOrder) (s : Signature) (now : UInt64)
    (old : Option UInt64) : (p.settledAs order s).extend now old = old := by
  rcases h.wellFormed.settledAs_cases order s with hkeep | ⟨q, hq, -, hsettled⟩
  · rw [hkeep]
    rfl
  · rw [hsettled, h.ruling_of_mem hq]
    split <;> rfl

theorem Steady.mem_storesOf_iff (h : p.Steady) :
    tx ∈ p.storesOf order ↔ ∃ q ∈ p.requestsOf order, q.transaction = tx ∧ q.isAnswered = true ∧
      p.environment.repository.contains tx.signature = false := by
  rw [storesOf_eq, savedAmong, List.mem_map]
  constructor
  · rintro ⟨q, hq, rfl⟩
    obtain ⟨hmem, hsaved⟩ := List.mem_filter.mp hq
    exact ⟨q, hmem, rfl, (h.isSaved_of_mem hmem).mp hsaved⟩
  · rintro ⟨q, hq, rfl, hanswered⟩
    exact ⟨q, List.mem_filter.mpr ⟨hq, (h.isSaved_of_mem hq).mpr hanswered⟩, rfl⟩

/-! ## One cycle -/

theorem Steady.cycle (h : p.Steady) (order : WalkOrder) : (p.cycle order).2.Steady := by
  refine ⟨h.wellFormed.cycle order, h.goes.cycle order, ?_, ?_⟩
  · rw [(p.tip_cycle order).2]
    exact h.readable
  · rw [repository_cycle, (p.logs_requestsOf order).scripts_replay, h.unscripted]
    induction p.requestsOf order with
    | nil => rfl
    | cons q qs ih =>
      show Repository.scriptsAfter (if q.isAnswered then [] else []) qs = []
      rwa [ite_self]

theorem owed_eq_some_iff :
    p.owed s = some tx ↔ p.environment.repository.contains s = false ∧
      ∃ d, (p.queue.get? s).bind (p.judgedAs s).leave = some d ∧ d.transaction = tx := by
  unfold owed
  cases p.environment.repository.contains s with
  | true => simp
  | false =>
    rw [if_neg Bool.false_ne_true, Option.map_eq_some_iff, eq_self, true_and]

theorem stored_step (he : e.defers = true) :
    (p.step e).2.environment.repository.stored =
      p.environment.repository.stored ++ p.storesIn e := by
  cases e with
  | submit tx => cases he
  | cycle order => exact p.stored_cycle_eq order
  | requestStop => cases he
  | ask question => exact (List.append_nil _).symm
  | change change =>
    cases change with
    | insertStored tx => cases he
    | _ => exact (List.append_nil _).symm

theorem contains_step_eq_false_iff (he : e.defers = true) :
    (p.step e).2.environment.repository.contains s = false ↔
      p.environment.repository.contains s = false ∧ ∀ tx ∈ p.storesIn e, tx.signature ≠ s := by
  have hother : (p.storesIn e).any (fun tx => decide (tx.signature = s)) = false ↔
      ∀ tx ∈ p.storesIn e, tx.signature ≠ s := by
    simp [List.any_eq_false]
  rw [Repository.contains, stored_step he, List.any_append, Bool.or_eq_false_iff, hother]
  rfl

theorem contains_cycle_eq_false_iff :
    (p.cycle order).2.environment.repository.contains s = false ↔
      p.environment.repository.contains s = false ∧ ∀ tx ∈ p.storesOf order, tx.signature ≠ s :=
  contains_step_eq_false_iff (e := .cycle order) rfl

/-- A request for what is owed and not stored in this cycle got no answer. -/
theorem Steady.unanswered_of_owed (h : p.Steady) (hnew : tx ∉ p.storesOf order)
    (howed : p.owed tx.signature = some tx) (hq : q ∈ p.requestsOf order)
    (hs : q.transaction.signature = tx.signature) : q.isAnswered = false := by
  obtain ⟨hunknown, d, hd, htx⟩ := owed_eq_some_iff.mp howed
  obtain ⟨c, d', hc, hctx, hleave, -⟩ := h.wellFormed.get?_of_mem_requestsOf hq
  rw [hs] at hc hleave
  rw [hc, Option.bind_some, hleave, Option.some.injEq] at hd
  have hsame : q.transaction = tx := by
    rw [← hctx, ← transaction_of_leave hleave, hd, htx]
  cases hanswered : q.isAnswered with
  | false => rfl
  | true => exact absurd (h.mem_storesOf_iff.mpr ⟨q, hq, hsame, hanswered, hunknown⟩) hnew

theorem Steady.promises_of_cycle (h : p.Steady) (hlater : (p.cycle order).2.Promises tx) :
    p.Promises tx := by
  unfold Promises at hlater
  rw [stored_cycle_eq, List.mem_append] at hlater
  rcases hlater with (hstored | hnew) | howed
  · exact Or.inl hstored
  · obtain ⟨q, hq, rfl, -, hunknown⟩ := h.mem_storesOf_iff.mp hnew
    obtain ⟨c, d, hc, htx, hleave, -⟩ := h.wellFormed.get?_of_mem_requestsOf hq
    refine Or.inr (owed_eq_some_iff.mpr ⟨hunknown, d, ?_, (transaction_of_leave hleave).trans htx⟩)
    rw [hc]
    exact hleave
  · obtain ⟨hunknown, d, hd, htx⟩ := owed_eq_some_iff.mp howed
    obtain ⟨hbefore, -⟩ := contains_cycle_eq_false_iff.mp hunknown
    rw [h.judgedAs_cycle order, Ruling.bind_leave_keep] at hd
    obtain ⟨c, hc, hleave, -⟩ := h.wellFormed.exists_of_get?_cycle hd
    refine Or.inr (owed_eq_some_iff.mpr ⟨hbefore, d, ?_, htx⟩)
    rw [hc]
    exact hleave

theorem Steady.promises_after_cycle (h : p.Steady) (order : WalkOrder) (hnow : p.Promises tx) :
    (p.cycle order).2.Promises tx := by
  unfold Promises
  rw [stored_cycle_eq, List.mem_append]
  by_cases hnew : tx ∈ p.storesOf order
  · exact Or.inl (Or.inr hnew)
  rcases hnow with hstored | howed
  · exact Or.inl (Or.inl hstored)
  · -- what is neither stored nor answered waits on
    have hunanswered {q : SaveRequest} (hq : q ∈ p.requestsOf order)
        (hs : q.transaction.signature = tx.signature) : q.isAnswered = false :=
      h.unanswered_of_owed hnew howed hq hs
    obtain ⟨hunknown, d, hd, htx⟩ := owed_eq_some_iff.mp howed
    have hstill : (p.cycle order).2.environment.repository.contains tx.signature = false := by
      refine contains_cycle_eq_false_iff.mpr ⟨hunknown, fun other hother hs => ?_⟩
      obtain ⟨q, hq, rfl, hanswered, -⟩ := h.mem_storesOf_iff.mp hother
      rw [hunanswered hq hs] at hanswered
      cases hanswered
    refine Or.inr (owed_eq_some_iff.mpr ⟨hstill, d, ?_, htx⟩)
    rw [h.judgedAs_cycle order, Ruling.bind_leave_keep, h.wellFormed.get?_cycle, hd,
      Option.bind_some]
    rcases h.wellFormed.settledAs_cases order tx.signature with hkeep | ⟨q, hq, hs, hsettled⟩
    · rw [hkeep]
      rfl
    · rw [hsettled, h.ruling_of_mem hq, hunanswered hq hs]
      rfl

/-- What is stored and what is owed stay the same together. -/
theorem Steady.promises_cycle (h : p.Steady) (order : WalkOrder) (tx : Transaction) :
    (p.cycle order).2.Promises tx ↔ p.Promises tx :=
  ⟨h.promises_of_cycle, h.promises_after_cycle order⟩

/-- The cool-down that a signature ends up with stays the same. -/
theorem Steady.prospect_cycle (h : p.Steady) (order : WalkOrder) (s : Signature) :
    (p.cycle order).2.prospect s = p.prospect s := by
  rw [prospect, h.judgedAs_cycle order, now_cycle, h.goes.expiry?_cycle h.wellFormed,
    h.wellFormed.expiry?_cooldownsLeft, h.extend_settledAs]
  -- what has ended is dropped once more
  show Option.filter _ (Option.filter _ _) = Option.filter _ _
  rw [Option.filter_filter]
  simp only [Bool.and_self]

theorem Steady.agrees_cycle (h : p.Steady) (order : WalkOrder) : p.Agrees (p.cycle order).2 :=
  ⟨h.promises_cycle order, h.prospect_cycle order⟩

/-! ## Any number of them -/

theorem Steady.step (h : p.Steady) (he : e.defers = true) :
    (p.step e).2.Steady ∧ p.Agrees (p.step e).2 := by
  have hp := h.wellFormed.step e
  cases e with
  | submit tx => cases he
  | cycle order => exact ⟨h.cycle order, h.agrees_cycle order⟩
  | requestStop => cases he
  | ask question => exact ⟨h, .refl p⟩
  | change change =>
    have hsame : (p.step (.change change)).2.environment.chain.tipFailing =
          p.environment.chain.tipFailing ∧
        (p.step (.change change)).2.environment.repository.scripts =
          p.environment.repository.scripts ∧
        (p.step (.change change)).2.environment.sync.stopAfter = p.environment.sync.stopAfter ∧
        p.Agrees (p.step (.change change)).2 := by
      cases change with
      | takeLock name => exact ⟨rfl, rfl, rfl, fun _ => Iff.rfl, fun _ => rfl⟩
      | dropLock name => exact ⟨rfl, rfl, rfl, fun _ => Iff.rfl, fun _ => rfl⟩
      | setSyncInProgress value => exact ⟨rfl, rfl, rfl, fun _ => Iff.rfl, fun _ => rfl⟩
      | setSyncPending value => exact ⟨rfl, rfl, rfl, fun _ => Iff.rfl, fun _ => rfl⟩
      | requestSyncAfter queries => exact ⟨rfl, rfl, rfl, fun _ => Iff.rfl, fun _ => rfl⟩
      | setRepositoryFailing failing => exact ⟨rfl, rfl, rfl, fun _ => Iff.rfl, fun _ => rfl⟩
      | failAfterSaves saves => exact ⟨rfl, rfl, rfl, fun _ => Iff.rfl, fun _ => rfl⟩
      | setBroadcasterFailing failing => exact ⟨rfl, rfl, rfl, fun _ => Iff.rfl, fun _ => rfl⟩
      | observeLock => exact ⟨rfl, rfl, rfl, fun _ => Iff.rfl, fun _ => rfl⟩
      | _ => cases he
    obtain ⟨htip, hscripts, hstop, hagrees⟩ := hsame
    exact ⟨⟨hp, ⟨h.goes.going, hstop.trans h.goes.unstopped⟩, htip.trans h.readable,
      hscripts.trans h.unscripted⟩, hagrees⟩

theorem Steady.run (h : p.Steady) (hes : ∀ e ∈ es, e.defers = true) :
    (p.run es).Steady ∧ p.Agrees (p.run es) := by
  induction es generalizing p with
  | nil => exact ⟨h, .refl p⟩
  | cons e es ih =>
    obtain ⟨hstep, hagrees⟩ := h.step (hes e List.mem_cons_self)
    obtain ⟨hrun, hrest⟩ := ih hstep fun e' he' => hes e' (List.mem_cons_of_mem e he')
    exact ⟨hrun, hagrees.trans hrest⟩

theorem stored_run (hes : ∀ e ∈ es, e.defers = true) :
    (p.run es).environment.repository.stored = p.environment.repository.stored ++ p.stores es := by
  induction es generalizing p with
  | nil => exact (List.append_nil _).symm
  | cons e es ih =>
    have hrest := ih (p := (p.step e).2) fun e' he' => hes e' (List.mem_cons_of_mem e he')
    rw [stored_step (hes e List.mem_cons_self), List.append_assoc] at hrest
    exact hrest

/-- A step stores nothing that is stored already. -/
theorem Steady.storesIn_fresh (h : p.Steady) (e : Event) :
    ((p.storesIn e).map (·.signature)).Nodup ∧
      ∀ tx ∈ p.storesIn e, p.environment.repository.contains tx.signature = false := by
  cases e with
  | cycle order =>
    refine ⟨h.wellFormed.nodup_storesOf order, fun tx htx => ?_⟩
    obtain ⟨q, -, -, -, hunknown⟩ := h.mem_storesOf_iff.mp htx
    exact hunknown
  | _ => exact ⟨List.nodup_nil, fun tx htx => absurd htx List.not_mem_nil⟩

theorem Steady.stores_fresh (h : p.Steady) (hes : ∀ e ∈ es, e.defers = true) :
    ((p.stores es).map (·.signature)).Nodup ∧
      ∀ tx ∈ p.stores es, p.environment.repository.contains tx.signature = false := by
  induction es generalizing p with
  | nil => exact ⟨List.nodup_nil, fun tx htx => absurd htx List.not_mem_nil⟩
  | cons e es ih =>
    have he := hes e List.mem_cons_self
    obtain ⟨hnodup, hfresh⟩ := h.storesIn_fresh e
    obtain ⟨hlater, hlaterFresh⟩ :=
      ih (h.step he).1 fun e' he' => hes e' (List.mem_cons_of_mem e he')
    refine ⟨?_, fun tx htx => ?_⟩
    · show ((p.storesIn e ++ (p.step e).2.stores es).map (·.signature)).Nodup
      rw [List.map_append, List.nodup_append]
      refine ⟨hnodup, hlater, ?_⟩
      intro s hs t ht
      obtain ⟨other, hother, rfl⟩ := List.mem_map.mp hs
      obtain ⟨tx, htx, rfl⟩ := List.mem_map.mp ht
      -- what this step has stored is not stored again
      exact (contains_step_eq_false_iff he |>.mp (hlaterFresh tx htx)).2 other hother
    · rcases List.mem_append.mp htx with hnow | htail
      · exact hfresh tx hnow
      · exact (contains_step_eq_false_iff he |>.mp (hlaterFresh tx htail)).1

/-! ## The cycle that nothing hinders -/

/-- No sync is on or wanted, the chain lock is free, the repository works, and no countdown runs out
before all that is queued is imported. -/
structure Unhindered (p : Pipeline) : Prop where
  idle : p.environment.sync.inProgress = false
  quiet : p.environment.sync.pending = false
  free : p.environment.chain.lock.held = false
  online : p.environment.repository.failing = false
  sync : ∀ left ∈ p.environment.sync.pendingAfter, p.queue.size < left
  saves : ∀ left ∈ p.environment.repository.savesLeft, p.queue.size ≤ left

instance (p : Pipeline) : Decidable p.Unhindered :=
  decidable_of_iff
    (p.environment.sync.inProgress = false ∧ p.environment.sync.pending = false ∧
      p.environment.chain.lock.held = false ∧ p.environment.repository.failing = false ∧
      (∀ left ∈ p.environment.sync.pendingAfter, p.queue.size < left) ∧
      ∀ left ∈ p.environment.repository.savesLeft, p.queue.size ≤ left)
    ⟨fun ⟨idle, quiet, free, online, sync, saves⟩ => ⟨idle, quiet, free, online, sync, saves⟩,
      fun ⟨idle, quiet, free, online, sync, saves⟩ => ⟨idle, quiet, free, online, sync, saves⟩⟩

theorem Unhindered.opensBatch (h : p.Unhindered) (hgoes : p.GoesOn) (hsome : p.queue.size ≠ 0) :
    p.opensBatch = true := by
  have hquiet : p.environment.sync.QuietFor 2 :=
    ⟨h.quiet, fun left hleft => by have hlt := h.sync left hleft; omega⟩
  have hstops : p.environment.sync.stopsNext = false := by
    rw [SyncStatus.stopsNext, hgoes.unstopped]
    rfl
  rw [Pipeline.opensBatch, hgoes.going, h.idle, hquiet.query.pending, hstops, h.free, h.online,
    hquiet.query.query.pending]
  rfl

/-- It hands over all that is tagged, and all is answered. -/
theorem Unhindered.completes (h : p.Unhindered) (hsteady : p.Steady) (order : WalkOrder) :
    (p.requestsOf order).map (·.transaction) =
        (p.judged order).queue.walkValidated order.importing ∧
      ∀ q ∈ p.requestsOf order, q.isAnswered = true := by
  have hundisturbed : p.Undisturbed p.queue.size := ⟨hsteady.goes, h.sync, h.saves⟩
  rcases (hundisturbed.completes hsteady.wellFormed order).2 with hnone | hall
  · rw [hnone]
    refine ⟨?_, fun q hq => absurd hq List.not_mem_nil⟩
    by_contra hsome
    have hlength := hsteady.wellFormed.length_walkValidated_le order
    have hpositive := List.length_pos_of_ne_nil (Ne.symm hsome)
    exact requestsOf_ne_nil_iff.mpr ⟨Ne.symm hsome, h.opensBatch hsteady.goes (by omega)⟩ hnone
  · exact hall

theorem Unhindered.queue_cycle (h : p.Unhindered) (hsteady : p.Steady) (order : WalkOrder) :
    (p.cycle order).2.queue = {} := by
  obtain ⟨hasked, hanswered⟩ := h.completes hsteady order
  have hnobody : (p.cycle order).2.queue.candidates = [] := by
    by_contra hsome
    obtain ⟨d, hd⟩ := List.exists_mem_of_ne_nil _ hsome
    have hget := (hsteady.wellFormed.cycle order).queue.get?_signature hd
    obtain ⟨c, hc, hleave, hkept⟩ := hsteady.wellFormed.exists_of_get?_cycle hget
    -- it is tagged, so it was handed over and answered
    have hvalid : d.isValid = true := by
      obtain ⟨hmem, hs⟩ := Queue.mem_of_get? hc
      rw [← hs, hsteady.wellFormed.judgedAs_signature hmem hsteady.goes.going] at hleave
      exact (hsteady.judgement_of_left hleave).1
    have hjudged : (p.judged order).queue.get? d.signature = some d := by
      rw [hsteady.wellFormed.get?_judged, hc]
      exact hleave
    have htx : d.transaction ∈ (p.requestsOf order).map (·.transaction) := by
      rw [hasked]
      exact Queue.mem_walkValidated.mpr ⟨d, (Queue.mem_of_get? hjudged).1, hvalid, rfl⟩
    obtain ⟨q, hq, hqtx⟩ := List.mem_map.mp htx
    have hruling := hsteady.wellFormed.settledAs_of_mem hq
    rw [hsteady.ruling_of_mem hq, hanswered q hq, hqtx] at hruling
    change p.settledAs order d.signature = .drop at hruling
    rw [hruling] at hkept
    cases hkept
  exact congrArg Queue.mk hnobody

theorem Unhindered.mem_stored_cycle_iff (h : p.Unhindered) (hsteady : p.Steady)
    (order : WalkOrder) :
    tx ∈ (p.cycle order).2.environment.repository.stored ↔ p.Promises tx := by
  have hnothing : (p.cycle order).2.owed tx.signature = none := by
    rw [owed, h.queue_cycle hsteady order]
    exact ite_self _
  rw [← hsteady.promises_cycle order, Promises, hnothing]
  exact ⟨Or.inl, fun hor => hor.resolve_right fun hnone => by cases hnone⟩

theorem Steady.expiry?_cycle (h : p.Steady) (order : WalkOrder) (s : Signature) :
    (p.cycle order).2.cooldowns.expiry? s = p.prospect s := by
  rw [h.goes.expiry?_cycle h.wellFormed, h.wellFormed.expiry?_cooldownsLeft, h.extend_settledAs]
  rfl

/-! ## Deferral loses nothing -/

theorem run_concat_cycle (p : Pipeline) (es : List Event) (order : WalkOrder) :
    p.run (es ++ [.cycle order]) = ((p.run es).cycle order).2 :=
  p.run_append es [.cycle order]

theorem forall_defers_concat_cycle (hes : ∀ e ∈ es, e.defers = true) (order : WalkOrder) :
    ∀ e ∈ es ++ [.cycle order], e.defers = true := by
  intro e he
  rcases List.mem_append.mp he with hmem | hlast
  · exact hes e hmem
  · rw [List.mem_singleton.mp hlast]
    rfl

/-- What is in store at the end is what was promised at the start. -/
theorem Steady.mem_stored_iff (h : p.Steady) (hes : ∀ e ∈ es, e.defers = true)
    (hfree : (p.run es).Unhindered) (order : WalkOrder) (tx : Transaction) :
    tx ∈ (p.run (es ++ [.cycle order])).environment.repository.stored ↔ p.Promises tx := by
  obtain ⟨hsteady, hagrees⟩ := h.run hes
  rw [run_concat_cycle, hfree.mem_stored_cycle_iff hsteady order, hagrees.promises]

theorem Steady.mem_stores_iff (h : p.Steady) (hes : ∀ e ∈ es, e.defers = true)
    (hfree : (p.run es).Unhindered) (order : WalkOrder) (tx : Transaction) :
    tx ∈ p.stores (es ++ [.cycle order]) ↔
      p.Promises tx ∧ p.environment.repository.contains tx.signature = false := by
  have hall := forall_defers_concat_cycle hes order
  rw [← h.mem_stored_iff hes hfree order, stored_run hall, List.mem_append]
  refine ⟨fun hmem => ⟨Or.inr hmem, (h.stores_fresh hall).2 tx hmem⟩, fun ⟨hmem, hnew⟩ => ?_⟩
  -- nothing is promised anew that was stored at the start
  refine hmem.resolve_left fun hstored => ?_
  rw [Repository.contains_iff.mpr ⟨tx, hstored, rfl⟩] at hnew
  cases hnew

/-- Keep a pipeline that nobody stops at one time and one tip, with a repository that answers for
itself and with nothing submitted. Then however its cycles are hindered, the first that nothing hinders
leaves an empty queue and the same cool-downs and store, and what was announced on the way is the same,
each signature once. The second run may be that one cycle alone. -/
theorem deferral_loses_nothing (config : Config) (now : UInt64) (tip : Option ChainTip)
    (es fs gs : List Event) (order order' : WalkOrder) :
    let p := (start config now tip).run es
    p.stopRequested = false → p.environment.sync.stopAfter = none →
    p.environment.chain.tipFailing = false → p.environment.repository.scripts = [] →
    (∀ e ∈ fs, e.defers = true) → (∀ e ∈ gs, e.defers = true) →
    (p.run fs).Unhindered → (p.run gs).Unhindered →
    let late := p.run (fs ++ [.cycle order])
    let soon := p.run (gs ++ [.cycle order'])
    late.queue = {} ∧ soon.queue = {} ∧
    (∀ s, late.cooldowns.expiry? s = soon.cooldowns.expiry? s) ∧
    late.environment.repository.stored.Perm soon.environment.repository.stored ∧
    (runsUnder heard p (fs ++ [.cycle order]) = true →
      runsUnder heard p (gs ++ [.cycle order']) = true →
      ∃ sent sent',
        late.environment.broadcaster.messages.flatten =
          p.environment.broadcaster.messages.flatten ++ sent ∧
        soon.environment.broadcaster.messages.flatten =
          p.environment.broadcaster.messages.flatten ++ sent' ∧
        sent.Nodup ∧ sent.Perm sent') := by
  intro p hgoing hstop htip hscripts hfs hgs hlate hsoon late soon
  have h : p.Steady :=
    ⟨(wellFormed_start config now tip).run es, ⟨hgoing, hstop⟩, htip, hscripts⟩
  obtain ⟨hsteady, hagrees⟩ := h.run hfs
  obtain ⟨hsteady', hagrees'⟩ := h.run hgs
  -- both runs keep what was promised, and store it once
  have hlateFresh := h.stores_fresh (forall_defers_concat_cycle hfs order)
  have hsoonFresh := h.stores_fresh (forall_defers_concat_cycle hgs order')
  have hstores : (p.stores (fs ++ [.cycle order])).Perm (p.stores (gs ++ [.cycle order'])) := by
    refine (List.perm_ext_iff_of_nodup hlateFresh.1.of_map hsoonFresh.1.of_map).mpr fun tx => ?_
    rw [h.mem_stores_iff hfs hlate, h.mem_stores_iff hgs hsoon]
  refine ⟨?_, ?_, ?_, ?_, ?_⟩
  · show (p.run (fs ++ [.cycle order])).queue = {}
    rw [run_concat_cycle, hlate.queue_cycle hsteady]
  · show (p.run (gs ++ [.cycle order'])).queue = {}
    rw [run_concat_cycle, hsoon.queue_cycle hsteady']
  · intro s
    show (p.run (fs ++ [.cycle order])).cooldowns.expiry? s =
      (p.run (gs ++ [.cycle order'])).cooldowns.expiry? s
    rw [run_concat_cycle, run_concat_cycle, hsteady.expiry?_cycle, hsteady'.expiry?_cycle,
      hagrees.prospect, hagrees'.prospect]
  · show (p.run (fs ++ [.cycle order])).environment.repository.stored.Perm
      (p.run (gs ++ [.cycle order'])).environment.repository.stored
    rw [stored_run (forall_defers_concat_cycle hfs order),
      stored_run (forall_defers_concat_cycle hgs order')]
    exact hstores.append_left _
  · intro hheard hheard'
    exact ⟨_, _, flatten_messages_run hheard, flatten_messages_run hheard', hlateFresh.1,
      hstores.map _⟩

/-- A sync keeps the first cycle from importing, a sync request ends the batch of the second, and the
third runs out of saves. -/
def setbacks : List Event :=
  [.change (.setSyncInProgress true), .cycle {}, .change (.setSyncInProgress false),
    .change (.requestSyncAfter 2), .cycle {}, .change (.setSyncPending false),
    .change (.failAfterSaves 1), .cycle {}, .change (.failAfterSaves 1)]

theorem deferral_loses_nothing_setbacks :
    let p := (start { liteMode := true } 2000 (some ⟨100, 2000⟩)).run
      [.submit (sample 1), .submit (sample 2), .submit (sample 3)]
    (p.run setbacks).queue.size = 1 ∧ (p.run (setbacks ++ [.cycle {}])).queue = {} ∧
      (p.run (setbacks ++ [.cycle {}])).environment.repository.stored.Perm
        (p.run [.cycle {}]).environment.repository.stored := by
  have hnothing := deferral_loses_nothing { liteMode := true } 2000 (some ⟨100, 2000⟩)
    [.submit (sample 1), .submit (sample 2), .submit (sample 3)] setbacks [] {} {}
    (by decide) (by decide) (by decide) (by decide) (by decide)
    (fun e he => absurd he List.not_mem_nil) (by decide) (by decide)
  obtain ⟨hempty, -, -, hstored, -⟩ := hnothing
  exact ⟨by decide, hempty, hstored⟩

end Pipeline
end ChainNode.Admission
