import ChainNode.Proofs.Admission.Account
import ChainNode.Proofs.Admission.Run

/-!
# The discipline of the chain lock

Whether the lock is held is a flag of its own, and it is up exactly while the one guard is alive. A cycle
takes the lock for its batch alone: it gives back what it took, on every way out, and announces with the
lock free.
-/

namespace ChainNode.Admission

namespace ChainLock

/-- At most one guard is alive, and the flag is up while there is one. -/
structure Sound (l : ChainLock) : Prop where
  single : l.guards.length ≤ 1
  held_iff : l.held = true ↔ l.guards ≠ []

variable {l : ChainLock} {holder : Holder}

theorem sound_free : ({} : ChainLock).Sound :=
  ⟨Nat.zero_le 1, fun h => absurd h Bool.false_ne_true, fun h => absurd rfl h⟩

theorem sound_single (holder : Holder) : (⟨true, [holder]⟩ : ChainLock).Sound :=
  ⟨Nat.le_refl 1, fun _ => List.cons_ne_nil holder [], fun _ => rfl⟩

theorem Sound.guards_of_free (h : l.Sound) (hfree : l.held = false) : l.guards = [] := by
  by_contra hsome
  rw [h.held_iff.mpr hsome] at hfree
  cases hfree

theorem tryAcquire_of_held (h : l.held = true) (holder : Holder) :
    l.tryAcquire holder = (false, l) :=
  if_pos h

theorem Sound.tryAcquire_of_free (h : l.Sound) (hfree : l.held = false) (holder : Holder) :
    l.tryAcquire holder = (true, ⟨true, [holder]⟩) := by
  rw [ChainLock.tryAcquire, if_neg (by rw [hfree]; exact Bool.false_ne_true),
    h.guards_of_free hfree]

theorem Sound.tryAcquire (h : l.Sound) (holder : Holder) : (l.tryAcquire holder).2.Sound := by
  cases hheld : l.held with
  | true =>
    rw [tryAcquire_of_held hheld]
    exact h
  | false =>
    rw [h.tryAcquire_of_free hheld]
    exact sound_single holder

theorem Sound.release (h : l.Sound) (holder : Holder) : (l.release holder).2.Sound := by
  unfold ChainLock.release
  split
  · rename_i hmem
    -- the guard that goes was the only one
    have hone : l.guards = [holder] := by
      obtain ⟨other, hother⟩ :=
        List.length_eq_one_iff.mp (Nat.le_antisymm h.single (List.length_pos_of_mem hmem))
      rw [hother, List.mem_singleton] at hmem
      rw [hother, hmem]
    rw [hone, List.erase_cons_head]
    exact sound_free
  · exact h

theorem snd_tryAcquire_of_false (h : (l.tryAcquire holder).1 = false) :
    (l.tryAcquire holder).2 = l := by
  unfold tryAcquire at h ⊢
  split at h
  · rename_i hheld
    rw [if_pos hheld]
  · cases h

theorem snd_release_of_false (h : (l.release holder).1 = false) : (l.release holder).2 = l := by
  unfold release at h ⊢
  split at h
  · cases h
  · rename_i hnone
    rw [if_neg hnone]

end ChainLock

namespace ChainState

theorem snd_tryAcquireLock_of_false {c : ChainState} (h : c.tryAcquireLock.1 = false) :
    c.tryAcquireLock.2 = c := by
  unfold tryAcquireLock at h ⊢
  split at h
  · cases h
  · rfl

theorem lock_tryAcquireLock (c : ChainState) :
    c.tryAcquireLock.2.lock = (c.lock.tryAcquire .chainState).2 := by
  unfold tryAcquireLock
  split
  · rename_i lock htaken
    rw [htaken]
  · rename_i lock hbusy
    rw [ChainLock.snd_tryAcquire_of_false (congrArg Prod.fst hbusy)]

end ChainState

/-! ## In the hands of several -/

namespace LockSession

variable {s : LockSession}

/-- The session after these actions. -/
def run (s : LockSession) (actions : List LockAction) : LockSession :=
  actions.foldl (fun s action => (s.step action).2) s

/-- The lock is sound, and who is refused it, or has nothing to give back, changes nothing. -/
structure Disciplined (s : LockSession) : Prop where
  sound : s.chain.lock.Sound
  refused : ∀ action, (s.step action).1 = some false → (s.step action).2 = s

theorem sound_step (h : s.chain.lock.Sound) (action : LockAction) :
    (s.step action).2.chain.lock.Sound := by
  have hguard : s.chain.tryAcquireLock.2.lock.Sound := by
    rw [ChainState.lock_tryAcquireLock]
    exact h.tryAcquire .chainState
  cases action with
  | acquire slot => exact h.tryAcquire (.subsystem slot)
  | release slot => exact h.release (.subsystem slot)
  | guard slot => exact hguard
  | dropGuard slot =>
    unfold step
    dsimp only
    split
    · exact h.release .chainState
    · exact h
  | acquireState => exact hguard
  | releaseState => exact h.release .chainState

theorem sound_run (h : s.chain.lock.Sound) (actions : List LockAction) :
    (s.run actions).chain.lock.Sound := by
  induction actions generalizing s with
  | nil => exact h
  | cons action actions ih => exact ih (sound_step h action)

theorem snd_step_of_false {action : LockAction} (h : (s.step action).1 = some false) :
    (s.step action).2 = s := by
  cases action with
  | acquire slot =>
    show { s with chain.lock := (s.chain.lock.tryAcquire (.subsystem slot)).2 } = s
    rw [ChainLock.snd_tryAcquire_of_false (Option.some.inj h)]
  | release slot =>
    show { s with chain.lock := (s.chain.lock.release (.subsystem slot)).2 } = s
    rw [ChainLock.snd_release_of_false (Option.some.inj h)]
  | guard slot =>
    have hrefused : s.chain.tryAcquireLock.1 = false := Option.some.inj h
    show (⟨s.chain.tryAcquireLock.2, if s.chain.tryAcquireLock.1 then slot :: s.guardSlots
      else s.guardSlots⟩ : LockSession) = s
    rw [hrefused, if_neg Bool.false_ne_true, ChainState.snd_tryAcquireLock_of_false hrefused]
  | dropGuard slot =>
    unfold step at h ⊢
    dsimp only at h ⊢
    split
    · rename_i hmem
      rw [if_pos hmem] at h
      cases h
    · rfl
  | acquireState =>
    show { s with chain := s.chain.tryAcquireLock.2 } = s
    rw [ChainState.snd_tryAcquireLock_of_false (Option.some.inj h)]
  | releaseState => cases h

end LockSession

/-! ## In a cycle -/

theorem Cycle.chain_importLocked (c : Cycle) (txs : List Transaction) :
    (c.importLocked txs).1.cycle.pipeline.environment.chain = c.pipeline.environment.chain := by
  rw [importLocked_eq]
  split
  · rfl
  · obtain ⟨qs, hqs, -⟩ := Batch.importAll_accounts txs c.openBatch
    exact hqs.chain

theorem Broadcaster.lockHeld_announce (b : Broadcaster) (lockHeld : Bool)
    (signatures : List Signature) :
    (b.announce lockHeld signatures).2.lockHeld =
      b.lockHeld ++ if b.observing then [lockHeld] else [] := by
  obtain ⟨messages, failing, observing, observed⟩ := b
  unfold announce
  cases observing with
  | true => cases failing <;> rfl
  | false =>
    show _ = observed ++ []
    rw [List.append_nil]
    cases failing <;> rfl

namespace Pipeline

/-- The pipeline once a cycle that has got the chain lock has imported these transactions. -/
def inBatch (p : Pipeline) (order : WalkOrder) (txs : List Transaction) : Pipeline :=
  ((p.opened order).asked.locked.importLocked txs).1.cycle.pipeline

/-- The chain lock is sound, and nobody was told anything while it was held. -/
structure KeepsLock (p : Pipeline) : Prop where
  sound : p.environment.chain.lock.Sound
  told : ∀ held ∈ p.environment.broadcaster.lockHeld, held = false

variable {p : Pipeline} {order : WalkOrder}

theorem chain_opened_asked (p : Pipeline) (order : WalkOrder) :
    (p.opened order).asked.pipeline.environment.chain = p.environment.chain := by
  rw [Cycle.chain_asked, environment_opened]

/-- All through the batch the only guard is the one that the batch took. -/
theorem KeepsLock.inBatch (h : p.KeepsLock) (hfree : p.environment.chain.lock.held = false)
    (order : WalkOrder) (txs : List Transaction) :
    (p.inBatch order txs).environment.chain.lock = ⟨true, [.chainState]⟩ := by
  rw [Pipeline.inBatch, Cycle.chain_importLocked]
  show (p.opened order).asked.pipeline.environment.chain.tryAcquireLock.2.lock = _
  rw [chain_opened_asked, ChainState.lock_tryAcquireLock, h.sound.tryAcquire_of_free hfree]

theorem lock_cycle (p : Pipeline) (order : WalkOrder) :
    (p.cycle order).2.environment.chain.lock = p.environment.chain.lock := by
  rcases p.chain_cycle order with ⟨-, heq⟩ | ⟨-, heq⟩ <;> rw [heq]

theorem cycle_of_held (order : WalkOrder) (h : p.environment.chain.lock.held = true) :
    p.requestsOf order = [] ∧ (p.cycle order).2.environment.chain = p.environment.chain := by
  rcases p.chain_cycle order with hsame | ⟨hfree, -⟩
  · exact hsame
  · rw [h] at hfree
    cases hfree

theorem mem_lockHeld_told {b : Broadcaster} {signatures : List Signature} {held : Bool}
    (h : held ∈ (b.told signatures).lockHeld) : held ∈ b.lockHeld ∨ held = false := by
  unfold Broadcaster.told at h
  split at h
  · exact Or.inl h
  · rw [Broadcaster.lockHeld_announce, List.mem_append] at h
    refine h.imp_right fun hnew => ?_
    split at hnew
    · exact List.mem_singleton.mp hnew
    · cases hnew

theorem KeepsLock.cycle (h : p.KeepsLock) (order : WalkOrder) : (p.cycle order).2.KeepsLock := by
  refine ⟨?_, ?_⟩
  · rw [lock_cycle]
    exact h.sound
  · intro held hheld
    rw [broadcaster_cycle] at hheld
    exact (mem_lockHeld_told hheld).elim (h.told held) id

theorem KeepsLock.step (h : p.KeepsLock) (e : Event) : (p.step e).2.KeepsLock := by
  cases e with
  | submit tx =>
    show (p.submit tx).2.KeepsLock
    exact ⟨by rw [environment_submit]; exact h.sound, by rw [environment_submit]; exact h.told⟩
  | cycle order => exact h.cycle order
  | requestStop => exact ⟨h.sound, h.told⟩
  | ask question => exact h
  | change change =>
    cases change with
    | takeLock name => exact ⟨h.sound.tryAcquire (.subsystem name), h.told⟩
    | dropLock name => exact ⟨h.sound.release (.subsystem name), h.told⟩
    | _ => exact ⟨h.sound, h.told⟩

theorem KeepsLock.run (h : p.KeepsLock) (es : List Event) : (p.run es).KeepsLock := by
  induction es generalizing p with
  | nil => exact h
  | cons e es ih => exact ih (h.step e)

theorem keepsLock_start (config : Config) (now : UInt64) (tip : Option ChainTip) :
    (start config now tip).KeepsLock :=
  ⟨ChainLock.sound_free, fun _ hheld => absurd hheld List.not_mem_nil⟩

theorem step_change_of_refused {change : Change}
    (h : p.environment.answer change = some false) : (p.step (.change change)).2 = p := by
  cases change with
  | takeLock name =>
    show { p with environment.chain.lock :=
      (p.environment.chain.lock.tryAcquire (.subsystem name)).2 } = p
    rw [ChainLock.snd_tryAcquire_of_false (Option.some.inj h)]
  | dropLock name =>
    show { p with environment.chain.lock :=
      (p.environment.chain.lock.release (.subsystem name)).2 } = p
    rw [ChainLock.snd_release_of_false (Option.some.inj h)]
  | _ => cases h

/-! ## The discipline -/

/-- How a cycle deals with the chain lock. -/
structure LocksBatch (p : Pipeline) (order : WalkOrder) : Prop where
  /-- It leaves the lock as it found it, -/
  restored : (p.cycle order).2.environment.chain.lock = p.environment.chain.lock
  /-- takes it once at most, -/
  acquisitions : (p.cycle order).2.environment.chain.acquisitions = p.environment.chain.acquisitions ∨
    (p.cycle order).2.environment.chain.acquisitions = p.environment.chain.acquisitions + 1
  /-- and does take it if anything is to be saved. -/
  taken : p.requestsOf order ≠ [] →
    (p.cycle order).2.environment.chain.acquisitions = p.environment.chain.acquisitions + 1
  /-- While somebody else holds it, nothing is saved or announced. -/
  refrains : p.environment.chain.lock.held = true → p.requestsOf order = [] ∧
    (p.cycle order).2.environment.repository.stored = p.environment.repository.stored ∧
    (p.cycle order).2.environment.broadcaster = p.environment.broadcaster ∧
    (p.cycle order).2.environment.chain = p.environment.chain
  /-- Up to the batch it is not touched, -/
  untouched : (p.opened order).asked.pipeline.environment.chain = p.environment.chain
  /-- and to the end of the batch it is held. -/
  kept : p.environment.chain.lock.held = false → ∀ txs,
    (p.inBatch order txs).environment.chain.lock = ⟨true, [.chainState]⟩

/-- The pipeline keeps to the lock, in what it has done and in the next cycle, and nobody outside changes
anything by an attempt that fails. -/
structure Disciplined (p : Pipeline) : Prop extends p.KeepsLock where
  refused : ∀ change, p.environment.answer change = some false → (p.step (.change change)).2 = p
  locks : ∀ order, p.LocksBatch order

theorem acquisitions_cycle (h : p.requestsOf order ≠ []) :
    (p.cycle order).2.environment.chain.acquisitions = p.environment.chain.acquisitions + 1 := by
  rcases p.chain_cycle order with ⟨hnone, -⟩ | ⟨-, heq⟩
  · exact absurd hnone h
  · exact congrArg ChainState.acquisitions heq

theorem KeepsLock.locksBatch (h : p.KeepsLock) (order : WalkOrder) : p.LocksBatch order := by
  constructor
  case restored => exact p.lock_cycle order
  case acquisitions =>
    exact (p.chain_cycle order).imp (fun h => congrArg ChainState.acquisitions h.2)
      fun h => congrArg ChainState.acquisitions h.2
  case taken => exact acquisitions_cycle
  case refrains =>
    -- without a request nothing is stored, and nobody is told of anything
    intro hheld
    obtain ⟨hnone, hsame⟩ := cycle_of_held order hheld
    refine ⟨hnone, ?_, ?_, hsame⟩
    · rw [stored_cycle, hnone]
      exact List.append_nil _
    · rw [broadcaster_cycle, hnone]
      rfl
  case untouched => exact p.chain_opened_asked order
  case kept => exact fun hfree txs => h.inBatch hfree order txs

/-- However many take the chain lock, one guard at most is alive, the flag says so, and who is refused
changes nothing. A cycle takes it for its batch alone, and no announcement is made while it is held. -/
theorem chainLock_disciplined (config : Config) (now : UInt64) (tip : Option ChainTip)
    (es : List Event) (actions : List LockAction) :
    (LockSession.run {} actions).Disciplined ∧ ((start config now tip).run es).Disciplined := by
  have hp : ((start config now tip).run es).KeepsLock := (keepsLock_start config now tip).run es
  constructor
  · exact ⟨LockSession.sound_run ChainLock.sound_free actions, fun _ => LockSession.snd_step_of_false⟩
  · exact ⟨hp, fun _ => step_change_of_refused, hp.locksBatch⟩

/-- Another part of the node holds the lock through one cycle and gives it back before the next. -/
def contention : List Event :=
  [.change .observeLock, .change (.takeLock "sync"), .change (.takeLock "minting"),
    .submit (sample 1), .cycle {}, .change (.dropLock "sync")]

theorem chainLock_disciplined_contention :
    let p := (start { liteMode := true } 2000 (some ⟨100, 2000⟩)).run contention
    p.environment.chain.acquisitions = 0 ∧ p.requestsOf {} ≠ [] ∧
      (p.cycle {}).2.environment.chain.acquisitions = p.environment.chain.acquisitions + 1 ∧
      p.environment.answer (.dropLock "minting") = some false ∧
      (p.step (.change (.dropLock "minting"))).2 = p := by
  have hdisciplined :=
    (chainLock_disciplined { liteMode := true } 2000 (some ⟨100, 2000⟩) contention []).2
  have hasked : ((start { liteMode := true } 2000 (some ⟨100, 2000⟩)).run contention).requestsOf {} ≠
      [] := by decide
  exact ⟨by decide, hasked, (hdisciplined.locks {}).taken hasked, by decide,
    hdisciplined.refused _ (by decide)⟩

end Pipeline
end ChainNode.Admission
