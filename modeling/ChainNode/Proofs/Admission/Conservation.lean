import ChainNode.Proofs.Admission.Repository
import ChainNode.Proofs.Admission.Run
import Mathlib.Algebra.GroupWithZero.Nat

/-!
# Conservation

Every transaction taken into the queue is still there or has left it once, in a cycle that counts it.
-/

namespace ChainNode.Admission

/-- How many candidates the answer says have left the queue. -/
def Answer.departed : Answer → Nat
  | .report r => r.departed
  | _ => 0

namespace Pipeline

/-- The step takes a transaction with signature `s` into the queue. -/
def admits (p : Pipeline) (s : Signature) : Event → Bool
  | .submit tx => decide (tx.signature = s) && decide ((p.submit tx).1 = .queued)
  | _ => false

/-- The signature is queued before the step and not after it. -/
def releases (p : Pipeline) (s : Signature) (e : Event) : Bool :=
  p.queue.contains s && !(p.step e).2.queue.contains s

/-- How often a run takes `s` into the queue. -/
def admissions (p : Pipeline) (s : Signature) : List Event → Nat
  | [] => 0
  | e :: es => (p.admits s e).toNat + (p.step e).2.admissions s es

/-- How often `s` leaves the queue in a run. -/
def departures (p : Pipeline) (s : Signature) : List Event → Nat
  | [] => 0
  | e :: es => (p.releases s e).toNat + (p.step e).2.departures s es

variable {p : Pipeline} {s : Signature}

/-! ## The sum over all signatures -/

theorem WellFormed.size_step (h : p.WellFormed) (e : Event) :
    (p.step e).2.queue.size + (p.step e).1.departed =
      p.queue.size + if (p.step e).1 = .outcome .queued then 1 else 0 := by
  cases e with
  | submit tx =>
    show (p.submit tx).2.queue.size + 0 =
      p.queue.size + if Answer.outcome (p.submit tx).1 = .outcome .queued then 1 else 0
    rcases p.submit_cases tx with ⟨ha, _, he⟩ | ⟨ha, _, _, he⟩ | ⟨ha, _, hnew, he⟩
    · rw [ha, he]
      rfl
    · rw [ha, he]
      rfl
    · have hsize := p.queue.size_insertIfAbsent ⟨tx, .unvalidated, p.environment.now⟩
      have hfst : (p.queue.insertIfAbsent ⟨tx, .unvalidated, p.environment.now⟩).1 = true := by
        rw [Queue.fst_insertIfAbsent]
        show (!p.queue.contains tx.signature) = true
        rw [hnew]
        rfl
      rw [hfst] at hsize
      rw [ha, he]
      exact hsize
  | cycle order => exact h.size_cycle order
  | requestStop => rfl
  | ask question => cases question <;> rfl
  | change change =>
    have hnone : (p.step (.change change)).1.departed = 0 ∧
        (p.step (.change change)).1 ≠ .outcome .queued := by
      unfold Pipeline.step
      dsimp only
      split
      · exact ⟨rfl, by intro hc; cases hc⟩
      · exact ⟨rfl, by intro hc; cases hc⟩
    rw [hnone.1, if_neg hnone.2]
    rfl

theorem WellFormed.size_run (h : p.WellFormed) (es : List Event) :
    (p.run es).queue.size + ((p.answers es).map Answer.departed).sum =
      p.queue.size + (p.answers es).count (.outcome .queued) := by
  induction es generalizing p with
  | nil => rfl
  | cons e es ih =>
    have hstep := h.size_step e
    have hrest := ih (h.step e)
    show ((p.step e).2.run es).queue.size +
        ((p.step e).1.departed + (((p.step e).2.answers es).map Answer.departed).sum) =
      p.queue.size + ((p.step e).1 :: (p.step e).2.answers es).count (.outcome .queued)
    rw [List.count_cons]
    simp only [beq_iff_eq]
    omega

/-! ## Each signature by itself -/

theorem contains_step_of_queue_eq {e : Event} (hadmits : p.admits s e = false)
    (hqueue : (p.step e).2.queue = p.queue) :
    (p.admits s e).toNat + (p.queue.contains s).toNat =
      (p.releases s e).toNat + ((p.step e).2.queue.contains s).toNat := by
  rw [releases, hadmits, hqueue, Bool.and_not_self]

theorem contains_submit (p : Pipeline) (s : Signature) (tx : Transaction) :
    (p.admits s (.submit tx)).toNat + (p.queue.contains s).toNat =
      (p.releases s (.submit tx)).toNat + ((p.submit tx).2.queue.contains s).toNat := by
  rcases p.submit_cases tx with ⟨ha, _, he⟩ | ⟨ha, _, _, he⟩ | ⟨ha, _, hnew, he⟩
  · exact contains_step_of_queue_eq (by simp [admits, ha]) (congrArg Pipeline.queue he)
  · exact contains_step_of_queue_eq (by simp [admits, ha]) (congrArg Pipeline.queue he)
  · have hafter : (p.submit tx).2.queue.contains s =
        (p.queue.contains s || decide (s = tx.signature)) := by
      rw [he]
      exact p.queue.contains_insertIfAbsent _ s
    have hreleases : p.releases s (.submit tx) = false := by
      show (p.queue.contains s && !(p.submit tx).2.queue.contains s) = false
      rw [hafter]
      cases p.queue.contains s <;> rfl
    rw [hreleases, hafter]
    by_cases hs : s = tx.signature
    · subst hs
      simp [admits, ha, hnew]
    · simp [admits, ha, hs, Ne.symm hs]

theorem WellFormed.contains_step (h : p.WellFormed) (s : Signature) (e : Event) :
    (p.admits s e).toNat + (p.queue.contains s).toNat =
      (p.releases s e).toNat + ((p.step e).2.queue.contains s).toNat := by
  cases e with
  | submit tx => exact p.contains_submit s tx
  | cycle order =>
    show 0 + (p.queue.contains s).toNat =
      (p.queue.contains s && !(p.cycle order).2.queue.contains s).toNat +
        ((p.cycle order).2.queue.contains s).toNat
    cases hafter : (p.cycle order).2.queue.contains s with
    | false => cases p.queue.contains s <;> rfl
    | true =>
      -- a cycle brings nobody in
      rw [h.contains_of_contains_cycle hafter]
      rfl
  | requestStop => exact contains_step_of_queue_eq rfl rfl
  | ask question => exact contains_step_of_queue_eq rfl rfl
  | change change => exact contains_step_of_queue_eq rfl rfl

theorem WellFormed.contains_run (h : p.WellFormed) (s : Signature) (es : List Event) :
    p.admissions s es + (p.queue.contains s).toNat =
      p.departures s es + ((p.run es).queue.contains s).toNat := by
  induction es generalizing p with
  | nil => rfl
  | cons e es ih =>
    have hstep := h.contains_step s e
    have hrest := ih (h.step e)
    show (p.admits s e).toNat + (p.step e).2.admissions s es + (p.queue.contains s).toNat =
      (p.releases s e).toNat + (p.step e).2.departures s es +
        (((p.step e).2.run es).queue.contains s).toNat
    omega

/-- A report counts exactly the signatures that leave the queue in its cycle. -/
theorem WellFormed.departed_cycle (h : p.WellFormed) (order : WalkOrder) :
    (p.cycle order).1.departed =
      p.queue.candidates.countP fun c => p.releases c.signature (.cycle order) := by
  -- the queue after the cycle holds those of before that stay, each once
  let after := (p.cycle order).2.queue
  let stays (c : Candidate) : Bool := after.contains c.signature
  have hkept : ((p.queue.candidates.filter stays).map (·.signature)).Perm
      (after.candidates.map (·.signature)) := by
    have hnodup : ((p.queue.candidates.filter stays).map (·.signature)).Nodup :=
      List.Nodup.sublist (List.filter_sublist.map _) h.queue
    rw [List.perm_ext_iff_of_nodup hnodup (h.cycle order).queue]
    intro s
    constructor
    · intro hs
      obtain ⟨c, hc, rfl⟩ := List.mem_map.mp hs
      exact List.mem_map.mpr (Queue.contains_iff.mp (List.mem_filter.mp hc).2)
    · intro hs
      have hafter : after.contains s = true := Queue.contains_iff.mpr (List.mem_map.mp hs)
      obtain ⟨c, hc, rfl⟩ := Queue.contains_iff.mp (h.contains_of_contains_cycle hafter)
      exact List.mem_map.mpr ⟨c, List.mem_filter.mpr ⟨hc, hafter⟩, rfl⟩
  have hlength := hkept.length_eq
  rw [List.length_map, List.length_map, ← List.countP_eq_length_filter] at hlength
  have hsplit : p.queue.candidates.countP stays +
      p.queue.candidates.countP (fun c => p.releases c.signature (.cycle order)) =
        p.queue.candidates.length := by
    rw [List.length_eq_countP_add_countP stays]
    congr 1
    apply List.countP_congr
    intro c hc
    have hin : p.queue.contains c.signature = true := Queue.contains_iff.mpr ⟨c, hc, rfl⟩
    show (p.queue.contains c.signature && !stays c) = true ↔ _
    rw [hin, Bool.true_and, decide_eq_true_eq, Bool.not_eq_true', Bool.not_eq_true]
  have hsize := h.size_cycle order
  change after.candidates.length + _ = p.queue.candidates.length at hsize
  omega

/-! ## The repository -/

/-- No answer is prepared that would store a transaction unseen, and none is put in that is there. -/
def storesSeen (p : Pipeline) : Event → Bool
  | .change (.script _ result) => decide (result ≠ .saved)
  | .change (.insertStored tx) => !p.environment.repository.contains tx.signature
  | _ => true

theorem storesOnce_step {e : Event} (h : p.environment.repository.StoresOnce)
    (he : p.storesSeen e = true) : (p.step e).2.environment.repository.StoresOnce := by
  cases e with
  | submit tx =>
    show (p.submit tx).2.environment.repository.StoresOnce
    rw [environment_submit]
    exact h
  | cycle order =>
    show (p.cycle order).2.environment.repository.StoresOnce
    rw [repository_cycle]
    exact h.replay _
  | requestStop => exact h
  | ask question => exact h
  | change change =>
    cases change with
    | insertStored tx => exact h.store (Bool.not_eq_true' _ |>.mp he)
    | script s result =>
      refine ⟨h.stored, ?_⟩
      intro x hx
      rcases List.mem_append.mp hx with hold | hnew
      · exact h.scripts x hold
      · rw [List.mem_singleton.mp hnew]
        exact of_decide_eq_true he
    | _ => exact ⟨h.stored, h.scripts⟩

/-- Nothing is lost and nothing counted twice: the transactions taken in are those that wait and those
that the reports say have left, and so for every signature by itself; a report counts the signatures
that leave in its cycle. The repository stores each signature once, unless it is told to save unseen or
given what it has. -/
theorem admissions_conserved (config : Config) (now : UInt64) (tip : Option ChainTip)
    (es : List Event) :
    let p := start config now tip
    (p.answers es).count (.outcome .queued) =
        (p.run es).queue.size + ((p.answers es).map Answer.departed).sum ∧
      (∀ s, p.admissions s es = p.departures s es + ((p.run es).queue.contains s).toNat) ∧
      (∀ order, ((p.run es).cycle order).1.departed = (p.run es).queue.candidates.countP
        fun c => (p.run es).releases c.signature (.cycle order)) ∧
      (runsUnder storesSeen p es = true →
        ((p.run es).environment.repository.stored.map (·.signature)).Nodup) := by
  intro p
  have hp : p.WellFormed := wellFormed_start config now tip
  refine ⟨?_, ?_, ?_, ?_⟩
  · have hsize := hp.size_run es
    have hempty : p.queue.size = 0 := rfl
    omega
  · intro s
    have hcontains := hp.contains_run s es
    have hempty : (p.queue.contains s).toNat = 0 := rfl
    omega
  · intro order
    exact (hp.run es).departed_cycle order
  · intro hseen
    have hnothing : p.environment.repository.StoresOnce :=
      ⟨List.nodup_nil, fun x hx => absurd hx List.not_mem_nil⟩
    exact (run_induction (fun _ _ => storesOnce_step) hnothing hseen).stored

/-- A transaction that comes again after its import leaves twice and is stored once. -/
theorem admissions_conserved_resubmitted :
    let p := start { liteMode := true } 0 none
    let es : List Event := [.submit (sample 1), .cycle {}, .submit (sample 1), .cycle {},
      .change (.insertStored (sample 2)), .submit (sample 2), .cycle {}, .submit (sample 3)]
    runsUnder storesSeen p es = true ∧ (p.answers es).count (.outcome .queued) = 4 ∧
      p.departures (sample 1).signature es = 2 ∧
      ((p.run es).environment.repository.stored.map (·.signature)).Nodup := by
  refine ⟨by decide, by decide, by decide, ?_⟩
  exact (admissions_conserved _ _ _ _).2.2.2 (by decide)

end Pipeline
end ChainNode.Admission
