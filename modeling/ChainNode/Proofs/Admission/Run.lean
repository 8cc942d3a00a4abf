import ChainNode.Admission.Run
import ChainNode.Proofs.Admission.Cycle

/-!
# What a run keeps

Steps of a run keep the pipeline well formed and its configuration as it was. Only a submission brings a
signature into the queue, and only a cycle takes one out.
-/

namespace ChainNode.Admission.Pipeline

variable {p : Pipeline} {s : Signature} {e : Event} {es : List Event} {tx : Transaction}

/-- A payment whose signature does not verify. -/
def sample (n : UInt8) : Transaction := ⟨.payment, 1000, .replicate 32 n, [], .replicate 64 n⟩

/-- A payment that its creator has signed. -/
def payment : Transaction := .signed ⟨.replicate 32 7⟩ .payment 1000 [1, 2, 3]

/-! ## Submissions -/

/-- A submission puts the transaction last in the queue, or changes nothing. -/
theorem submit_cases (p : Pipeline) (tx : Transaction) :
    ((p.submit tx).1 = .coolingDown ∧ p.isCoolingDown tx.signature = true ∧ (p.submit tx).2 = p) ∨
    ((p.submit tx).1 = .alreadyQueued ∧ p.isCoolingDown tx.signature = false ∧
      p.queue.contains tx.signature = true ∧ (p.submit tx).2 = p) ∨
    ((p.submit tx).1 = .queued ∧ p.isCoolingDown tx.signature = false ∧
      p.queue.contains tx.signature = false ∧
      (p.submit tx).2 = { p with
        queue := (p.queue.insertIfAbsent ⟨tx, .unvalidated, p.environment.now⟩).2 }) := by
  unfold submit
  split
  · rename_i hcool
    exact Or.inl ⟨rfl, hcool, rfl⟩
  · rename_i hcool
    rw [Bool.not_eq_true] at hcool
    have hfst := p.queue.fst_insertIfAbsent ⟨tx, .unvalidated, p.environment.now⟩
    split
    · rename_i queue hins
      rw [hins] at hfst ⊢
      exact Or.inr (Or.inr ⟨rfl, hcool, Bool.not_eq_true' _ |>.mp hfst.symm, rfl⟩)
    · rename_i queue hins
      rw [hins] at hfst
      exact Or.inr (Or.inl ⟨rfl, hcool, Bool.not_eq_false' _ |>.mp hfst.symm, rfl⟩)

theorem environment_submit (p : Pipeline) (tx : Transaction) :
    (p.submit tx).2.environment = p.environment := by
  rcases p.submit_cases tx with ⟨_, _, h⟩ | ⟨_, _, _, h⟩ | ⟨_, _, _, h⟩ <;> rw [h]

theorem cooldowns_submit (p : Pipeline) (tx : Transaction) :
    (p.submit tx).2.cooldowns = p.cooldowns := by
  rcases p.submit_cases tx with ⟨_, _, h⟩ | ⟨_, _, _, h⟩ | ⟨_, _, _, h⟩ <;> rw [h]

theorem config_submit (p : Pipeline) (tx : Transaction) : (p.submit tx).2.config = p.config := by
  rcases p.submit_cases tx with ⟨_, _, h⟩ | ⟨_, _, _, h⟩ | ⟨_, _, _, h⟩ <;> rw [h]

theorem WellFormed.submit (h : p.WellFormed) (tx : Transaction) : (p.submit tx).2.WellFormed := by
  rcases p.submit_cases tx with ⟨_, _, he⟩ | ⟨_, _, _, he⟩ | ⟨_, _, _, he⟩
  · rw [he]
    exact h
  · rw [he]
    exact h
  · rw [he]
    exact ⟨h.queue.insertIfAbsent _, h.cooldowns⟩

theorem snd_submit_of_ne_queued (h : (p.submit tx).1 ≠ .queued) : (p.submit tx).2 = p := by
  rcases p.submit_cases tx with ⟨_, _, he⟩ | ⟨_, _, _, he⟩ | ⟨ha, _⟩
  · exact he
  · exact he
  · exact absurd ha h

theorem get?_submit (p : Pipeline) (tx : Transaction) (s : Signature) :
    (p.submit tx).2.queue.get? s =
      if (p.submit tx).1 = .queued ∧ s = tx.signature then
        some ⟨tx, .unvalidated, p.environment.now⟩
      else p.queue.get? s := by
  rcases p.submit_cases tx with ⟨ha, _, he⟩ | ⟨ha, _, _, he⟩ | ⟨ha, _, hnew, he⟩
  · rw [ha, he, if_neg fun h => SubmitOutcome.noConfusion h.1]
  · rw [ha, he, if_neg fun h => SubmitOutcome.noConfusion h.1]
  · let c : Candidate := ⟨tx, .unvalidated, p.environment.now⟩
    have hinsert := p.queue.get?_insertIfAbsent c s
    have hsignature : c.signature = tx.signature := rfl
    rw [ha, he, hinsert, hsignature]
    by_cases hs : s = tx.signature
    · rw [if_pos hs, if_pos ⟨rfl, hs⟩, hs, Queue.get?_eq_none_iff.mpr hnew]
      rfl
    · rw [if_neg hs, if_neg fun h => hs h.2]

/-- Who is queued after a submission was queued before, or has just come in. -/
theorem mem_of_mem_submit {d : Candidate} (hd : d ∈ (p.submit tx).2.queue.candidates) :
    d ∈ p.queue.candidates ∨ d = ⟨tx, .unvalidated, p.environment.now⟩ := by
  rcases p.submit_cases tx with ⟨-, -, heq⟩ | ⟨-, -, -, heq⟩ | ⟨-, -, -, heq⟩
  · rw [heq] at hd
    exact Or.inl hd
  · rw [heq] at hd
    exact Or.inl hd
  · rw [heq] at hd
    exact Queue.mem_of_mem_insertIfAbsent hd

/-! ## Steps and runs -/

theorem WellFormed.step (h : p.WellFormed) (e : Event) : (p.step e).2.WellFormed := by
  cases e with
  | submit tx => exact h.submit tx
  | cycle order => exact h.cycle order
  | requestStop => exact ⟨h.queue, h.cooldowns⟩
  | ask question => exact h
  | change change => exact ⟨h.queue, h.cooldowns⟩

theorem WellFormed.run (h : p.WellFormed) (es : List Event) : (p.run es).WellFormed := by
  induction es generalizing p with
  | nil => exact h
  | cons e es ih => exact ih (h.step e)

theorem wellFormed_start (config : Config) (now : UInt64) (tip : Option ChainTip) :
    (start config now tip).WellFormed :=
  ⟨List.nodup_nil, List.nodup_nil⟩

theorem config_step (p : Pipeline) (e : Event) : (p.step e).2.config = p.config := by
  cases e with
  | submit tx => exact p.config_submit tx
  | cycle order => exact p.config_cycle order
  | requestStop => rfl
  | ask question => rfl
  | change change => rfl

theorem config_run (p : Pipeline) (es : List Event) : (p.run es).config = p.config := by
  induction es generalizing p with
  | nil => rfl
  | cons e es ih =>
    show ((p.step e).2.run es).config = p.config
    rw [ih, config_step]

/-- Every step of the run is one that `allowed` lets through. -/
def runsUnder (allowed : Pipeline → Event → Bool) (p : Pipeline) : List Event → Bool
  | [] => true
  | e :: es => allowed p e && runsUnder allowed (p.step e).2 es

section
variable {allowed : Pipeline → Event → Bool}

theorem runsUnder_cons :
    runsUnder allowed p (e :: es) = true ↔
      allowed p e = true ∧ runsUnder allowed (p.step e).2 es = true := by
  rw [runsUnder, Bool.and_eq_true]

/-- What every allowed step keeps, every allowed run keeps. -/
theorem run_induction {Invariant : Pipeline → Prop}
    (hstep : ∀ p e, Invariant p → allowed p e = true → Invariant (p.step e).2)
    (hp : Invariant p) (hes : runsUnder allowed p es = true) : Invariant (p.run es) := by
  induction es generalizing p with
  | nil => exact hp
  | cons e es ih =>
    obtain ⟨hhead, htail⟩ := runsUnder_cons.mp hes
    exact ih (hstep p e hp hhead) htail

end

/-! ## Requests -/

/-- The requests to save that a step makes. -/
def requestsIn (p : Pipeline) : Event → List SaveRequest
  | .cycle order => p.requestsOf order
  | _ => []

theorem requests_step (p : Pipeline) (e : Event) :
    (p.step e).2.environment.repository.requests =
      p.environment.repository.requests ++ p.requestsIn e := by
  cases e with
  | submit tx =>
    show (p.submit tx).2.environment.repository.requests = _
    rw [environment_submit]
    exact (List.append_nil _).symm
  | cycle order => exact p.requests_cycle order
  | requestStop => exact (List.append_nil _).symm
  | ask question => exact (List.append_nil _).symm
  | change change => cases change <;> exact (List.append_nil _).symm

theorem WellFormed.contains_of_mem_requestsIn {q : SaveRequest} (h : p.WellFormed)
    (hq : q ∈ p.requestsIn e) : p.queue.contains q.transaction.signature = true := by
  cases e with
  | cycle order =>
    obtain ⟨c, d, hc, -, -, -⟩ := h.get?_of_mem_requestsOf hq
    rw [Queue.contains, hc, Option.isSome_some]
  | submit tx => cases hq
  | requestStop => cases hq
  | ask question => cases hq
  | change change => cases hq

end ChainNode.Admission.Pipeline
