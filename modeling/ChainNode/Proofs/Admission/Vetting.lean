import ChainNode.Proofs.Admission.Run

/-!
# What is handed over was checked

A candidate is tagged only after its own transaction was verified, and a candidate stays the one that was
taken in last under its signature. So what the repository is asked to save is verified, and it is what was
taken in, not what else came under the same signature.
-/

namespace ChainNode.Admission.Pipeline

/-- The transaction that the step takes into the queue. -/
def takenIn (p : Pipeline) : Event → List Transaction
  | .submit tx => if (p.submit tx).1 = .queued then [tx] else []
  | _ => []

/-- The transactions that a run takes into the queue, in order. -/
def taken (p : Pipeline) : List Event → List Transaction
  | [] => []
  | e :: es => p.takenIn e ++ (p.step e).2.taken es

/-- The last of the transactions with signature `s`. -/
def latest? (s : Signature) (txs : List Transaction) : Option Transaction :=
  txs.reverse.find? (·.signature = s)

/-- Who is queued is the latest that was taken in, and verified if tagged. -/
structure Vetted (taken : List Transaction) (p : Pipeline) : Prop where
  latest : ∀ s c, p.queue.get? s = some c → latest? s taken = some c.transaction
  verified : ∀ s c, p.queue.get? s = some c → c.isValid = true → c.transaction.verifies = true

variable {p : Pipeline} {s : Signature} {order : WalkOrder} {c d : Candidate} {q : SaveRequest}
  {txs : List Transaction} {e : Event}

theorem latest?_append_singleton (s : Signature) (txs : List Transaction) (tx : Transaction) :
    latest? s (txs ++ [tx]) = if tx.signature = s then some tx else latest? s txs := by
  rw [latest?, List.reverse_append, List.reverse_singleton, List.singleton_append, List.find?_cons]
  by_cases hs : tx.signature = s
  · rw [if_pos hs, decide_eq_true hs]
  · rw [if_neg hs, decide_eq_false hs]
    rfl

/-! ## One cycle -/

theorem WellFormed.verifies_of_judged (h : p.WellFormed) (hfull : p.config.liteMode = false)
    (hc : p.queue.get? s = some c) (hd : (p.judgedAs s).leave c = some d) (hvalid : d.isValid = true) :
    c.isValid = true ∨ c.transaction.verifies = true := by
  have hkeep (hk : p.judgedAs s = .keep) : c.isValid = true := by
    rw [hk] at hd
    cases hd
    exact hvalid
  cases hstop : p.stopRequested with
  | true =>
    have hk : p.judgedAs s = .keep := by rw [judgedAs, hstop]; rfl
    exact Or.inl (hkeep hk)
  | false =>
    obtain ⟨hmem, rfl⟩ := Queue.mem_of_get? hc
    have hjudged := h.judgedAs_signature hmem hstop
    cases hread : p.environment.chain.tipFailing with
    | true => exact Or.inl (hkeep (by rw [hjudged, judgement_of_tipFailing hread]))
    | false =>
      rw [judgement_of_tipRead hread, hfull, Bool.false_or] at hjudged
      rw [hjudged] at hd
      split at hd
      · cases hd
      · split at hd
        · rename_i htagged
          exact Or.inl htagged
        · -- it gets its tag now, which takes a signature that verifies
          split at hd
          · rename_i hverifies
            exact Or.inr hverifies
          · cases hd

theorem Vetted.cycle (h : Vetted txs p) (hp : p.WellFormed) (hfull : p.config.liteMode = false)
    (order : WalkOrder) : Vetted txs (p.cycle order).2 := by
  constructor
  · intro s d hd
    obtain ⟨c, hc, hjudged, -⟩ := hp.exists_of_get?_cycle hd
    rw [transaction_of_leave hjudged]
    exact h.latest s c hc
  · intro s d hd hvalid
    obtain ⟨c, hc, hjudged, -⟩ := hp.exists_of_get?_cycle hd
    rw [transaction_of_leave hjudged]
    rcases hp.verifies_of_judged hfull hc hjudged hvalid with htagged | hverifies
    · exact h.verified s c hc htagged
    · exact hverifies

theorem Vetted.of_mem_requestsOf (h : Vetted txs p) (hp : p.WellFormed)
    (hfull : p.config.liteMode = false) (hq : q ∈ p.requestsOf order) :
    q.transaction.verifies = true ∧ latest? q.transaction.signature txs = some q.transaction := by
  obtain ⟨c, d, hc, hsame, hjudged, hvalid⟩ := hp.get?_of_mem_requestsOf hq
  rw [← hsame] at hc hjudged ⊢
  refine ⟨?_, h.latest _ c hc⟩
  rcases hp.verifies_of_judged hfull hc hjudged hvalid with htagged | hverifies
  · exact h.verified _ c hc htagged
  · exact hverifies

/-! ## Steps and runs -/

theorem Vetted.submit (h : Vetted txs p) (tx : Transaction) :
    Vetted (txs ++ p.takenIn (.submit tx)) (p.submit tx).2 := by
  by_cases ha : (p.submit tx).1 = .queued
  · rw [takenIn, if_pos ha]
    constructor
    · intro s c hc
      rw [get?_submit, ha] at hc
      rw [latest?_append_singleton]
      by_cases hs : s = tx.signature
      · rw [if_pos ⟨rfl, hs⟩] at hc
        cases hc
        rw [if_pos hs.symm]
      · rw [if_neg fun hq => hs hq.2] at hc
        rw [if_neg (Ne.symm hs)]
        exact h.latest s c hc
    · intro s c hc hvalid
      rw [get?_submit, ha] at hc
      by_cases hs : s = tx.signature
      · -- the newcomer has no tag
        rw [if_pos ⟨rfl, hs⟩] at hc
        cases hc
        cases hvalid
      · rw [if_neg fun hq => hs hq.2] at hc
        exact h.verified s c hc hvalid
  · rw [takenIn, if_neg ha, List.append_nil, snd_submit_of_ne_queued ha]
    exact h

theorem Vetted.step (h : Vetted txs p) (hp : p.WellFormed) (hfull : p.config.liteMode = false)
    (e : Event) : Vetted (txs ++ p.takenIn e) (p.step e).2 := by
  have hnobody : txs ++ [] = txs := List.append_nil txs
  cases e with
  | submit tx => exact h.submit tx
  | cycle order =>
    show Vetted (txs ++ []) _
    rw [hnobody]
    exact h.cycle hp hfull order
  | requestStop =>
    show Vetted (txs ++ []) _
    rw [hnobody]
    exact ⟨h.latest, h.verified⟩
  | ask question =>
    show Vetted (txs ++ []) _
    rw [hnobody]
    exact h
  | change change =>
    show Vetted (txs ++ []) _
    rw [hnobody]
    exact ⟨h.latest, h.verified⟩

theorem Vetted.run (h : Vetted txs p) (hp : p.WellFormed) (hfull : p.config.liteMode = false)
    (es : List Event) : Vetted (txs ++ p.taken es) (p.run es) := by
  -- what is taken in is threaded through the run, so that the first step can add to it
  induction es generalizing p txs with
  | nil =>
    rw [taken, List.append_nil]
    exact h
  | cons e es ih =>
    have hconfig : (p.step e).2.config.liteMode = false := by rw [config_step, hfull]
    have hrest := ih (h.step hp hfull e) (hp.step e) hconfig
    rw [taken, ← List.append_assoc]
    exact hrest

theorem mem_requests_run {es : List Event} (hq : q ∈ (p.run es).environment.repository.requests) :
    q ∈ p.environment.repository.requests ∨
      ∃ gs order fs, es = gs ++ .cycle order :: fs ∧ q ∈ (p.run gs).requestsOf order := by
  induction es generalizing p with
  | nil => exact Or.inl hq
  | cons e es ih =>
    -- made by the first step, or by a cycle of the rest
    rcases ih hq with hstep | ⟨gs, order, fs, rfl, hcycle⟩
    · rw [requests_step] at hstep
      rcases List.mem_append.mp hstep with hold | hnew
      · exact Or.inl hold
      · cases e with
        | cycle order => exact Or.inr ⟨[], order, es, rfl, hnew⟩
        | submit tx => cases hnew
        | requestStop => cases hnew
        | ask question => cases hnew
        | change change => cases hnew
    · exact Or.inr ⟨e :: gs, order, fs, rfl, hcycle⟩

/-- Without lite mode, whoever is tagged is verified, and the repository is only asked to save what is
verified and was taken in last under its signature when the cycle began. -/
theorem requests_vetted (config : Config) (now : UInt64) (tip : Option ChainTip) (es : List Event)
    (hfull : config.liteMode = false) :
    let p := start config now tip
    (∀ c ∈ (p.run es).queue.candidates,
      latest? c.signature (p.taken es) = some c.transaction ∧
        (c.isValid = true → c.transaction.verifies = true)) ∧
    ∀ q ∈ (p.run es).environment.repository.requests,
      q.transaction.verifies = true ∧
        ∃ gs order fs, es = gs ++ .cycle order :: fs ∧ q ∈ (p.run gs).requestsOf order ∧
          latest? q.transaction.signature (p.taken gs) = some q.transaction := by
  intro p
  have hp : p.WellFormed := wellFormed_start config now tip
  have hnobody : Vetted [] p := by
    constructor
    · intro s c hc
      cases hc
    · intro s c hc
      cases hc
  have hvetted : ∀ gs, Vetted (p.taken gs) (p.run gs) := fun gs => hnobody.run hp hfull gs
  constructor
  · intro c hc
    have hget := (hp.run es).queue.get?_signature hc
    exact ⟨(hvetted es).latest _ c hget, (hvetted es).verified _ c hget⟩
  · intro q hq
    rcases mem_requests_run hq with hnone | ⟨gs, order, fs, hes, hcycle⟩
    · cases hnone
    · have hconfig : (p.run gs).config.liteMode = false := by rw [config_run, ← hfull]; rfl
      have hboth := (hvetted gs).of_mem_requestsOf (hp.run gs) hconfig hcycle
      exact ⟨hboth.1, gs, order, fs, hes, hcycle, hboth.2⟩

/-- A signed payment comes in, and then another one under its signature. The repository is to put it off, so
that it stays in the queue after the cycle that checks it and hands it over. -/
def postponed : List Event :=
  [.submit payment, .submit { payment with timestamp := 2000 },
    .change (.script payment.signature .lockUnavailable), .cycle {}]

/-- The one that came first is the one that is tagged and handed over, and it verifies. -/
theorem requests_vetted_first :
    let p := start {} 0 none
    (⟨payment, .signatureValid, 0⟩ : Candidate) ∈ (p.run postponed).queue.candidates ∧
    latest? payment.signature (p.taken postponed) = some payment ∧
    payment.verifies = true ∧
    ∃ q ∈ (p.run postponed).environment.repository.requests, q.transaction = payment ∧
      ∃ gs order fs, postponed = gs ++ .cycle order :: fs ∧ q ∈ (p.run gs).requestsOf order ∧
        latest? payment.signature (p.taken gs) = some payment := by
  intro p
  subst p
  -- both facts in one, so that the signature is made and checked once
  have hfacts :
      let p := (start {} 0 none).run postponed
      (⟨payment, .signatureValid, 0⟩ : Candidate) ∈ p.queue.candidates ∧
        ∃ q ∈ p.environment.repository.requests, q.transaction = payment := by
    decide +kernel
  obtain ⟨hkept, q, hq, hpayment⟩ := hfacts
  obtain ⟨hqueued, hrequested⟩ := requests_vetted {} 0 none postponed rfl
  obtain ⟨hlatest, hverifies⟩ := hqueued _ hkept
  obtain ⟨-, hcycle⟩ := hrequested q hq
  rw [hpayment] at hcycle
  exact ⟨hkept, hlatest, hverifies rfl, q, hq, hpayment, hcycle⟩

end ChainNode.Admission.Pipeline
