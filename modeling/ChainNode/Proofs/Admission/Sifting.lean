import ChainNode.Proofs.Admission.Account
import ChainNode.Proofs.Admission.Deadline

/-!
# What judging does to the queue

The judging phase deals with each candidate by its own deadline, tag and signature: it shuts the candidate
out for a time, tags it, or leaves it alone. Nothing else changes, and the report has the exact numbers.
-/

namespace ChainNode.Admission.Pipeline

variable {p q : Pipeline} {order : WalkOrder} {d : Candidate} {s : Signature} {cooldown : UInt64}

/-- The tip has reached the candidate's deadline. -/
def isOverdue (p : Pipeline) (d : Candidate) : Bool :=
  p.environment.chain.tip.any d.transaction.isExpiredAt

/-- Nothing is queued under the signature any more, and it is barred: at least until the end that the cycle
set, and no longer unless it was barred for longer before. That end is the 64-bit sum of the present time and
`cooldown`, which is `cooldown` from now wherever the sum does not pass the last time there is. -/
structure ShutsOut (p q : Pipeline) (s : Signature) (cooldown : UInt64) : Prop where
  gone : q.queue.contains s = false
  barred : ∃ expiry, q.cooldowns.expiry? s = some expiry ∧ p.environment.now + cooldown ≤ expiry ∧
    (expiry = p.environment.now + cooldown ∨ p.cooldowns.expiry? s = some expiry)

/-- The candidate stays, in this state, and no cool-down of it begins or ends. -/
structure Stays (p q : Pipeline) (d : Candidate) (state : ValidationState) : Prop where
  there : q.queue.get? d.signature = some { d with state }
  expiry : q.cooldowns.expiry? d.signature = p.cooldowns.expiry? d.signature

/-! ## One candidate -/

/-- A candidate fares by the ruling on it. -/
structure Fares (p q : Pipeline) (d : Candidate) (r : Ruling) : Prop where
  get? : q.queue.get? d.signature = r.leave d
  expiry? : q.cooldowns.expiry? d.signature =
    r.extend p.environment.now (p.cooldowns.expiry? d.signature)

theorem WellFormed.fares_judged (h : p.WellFormed) (hgo : p.stopRequested = false)
    (hd : d ∈ p.queue.candidates) (order : WalkOrder) :
    p.Fares (p.judged order) d (p.judgement d) := by
  have hruling : p.judgedAs d.signature = p.judgement d := h.judgedAs_signature hd hgo
  refine ⟨?_, ?_⟩
  · rw [h.get?_judged, hruling, h.queue.get?_signature hd, Option.bind_some]
  · rw [Pipeline.judged, expiry?_ruleAll (h.nodup_firstRulings order), h.on_firstRulings, hruling]

theorem WellFormed.judged_of_not_contains (h : p.WellFormed) (hs : p.queue.contains s = false)
    (order : WalkOrder) : (p.judged order).queue.contains s = false ∧
      (p.judged order).cooldowns.expiry? s = p.cooldowns.expiry? s := by
  have hnone : p.queue.get? s = none := Queue.get?_eq_none_iff.mpr hs
  have hkeep : p.judgedAs s = .keep := by
    rw [judgedAs, hnone]
    exact ite_self _
  rw [← Queue.get?_eq_none_iff, h.get?_judged, hnone, Pipeline.judged,
    expiry?_ruleAll (h.nodup_firstRulings order), h.on_firstRulings, hkeep]
  exact ⟨rfl, rfl⟩

theorem Fares.shutsOut (h : p.Fares q d (.bar cooldown)) : p.ShutsOut q d.signature cooldown := by
  refine ⟨Queue.get?_eq_none_iff.mp h.get?, _, h.expiry?, ?_⟩
  cases p.cooldowns.expiry? d.signature with
  | none => exact ⟨UInt64.le_refl _, Or.inl rfl⟩
  | some old =>
    let expiry := p.environment.now + cooldown
    show expiry ≤ (if old ≤ expiry then expiry else old) ∧
      ((if old ≤ expiry then expiry else old) = expiry ∨
        some old = some (if old ≤ expiry then expiry else old))
    split
    · exact ⟨UInt64.le_refl _, Or.inl rfl⟩
    · rename_i hle
      exact ⟨UInt64.le_of_lt (UInt64.not_le.mp hle), Or.inr rfl⟩

theorem Fares.stays_keep (h : p.Fares q d .keep) : p.Stays q d d.state := ⟨h.get?, h.expiry?⟩

theorem Fares.stays_tag (h : p.Fares q d .tag) : p.Stays q d .signatureValid := ⟨h.get?, h.expiry?⟩

/-- What judging does to a candidate goes by its deadline, its tag and its signature alone. -/
theorem WellFormed.sifts (h : p.WellFormed) (hgo : p.stopRequested = false)
    (htip : p.environment.chain.tipFailing = false) (hd : d ∈ p.queue.candidates) (order : WalkOrder) :
    let q := p.judged order
    if p.isOverdue d then p.ShutsOut q d.signature p.config.expiredCooldown
    else if d.isValid then p.Stays q d d.state
    else if p.config.liteMode then p.Stays q d .signatureValid
    else if d.transaction.verifies then p.Stays q d .signatureValid
    else p.ShutsOut q d.signature p.config.invalidCooldown := by
  intro q
  have hfares : p.Fares q d (p.judgement d) := h.fares_judged hgo hd order
  rw [judgement_of_tipRead htip] at hfares
  change p.Fares q d (if p.isOverdue d then _ else _) at hfares
  -- whether the signature verifies is not looked into
  generalize d.transaction.verifies = verified at hfares ⊢
  by_cases hoverdue : p.isOverdue d
  · rw [if_pos hoverdue] at hfares ⊢
    exact hfares.shutsOut
  rw [if_neg hoverdue] at hfares ⊢
  by_cases htagged : d.isValid
  · rw [if_pos htagged] at hfares ⊢
    exact hfares.stays_keep
  rw [if_neg htagged] at hfares ⊢
  by_cases hlite : p.config.liteMode
  · rw [hlite, Bool.true_or, if_pos rfl] at hfares
    rw [if_pos hlite]
    exact hfares.stays_tag
  rw [Bool.not_eq_true] at hlite
  rw [hlite, Bool.false_or] at hfares
  rw [hlite, if_neg Bool.false_ne_true]
  by_cases hverified : verified
  · rw [if_pos hverified] at hfares ⊢
    exact hfares.stays_tag
  · rw [if_neg hverified] at hfares ⊢
    exact hfares.shutsOut

/-! ## The numbers -/

/-- The candidate is in time and gets its tag in this cycle. -/
def isPassed (p : Pipeline) (d : Candidate) : Bool :=
  !p.isOverdue d && !d.isValid && (p.config.liteMode || d.transaction.verifies)

/-- The candidate is in time, but its signature is looked at and does not verify. -/
def isForged (p : Pipeline) (d : Candidate) : Bool :=
  !p.isOverdue d && !d.isValid && !p.config.liteMode && !d.transaction.verifies

theorem verdict_eq_iff (p : Pipeline) (d : Candidate) :
    let found := verdict p.config p.environment.chain.tip d
    (found = .expired ↔ p.isOverdue d = true) ∧ (found = .valid ↔ p.isPassed d = true) ∧
      (found = .badSignature ↔ p.isForged d = true) := by
  intro found
  have hfound : found = _ := verdict_eq ..
  rw [hfound, isPassed, isForged, isOverdue]
  -- what verifies is not looked into
  generalize d.transaction.verifies = verified
  generalize p.environment.chain.tip.any d.transaction.isExpiredAt = overdue
  cases overdue <;> cases d.isValid <;> cases p.config.liteMode <;> cases verified <;> simp

theorem judgedCount_eq (htip : p.environment.chain.tipFailing = false) :
    p.judgedCount .expired = p.queue.candidates.countP p.isOverdue ∧
      p.judgedCount .valid = p.queue.candidates.countP p.isPassed ∧
      p.judgedCount .badSignature = p.queue.candidates.countP p.isForged := by
  have hread (v : Verdict) : p.judgedCount v =
      p.queue.candidates.countP fun d => verdict p.config p.environment.chain.tip d = v := by
    rw [judgedCount, ChainState.currentTip, htip]
    rfl
  rw [hread, hread, hread]
  refine ⟨List.countP_congr fun d _ => ?_, List.countP_congr fun d _ => ?_,
    List.countP_congr fun d _ => ?_⟩
  · rw [decide_eq_true_eq, (p.verdict_eq_iff d).1]
  · rw [decide_eq_true_eq, (p.verdict_eq_iff d).2.1]
  · rw [decide_eq_true_eq, (p.verdict_eq_iff d).2.2]

/-! ## The whole phase -/

/-- With nobody to judge, or nothing to judge by, the phase does nothing. -/
theorem judge_of_idle (order : WalkOrder) (c : Cycle)
    (hidle : c.pipeline.queue.isEmpty = true ∨ c.pipeline.environment.chain.tipFailing = true) :
    c.judge order = c := by
  unfold Cycle.judge
  cases htip : c.pipeline.environment.chain.currentTip with
  | error e => rfl
  | ok tip =>
    rcases hidle with hempty | hfailing
    · have hnobody : c.pipeline.queue.candidates = [] := List.isEmpty_iff.mp hempty
      have hwalk : c.pipeline.queue.walk order.judging = [] := by
        rw [Queue.walk, hnobody]
        rfl
      rw [hwalk]
      rfl
    · rw [ChainState.currentTip, hfailing] at htip
      cases htip

theorem WellFormed.report_opened_of_tipRead (h : p.WellFormed) (order : WalkOrder)
    (htip : p.environment.chain.tipFailing = false) :
    (p.opened order).report =
      { expired := p.queue.candidates.countP p.isOverdue
        validated := p.queue.candidates.countP p.isPassed
        rejected := p.queue.candidates.countP p.isForged
        pendingImport := (p.opened order).pipeline.queue.validatedSize } := by
  obtain ⟨hexpired, hvalid, hforged⟩ := judgedCount_eq htip
  rw [h.report_opened, CycleReport.judging, hexpired, hvalid, hforged]
  simp only [Nat.zero_add]

/-- Each candidate is dealt with by its own state. One whose deadline the tip has reached is shut out, be
it tagged or not. Of the others, the tagged ones stay as they are. The rest are tagged if the node runs in
lite mode or the signature verifies, and are shut out if not. Nothing else changes, and the report has the
number of each kind. -/
theorem judging_sifts_queue (config : Config) (now : UInt64) (tip : Option ChainTip) (es : List Event)
    (order : WalkOrder) :
    let p := (start config now tip).run es
    let q := (p.opened order).pipeline
    let report := (p.opened order).report
    p.stopRequested = false →
    ((p.queue.isEmpty = true ∨ p.environment.chain.tipFailing = true) →
      q = p ∧ report = { pendingImport := p.queue.validatedSize }) ∧
    (p.environment.chain.tipFailing = false →
      (∀ d ∈ p.queue.candidates,
        if p.isOverdue d then p.ShutsOut q d.signature p.config.expiredCooldown
        else if d.isValid then p.Stays q d d.state
        else if p.config.liteMode then p.Stays q d .signatureValid
        else if d.transaction.verifies then p.Stays q d .signatureValid
        else p.ShutsOut q d.signature p.config.invalidCooldown) ∧
      (∀ s, p.queue.contains s = false →
        q.queue.contains s = false ∧ q.cooldowns.expiry? s = p.cooldowns.expiry? s) ∧
      q = { p with queue := q.queue, cooldowns := q.cooldowns } ∧
      report =
        { expired := p.queue.candidates.countP p.isOverdue
          validated := p.queue.candidates.countP p.isPassed
          rejected := p.queue.candidates.countP p.isForged
          pendingImport := q.queue.validatedSize }) := by
  intro p q report hgo
  have hp : p.WellFormed := (wellFormed_start config now tip).run es
  have hq : q = p.judged order := pipeline_opened order hgo
  refine ⟨fun hidle => ?_, fun htip => ⟨fun d hd => ?_, ?_, ?_, hp.report_opened_of_tipRead order htip⟩⟩
  · have hopened : p.opened order = (Cycle.mk p {}).countPending :=
      congrArg Cycle.countPending (judge_of_idle order ⟨p, {}⟩ hidle)
    show (p.opened order).pipeline = p ∧ (p.opened order).report = _
    rw [hopened]
    exact ⟨rfl, rfl⟩
  · rw [hq]
    exact hp.sifts hgo htip hd order
  · intro s hs
    rw [hq]
    exact hp.judged_of_not_contains hs order
  · exact Pipeline.ext (by rw [hq, config_judged]) rfl rfl (by rw [hq, stopRequested_judged])
      (by rw [hq, environment_judged])

/-- Two payments are tagged and kept by a sync. The tip gets to the deadline of the first, and a third one
comes in. -/
def lateArrivals : List Event :=
  [.submit { sample 1 with timestamp := 500 }, .submit (sample 2), .change (.setSyncInProgress true),
    .cycle {}, .change (.setTip (some ⟨101, 86400500⟩)), .submit (sample 3)]

/-- The first is shut out in spite of its tag, and the others are tagged in the end. -/
theorem judging_sifts_queue_late :
    let p := (start { liteMode := true } 5000 none).run lateArrivals
    let q := (p.opened {}).pipeline
    p.stopRequested = false ∧ p.environment.chain.tipFailing = false ∧
    p.ShutsOut q (sample 1).signature 600000 ∧
    p.Stays q ⟨sample 2, .signatureValid, 5000⟩ .signatureValid ∧
    p.Stays q ⟨sample 3, .unvalidated, 5000⟩ .signatureValid ∧
    (p.opened {}).report = { expired := 1, validated := 1, pendingImport := 2 } := by
  intro p q
  have hgo : p.stopRequested = false := by decide
  have htip : p.environment.chain.tipFailing = false := by decide
  obtain ⟨hsifted, -, -, hreport⟩ :=
    (judging_sifts_queue { liteMode := true } 5000 none lateArrivals {} hgo).2 htip
  have hfirst := hsifted ⟨{ sample 1 with timestamp := 500 }, .signatureValid, 5000⟩ (by decide)
  have hsecond := hsifted ⟨sample 2, .signatureValid, 5000⟩ (by decide)
  have hthird := hsifted ⟨sample 3, .unvalidated, 5000⟩ (by decide)
  rw [if_pos (by decide)] at hfirst
  rw [if_neg (by decide), if_pos (by decide)] at hsecond
  rw [if_neg (by decide), if_neg (by decide), if_pos (by decide)] at hthird
  refine ⟨hgo, htip, hfirst, hsecond, hthird, hreport.trans ?_⟩
  decide +kernel

end ChainNode.Admission.Pipeline
