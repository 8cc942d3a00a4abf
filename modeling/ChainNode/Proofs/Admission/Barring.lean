import ChainNode.Proofs.Admission.Cycle
import Mathlib.Algebra.Group.Nat.Defs

/-!
# Who is barred

A cycle bars a signature for one of three causes, and each cause has its cool-down. As long as queued
signatures are not cooling down, the end of the cool-down is the moment of the cycle and that time.
-/

namespace ChainNode.Admission

/-- Why a cycle bars a signature. -/
inductive Cause
  | expired
  | badSignature
  | refused (reason : InvalidReason)
deriving DecidableEq

/-- How long the cause bars a signature. -/
def Config.cooldownOf (config : Config) : Cause → UInt64
  | .expired => config.expiredCooldown
  | .refused .timestampTooOld => config.timestampTooOldCooldown
  | _ => config.invalidCooldown

namespace Pipeline

/-- The cycle takes out what is queued under `s`, for this cause. -/
def Bars (p : Pipeline) (order : WalkOrder) (s : Signature) : Cause → Prop
  | .expired =>
    p.stopRequested = false ∧ p.environment.chain.tipFailing = false ∧
      ∃ c ∈ p.queue.candidates, c.signature = s ∧
        p.environment.chain.tip.any c.transaction.isExpiredAt = true
  | .badSignature =>
    p.stopRequested = false ∧ p.environment.chain.tipFailing = false ∧
      ∃ c ∈ p.queue.candidates, c.signature = s ∧
        p.environment.chain.tip.any c.transaction.isExpiredAt = false ∧ c.isValid = false ∧
          p.config.liteMode = false ∧ c.transaction.verifies = false
  | .refused reason =>
    ∃ q ∈ p.requestsOf order, q.transaction.signature = s ∧ q.answer = .ok (.invalid reason)

/-- No queued signature is cooling down. -/
def Quiet (p : Pipeline) : Prop :=
  ∀ s, p.queue.contains s = true → p.isCoolingDown s = false

/-- A cool-down that starts now ends before the clock does. -/
def cooldownsFit (p : Pipeline) : Bool :=
  [p.config.expiredCooldown, p.config.invalidCooldown, p.config.timestampTooOldCooldown].all
    fun cooldown => decide (p.environment.now.toNat + cooldown.toNat < 2 ^ 64)

variable {p : Pipeline} {order : WalkOrder} {s : Signature} {cause : Cause} {expiry : UInt64}

/-! ## The end of a cool-down -/

theorem cooldownOf_fits (h : p.cooldownsFit = true) (cause : Cause) :
    p.environment.now.toNat + (p.config.cooldownOf cause).toNat < 2 ^ 64 := by
  unfold cooldownsFit at h
  simp only [List.all_cons, List.all_nil, Bool.and_true, Bool.and_eq_true, decide_eq_true_eq] at h
  obtain ⟨hexpired, hinvalid, hold⟩ := h
  cases cause with
  | expired => exact hexpired
  | badSignature => exact hinvalid
  | refused reason =>
    cases reason with
    | timestampTooOld => exact hold
    | timestampTooNew => exact hinvalid
    | insufficientFee => exact hinvalid
    | other reason => exact hinvalid

theorem toNat_now_add_cooldownOf (h : p.cooldownsFit = true) (cause : Cause) :
    (p.environment.now + p.config.cooldownOf cause).toNat =
      p.environment.now.toNat + (p.config.cooldownOf cause).toNat := by
  have hfits := cooldownOf_fits h cause
  rw [UInt64.toNat_add, Nat.mod_eq_of_lt hfits]

theorem now_le_now_add_cooldownOf (h : p.cooldownsFit = true) (cause : Cause) :
    p.environment.now ≤ p.environment.now + p.config.cooldownOf cause := by
  rw [UInt64.le_iff_toNat_le, toNat_now_add_cooldownOf h]
  omega

theorem isCoolingDown_eq_false_iff :
    p.isCoolingDown s = false ↔ ∀ expiry, p.cooldowns.expiry? s = some expiry →
      expiry < p.environment.now := by
  rw [← Bool.not_eq_true, isCoolingDown, Cooldowns.isCoolingDown_iff, not_exists]
  apply forall_congr'
  intro expiry
  rw [not_and, UInt64.not_le]

theorem elim_max_of_lapsed (h : p.isCoolingDown s = false) (hnow : p.environment.now ≤ expiry) :
    (p.cooldowns.expiry? s).elim expiry (max · expiry) = expiry := by
  cases hold : p.cooldowns.expiry? s with
  | none => rfl
  | some old =>
    -- the old end lies in the past, so the new one is the later
    have hlapsed := isCoolingDown_eq_false_iff.mp h old hold
    have hle : old ≤ expiry := by
      rw [UInt64.le_iff_toNat_le] at hnow ⊢
      rw [UInt64.lt_iff_toNat_lt] at hlapsed
      omega
    show (if old ≤ expiry then expiry else old) = expiry
    rw [if_pos hle]

/-! ## The cycle that bars -/

theorem WellFormed.expiry?_cycle_eq_some (h : p.WellFormed)
    (hextend : (p.settledAs order s).extend p.environment.now
      ((p.judgedAs s).extend p.environment.now (p.cooldowns.expiry? s)) = some expiry)
    (hnow : p.environment.now ≤ expiry) :
    (p.cycle order).2.cooldowns.expiry? s = some expiry := by
  rcases h.expiry?_cycle order s with heq | heq
  · rw [heq, hextend]
  · -- the clean-up keeps what ends now or later
    rw [heq, hextend, Option.filter_some, if_pos (decide_eq_true hnow)]

theorem WellFormed.rulings_of_bars (h : p.WellFormed) (hbars : p.Bars order s cause) :
    (p.judgedAs s = .bar (p.config.cooldownOf cause) ∧ p.settledAs order s = .keep) ∨
      (∃ c d, (p.judgedAs s).leave c = some d ∧
        p.settledAs order s = .bar (p.config.cooldownOf cause)) := by
  -- who is barred when judged is not handed over in the same cycle
  have hjudged {cooldown : UInt64} (hbar : p.judgedAs s = .bar cooldown) :
      p.settledAs order s = .keep := by
    apply h.settledAs_of_left_none
    rw [hbar]
    exact Ruling.bind_leave_of_removes rfl _
  cases cause with
  | expired =>
    obtain ⟨hgo, hread, c, hc, rfl, hexpired⟩ := hbars
    have hbar : p.judgedAs c.signature = .bar p.config.expiredCooldown := by
      rw [h.judgedAs_signature hc hgo, judgement_of_tipRead hread, if_pos hexpired]
    exact Or.inl ⟨hbar, hjudged hbar⟩
  | badSignature =>
    obtain ⟨hgo, hread, c, hc, rfl, hlive, huntagged, hfull, hbad⟩ := hbars
    have hbar : p.judgedAs c.signature = .bar p.config.invalidCooldown := by
      rw [h.judgedAs_signature hc hgo, judgement_of_tipRead hread, hlive, huntagged, hfull, hbad]
      rfl
    exact Or.inl ⟨hbar, hjudged hbar⟩
  | refused reason =>
    obtain ⟨q, hq, rfl, hanswer⟩ := hbars
    obtain ⟨c, d, -, -, hd, -⟩ := h.get?_of_mem_requestsOf hq
    have hbar : q.ruling p.config = .bar (p.config.cooldownOf (.refused reason)) := by
      rw [SaveRequest.ruling, hanswer]
      cases reason <;> rfl
    exact Or.inr ⟨c, d, hd, by rw [h.settledAs_of_mem hq, hbar]⟩

theorem WellFormed.contains_cycle_of_bars (h : p.WellFormed) (hbars : p.Bars order s cause) :
    (p.cycle order).2.queue.contains s = false := by
  rw [← Queue.get?_eq_none_iff, h.get?_cycle]
  rcases h.rulings_of_bars hbars with ⟨hjudged, hsettled⟩ | ⟨c, d, -, hsettled⟩
  · rw [hjudged, hsettled, Ruling.bind_leave_keep, Ruling.bind_leave_of_removes rfl]
  · rw [hsettled, Ruling.bind_leave_of_removes rfl]

theorem WellFormed.contains_of_bars (h : p.WellFormed) (hbars : p.Bars order s cause) :
    p.queue.contains s = true := by
  cases cause with
  | expired =>
    obtain ⟨-, -, c, hc, hs, -⟩ := hbars
    exact Queue.contains_iff.mpr ⟨c, hc, hs⟩
  | badSignature =>
    obtain ⟨-, -, c, hc, hs, -⟩ := hbars
    exact Queue.contains_iff.mpr ⟨c, hc, hs⟩
  | refused reason =>
    obtain ⟨q, hq, rfl, -⟩ := hbars
    obtain ⟨c, d, hc, -, -, -⟩ := h.get?_of_mem_requestsOf hq
    rw [Queue.contains, hc, Option.isSome_some]

theorem WellFormed.expiry?_cycle_of_bars (h : p.WellFormed) (hquiet : p.Quiet)
    (hfits : p.cooldownsFit = true) (hbars : p.Bars order s cause) :
    (p.cycle order).2.cooldowns.expiry? s =
      some (p.environment.now + p.config.cooldownOf cause) := by
  have hnow := now_le_now_add_cooldownOf hfits cause
  have hfirst := elim_max_of_lapsed (hquiet s (h.contains_of_bars hbars)) hnow
  apply h.expiry?_cycle_eq_some _ hnow
  rcases h.rulings_of_bars hbars with ⟨hjudged, hsettled⟩ | ⟨c, d, hd, hsettled⟩
  · rw [hjudged, hsettled]
    exact congrArg some hfirst
  · rw [Ruling.extend_of_leave hd, hsettled]
    exact congrArg some hfirst

/-! ## Nobody leaves for another reason -/

theorem WellFormed.bars_of_judged (h : p.WellFormed) {c : Candidate} (hc : p.queue.get? s = some c)
    (hout : (p.judgedAs s).leave c = none) : ∃ cause, p.Bars order s cause := by
  obtain ⟨hmem, hs⟩ := Queue.mem_of_get? hc
  have hgo : p.stopRequested = false := by
    cases hstop : p.stopRequested with
    | false => rfl
    | true =>
      rw [judgedAs, hstop] at hout
      cases hout
  have hjudged := h.judgedAs_signature hmem hgo
  rw [hs] at hjudged
  rw [hjudged] at hout
  cases hread : p.environment.chain.tipFailing with
  | true =>
    rw [judgement_of_tipFailing hread] at hout
    cases hout
  | false =>
    rw [judgement_of_tipRead hread] at hout
    split at hout
    · rename_i hexpired
      exact ⟨.expired, hgo, hread, c, hmem, hs, hexpired⟩
    · rename_i hlive
      split at hout
      · cases hout
      · rename_i huntagged
        split at hout
        · cases hout
        · rename_i hbad
          rw [Bool.not_eq_true] at hlive huntagged hbad
          rw [Bool.or_eq_false_iff] at hbad
          exact ⟨.badSignature, hgo, hread, c, hmem, hs, hlive, huntagged, hbad.1, hbad.2⟩

/-- What leaves the queue in a cycle is barred, or the repository has it. -/
theorem WellFormed.bars_or_stored (h : p.WellFormed) (hin : p.queue.contains s = true)
    (hout : (p.cycle order).2.queue.contains s = false) :
    (∃ cause, p.Bars order s cause) ∨ ∃ q ∈ p.requestsOf order, q.transaction.signature = s ∧
      (q.answer = .ok .saved ∨ q.answer = .ok .alreadyExists) := by
  obtain ⟨c, hc⟩ := Option.isSome_iff_exists.mp hin
  rw [← Queue.get?_eq_none_iff, h.get?_cycle, hc, Option.bind_some] at hout
  -- it went when it was judged, or by an answer of the repository
  cases hd : (p.judgedAs s).leave c with
  | none => exact Or.inl (h.bars_of_judged hc hd)
  | some d =>
    rw [hd, Option.bind_some] at hout
    rcases h.settledAs_cases order s with hkeep | ⟨q, hq, rfl, hsettled⟩
    · rw [hkeep] at hout
      cases hout
    · rw [hsettled, SaveRequest.ruling] at hout
      cases hanswer : q.answer with
      | error e =>
        rw [hanswer] at hout
        cases hout
      | ok result =>
        rw [hanswer] at hout
        cases result with
        | saved => exact Or.inr ⟨q, hq, rfl, Or.inl hanswer⟩
        | alreadyExists => exact Or.inr ⟨q, hq, rfl, Or.inr hanswer⟩
        | lockUnavailable => cases hout
        | invalid reason => exact Or.inl ⟨.refused reason, q, hq, rfl, hanswer⟩

end Pipeline
end ChainNode.Admission
