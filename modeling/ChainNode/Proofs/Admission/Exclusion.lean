import ChainNode.Proofs.Admission.Barring
import ChainNode.Proofs.Admission.Run

/-!
# Cool-downs over a run

As long as the clock does not go back, no queued signature cools down, and one that was barred stays out
of the queue and of the repository until its cool-down has ended.
-/

namespace ChainNode.Admission.Pipeline

/-- The clock does not go back in this step, and no cool-down that starts in it overflows. -/
def timely (p : Pipeline) (e : Event) : Bool :=
  decide (p.environment.now ≤ (p.step e).2.environment.now) && p.cooldownsFit

/-- The step submits `s` after that time. -/
def submitsAfter (expiry : UInt64) (s : Signature) (p : Pipeline) : Event → Bool
  | .submit tx => decide (tx.signature = s) && decide (expiry < p.environment.now)
  | _ => false

/-- The requests made so far to save a transaction with signature `s`. -/
def requestsFor (p : Pipeline) (s : Signature) : List SaveRequest :=
  p.environment.repository.requests.filter (·.transaction.signature = s)

/-- `s` is out of the queue, and its cool-down is on record unless it has ended. -/
structure Excluded (s : Signature) (expiry : UInt64) (made : List SaveRequest) (p : Pipeline) :
    Prop where
  absent : p.queue.contains s = false
  expiry? : p.cooldowns.expiry? s = some expiry ∨
    p.cooldowns.expiry? s = none ∧ expiry < p.environment.now
  requests : p.requestsFor s = made

variable {p : Pipeline} {s : Signature} {e : Event} {es : List Event} {expiry : UInt64}
  {made : List SaveRequest}

/-! ## The clock -/

theorem timely_iff :
    p.timely e = true ↔
      p.environment.now ≤ (p.step e).2.environment.now ∧ p.cooldownsFit = true := by
  rw [timely, Bool.and_eq_true, decide_eq_true_eq]

theorem now_le_now_run (hes : runsUnder timely p es = true) :
    p.environment.now ≤ (p.run es).environment.now := by
  induction es generalizing p with
  | nil => exact UInt64.le_refl _
  | cons e es ih =>
    obtain ⟨hhead, htail⟩ := runsUnder_cons.mp hes
    have hstep := (timely_iff.mp hhead).1
    exact UInt64.le_trans hstep (ih htail)

theorem runsUnder_not_submitsAfter (hes : runsUnder timely p es = true)
    (hnow : (p.run es).environment.now ≤ expiry) :
    runsUnder (fun p e => !p.submitsAfter expiry s e) p es = true := by
  induction es generalizing p with
  | nil => rfl
  | cons e es ih =>
    -- no step comes later than the last one
    have hle : p.environment.now ≤ expiry := UInt64.le_trans (now_le_now_run hes) hnow
    obtain ⟨-, htail⟩ := runsUnder_cons.mp hes
    refine runsUnder_cons.mpr ⟨?_, ih htail hnow⟩
    cases e with
    | submit tx =>
      have hlate : decide (expiry < p.environment.now) = false :=
        decide_eq_false (UInt64.not_lt.mpr hle)
      rw [submitsAfter, hlate, Bool.and_false, Bool.not_false]
    | cycle order => rfl
    | requestStop => rfl
    | ask question => rfl
    | change change => rfl

/-! ## Who is queued does not cool down -/

theorem Quiet.submit (h : p.Quiet) (tx : Transaction) : (p.submit tx).2.Quiet := by
  intro s hs
  rw [isCoolingDown, cooldowns_submit, environment_submit]
  rcases p.submit_cases tx with ⟨_, _, he⟩ | ⟨_, _, _, he⟩ | ⟨ha, hcool, _⟩
  · rw [he] at hs
    exact h s hs
  · rw [he] at hs
    exact h s hs
  · -- the newcomer was let in because it does not cool down
    rw [Queue.contains, get?_submit, ha] at hs
    by_cases hsame : s = tx.signature
    · rw [hsame]
      exact hcool
    · rw [if_neg fun hq => hsame hq.2] at hs
      exact h s hs

theorem Quiet.cycle (h : p.Quiet) (hp : p.WellFormed) (order : WalkOrder) :
    (p.cycle order).2.Quiet := by
  intro s hs
  have hbefore := h s (hp.contains_of_contains_cycle hs)
  obtain ⟨d, hd⟩ := Option.isSome_iff_exists.mp hs
  obtain ⟨c, -, hjudged, hsettled⟩ := hp.exists_of_get?_cycle hd
  -- neither ruling bars a candidate that stays, so its cool-down is the old one
  have hexpiry := hp.expiry?_cycle order s
  rw [Ruling.extend_of_leave hjudged, Ruling.extend_of_leave hsettled] at hexpiry
  rw [isCoolingDown_eq_false_iff, now_cycle]
  intro expiry hsome
  apply isCoolingDown_eq_false_iff.mp hbefore
  rcases hexpiry with heq | heq
  · rw [← heq, hsome]
  · rw [heq] at hsome
    exact (Option.filter_eq_some_iff.mp hsome).1

theorem Quiet.step (h : p.Quiet) (hp : p.WellFormed) (he : p.timely e = true) :
    (p.step e).2.Quiet := by
  cases e with
  | submit tx => exact h.submit tx
  | cycle order => exact h.cycle hp order
  | requestStop => exact h
  | ask question => exact h
  | change change =>
    have hnow := (timely_iff.mp he).1
    intro s hs
    rw [isCoolingDown_eq_false_iff]
    intro expiry hsome
    have hlapsed := isCoolingDown_eq_false_iff.mp (h s hs) expiry hsome
    exact UInt64.lt_of_lt_of_le hlapsed hnow

theorem Quiet.run (h : p.Quiet) (hp : p.WellFormed) (hes : runsUnder timely p es = true) :
    (p.run es).Quiet := by
  induction es generalizing p with
  | nil => exact h
  | cons e es ih =>
    obtain ⟨hhead, htail⟩ := runsUnder_cons.mp hes
    exact ih (h.step hp hhead) (hp.step e) htail

/-! ## Who is barred stays out -/

theorem Excluded.submit_eq_coolingDown (h : Excluded s expiry made p)
    (hnow : p.environment.now ≤ expiry) (tx : Transaction) (hs : tx.signature = s) :
    (p.submit tx).1 = .coolingDown := by
  have hrecord : p.cooldowns.expiry? s = some expiry := by
    rcases h.expiry? with hsome | ⟨-, hlapsed⟩
    · exact hsome
    · exact absurd hnow (UInt64.not_le.mpr hlapsed)
  have hcool : p.isCoolingDown tx.signature = true := by
    rw [isCoolingDown, Cooldowns.isCoolingDown_iff, hs]
    exact ⟨expiry, hrecord, hnow⟩
  rw [submit, if_pos hcool]

theorem Excluded.submit_eq_queued (h : Excluded s expiry made p)
    (hnow : expiry < p.environment.now) (tx : Transaction) (hs : tx.signature = s) :
    (p.submit tx).1 = .queued := by
  have hcool : p.isCoolingDown s = false := by
    rw [isCoolingDown_eq_false_iff]
    intro expiry' hsome
    rcases h.expiry? with heq | ⟨hnone, -⟩
    · rw [heq] at hsome
      cases hsome
      exact hnow
    · rw [hnone] at hsome
      cases hsome
  rcases p.submit_cases tx with ⟨_, hyes, _⟩ | ⟨_, _, hyes, _⟩ | ⟨ha, _⟩
  · rw [hs, hcool] at hyes
    cases hyes
  · rw [hs, h.absent] at hyes
    cases hyes
  · exact ha

theorem Excluded.requests_step (h : Excluded s expiry made p) (hp : p.WellFormed) (e : Event) :
    (p.step e).2.requestsFor s = made := by
  -- requests are made for queued signatures only
  have hnone : (p.requestsIn e).filter (·.transaction.signature = s) = [] := by
    rw [List.filter_eq_nil_iff]
    intro q hq hsame
    have hin := hp.contains_of_mem_requestsIn hq
    rw [of_decide_eq_true hsame, h.absent] at hin
    cases hin
  rw [requestsFor, Pipeline.requests_step, List.filter_append, hnone, List.append_nil]
  exact h.requests

theorem Excluded.contains_step (h : Excluded s expiry made p) (hp : p.WellFormed)
    (hsubmit : p.submitsAfter expiry s e = false) : (p.step e).2.queue.contains s = false := by
  cases e with
  | submit tx =>
    show (p.submit tx).2.queue.contains s = false
    by_cases hs : tx.signature = s
    · -- submitted before the end, so it is refused
      have hearly : p.environment.now ≤ expiry := by
        rw [submitsAfter, decide_eq_true hs, Bool.true_and, decide_eq_false_iff_not] at hsubmit
        exact UInt64.not_lt.mp hsubmit
      have hrefused := h.submit_eq_coolingDown hearly tx hs
      rw [snd_submit_of_ne_queued (by rw [hrefused]; exact fun hc => SubmitOutcome.noConfusion hc)]
      exact h.absent
    · rw [Queue.contains, get?_submit, if_neg fun hq => hs hq.2.symm]
      exact h.absent
  | cycle order =>
    rw [← Bool.not_eq_true]
    intro hafter
    have hbefore := hp.contains_of_contains_cycle hafter
    rw [h.absent] at hbefore
    cases hbefore
  | requestStop => exact h.absent
  | ask question => exact h.absent
  | change change => exact h.absent

theorem Excluded.expiry?_step (h : Excluded s expiry made p) (hp : p.WellFormed)
    (he : p.timely e = true) :
    (p.step e).2.cooldowns.expiry? s = some expiry ∨
      (p.step e).2.cooldowns.expiry? s = none ∧ expiry < (p.step e).2.environment.now := by
  have hnow := (timely_iff.mp he).1
  have hstays : p.cooldowns.expiry? s = some expiry ∨
      p.cooldowns.expiry? s = none ∧ expiry < (p.step e).2.environment.now :=
    h.expiry?.imp_right fun hended => ⟨hended.1, UInt64.lt_of_lt_of_le hended.2 hnow⟩
  -- only a cycle touches the cool-downs
  cases e with
  | submit tx =>
    show (p.submit tx).2.cooldowns.expiry? s = some expiry ∨
      (p.submit tx).2.cooldowns.expiry? s = none ∧ _
    rw [cooldowns_submit]
    exact hstays
  | cycle order =>
    -- nothing is ruled on who is not queued; the clean-up may drop what has ended
    have hget := Queue.get?_eq_none_iff.mpr h.absent
    have hjudged : p.judgedAs s = .keep := by
      rw [judgedAs, hget]
      exact ite_self _
    have hsettled : p.settledAs order s = .keep := by
      apply hp.settledAs_of_left_none
      rw [hget]
      rfl
    have hexpiry := hp.expiry?_cycle order s
    rw [hjudged, hsettled] at hexpiry
    change (p.cycle order).2.cooldowns.expiry? s = p.cooldowns.expiry? s ∨
      (p.cycle order).2.cooldowns.expiry? s =
        (p.cooldowns.expiry? s).filter fun e => decide (p.environment.now ≤ e) at hexpiry
    show (p.cycle order).2.cooldowns.expiry? s = some expiry ∨
      (p.cycle order).2.cooldowns.expiry? s = none ∧ expiry < (p.cycle order).2.environment.now
    rw [now_cycle]
    rcases hexpiry with heq | heq
    · rw [heq]
      exact h.expiry?
    · rw [heq]
      rcases h.expiry? with hsome | ⟨hnone, hended⟩
      · rw [hsome]
        by_cases hlive : p.environment.now ≤ expiry
        · exact Or.inl (by rw [Option.filter_some, if_pos (decide_eq_true hlive)])
        · have hended := UInt64.not_le.mp hlive
          exact Or.inr ⟨by rw [Option.filter_some, if_neg (by simpa using hlive)], hended⟩
      · rw [hnone]
        exact Or.inr ⟨rfl, hended⟩
  | requestStop => exact hstays
  | ask question => exact hstays
  | change change => exact hstays

theorem Excluded.run (h : Excluded s expiry made p) (hp : p.WellFormed)
    (hes : runsUnder timely p es = true)
    (hsubmits : runsUnder (fun p e => !p.submitsAfter expiry s e) p es = true) :
    Excluded s expiry made (p.run es) := by
  induction es generalizing p with
  | nil => exact h
  | cons e es ih =>
    obtain ⟨htime, htimes⟩ := runsUnder_cons.mp hes
    obtain ⟨hsubmit, hrest⟩ := runsUnder_cons.mp hsubmits
    have hstep : Excluded s expiry made (p.step e).2 :=
      ⟨h.contains_step hp (Bool.not_eq_true' _ |>.mp hsubmit), h.expiry?_step hp htime,
        h.requests_step hp e⟩
    exact ih hstep (hp.step e) htimes hrest

/-! ## One signature and another -/

theorem fst_submit_congr_cooldowns {cooldowns : Cooldowns} {tx : Transaction}
    (h : ∀ text, text ≠ signatureText s →
      cooldowns.filed.lookup text = p.cooldowns.filed.lookup text)
    (hs : tx.signature ≠ s) :
    ({ p with cooldowns }.submit tx).1 = (p.submit tx).1 := by
  have hexpiry : cooldowns.expiry? tx.signature = p.cooldowns.expiry? tx.signature := by
    -- another signature has another text
    rw [← Cooldowns.lookup_filed, ← Cooldowns.lookup_filed]
    exact h _ fun htext => hs (signatureText_injective htext)
  have hcool : { p with cooldowns }.isCoolingDown tx.signature = p.isCoolingDown tx.signature := by
    show cooldowns.isCoolingDown tx.signature p.environment.now = _
    rw [isCoolingDown, Cooldowns.isCoolingDown, Cooldowns.isCoolingDown, hexpiry]
  unfold submit
  rw [hcool]
  split
  · rfl
  · dsimp only
    split <;> rfl

/-- Cool-downs exclude a signature for exactly their length. No queued signature cools down. What
leaves the queue otherwise than into the repository is barred by the cycle, for as long as its cause
says: until then it is not queued, not saved, and refused when it is submitted, and from then on the
first submission is taken in. The cool-down of one signature is nothing to another. -/
theorem cooldowns_exclude (config : Config) (now : UInt64) (tip : Option ChainTip)
    (es : List Event) :
    let p := (start config now tip).run es
    runsUnder timely (start config now tip) es = true →
    (∀ s, p.queue.contains s = true → p.isCoolingDown s = false) ∧
    (∀ order s, p.queue.contains s = true → (p.cycle order).2.queue.contains s = false →
      (∃ cause, p.Bars order s cause) ∨ ∃ q ∈ p.requestsOf order, q.transaction.signature = s ∧
        (q.answer = .ok .saved ∨ q.answer = .ok .alreadyExists)) ∧
    (∀ order s cause, p.Bars order s cause → p.timely (.cycle order) = true →
      let after := (p.cycle order).2
      ∃ expiry, after.cooldowns.expiry? s = some expiry ∧
        expiry.toNat = p.environment.now.toNat + (config.cooldownOf cause).toNat ∧
        ∀ fs, runsUnder timely after fs = true →
          let r := after.run fs
          (r.environment.now ≤ expiry → r.queue.contains s = false ∧
            r.requestsFor s = after.requestsFor s ∧
            ∀ tx, tx.signature = s → (r.submit tx).1 = .coolingDown) ∧
          (expiry < r.environment.now →
            runsUnder (fun p e => !p.submitsAfter expiry s e) after fs = true →
            ∀ tx, tx.signature = s → (r.submit tx).1 = .queued)) ∧
    (∀ s tx, tx.signature ≠ s →
      (∀ expiry, ({ p with cooldowns := p.cooldowns.record s expiry }.submit tx).1 =
        (p.submit tx).1) ∧
      ∀ cooldowns, (∀ text, text ≠ signatureText s →
          cooldowns.filed.lookup text = p.cooldowns.filed.lookup text) →
        ({ p with cooldowns }.submit tx).1 = (p.submit tx).1) := by
  intro p hes
  have hp : p.WellFormed := (wellFormed_start config now tip).run es
  have hempty : (start config now tip).Quiet := fun s hs => absurd hs Bool.false_ne_true
  have hquiet : p.Quiet := hempty.run (wellFormed_start config now tip) hes
  refine ⟨hquiet, ?_, ?_, ?_⟩
  · intro order s hin hout
    exact hp.bars_or_stored hin hout
  · intro order s cause hbars htimely after
    have hfits := (timely_iff.mp htimely).2
    have hexpiry := hp.expiry?_cycle_of_bars hquiet hfits hbars
    have hlength := toNat_now_add_cooldownOf hfits cause
    have hexcluded : Excluded s _ (after.requestsFor s) after :=
      ⟨hp.contains_cycle_of_bars hbars, Or.inl hexpiry, rfl⟩
    have hconfig : p.config = config := config_run _ es
    rw [hconfig] at hexpiry hlength hexcluded
    refine ⟨_, hexpiry, hlength, ?_⟩
    intro fs hfs r
    constructor
    · intro hnow
      have hr := hexcluded.run (hp.cycle order) hfs (runsUnder_not_submitsAfter hfs hnow)
      exact ⟨hr.absent, hr.requests, hr.submit_eq_coolingDown hnow⟩
    · intro hnow hsubmits
      exact (hexcluded.run (hp.cycle order) hfs hsubmits).submit_eq_queued hnow
  · intro s tx hs
    constructor
    · intro expiry
      exact fst_submit_congr_cooldowns
        (fun text htext => Cooldowns.lookup_filed_record htext p.cooldowns expiry) hs
    · intro cooldowns hfiled
      exact fst_submit_congr_cooldowns hfiled hs

/-- A payment past its deadline is barred for ten minutes, the last millisecond included. -/
theorem cooldowns_exclude_ten_minutes :
    let p := (start { liteMode := true } 1000 (some ⟨1, 86401000⟩)).run [.submit (sample 1)]
    let after := (p.cycle {}).2
    p.Bars {} (sample 1).signature .expired ∧
      ((after.run [.change (.setTime 601000)]).submit (sample 1)).1 = .coolingDown ∧
      ((after.run [.change (.setTime 601001)]).submit (sample 1)).1 = .queued := by
  intro p after
  have hes : runsUnder timely (start { liteMode := true } 1000 (some ⟨1, 86401000⟩))
      [.submit (sample 1)] = true := by decide
  have hbars : p.Bars {} (sample 1).signature .expired :=
    ⟨by decide, by decide, ⟨sample 1, .unvalidated, 1000⟩, by decide, rfl, by decide⟩
  obtain ⟨-, -, hbarred, -⟩ := cooldowns_exclude _ _ _ _ hes
  obtain ⟨expiry, -, hlength, hruns⟩ := hbarred {} _ _ hbars (by decide)
  change expiry.toNat = 601000 at hlength
  refine ⟨hbars, ?_, ?_⟩
  · have hnow : (601000 : UInt64) ≤ expiry := by
      rw [UInt64.le_iff_toNat_le, hlength]
      decide
    exact ((hruns [.change (.setTime 601000)] (by decide)).1 hnow).2.2 _ rfl
  · have hnow : expiry < (601001 : UInt64) := by
      rw [UInt64.lt_iff_toNat_lt, hlength]
      decide
    exact (hruns [.change (.setTime 601001)] (by decide)).2 hnow rfl _ rfl

end ChainNode.Admission.Pipeline
