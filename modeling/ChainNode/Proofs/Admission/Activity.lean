import ChainNode.Proofs.Admission.Account
import ChainNode.Proofs.Admission.Run

/-!
# Activity

The counters of a report see every change of the queue and of the cool-downs. Nothing that a cycle changes
is changed back before it is over: a tag stays as long as the candidate does, nobody comes back into the
queue, and a cool-down that begins and ends in one cycle has still cost a candidate its place.
-/

namespace ChainNode.Admission

theorem CycleReport.hasActivity_eq_false_iff {r : CycleReport} :
    r.hasActivity = false ↔ r.validated = 0 ∧ r.departed = 0 ∧ r.purged = 0 := by
  rw [hasActivity, departed, decide_eq_false_iff_not]
  omega

/-- A request leaves everything as it is, unless it takes its candidate out of the queue. -/
theorem SaveRequest.ruling_of_stays {q : SaveRequest} {config : Config}
    (h : (q.ruling config).removes = false) : q.ruling config = .keep := by
  unfold ruling at h ⊢
  split
  · rename_i result hanswer
    rw [hanswer] at h
    cases result with
    | lockUnavailable => rfl
    | saved => cases h
    | alreadyExists => cases h
    | invalid reason => cases h
  · rfl

theorem Verdict.ruling_of_stays {v : Verdict} {config : Config} (h : (v.ruling config).removes = false)
    (hvalid : v ≠ .valid) : v.ruling config = .keep := by
  cases v with
  | unchanged => rfl
  | valid => exact absurd rfl hvalid
  | expired => cases h
  | badSignature => cases h

namespace Pipeline

variable {p : Pipeline} {order : WalkOrder} {s : Signature} {c : Candidate}

/-! ## What the counters say -/

theorem WellFormed.validated_cycle (hp : p.WellFormed) (order : WalkOrder) :
    (p.cycle order).1.validated = if p.stopRequested then 0 else p.judgedCount .valid := by
  cases h : p.stopRequested with
  | true =>
    rw [cycle_of_stopRequested order h]
    rfl
  | false =>
    have hreport := (accounts_opened order h).1.report
    have hvalidated : ((p.opened order).importTagged order).1.report.validated =
        0 + p.judgedCount .valid := by
      rw [hreport, hp.report_opened order]
      rfl
    rw [cycle_eq_cleanUp order h, if_neg Bool.false_ne_true, ← Nat.zero_add (p.judgedCount _),
      ← hvalidated]
    split <;> rfl

theorem judgement_of_stays (hvalid : p.judgedCount .valid = 0) (hc : c ∈ p.queue.candidates)
    (hstays : (p.judgement c).removes = false) : p.judgement c = .keep := by
  unfold judgement at hstays ⊢
  unfold judgedCount at hvalid
  cases htip : p.environment.chain.currentTip with
  | error e => rfl
  | ok tip =>
    rw [htip] at hstays hvalid
    refine Verdict.ruling_of_stays hstays fun hverdict => ?_
    exact List.countP_eq_zero.mp hvalid c hc (decide_eq_true hverdict)

/-- No candidate was tagged and none has left. -/
structure Rested (p : Pipeline) (order : WalkOrder) : Prop where
  validated : (p.cycle order).1.validated = 0
  departed : (p.cycle order).1.departed = 0

theorem Rested.keeps (h : p.Rested order) (hp : p.WellFormed) :
    (∀ x ∈ p.firstRulings order, x.2 = .keep) ∧ ∀ x ∈ p.lastRulings order, x.2 = .keep := by
  obtain ⟨p', hp'⟩ := p.exists_imported order
  obtain ⟨hfirst, hlast⟩ := Nat.add_eq_zero_iff.mp (hp'.departed.symm.trans h.departed)
  have hstays {rulings : List (Signature × Ruling)} (hzero : rulings.countP (·.2.removes) = 0)
      {x : Signature × Ruling} (hx : x ∈ rulings) : x.2.removes = false :=
    Bool.not_eq_true _ |>.mp (List.countP_eq_zero.mp hzero x hx)
  constructor
  · intro x hx
    have hxstays := hstays hfirst hx
    have hvalid := h.validated
    rw [hp.validated_cycle] at hvalid
    unfold firstRulings at hx
    split at hx
    · cases hx
    · rename_i hgo
      rw [if_neg hgo] at hvalid
      obtain ⟨c, hc, rfl⟩ := List.mem_map.mp hx
      exact judgement_of_stays hvalid (mem_judgingOrder.mp hc) hxstays
  · intro x hx
    have hxstays := hstays hlast hx
    obtain ⟨q, -, rfl⟩ := List.mem_map.mp hx
    exact SaveRequest.ruling_of_stays hxstays

theorem Rested.judged_eq (h : p.Rested order) (hp : p.WellFormed) :
    (p.judged order).ruleAll (p.lastRulings order) = p := by
  obtain ⟨hfirst, hlast⟩ := h.keeps hp
  rw [ruleAll_of_keep hlast, judged, ruleAll_of_keep hfirst]

theorem Rested.queue_cycle (h : p.Rested order) (hp : p.WellFormed) :
    (p.cycle order).2.queue = p.queue := by
  obtain ⟨p', hp'⟩ := p.exists_imported order
  rw [queue_cycle_of_imported hp', h.judged_eq hp]

theorem Rested.cooldownsLeft_eq (h : p.Rested order) (hp : p.WellFormed) :
    p.cooldownsLeft order = p.cooldowns := by
  rw [cooldownsLeft, h.judged_eq hp]

theorem Rested.savedAmong_eq_nil (h : p.Rested order) (hp : p.WellFormed) :
    savedAmong (p.requestsOf order) = [] := by
  have hdeparted := h.departed
  have himported := hp.imported_cycle order
  unfold CycleReport.departed at hdeparted
  exact List.length_eq_zero_iff.mp (by omega)

/-! ## What the changes say -/

/-- A candidate that gets its tag is never again what it was. -/
theorem WellFormed.get?_cycle_ne_of_valid (h : p.WellFormed) (hgo : p.stopRequested = false)
    (hc : c ∈ p.queue.candidates) {tip : Option ChainTip}
    (htip : p.environment.chain.currentTip = .ok tip) (hverdict : verdict p.config tip c = .valid)
    (order : WalkOrder) : (p.cycle order).2.queue.get? c.signature ≠ p.queue.get? c.signature := by
  have hget := h.queue.get?_signature hc
  have hjudged : p.judgedAs c.signature = .tag := by
    rw [h.judgedAs_signature hc hgo, judgement, htip]
    exact congrArg (Verdict.ruling p.config) hverdict
  rw [hget]
  intro hsame
  -- who is still there has been left with the tag, and was judged because it had none
  obtain ⟨d, hd, hleave, hsettled⟩ := h.exists_of_get?_cycle hsame
  rw [hjudged] at hleave
  have htagged : c.isValid = true := by
    rw [← Option.some.inj hleave]
    rfl
  rw [isValid_of_verdict hverdict] at htagged
  cases htagged

theorem WellFormed.rested_of_get?_cycle (h : p.WellFormed)
    (hsame : ∀ s, (p.cycle order).2.queue.get? s = p.queue.get? s) : p.Rested order := by
  constructor
  · rw [h.validated_cycle]
    cases hgo : p.stopRequested with
    | true => rfl
    | false =>
      rw [if_neg Bool.false_ne_true]
      unfold judgedCount
      split
      · rfl
      · rename_i tip htip
        apply List.countP_eq_zero.mpr
        intro c hc hverdict
        exact h.get?_cycle_ne_of_valid hgo hc htip (of_decide_eq_true hverdict) order (hsame c.signature)
  · -- the same signatures are queued as before, so as many candidates are
    have hsize := h.size_cycle order
    have hlength := ((h.cycle order).queue.perm_of_get? h.queue hsame).length_eq
    unfold Queue.size at hsize
    omega

/-- In a cycle that leaves the queue alone, only the clean-up changes the cool-downs. -/
theorem Rested.purged_cycle (h : p.Rested order) (hp : p.WellFormed) :
    ((p.cycle order).1.purged, (p.cycle order).2.cooldowns) =
      if (p.cycle order).1.stopped then (0, p.cooldowns)
      else p.cooldowns.purge p.environment.now := by
  rw [hp.purged_cycle, h.cooldownsLeft_eq hp]

theorem Rested.size_cooldowns (h : p.Rested order) (hp : p.WellFormed) :
    (p.cycle order).2.cooldowns.size + (p.cycle order).1.purged = p.cooldowns.size := by
  have hpurged := h.purged_cycle hp
  split at hpurged
  · obtain ⟨hcount, hleft⟩ := Prod.mk.inj hpurged
    rw [hcount, hleft, Nat.add_zero]
  · have hsum := p.cooldowns.size_purge_add p.environment.now
    rw [← hpurged] at hsum
    exact hsum

theorem Rested.cooldowns_cycle (h : p.Rested order) (hp : p.WellFormed)
    (hnone : (p.cycle order).1.purged = 0) : (p.cycle order).2.cooldowns = p.cooldowns := by
  have hpurged := h.purged_cycle hp
  split at hpurged
  · exact congrArg Prod.snd hpurged
  · have hcount : (p.cooldowns.purge p.environment.now).1 = 0 := by rw [← hpurged, hnone]
    rw [← Cooldowns.purge_eq_self hcount, ← hpurged]

/-- As many cool-downs are left as there were, so none was purged. -/
theorem Rested.purged_of_expiry? (h : p.Rested order) (hp : p.WellFormed)
    (hsame : ∀ s, (p.cycle order).2.cooldowns.expiry? s = p.cooldowns.expiry? s) :
    (p.cycle order).1.purged = 0 := by
  have hsize := h.size_cooldowns hp
  have hlength := ((hp.cycle order).cooldowns.perm_of_expiry? hp.cooldowns hsame).length_eq
  unfold Cooldowns.size at hsize
  omega

theorem Rested.stored_cycle_eq_self (h : p.Rested order) (hp : p.WellFormed) :
    (p.cycle order).2.environment.repository.stored = p.environment.repository.stored := by
  rw [stored_cycle, h.savedAmong_eq_nil hp, List.append_nil]

theorem Rested.broadcaster_cycle_eq_self (h : p.Rested order) (hp : p.WellFormed) :
    (p.cycle order).2.environment.broadcaster = p.environment.broadcaster := by
  rw [broadcaster_cycle, h.savedAmong_eq_nil hp]
  rfl

theorem rested_of_idle (hidle : (p.cycle order).1.hasActivity = false) : p.Rested order := by
  obtain ⟨hvalidated, hdeparted, -⟩ := CycleReport.hasActivity_eq_false_iff.mp hidle
  exact ⟨hvalidated, hdeparted⟩

theorem WellFormed.maps_of_idle (h : p.WellFormed) (hidle : (p.cycle order).1.hasActivity = false) :
    (p.cycle order).2.queue = p.queue ∧ (p.cycle order).2.cooldowns = p.cooldowns := by
  have hrested := rested_of_idle hidle
  obtain ⟨-, -, hpurged⟩ := CycleReport.hasActivity_eq_false_iff.mp hidle
  exact ⟨hrested.queue_cycle h, hrested.cooldowns_cycle h hpurged⟩

theorem WellFormed.idle_of_maps (h : p.WellFormed)
    (hqueue : ∀ s, (p.cycle order).2.queue.get? s = p.queue.get? s)
    (hcooldowns : ∀ s, (p.cycle order).2.cooldowns.expiry? s = p.cooldowns.expiry? s) :
    (p.cycle order).1.hasActivity = false := by
  have hrested := h.rested_of_get?_cycle hqueue
  exact CycleReport.hasActivity_eq_false_iff.mpr
    ⟨hrested.validated, hrested.departed, hrested.purged_of_expiry? h hcooldowns⟩

/-- A cycle reports activity if and only if a signature has another candidate, tag or cool-down after it
than before. Without activity queue and cool-downs are the very same, nothing has been stored, and nobody
has been told anything. -/
theorem activity_iff_moved (config : Config) (now : UInt64) (tip : Option ChainTip) (es : List Event)
    (order : WalkOrder) :
    let p := (start config now tip).run es
    let report := (p.cycle order).1
    let q := (p.cycle order).2
    (report.hasActivity = true ↔
      ∃ s, q.queue.get? s ≠ p.queue.get? s ∨ q.cooldowns.expiry? s ≠ p.cooldowns.expiry? s) ∧
    (report.hasActivity = false →
      q.queue = p.queue ∧ q.cooldowns = p.cooldowns ∧
      q.environment.repository.stored = p.environment.repository.stored ∧
      q.environment.broadcaster.messages = p.environment.broadcaster.messages) := by
  intro p report q
  have hp : p.WellFormed := (wellFormed_start config now tip).run es
  refine ⟨⟨fun hactive => ?_, fun ⟨s, hs⟩ => ?_⟩, fun hidle => ?_⟩
  · by_contra hnone
    have hidle : report.hasActivity = false := hp.idle_of_maps
      (fun s => not_not.mp fun hne => hnone ⟨s, Or.inl hne⟩)
      (fun s => not_not.mp fun hne => hnone ⟨s, Or.inr hne⟩)
    rw [hactive] at hidle
    cases hidle
  · by_contra hidle
    obtain ⟨hqueue, hcooldowns⟩ := hp.maps_of_idle (Bool.not_eq_true _ |>.mp hidle)
    rw [hqueue, hcooldowns] at hs
    exact hs.elim (fun hne => hne rfl) fun hne => hne rfl
  · have hrested : p.Rested order := rested_of_idle hidle
    obtain ⟨hqueue, hcooldowns⟩ := hp.maps_of_idle hidle
    exact ⟨hqueue, hcooldowns, hrested.stored_cycle_eq_self hp,
      congrArg Broadcaster.messages (hrested.broadcaster_cycle_eq_self hp)⟩

/-- Of two payments, one is barred and the other is tagged and kept by a sync. Then it is the last
millisecond of the cool-down. -/
def standstill : List Event :=
  [.submit { sample 1 with timestamp := 500 }, .submit (sample 2), .change (.setSyncInProgress true),
    .cycle {}, .change (.setTime 605000)]

/-- Nothing moves in this millisecond. In the next one the cool-down is dropped. -/
theorem activity_iff_moved_standstill :
    let p := (start { liteMode := true } 5000 (some ⟨1, 86400500⟩)).run standstill
    let later := (start { liteMode := true } 5000 (some ⟨1, 86400500⟩)).run
      (standstill ++ [.change (.setTime 605001)])
    (p.cycle {}).1.hasActivity = false ∧ (p.cycle {}).2.queue = p.queue ∧
    (p.cycle {}).2.cooldowns = p.cooldowns ∧ p.queue.size = 1 ∧ p.cooldowns.size = 1 ∧
    ∃ s, (later.cycle {}).2.queue.get? s ≠ later.queue.get? s ∨
      (later.cycle {}).2.cooldowns.expiry? s ≠ later.cooldowns.expiry? s := by
  intro p later
  have hidle : (p.cycle {}).1.hasActivity = false := by decide
  have hactive : (later.cycle {}).1.hasActivity = true := by decide
  obtain ⟨-, hsame⟩ := activity_iff_moved { liteMode := true } 5000 (some ⟨1, 86400500⟩) standstill {}
  obtain ⟨hmoved, -⟩ := activity_iff_moved { liteMode := true } 5000 (some ⟨1, 86400500⟩)
    (standstill ++ [.change (.setTime 605001)]) {}
  obtain ⟨hqueue, hcooldowns, -, -⟩ := hsame hidle
  exact ⟨hidle, hqueue, hcooldowns, by decide, by decide, hmoved.mp hactive⟩

end Pipeline
end ChainNode.Admission
