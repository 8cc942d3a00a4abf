import ChainNode.Proofs.Admission.Importing

/-!
# The whole cycle

A cycle rules on each signature twice: when it judges the candidates, and when the repository has
answered. The two rulings say what becomes of the candidate and of the cool-down, and nothing is brought
into the queue.
-/

namespace ChainNode.Admission.Pipeline

/-- The requests to save that the cycle makes. -/
def requestsOf (p : Pipeline) (order : WalkOrder) : List SaveRequest :=
  (p.cycle order).2.environment.repository.requests.drop p.environment.repository.requests.length

/-- What the judging phase of a cycle rules. A pipeline that is to stop does not judge. -/
def firstRulings (p : Pipeline) (order : WalkOrder) : List (Signature × Ruling) :=
  if p.stopRequested then [] else p.judgements order.judging

/-- What the repository's answers rule. -/
def lastRulings (p : Pipeline) (order : WalkOrder) : List (Signature × Ruling) :=
  (p.requestsOf order).map (·.ruled p.config)

/-- The pipeline when the candidates are judged. -/
def judged (p : Pipeline) (order : WalkOrder) : Pipeline := p.ruleAll (p.firstRulings order)

/-- How the cycle judges what is queued under `s`. -/
def judgedAs (p : Pipeline) (s : Signature) : Ruling :=
  if p.stopRequested then .keep else (p.queue.get? s).elim .keep p.judgement

/-- What the repository's answer means for `s`. -/
def settledAs (p : Pipeline) (order : WalkOrder) (s : Signature) : Ruling :=
  .on (p.lastRulings order) s

/-- The pipeline without the cool-downs that have ended. -/
def purged (p : Pipeline) : Pipeline :=
  { p with cooldowns := (p.cooldowns.purge p.environment.now).2 }

/-- The cool-downs that the cycle leaves before it cleans up. -/
def cooldownsLeft (p : Pipeline) (order : WalkOrder) : Cooldowns :=
  ((p.judged order).ruleAll (p.lastRulings order)).cooldowns

variable {p p' : Pipeline} {order : WalkOrder} {s : Signature} {c d : Candidate} {q : SaveRequest}

@[simp] theorem environment_judged : (p.judged order).environment = p.environment :=
  environment_ruleAll

@[simp] theorem config_judged : (p.judged order).config = p.config :=
  config_ruleAll

@[simp] theorem stopRequested_judged : (p.judged order).stopRequested = p.stopRequested :=
  stopRequested_ruleAll

/-- `p'` is where the import phase of the cycle leads. -/
structure Imported (p : Pipeline) (order : WalkOrder) (p' : Pipeline) : Prop where
  asked : (p.requestsOf order).map (·.transaction) <+:
    (p.judged order).queue.walkValidated order.importing
  settles : (p.judged order).Settles (p.requestsOf order) p'
  departed : (p.cycle order).1.departed =
    (p.firstRulings order).countP (·.2.removes) + (p.lastRulings order).countP (·.2.removes)
  ends : (p.cycle order).2 = p' ∨ (p.cycle order).2 = p'.purged

theorem requestsOf_of_stopRequested (order : WalkOrder) (h : p.stopRequested = true) :
    p.requestsOf order = [] := by
  rw [requestsOf, cycle, if_pos h]
  exact List.drop_length

theorem imported_of_stopRequested (h : p.stopRequested = true) : p.Imported order p := by
  have hcycle : p.cycle order = ({ stopped := true }, p) := by rw [cycle, if_pos h]
  have hrequests := requestsOf_of_stopRequested order h
  have hfirst : p.firstRulings order = [] := by rw [firstRulings, if_pos h]
  have hlast : p.lastRulings order = [] := by rw [lastRulings, hrequests]; rfl
  refine ⟨?_, ?_, ?_, Or.inl (by rw [hcycle])⟩
  · rw [hrequests]
    exact List.nil_prefix
  · rw [hrequests, judged, hfirst]
    exact .around p p.stopRequested rfl rfl
  · rw [hfirst, hlast, hcycle]
    rfl

/-- The cycle of a pipeline that goes on, when its candidates are judged. -/
def opened (p : Pipeline) (order : WalkOrder) : Cycle :=
  ((Cycle.mk p {}).judge order).countPending

/-- The cycle when its import phase is over. -/
def afterImport (p : Pipeline) (order : WalkOrder) : Cycle := ((p.opened order).importTagged order).1

/-- Why the import phase of the cycle ended early, if it failed. -/
def importFailure (p : Pipeline) (order : WalkOrder) : Option AdmissionError :=
  ((p.opened order).importTagged order).2

theorem environment_opened (p : Pipeline) (order : WalkOrder) :
    (p.opened order).pipeline.environment = p.environment := by
  show ((Cycle.mk p {}).judge order).pipeline.environment = p.environment
  rw [Cycle.pipeline_judge, environment_ruleAll]

section
variable (order : WalkOrder) (h : p.stopRequested = false)
include h

theorem firstRulings_eq : p.firstRulings order = p.judgements order.judging :=
  if_neg (by rw [h]; exact Bool.false_ne_true)

theorem pipeline_opened : (p.opened order).pipeline = p.judged order := by
  rw [judged, firstRulings_eq order h]
  exact Cycle.pipeline_judge order ⟨p, {}⟩

theorem departed_opened :
    (p.opened order).report.departed = (p.firstRulings order).countP (·.2.removes) := by
  rw [firstRulings_eq order h]
  exact (Cycle.departed_judge order ⟨p, {}⟩).trans (Nat.zero_add _)

theorem cycle_eq_opened :
    (p.cycle order).1.departed = ((p.opened order).importTagged order).1.report.departed ∧
      ((p.cycle order).2 = ((p.opened order).importTagged order).1.pipeline ∨
        (p.cycle order).2 = ((p.opened order).importTagged order).1.pipeline.purged) := by
  unfold cycle
  rw [if_neg (by rw [h]; exact Bool.false_ne_true)]
  dsimp only
  split
  · exact ⟨rfl, Or.inl rfl⟩
  · exact ⟨rfl, Or.inr rfl⟩

theorem environment_cycle_eq_opened :
    (p.cycle order).2.environment =
      ((p.opened order).importTagged order).1.pipeline.environment := by
  rcases (cycle_eq_opened order h).2 with heq | heq
  · rw [heq]
  · rw [heq, purged]

theorem requestsOf_eq_of_settles {qs : List SaveRequest}
    (hqs : (p.opened order).pipeline.Settles qs ((p.opened order).importTagged order).1.pipeline) :
    p.requestsOf order = qs := by
  have hnew := hqs.requests
  rw [environment_opened] at hnew
  rw [requestsOf, environment_cycle_eq_opened order h, hnew, List.drop_left]

end

theorem exists_imported (p : Pipeline) (order : WalkOrder) : ∃ p', p.Imported order p' := by
  cases h : p.stopRequested with
  | true => exact ⟨p, imported_of_stopRequested h⟩
  | false =>
    have hopened := pipeline_opened order h
    obtain ⟨qs, hqs⟩ := (p.opened order).importTagged_imports order
    have hrequests := requestsOf_eq_of_settles order h hqs.settles
    obtain ⟨hdeparted, hends⟩ := cycle_eq_opened order h
    refine ⟨((p.opened order).importTagged order).1.pipeline, ?_, ?_, ?_, hends⟩
    · rw [hrequests, ← hopened]
      exact hqs.asked
    · rw [hrequests, ← hopened]
      exact hqs.settles
    · have hconfig : (p.opened order).pipeline.config = p.config := by
        rw [hopened, config_judged]
      rw [hdeparted, hqs.departed, departed_opened order h, hconfig, lastRulings, hrequests]

/-! ## What a cycle leaves alone -/

theorem environment_cycle_of_imported (h : p.Imported order p') :
    (p.cycle order).2.environment = p'.environment := by
  rcases h.ends with heq | heq
  · rw [heq]
  · rw [heq, purged]

theorem queue_cycle_of_imported (h : p.Imported order p') :
    (p.cycle order).2.queue = ((p.judged order).ruleAll (p.lastRulings order)).queue := by
  have hqueue : p'.queue = ((p.judged order).ruleAll (p.lastRulings order)).queue := by
    rw [h.settles.ruled, lastRulings, config_judged]
    rfl
  rcases h.ends with heq | heq
  · rw [heq, hqueue]
  · rw [heq, ← hqueue, purged]

@[simp] theorem config_cycle (p : Pipeline) (order : WalkOrder) :
    (p.cycle order).2.config = p.config := by
  obtain ⟨p', h⟩ := p.exists_imported order
  have hconfig : p'.config = p.config := by rw [h.settles.config, config_judged]
  rcases h.ends with heq | heq
  · rw [heq, hconfig]
  · rw [heq, purged, hconfig]

@[simp] theorem now_cycle (p : Pipeline) (order : WalkOrder) :
    (p.cycle order).2.environment.now = p.environment.now := by
  obtain ⟨p', h⟩ := p.exists_imported order
  rw [environment_cycle_of_imported h, h.settles.now, environment_judged]

theorem requests_cycle (p : Pipeline) (order : WalkOrder) :
    (p.cycle order).2.environment.repository.requests =
      p.environment.repository.requests ++ p.requestsOf order := by
  obtain ⟨p', h⟩ := p.exists_imported order
  rw [environment_cycle_of_imported h, h.settles.requests, environment_judged]

theorem repository_cycle (p : Pipeline) (order : WalkOrder) :
    (p.cycle order).2.environment.repository =
      p.environment.repository.replay (p.requestsOf order) := by
  obtain ⟨p', h⟩ := p.exists_imported order
  rw [environment_cycle_of_imported h, h.settles.repository, environment_judged]

/-! ## What becomes of a signature -/

theorem WellFormed.nodup_firstRulings (h : p.WellFormed) (order : WalkOrder) :
    ((p.firstRulings order).map Prod.fst).Nodup := by
  unfold firstRulings
  split
  · exact List.nodup_nil
  · exact h.nodup_judgements order.judging

theorem WellFormed.judged (h : p.WellFormed) (order : WalkOrder) : (p.judged order).WellFormed :=
  h.ruleAll _

theorem WellFormed.nodup_requestsOf (h : p.WellFormed) (order : WalkOrder) :
    ((p.requestsOf order).map (·.transaction.signature)).Nodup := by
  obtain ⟨p', hp'⟩ := p.exists_imported order
  have hsub := (hp'.asked.map (·.signature)).sublist
  rw [List.map_map] at hsub
  exact ((h.judged order).queue.nodup_walkValidated order.importing).sublist hsub

theorem map_fst_lastRulings (p : Pipeline) (order : WalkOrder) :
    (p.lastRulings order).map Prod.fst = (p.requestsOf order).map (·.transaction.signature) := by
  rw [lastRulings, List.map_map]
  rfl

theorem WellFormed.nodup_lastRulings (h : p.WellFormed) (order : WalkOrder) :
    ((p.lastRulings order).map Prod.fst).Nodup := by
  rw [map_fst_lastRulings]
  exact h.nodup_requestsOf order

theorem WellFormed.on_firstRulings (h : p.WellFormed) (order : WalkOrder) (s : Signature) :
    Ruling.on (p.firstRulings order) s = p.judgedAs s := by
  unfold firstRulings judgedAs
  split
  · rfl
  · cases hs : p.queue.get? s with
    | none => exact on_judgements_of_not_contains (Queue.get?_eq_none_iff.mp hs)
    | some c => exact h.on_judgements hs

theorem WellFormed.get?_judged (h : p.WellFormed) (order : WalkOrder) (s : Signature) :
    (p.judged order).queue.get? s = (p.queue.get? s).bind (p.judgedAs s).leave := by
  rw [Pipeline.judged, get?_ruleAll (h.nodup_firstRulings order), h.on_firstRulings]

theorem WellFormed.get?_cycle (h : p.WellFormed) (order : WalkOrder) (s : Signature) :
    (p.cycle order).2.queue.get? s =
      ((p.queue.get? s).bind (p.judgedAs s).leave).bind (p.settledAs order s).leave := by
  obtain ⟨p', hp'⟩ := p.exists_imported order
  rw [queue_cycle_of_imported hp', get?_ruleAll (h.nodup_lastRulings order), h.get?_judged]
  rfl

theorem WellFormed.cooldownsLeft (h : p.WellFormed) (order : WalkOrder) :
    (p.cooldownsLeft order).Distinct :=
  ((h.judged order).ruleAll _).cooldowns

theorem WellFormed.expiry?_cooldownsLeft (h : p.WellFormed) (order : WalkOrder) (s : Signature) :
    (p.cooldownsLeft order).expiry? s = (p.settledAs order s).extend p.environment.now
      ((p.judgedAs s).extend p.environment.now (p.cooldowns.expiry? s)) := by
  rw [Pipeline.cooldownsLeft, expiry?_ruleAll (h.nodup_lastRulings order), environment_judged,
    Pipeline.judged, expiry?_ruleAll (h.nodup_firstRulings order), h.on_firstRulings]
  rfl

theorem cooldowns_of_settles (h : (p.judged order).Settles (p.requestsOf order) p') :
    p'.cooldowns = p.cooldownsLeft order := by
  rw [h.ruled, config_judged]
  rfl

/-- The cool-down of `s` when the cycle is over, unless it has ended and is dropped. -/
theorem WellFormed.expiry?_cycle (h : p.WellFormed) (order : WalkOrder) (s : Signature) :
    let expiry := (p.settledAs order s).extend p.environment.now
      ((p.judgedAs s).extend p.environment.now (p.cooldowns.expiry? s))
    (p.cycle order).2.cooldowns.expiry? s = expiry ∨
      (p.cycle order).2.cooldowns.expiry? s = expiry.filter fun e => decide (p.environment.now ≤ e) := by
  intro expiry
  obtain ⟨p', hp'⟩ := p.exists_imported order
  have hcooldowns := cooldowns_of_settles hp'.settles
  have hexpiry : (p.cooldownsLeft order).expiry? s = expiry := h.expiry?_cooldownsLeft order s
  have hnow : p'.environment.now = p.environment.now := by
    rw [← environment_cycle_of_imported hp', now_cycle]
  rcases hp'.ends with heq | heq
  · -- stopped in the batch, so nothing is cleaned up
    exact Or.inl (by rw [heq, hcooldowns, hexpiry])
  · refine Or.inr ?_
    rw [heq, purged, hcooldowns, (h.cooldownsLeft order).expiry?_purge, hexpiry, hnow]

theorem WellFormed.cycle (h : p.WellFormed) (order : WalkOrder) : (p.cycle order).2.WellFormed := by
  obtain ⟨p', hp'⟩ := p.exists_imported order
  have hp'wf : p'.WellFormed := by
    rw [hp'.settles.ruled]
    exact ⟨((h.judged order).ruleAll _).queue, ((h.judged order).ruleAll _).cooldowns⟩
  rcases hp'.ends with heq | heq
  · rw [heq]
    exact hp'wf
  · rw [heq]
    exact ⟨hp'wf.queue, hp'wf.cooldowns.purge _⟩

/-- A request is made for a candidate that was queued and is tagged when the judging is over. -/
theorem WellFormed.get?_of_mem_requestsOf (h : p.WellFormed) (hq : q ∈ p.requestsOf order) :
    ∃ c d, p.queue.get? q.transaction.signature = some c ∧ c.transaction = q.transaction ∧
      (p.judgedAs q.transaction.signature).leave c = some d ∧ d.isValid = true := by
  obtain ⟨p', hp'⟩ := p.exists_imported order
  have hmem := hp'.asked.subset (List.mem_map_of_mem hq)
  obtain ⟨d, hd, hvalid, htx⟩ := Queue.mem_walkValidated.mp hmem
  have hget : (p.judged order).queue.get? q.transaction.signature = some d :=
    (h.judged order).queue.get?_eq_some_iff.mpr ⟨hd, congrArg Transaction.signature htx⟩
  rw [h.get?_judged] at hget
  obtain ⟨c, hc, hleave⟩ := Option.bind_eq_some_iff.mp hget
  exact ⟨c, d, hc, (transaction_of_leave hleave).symm.trans htx, hleave, hvalid⟩

theorem WellFormed.judgedAs_signature (h : p.WellFormed) (hc : c ∈ p.queue.candidates)
    (hgo : p.stopRequested = false) : p.judgedAs c.signature = p.judgement c := by
  rw [judgedAs, hgo, h.queue.get?_signature hc]
  rfl

theorem stopRequested_of_mem_requestsOf (hq : q ∈ p.requestsOf order) : p.stopRequested = false := by
  cases h : p.stopRequested with
  | false => rfl
  | true =>
    rw [requestsOf_of_stopRequested order h] at hq
    cases hq

theorem WellFormed.settledAs_of_mem (h : p.WellFormed) (hq : q ∈ p.requestsOf order) :
    p.settledAs order q.transaction.signature = q.ruling p.config :=
  Ruling.on_of_mem (h.nodup_lastRulings order) (List.mem_map.mpr ⟨q, hq, rfl⟩)

theorem settledAs_of_forall_ne (hs : ∀ q ∈ p.requestsOf order, q.transaction.signature ≠ s) :
    p.settledAs order s = .keep := by
  apply Ruling.on_of_notMem
  rw [map_fst_lastRulings]
  intro hmem
  obtain ⟨q, hq, heq⟩ := List.mem_map.mp hmem
  exact hs q hq heq

theorem WellFormed.settledAs_cases (h : p.WellFormed) (order : WalkOrder) (s : Signature) :
    p.settledAs order s = .keep ∨ ∃ q ∈ p.requestsOf order, q.transaction.signature = s ∧
      p.settledAs order s = q.ruling p.config := by
  by_cases hasked : ∃ q ∈ p.requestsOf order, q.transaction.signature = s
  · obtain ⟨q, hq, rfl⟩ := hasked
    exact Or.inr ⟨q, hq, rfl, h.settledAs_of_mem hq⟩
  · exact Or.inl (settledAs_of_forall_ne fun q hq hs => hasked ⟨q, hq, hs⟩)

/-- No request is made for what the judging phase has not left. -/
theorem WellFormed.settledAs_of_left_none (h : p.WellFormed)
    (hleft : (p.queue.get? s).bind (p.judgedAs s).leave = none) : p.settledAs order s = .keep := by
  apply settledAs_of_forall_ne
  intro q hq hs
  obtain ⟨c, d, hc, -, hd, -⟩ := h.get?_of_mem_requestsOf hq
  rw [hs] at hc hd
  rw [hc, Option.bind_some, hd] at hleft
  cases hleft

theorem WellFormed.eq_of_settled (h : p.WellFormed) (hd : (p.settledAs order s).leave c = some d) :
    d = c := by
  rcases h.settledAs_cases order s with hkeep | ⟨q, -, -, hsettled⟩
  · rw [hkeep] at hd
    cases hd
    rfl
  · rw [hsettled, SaveRequest.ruling] at hd
    cases hanswer : q.answer with
    | error e =>
      rw [hanswer] at hd
      cases hd
      rfl
    | ok result =>
      rw [hanswer] at hd
      cases result with
      | lockUnavailable => cases hd; rfl
      | saved => cases hd
      | alreadyExists => cases hd
      | invalid reason => cases hd

/-- Who is queued after a cycle was queued before it, and is what the judging phase has left. -/
theorem WellFormed.exists_of_get?_cycle (h : p.WellFormed)
    (hd : (p.cycle order).2.queue.get? s = some d) :
    ∃ c, p.queue.get? s = some c ∧ (p.judgedAs s).leave c = some d ∧
      (p.settledAs order s).leave d = some d := by
  rw [h.get?_cycle] at hd
  obtain ⟨c', hc', hsettled⟩ := Option.bind_eq_some_iff.mp hd
  obtain ⟨c, hc, hjudged⟩ := Option.bind_eq_some_iff.mp hc'
  have hsame := h.eq_of_settled hsettled
  rw [← hsame] at hjudged hsettled
  exact ⟨c, hc, hjudged, hsettled⟩

theorem WellFormed.size_cycle (h : p.WellFormed) (order : WalkOrder) :
    (p.cycle order).2.queue.size + (p.cycle order).1.departed = p.queue.size := by
  obtain ⟨p', hp'⟩ := p.exists_imported order
  have hfirst : (p.judged order).queue.size + (p.firstRulings order).countP (·.2.removes) =
      p.queue.size := by
    apply h.size_ruleAll (h.nodup_firstRulings order)
    intro x hx
    unfold firstRulings at hx
    split at hx
    · cases hx
    · exact contains_of_mem_judgements hx
  -- each request is for a candidate that the judging phase has left
  have hlast : ((p.judged order).ruleAll (p.lastRulings order)).queue.size +
      (p.lastRulings order).countP (·.2.removes) = (p.judged order).queue.size := by
    apply (h.judged order).size_ruleAll (h.nodup_lastRulings order)
    intro x hx
    obtain ⟨q, hq, rfl⟩ := List.mem_map.mp hx
    obtain ⟨c, d, hc, -, hleave, -⟩ := h.get?_of_mem_requestsOf hq
    show (p.judged order).queue.contains q.transaction.signature = true
    rw [Queue.contains, h.get?_judged, hc, Option.bind_some, hleave]
    rfl
  rw [queue_cycle_of_imported hp', hp'.departed]
  omega

theorem WellFormed.contains_of_contains_cycle (h : p.WellFormed)
    (hs : (p.cycle order).2.queue.contains s = true) : p.queue.contains s = true := by
  obtain ⟨d, hd⟩ := Option.isSome_iff_exists.mp hs
  obtain ⟨c, hc, -, -⟩ := h.exists_of_get?_cycle hd
  rw [Queue.contains, hc, Option.isSome_some]

end ChainNode.Admission.Pipeline
