import ChainNode.Proofs.Admission.Run
import ChainNode.Proofs.Admission.Surroundings

/-!
# Announcements

A cycle announces what it has added to the repository, in one message and in the same order, so the
messages of a run whose broadcaster always works add up to all that the run has stored. Nothing else
depends on the broadcaster.
-/

namespace ChainNode.Admission

namespace Pipeline

/-- What the cycle adds to the repository. -/
def storesOf (p : Pipeline) (order : WalkOrder) : List Transaction :=
  (p.cycle order).2.environment.repository.stored.drop p.environment.repository.stored.length

/-- What the pipeline adds to the repository in this step. -/
def storesIn (p : Pipeline) : Event → List Transaction
  | .cycle order => p.storesOf order
  | _ => []

/-- All that the pipeline adds to the repository in a run, in order. -/
def stores (p : Pipeline) : List Event → List Transaction
  | [] => []
  | e :: es => p.storesIn e ++ (p.step e).2.stores es

/-- If this step is a cycle, its broadcaster works. -/
def heard (p : Pipeline) : Event → Bool
  | .cycle _ => !p.environment.broadcaster.failing
  | _ => true

variable {p : Pipeline} {order : WalkOrder} {e : Event} {es : List Event}

/-! ## What a cycle announces -/

theorem storesOf_eq (p : Pipeline) (order : WalkOrder) :
    p.storesOf order = savedAmong (p.requestsOf order) := by
  rw [storesOf, stored_cycle, List.drop_left]

theorem stored_cycle_eq (p : Pipeline) (order : WalkOrder) :
    (p.cycle order).2.environment.repository.stored =
      p.environment.repository.stored ++ p.storesOf order := by
  rw [stored_cycle, storesOf_eq]

theorem WellFormed.nodup_storesOf (h : p.WellFormed) (order : WalkOrder) :
    ((p.storesOf order).map (·.signature)).Nodup := by
  rw [storesOf_eq, savedAmong, List.map_map]
  exact (h.nodup_requestsOf order).sublist (List.filter_sublist.map _)

theorem messages_announce (b : Broadcaster) (lockHeld : Bool) (signatures : List Signature) :
    (b.announce lockHeld signatures).2.messages =
      b.messages ++ if b.failing then [] else [signatures] := by
  obtain ⟨messages, failing, observing, observed⟩ := b
  unfold Broadcaster.announce
  cases failing with
  | false => cases observing <;> rfl
  | true =>
    show _ = messages ++ []
    rw [List.append_nil]
    cases observing <;> rfl

theorem messages_told (b : Broadcaster) (signatures : List Signature) :
    (b.told signatures).messages =
      b.messages ++ if signatures.isEmpty || b.failing then [] else [signatures] := by
  unfold Broadcaster.told
  cases signatures with
  | nil => exact (List.append_nil _).symm
  | cons s signatures => exact messages_announce b false (s :: signatures)

theorem messages_cycle (p : Pipeline) (order : WalkOrder) :
    (p.cycle order).2.environment.broadcaster.messages = p.environment.broadcaster.messages ++
      if (p.storesOf order).isEmpty || p.environment.broadcaster.failing then []
      else [(p.storesOf order).map (·.signature)] := by
  rw [broadcaster_cycle, messages_told, ← storesOf_eq, List.isEmpty_map]

/-! ## What a run announces -/

theorem flatten_messages_step (h : p.heard e = true) :
    (p.step e).2.environment.broadcaster.messages.flatten =
      p.environment.broadcaster.messages.flatten ++ (p.storesIn e).map (·.signature) := by
  have hsilent : p.environment.broadcaster.messages.flatten =
      p.environment.broadcaster.messages.flatten ++ ([] : List Transaction).map (·.signature) :=
    (List.append_nil _).symm
  cases e with
  | submit tx =>
    show (p.submit tx).2.environment.broadcaster.messages.flatten = _
    rw [environment_submit]
    exact hsilent
  | cycle order =>
    have hworks : p.environment.broadcaster.failing = false := Bool.not_eq_true' _ |>.mp h
    show (p.cycle order).2.environment.broadcaster.messages.flatten =
      _ ++ (p.storesOf order).map (·.signature)
    rw [messages_cycle, hworks, Bool.or_false, List.flatten_append]
    congr 1
    -- a cycle that stores nothing sends no message, not an empty one
    cases p.storesOf order with
    | nil => rfl
    | cons tx txs => exact List.append_nil _
  | requestStop => exact hsilent
  | ask question => exact hsilent
  | change change => cases change <;> exact hsilent

theorem flatten_messages_run (h : runsUnder heard p es = true) :
    (p.run es).environment.broadcaster.messages.flatten =
      p.environment.broadcaster.messages.flatten ++ (p.stores es).map (·.signature) := by
  induction es generalizing p with
  | nil => exact (List.append_nil _).symm
  | cons e es ih =>
    obtain ⟨hhead, htail⟩ := runsUnder_cons.mp h
    have hrest := ih htail
    rw [flatten_messages_step hhead, List.append_assoc, ← List.map_append] at hrest
    exact hrest

/-! ## Nobody else hears the broadcaster -/

/-- The same pipeline, with this broadcaster. -/
def withBroadcaster (p : Pipeline) (b : Broadcaster) : Pipeline :=
  { p with environment.broadcaster := b }

end Pipeline

namespace Cycle

def withBroadcaster (c : Cycle) (b : Broadcaster) : Cycle :=
  { c with pipeline := c.pipeline.withBroadcaster b }

theorem carryOut_withBroadcaster (c : Cycle) (b : Broadcaster) (s : Signature) (v : Verdict) :
    (c.withBroadcaster b).carryOut s v = (c.carryOut s v).withBroadcaster b := by
  cases v <;> rfl

theorem judge_withBroadcaster (order : WalkOrder) (c : Cycle) (b : Broadcaster) :
    (c.withBroadcaster b).judge order = (c.judge order).withBroadcaster b := by
  have hread : (c.withBroadcaster b).pipeline.environment.chain.currentTip =
      c.pipeline.environment.chain.currentTip := rfl
  cases htip : c.pipeline.environment.chain.currentTip with
  | error e => rw [judge, judge, hread, htip]
  | ok tip =>
    rw [judge_eq order _ (hread.trans htip), judge_eq order c htip]
    exact List.foldl_hom (fun c : Cycle => c.withBroadcaster b)
      fun c d => carryOut_withBroadcaster c b _ _

theorem follow_withBroadcaster (c : Cycle) (o : Course) (b b' : Broadcaster) :
    (c.withBroadcaster b).follow (o.withBroadcaster b') = (c.follow o).withBroadcaster b' := by
  let before : Environment := { c.pipeline.environment with broadcaster := b }
  let after : Environment := { o.environment with broadcaster := b' }
  let rulings := o.requests.map (·.ruled c.pipeline.config)
  have hnow : before.now = c.pipeline.environment.now := rfl
  have hruled : (c.pipeline.withBroadcaster b).ruleAll rulings =
      (c.pipeline.ruleAll rulings).within before c.pipeline.stopRequested :=
    Pipeline.ruleAll_within hnow rulings
  -- nothing is left of the surroundings in which the course began
  have hpipeline : ((c.pipeline.withBroadcaster b).ruleAll rulings).within after o.stopRequested =
      (c.pipeline.ruleAll rulings).within after o.stopRequested := by
    rw [hruled]
    rfl
  exact congrArg (Cycle.mk · (c.follow o).report) hpipeline

/-- Only the announcement reaches the broadcaster. -/
theorem exists_importTagged_withBroadcaster (order : WalkOrder) (c : Cycle) (b : Broadcaster) :
    ∃ b', (c.withBroadcaster b).importTagged order =
      (c.importTagged order).map (·.withBroadcaster b') id := by
  have halike : (c.withBroadcaster b).Alike c := ⟨rfl, rfl⟩
  have hcourse : (c.withBroadcaster b).course order = (c.course order).withBroadcaster _ :=
    halike.course_withBroadcaster rfl rfl
  refine ⟨((c.withBroadcaster b).course order).environment.broadcaster,
    Prod.ext ?_ (halike.importTagged rfl).2⟩
  rw [importTagged_eq_follow, hcourse, follow_withBroadcaster, ← importTagged_eq_follow]
  rfl

end Cycle

namespace Pipeline

/-- Who is told, and whether anybody hears it, decides nothing but what is announced. -/
theorem exists_cycle_withBroadcaster (p : Pipeline) (order : WalkOrder) (b : Broadcaster) :
    ∃ b', (p.withBroadcaster b).cycle order =
      (p.cycle order).map id (·.withBroadcaster b') := by
  cases h : p.stopRequested with
  | true =>
    have h' : (p.withBroadcaster b).stopRequested = true := h
    rw [cycle_of_stopRequested order h, cycle_of_stopRequested order h']
    exact ⟨b, rfl⟩
  | false =>
    have h' : (p.withBroadcaster b).stopRequested = false := h
    have hopened : (p.withBroadcaster b).opened order = (p.opened order).withBroadcaster b :=
      congrArg Cycle.countPending (Cycle.judge_withBroadcaster order ⟨p, {}⟩ b)
    obtain ⟨b', hb'⟩ := (p.opened order).exists_importTagged_withBroadcaster order b
    rw [cycle_eq_cleanUp order h, cycle_eq_cleanUp order h', hopened, hb']
    refine ⟨b', ?_⟩
    show (if ((p.opened order).importTagged order).2 = some .stopped then _ else _) = _
    split <;> rfl

/-! ## Announcements are the imports -/

/-- Every cycle announces exactly what it stores, once and in order, if it stores anything and the
broadcaster works. So the messages of a run whose broadcaster works add up to all that was stored, and
a broadcaster that fails changes nothing but them. -/
theorem announcements_are_imports (config : Config) (now : UInt64) (tip : Option ChainTip)
    (es : List Event) :
    let p := (start config now tip).run es
    (∀ order,
      let signatures := (p.storesOf order).map (·.signature)
      (p.cycle order).2.environment.repository.stored =
          p.environment.repository.stored ++ p.storesOf order ∧
        signatures.Nodup ∧ signatures.length = (p.cycle order).1.imported ∧
        (p.cycle order).2.environment.broadcaster.messages =
          p.environment.broadcaster.messages ++
            if signatures.isEmpty || p.environment.broadcaster.failing then [] else [signatures]) ∧
    (runsUnder heard (start config now tip) es = true →
      p.environment.broadcaster.messages.flatten =
        ((start config now tip).stores es).map (·.signature)) ∧
    ∀ order failing,
      let other := (p.step (.change (.setBroadcasterFailing failing))).2
      (other.cycle order).1 = (p.cycle order).1 ∧
        (other.cycle order).2 =
          (p.cycle order).2.withBroadcaster (other.cycle order).2.environment.broadcaster := by
  intro p
  have hp : p.WellFormed := (wellFormed_start config now tip).run es
  refine ⟨?_, ?_, ?_⟩
  · intro order signatures
    refine ⟨p.stored_cycle_eq order, hp.nodup_storesOf order, ?_, ?_⟩
    · rw [hp.imported_cycle order, ← storesOf_eq, List.length_map]
    · rw [messages_cycle, List.isEmpty_map]
  · intro hheard
    exact flatten_messages_run hheard
  · intro order failing other
    obtain ⟨b, hb⟩ := p.exists_cycle_withBroadcaster order
      { p.environment.broadcaster with failing }
    change other.cycle order = _ at hb
    rw [hb]
    exact ⟨rfl, rfl⟩

/-- The repository fails after the first of two payments. Either is announced by the cycle that stored
it. -/
def instalments : List Event :=
  [.submit (sample 1), .submit (sample 2), .change (.failAfterSaves 1), .cycle {},
    .change (.failAfterSaves 1), .cycle {}]

theorem announcements_are_imports_instalments :
    let p := start { liteMode := true } 2000 (some ⟨100, 2000⟩)
    runsUnder heard p instalments = true ∧
      (p.run instalments).environment.broadcaster.messages =
        [[(sample 1).signature], [(sample 2).signature]] ∧
      (p.run instalments).environment.broadcaster.messages.flatten =
        (p.stores instalments).map (·.signature) := by
  refine ⟨by decide, by decide, ?_⟩
  exact (announcements_are_imports _ _ _ _).2.1 (by decide)

end Pipeline
end ChainNode.Admission
