import ChainNode.Proofs.Admission.Run

/-!
# Screening signatures

Before a transaction is fetched, its signature is looked up in the queue, among the cool-downs and in the
repository, in this order. What none of them knows is what a submission takes in. The repository is asked about
nothing that the first two know, so only what is new to them can run into its failure.
-/

namespace ChainNode.Admission.Pipeline

/-- Neither queued nor cooling down. -/
def isFresh (p : Pipeline) (s : Signature) : Bool := !p.queue.contains s && !p.isCoolingDown s

variable {p : Pipeline} {s : Signature} {tx : Transaction} {txs : List Transaction}
  {signatures unknown : List Signature}

theorem isFresh_iff : p.isFresh s = true ↔ p.queue.contains s = false ∧ p.isCoolingDown s = false := by
  rw [isFresh, Bool.and_eq_true, Bool.not_eq_true', Bool.not_eq_true']

theorem isFresh_eq_false_iff :
    p.isFresh s = false ↔ p.queue.contains s = true ∨ p.isCoolingDown s = true := by
  rw [isFresh, Bool.and_eq_false_iff, Bool.not_eq_false', Bool.not_eq_false']

/-! ## What is found unknown -/

theorem unknownSignatures_cons_of_fresh (h : p.isFresh s = true) :
    p.unknownSignatures (s :: signatures) = do
      let known ← p.environment.repository.exists? s
      let unknown ← p.unknownSignatures signatures
      return if known then unknown else s :: unknown := by
  obtain ⟨hqueue, hcool⟩ := isFresh_iff.mp h
  rw [unknownSignatures, hqueue, hcool, Bool.or_false, if_neg Bool.false_ne_true]

theorem unknownSignatures_cons_of_not_fresh (h : p.isFresh s = false) :
    p.unknownSignatures (s :: signatures) = p.unknownSignatures signatures := by
  have hknown : (p.queue.contains s || p.isCoolingDown s) = true := by
    rw [Bool.or_eq_true]
    exact isFresh_eq_false_iff.mp h
  rw [unknownSignatures, if_pos hknown]

theorem unknownSignatures_of_available (h : p.environment.repository.failing = false)
    (signatures : List Signature) :
    p.unknownSignatures signatures =
      .ok (signatures.filter fun s => p.isFresh s && !p.environment.repository.contains s) := by
  induction signatures with
  | nil => rfl
  | cons s signatures ih =>
    cases hfresh : p.isFresh s with
    | true =>
      have hexists : p.environment.repository.exists? s =
          .ok (p.environment.repository.contains s) := by
        rw [Repository.exists?, h, if_neg Bool.false_ne_true]
      rw [unknownSignatures_cons_of_fresh hfresh, hexists, ih, List.filter_cons, hfresh, Bool.true_and]
      cases p.environment.repository.contains s <;> rfl
    | false =>
      rw [unknownSignatures_cons_of_not_fresh hfresh, ih, List.filter_cons, hfresh, Bool.false_and,
        if_neg Bool.false_ne_true]

/-- The first fresh signature ends it. -/
theorem unknownSignatures_of_failing (h : p.environment.repository.failing = true)
    (signatures : List Signature) :
    p.unknownSignatures signatures =
      if signatures.any p.isFresh then .error Repository.offline else .ok [] := by
  induction signatures with
  | nil => rfl
  | cons s signatures ih =>
    cases hfresh : p.isFresh s with
    | true =>
      have hexists : p.environment.repository.exists? s = .error Repository.offline := by
        rw [Repository.exists?, if_pos h]
      rw [unknownSignatures_cons_of_fresh hfresh, hexists, List.any_cons, hfresh, Bool.true_or, if_pos rfl]
      rfl
    | false =>
      rw [unknownSignatures_cons_of_not_fresh hfresh, ih, List.any_cons, hfresh, Bool.false_or]

theorem isFresh_of_mem_unknown (h : p.unknownSignatures signatures = .ok unknown) (hs : s ∈ unknown) :
    p.isFresh s = true := by
  cases hfailing : p.environment.repository.failing with
  | false =>
    rw [unknownSignatures_of_available hfailing, Except.ok.injEq] at h
    rw [← h, List.mem_filter, Bool.and_eq_true] at hs
    exact hs.2.1
  | true =>
    -- a failing repository leaves nothing to be found, or an error
    rw [unknownSignatures_of_failing hfailing] at h
    split at h
    · cases h
    · cases h
      cases hs

/-! ## What is taken in -/

theorem fst_submit_eq_queued_iff : (p.submit tx).1 = .queued ↔ p.isFresh tx.signature = true := by
  rcases p.submit_cases tx with ⟨ha, hcool, -⟩ | ⟨ha, -, hin, -⟩ | ⟨ha, hcool, hnew, -⟩
  · rw [ha, isFresh, hcool, Bool.not_true, Bool.and_false]
    exact ⟨nofun, nofun⟩
  · rw [ha, isFresh, hin, Bool.not_true, Bool.false_and]
    exact ⟨nofun, nofun⟩
  · rw [ha, isFresh_iff]
    exact ⟨fun _ => ⟨hnew, hcool⟩, fun _ => rfl⟩

theorem isFresh_submit_of_ne (h : s ≠ tx.signature) : (p.submit tx).2.isFresh s = p.isFresh s := by
  rw [isFresh, isFresh, isCoolingDown, isCoolingDown, cooldowns_submit, environment_submit, Queue.contains,
    get?_submit, if_neg fun hq => h hq.2, Queue.contains]

/-- One after the other, since none stands in the way of another one. -/
theorem answers_submit_of_fresh (hfresh : ∀ tx ∈ txs, p.isFresh tx.signature = true)
    (hdistinct : (txs.map (·.signature)).Nodup) :
    p.answers (txs.map .submit) = txs.map fun _ => .outcome .queued := by
  induction txs generalizing p with
  | nil => rfl
  | cons tx txs ih =>
    rw [List.map_cons, List.nodup_cons] at hdistinct
    have hqueued := fst_submit_eq_queued_iff.mpr (hfresh tx List.mem_cons_self)
    have hrest : ∀ u ∈ txs, (p.submit tx).2.isFresh u.signature = true := by
      intro u hu
      have hne : u.signature ≠ tx.signature := fun h =>
        hdistinct.1 (List.mem_map.mpr ⟨u, hu, h⟩)
      rw [isFresh_submit_of_ne hne]
      exact hfresh u (List.mem_cons_of_mem tx hu)
    show Answer.outcome (p.submit tx).1 :: (p.submit tx).2.answers (txs.map .submit) = _
    rw [hqueued, ih hrest hdistinct.2, List.map_cons]

/-- Screening picks out, in order and as often as they are listed, the signatures that are not queued, not
cooling down and not stored. It fails only with the repository, and only if a signature is listed that neither
the queue nor the cool-downs know; it changes nothing. What it picks out, a submission takes in, also one after
the other; and what a submission takes in, it picks out, unless it is stored. -/
theorem screening_admits (config : Config) (now : UInt64) (tip : Option ChainTip) (es : List Event)
    (signatures : List Signature) :
    let p := (start config now tip).run es
    let repository := p.environment.repository
    (repository.failing = false → p.unknownSignatures signatures = .ok (signatures.filter fun s =>
      !p.queue.contains s && !p.isCoolingDown s && !repository.contains s)) ∧
    (repository.failing = true →
      (p.unknownSignatures signatures = .error Repository.offline ↔
        ∃ s ∈ signatures, p.queue.contains s = false ∧ p.isCoolingDown s = false) ∧
      ((∀ s ∈ signatures, p.queue.contains s = true ∨ p.isCoolingDown s = true) →
        p.unknownSignatures signatures = .ok [])) ∧
    p.step (.ask (.unknownSignatures signatures)) = (.signatures (p.unknownSignatures signatures), p) ∧
    (∀ unknown, p.unknownSignatures signatures = .ok unknown →
      (∀ tx, tx.signature ∈ unknown → (p.submit tx).1 = .queued) ∧
      ∀ txs : List Transaction, (∀ tx ∈ txs, tx.signature ∈ unknown) →
        (txs.map (·.signature)).Nodup →
        p.answers (txs.map .submit) = txs.map fun _ => .outcome .queued) ∧
    (repository.failing = false → ∀ tx, (p.submit tx).1 = .queued →
      p.unknownSignatures [tx.signature] = .ok [tx.signature] ∨
        repository.contains tx.signature = true) := by
  intro p repository
  refine ⟨fun h => p.unknownSignatures_of_available h signatures, ?_, rfl, ?_, ?_⟩
  · intro hfailing
    rw [unknownSignatures_of_failing hfailing]
    constructor
    · -- the first fresh one ends it, wherever it stands
      have hany : signatures.any p.isFresh = true ↔
          ∃ s ∈ signatures, p.queue.contains s = false ∧ p.isCoolingDown s = false := by
        simp only [List.any_eq_true, isFresh_iff]
      rw [← hany]
      split
      · rename_i hfresh
        exact ⟨fun _ => hfresh, fun _ => rfl⟩
      · rename_i hnone
        exact ⟨nofun, fun hfresh => absurd hfresh hnone⟩
    · intro hall
      apply if_neg
      rw [List.any_eq_true]
      rintro ⟨s, hs, hfresh⟩
      rw [isFresh_eq_false_iff.mpr (hall s hs)] at hfresh
      cases hfresh
  · intro unknown hunknown
    constructor
    · intro tx htx
      exact fst_submit_eq_queued_iff.mpr (isFresh_of_mem_unknown hunknown htx)
    · intro txs htxs hdistinct
      exact answers_submit_of_fresh (fun tx htx => isFresh_of_mem_unknown hunknown (htxs tx htx)) hdistinct
  · intro havailable tx hqueued
    have hfresh := fst_submit_eq_queued_iff.mp hqueued
    cases hstored : repository.contains tx.signature with
    | true => exact Or.inr rfl
    | false =>
      apply Or.inl
      rw [unknownSignatures_of_available havailable, List.filter_singleton, hfresh, hstored]
      rfl

/-- The signatures of one that has expired, one that is queued, one that is stored and two that are unknown,
first with the repository available, then without it. -/
theorem screening_admits_assortment :
    let es : List Event := [.submit (sample 1), .cycle {}, .submit (sample 2),
      .change (.insertStored (sample 3))]
    let p := (start { liteMode := true } 1000 (some ⟨1, 86401000⟩)).run es
    let q := (start { liteMode := true } 1000 (some ⟨1, 86401000⟩)).run
      (es ++ [.change (.setRepositoryFailing true)])
    let listed := [2, 4, 1, 5, 3, 4].map fun n => (sample n).signature
    p.unknownSignatures listed = .ok ([4, 5, 4].map fun n => (sample n).signature) ∧
    (p.submit (sample 4)).1 = .queued ∧
    p.answers [.submit (sample 5), .submit (sample 4)] = [.outcome .queued, .outcome .queued] ∧
    p.unknownSignatures [(sample 5).signature] = .ok [(sample 5).signature] ∧
    q.unknownSignatures listed = .error Repository.offline ∧
    q.unknownSignatures [(sample 2).signature, (sample 1).signature] = .ok [] := by
  intro es p q listed
  obtain ⟨havailable, -, -, hadmitted, hqueued⟩ :=
    screening_admits { liteMode := true } 1000 (some ⟨1, 86401000⟩) es listed
  obtain ⟨-, hfailing, -⟩ := screening_admits { liteMode := true } 1000 (some ⟨1, 86401000⟩)
    (es ++ [.change (.setRepositoryFailing true)]) listed
  obtain ⟨-, hknown, -⟩ := screening_admits { liteMode := true } 1000 (some ⟨1, 86401000⟩)
    (es ++ [.change (.setRepositoryFailing true)]) [(sample 2).signature, (sample 1).signature]
  have hunknown : p.unknownSignatures listed = .ok ([4, 5, 4].map fun n => (sample n).signature) :=
    (havailable (by decide)).trans (congrArg Except.ok (by decide))
  -- 1 has expired, 2 is queued and 3 is stored
  obtain ⟨hone, hmany⟩ := hadmitted _ hunknown
  have hsingle := hqueued (by decide) (sample 5) (hone (sample 5) (by decide))
  refine ⟨hunknown, hone (sample 4) (by decide), ?_, hsingle.resolve_right (by decide),
    (hfailing (by decide)).1.mpr ⟨(sample 4).signature, by decide, by decide, by decide⟩,
    (hknown (by decide)).2 (by decide)⟩
  exact hmany [sample 5, sample 4] (by decide) (by decide)

end ChainNode.Admission.Pipeline
