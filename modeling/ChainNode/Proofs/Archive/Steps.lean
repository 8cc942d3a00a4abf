import ChainNode.Archive.Error

/-!
# Steps that may fail

Decoding a record and reading a segment are both made of steps that pass a state on or fail. A sequence
of steps succeeds as its parts do, one after the other.
-/

namespace ChainNode.Archive

variable {σ ε α β : Type} {m : StateT σ (Except ε) α} {f : α → StateT σ (Except ε) β}
  {d : StateT σ (Except ε) α} {s t : σ} {x : α} {y : β} {e : ε}

theorem bind_of_ok (h : m s = .ok (x, t)) : (m >>= f) s = f x t := by
  show (m s >>= fun p => f p.1 p.2) = f x t
  rw [h]
  rfl

theorem bind_of_error (h : m s = .error e) : (m >>= f) s = .error e := by
  show (m s >>= fun p => f p.1 p.2) = .error e
  rw [h]
  rfl

theorem bind_eq_ok_iff :
    (m >>= f) s = .ok (y, t) ↔ ∃ x r, m s = .ok (x, r) ∧ f x r = .ok (y, t) := by
  constructor
  · intro h
    cases hm : m s with
    | error e =>
      rw [bind_of_error hm] at h
      cases h
    | ok p =>
      rw [bind_of_ok hm] at h
      exact ⟨p.1, p.2, rfl, h⟩
  · rintro ⟨x, r, hm, hf⟩
    rw [bind_of_ok hm, hf]

theorem pure_eq_ok_iff {x' : α} :
    (pure x : StateT σ (Except ε) α) s = .ok (x', t) ↔ x = x' ∧ s = t := by
  show (Except.ok (x, s) : Except ε (α × σ)) = .ok (x', t) ↔ _
  rw [Except.ok.injEq, Prod.mk.injEq]

/-- A step behind a check that throws when `c` holds. -/
theorem guard_eq_ok_iff {c : Prop} [Decidable c] :
    (if c then (throw e : StateT σ (Except ε) Unit) >>= fun _ => d else d) s = .ok (x, t) ↔
      ¬ c ∧ d s = .ok (x, t) := by
  by_cases hc : c
  · rw [if_pos hc, bind_of_error (rfl : (throw e : StateT σ (Except ε) Unit) s = .error e)]
    exact ⟨nofun, fun h => absurd hc h.1⟩
  · rw [if_neg hc]
    exact ⟨fun h => ⟨hc, h⟩, fun h => h.2⟩

theorem guard_of_pos {c : Prop} [Decidable c] (hc : c) :
    (if c then (throw e : StateT σ (Except ε) Unit) >>= fun _ => d else d) s = .error e := by
  rw [if_pos hc]
  rfl

theorem run'_eq_ok_iff : m.run' s = .ok x ↔ ∃ t, m s = .ok (x, t) := by
  show (Prod.fst <$> m s) = .ok x ↔ _
  cases hm : m s with
  | error e => exact ⟨nofun, nofun⟩
  | ok p =>
    show (Except.ok p.1 : Except ε α) = .ok x ↔ _
    rw [Except.ok.injEq]
    exact ⟨fun h => ⟨p.2, by rw [← h]⟩, fun ⟨t, h⟩ => by cases h; rfl⟩

theorem run'_of_error (h : m s = .error e) : m.run' s = .error e := by
  show (Prod.fst <$> m s) = .error e
  rw [h]
  rfl

end ChainNode.Archive
