import ChainNode.Json.Parser
import ChainNode.Json.Text
import ChainNode.Proofs.Numeral
import Mathlib.Data.List.TakeDrop
import Mathlib.Tactic.IntervalCases

/-!
# Reading what is written

The text of a value reads back as the value, however deep and however long it is, as long as its numbers are
unsigned integers and its strings need no escapes. What makes the reading go through in the midst of a text is
that a comma or a closing bracket stands behind each value, so that no number is read too far.
-/

namespace ChainNode.Json

/-- Text that may stand between quotes as it is. -/
def PlainText (cs : List Char) : Prop := ∀ c ∈ cs, c ≠ '"' ∧ c ≠ '\\' ∧ 0x20 ≤ c.toNat

-- character by character of the list, not over all characters that there are
instance (cs : List Char) : Decidable (PlainText cs) :=
  List.decidableBAll (fun c => c ≠ '"' ∧ c ≠ '\\' ∧ 0x20 ≤ c.toNat) cs

/-- No number has a sign, a fraction, an exponent or leading zeros, and no string an escape. -/
inductive Value.Plain : Value → Prop
  | null : Plain .null
  | bool (value : Bool) : Plain (.bool value)
  | number (n : Nat) : Plain (.ofNat n)
  | string {raw : List Char} (text : PlainText raw) : Plain (.string raw)
  | array {items : List Value} (each : ∀ v ∈ items, Plain v) : Plain (.array items)
  | object {members : List (List Char × Value)} (names : ∀ m ∈ members, PlainText m.1)
      (each : ∀ m ∈ members, Plain m.2) : Plain (.object members)

/-- What may stand behind a value. -/
def Ends (cs : List Char) : Prop := cs = [] ∨ ∃ c rest, cs = c :: rest ∧ (c = ',' ∨ c = ']' ∨ c = '}')

/-- The value reads back from its text, whatever stands behind, with as much fuel as the text is long. -/
def ReadsBack (v : Value) : Prop :=
  ∀ fuel rest, v.render.length ≤ fuel → Ends rest → value? fuel (v.render ++ rest) = some (v, rest)

variable {v : Value} {vs : List Value} {m : List Char × Value} {ms : List (List Char × Value)}
  {cs raw rest : List Char} {c : Char} {n fuel : Nat}

theorem ends_nil : Ends [] := Or.inl rfl

theorem ends_comma (rest : List Char) : Ends (',' :: rest) := Or.inr ⟨_, _, rfl, Or.inl rfl⟩

theorem ends_bracket (rest : List Char) : Ends (']' :: rest) := Or.inr ⟨_, _, rfl, Or.inr (Or.inl rfl)⟩

theorem ends_brace (rest : List Char) : Ends ('}' :: rest) := Or.inr ⟨_, _, rfl, Or.inr (Or.inr rfl)⟩

/-- One unit of fuel is spent on the value itself. -/
theorem readsBack_of_succ (hne : v.render ≠ [])
    (h : ∀ fuel rest, v.render.length ≤ fuel + 1 → Ends rest →
      value? (fuel + 1) (v.render ++ rest) = some (v, rest)) : ReadsBack v := by
  intro fuel rest hfuel hrest
  have hpos := List.length_pos_iff.mpr hne
  obtain ⟨left, rfl⟩ := Nat.exists_eq_add_of_le' (show 1 ≤ fuel by omega)
  exact h left rest hfuel hrest

/-! ## Numbers -/

theorem head_toChars (n : Nat) : ∃ c cs, Numeral.toChars n = c :: cs ∧ c.isDigit = true := by
  cases h : Numeral.toChars n with
  | nil => exact absurd h Nat.toDigits_ne_nil
  | cons c cs =>
    refine ⟨c, cs, rfl, ?_⟩
    have hall := Numeral.all_isDigit_toChars n
    rw [h, List.all_cons, Bool.and_eq_true] at hall
    exact hall.1

/-- Only zero itself begins with a zero. -/
theorem head_toChars_ne_zero (hn : 0 < n) : ∃ c cs, Numeral.toChars n = c :: cs ∧ c ≠ '0' := by
  induction n using Nat.strong_induction_on with
  | _ n ih =>
    rw [Numeral.toChars, Nat.toDigits_eq_if (by decide)]
    by_cases hsmall : n < 10
    · rw [if_pos hsmall]
      refine ⟨n.digitChar, [], rfl, ?_⟩
      interval_cases n <;> decide
    · -- the first digit is that of the number without its last one
      obtain ⟨c, cs, hc, hne⟩ := ih (n / 10) (by omega) (by omega)
      rw [Numeral.toChars] at hc
      rw [if_neg hsmall, hc]
      exact ⟨c, _, rfl, hne⟩

theorem span_digits (hcs : ∀ c ∈ cs, c.isDigit = true) (hrest : Ends rest) :
    (cs ++ rest).span Char.isDigit = (cs, rest) := by
  have hstop : rest.takeWhile Char.isDigit = [] ∧ rest.dropWhile Char.isDigit = rest := by
    rcases hrest with rfl | ⟨c, rest, rfl, rfl | rfl | rfl⟩ <;> exact ⟨rfl, rfl⟩
  rw [List.span_eq_takeWhile_dropWhile, List.takeWhile_append_of_pos hcs, List.dropWhile_append_of_pos hcs,
    hstop.1, hstop.2, List.append_nil]

theorem integerPart?_toChars (n : Nat) (hrest : Ends rest) :
    integerPart? (Numeral.toChars n ++ rest) = some (Numeral.toChars n, rest) := by
  rcases Nat.eq_zero_or_pos n with rfl | hn
  · rfl
  · obtain ⟨c, cs, hc, hne⟩ := head_toChars_ne_zero hn
    have hspan := span_digits (List.all_eq_true.mp (Numeral.all_isDigit_toChars n)) hrest
    rw [hc] at hspan ⊢
    rw [List.cons_append] at hspan ⊢
    rw [integerPart?, digits?, hspan]
    -- a zero in front would stand alone
    exact fun rest h => hne (List.cons.inj h).1

theorem unsigned?_toChars (n : Nat) (hrest : Ends rest) :
    unsigned? (Numeral.toChars n ++ rest) = some (Numeral.toChars n, rest) := by
  have hfraction : fractionPart? rest = some ([], rest) := by
    rcases hrest with rfl | ⟨c, rest, rfl, rfl | rfl | rfl⟩ <;> rfl
  have hexponent : exponentPart? rest = some ([], rest) := by
    rcases hrest with rfl | ⟨c, rest, rfl, rfl | rfl | rfl⟩ <;> rfl
  rw [unsigned?, integerPart?_toChars n hrest]
  simp [hfraction, hexponent]

theorem value?_of_isDigit (fuel : Nat) (hc : c.isDigit = true) (cs : List Char) :
    value? (fuel + 1) (c :: cs) =
      (unsigned? (c :: cs)).map fun (literal, cs) => (.number literal, cs) := by
  obtain ⟨d, hd, rfl⟩ := Numeral.exists_digitChar hc
  interval_cases d <;> rfl

theorem readsBack_ofNat (n : Nat) : ReadsBack (.ofNat n) := by
  refine readsBack_of_succ Nat.toDigits_ne_nil fun fuel rest _ hrest => ?_
  show value? (fuel + 1) (Numeral.toChars n ++ rest) = _
  have hread := unsigned?_toChars n hrest
  obtain ⟨c, cs, hc, hdigit⟩ := head_toChars n
  rw [hc, List.cons_append] at hread ⊢
  -- the digit in front tells that it is a number
  rw [value?_of_isDigit fuel hdigit, hread, Value.ofNat, hc]
  rfl

/-! ## Strings -/

theorem stringBody?_plain (h : PlainText raw) (rest : List Char) :
    stringBody? (raw ++ '"' :: rest) = some (raw, rest) := by
  induction raw with
  | nil => rfl
  | cons c raw ih =>
    obtain ⟨hquote, hescape, -⟩ := h c List.mem_cons_self
    have hraw := ih fun d hd => h d (List.mem_cons_of_mem c hd)
    rw [List.cons_append, stringBody?, hraw]
    · rfl
    · exact fun h => hquote h
    · exact fun _ _ h _ => hescape h

theorem readsBack_string (h : PlainText raw) : ReadsBack (.string raw) := by
  refine readsBack_of_succ (List.cons_ne_nil _ _) fun fuel rest _ _ => ?_
  have htext : (Value.string raw).render ++ rest = '"' :: (raw ++ '"' :: rest) := by
    simp [Value.render, Value.quoted]
  rw [htext]
  show (stringBody? _).map _ = _
  rw [stringBody?_plain h]
  rfl

/-! ## Arrays -/

theorem renderItems_eq_map (vs : List Value) : Value.renderItems vs = vs.map Value.render := by
  induction vs with
  | nil => rfl
  | cons v vs ih => rw [Value.renderItems, ih, List.map_cons]

theorem skipBlanks_cons (hc : isBlank c = false) (cs : List Char) : skipBlanks (c :: cs) = c :: cs := by
  rw [skipBlanks, List.dropWhile_cons, hc, if_neg Bool.false_ne_true]

/-- The text of a value begins with what is neither a blank nor the end of an array. -/
theorem Value.Plain.head_render (h : v.Plain) :
    ∃ c cs, v.render = c :: cs ∧ isBlank c = false ∧ c ≠ ']' := by
  cases h with
  | null => exact ⟨_, _, rfl, by decide, by decide⟩
  | bool value => cases value <;> exact ⟨_, _, rfl, by decide, by decide⟩
  | number n =>
    obtain ⟨c, cs, hc, hdigit⟩ := head_toChars n
    obtain ⟨d, hd, rfl⟩ := Numeral.exists_digitChar hdigit
    exact ⟨_, cs, hc, by interval_cases d <;> decide, by interval_cases d <;> decide⟩
  | string text => exact ⟨_, _, rfl, by decide, by decide⟩
  | array each => exact ⟨_, _, rfl, by decide, by decide⟩
  | object names each => exact ⟨_, _, rfl, by decide, by decide⟩

theorem intercalate_comma (text next : List Char) (texts : List (List Char)) :
    [','].intercalate (text :: next :: texts) = text ++ ',' :: [','].intercalate (next :: texts) := by
  rw [List.intercalate_cons_cons, List.append_assoc, List.singleton_append]

/-- By induction on the items behind the first one. -/
theorem items?_render (hv : ReadsBack v) (hvs : ∀ w ∈ vs, ReadsBack w)
    (hfuel : ([','].intercalate ((v :: vs).map Value.render)).length < fuel) (rest : List Char) :
    items? fuel ([','].intercalate ((v :: vs).map Value.render) ++ ']' :: rest) =
      some (v :: vs, rest) := by
  induction vs generalizing v fuel with
  | nil =>
    obtain ⟨left, rfl⟩ := Nat.exists_eq_add_of_le' (show 1 ≤ fuel by omega)
    rw [List.map_singleton, List.intercalate_singleton] at hfuel ⊢
    rw [items?, hv left _ (by omega) (ends_bracket rest)]
    rfl
  | cons w vs ih =>
    obtain ⟨left, rfl⟩ := Nat.exists_eq_add_of_le' (show 1 ≤ fuel by omega)
    rw [List.map_cons, List.map_cons, intercalate_comma, ← List.map_cons] at hfuel ⊢
    rw [List.length_append, List.length_cons] at hfuel
    -- a unit of fuel is gone, but so is the comma
    have hrest := ih (hvs w List.mem_cons_self) (fun x hx => hvs x (List.mem_cons_of_mem w hx))
      (show _ < left by omega)
    rw [List.append_assoc, List.cons_append, items?, hv left _ (by omega) (ends_comma _)]
    show (items? left _).map _ = _
    rw [hrest]
    rfl

theorem value?_array (hc : isBlank c = false) (hend : c ≠ ']') (fuel : Nat) (cs : List Char) :
    value? (fuel + 1) ('[' :: c :: cs) =
      (items? fuel (c :: cs)).map fun (items, cs) => (.array items, cs) := by
  have hopen : skipBlanks ('[' :: c :: cs) = '[' :: c :: cs := rfl
  rw [value?, hopen]
  simp only [skipBlanks_cons hc]
  split
  · -- an array with nothing in it
    rename_i heq
    exact absurd (List.cons.inj heq).1 hend
  · rfl

theorem readsBack_array (h : ∀ v ∈ vs, v.Plain) (hvs : ∀ v ∈ vs, ReadsBack v) :
    ReadsBack (.array vs) := by
  refine readsBack_of_succ (List.cons_ne_nil _ _) fun fuel rest hfuel _ => ?_
  rw [Value.render, renderItems_eq_map] at hfuel ⊢
  rw [List.length_append, List.length_cons, List.length_singleton] at hfuel
  rw [List.append_assoc, List.cons_append, List.singleton_append]
  cases vs with
  | nil => rfl
  | cons v vs =>
    have hread := items?_render (hvs v List.mem_cons_self)
      (fun w hw => hvs w (List.mem_cons_of_mem v hw))
      (show _ < fuel by omega) rest
    -- what stands behind the bracket is the first item, and not the end
    obtain ⟨c, cs, hc, hblank, hend⟩ := (h v List.mem_cons_self).head_render
    obtain ⟨cs', hc'⟩ : ∃ cs', [','].intercalate ((v :: vs).map Value.render) = c :: cs' := by
      cases vs <;> simp [hc]
    rw [hc', List.cons_append] at hread ⊢
    rw [value?_array hblank hend, hread]
    rfl

/-! ## Objects -/

theorem renderMembers_eq_map (ms : List (List Char × Value)) :
    Value.renderMembers ms = ms.map Value.renderMember := by
  induction ms with
  | nil => rfl
  | cons m ms ih => rw [Value.renderMembers, ih, List.map_cons]

theorem renderMember_eq (m : List Char × Value) :
    Value.renderMember m = '"' :: (m.1 ++ '"' :: ':' :: m.2.render) := by
  rw [Value.renderMember, Value.quoted, List.append_assoc, List.cons_append, List.singleton_append]

theorem member?_render (hname : PlainText m.1) (hm : ReadsBack m.2)
    (hfuel : (Value.renderMember m).length ≤ fuel) (hrest : Ends rest) :
    member? fuel (Value.renderMember m ++ rest) = some (m, rest) := by
  rw [renderMember_eq] at hfuel ⊢
  simp only [List.length_cons, List.length_append] at hfuel
  obtain ⟨left, rfl⟩ := Nat.exists_eq_add_of_le' (show 1 ≤ fuel by omega)
  rw [List.cons_append, List.append_assoc, List.cons_append, List.cons_append]
  have hvalue := hm left rest (by omega) hrest
  show (stringBody? _).bind _ = _
  rw [stringBody?_plain hname]
  show (value? left _).map _ = _
  rw [hvalue]
  rfl

/-- As for the items of an array. -/
theorem members?_render (hm : PlainText m.1 ∧ ReadsBack m.2)
    (hms : ∀ n ∈ ms, PlainText n.1 ∧ ReadsBack n.2)
    (hfuel : ([','].intercalate ((m :: ms).map Value.renderMember)).length < fuel)
    (rest : List Char) :
    members? fuel ([','].intercalate ((m :: ms).map Value.renderMember) ++ '}' :: rest) =
      some (m :: ms, rest) := by
  induction ms generalizing m fuel with
  | nil =>
    obtain ⟨left, rfl⟩ := Nat.exists_eq_add_of_le' (show 1 ≤ fuel by omega)
    rw [List.map_singleton, List.intercalate_singleton] at hfuel ⊢
    rw [members?, member?_render hm.1 hm.2 (by omega) (ends_brace rest)]
    rfl
  | cons n ms ih =>
    obtain ⟨left, rfl⟩ := Nat.exists_eq_add_of_le' (show 1 ≤ fuel by omega)
    rw [List.map_cons, List.map_cons, intercalate_comma, ← List.map_cons] at hfuel ⊢
    rw [List.length_append, List.length_cons] at hfuel
    have hrest := ih (hms n List.mem_cons_self) (fun x hx => hms x (List.mem_cons_of_mem n hx))
      (show _ < left by omega)
    rw [List.append_assoc, List.cons_append, members?,
      member?_render hm.1 hm.2 (by omega) (ends_comma _)]
    show (members? left _).map _ = _
    rw [hrest]
    rfl

theorem readsBack_object (hms : ∀ m ∈ ms, PlainText m.1 ∧ ReadsBack m.2) :
    ReadsBack (.object ms) := by
  refine readsBack_of_succ (List.cons_ne_nil _ _) fun fuel rest hfuel _ => ?_
  rw [Value.render, renderMembers_eq_map] at hfuel ⊢
  rw [List.length_append, List.length_cons, List.length_singleton] at hfuel
  rw [List.append_assoc, List.cons_append, List.singleton_append]
  cases ms with
  | nil => rfl
  | cons m ms =>
    have hread := members?_render (hms m List.mem_cons_self)
      (fun n hn => hms n (List.mem_cons_of_mem m hn))
      (show _ < fuel by omega) rest
    -- what stands behind the brace is the quote of the first name
    obtain ⟨cs, hcs⟩ : ∃ cs, [','].intercalate ((m :: ms).map Value.renderMember) = '"' :: cs := by
      cases ms <;> simp [renderMember_eq]
    rw [hcs, List.cons_append] at hread ⊢
    show (members? fuel _).map _ = _
    rw [hread]
    rfl

/-! ## Whole texts -/

/-- By induction on the value. -/
theorem Value.Plain.readsBack (h : v.Plain) : ReadsBack v := by
  induction h with
  | null => exact readsBack_of_succ (List.cons_ne_nil _ _) fun _ _ _ _ => rfl
  | bool value =>
    cases value <;> exact readsBack_of_succ (List.cons_ne_nil _ _) fun _ _ _ _ => rfl
  | number n => exact readsBack_ofNat n
  | string text => exact readsBack_string text
  | array each ih => exact readsBack_array each ih
  | object names each ih => exact readsBack_object fun m hm => ⟨names m hm, ih m hm⟩

theorem parse?_render (h : v.Plain) : parse? v.render = some v := by
  have hread := h.readsBack (3 * v.render.length + 3) [] (by omega) ends_nil
  rw [List.append_nil] at hread
  rw [parse?, hread]
  rfl

end ChainNode.Json
