import ChainNode.Json.Fields
import ChainNode.Proofs.Json.Parser
import Mathlib.Data.List.Nodup

/-!
# Fields that read back

A record whose fields have different names, none of which needs escapes, gives back the value of each
field. Numbers that fit and byte strings read back as well.
-/

namespace ChainNode.Json

/-- Names that tell fields apart and need no escapes. -/
def AreNames (names : List String) : Prop :=
  names.Nodup ∧ ∀ name ∈ names, PlainText name.toList

instance (names : List String) : Decidable (AreNames names) :=
  inferInstanceAs (Decidable (names.Nodup ∧ ∀ name ∈ names, PlainText name.toList))

variable {α β : Type} {f : α → Option β} {g : α → β} {as : List α}
  {ms : List (List Char × Value)} {m : List Char × Value}
  {fields : List (String × Value)} {raw : List Char} {n bound : Nat}

theorem mapM_eq_some (h : ∀ a ∈ as, f a = some (g a)) : as.mapM f = some (as.map g) := by
  induction as with
  | nil => rfl
  | cons a as ih =>
    rw [List.mapM_cons, h a List.mem_cons_self, ih fun b hb => h b (List.mem_cons_of_mem a hb)]
    rfl

/-! ## Strings without escapes -/

theorem codePoints?_plain (h : PlainText raw) : codePoints? raw = some (raw.map Char.toNat) := by
  induction raw with
  | nil => rfl
  | cons c raw ih =>
    obtain ⟨-, hescape, -⟩ := h c List.mem_cons_self
    have hraw := ih fun d hd => h d (List.mem_cons_of_mem c hd)
    rw [codePoints?, if_neg hescape, hraw]
    · rfl
    · exact fun _ _ _ _ _ h _ => hescape h
    · exact fun _ _ h _ => hescape h

/-- No character is half of a surrogate pair. -/
theorem not_surrogate (c : Char) : (isHighSurrogate c.toNat || isLowSurrogate c.toNat) = false := by
  have hvalid : c.toNat < 0xd800 ∨ 0xdfff < c.toNat ∧ c.toNat < 0x110000 := c.valid
  simp only [isHighSurrogate, isLowSurrogate, Bool.or_eq_false_iff, Bool.and_eq_false_iff,
    decide_eq_false_iff_not]
  omega

theorem joinSurrogates_toNat (cs : List Char) :
    joinSurrogates (cs.map Char.toNat) = cs.map Char.toNat := by
  induction cs with
  | nil => rfl
  | cons c cs ih =>
    cases cs with
    | nil => rfl
    | cons d cs =>
      have hhigh : isHighSurrogate c.toNat = false := (Bool.or_eq_false_iff.mp (not_surrogate c)).1
      rw [List.map_cons] at ih
      rw [List.map_cons, List.map_cons, joinSurrogates, hhigh, ih]
      rfl

theorem chars?_plain (h : PlainText raw) : chars? raw = some raw := by
  have hcontrol : hasControl raw = false :=
    List.any_eq_false.mpr fun c hc => by simpa using (h c hc).2.2
  have hsurrogate : ((raw.map Char.toNat).any fun n => isHighSurrogate n || isLowSurrogate n) = false := by
    rw [List.any_map]
    exact List.any_eq_false.mpr fun c _ => by simp [not_surrogate c]
  have hback : (raw.map Char.toNat).map Char.ofNat = raw := by
    rw [List.map_map]
    exact List.map_id'' Char.ofNat_toNat raw
  -- nothing stops the reading, and nothing is changed on the way
  rw [chars?, hcontrol, codePoints?_plain h, if_neg Bool.false_ne_true]
  show (if _ then _ else _) = _
  rw [joinSurrogates_toNat, hsurrogate, if_neg Bool.false_ne_true, hback]
  rfl

namespace Value

/-! ## Numbers and byte strings -/

theorem toNat?_ofNat (h : n < bound) : (ofNat n).toNat? bound = some n := by
  rw [ofNat, toNat?, Numeral.ofChars?_toChars, Option.filter_some, decide_eq_true h, if_pos rfl]

theorem toByte?_ofNat (b : UInt8) : (ofNat b.toNat).toByte? = some b := by
  rw [toByte?, toNat?_ofNat b.toNat_lt, Option.map_some, UInt8.ofNat_toNat]

theorem toBytes?_ofBytes (bs : Bytes) : (ofBytes bs).toBytes? = some bs := by
  rw [ofBytes, toBytes?, List.mapM_map]
  exact (mapM_eq_some fun b _ => toByte?_ofNat b).trans (congrArg some (List.map_id bs))

theorem plain_ofBytes (bs : Bytes) : (ofBytes bs).Plain := by
  refine .array fun v hv => ?_
  obtain ⟨b, -, rfl⟩ := List.mem_map.mp hv
  exact .number b.toNat

/-! ## Records -/

theorem named?_plain (h : ∀ m ∈ ms, PlainText m.1) : named? ms = some ms := by
  induction ms with
  | nil => rfl
  | cons m ms ih =>
    rw [named?, chars?_plain (h m List.mem_cons_self), ih fun n hn => h n (List.mem_cons_of_mem m hn)]
    rfl

theorem filter_name_of_mem (hnodup : (ms.map Prod.fst).Nodup) (hm : m ∈ ms) :
    ms.filter (·.1 = m.1) = [m] := by
  induction ms with
  | nil => cases hm
  | cons n ms ih =>
    obtain ⟨hfresh, hrest⟩ := List.nodup_cons.mp hnodup
    have hne (x : List Char × Value) (hx : x ∈ ms) : n.1 ≠ x.1 :=
      fun heq => hfresh (heq ▸ List.mem_map_of_mem hx)
    rcases List.mem_cons.mp hm with rfl | hm
    · -- no member behind it has its name
      have hnone : ms.filter (·.1 = m.1) = [] :=
        List.filter_eq_nil_iff.mpr fun x hx => by simpa using (hne x hx).symm
      rw [List.filter_cons_of_pos (by simp), hnone]
    · rw [List.filter_cons_of_neg (by simpa using hne m hm), ih hrest hm]

theorem only?_of_mem (hnodup : (ms.map Prod.fst).Nodup) (hm : m ∈ ms) : only? m.1 ms = some m.2 := by
  rw [only?, filter_name_of_mem hnodup hm]

theorem fields?_object (hplain : ∀ m ∈ ms, PlainText m.1) (hnodup : (ms.map Prod.fst).Nodup) :
    (Value.object ms).fields? (ms.map Prod.fst) = some (ms.map Prod.snd) := by
  -- every member is a field, so none is passed over
  have hothers : (ms.any fun m => !(ms.map Prod.fst).contains m.1 && !m.2.isReadable) = false := by
    refine List.any_eq_false.mpr fun m hm => ?_
    have hname : (ms.map Prod.fst).contains m.1 = true :=
      List.contains_iff_mem.mpr (List.mem_map_of_mem hm)
    rw [hname]
    exact Bool.false_ne_true
  rw [fields?, named?_plain hplain]
  show (if _ then _ else _) = _
  rw [hothers, if_neg Bool.false_ne_true, List.mapM_map]
  exact mapM_eq_some fun m hm => only?_of_mem hnodup hm

theorem AreNames.plainText (hnames : AreNames (fields.map Prod.fst)) :
    ∀ m ∈ fields.map fun m => (m.1.toList, m.2), PlainText m.1 := by
  intro m hm
  obtain ⟨field, hfield, rfl⟩ := List.mem_map.mp hm
  exact hnames.2 field.1 (List.mem_map_of_mem hfield)

theorem plain_ofFields (hnames : AreNames (fields.map Prod.fst)) (hplain : ∀ m ∈ fields, m.2.Plain) :
    (ofFields fields).Plain := by
  refine .object (AreNames.plainText hnames) fun m hm => ?_
  obtain ⟨field, hfield, rfl⟩ := List.mem_map.mp hm
  exact hplain field hfield

theorem fields?_ofFields (hnames : AreNames (fields.map Prod.fst)) :
    (ofFields fields).fields? ((fields.map Prod.fst).map String.toList) =
      some (fields.map Prod.snd) := by
  have hfst : (fields.map fun m => (m.1.toList, m.2)).map Prod.fst =
      (fields.map Prod.fst).map String.toList := by
    rw [List.map_map, List.map_map]
    rfl
  have hsnd : (fields.map fun m => (m.1.toList, m.2)).map Prod.snd = fields.map Prod.snd := by
    rw [List.map_map]
    rfl
  have hnodup : ((fields.map Prod.fst).map String.toList).Nodup :=
    hnames.1.map fun _ _ => String.toList_inj.mp
  rw [← hfst] at hnodup ⊢
  rw [← hsnd]
  exact fields?_object (AreNames.plainText hnames) hnodup

end Value
end ChainNode.Json
