import ChainNode.Archive.FileName
import ChainNode.Proofs.Numeral

/-!
# Names of segments

A name is taken apart at its first dot and at the first dash of what stands before it. Neither can stand in
a numeral, so a name has its parts in one way only, and those that are accepted are those that are put
together from two numerals and an extension. The default name of a range is one of them.
-/

namespace ChainNode.Archive

/-- The parts of a name. -/
structure NameParts where
  firstText : List Char
  lastText : List Char
  extension : List Char
deriving DecidableEq

namespace NameParts

/-- What stands before the extension. -/
def stem (w : NameParts) : List Char := w.firstText ++ '-' :: w.lastText

def name (w : NameParts) : String := String.ofList (w.stem ++ '.' :: w.extension)

/-- The parts make up a name of a segment from `first` to `last`. As an extension anything will do, dots and
dashes included, except nothing. -/
structure Spell (w : NameParts) (first last : Nat) : Prop where
  firstReads : Numeral.Reads w.firstText first
  lastReads : Numeral.Reads w.lastText last
  ordered : first ≤ last
  fits : last < UInt32.size
  extension : w.extension ≠ []

/-- Both heights in decimal digits. -/
def decimal (first last : UInt32) (extension : List Char) : NameParts :=
  ⟨Numeral.toChars first.toNat, Numeral.toChars last.toNat, extension⟩

variable {w v : NameParts} {first last : Nat}

theorem toList_name (w : NameParts) : w.name.toList = w.stem ++ '.' :: w.extension :=
  String.toList_ofList

theorem Spell.splitAtFirst_stem (h : w.Spell first last) :
    splitAtFirst '-' w.stem = some (w.firstText, w.lastText) :=
  splitAtFirst_eq_some_iff.mpr ⟨rfl, h.firstReads.notMem (by decide) (by decide)⟩

theorem Spell.splitAtFirst_name (h : w.Spell first last) :
    splitAtFirst '.' w.name.toList = some (w.stem, w.extension) := by
  refine splitAtFirst_eq_some_iff.mpr ⟨w.toList_name, ?_⟩
  rw [stem, List.mem_append, List.mem_cons]
  -- no dot stands in a numeral, and a dash is none
  rintro (hmem | hdash | hmem)
  · exact h.firstReads.notMem (by decide) (by decide) hmem
  · cases hdash
  · exact h.lastReads.notMem (by decide) (by decide) hmem

theorem name_of_splits {name : String} {stem extension firstText lastText : List Char}
    (hname : splitAtFirst '.' name.toList = some (stem, extension))
    (hstem : splitAtFirst '-' stem = some (firstText, lastText)) :
    (NameParts.mk firstText lastText extension).name = name := by
  apply String.toList_inj.mp
  rw [toList_name, (splitAtFirst_eq_some_iff.mp hname).1, (splitAtFirst_eq_some_iff.mp hstem).1]
  rfl

/-- A name has its parts in one way only. -/
theorem Spell.unique {first' last' : Nat} (hw : w.Spell first last) (hv : v.Spell first' last')
    (hname : w.name = v.name) : w = v ∧ first = first' ∧ last = last' := by
  have houter : (w.stem, w.extension) = (v.stem, v.extension) := by
    rw [← Option.some_inj, ← hw.splitAtFirst_name, ← hv.splitAtFirst_name, hname]
  obtain ⟨hstem, hextension⟩ := Prod.mk.inj houter
  -- the same cut, now at the dash
  have hinner : (w.firstText, w.lastText) = (v.firstText, v.lastText) := by
    rw [← Option.some_inj, ← hw.splitAtFirst_stem, ← hv.splitAtFirst_stem, hstem]
  obtain ⟨hfirst, hlast⟩ := Prod.mk.inj hinner
  have hwv : w = v := by
    cases w
    cases v
    cases hfirst
    cases hlast
    cases hextension
    rfl
  subst hwv
  exact ⟨rfl, hw.firstReads.unique hv.firstReads, hw.lastReads.unique hv.lastReads⟩

theorem spell_decimal {first last : UInt32} {extension : List Char} (hle : first ≤ last)
    (hextension : extension ≠ []) :
    (decimal first last extension).Spell first.toNat last.toNat where
  firstReads := Or.inl (Numeral.denotes_toChars first.toNat)
  lastReads := Or.inl (Numeral.denotes_toChars last.toNat)
  ordered := UInt32.le_iff_toNat_le.mp hle
  fits := last.toNat_lt_size
  extension := hextension

end NameParts

namespace SegmentEntry

variable {e : SegmentEntry} {name : String}

theorem guard_eq_some_iff {α : Type} {c : Prop} [Decidable c] {x : Option α} {y : α} :
    (if c then (failure : Option Unit).bind fun _ => x else x) = some y ↔ ¬ c ∧ x = some y := by
  by_cases hc : c
  · rw [if_pos hc]
    exact ⟨nofun, fun h => absurd hc h.1⟩
  · rw [if_neg hc]
    exact ⟨fun h => ⟨hc, h⟩, fun h => h.2⟩

theorem ofName?_eq_some_iff {name : String} :
    ofName? name = some e ↔ ∃ stem extension firstText lastText,
      splitAtFirst '.' name.toList = some (stem, extension) ∧ extension ≠ [] ∧
      splitAtFirst '-' stem = some (firstText, lastText) ∧
      Numeral.toUInt32? firstText = some e.first ∧ Numeral.toUInt32? lastText = some e.last ∧
      e.first ≤ e.last ∧ e = ⟨name, e.first, e.last, e.last - e.first⟩ := by
  simp only [ofName?, Option.bind_eq_bind, Option.bind_eq_some_iff, guard_eq_some_iff, Option.pure_def,
    Option.some.injEq, Prod.exists, UInt32.not_lt]
  constructor
  · rintro ⟨stem, extension, hstem, hextension, firstText, lastText, htexts, first, hfirst, last, hlast,
      hle, rfl⟩
    exact ⟨stem, extension, firstText, lastText, hstem, hextension, htexts, hfirst, hlast, hle, rfl⟩
  · rintro ⟨stem, extension, firstText, lastText, hstem, hextension, htexts, hfirst, hlast, hle, he⟩
    exact ⟨stem, extension, hstem, hextension, firstText, lastText, htexts, e.first, hfirst, e.last,
      hlast, hle, he.symm⟩

theorem fileName_of_ofName? {name : String} (h : ofName? name = some e) : e.fileName = name := by
  obtain ⟨stem, extension, firstText, lastText, -, -, -, -, -, -, he⟩ := ofName?_eq_some_iff.mp h
  rw [he]

/-- The entry of a name is made from its parts. -/
theorem ofName?_eq_some_iff_spell :
    ofName? name = some e ↔ ∃ w : NameParts, w.name = name ∧ w.Spell e.first.toNat e.last.toNat ∧
      e = ⟨name, e.first, e.last, e.last - e.first⟩ := by
  rw [ofName?_eq_some_iff]
  constructor
  · rintro ⟨stem, extension, firstText, lastText, hname, hextension, hstem, hfirst, hlast, hle, he⟩
    refine ⟨⟨firstText, lastText, extension⟩, NameParts.name_of_splits hname hstem, ?_, he⟩
    exact ⟨Numeral.toUInt32?_eq_some_iff.mp hfirst, Numeral.toUInt32?_eq_some_iff.mp hlast,
      UInt32.le_iff_toNat_le.mp hle, e.last.toNat_lt_size, hextension⟩
  · rintro ⟨w, rfl, hw, he⟩
    exact ⟨w.stem, w.extension, w.firstText, w.lastText, hw.splitAtFirst_name, hw.extension,
      hw.splitAtFirst_stem, Numeral.toUInt32?_eq_some_iff.mpr hw.firstReads,
      Numeral.toUInt32?_eq_some_iff.mpr hw.lastReads, UInt32.le_iff_toNat_le.mpr hw.ordered, he⟩

theorem ofName?_of_spell {w : NameParts} {first last : Nat} (hname : w.name = name)
    (hw : w.Spell first last) :
    ofName? name = some ⟨name, UInt32.ofNat first, UInt32.ofNat last,
      UInt32.ofNat last - UInt32.ofNat first⟩ := by
  have hlast : (UInt32.ofNat last).toNat = last := UInt32.toNat_ofNat_of_lt' hw.fits
  have hfirst : (UInt32.ofNat first).toNat = first :=
    UInt32.toNat_ofNat_of_lt' (Nat.lt_of_le_of_lt hw.ordered hw.fits)
  exact ofName?_eq_some_iff_spell.mpr ⟨w, hname, by rw [hfirst, hlast]; exact hw, rfl⟩

theorem ofName?_decimal {first last : UInt32} {extension : List Char} (hle : first ≤ last)
    (hextension : extension ≠ []) :
    ofName? (NameParts.decimal first last extension).name =
      some ⟨(NameParts.decimal first last extension).name, first, last, last - first⟩ :=
  ofName?_eq_some_iff_spell.mpr ⟨_, rfl, NameParts.spell_decimal hle hextension, rfl⟩

theorem ofName?_defaultName {first last : UInt32} (h : first ≤ last) :
    ofName? (defaultName first last) = some ⟨defaultName first last, first, last, last - first⟩ := by
  have hname : defaultName first last = (NameParts.decimal first last "dat".toList).name := by
    rw [defaultName, NameParts.name]
    rfl
  rw [hname]
  exact ofName?_decimal h (by decide)

theorem ofName?_eq_none_iff :
    ofName? name = none ↔ ∀ w : NameParts, w.name = name → ∀ first last, ¬ w.Spell first last := by
  rw [Option.eq_none_iff_forall_ne_some]
  constructor
  · intro hnone w hname first last hw
    exact hnone _ (ofName?_of_spell hname hw)
  · intro hnone e he
    obtain ⟨w, hname, hw, -⟩ := ofName?_eq_some_iff_spell.mp he
    exact hnone w hname _ _ hw

/-- What makes an entry that of a name, apart from its two heights. -/
theorem eq_mk_sub_iff (h : e.first ≤ e.last) :
    e = ⟨name, e.first, e.last, e.last - e.first⟩ ↔
      e.fileName = name ∧ e.length.toNat = e.last.toNat - e.first.toNat := by
  obtain ⟨fileName, first, last, length⟩ := e
  rw [SegmentEntry.mk.injEq, ← UInt32.toNat_inj (a := length), UInt32.toNat_sub_of_le last first h]
  simp only [true_and]

/-- A name stands for a segment if and only if it is made up of two numerals that fit 32 bits, the second
one no lower, and an extension. Its parts and numbers are the only ones, and the entry has the name, the two
numbers and their difference. The decimal names are among them, whatever the extension. -/
theorem names_follow_grammar :
    (∀ name e, ofName? name = some e ↔
      (∃ w : NameParts, w.name = name ∧ w.Spell e.first.toNat e.last.toNat) ∧
        e.fileName = name ∧ e.length.toNat = e.last.toNat - e.first.toNat) ∧
    (∀ name, ofName? name = none ↔
      ∀ w : NameParts, w.name = name → ∀ first last, ¬ w.Spell first last) ∧
    (∀ (w v : NameParts) (first last first' last' : Nat), w.Spell first last → v.Spell first' last' →
      w.name = v.name → w = v ∧ first = first' ∧ last = last') ∧
    ∀ (first last : UInt32) (extension : List Char), first ≤ last → extension ≠ [] →
      let name := (NameParts.decimal first last extension).name
      ofName? name = some ⟨name, first, last, last - first⟩ := by
  refine ⟨?_, ?_, fun w v first last first' last' hw hv hname => hw.unique hv hname,
    fun first last extension hle hextension => ofName?_decimal hle hextension⟩
  · intro name e
    rw [ofName?_eq_some_iff_spell]
    constructor
    · rintro ⟨w, hname, hw, he⟩
      exact ⟨⟨w, hname, hw⟩, (eq_mk_sub_iff (UInt32.le_iff_toNat_le.mpr hw.ordered)).mp he⟩
    · rintro ⟨⟨w, hname, hw⟩, hentry⟩
      exact ⟨w, hname, hw, (eq_mk_sub_iff (UInt32.le_iff_toNat_le.mpr hw.ordered)).mpr hentry⟩
  · exact fun name => ofName?_eq_none_iff

/-- A plus sign, leading zeros, and an extension with a dash and a dot. -/
def ornate : NameParts := ⟨"+007".toList, "12".toList, "dat-2.bak".toList⟩

theorem names_follow_grammar_ornate :
    ofName? "+007-12.dat-2.bak" = some ⟨"+007-12.dat-2.bak", 7, 12, 5⟩ ∧
    (∀ (v : NameParts) (first last : Nat), v.Spell first last → v.name = "+007-12.dat-2.bak" →
      v = ornate ∧ first = 7 ∧ last = 12) ∧
    ofName? "7-12.bak" = some ⟨"7-12.bak", 7, 12, 5⟩ ∧
    (∀ v : NameParts, v.name = "12-7.dat" → ∀ first last, ¬ v.Spell first last) := by
  have hname : ornate.name = "+007-12.dat-2.bak" := by decide
  have hornate : ornate.Spell 7 12 :=
    ⟨Numeral.ofChars?_withoutPlus_iff.mp (by decide), Numeral.ofChars?_withoutPlus_iff.mp (by decide),
      by decide, by decide, by decide⟩
  have hplain : (NameParts.decimal 7 12 "bak".toList).name = "7-12.bak" := by decide
  obtain ⟨haccepts, hrefuses, hunique, hdecimal⟩ := names_follow_grammar
  refine ⟨(haccepts _ _).mpr ⟨⟨ornate, hname, hornate⟩, rfl, by decide⟩, ?_, ?_,
    (hrefuses _).mp (by decide)⟩
  · intro v first last hv hsame
    exact hunique v ornate first last 7 12 hv hornate (hsame.trans hname.symm)
  · have hread := hdecimal 7 12 "bak".toList (by decide) (by decide)
    rw [hplain] at hread
    exact hread

end SegmentEntry
end ChainNode.Archive
