import ChainNode.Proofs.Archive.Storage
import ChainNode.Proofs.StableSort
import Mathlib.Order.Bounds.Defs

/-!
# Finding segments whose ranges overlap

Ranges may overlap and nest as they like. Of all segments that cover a height, the one is found that starts
first, and of those the one that ends first. The order of the listing decides only between segments of the
very same range.
-/

namespace ChainNode.Archive

variable {e a b : SegmentEntry} {es fs : List SegmentEntry} {height : UInt32}

namespace SegmentEntry

def range (e : SegmentEntry) : UInt32 × UInt32 := (e.first, e.last)

/-- The range of `a` starts before that of `b`, or at the same height and ends no later. -/
def Precedes (a b : SegmentEntry) : Prop := a.first < b.first ∨ (a.first = b.first ∧ a.last ≤ b.last)

instance : DecidableRel Precedes := fun a b =>
  inferInstanceAs (Decidable (a.first < b.first ∨ (a.first = b.first ∧ a.last ≤ b.last)))

theorem rangeLE_iff : rangeLE a b = true ↔ a.Precedes b := by
  simp only [rangeLE, Precedes, Bool.or_eq_true, Bool.and_eq_true, decide_eq_true_eq]

theorem rangeLE_eq_precedes : (fun a b => rangeLE a b = true) = Precedes := by
  funext a b
  exact propext rangeLE_iff

theorem precedes_of_range_eq (h : a.range = b.range) : a.Precedes b := by
  obtain ⟨hfirst, hlast⟩ := Prod.mk.inj h
  exact Or.inr ⟨hfirst, hlast ▸ UInt32.le_refl _⟩

theorem Precedes.range_eq (hab : a.Precedes b) (hba : b.Precedes a) : a.range = b.range := by
  simp only [Precedes, UInt32.lt_iff_toNat_lt, UInt32.le_iff_toNat_le, ← UInt32.toNat_inj] at hab hba
  have hfirst : a.first = b.first := UInt32.toNat_inj.mp (by omega)
  have hlast : a.last = b.last := UInt32.toNat_inj.mp (by omega)
  rw [range, range, hfirst, hlast]

theorem covers_last (h : ofName? e.fileName = some e) : e.covers e.last = true := by
  obtain ⟨w, -, hw, -⟩ := ofName?_eq_some_iff_spell.mp h
  exact covers_iff.mpr ⟨UInt32.le_iff_toNat_le.mpr hw.ordered, UInt32.le_refl _⟩

end SegmentEntry

namespace Directory

open SegmentEntry

/-! ## The order of the entries -/

theorem pairwise_ofEntries (es : List SegmentEntry) : (ofEntries es).entries.Pairwise Precedes :=
  (pairwise_stableSort rangeLE_trans rangeLE_total es).imp rangeLE_iff.mp

/-- Segments of one range keep the order in which they were listed. -/
theorem filter_range_ofEntries (es : List SegmentEntry) (r : UInt32 × UInt32) :
    (ofEntries es).entries.filter (·.range = r) = es.filter (·.range = r) := by
  apply filter_stableSort_of_ties rangeLE_trans rangeLE_total
  intro a b ha hb
  have hrange : a.range = b.range := (of_decide_eq_true ha).trans (of_decide_eq_true hb).symm
  exact rangeLE_iff.mpr (precedes_of_range_eq hrange)

/-- If no two ranges are the same, sorting leaves no choice. -/
theorem ofEntries_perm (h : es.Perm fs) (hdistinct : (es.map range).Nodup) :
    ofEntries es = ofEntries fs := by
  have hperm : (ofEntries es).entries.Perm (ofEntries fs).entries :=
    (perm_stableSort rangeLE es).trans (h.trans (perm_stableSort rangeLE fs).symm)
  refine congrArg Directory.mk (hperm.eq_of_pairwise ?_ (pairwise_ofEntries es) (pairwise_ofEntries fs))
  intro a b ha hb hab hba
  have hmem : b ∈ es := h.mem_iff.mpr (mem_ofEntries.mp hb)
  exact List.inj_on_of_nodup_map hdistinct (mem_ofEntries.mp ha) hmem (hab.range_eq hba)

/-! ## What is found -/

theorem find?_ofEntries_eq_none_iff :
    (ofEntries es).find? height = none ↔ ∀ e ∈ es, e.covers height = false := by
  rw [find?_eq_none_iff]
  simp only [mem_ofEntries]

/-- Looking through the sorted entries finds the first, by range, of those that cover the height. -/
theorem find?_ofEntries_eq_some_iff :
    (ofEntries es).find? height = some e ↔ IsFirst Precedes (es.filter (·.covers height)) e := by
  rw [← rangeLE_eq_precedes, ← head?_stableSort_eq_some_iff rangeLE_trans rangeLE_total,
    ← filter_stableSort rangeLE_trans rangeLE_total, List.head?_filter]
  rfl

/-! ## The highest height -/

theorem isGreatest_lastHeight (hne : es ≠ []) :
    IsGreatest {height | ∃ e ∈ es, e.last = height} (ofEntries es).lastHeight := by
  have hmax : (es.map (·.last)).max? = some (ofEntries es).lastHeight := by
    have hlast := lastHeight_ofEntries (List.Perm.refl es)
    cases hm : (es.map (·.last)).max? with
    | none => exact absurd (List.map_eq_nil_iff.mp (List.max?_eq_none_iff.mp hm)) hne
    | some m =>
      rw [hm] at hlast
      exact congrArg some hlast.symm
  obtain ⟨hmem, hgreatest⟩ := List.max?_eq_some_iff.mp hmax
  constructor
  · exact List.mem_map.mp hmem
  · rintro height ⟨e, he, rfl⟩
    exact hgreatest _ (List.mem_map_of_mem he)

theorem isSome_find?_lastHeight (hne : es ≠ [])
    (hes : ∀ e ∈ es, ofName? e.fileName = some e) :
    ((ofEntries es).find? (ofEntries es).lastHeight).isSome = true := by
  obtain ⟨e, he, hlast⟩ := (isGreatest_lastHeight hne).1
  rw [Option.isSome_iff_ne_none, ne_eq, find?_ofEntries_eq_none_iff]
  intro hnone
  -- whoever has the last height as its end covers it
  have hcovers := covers_last (hes e he)
  rw [hlast, hnone e he] at hcovers
  cases hcovers

theorem find?_above_lastHeight (h : (ofEntries es).lastHeight < height) :
    (ofEntries es).find? height = none := by
  refine find?_ofEntries_eq_none_iff.mpr fun e he => ?_
  have hlast : e.last ≤ (ofEntries es).lastHeight :=
    (isGreatest_lastHeight (List.ne_nil_of_mem he)).2 ⟨e, he, rfl⟩
  rw [Bool.eq_false_iff, ne_eq, covers_iff]
  exact fun hcovers => UInt32.not_lt.mpr (UInt32.le_trans hcovers.2 hlast) h

/-- The entries of a directory are those that were listed, ordered by their ranges; segments of one range
keep their order, and if there are none, any other listing gives the same directory. At a height that
nobody covers nothing is found, else the first by range of those that cover it, however they overlap. The
last height is the highest end of all; there is a segment at it and none above it. So listing a folder does
not depend on the order of its items, if no two segments in it have the same range. -/
theorem lookup_ignores_listing_order :
    (∀ es : List SegmentEntry, (∀ e ∈ es, ofName? e.fileName = some e) →
      let d := ofEntries es
      (d.entries.Perm es ∧ d.entries.Pairwise Precedes ∧
        ∀ r, d.entries.filter (·.range = r) = es.filter (·.range = r)) ∧
      (∀ fs, es.Perm fs → (es.map range).Nodup → ofEntries fs = d) ∧
      (∀ height, (d.find? height = none ↔ ∀ e ∈ es, e.covers height = false) ∧
        ∀ e, d.find? height = some e ↔ IsFirst Precedes (es.filter (·.covers height)) e) ∧
      (es = [] → d.lastHeight = 0) ∧
      (es ≠ [] → IsGreatest {height | ∃ e ∈ es, e.last = height} d.lastHeight ∧
        (d.find? d.lastHeight).isSome = true) ∧
      ∀ height, d.lastHeight < height → d.find? height = none) ∧
    ∀ items items' : List (FileName × Item), items.Perm items' →
      ((Storage.folder items).segments.map range).Nodup →
      (Storage.folder items').scan = (Storage.folder items).scan := by
  constructor
  · intro es hes d
    refine ⟨⟨perm_stableSort rangeLE es, pairwise_ofEntries es, filter_range_ofEntries es⟩,
      ?_, ?_, ?_, ?_, ?_⟩
    · exact fun fs hperm hdistinct => (ofEntries_perm hperm hdistinct).symm
    · exact fun height => ⟨find?_ofEntries_eq_none_iff, fun e => find?_ofEntries_eq_some_iff⟩
    · rintro rfl
      rfl
    · exact fun hne => ⟨isGreatest_lastHeight hne, isSome_find?_lastHeight hne hes⟩
    · exact fun height habove => find?_above_lastHeight habove
  · intro items items' hperm hdistinct
    exact congrArg Except.ok (ofEntries_perm (hperm.filterMap Storage.entry?) hdistinct).symm

/-- The ranges 5–20, 1–10, 5–20 once more under another name, and 3–9. -/
def overlapping : List SegmentEntry :=
  [⟨"5-20.dat", 5, 20, 15⟩, ⟨"1-10.dat", 1, 10, 9⟩, ⟨"05-20.bak", 5, 20, 15⟩, ⟨"3-9.dat", 3, 9, 6⟩]

/-- At 7 all four overlap and the range 1–10 is found, at 15 the first that was listed of two. -/
theorem lookup_ignores_listing_order_overlapping :
    let d := ofEntries overlapping
    let others := overlapping.filter (·.fileName ≠ "05-20.bak")
    d.find? 7 = some ⟨"1-10.dat", 1, 10, 9⟩ ∧ d.find? 15 = some ⟨"5-20.dat", 5, 20, 15⟩ ∧
    d.find? 21 = none ∧ (d.find? d.lastHeight).isSome = true ∧
    ofEntries others.reverse = ofEntries others ∧
    (Storage.folder [(.text "1-10.dat", .file []), (.text "5-20.dat", .file [])]).scan =
      (Storage.folder [(.text "5-20.dat", .file []), (.text "1-10.dat", .file [])]).scan := by
  intro d others
  obtain ⟨hlisted, hscan⟩ := lookup_ignores_listing_order
  obtain ⟨-, -, hfind, -, hlast, habove⟩ := hlisted overlapping (by decide)
  obtain ⟨-, hothers, -⟩ := hlisted others (by decide)
  refine ⟨((hfind 7).2 _).mpr ⟨[⟨"5-20.dat", 5, 20, 15⟩], _, rfl, by decide, by decide⟩,
    ((hfind 15).2 _).mpr ⟨[], _, rfl, nofun, by decide⟩, habove 21 (by decide),
    (hlast (by decide)).2, hothers _ (List.reverse_perm others).symm (by decide),
    hscan _ _ (List.Perm.swap _ _ _) (by decide)⟩

end Directory
end ChainNode.Archive
