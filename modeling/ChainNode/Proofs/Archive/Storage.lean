import ChainNode.Archive.Storage
import ChainNode.Proofs.Archive.Directory
import Mathlib.Data.List.Nodup

/-!
# Listing and opening

What is listed as a segment is named for its range. A file that can be opened under such a name is among
the segments that listing the place gives.
-/

namespace ChainNode.Archive

variable {e : SegmentEntry} {s : Storage} {n : FileName} {name : String} {content : Bytes}
  {items : List (FileName × Item)} {item : Item}

namespace Storage

/-- The segments at the place, in the order in which they are listed. -/
def segments : Storage → List SegmentEntry
  | folder items => items.filterMap entry?
  | _ => []

theorem entry?_eq_some_iff {i : FileName × Item} :
    entry? i = some e ↔
      ∃ content, i = (.text e.fileName, .file content) ∧ SegmentEntry.ofName? e.fileName = some e := by
  constructor
  · intro h
    match i, h with
    | (.text name, .file content), h =>
      have hname := SegmentEntry.fileName_of_ofName? h
      exact ⟨content, by rw [hname], by rw [hname]; exact h⟩
  · rintro ⟨content, rfl, h⟩
    exact h

theorem ofName?_of_mem_segments (h : e ∈ s.segments) : SegmentEntry.ofName? e.fileName = some e := by
  cases s with
  | folder items =>
    obtain ⟨i, -, hi⟩ := List.mem_filterMap.mp h
    obtain ⟨content, -, hname⟩ := entry?_eq_some_iff.mp hi
    exact hname
  | missing => cases h
  | notAFolder => cases h

theorem scan_eq_ok {d : Directory} (h : s.scan = .ok d) : d = Directory.ofEntries s.segments := by
  cases s with
  | folder items => exact (Except.ok.inj h).symm
  | missing => exact (Except.ok.inj h).symm
  | notAFolder => cases h

theorem mem_of_lookup (h : items.lookup n = some item) : (n, item) ∈ items := by
  obtain ⟨before, behind, rfl, -⟩ := List.lookup_eq_some_iff.mp h
  exact List.mem_append_right before List.mem_cons_self

theorem lookup_of_mem (hitems : (items.map (·.1)).Nodup) (h : (n, item) ∈ items) :
    items.lookup n = some item := by
  obtain ⟨before, behind, rfl⟩ := List.append_of_mem h
  refine List.lookup_eq_some_iff.mpr ⟨before, behind, rfl, ?_⟩
  intro p hp
  -- an item before it under the same name would be a second one
  rw [List.map_append, List.map_cons] at hitems
  have hne := (List.nodup_append.mp hitems).2.2 p.1 (List.mem_map.mpr ⟨p, hp, rfl⟩) n List.mem_cons_self
  exact bne_iff_ne.mpr (Ne.symm hne)

theorem scan_of_open? (h : s.open? n = some item) : s.scan = .ok (Directory.ofEntries s.segments) := by
  cases s with
  | folder items => rfl
  | missing => cases h
  | notAFolder => cases h

theorem mem_segments_of_open? (h : s.open? (.text e.fileName) = some (.file content))
    (hname : SegmentEntry.ofName? e.fileName = some e) : e ∈ s.segments := by
  cases s with
  | folder items =>
    exact List.mem_filterMap.mpr ⟨_, mem_of_lookup h, entry?_eq_some_iff.mpr ⟨content, rfl, hname⟩⟩
  | missing => cases h
  | notAFolder => cases h

/-! ## Truncating a file -/

theorem lookup_editFile (name n : FileName) (edit : Bytes → Bytes) (items : List (FileName × Item)) :
    (editFile name edit items).lookup n = (items.lookup n).map fun
      | .file content => .file (if n = name then edit content else content)
      | .folder => .folder := by
  induction items with
  | nil => rfl
  | cons i items ih =>
    obtain ⟨m, item⟩ := i
    have hhead : editFile name edit ((m, item) :: items) =
        (m, match item with
          | .file content => .file (if m = name then edit content else content)
          | .folder => .folder) :: editFile name edit items := by
      cases item <;> rfl
    rw [hhead, List.lookup_cons, List.lookup_cons, ih]
    by_cases h : n = m
    · subst h
      simp only [beq_self_eq_true]
      cases item <;> rfl
    · simp only [beq_false_of_ne h]

/-- Listing looks at names and at what is a file, not into files. -/
theorem filterMap_entry?_editFile (name : FileName) (edit : Bytes → Bytes)
    (items : List (FileName × Item)) :
    (editFile name edit items).filterMap entry? = items.filterMap entry? := by
  rw [editFile, List.filterMap_map]
  apply List.filterMap_congr
  rintro ⟨n, item⟩ -
  cases n <;> cases item <;> rfl

theorem scan_truncate (s : Storage) (name : FileName) (count : Nat) :
    (s.apply (.truncate name count)).scan = s.scan := by
  cases s with
  | folder items =>
    show Except.ok (Directory.ofEntries ((editFile name _ items).filterMap entry?)) = _
    rw [filterMap_entry?_editFile]
    rfl
  | missing => rfl
  | notAFolder => rfl

/-- What can be opened is as it was, or the beginning of what it was. -/
theorem open?_truncate (s : Storage) (name : FileName) (count : Nat) (n : FileName) :
    (s.apply (.truncate name count)).open? n = s.open? n ∨
      ∃ p f, p <+: f ∧ (s.apply (.truncate name count)).open? n = some (.file p) ∧
        s.open? n = some (.file f) := by
  cases s with
  | missing => exact Or.inl rfl
  | notAFolder => exact Or.inl rfl
  | folder items =>
    show (editFile name _ items).lookup n = items.lookup n ∨ ∃ p f, p <+: f ∧
      (editFile name _ items).lookup n = some (.file p) ∧ items.lookup n = some (.file f)
    rw [lookup_editFile]
    cases items.lookup n with
    | none => exact Or.inl rfl
    | some item =>
      cases item with
      | folder => exact Or.inl rfl
      | file f =>
        by_cases h : n = name
        · simp only [h, if_true, Option.map_some]
          exact Or.inr ⟨_, f, List.take_prefix _ f, rfl, rfl⟩
        · simp only [h, if_false, Option.map_some]
          exact Or.inl trivial

end Storage
end ChainNode.Archive
