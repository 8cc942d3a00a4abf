import ChainNode.Archive.Segment.Builder
import ChainNode.Proofs.Archive.Reader

/-!
# A snapshot of any age

Whatever happened to the archive since it was listed, a snapshot lists names, and a name says which
heights its file covers. So a file that is found through an old snapshot is the one that a new listing
would find, and where an old snapshot finds less, it is dropped: the next call finds all there is.
-/

namespace ChainNode.Archive.Reader

variable {storage : Storage} {height : UInt32} {d : Directory} {s t : Snapshot}

/-- The entries of a snapshot; none if there is no snapshot. -/
def listed (s : Snapshot) : List SegmentEntry := (s.map (·.entries)).getD []

/-- Every entry is the one that its own file name stands for. -/
def Named (s : Snapshot) : Prop := ∀ e ∈ listed s, SegmentEntry.ofName? e.fileName = some e

theorem named_none : Named none := nofun

theorem named_of_scan (h : storage.scan = .ok d) : Named (some d) := by
  intro e he
  rw [Storage.scan_eq_ok h] at he
  exact Storage.ofName?_of_mem_segments (Directory.mem_ofEntries.mp he)

theorem Named.of_leaves (hs : Named s) (h : Leaves storage s t) : Named t := by
  rcases h with rfl | rfl | ⟨d, hscan, rfl⟩
  · exact hs
  · exact named_none
  · exact named_of_scan hscan

theorem Named.run {a : State} (ha : Named a.snapshot) (events : List Event) :
    Named (a.run events).snapshot := by
  induction events generalizing a with
  | nil => exact ha
  | cons event events ih => exact ih (ha.of_leaves (a.leaves_step event))

/-- A listed file that is still there is found by a new listing, too. -/
theorem fetchBlock_none_of_open? {e : SegmentEntry} {segment : Bytes}
    (hapart : storage.segments.Pairwise SegmentEntry.Apart)
    (hname : SegmentEntry.ofName? e.fileName = some e) (hcovers : e.covers height = true)
    (hopen : storage.open? (.text e.fileName) = some (.file segment)) :
    (fetchBlock storage height none).1 = blockIn segment height := by
  have hscan := Storage.scan_of_open? hopen
  have hfind := Directory.find?_ofEntries hapart (Storage.mem_segments_of_open? hopen hname) hcovers
  simp only [fetchBlock_none, hscan, fetchBlock_some, hfind, hopen]

theorem Named.fetchBlock (hs : Named s) (hapart : storage.segments.Pairwise SegmentEntry.Apart)
    (hfolder : ∀ e ∈ listed s, storage.open? (.text e.fileName) ≠ some .folder) :
    fetchBlock storage height s = (none, none) ∨
      (fetchBlock storage height s).1 = (fetchBlock storage height none).1 := by
  cases s with
  | none => exact Or.inr rfl
  | some d =>
    rw [fetchBlock_some]
    cases hfind : d.find? height with
    | none => exact Or.inl rfl
    | some e =>
      obtain ⟨he, hcovers⟩ := Directory.mem_of_find? hfind
      cases hopen : storage.open? (.text e.fileName) with
      | none => exact Or.inl (by simp only [hopen])
      | some item =>
        cases item with
        | folder => exact absurd hopen (hfolder e he)
        | file segment =>
          -- the name gives the entry, so a new listing has it too and nothing else covers the height
          right
          simp only [hopen]
          exact (fetchBlock_none_of_open? hapart (hs e he) hcovers hopen).symm

/-- Whatever was done to the archive while the snapshot was held: a block that is found is the one that
a reader without a snapshot finds, and it has the height asked for. A block that is missed is found by
the same call made again. -/
theorem fetchBlock_heals (storage : Storage) (index : Index) (events : List Event) (height : UInt32) :
    let a := State.run { storage, index } events
    let fetch := Reader.fetchBlock a.storage height
    let fresh := (fetch none).1
    a.storage.segments.Pairwise SegmentEntry.Apart →
    (∀ e ∈ listed a.snapshot, a.storage.open? (.text e.fileName) ≠ some .folder) →
    ((fetch a.snapshot).1 = none ∨ (fetch a.snapshot).1 = fresh) ∧
    (∀ b, (fetch a.snapshot).1 = some b → b.height = height) ∧
    ∀ b, (fetch a.snapshot).1 = none → fresh = some b →
      (fetch a.snapshot).2 = none ∧ (fetch (fetch a.snapshot).2).1 = some b := by
  intro a fetch fresh hapart hfolder
  have hnamed : Named a.snapshot := Named.run named_none events
  have hcases : fetch a.snapshot = (none, none) ∨ (fetch a.snapshot).1 = fresh :=
    hnamed.fetchBlock hapart hfolder
  refine ⟨?_, fun b hb => height_of_fetchBlock hb, ?_⟩
  · rcases hcases with hmissed | hsame
    · exact Or.inl (by rw [hmissed])
    · exact Or.inr hsame
  · intro b hmissed hfresh
    -- a miss that differs from a new listing has dropped the snapshot, so the next call lists anew
    rcases hcases with hdropped | hsame
    · rw [hdropped]
      exact ⟨rfl, hfresh⟩
    · rw [hsame, hfresh] at hmissed
      cases hmissed

/-- The archive is listed with one segment, then a second one comes. -/
def growth : List Event :=
  [.change (.write (.text "1-1.dat") (SegmentBuilder.v1 1 1).build), .fetchBlock 1,
    .change (.write (.text "2-2.dat") (SegmentBuilder.v2 2 2).build)]

/-- The second segment is missed once and found after that. -/
theorem fetchBlock_heals_growth :
    let a := State.run { storage := .folder [] } growth
    let fetch := Reader.fetchBlock a.storage 2
    a.snapshot ≠ none ∧ a.storage.segments.Pairwise SegmentEntry.Apart ∧
    (∀ e ∈ listed a.snapshot, a.storage.open? (.text e.fileName) ≠ some .folder) ∧
    (fetch a.snapshot).1 = none ∧ (fetch none).1 = some (Sample.blockV2 2) ∧
    (fetch a.snapshot).2 = none ∧ (fetch (fetch a.snapshot).2).1 = some (Sample.blockV2 2) := by
  intro a fetch
  have hapart : a.storage.segments.Pairwise SegmentEntry.Apart := by decide +kernel
  have hfolder : ∀ e ∈ listed a.snapshot, a.storage.open? (.text e.fileName) ≠ some .folder := by
    decide +kernel
  have hmissed : (fetch a.snapshot).1 = none := by decide +kernel
  have hfresh : (fetch none).1 = some (Sample.blockV2 2) := by decide +kernel
  exact ⟨by decide +kernel, hapart, hfolder, hmissed, hfresh,
    (fetchBlock_heals (.folder []) {} growth 2 hapart hfolder).2.2 _ hmissed hfresh⟩

/-- The segment is listed, and then a file takes the place of the folder. -/
example :
    let a := State.run { storage := .folder [] } [
      .change (.write (.text "1-1.dat") (SegmentBuilder.v1 1 1).build), .fetchBlock 1,
      .change .destroy, .change .obstruct]
    let fetch := Reader.fetchBlock a.storage 1
    a.snapshot ≠ none ∧ a.storage = .notAFolder ∧ (fetch a.snapshot).1 = none ∧
      (fetch a.snapshot).2 = none ∧ (fetch none).1 = none := by
  decide +kernel

end ChainNode.Archive.Reader
