import ChainNode.Archive.Reader
import ChainNode.Proofs.Archive.Storage

/-!
# What the reader finds and what it keeps

A block is read from the file that the directory names for its height, so what is found depends on the
directory only through that name. The snapshot that a call leaves is the one it found, none, or the
directory as it is listed at that time.
-/

namespace ChainNode.Archive

variable {storage : Storage} {height : UInt32} {d : Directory} {e : SegmentEntry} {b : Block}
  {segment : Bytes} {record : SerializedBlock} {s t u : Snapshot} {a : State}

namespace Reader

/-! ## Looking up a block -/

/-- The block of `height` in the file of a segment. -/
def blockIn (segment : Bytes) (height : UInt32) : Option Block :=
  match Segment.record segment height with
  | .ok record => orNone (some <$> decodeAt height record)
  | .error _ => none

theorem fetchBlock_none : fetchBlock storage height none =
    match storage.scan with
    | .ok d => fetchBlock storage height (some d)
    | .error _ => (none, none) := by
  unfold fetchBlock tryBlock trySerialized directory
  cases storage.scan <;> rfl

theorem fetchBlock_some : fetchBlock storage height (some d) =
    match d.find? height with
    | none => (none, none)
    | some entry =>
      match storage.open? (.text entry.fileName) with
      | none => (none, none)
      | some .folder => (none, some d)
      | some (.file segment) => (blockIn segment height, some d) := by
  have hlisted : trySerialized storage height (some d) = readListed storage d height := rfl
  unfold fetchBlock tryBlock
  rw [hlisted]
  unfold readListed blockIn
  cases d.find? height with
  | none => rfl
  | some entry =>
    simp only
    cases storage.open? (.text entry.fileName) with
    | none => rfl
    | some item =>
      cases item with
      | folder => rfl
      | file segment =>
        simp only
        cases Segment.record segment height <;> rfl

theorem decodeAt_eq_ok_iff :
    decodeAt height record = .ok b ↔ record.version.decode record.bytes = .ok b ∧ b.height = height := by
  unfold decodeAt
  cases hdecode : record.version.decode record.bytes with
  | error e => exact ⟨nofun, nofun⟩
  | ok c =>
    show (if c.height ≠ height then _ else _) = Except.ok b ↔ _
    rw [Except.ok.injEq]
    by_cases hheight : c.height = height
    · rw [if_neg (not_not_intro hheight)]
      show Except.ok c = Except.ok b ↔ _
      rw [Except.ok.injEq]
      exact ⟨fun h => ⟨h, h ▸ hheight⟩, fun h => h.1⟩
    · rw [if_pos hheight]
      exact ⟨nofun, fun h => absurd (h.1 ▸ h.2) hheight⟩

theorem blockIn_eq_some_iff : blockIn segment height = some b ↔
    ∃ record, Segment.record segment height = .ok record ∧
      record.version.decode record.bytes = .ok b ∧ b.height = height := by
  unfold blockIn
  cases hrecord : Segment.record segment height with
  | error e => exact ⟨nofun, nofun⟩
  | ok record =>
    show orNone (some <$> decodeAt height record) = some b ↔ _
    simp only [Except.ok.injEq, exists_eq_left', ← decodeAt_eq_ok_iff]
    cases decodeAt height record with
    | error e => exact ⟨nofun, nofun⟩
    | ok c =>
      show some c = some b ↔ _
      rw [Option.some.injEq, Except.ok.injEq]

theorem height_of_fetchBlock (h : (fetchBlock storage height s).1 = some b) : b.height = height := by
  have hsome (d : Directory) (h : (fetchBlock storage height (some d)).1 = some b) :
      b.height = height := by
    rw [fetchBlock_some] at h
    split at h
    · cases h
    · split at h
      · cases h
      · cases h
      · obtain ⟨record, -, -, hheight⟩ := blockIn_eq_some_iff.mp h
        exact hheight
  cases s with
  | some d => exact hsome d h
  | none =>
    rw [fetchBlock_none] at h
    split at h
    · exact hsome _ h
    · cases h

/-! ## What a call leaves -/

/-- A call that finds `s` may leave `t`. -/
def Leaves (storage : Storage) (s t : Snapshot) : Prop :=
  t = s ∨ t = none ∨ ∃ d, storage.scan = .ok d ∧ t = some d

theorem Leaves.refl (s : Snapshot) : Leaves storage s s := Or.inl rfl

theorem Leaves.trans (hst : Leaves storage s t) (htu : Leaves storage t u) : Leaves storage s u := by
  rcases htu with rfl | hu
  · exact hst
  · exact Or.inr hu

theorem leaves_directory (s : Snapshot) : Leaves storage s (directory storage s).2 := by
  unfold directory
  cases s with
  | some d => exact Or.inl rfl
  | none =>
    cases hscan : storage.scan with
    | ok d => exact Or.inr (Or.inr ⟨d, hscan, rfl⟩)
    | error e => exact Or.inl rfl

/-- The directory that a call goes by is the one it would leave. -/
theorem snd_directory (h : (directory storage s).1 = .ok d) : (directory storage s).2 = some d := by
  unfold directory at *
  cases s with
  | some d' =>
    cases h
    rfl
  | none =>
    cases hscan : storage.scan with
    | ok d' =>
      rw [hscan] at h
      cases h
      rfl
    | error e =>
      rw [hscan] at h
      cases h

theorem snd_readListed (storage : Storage) (d : Directory) (height : UInt32) :
    (readListed storage d height).2 = none ∨ (readListed storage d height).2 = some d := by
  unfold readListed
  split
  · exact Or.inl rfl
  · split
    · exact Or.inl rfl
    · exact Or.inr rfl
    · exact Or.inr rfl

theorem leaves_trySerialized (height : UInt32) (s : Snapshot) :
    Leaves storage s (trySerialized storage height s).2 := by
  have hdirectory : Leaves storage s (directory storage s).2 := leaves_directory s
  unfold trySerialized
  cases hd : directory storage s with
  | mk answer left =>
    cases answer with
    | error e =>
      rw [hd] at hdirectory
      exact hdirectory
    | ok d =>
      have hleft : (directory storage s).2 = some d := snd_directory (by rw [hd])
      rw [hleft] at hdirectory
      rcases snd_readListed storage d height with hnone | hsome
      · exact Or.inr (Or.inl hnone)
      · simp only [hsome]
        exact hdirectory

theorem snd_tryBlock (storage : Storage) (height : UInt32) (s : Snapshot) :
    (tryBlock storage height s).2 = (trySerialized storage height s).2 := by
  unfold tryBlock
  split <;> rename_i hserialized <;> rw [hserialized]

theorem leaves_fetchBlock (height : UInt32) (s : Snapshot) :
    Leaves storage s (fetchBlock storage height s).2 := by
  show Leaves storage s (tryBlock storage height s).2
  rw [snd_tryBlock]
  exact leaves_trySerialized height s

theorem leaves_fetchSerialized (height : UInt32) (s : Snapshot) :
    Leaves storage s (fetchSerialized storage height s).2 :=
  leaves_trySerialized height s

theorem leaves_fetchIndexed (height : Except RepositoryError (Option UInt32)) (s : Snapshot) :
    Leaves storage s (fetchIndexed storage height s).2 := by
  unfold fetchIndexed
  split
  · exact leaves_fetchBlock _ s
  · exact Leaves.refl s
  · exact Leaves.refl s

theorem leaves_fetchRun (count : Nat) (height : UInt32) (s : Snapshot) :
    Leaves storage s (fetchRun storage count height s).2 := by
  -- each fetch finds the snapshot that the one before it left
  induction count generalizing height s with
  | zero => exact Leaves.refl s
  | succ count ih =>
    have hhead : Leaves storage s (fetchBlock storage height s).2 := leaves_fetchBlock height s
    unfold fetchRun
    split <;> rename_i left hfetch <;> rw [hfetch] at hhead
    · exact hhead
    · exact hhead.trans (ih (height + 1) left)

theorem leaves_lastHeight (s : Snapshot) : Leaves storage s (lastHeight storage s).2 := by
  have hdirectory : Leaves storage s (directory storage s).2 := leaves_directory s
  unfold lastHeight
  split <;> rename_i hd <;> rw [hd] at hdirectory <;> exact hdirectory

theorem leaves_segmentCount (s : Snapshot) : Leaves storage s (segmentCount storage s).2 := by
  have hdirectory : Leaves storage s (directory storage s).2 := leaves_directory s
  unfold segmentCount
  split <;> rename_i hd <;> rw [hd] at hdirectory <;> exact hdirectory

end Reader

/-! ## Steps -/

open Reader

theorem State.leaves_step (a : State) (event : Event) :
    Leaves a.storage a.snapshot (a.step event).2.snapshot := by
  cases event with
  | change change => exact Leaves.refl _
  | insertIndex block => exact Leaves.refl _
  | setIndexFailing failing => exact Leaves.refl _
  | fetchBlock height => exact leaves_fetchBlock height _
  | fetchSerialized height => exact leaves_fetchSerialized height _
  | fetchBySignature signature => exact leaves_fetchIndexed _ _
  | fetchByReference reference => exact leaves_fetchIndexed _ _
  | fetchRange first last => exact leaves_fetchRun _ _ _
  | heightForTimestamp timestamp => exact Leaves.refl _
  | lastHeight => exact leaves_lastHeight _
  | segmentCount => exact leaves_segmentCount _
  | invalidate => exact Or.inr (Or.inl rfl)

end ChainNode.Archive
