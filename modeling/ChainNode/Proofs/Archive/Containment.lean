import ChainNode.Proofs.Archive.Layout
import ChainNode.Proofs.Archive.Reader

/-!
# Damage is contained

A segment that was cut off gives the records that it gave before, or says that it ends too early: never
another record. And a record needs no more of its segment than the header, its index entry and its own
bytes: whatever happens to the rest, it is read as before.
-/

namespace ChainNode.Archive

variable {α β : Type} {f g p : Bytes} {j n start count : Nat} {height : UInt32} {r : SerializedBlock}

/-! ## A file that was cut off -/

namespace Reading

variable {m : Reading α} {k : α → Reading β} {e : ArchiveError}

/-- How a reading may end on a beginning `p` of the file `f`, and on `f`: alike, or `p` does not reach as
far as the reading does. -/
inductive Cut (p f : Bytes) :
    Except ArchiveError (α × Cursor) → Except ArchiveError (α × Cursor) → Prop
  | done (x : α) (position : UInt64) : Cut p f (.ok (x, ⟨p, position⟩)) (.ok (x, ⟨f, position⟩))
  | failed (e : ArchiveError) : Cut p f (.error e) (.error e)
  | short (field : Field) (whole : Except ArchiveError (α × Cursor)) :
    Cut p f (.error (.truncated field)) whole

/-- Cutting a file off keeps what `m` reads from it, or `m` says that the file is truncated. -/
def Contained (m : Reading α) : Prop :=
  ∀ p f position, p <+: f → Cut p f (m ⟨p, position⟩) (m ⟨f, position⟩)

theorem contained_pure (x : α) : Contained (pure x) := fun _ _ position _ => .done x position

theorem contained_throw (e : ArchiveError) : Contained (throw e : Reading α) :=
  fun _ _ _ _ => .failed e

/-- Where the next reading starts depends on what was read so far, and that is the same on both files. -/
theorem Contained.bind (hm : Contained m) (hk : ∀ x, Contained (k x)) : Contained (m >>= k) := by
  intro p f position hp
  have hcut := hm p f position hp
  generalize hleft : m ⟨p, position⟩ = left at hcut
  generalize hright : m ⟨f, position⟩ = right at hcut
  cases hcut with
  | done x next =>
    rw [bind_of_ok hleft, bind_of_ok hright]
    exact hk x p f next hp
  | failed e =>
    rw [bind_of_error hleft, bind_of_error hright]
    exact .failed e
  | short field =>
    rw [bind_of_error hleft]
    exact .short field _

theorem contained_guard {c : Prop} [Decidable c] (hm : Contained m) :
    Contained (if c then (throw e : Reading Unit) >>= fun _ => m else m) := by
  split
  · exact (contained_throw e).bind fun _ => hm
  · exact hm

theorem contained_seek (position : UInt64) : Contained (seek position) :=
  fun _ _ _ _ => .done () position

theorem contained_skip (count : UInt64) : Contained (skip count) :=
  fun _ _ position _ => .done () (position + count)

theorem bytes_eq_error {count : UInt64} {field : Field} {c : Cursor}
    (h : bytes count field c = .error e) : e = .truncated field := by
  unfold bytes at h
  simp only at h
  split at h
  · cases h
  · exact (Except.error.inj h).symm

theorem contained_bytes (count : UInt64) (field : Field) : Contained (bytes count field) := by
  rintro p f position ⟨rest, rfl⟩
  cases hleft : bytes count field ⟨p, position⟩ with
  | error e =>
    rw [bytes_eq_error hleft]
    exact .short field _
  | ok done =>
    obtain ⟨part, c⟩ := done
    -- what stands in the beginning stands in the whole file
    obtain ⟨hlength, hat, rfl⟩ := bytes_eq_ok_iff.mp hleft
    have hright : bytes count field ⟨p ++ rest, position⟩ =
        .ok (part, ⟨p ++ rest, position + count⟩) :=
      bytes_eq_ok_iff.mpr ⟨hlength, hat.before rest, rfl⟩
    rw [hright]
    exact .done _ _

theorem contained_int32 (field : Field) : Contained (int32 field) := by
  rw [int32, map_eq_pure_bind]
  exact (contained_bytes 4 field).bind fun _ => contained_pure _

theorem contained_nonNegative (v : Int32) (quantity : Quantity) : Contained (nonNegative v quantity) := by
  unfold nonNegative
  split
  · exact contained_throw _
  · exact contained_pure _

end Reading

namespace Segment

open Reading

theorem contained_readHeader : Contained readHeader := by
  unfold readHeader
  refine (contained_seek 0).bind fun _ => ?_
  refine (contained_int32 _).bind fun version => (contained_int32 _).bind fun first => ?_
  refine (contained_int32 _).bind fun last => (contained_int32 _).bind fun blockCount => ?_
  refine (contained_int32 _).bind fun value => (contained_nonNegative value _).bind fun length => ?_
  exact (contained_skip length).bind fun _ => (contained_int32 _).bind fun _ => contained_pure _

theorem contained_readRecord (height : UInt32) : Contained (readRecord height) := by
  unfold readRecord
  refine contained_readHeader.bind fun header => ?_
  cases RecordVersion.ofFormat? header.version with
  | none => exact contained_throw _
  | some version =>
    refine contained_guard ?_
    refine (contained_seek _).bind fun _ => ?_
    refine (contained_int32 _).bind fun value => (contained_nonNegative value _).bind fun offset => ?_
    refine (contained_seek _).bind fun _ => (contained_int32 _).bind fun recordHeight => ?_
    refine contained_guard ?_
    refine (contained_int32 _).bind fun value => (contained_nonNegative value _).bind fun length => ?_
    exact (contained_bytes length _).bind fun _ => contained_pure _

theorem record_of_prefix (hp : p <+: f) (height : UInt32) :
    record p height = record f height ∨ ∃ field, record p height = .error (.truncated field) := by
  have hcut := contained_readRecord height p f 0 hp
  -- the answer leaves out where the reading stopped and in which file
  show Prod.fst <$> readRecord height ⟨p, 0⟩ = Prod.fst <$> readRecord height ⟨f, 0⟩ ∨
    ∃ field, Prod.fst <$> readRecord height ⟨p, 0⟩ = .error (.truncated field)
  generalize readRecord height ⟨p, 0⟩ = left at hcut
  generalize readRecord height ⟨f, 0⟩ = right at hcut
  cases hcut with
  | done x position => exact Or.inl rfl
  | failed e => exact Or.inl rfl
  | short field => exact Or.inr ⟨field, rfl⟩

end Segment

/-! ## Fetching from a file that was cut off -/

namespace Reader

variable (storage : Storage) (name : FileName) (count : Nat) (height : UInt32) (snapshot : Snapshot)

/-- A record that was found before is found or not found; the snapshot that is left is the same. -/
theorem readListed_truncate (d : Directory) :
    readListed (storage.apply (.truncate name count)) d height = readListed storage d height ∨
      ∃ field, readListed (storage.apply (.truncate name count)) d height =
        (.error (.truncated field), (readListed storage d height).2) := by
  unfold readListed
  cases d.find? height with
  | none => exact Or.inl rfl
  | some entry =>
    simp only
    rcases Storage.open?_truncate storage name count (.text entry.fileName) with hsame | hcut
    · rw [hsame]
      exact Or.inl rfl
    · obtain ⟨p, f, hp, hopen, hwhole⟩ := hcut
      rw [hopen, hwhole]
      rcases Segment.record_of_prefix hp height with hrecord | ⟨field, hrecord⟩
      · simp only [hrecord]
        exact Or.inl trivial
      · simp only [hrecord]
        exact Or.inr ⟨field, rfl⟩

theorem trySerialized_truncate :
    trySerialized (storage.apply (.truncate name count)) height snapshot =
        trySerialized storage height snapshot ∨
      ∃ field, trySerialized (storage.apply (.truncate name count)) height snapshot =
        (.error (.truncated field), (trySerialized storage height snapshot).2) := by
  have hdirectory : directory (storage.apply (.truncate name count)) snapshot =
      directory storage snapshot := by
    unfold directory
    rw [Storage.scan_truncate]
  unfold trySerialized
  rw [hdirectory]
  split
  · exact readListed_truncate storage name count height _
  · exact Or.inl rfl

theorem fetchSerialized_truncate :
    fetchSerialized (storage.apply (.truncate name count)) height snapshot =
        fetchSerialized storage height snapshot ∨
      fetchSerialized (storage.apply (.truncate name count)) height snapshot =
        (none, (fetchSerialized storage height snapshot).2) := by
  unfold fetchSerialized
  rcases trySerialized_truncate storage name count height snapshot with hsame | ⟨field, hcut⟩
  · exact Or.inl (by rw [hsame])
  · exact Or.inr (by rw [hcut]; rfl)

theorem fetchBlock_truncate :
    fetchBlock (storage.apply (.truncate name count)) height snapshot =
        fetchBlock storage height snapshot ∨
      fetchBlock (storage.apply (.truncate name count)) height snapshot =
        (none, (fetchBlock storage height snapshot).2) := by
  have hsnapshot : (fetchBlock storage height snapshot).2 = (trySerialized storage height snapshot).2 :=
    snd_tryBlock storage height snapshot
  rw [hsnapshot]
  unfold fetchBlock tryBlock
  rcases trySerialized_truncate storage name count height snapshot with hsame | ⟨field, hcut⟩
  · exact Or.inl (by rw [hsame])
  · exact Or.inr (by rw [hcut]; rfl)

end Reader

/-! ## A file that was changed elsewhere -/

/-- The two files hold the same `count` bytes from `start` on, or end alike before. -/
def SameBytes (f g : Bytes) (start count : Nat) : Prop :=
  (f.drop start).take count = (g.drop start).take count

namespace SameBytes

variable (h : SameBytes f g start count)

include h

theorem part (hj : start ≤ j) (hn : j + n ≤ start + count) : SameBytes f g j n := by
  have hpart (f : Bytes) : (f.drop j).take n = (((f.drop start).take count).drop (j - start)).take n := by
    rw [List.drop_take, List.drop_drop, List.take_take, Nat.add_sub_of_le hj,
      Nat.min_eq_left (by omega)]
  unfold SameBytes at *
  rw [hpart f, hpart g, h]

theorem int32At_eq (hj : start ≤ j) (hn : j + 4 ≤ start + count) : int32At g j = int32At f j := by
  have hword : (f.drop j).take 4 = (g.drop j).take 4 := h.part hj hn
  rw [int32At, int32At, hword]

/-- The one file reaches as far as the other. -/
theorem reaches (hf : start + count ≤ f.length) (hcount : 0 < count) : start + count ≤ g.length := by
  have hlength := congrArg List.length h
  rw [List.length_take, List.length_take, List.length_drop, List.length_drop] at hlength
  omega

end SameBytes

theorem Layout.Locates.of_sameBytes {l : Layout} (hl : l.Locates f height r)
    (hheader : SameBytes f g 0 l.indexStart) (hentry : SameBytes f g (l.entryStart height) 4)
    (hrecord : SameBytes f g l.recordStart (8 + r.bytes.length)) : l.Locates g height r := by
  -- the header's numbers lie in its first 24 bytes, however long its variable part is
  have hindex : 24 ≤ l.indexStart := Nat.le_add_right 24 l.variableLength
  have hnumber {j : Nat} (hj : j + 4 ≤ 24) : int32At g j = int32At f j :=
    hheader.int32At_eq (Nat.zero_le j) (by omega)
  have hroom := hl.record
  have hbytes : (f.drop (l.recordStart + 8)).take r.bytes.length =
      (g.drop (l.recordStart + 8)).take r.bytes.length := hrecord.part (by omega) (by omega)
  refine ⟨?_, ?_, ?_, ?_, ?_, hl.first_le, hl.le_last, ?_, ?_, ?_, ?_, ?_, hl.height⟩
  · rw [hnumber (by decide)]
    exact hl.version
  · rw [hnumber (by decide)]
    exact hl.first
  · rw [hnumber (by decide)]
    exact hl.last
  · rw [hnumber (by decide)]
    exact hl.variableLength
  · have hreaches := hheader.reaches (by rw [Nat.zero_add]; exact hl.header) (by omega)
    omega
  · rw [hentry.int32At_eq (Nat.le_refl _) (Nat.le_refl _)]
    exact hl.entry
  · rw [hrecord.int32At_eq (Nat.le_refl _) (by omega)]
    exact hl.recordHeight
  · rw [hrecord.int32At_eq (by omega) (by omega)]
    exact hl.recordLength
  · have hreaches := hrecord.reaches (by omega) (by omega)
    omega
  · rw [← hbytes]
    exact hl.bytes

namespace Segment

/-- Cutting a file off leaves the answer for a height as it is or makes it a truncation, so that a fetch
through any snapshot finds what it found before or nothing. And where a record is found, it is found in
every file with the same header, the same index entry for its height and the same bytes for the record
itself, whatever else that file holds. -/
theorem record_contains_damage (f : Bytes) (height : UInt32) :
    (∀ p, p <+: f →
      record p height = record f height ∨ ∃ field, record p height = .error (.truncated field)) ∧
    (∀ (a : State) (name : FileName) (count : Nat),
      let cut := (a.step (.change (.truncate name count))).2
      ((cut.step (.fetchBlock height)).1 = (a.step (.fetchBlock height)).1 ∨
        (cut.step (.fetchBlock height)).1 = .block none) ∧
      ((cut.step (.fetchSerialized height)).1 = (a.step (.fetchSerialized height)).1 ∨
        (cut.step (.fetchSerialized height)).1 = .serialized none)) ∧
    ∀ r, record f height = .ok r → ∃ l : Layout, l.Locates f height r ∧
      ∀ g, SameBytes f g 0 l.indexStart → SameBytes f g (l.entryStart height) 4 →
        SameBytes f g l.recordStart (8 + r.bytes.length) → record g height = .ok r := by
  refine ⟨fun p hp => record_of_prefix hp height, ?_, ?_⟩
  · intro a name count cut
    have hblock : (cut.step (.fetchBlock height)).1 =
        .block (Reader.fetchBlock (a.storage.apply (.truncate name count)) height a.snapshot).1 := rfl
    have hserialized : (cut.step (.fetchSerialized height)).1 =
        .serialized
          (Reader.fetchSerialized (a.storage.apply (.truncate name count)) height a.snapshot).1 := rfl
    rw [hblock, hserialized]
    constructor
    · rcases Reader.fetchBlock_truncate a.storage name count height a.snapshot with hsame | hnone
      · exact Or.inl (by rw [hsame]; rfl)
      · exact Or.inr (by rw [hnone])
    · rcases Reader.fetchSerialized_truncate a.storage name count height a.snapshot with hsame | hnone
      · exact Or.inl (by rw [hsame]; rfl)
      · exact Or.inr (by rw [hnone])
  · intro r hr
    obtain ⟨l, hl⟩ := readRecord_eq_ok_iff_locates.mp hr
    refine ⟨l, hl, fun g hheader hentry hrecord => ?_⟩
    exact readRecord_eq_ok_iff_locates.mpr ⟨l, hl.of_sameBytes hheader hentry hrecord⟩

/-- `oddSegment` with another entry before that of height 0, another gap and nothing behind. -/
def patchedSegment : Bytes :=
  [0, 0, 0, 2, 0xff, 0xff, 0xff, 0xff, 0, 0, 0, 0, 0, 0, 0, 9, 0, 0, 0, 1, 7, 0, 0, 0, 0] ++
    [1, 2, 3, 4, 0, 0, 0, 2] ++ [8, 8, 0, 0, 0, 0, 0, 0, 0, 1, 0xab]

theorem record_contains_damage_odd :
    let r : SerializedBlock := ⟨0, .v2, [0xab]⟩
    let a : State := { storage := .folder [(.text "0-0.dat", .file oddSegment)] }
    let cut := (a.step (.change (.truncate (.text "0-0.dat") 2))).2
    oddSegment.take 43 <+: oddSegment ∧
    (∃ field, record (oddSegment.take 43) 0 = .error (.truncated field)) ∧
    (a.step (.fetchSerialized 0)).1 = .serialized (some r) ∧
    (cut.step (.fetchSerialized 0)).1 = .serialized none ∧
    record oddSegment 0 = .ok r ∧ record patchedSegment 0 = .ok r := by
  intro r a cut
  have hp : oddSegment.take 43 <+: oddSegment := List.take_prefix 43 oddSegment
  have hr : record oddSegment 0 = .ok r := by decide
  have hfound : (a.step (.fetchSerialized 0)).1 = .serialized (some r) := by decide +kernel
  obtain ⟨hbeginning, hfetch, hrecord⟩ := record_contains_damage oddSegment 0
  obtain ⟨l, hl, hpatched⟩ := hrecord r hr
  -- the file determines the layout, so it is the one that is known
  have hlayout : l = ⟨-1, 0, 1, 2⟩ := hl.layout_eq locates_oddSegment
  subst hlayout
  refine ⟨hp, (hbeginning _ hp).resolve_left (by decide), hfound, ?_, hr, ?_⟩
  · exact (hfetch a (.text "0-0.dat") 2).2.resolve_left (by decide +kernel)
  · exact hpatched patchedSegment (by unfold SameBytes; decide) (by unfold SameBytes; decide)
      (by unfold SameBytes; decide)

end Segment
end ChainNode.Archive
