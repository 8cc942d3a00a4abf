import ChainNode.Proofs.Archive.Segment

/-!
# The layout in numbers

A segment is known by a few signed numbers at fixed distances: those of the header, one in the index and
two before the record. A record is read exactly if these numbers are there and make sense, and they alone
say where it stands. The positions are computed with 64 bits, and no step of it wraps around.
-/

namespace ChainNode.Archive

variable {f : Bytes} {j n : Nat} {height : UInt32} {r : SerializedBlock} {s : SegmentHeader}

/-! ## Numbers in a file -/

/-- The signed number, highest byte first, in the four bytes of `f` from `j` on. -/
def int32At (f : Bytes) (j : Nat) : Option Int :=
  let word := (f.drop j).take 4
  if word.length = 4 then some (BigEndian.toInt32 word).toInt else none

theorem int32At_eq_some_iff {v : Int} :
    int32At f j = some v ↔ ∃ w : Int32, w.toInt = v ∧ StandsAt f j (BigEndian.ofInt32 w) := by
  simp only [standsAt_iff, BigEndian.length_ofInt32]
  unfold int32At
  constructor
  · intro h
    simp only at h
    split at h
    · rename_i hlength
      exact ⟨BigEndian.toInt32 ((f.drop j).take 4), Option.some.inj h,
        (BigEndian.ofInt32_toInt32 hlength).symm⟩
    · cases h
  · rintro ⟨w, rfl, hw⟩
    simp only [hw, BigEndian.length_ofInt32, if_true, BigEndian.toInt32_ofInt32]

theorem int32At_eq_toInt_iff {w : Int32} :
    int32At f j = some w.toInt ↔ StandsAt f j (BigEndian.ofInt32 w) := by
  rw [int32At_eq_some_iff]
  constructor
  · rintro ⟨w', hw, hat⟩
    rw [← Int32.toInt_inj.mp hw]
    exact hat
  · intro hat
    exact ⟨w, rfl, hat⟩

/-- A number that is not negative stands there as its four lowest bytes. -/
theorem int32At_eq_natCast_iff :
    int32At f j = some (n : Int) ↔ n < 2 ^ 31 ∧ StandsAt f j (BigEndian.encode 4 n) := by
  rw [int32At_eq_some_iff]
  constructor
  · rintro ⟨w, hw, hat⟩
    have hlt := w.toUInt32.toNat_lt
    rw [toInt_int32] at hw
    have hn : w.toUInt32.toNat = n := by split at hw <;> omega
    rw [← hn]
    exact ⟨by split at hw <;> omega, hat⟩
  · rintro ⟨hn, hat⟩
    obtain ⟨w, hw, hwn, hwe⟩ := exists_int32_of_lt hn
    rw [← hwe] at hat
    exact ⟨w, by rw [toInt_int32_of_nonneg hw, hwn], hat⟩

/-! ## Where the parts stand -/

/-- The numbers of a segment that say where the record of a height stands. -/
structure Layout where
  first : Int
  last : Int
  /-- How many bytes the variable part of the header takes. -/
  variableLength : Nat
  /-- Where the record starts in the data region, by its index entry. -/
  offset : Nat

namespace Layout

/-- Where the header ends and the index starts. -/
def indexStart (l : Layout) : Nat := 24 + l.variableLength

def entryStart (l : Layout) (height : UInt32) : Nat := l.indexStart + 4 * (height.toNat - l.first).toNat

def dataStart (l : Layout) : Nat := l.indexStart + 4 * (l.last - l.first + 1).toNat

def recordStart (l : Layout) : Nat := l.dataStart + l.offset

/-- Every number of the layout stands in `f` where it has to, the height is in the range, and `r` is the
record that stands where the numbers say. -/
structure Locates (l : Layout) (f : Bytes) (height : UInt32) (r : SerializedBlock) : Prop where
  version : int32At f 0 = some 1 ∧ r.version = .v1 ∨ int32At f 0 = some 2 ∧ r.version = .v2
  first : int32At f 4 = some l.first
  last : int32At f 8 = some l.last
  variableLength : int32At f 16 = some (l.variableLength : Int)
  header : l.indexStart ≤ f.length
  first_le : l.first ≤ height.toNat
  le_last : height.toNat ≤ l.last
  entry : int32At f (l.entryStart height) = some (l.offset : Int)
  recordHeight : int32At f l.recordStart = some (height.toNat : Int)
  recordLength : int32At f (l.recordStart + 4) = some (r.bytes.length : Int)
  record : l.recordStart + 8 + r.bytes.length ≤ f.length
  bytes : r.bytes = (f.drop (l.recordStart + 8)).take r.bytes.length
  height : r.height = height

/-- The file alone says where the record of a height stands. -/
theorem Locates.layout_eq {l l' : Layout} {r r' : SerializedBlock} (h : l.Locates f height r)
    (h' : l'.Locates f height r') : l = l' := by
  have hfirst : l.first = l'.first := Option.some.inj (h.first.symm.trans h'.first)
  have hlast : l.last = l'.last := Option.some.inj (h.last.symm.trans h'.last)
  have hvariable : l.variableLength = l'.variableLength :=
    Int.ofNat_inj.mp (Option.some.inj (h.variableLength.symm.trans h'.variableLength))
  -- so both look for the offset in the same place
  have hentry : l.entryStart height = l'.entryStart height := by
    rw [entryStart, entryStart, indexStart, indexStart, hfirst, hvariable]
  have hoffsetAt := h.entry
  rw [hentry] at hoffsetAt
  have hoffset : l.offset = l'.offset :=
    Int.ofNat_inj.mp (Option.some.inj (hoffsetAt.symm.trans h'.entry))
  cases l
  cases l'
  simp only at hfirst hlast hvariable hoffset
  rw [hfirst, hlast, hvariable, hoffset]

end Layout

namespace Segment

theorem format_iff : int32At f 0 = some r.version.format.toInt ↔
    int32At f 0 = some 1 ∧ r.version = .v1 ∨ int32At f 0 = some 2 ∧ r.version = .v2 := by
  cases r.version with
  | v1 => simp only [RecordVersion.format, Int32.reduceToInt, and_true, reduceCtorEq, and_false, or_false]
  | v2 => simp only [RecordVersion.format, Int32.reduceToInt, and_true, reduceCtorEq, and_false, false_or]

theorem int32At_variableLength (hs : s.Heads f n) : int32At f 16 = some (n : Int) := by
  obtain ⟨-, -, -, -, hlength⟩ := standsAt_numbers_iff.mp hs.numbers
  exact int32At_eq_natCast_iff.mpr ⟨hs.variable_lt, hlength⟩

theorem Holds.locates {offset : Nat} (h : Holds f height r s n offset) :
    Layout.Locates ⟨s.first.toInt, s.last.toInt, n, offset⟩ f height r := by
  obtain ⟨hheightAt, hlengthAt, hbytesAt⟩ := standsAt_frame_iff.mp h.record
  obtain ⟨hversion, hfirst, hlast, -, -⟩ := standsAt_numbers_iff.mp h.header.numbers
  -- the last height is a signed word, so one below it can be written in a frame
  have hheight : height.toNat < 2 ^ 31 := by
    have hle := h.le_last
    have hlt := s.last.toInt_lt
    omega
  refine ⟨format_iff.mp (int32At_eq_toInt_iff.mpr ?_), int32At_eq_toInt_iff.mpr hfirst,
    int32At_eq_toInt_iff.mpr hlast, int32At_variableLength h.header, h.header.reserved,
    h.first_le, h.le_last, int32At_eq_natCast_iff.mpr ⟨h.offset_lt, h.entry⟩,
    int32At_eq_natCast_iff.mpr ⟨hheight, hheightAt⟩,
    int32At_eq_natCast_iff.mpr ⟨h.length_lt, hlengthAt⟩, ?_, (standsAt_iff.mp hbytesAt).symm, h.height_eq⟩
  · rw [← h.version]
    exact hversion
  · have hroom := hlengthAt.length_le
    have hroom' := hbytesAt.length_le
    rw [BigEndian.length_encode, List.length_drop] at hroom
    rw [List.length_drop] at hroom'
    show 24 + n + 4 * (s.last.toInt - s.first.toInt + 1).toNat + offset + 8 + r.bytes.length ≤ f.length
    omega

theorem holds_of_locates {l : Layout} (h : l.Locates f height r) :
    ∃ s, Holds f height r s l.variableLength l.offset := by
  obtain ⟨first, hfirst, hfirstAt⟩ := int32At_eq_some_iff.mp h.first
  obtain ⟨last, hlast, hlastAt⟩ := int32At_eq_some_iff.mp h.last
  obtain ⟨hvariable, hvariableAt⟩ := int32At_eq_natCast_iff.mp h.variableLength
  obtain ⟨hoffset, hentry⟩ := int32At_eq_natCast_iff.mp h.entry
  obtain ⟨-, hheightAt⟩ := int32At_eq_natCast_iff.mp h.recordHeight
  obtain ⟨hlength, hlengthAt⟩ := int32At_eq_natCast_iff.mp h.recordLength
  have hversionAt := int32At_eq_toInt_iff.mp (format_iff.mpr h.version)
  have hheader := h.header
  unfold Layout.indexStart at hheader
  -- nobody looks at the block count, but its four bytes lie within the header
  obtain ⟨blockCount, hcountAt⟩ := exists_int32_standsAt_iff.mpr (show 12 + 4 ≤ f.length by omega)
  refine ⟨⟨r.version.format, first, last, blockCount, UInt64.ofNat (24 + l.variableLength)⟩,
    ⟨?_, hvariable, hheader, ?_⟩, rfl, ?_, ?_, hoffset, ?_, hlength, ?_, h.height⟩
  · exact standsAt_numbers_iff.mpr ⟨hversionAt, hfirstAt, hlastAt, hcountAt, hvariableAt⟩
  · have hlt : 24 + l.variableLength < 2 ^ 32 := by omega
    exact UInt64.toNat_ofNat_of_lt' (Nat.lt_trans hlt (by decide))
  · show first.toInt ≤ height.toNat
    rw [hfirst]
    exact h.first_le
  · show height.toNat ≤ last.toInt
    rw [hlast]
    exact h.le_last
  · show StandsAt f (24 + l.variableLength + 4 * (height.toNat - first.toInt).toNat) _
    rw [hfirst]
    exact hentry
  · show StandsAt f (24 + l.variableLength + 4 * (last.toInt - first.toInt + 1).toNat + l.offset) _
    rw [hfirst, hlast]
    exact standsAt_frame_iff.mpr ⟨hheightAt, hlengthAt, standsAt_iff.mpr h.bytes.symm⟩

theorem readRecord_eq_ok_iff_locates {i : UInt64} :
    (readRecord height).run' ⟨f, i⟩ = .ok r ↔ ∃ l : Layout, l.Locates f height r := by
  rw [readRecord_eq_ok_iff]
  constructor
  · rintro ⟨s, n, offset, h⟩
    exact ⟨_, h.locates⟩
  · rintro ⟨l, h⟩
    obtain ⟨s, hs⟩ := holds_of_locates h
    exact ⟨s, l.variableLength, l.offset, hs⟩

end Segment

/-! ## Positions -/

/-- Every step of the position computations behind the header `s` has the result that it has on numbers
without bounds. An index position is computed only for a height that is covered. -/
structure SegmentHeader.Exact (s : SegmentHeader) (height : UInt32) : Prop where
  distance : (height.toUInt64.toInt64 - s.first.toInt64).toInt = height.toNat - s.first.toInt
  entryDistance : s.covers height = true →
    (((height.toUInt64.toInt64 - s.first.toInt64).toUInt64 * 4).toNat : Int) =
      4 * (height.toNat - s.first.toInt)
  indexPosition : s.covers height = true →
    ((s.indexPosition height).toNat : Int) = s.indexStart.toNat + 4 * (height.toNat - s.first.toInt)
  range : (s.last.toInt64 - s.first.toInt64).toInt = s.last.toInt - s.first.toInt
  entries : (s.last.toInt64 - s.first.toInt64 + 1).toInt = s.last.toInt - s.first.toInt + 1
  indexLength : (((max (s.last.toInt64 - s.first.toInt64 + 1) 0).toUInt64 * 4).toNat : Int) =
    4 * max (s.last.toInt - s.first.toInt + 1) 0
  dataStart : (s.dataStart.toNat : Int) =
    s.indexStart.toNat + 4 * max (s.last.toInt - s.first.toInt + 1) 0
  recordStart : ∀ offset < 2 ^ 31,
    (s.dataStart + UInt64.ofNat offset).toNat = s.dataStart.toNat + offset

theorem SegmentHeader.Heads.exact (hs : s.Heads f n) (height : UInt32) : s.Exact height where
  distance := toInt_distance s height
  entryDistance hheight := by
    rw [toNat_entryDistance hheight]
    rw [covers_iff] at hheight
    omega
  indexPosition hheight := by
    rw [toNat_indexPosition hs hheight, hs.indexStart]
    rw [covers_iff] at hheight
    omega
  range := toInt_range s
  entries := toInt_entries s
  indexLength := by
    rw [toNat_indexLength]
    omega
  dataStart := by
    rw [toNat_dataStart hs, hs.indexStart]
    omega
  recordStart offset hoffset := by
    rw [(toNat_recordStart hs hoffset).1, toNat_dataStart hs]

namespace Segment

open Reading

/-- Behind a header whose variable part takes `v` bytes. -/
theorem toNat_headerPositions {v : Int32} (hv : 0 ≤ v.toInt) :
    v.toInt64.toUInt64.toInt64.toInt = v.toInt ∧
      ((20 + v.toInt64.toUInt64).toNat : Int) = 20 + v.toInt ∧
      ((20 + v.toInt64.toUInt64 + 4).toNat : Int) = 20 + v.toInt + 4 := by
  have hlt := v.toInt_lt
  have hword : (v.toInt64.toUInt64.toNat : Int) = v.toInt := by
    rw [toNat_int64_of_nonneg (by rw [Int32.toInt_toInt64]; exact hv), Int32.toInt_toInt64]
    omega
  have htwenty : (20 : UInt64).toNat = 20 := rfl
  have hfour : (4 : UInt64).toNat = 4 := rfl
  have hskip : ((20 + v.toInt64.toUInt64).toNat : Int) = 20 + v.toInt := by
    rw [toNat_add_of_lt (by omega), htwenty]
    omega
  refine ⟨Int32.toInt_toInt64 v, hskip, ?_⟩
  rw [toNat_add_of_lt (by omega), hfour]
  omega

/-- A record is read exactly if the numbers of a layout locate it, whatever else the file holds and
wherever the last reading stopped. No position wraps around on the way: not where the variable part of the
header is passed over, and not behind a header that was read. A height that this header does not cover is
refused before its index position is computed. -/
theorem readRecord_follows_layout (f : Bytes) (position : UInt64) (height : UInt32) :
    (∀ r, (readRecord height).run' ⟨f, position⟩ = .ok r ↔ ∃ l : Layout, l.Locates f height r) ∧
    (∀ v : Int32, int32At f 16 = some v.toInt → 0 ≤ v.toInt →
      v.toInt64.toUInt64.toInt64.toInt = v.toInt ∧
        ((20 + v.toInt64.toUInt64).toNat : Int) = 20 + v.toInt ∧
        ((20 + v.toInt64.toUInt64 + 4).toNat : Int) = 20 + v.toInt + 4) ∧
    ∀ s c, readHeader ⟨f, position⟩ = .ok (s, c) →
      (∃ n : Nat, int32At f 16 = some (n : Int) ∧ s.indexStart.toNat = 24 + n) ∧ s.Exact height ∧
      (s.covers height = false →
        (readRecord height).run' ⟨f, position⟩ = .error (.unsupportedVersion s.version) ∨
        (readRecord height).run' ⟨f, position⟩ = .error (.heightOutOfRange height s.first s.last)) := by
  refine ⟨fun r => readRecord_eq_ok_iff_locates, fun v _ hv => toNat_headerPositions hv, ?_⟩
  intro s c hread
  obtain ⟨⟨n, hs⟩, -⟩ := readHeader_eq_ok_iff.mp hread
  refine ⟨⟨n, int32At_variableLength hs, hs.indexStart⟩, hs.exact height, fun hheight => ?_⟩
  cases hversion : RecordVersion.ofFormat? s.version with
  | none => exact Or.inl (readRecord_of_unsupported hs hversion)
  | some version => exact Or.inr (readRecord_of_uncovered hs hversion hheight)

/-- A segment that begins below height 0. Its first index entry is negative, and a gap comes before the
record. -/
def oddSegment : Bytes :=
  [0, 0, 0, 2, 0xff, 0xff, 0xff, 0xff, 0, 0, 0, 0, 0, 0, 0, 9, 0, 0, 0, 1, 7, 0, 0, 0, 0] ++
    [0xff, 0xff, 0xff, 0xff, 0, 0, 0, 2] ++ [5, 5, 0, 0, 0, 0, 0, 0, 0, 1, 0xab, 6]

theorem locates_oddSegment : Layout.Locates ⟨-1, 0, 1, 2⟩ oddSegment 0 ⟨0, .v2, [0xab]⟩ :=
  ⟨by decide, by decide, by decide, by decide, by decide, by decide, by decide, by decide, by decide,
    by decide, by decide, by decide, rfl⟩

theorem readRecord_follows_layout_odd :
    let s : SegmentHeader := ⟨2, -1, 0, 9, 25⟩
    (readRecord 0).run' ⟨oddSegment, 77⟩ = .ok ⟨0, .v2, [0xab]⟩ ∧
    int32At oddSegment 16 = some (1 : Int32).toInt ∧ (20 + (1 : Int32).toInt64.toUInt64).toNat = 21 ∧
    readHeader ⟨oddSegment, 77⟩ = .ok (s, ⟨oddSegment, 25⟩) ∧
    s.covers 0 = true ∧ (s.indexPosition 0).toNat = 29 ∧ s.dataStart.toNat = 33 ∧
    s.covers 1 = false ∧
    (readRecord 1).run' ⟨oddSegment, 77⟩ = .error (.heightOutOfRange 1 (-1) 0) := by
  intro s
  have hlength : int32At oddSegment 16 = some (1 : Int32).toInt := by decide
  have hheader : readHeader ⟨oddSegment, 77⟩ = .ok (s, ⟨oddSegment, 25⟩) := by decide
  obtain ⟨hrecord, hvariable, hbehind⟩ := readRecord_follows_layout oddSegment 77 0
  have hexact := (hbehind s _ hheader).2.1
  have hrefused := ((readRecord_follows_layout oddSegment 77 1).2.2 s _ hheader).2.2 (by decide)
  refine ⟨(hrecord _).mpr ⟨_, locates_oddSegment⟩, hlength, ?_, hheader, by decide, ?_, ?_, by decide,
    hrefused.resolve_left (by decide)⟩
  · exact Int.ofNat_inj.mp (hvariable 1 hlength (by decide)).2.1
  · exact Int.ofNat_inj.mp (hexact.indexPosition (by decide))
  · exact Int.ofNat_inj.mp hexact.dataStart

end Segment
end ChainNode.Archive
