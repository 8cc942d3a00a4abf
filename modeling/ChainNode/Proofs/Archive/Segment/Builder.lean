import ChainNode.Archive.Segment.Builder
import ChainNode.Proofs.Archive.Segment

/-!
# Segments as they are built

The builder counts offsets while it lines up the frames, the reader counts positions from the header. They
agree: a height's index entry stands as many entries into the index as there are heights below it, and
gives the room that the frames of these heights take.
-/

namespace ChainNode.Archive.SegmentBuilder

variable {b : SegmentBuilder} {v : RecordVersion} {height : UInt32} {lower upper : List UInt32}

/-! ## Offsets -/

theorem offsets_append (start : Nat) (fs gs : List Bytes) :
    offsets start (fs ++ gs) = offsets start fs ++ offsets (start + fs.flatten.length) gs := by
  -- `start` grows with every frame
  induction fs generalizing start with
  | nil => rfl
  | cons f fs ih =>
    rw [List.cons_append, offsets, offsets, ih, List.cons_append, List.flatten_cons, List.length_append,
      Nat.add_assoc]

theorem length_offsets (start : Nat) (fs : List Bytes) : (offsets start fs).length = fs.length := by
  induction fs generalizing start with
  | nil => rfl
  | cons f fs ih => rw [offsets, List.length_cons, List.length_cons, ih]

theorem length_flatMap_encode (width : Nat) (ns : List Nat) :
    (ns.flatMap (BigEndian.encode width)).length = width * ns.length := by
  induction ns with
  | nil => rfl
  | cons n ns ih =>
    rw [List.flatMap_cons, List.length_append, BigEndian.length_encode, ih, List.length_cons,
      Nat.mul_succ, Nat.add_comm]

/-! ## Heights -/

theorem length_heights (b : SegmentBuilder) : b.heights.length = b.last.toNat + 1 - b.first.toNat := by
  rw [heights, List.length_map, List.length_range]

/-- A covered height stands behind those between it and the first one. -/
theorem heights_split (hfirst : b.first ≤ height) (hlast : height ≤ b.last) :
    ∃ lower upper, b.heights = lower ++ height :: upper ∧
      lower.length = height.toNat - b.first.toNat := by
  rw [UInt32.le_iff_toNat_le] at hfirst hlast
  let i := height.toNat - b.first.toNat
  have hi : i < b.heights.length := by
    rw [length_heights]
    omega
  -- the range lies within 32 bits, so counting up from its first height does not wrap
  have hget : b.heights[i] = height := by
    apply UInt32.toNat_inj.mp
    have hlt := height.toNat_lt
    simp only [heights, List.getElem_map, List.getElem_range, UInt32.toNat_add, UInt32.toNat_ofNat']
    omega
  refine ⟨b.heights.take i, b.heights.drop (i + 1), ?_, ?_⟩
  · rw [← hget, ← List.drop_eq_getElem_cons hi, List.take_append_drop]
  · rw [List.length_take, Nat.min_eq_left (Nat.le_of_lt hi)]

theorem mem_heights (hfirst : b.first ≤ height) (hlast : height ≤ b.last) : height ∈ b.heights := by
  obtain ⟨lower, upper, hheights, -⟩ := heights_split hfirst hlast
  rw [hheights]
  exact List.mem_append_right lower List.mem_cons_self

/-! ## Layout -/

/-- The data region. -/
def data (b : SegmentBuilder) : Bytes := (b.heights.map b.frame).flatten

def index (b : SegmentBuilder) : Bytes :=
  (offsets 0 (b.heights.map b.frame)).flatMap (BigEndian.encode 4)

theorem build_eq (b : SegmentBuilder) : b.build = b.header ++ (b.index ++ b.data) :=
  List.append_assoc ..

theorem length_header (b : SegmentBuilder) : b.header.length = 24 + b.variableHeader.length := by
  simp only [header, List.length_append, BigEndian.length_ofInt32, BigEndian.length_ofUInt32,
    BigEndian.length_encode]
  omega

theorem length_index (b : SegmentBuilder) : b.index.length = 4 * b.heights.length := by
  rw [index, length_flatMap_encode, length_offsets, List.length_map]

/-- The numbers of the segment fit the words that they are written in. -/
structure Fits (b : SegmentBuilder) : Prop where
  range : b.first ≤ b.last
  last_lt : b.last.toNat < 2 ^ 31
  variableHeader_lt : b.variableHeader.length < 2 ^ 31
  data_lt : b.data.length < 2 ^ 31

/-- The header that is read back. -/
def readBack (b : SegmentBuilder) : SegmentHeader where
  version := b.version
  first := b.first.toInt32
  last := b.last.toInt32
  blockCount := (b.last - b.first + 1).toInt32
  indexStart := UInt64.ofNat (24 + b.variableHeader.length)

theorem Fits.heads (hb : b.Fits) : b.readBack.Heads b.build b.variableHeader.length where
  numbers := by
    rw [build_eq, header, List.append_assoc, List.append_assoc]
    exact standsAt_length [] _ _
  variable_lt := hb.variableHeader_lt
  reserved := by
    rw [build_eq, List.length_append, length_header]
    omega
  indexStart := by
    have hlt := hb.variableHeader_lt
    rw [readBack, UInt64.toNat_ofNat']
    omega

theorem Fits.toInt_last (hb : b.Fits) : b.readBack.last.toInt = b.last.toNat :=
  toInt_eq_toNat_iff.mpr ⟨rfl, hb.last_lt⟩

theorem Fits.toInt_first (hb : b.Fits) : b.readBack.first.toInt = b.first.toNat := by
  have hrange := hb.range
  rw [UInt32.le_iff_toNat_le] at hrange
  have hlast := hb.last_lt
  exact toInt_eq_toNat_iff.mpr ⟨rfl, by omega⟩

theorem standsAt_index (h : b.heights = lower ++ height :: upper) :
    StandsAt b.index (4 * lower.length)
      (BigEndian.encode 4 (lower.map b.frame).flatten.length) := by
  have hlower : ((offsets 0 (lower.map b.frame)).flatMap (BigEndian.encode 4)).length =
      4 * lower.length := by
    rw [length_flatMap_encode, length_offsets, List.length_map]
  rw [← hlower, index, h, List.map_append, offsets_append, List.map_cons, offsets, List.flatMap_append,
    List.flatMap_cons, Nat.zero_add]
  exact standsAt_length ..

theorem standsAt_data (h : b.heights = lower ++ height :: upper) :
    StandsAt b.data (lower.map b.frame).flatten.length (b.frame height) := by
  rw [data, h, List.map_append, List.flatten_append, List.map_cons, List.flatten_cons]
  exact standsAt_length ..

/-- Where the layout puts the index entry and the record of a covered height, the offset of its frame and
the frame itself stand. -/
theorem Fits.standsAt_build (hb : b.Fits) (hfirst : b.first ≤ height) (hlast : height ≤ b.last) :
    let start := 24 + b.variableHeader.length
    ∃ offset < 2 ^ 31, (b.payload height).length < 2 ^ 31 ∧
      StandsAt b.build (start + 4 * (height.toNat - b.readBack.first.toInt).toNat)
        (BigEndian.encode 4 offset) ∧
      StandsAt b.build (start + 4 * (b.readBack.last.toInt - b.readBack.first.toInt + 1).toNat + offset)
        (b.frame height) := by
  intro start
  obtain ⟨lower, upper, hheights, hlower⟩ := heights_split hfirst hlast
  let offset := (lower.map b.frame).flatten.length
  have hentry := (standsAt_index hheights).before b.data
  have hrecord := (standsAt_data hheights).behind b.index
  -- both the offset and the payload are bounded by the data region
  have hroom := (standsAt_data hheights).length_le
  rw [List.length_drop, frame, List.length_append, List.length_append, BigEndian.length_ofInt32,
    BigEndian.length_encode] at hroom
  have hdata := hb.data_lt
  have hrange := hb.range
  rw [UInt32.le_iff_toNat_le] at hfirst hlast hrange
  refine ⟨offset, ?_, ?_, ?_, ?_⟩
  · show (lower.map b.frame).flatten.length < 2 ^ 31
    omega
  · omega
  · have hposition : start + 4 * (height.toNat - b.readBack.first.toInt).toNat =
        b.header.length + 4 * lower.length := by
      rw [length_header, hb.toInt_first, hlower]
      omega
    rw [hposition, build_eq]
    exact hentry.behind b.header
  · have hposition :
        start + 4 * (b.readBack.last.toInt - b.readBack.first.toInt + 1).toNat + offset =
          b.header.length + (b.index.length + offset) := by
      rw [length_header, length_index, length_heights, hb.toInt_first, hb.toInt_last]
      omega
    rw [hposition, build_eq]
    exact hrecord.behind b.header

theorem Fits.covers_readBack (hb : b.Fits) :
    b.readBack.covers height = true ↔ b.first ≤ height ∧ height ≤ b.last := by
  rw [SegmentHeader.covers_iff, hb.toInt_first, hb.toInt_last, UInt32.le_iff_toNat_le,
    UInt32.le_iff_toNat_le, Int.ofNat_le, Int.ofNat_le]

/-! ## Reading back -/

/-- What the builder writes under a height is what the reader finds under it. -/
theorem record_build (hb : b.Fits) (hversion : b.version = v.format) (hfirst : b.first ≤ height)
    (hlast : height ≤ b.last) (hframed : b.framedHeight height = height.toInt32) :
    Segment.record b.build height = .ok ⟨height, v, b.payload height⟩ := by
  obtain ⟨offset, hoffset, hlength, hentry, hrecord⟩ := hb.standsAt_build hfirst hlast
  obtain ⟨hfirst', hlast'⟩ := SegmentHeader.covers_iff.mp (hb.covers_readBack.mpr ⟨hfirst, hlast⟩)
  have hframe : b.frame height = BigEndian.ofUInt32 height ++
      BigEndian.encode 4 (b.payload height).length ++ b.payload height := by
    rw [frame, hframed]
    rfl
  rw [hframe] at hrecord
  exact Segment.record_eq_ok_iff.mpr ⟨b.readBack, b.variableHeader.length, offset, hb.heads, hversion,
    hfirst', hlast', hoffset, hentry, hlength, hrecord, rfl⟩

theorem record_build_of_unsupported (hb : b.Fits) (hversion : RecordVersion.ofFormat? b.version = none) :
    Segment.record b.build height = .error (.unsupportedVersion b.version) :=
  Segment.readRecord_of_unsupported hb.heads hversion

theorem record_build_of_outside (hb : b.Fits) (hversion : b.version = v.format)
    (hheight : height < b.first ∨ b.last < height) :
    Segment.record b.build height =
      .error (.heightOutOfRange height b.first.toInt32 b.last.toInt32) := by
  apply Segment.readRecord_of_uncovered hb.heads (RecordVersion.ofFormat?_eq_some_iff.mpr hversion)
  rw [Bool.eq_false_iff, ne_eq, hb.covers_readBack, UInt32.le_iff_toNat_le, UInt32.le_iff_toNat_le]
  rw [UInt32.lt_iff_toNat_lt, UInt32.lt_iff_toNat_lt] at hheight
  omega

/-- A record framed as one of another height is not given out. -/
theorem record_build_of_framed (hb : b.Fits) (hversion : b.version = v.format) (hfirst : b.first ≤ height)
    (hlast : height ≤ b.last) (hframed : (b.framedHeight height).toInt ≠ height.toNat) :
    Segment.record b.build height =
      .error (.heightMismatch height (b.framedHeight height).toInt) := by
  obtain ⟨offset, hoffset, -, hentry, hrecord⟩ := hb.standsAt_build hfirst hlast
  rw [frame, List.append_assoc, standsAt_append] at hrecord
  exact Segment.readRecord_of_mismatch hb.heads (RecordVersion.ofFormat?_eq_some_iff.mpr hversion)
    (hb.covers_readBack.mpr ⟨hfirst, hlast⟩) hoffset hentry hrecord.1 hframed

end ChainNode.Archive.SegmentBuilder
