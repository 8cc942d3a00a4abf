import ChainNode.Archive.Segment
import ChainNode.Proofs.Archive.Steps
import ChainNode.Proofs.Bytes.SignedWords
import Mathlib.Data.List.Basic

/-!
# Where a record stands

Reading a record jumps through the segment, from the header to the index to the data region. A record
is read exactly where every number on this way stands at the position that the layout gives it; what
stands anywhere else is of no account. No position that is computed on the way wraps around.
-/

namespace ChainNode.Archive

variable {α : Type} {f part p q : Bytes} {i : UInt64} {j n : Nat} {v : Int32} {x : α} {c : Cursor}
  {field : Field} {quantity : Quantity} {s : SegmentHeader} {height : UInt32} {r : SerializedBlock}

/-! ## Parts -/

/-- `part` stands in `f` from position `j` on. -/
def StandsAt (f : Bytes) (j : Nat) (part : Bytes) : Prop := part <+: f.drop j

theorem standsAt_iff : StandsAt f j part ↔ (f.drop j).take part.length = part := by
  rw [StandsAt, List.prefix_iff_eq_take, eq_comm]

theorem standsAt_append : StandsAt f j (p ++ q) ↔ StandsAt f j p ∧ StandsAt f (j + p.length) q := by
  unfold StandsAt
  rw [← List.drop_drop]
  constructor
  · rintro ⟨rest, hrest⟩
    rw [List.append_assoc] at hrest
    refine ⟨⟨q ++ rest, hrest⟩, rest, ?_⟩
    rw [← hrest, List.drop_left]
  · rintro ⟨⟨rest, hrest⟩, hq⟩
    rw [← hrest, List.drop_left] at hq
    rw [← hrest]
    exact (List.prefix_append_right_inj p).mpr hq

theorem standsAt_length (before part behind : Bytes) :
    StandsAt (before ++ (part ++ behind)) before.length part := by
  unfold StandsAt
  rw [List.drop_left]
  exact List.prefix_append part behind

/-- Bytes put behind change nothing. -/
theorem StandsAt.before (h : StandsAt f j part) (g : Bytes) : StandsAt (f ++ g) j part := by
  unfold StandsAt at *
  rw [List.drop_append]
  exact h.trans (List.prefix_append _ _)

/-- Bytes put before move it along. -/
theorem StandsAt.behind (h : StandsAt f j part) (g : Bytes) :
    StandsAt (g ++ f) (g.length + j) part := by
  unfold StandsAt at *
  rw [← List.drop_drop, List.drop_left]
  exact h

theorem exists_int32_standsAt_iff : (∃ v, StandsAt f j (BigEndian.ofInt32 v)) ↔ j + 4 ≤ f.length := by
  constructor
  · rintro ⟨v, hv⟩
    have hlen := hv.length_le
    rw [BigEndian.length_ofInt32, List.length_drop] at hlen
    omega
  · intro h
    have hlen : ((f.drop j).take 4).length = 4 := by
      rw [List.length_take, List.length_drop]
      omega
    refine ⟨BigEndian.toInt32 ((f.drop j).take 4), ?_⟩
    rw [BigEndian.ofInt32_toInt32 hlen]
    exact List.take_prefix 4 (f.drop j)

/-! ## Reading steps

What it takes for a step and what follows it to succeed. -/

namespace Reading

theorem bind_seek {position : UInt64} {k : Unit → Reading α} :
    (seek position >>= k) ⟨f, i⟩ = k () ⟨f, position⟩ := rfl

theorem bind_skip {count : UInt64} {k : Unit → Reading α} :
    (skip count >>= k) ⟨f, i⟩ = k () ⟨f, i + count⟩ := rfl

theorem bytes_eq_ok_iff {count : UInt64} :
    bytes count field ⟨f, i⟩ = .ok (part, c) ↔
      part.length = count.toNat ∧ StandsAt f i.toNat part ∧ c = ⟨f, i + count⟩ := by
  rw [standsAt_iff]
  unfold bytes
  constructor
  · intro h
    simp only at h
    split at h
    · rename_i hlen
      cases h
      exact ⟨hlen, by rw [hlen], rfl⟩
    · cases h
  · rintro ⟨hlen, hpart, rfl⟩
    rw [hlen] at hpart
    simp only [hpart, hlen, if_true]

theorem bind_bytes_eq_ok_iff {count : UInt64} {k : Bytes → Reading α} :
    (bytes count field >>= k) ⟨f, i⟩ = .ok (x, c) ↔
      ∃ part, part.length = count.toNat ∧ StandsAt f i.toNat part ∧
        k part ⟨f, i + count⟩ = .ok (x, c) := by
  simp only [bind_eq_ok_iff, bytes_eq_ok_iff]
  constructor
  · rintro ⟨part, -, ⟨hlen, hpart, rfl⟩, h⟩
    exact ⟨part, hlen, hpart, h⟩
  · rintro ⟨part, hlen, hpart, h⟩
    exact ⟨part, _, ⟨hlen, hpart, rfl⟩, h⟩

theorem bind_int32_eq_ok_iff {k : Int32 → Reading α} :
    (int32 field >>= k) ⟨f, i⟩ = .ok (x, c) ↔
      ∃ v, StandsAt f i.toNat (BigEndian.ofInt32 v) ∧ k v ⟨f, i + 4⟩ = .ok (x, c) := by
  simp only [int32, map_eq_pure_bind, bind_assoc, pure_bind, bind_bytes_eq_ok_iff]
  constructor
  · rintro ⟨part, hlen, hpart, h⟩
    refine ⟨BigEndian.toInt32 part, ?_, h⟩
    rw [BigEndian.ofInt32_toInt32 hlen]
    exact hpart
  · rintro ⟨v, hv, h⟩
    refine ⟨BigEndian.ofInt32 v, BigEndian.length_ofInt32 v, hv, ?_⟩
    rw [BigEndian.toInt32_ofInt32]
    exact h

theorem bind_nonNegative_eq_ok_iff {k : UInt64 → Reading α} :
    (nonNegative v quantity >>= k) ⟨f, i⟩ = .ok (x, c) ↔
      ¬ v < 0 ∧ k v.toInt64.toUInt64 ⟨f, i⟩ = .ok (x, c) := by
  unfold nonNegative
  by_cases hv : v < 0
  · rw [if_pos hv]
    exact ⟨nofun, fun h => absurd hv h.1⟩
  · rw [if_neg hv, pure_bind]
    exact (and_iff_right hv).symm

/-- A number that must not be negative is one below `2 ^ 31`, in four bytes. -/
theorem exists_nonNegative_iff {k : UInt64 → Reading α} :
    (∃ v, StandsAt f j (BigEndian.ofInt32 v) ∧
      (nonNegative v quantity >>= k) ⟨f, i⟩ = .ok (x, c)) ↔
      ∃ n < 2 ^ 31, StandsAt f j (BigEndian.encode 4 n) ∧ k (UInt64.ofNat n) ⟨f, i⟩ = .ok (x, c) := by
  simp only [bind_nonNegative_eq_ok_iff]
  constructor
  · rintro ⟨v, hat, hv, h⟩
    rw [← ofNat_widened_of_nonneg hv] at h
    rw [int32_neg_iff] at hv
    exact ⟨v.toUInt32.toNat, by omega, hat, h⟩
  · rintro ⟨n, hn, hat, h⟩
    obtain ⟨v, hv, rfl, hve⟩ := exists_int32_of_lt hn
    rw [ofNat_widened_of_nonneg hv] at h
    exact ⟨v, by rw [hve]; exact hat, hv, h⟩

/-! Where a number stands, reading it goes on with this number, whatever becomes of the rest. -/

theorem bind_int32_of_standsAt {k : Int32 → Reading α} (h : StandsAt f i.toNat (BigEndian.ofInt32 v)) :
    (int32 field >>= k) ⟨f, i⟩ = k v ⟨f, i + 4⟩ := by
  have hread : (int32 field >>= pure) ⟨f, i⟩ = .ok (v, ⟨f, i + 4⟩) :=
    bind_int32_eq_ok_iff.mpr ⟨v, h, rfl⟩
  rw [bind_pure] at hread
  exact bind_of_ok hread

theorem bind_nonNegative_of_standsAt {k : UInt64 → Reading α} (hn : n < 2 ^ 31)
    (h : StandsAt f i.toNat (BigEndian.encode 4 n)) :
    (int32 field >>= fun v => nonNegative v quantity >>= k) ⟨f, i⟩ =
      k (UInt64.ofNat n) ⟨f, i + 4⟩ := by
  obtain ⟨v, hv, rfl, hve⟩ := exists_int32_of_lt hn
  rw [← hve] at h
  rw [bind_int32_of_standsAt h, nonNegative, if_neg hv, pure_bind, ofNat_widened_of_nonneg hv]

end Reading

/-! ## The header -/

namespace SegmentHeader

/-- `s` is the header that `f` begins with, its variable part takes `n` bytes. -/
structure Heads (s : SegmentHeader) (f : Bytes) (n : Nat) : Prop where
  numbers : StandsAt f 0 (BigEndian.ofInt32 s.version ++ BigEndian.ofInt32 s.first ++
    BigEndian.ofInt32 s.last ++ BigEndian.ofInt32 s.blockCount ++ BigEndian.encode 4 n)
  variable_lt : n < 2 ^ 31
  reserved : 24 + n ≤ f.length
  indexStart : s.indexStart.toNat = 24 + n

theorem covers_iff :
    s.covers height = true ↔ s.first.toInt ≤ height.toNat ∧ height.toNat ≤ s.last.toInt := by
  simp only [covers, Bool.and_eq_true, decide_eq_true_eq, Int64.le_iff_toInt_le, Int32.toInt_toInt64,
    toInt_widened]

/-! Heights of 32 bits are never so far apart that 64 bits could not hold the distance, signed or not. -/

theorem toInt_distance (s : SegmentHeader) (height : UInt32) :
    (height.toUInt64.toInt64 - s.first.toInt64).toInt = height.toNat - s.first.toInt := by
  have hfirst := s.first.le_toInt
  have hfirst' := s.first.toInt_lt
  have hheight := height.toNat_lt
  -- between two numbers of 32 bits, signed or not, the distance is far below `2 ^ 63`
  rw [Int64.toInt_sub, toInt_widened, Int32.toInt_toInt64]
  exact Int.bmod_eq_of_le_mul_two (by omega) (by omega)

theorem toInt_range (s : SegmentHeader) :
    (s.last.toInt64 - s.first.toInt64).toInt = s.last.toInt - s.first.toInt := by
  have hfirst := s.first.le_toInt
  have hfirst' := s.first.toInt_lt
  have hlast := s.last.le_toInt
  have hlast' := s.last.toInt_lt
  rw [Int64.toInt_sub, Int32.toInt_toInt64, Int32.toInt_toInt64]
  exact Int.bmod_eq_of_le_mul_two (by omega) (by omega)

theorem toInt_entries (s : SegmentHeader) :
    (s.last.toInt64 - s.first.toInt64 + 1).toInt = s.last.toInt - s.first.toInt + 1 := by
  have hfirst := s.first.le_toInt
  have hfirst' := s.first.toInt_lt
  have hlast := s.last.le_toInt
  have hlast' := s.last.toInt_lt
  rw [Int64.toInt_add, toInt_range, Int64.toInt_one]
  exact Int.bmod_eq_of_le_mul_two (by omega) (by omega)

/-- How far into the index a covered height's entry stands. -/
theorem toNat_entryDistance (hheight : s.covers height = true) :
    ((height.toUInt64.toInt64 - s.first.toInt64).toUInt64 * 4).toNat =
      4 * (height.toNat - s.first.toInt).toNat := by
  rw [covers_iff] at hheight
  have hfirst := s.first.le_toInt
  have hlast := s.last.toInt_lt
  have hdistance := toInt_distance s height
  have hword := toNat_int64_of_nonneg (v := height.toUInt64.toInt64 - s.first.toInt64) (by omega)
  rw [UInt64.toNat_mul, hword, hdistance]
  show (height.toNat - s.first.toInt).toNat * 4 % 2 ^ 64 = _
  omega

/-- How long the index is. -/
theorem toNat_indexLength (s : SegmentHeader) :
    ((max (s.last.toInt64 - s.first.toInt64 + 1) 0).toUInt64 * 4).toNat =
      4 * (s.last.toInt - s.first.toInt + 1).toNat := by
  have hfirst := s.first.le_toInt
  have hlast := s.last.toInt_lt
  -- a range that ends before it starts has no entries, the largest one `2 ^ 32`
  have hmax : (max (s.last.toInt64 - s.first.toInt64 + 1) 0).toInt =
      max (s.last.toInt - s.first.toInt + 1) 0 := by
    rw [toInt_max_zero, toInt_entries]
  have hword := toNat_int64_of_nonneg (v := max (s.last.toInt64 - s.first.toInt64 + 1) 0) (by omega)
  rw [UInt64.toNat_mul, hword, hmax]
  show (max (s.last.toInt - s.first.toInt + 1) 0).toNat * 4 % 2 ^ 64 = _
  omega

theorem toNat_indexPosition (hs : s.Heads f n) (hheight : s.covers height = true) :
    (s.indexPosition height).toNat = 24 + n + 4 * (height.toNat - s.first.toInt).toNat := by
  have hdistance := toNat_entryDistance hheight
  rw [covers_iff] at hheight
  have hfirst := s.first.le_toInt
  have hlast := s.last.toInt_lt
  have hn := hs.variable_lt
  have hindex := hs.indexStart
  rw [indexPosition, toNat_add_of_lt (by omega), hdistance, hindex]

theorem toNat_dataStart (hs : s.Heads f n) :
    s.dataStart.toNat = 24 + n + 4 * (s.last.toInt - s.first.toInt + 1).toNat := by
  have hlength := toNat_indexLength s
  have hfirst := s.first.le_toInt
  have hlast := s.last.toInt_lt
  have hn := hs.variable_lt
  have hindex := hs.indexStart
  rw [dataStart, toNat_add_of_lt (by omega), hlength, hindex]

/-- Neither do the positions of a record's parts wrap. -/
theorem toNat_recordStart (hs : s.Heads f n) {offset : Nat} (hoffset : offset < 2 ^ 31) :
    let start := 24 + n + 4 * (s.last.toInt - s.first.toInt + 1).toNat + offset
    let position := s.dataStart + UInt64.ofNat offset
    position.toNat = start ∧ (position + 4).toNat = start + 4 ∧
      (position + 4 + 4).toNat = start + 8 := by
  intro start position
  have hdata := toNat_dataStart hs
  have hfirst := s.first.le_toInt
  have hlast := s.last.toInt_lt
  have hn := hs.variable_lt
  have hfour : (4 : UInt64).toNat = 4 := rfl
  have hword : (UInt64.ofNat offset).toNat = offset :=
    UInt64.toNat_ofNat_of_lt' (Nat.lt_trans hoffset (by decide))
  have hstart : position.toNat = start := by
    rw [toNat_add_of_lt (by omega), hdata, hword]
  have hlength : (position + 4).toNat = start + 4 := by
    rw [toNat_add_of_lt (by omega), hstart, hfour]
  have hbytes : (position + 4 + 4).toNat = start + 8 := by
    rw [toNat_add_of_lt (by omega), hlength, hfour]
  exact ⟨hstart, hlength, hbytes⟩

end SegmentHeader

namespace Segment

open Reading

theorem standsAt_numbers_iff {version first last blockCount : Int32} :
    StandsAt f 0 (BigEndian.ofInt32 version ++ BigEndian.ofInt32 first ++ BigEndian.ofInt32 last ++
        BigEndian.ofInt32 blockCount ++ BigEndian.encode 4 n) ↔
      StandsAt f 0 (BigEndian.ofInt32 version) ∧ StandsAt f 4 (BigEndian.ofInt32 first) ∧
        StandsAt f 8 (BigEndian.ofInt32 last) ∧ StandsAt f 12 (BigEndian.ofInt32 blockCount) ∧
          StandsAt f 16 (BigEndian.encode 4 n) := by
  simp only [standsAt_append, List.length_append, BigEndian.length_ofInt32, Nat.zero_add,
    Nat.reduceAdd, and_assoc]

theorem readHeader_eq_ok_iff :
    readHeader ⟨f, i⟩ = .ok (s, c) ↔ (∃ n, s.Heads f n) ∧ c = ⟨f, s.indexStart⟩ := by
  have hskip {n : Nat} (hn : n < 2 ^ 31) : (20 + UInt64.ofNat n).toNat = 20 + n := by
    have hword : (UInt64.ofNat n).toNat = n :=
      UInt64.toNat_ofNat_of_lt' (Nat.lt_trans hn (by decide))
    have htwenty : (20 : UInt64).toNat = 20 := rfl
    rw [toNat_add_of_lt (by omega), htwenty, hword]
  have hstart {n : Nat} (hn : n < 2 ^ 31) : (20 + UInt64.ofNat n + 4).toNat = 24 + n := by
    have hposition := hskip hn
    have hfour : (4 : UInt64).toNat = 4 := rfl
    rw [toNat_add_of_lt (by omega), hposition, hfour]
    omega
  simp only [readHeader, bind_seek, bind_skip, bind_int32_eq_ok_iff, exists_nonNegative_iff,
    pure_eq_ok_iff]
  constructor
  · rintro ⟨version, hversion, first, hfirst, last, hlast, blockCount, hcount, n, hn, hlength, v,
      hreserved, rfl, rfl⟩
    refine ⟨⟨n, ?_, hn, ?_, hstart hn⟩, rfl⟩
    · exact standsAt_numbers_iff.mpr ⟨hversion, hfirst, hlast, hcount, hlength⟩
    · change StandsAt f (20 + UInt64.ofNat n).toNat _ at hreserved
      rw [hskip hn] at hreserved
      have hend := exists_int32_standsAt_iff.mp ⟨v, hreserved⟩
      omega
  · rintro ⟨⟨n, hnumbers, hn, hreserved, hindex⟩, rfl⟩
    obtain ⟨hversion, hfirst, hlast, hcount, hlength⟩ := standsAt_numbers_iff.mp hnumbers
    have hposition : s.indexStart = 20 + UInt64.ofNat n + 4 :=
      UInt64.toNat_inj.mp (by rw [hindex, hstart hn])
    -- any four bytes will do as the reserved number
    obtain ⟨v, hv⟩ := exists_int32_standsAt_iff.mpr (show 20 + n + 4 ≤ f.length by omega)
    refine ⟨s.version, hversion, s.first, hfirst, s.last, hlast, s.blockCount, hcount, n, hn, hlength,
      v, ?_, ?_, ?_⟩
    · show StandsAt f (20 + UInt64.ofNat n).toNat _
      rw [hskip hn]
      exact hv
    · rw [← hposition]
    · rw [hposition]
      rfl

/-! ## The record -/

/-- What is read on the way to the record of `height`, where the layout puts it. The variable part of the
header takes `n` bytes, and the index gives `offset`. -/
structure Holds (f : Bytes) (height : UInt32) (r : SerializedBlock) (s : SegmentHeader)
    (n offset : Nat) : Prop where
  header : s.Heads f n
  version : s.version = r.version.format
  first_le : s.first.toInt ≤ height.toNat
  le_last : height.toNat ≤ s.last.toInt
  offset_lt : offset < 2 ^ 31
  entry : StandsAt f (24 + n + 4 * (height.toNat - s.first.toInt).toNat) (BigEndian.encode 4 offset)
  length_lt : r.bytes.length < 2 ^ 31
  record : StandsAt f (24 + n + 4 * (s.last.toInt - s.first.toInt + 1).toNat + offset)
    (BigEndian.ofUInt32 height ++ BigEndian.encode 4 r.bytes.length ++ r.bytes)
  height_eq : r.height = height

theorem standsAt_frame_iff {bytes : Bytes} :
    StandsAt f j (BigEndian.ofUInt32 height ++ BigEndian.encode 4 n ++ bytes) ↔
      StandsAt f j (BigEndian.ofUInt32 height) ∧ StandsAt f (j + 4) (BigEndian.encode 4 n) ∧
        StandsAt f (j + 8) bytes := by
  simp only [standsAt_append, List.length_append, BigEndian.length_ofUInt32, BigEndian.length_encode,
    and_assoc]

theorem holds_of_readRecord (h : readRecord height ⟨f, i⟩ = .ok (r, c)) :
    ∃ s n offset, Holds f height r s n offset := by
  rw [readRecord, bind_eq_ok_iff] at h
  obtain ⟨s, start, hhead, h⟩ := h
  obtain ⟨⟨n, hs⟩, rfl⟩ := readHeader_eq_ok_iff.mp hhead
  -- the version is judged before anything behind the header is read
  cases hversion : RecordVersion.ofFormat? s.version with
  | none =>
    rw [hversion] at h
    cases h
  | some v =>
    rw [hversion] at h
    simp only [guard_eq_ok_iff, bind_seek, bind_int32_eq_ok_iff, exists_nonNegative_iff,
      bind_bytes_eq_ok_iff, pure_eq_ok_iff, Bool.not_eq_true', Bool.not_eq_false, not_not] at h
    obtain ⟨hcovers, offset, hoffset, hentry, w, hheight, hw, length, hlength, hlengthAt, bytes, hbytes,
      hbytesAt, rfl, -⟩ := h
    obtain ⟨hfirst, hlast⟩ := SegmentHeader.covers_iff.mp hcovers
    obtain ⟨hstart, hlengthPosition, hbytesPosition⟩ :=
      SegmentHeader.toNat_recordStart hs hoffset
    obtain ⟨rfl, -⟩ := toInt_eq_toNat_iff.mp hw
    rw [UInt64.toNat_ofNat_of_lt' (Nat.lt_trans hlength (by decide))] at hbytes
    subst hbytes
    rw [SegmentHeader.toNat_indexPosition hs hcovers] at hentry
    rw [hstart] at hheight
    rw [hlengthPosition] at hlengthAt
    rw [hbytesPosition] at hbytesAt
    exact ⟨s, n, offset, hs, RecordVersion.ofFormat?_eq_some_iff.mp hversion, hfirst, hlast, hoffset,
      hentry, hlength, standsAt_frame_iff.mpr ⟨hheight, hlengthAt, hbytesAt⟩, rfl⟩

theorem Holds.readRecord {offset : Nat} (h : Holds f height r s n offset) :
    ∃ c, Segment.readRecord height ⟨f, i⟩ = .ok (r, c) := by
  have hversion : RecordVersion.ofFormat? s.version = some r.version :=
    RecordVersion.ofFormat?_eq_some_iff.mpr h.version
  have hcovers := SegmentHeader.covers_iff.mpr ⟨h.first_le, h.le_last⟩
  -- the last height is a signed word, so a height below it fits one
  have hheight : height.toNat < 2 ^ 31 := by
    have hle := h.le_last
    have hlast := s.last.toInt_lt
    omega
  obtain ⟨hstart, hlengthPosition, hbytesPosition⟩ :=
    SegmentHeader.toNat_recordStart h.header h.offset_lt
  obtain ⟨hheightAt, hlengthAt, hbytesAt⟩ := standsAt_frame_iff.mp h.record
  refine ⟨⟨f, s.dataStart + UInt64.ofNat offset + 4 + 4 + UInt64.ofNat r.bytes.length⟩, ?_⟩
  rw [Segment.readRecord, bind_of_ok (readHeader_eq_ok_iff.mpr ⟨⟨n, h.header⟩, rfl⟩), hversion]
  simp only [guard_eq_ok_iff, bind_seek, bind_int32_eq_ok_iff, exists_nonNegative_iff,
    bind_bytes_eq_ok_iff, pure_eq_ok_iff, Bool.not_eq_true', Bool.not_eq_false, not_not]
  refine ⟨hcovers, offset, h.offset_lt, ?_, height.toInt32, ?_, toInt_eq_toNat_iff.mpr ⟨rfl, hheight⟩,
    r.bytes.length, h.length_lt, ?_, r.bytes, ?_, ?_, ?_, rfl⟩
  · rw [SegmentHeader.toNat_indexPosition h.header hcovers]
    exact h.entry
  · rw [hstart]
    exact hheightAt
  · rw [hlengthPosition]
    exact hlengthAt
  · exact (UInt64.toNat_ofNat_of_lt' (Nat.lt_trans h.length_lt (by decide))).symm
  · rw [hbytesPosition]
    exact hbytesAt
  · rw [← h.height_eq]

/-- A record is read exactly where every number on the way to it stands in its place, wherever the last
reading stopped. -/
theorem readRecord_eq_ok_iff :
    (readRecord height).run' ⟨f, i⟩ = .ok r ↔ ∃ s n offset, Holds f height r s n offset := by
  rw [run'_eq_ok_iff]
  constructor
  · rintro ⟨c, h⟩
    exact holds_of_readRecord h
  · rintro ⟨s, n, offset, h⟩
    exact h.readRecord

theorem record_eq_ok_iff :
    record f height = .ok r ↔ ∃ s n offset, Holds f height r s n offset :=
  readRecord_eq_ok_iff

/-! ## Refusals

What the header says decides before anything behind it is read. -/

theorem readRecord_of_unsupported (hs : s.Heads f n)
    (hversion : RecordVersion.ofFormat? s.version = none) :
    (readRecord height).run' ⟨f, i⟩ = .error (.unsupportedVersion s.version) := by
  apply run'_of_error
  rw [readRecord, bind_of_ok (readHeader_eq_ok_iff.mpr ⟨⟨n, hs⟩, rfl⟩), hversion]
  rfl

theorem readRecord_of_uncovered {version : RecordVersion} (hs : s.Heads f n)
    (hversion : RecordVersion.ofFormat? s.version = some version) (hheight : s.covers height = false) :
    (readRecord height).run' ⟨f, i⟩ = .error (.heightOutOfRange height s.first s.last) := by
  apply run'_of_error
  rw [readRecord, bind_of_ok (readHeader_eq_ok_iff.mpr ⟨⟨n, hs⟩, rfl⟩), hversion]
  exact guard_of_pos (by rw [hheight]; rfl)

/-- The record that stands in the place of a covered height is framed as one of another height. -/
theorem readRecord_of_mismatch {version : RecordVersion} {offset : Nat} (hs : s.Heads f n)
    (hversion : RecordVersion.ofFormat? s.version = some version) (hheight : s.covers height = true)
    (hoffset : offset < 2 ^ 31)
    (hentry : StandsAt f (24 + n + 4 * (height.toNat - s.first.toInt).toNat) (BigEndian.encode 4 offset))
    (hrecord : StandsAt f (24 + n + 4 * (s.last.toInt - s.first.toInt + 1).toNat + offset)
      (BigEndian.ofInt32 v))
    (hv : v.toInt ≠ height.toNat) :
    (readRecord height).run' ⟨f, i⟩ = .error (.heightMismatch height v.toInt) := by
  rw [← SegmentHeader.toNat_indexPosition hs hheight] at hentry
  rw [← (SegmentHeader.toNat_recordStart hs hoffset).1] at hrecord
  apply run'_of_error
  rw [readRecord, bind_of_ok (readHeader_eq_ok_iff.mpr ⟨⟨n, hs⟩, rfl⟩), hversion]
  simp only [hheight, Bool.not_true, Bool.false_eq_true, if_false, bind_seek]
  rw [bind_nonNegative_of_standsAt hoffset hentry, bind_seek, bind_int32_of_standsAt hrecord]
  exact guard_of_pos hv

end Segment
end ChainNode.Archive
