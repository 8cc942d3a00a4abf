import ChainNode.Archive.Record.V1
import ChainNode.Archive.Sample
import ChainNode.Proofs.Archive.Decoder
import ChainNode.Proofs.Bytes.SignedWords

/-!
# Version 1 records are exact

Every part of the record is read back as it was written, and nothing else is read: the blocks that fit
the record's signed words correspond one to one to the byte strings that decode. A height or timestamp
that takes the sign bit makes the record undecodable.
-/

namespace ChainNode.Archive.RecordV1

open Decoder

variable {b : Block} {bs rest : Bytes} {field : Field} {v : Int32} {n : Nat}

/-- A list whose count and whose items' lengths fit the words that they are written in. -/
def Fits (items : List Bytes) : Prop := items.length < 2 ^ 31 ∧ ∀ i ∈ items, i.length < 2 ^ 31

instance (items : List Bytes) : Decidable (Fits items) :=
  inferInstanceAs (Decidable (items.length < 2 ^ 31 ∧ ∀ i ∈ items, i.length < 2 ^ 31))

/-- The blocks that have a version 1 record. -/
structure Representable (b : Block) : Prop where
  height : b.header.height.toNat < 2 ^ 31
  timestamp : b.header.timestamp.toNat < 2 ^ 63
  transactions : Fits b.transactions
  atStates : ∃ states, b.atStates = .full states ∧ Fits states

theorem readInt32_eq_ok_iff :
    readInt32 field bs = .ok (v, rest) ↔ bs = BigEndian.ofInt32 v ++ rest := by
  simp only [readInt32, bind_eq_ok_iff, pure_eq_ok_iff, take_eq_ok_iff]
  constructor
  · rintro ⟨x, mid, rfl, rfl, rfl⟩
    rw [BigEndian.ofInt32_toInt32 x.length_toBytes]
  · rintro rfl
    let x : FixedBytes 4 := ⟨BigEndian.ofInt32 v, BigEndian.length_ofInt32 v⟩
    exact ⟨x, rest, rfl, BigEndian.toInt32_ofInt32 v, rfl⟩

theorem reads_readLength (field : Field) :
    (readLength field).Reads (BigEndian.encode 4) (· < 2 ^ 31) := by
  intro n bs rest
  simp only [readLength, bind_eq_ok_iff, guard_eq_ok_iff, pure_eq_ok_iff, readInt32_eq_ok_iff]
  constructor
  · rintro ⟨v, mid, rfl, hv, rfl, rfl⟩
    rw [toNatClampNeg_of_nonneg hv]
    rw [int32_neg_iff] at hv
    exact ⟨by omega, rfl⟩
  · rintro ⟨hn, rfl⟩
    obtain ⟨v, hv, rfl, he⟩ := exists_int32_of_lt hn
    exact ⟨v, rest, by rw [he], hv, toNatClampNeg_of_nonneg hv, rfl⟩

theorem reads_readItem (field : Field) :
    (readItem field).Reads encodeItem (·.length < 2 ^ 31) := by
  intro item bs rest
  simp only [readItem, bind_eq_ok_iff, pure_eq_ok_iff, take_eq_ok_iff, reads_readLength field _ _ _]
  constructor
  · rintro ⟨n, mid, ⟨hn, rfl⟩, x, last, rfl, rfl, rfl⟩
    rw [encodeItem, x.length_toBytes, List.append_assoc]
    exact ⟨hn, rfl⟩
  · rintro ⟨hitem, rfl⟩
    rw [encodeItem, List.append_assoc]
    exact ⟨item.length, item ++ rest, ⟨hitem, rfl⟩, ⟨item, rfl⟩, rest, rfl, rfl, rfl⟩

/-- The least that a list takes is what the check on its count asks for. -/
theorem length_le_length_flatMap_encodeItem (items : List Bytes) :
    4 * items.length ≤ (items.flatMap encodeItem).length := by
  induction items with
  | nil => exact Nat.le_refl 0
  | cons item items ih =>
    rw [List.flatMap_cons, List.length_append, encodeItem, List.length_append, List.length_cons,
      BigEndian.length_encode]
    omega

theorem reads_readList (field : Field) : (readList field).Reads encodeList Fits := by
  intro items bs rest
  simp only [readList, bind_eq_ok_iff, guard_eq_ok_iff, get_eq_ok_iff, reads_readLength field _ _ _,
    (reads_readItem field).times]
  constructor
  · rintro ⟨count, mid, ⟨hcount, rfl⟩, left, r, ⟨rfl, rfl⟩, -, hlen, hall, rfl⟩
    subst hlen
    rw [encodeList, List.append_assoc]
    exact ⟨⟨hcount, hall⟩, rfl⟩
  · rintro ⟨⟨hcount, hall⟩, rfl⟩
    -- no list that fits is refused for its count
    have hmin := length_le_length_flatMap_encodeItem items
    let left := items.flatMap encodeItem ++ rest
    have hleft : ¬ left.length / 4 < items.length := by
      rw [List.length_append]
      omega
    rw [encodeList, List.append_assoc]
    exact ⟨items.length, left, ⟨hcount, rfl⟩, left, left, ⟨rfl, rfl⟩, hleft, rfl, hall, rfl⟩

theorem readBlock_eq_ok_iff :
    readBlock bs = .ok (b, rest) ↔ Representable b ∧ bs = encode b ∧ rest = [] := by
  simp only [readBlock, bind_eq_ok_iff, guard_eq_ok_iff, pure_eq_ok_iff, take_eq_ok_iff,
    readInt32_eq_ok_iff, reads_readList _ _ _ _, finish_eq_ok_iff]
  constructor
  · rintro ⟨height, r, rfl, time, r, rfl, hheight, htime, reference, r, rfl, minter, r, rfl, signature,
      r, rfl, txs, r, ⟨htxs, rfl⟩, states, r, ⟨hstates, rfl⟩, u, r, ⟨rfl, rfl⟩, rfl, rfl⟩
    rw [int32_neg_iff] at hheight
    rw [int64_neg_iff] at htime
    refine ⟨⟨?_, ?_, htxs, states, rfl, hstates⟩, ?_, rfl⟩
    · show height.toUInt32.toNat < 2 ^ 31
      omega
    · show (BigEndian.toInt64 time.toBytes).toUInt64.toNat < 2 ^ 63
      omega
    · -- the timestamp is read as eight bytes first, and these are what the word encodes to
      have htimeBytes : BigEndian.ofUInt64 (BigEndian.toInt64 time.toBytes).toUInt64 = time.toBytes :=
        BigEndian.ofUInt64_toUInt64 time.length_toBytes
      simp only [encode, htimeBytes, List.append_assoc, List.append_nil]
      rfl
  · rintro ⟨⟨hheight, htime, htxs, states, hatStates, hstates⟩, rfl, rfl⟩
    obtain ⟨⟨height, timestamp, reference, minter, signature⟩, txs, atStates⟩ := b
    subst hatStates
    let time : FixedBytes 8 := ⟨BigEndian.ofUInt64 timestamp, BigEndian.length_ofUInt64 timestamp⟩
    have htimeWord : BigEndian.toInt64 time.toBytes = timestamp.toInt64 :=
      congrArg UInt64.toInt64 (BigEndian.toUInt64_ofUInt64 timestamp)
    refine ⟨height.toInt32, _, ?_, time, _, rfl, ?_, ?_, reference, _, rfl, minter, _, rfl, signature,
      _, rfl, txs, _, ⟨htxs, rfl⟩, states, [], ⟨hstates, rfl⟩, (), [], ⟨rfl, rfl⟩, ?_, rfl⟩
    · simp only [encode, List.append_assoc, List.append_nil]
      rfl
    · rw [int32_neg_iff]
      exact Nat.not_le.mpr hheight
    · rw [htimeWord, int64_neg_iff]
      exact Nat.not_le.mpr htime
    · rw [htimeWord]
      rfl

theorem decode_eq_ok_iff : decode bs = .ok b ↔ Representable b ∧ encode b = bs := by
  rw [decode, run'_eq_ok_iff]
  simp only [readBlock_eq_ok_iff]
  constructor
  · rintro ⟨rest, hb, rfl, rfl⟩
    exact ⟨hb, rfl⟩
  · rintro ⟨hb, rfl⟩
    exact ⟨[], hb, rfl, rfl⟩

theorem decode_encode_of_negative
    (h : 2 ^ 31 ≤ b.header.height.toNat ∨ 2 ^ 63 ≤ b.header.timestamp.toNat) :
    decode (encode b) = .error (.decode (if 2 ^ 31 ≤ b.header.height.toNat
      then .negativeHeight b.header.height.toInt32
      else .negativeTimestamp b.header.timestamp.toInt64)) := by
  let time : FixedBytes 8 :=
    ⟨BigEndian.ofUInt64 b.header.timestamp, BigEndian.length_ofUInt64 b.header.timestamp⟩
  have htimeWord : BigEndian.toInt64 time.toBytes = b.header.timestamp.toInt64 :=
    congrArg UInt64.toInt64 (BigEndian.toUInt64_ofUInt64 b.header.timestamp)
  obtain ⟨rest, hrest⟩ :
      ∃ rest, encode b = BigEndian.ofInt32 b.header.height.toInt32 ++ (time.toBytes ++ rest) :=
    ⟨_, by simp only [encode, List.append_assoc]; rfl⟩
  apply run'_of_error
  -- both numbers are read before either is judged, the height first
  rw [readBlock, bind_of_ok (readInt32_eq_ok_iff.mpr hrest), bind_of_ok (take_append _ _ _)]
  by_cases hheight : 2 ^ 31 ≤ b.header.height.toNat
  · rw [if_pos hheight]
    exact guard_of_pos ((int32_neg_iff b.header.height.toInt32).mpr hheight)
  · have htime := h.resolve_left hheight
    rw [if_neg hheight, ← htimeWord, if_neg (mt (int32_neg_iff _).mp hheight)]
    refine guard_of_pos ?_
    rw [htimeWord, int64_neg_iff]
    exact htime

/-- Version 1 records and the blocks that they represent correspond one to one. The record of a block
whose height or timestamp takes the sign bit is refused as negative. -/
theorem decode_exact_or_negative (b : Block) :
    (∀ bs, decode bs = .ok b ↔ Representable b ∧ encode b = bs) ∧
    (2 ^ 31 ≤ b.header.height.toNat ∨ 2 ^ 63 ≤ b.header.timestamp.toNat →
      decode (encode b) = .error (.decode (if 2 ^ 31 ≤ b.header.height.toNat
        then .negativeHeight b.header.height.toInt32
        else .negativeTimestamp b.header.timestamp.toInt64))) :=
  ⟨fun _ => decode_eq_ok_iff, decode_encode_of_negative⟩

/-- The first height that does not fit. -/
theorem decode_exact_or_negative_first :
    let b : Block := { Sample.blockV1 7 with header.height := 0x80000000 }
    2 ^ 31 ≤ b.header.height.toNat ∧
      decode (encode b) = .error (.decode (.negativeHeight (-2147483648))) :=
  ⟨by decide, (decode_exact_or_negative _).2 (Or.inl (by decide))⟩

end ChainNode.Archive.RecordV1
