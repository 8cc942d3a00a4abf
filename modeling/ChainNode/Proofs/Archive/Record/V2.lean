import ChainNode.Archive.Record.V2
import ChainNode.Archive.Sample
import ChainNode.Proofs.Archive.Decoder
import Mathlib.Algebra.Group.Nat.Defs

/-!
# Version 2 records are exact

A version 2 record holds every height and every timestamp. The blocks with a hash of their AT states
correspond one to one to the byte strings that decode; of a block with full AT states the record keeps
all but these.
-/

namespace ChainNode.Archive.RecordV2

open Decoder

variable {b : Block} {bs rest : Bytes} {r : Body}

/-- A list whose count and whose items' lengths fit the words that they are written in. -/
def Fits (items : List Bytes) : Prop := items.length < 2 ^ 64 ∧ ∀ i ∈ items, i.length < 2 ^ 64

instance (items : List Bytes) : Decidable (Fits items) :=
  inferInstanceAs (Decidable (items.length < 2 ^ 64 ∧ ∀ i ∈ items, i.length < 2 ^ 64))

/-- The blocks that have a version 2 record of their own. -/
structure Representable (b : Block) : Prop where
  transactions : Fits b.transactions
  atStates : ∃ digest, b.atStates = .hash digest

theorem span_four : LittleEndian.span 4 = 2 ^ 32 := by decide

theorem span_eight : LittleEndian.span 8 = 2 ^ 64 := by decide

theorem reads_readNat (width : Nat) :
    (readNat width).Reads (LittleEndian.encode width) (· < LittleEndian.span width) := by
  intro n bs rest
  simp only [readNat, bind_eq_ok_iff, pure_eq_ok_iff, take_eq_ok_iff]
  constructor
  · rintro ⟨x, mid, rfl, rfl, rfl⟩
    have hlt := LittleEndian.decode_lt x.toBytes
    have hencode := LittleEndian.encode_decode x.toBytes
    rw [x.length_toBytes] at hlt hencode
    exact ⟨hlt, by rw [hencode]⟩
  · rintro ⟨hn, rfl⟩
    let x : FixedBytes width := ⟨LittleEndian.encode width n, LittleEndian.length_encode width n⟩
    refine ⟨x, rest, rfl, ?_, rfl⟩
    rw [LittleEndian.decode_encode, Nat.mod_eq_of_lt hn]

theorem reads_readSignature :
    readSignature.Reads (fun s => encodeBytes s.toBytes) (fun _ => True) := by
  intro s bs rest
  simp only [readSignature, bind_eq_ok_iff, take_eq_ok_iff, reads_readNat 8 _ _ _]
  constructor
  · rintro ⟨n, mid, ⟨-, rfl⟩, x, last, rfl, hmatch⟩
    -- the length that was read is the one of the bytes that were taken, so only 64 gets through
    cases hsignature : FixedBytes.ofBytes? 64 x.toBytes with
    | none =>
      rw [hsignature] at hmatch
      cases hmatch
    | some signature =>
      rw [hsignature] at hmatch
      obtain ⟨rfl, rfl⟩ := pure_eq_ok_iff.mp hmatch
      have hbytes := FixedBytes.ofBytes?_eq_some_iff.mp hsignature
      have hlength : signature.toBytes.length = n := by rw [← hbytes, x.length_toBytes]
      rw [encodeBytes, hlength, hbytes, List.append_assoc]
      exact ⟨trivial, rfl⟩
  · rintro ⟨-, rfl⟩
    have hlength : s.toBytes.length = 64 := s.length_toBytes
    refine ⟨64, s.toBytes ++ rest, ⟨by decide, ?_⟩, s, rest, rfl, ?_⟩
    · rw [encodeBytes, hlength, List.append_assoc]
    · rw [FixedBytes.ofBytes?_toBytes]
      rfl

theorem reads_readTransaction : readTransaction.Reads encodeBytes (·.length < 2 ^ 64) := by
  intro item bs rest
  simp only [readTransaction, bind_eq_ok_iff, pure_eq_ok_iff, take_eq_ok_iff, reads_readNat 8 _ _ _,
    span_eight]
  constructor
  · rintro ⟨n, mid, ⟨hn, rfl⟩, x, last, rfl, rfl, rfl⟩
    rw [encodeBytes, x.length_toBytes, List.append_assoc]
    exact ⟨hn, rfl⟩
  · rintro ⟨hitem, rfl⟩
    rw [encodeBytes, List.append_assoc]
    exact ⟨item.length, item ++ rest, ⟨hitem, rfl⟩, ⟨item, rfl⟩, rest, rfl, rfl, rfl⟩

theorem readBody_eq_ok_iff :
    readBody bs = .ok (r, rest) ↔ Fits r.transactions ∧ bs = r.encode ∧ rest = [] := by
  simp only [readBody, bind_eq_ok_iff, pure_eq_ok_iff, take_eq_ok_iff, reads_readNat _ _ _ _,
    reads_readSignature _ _ _, reads_readTransaction.times, finish_eq_ok_iff, span_four, span_eight]
  constructor
  · rintro ⟨height, m, ⟨hheight, rfl⟩, timestamp, m, ⟨htimestamp, rfl⟩, reference, m, ⟨-, rfl⟩, minter,
      m, rfl, signature, m, ⟨-, rfl⟩, count, m, ⟨hcount, rfl⟩, txs, m, ⟨rfl, htxs, rfl⟩, digest, m, rfl,
      u, m, ⟨rfl, rfl⟩, rfl, rfl⟩
    have hheightWord : (UInt32.ofNat height).toNat = height := by
      rw [UInt32.toNat_ofNat', Nat.mod_eq_of_lt hheight]
    have htimestampWord : (UInt64.ofNat timestamp).toNat = timestamp := by
      rw [UInt64.toNat_ofNat', Nat.mod_eq_of_lt htimestamp]
    refine ⟨⟨hcount, htxs⟩, ?_, rfl⟩
    simp only [Body.encode, hheightWord, htimestampWord, List.append_assoc, List.append_nil]
  · rintro ⟨⟨hcount, htxs⟩, rfl, rfl⟩
    obtain ⟨⟨height, timestamp, reference, minter, signature⟩, txs, digest⟩ := r
    refine ⟨height.toNat, _, ⟨height.toNat_lt, ?_⟩, timestamp.toNat, _, ⟨timestamp.toNat_lt, rfl⟩,
      reference, _, ⟨trivial, rfl⟩, minter, _, rfl, signature, _, ⟨trivial, rfl⟩, txs.length, _,
      ⟨hcount, rfl⟩, txs, _, ⟨rfl, htxs, rfl⟩, digest, [], rfl, (), [], ⟨rfl, rfl⟩, ?_, rfl⟩
    · simp only [Body.encode, List.append_assoc, List.append_nil]
    · rw [UInt32.ofNat_toNat, UInt64.ofNat_toNat]

theorem Body.decode_eq_ok_iff : Body.decode bs = .ok r ↔ Fits r.transactions ∧ r.encode = bs := by
  rw [Body.decode, run'_eq_ok_iff]
  simp only [readBody_eq_ok_iff]
  constructor
  · rintro ⟨rest, hr, rfl, rfl⟩
    exact ⟨hr, rfl⟩
  · rintro ⟨hr, rfl⟩
    exact ⟨[], hr, rfl, rfl⟩

theorem decode_eq_ok_iff_body : decode bs = .ok b ↔ ∃ r, Body.decode bs = .ok r ∧ r.toBlock = b := by
  unfold decode
  cases hr : Body.decode bs with
  | error e => exact ⟨nofun, nofun⟩
  | ok r =>
    show (Except.ok r.toBlock : Except ArchiveError Block) = .ok b ↔ _
    simp only [Except.ok.injEq, exists_eq_left']

theorem decode_eq_ok_iff : decode bs = .ok b ↔ Representable b ∧ encode b = bs := by
  simp only [decode_eq_ok_iff_body, Body.decode_eq_ok_iff]
  -- a body gives a block with a hash, and such a block gives this body back
  constructor
  · rintro ⟨r, ⟨hr, rfl⟩, rfl⟩
    exact ⟨⟨hr, r.atStatesHash, rfl⟩, rfl⟩
  · rintro ⟨⟨htxs, digest, hdigest⟩, rfl⟩
    obtain ⟨header, txs, atStates⟩ := b
    subst hdigest
    exact ⟨⟨header, txs, digest⟩, ⟨htxs, rfl⟩, rfl⟩

theorem decode_encode (h : Fits b.transactions) : decode (encode b) = .ok (Body.ofBlock b).toBlock :=
  decode_eq_ok_iff_body.mpr ⟨Body.ofBlock b, Body.decode_eq_ok_iff.mpr ⟨h, rfl⟩, rfl⟩

theorem toBlock_ofBlock_of_full {states : List Bytes} (h : b.atStates = .full states) :
    (Body.ofBlock b).toBlock = { b with atStates := .hash (.replicate 32 0) } := by
  rw [Body.toBlock, Body.ofBlock, h]

/-- Version 2 records and the blocks that they represent correspond one to one. The record of a block
with full AT states reads back as the block with a hash of zeros in their place. -/
theorem decode_exact_or_zeroed (b : Block) :
    (∀ bs, decode bs = .ok b ↔ Representable b ∧ encode b = bs) ∧
    ∀ states, b.atStates = .full states → Fits b.transactions →
      decode (encode b) = .ok { b with atStates := .hash (.replicate 32 0) } := by
  refine ⟨fun _ => decode_eq_ok_iff, ?_⟩
  intro states hstates htxs
  rw [decode_encode htxs, toBlock_ofBlock_of_full hstates]

/-- The last height and the last timestamp. -/
theorem decode_exact_or_zeroed_last :
    let header : BlockHeader := { Sample.header 7 with
      height := 0xffffffff, timestamp := 0xffffffffffffffff }
    let b : Block := { Sample.blockV1 7 with header }
    b.atStates = .full [Sample.asciiBytes "at-7".toList] ∧ Fits b.transactions ∧
      decode (encode b) = .ok { b with atStates := .hash (.replicate 32 0) } := by
  intro header b
  have hstates : b.atStates = .full [Sample.asciiBytes "at-7".toList] := by decide
  have htxs : Fits b.transactions := by decide
  exact ⟨hstates, htxs, (decode_exact_or_zeroed b).2 _ hstates htxs⟩

end ChainNode.Archive.RecordV2
