import ChainNode.Bytes.LittleEndian

/-!
# Big-endian integers

The same digits as `LittleEndian`, highest first.
-/

namespace ChainNode.BigEndian

def encode (width n : Nat) : Bytes := (LittleEndian.encode width n).reverse

def decode (bs : Bytes) : Nat := LittleEndian.decode bs.reverse

@[simp] theorem length_encode (width n : Nat) : (encode width n).length = width := by
  simp [encode]

theorem decode_lt (bs : Bytes) : decode bs < LittleEndian.span bs.length := by
  simpa [decode] using LittleEndian.decode_lt bs.reverse

theorem decode_encode (width n : Nat) : decode (encode width n) = n % LittleEndian.span width := by
  simp [decode, encode, LittleEndian.decode_encode]

theorem encode_decode (bs : Bytes) : encode bs.length (decode bs) = bs := by
  have h := LittleEndian.encode_decode bs.reverse
  rw [List.length_reverse] at h
  simp [decode, encode, h]

/-! Machine words. Signed words are two's complement: the same bytes as the unsigned word. -/

def ofUInt32 (n : UInt32) : Bytes := encode 4 n.toNat

def ofUInt64 (n : UInt64) : Bytes := encode 8 n.toNat

def ofInt32 (n : Int32) : Bytes := ofUInt32 n.toUInt32

def toUInt32 (bs : Bytes) : UInt32 := UInt32.ofNat (decode bs)

def toUInt64 (bs : Bytes) : UInt64 := UInt64.ofNat (decode bs)

def toInt32 (bs : Bytes) : Int32 := (toUInt32 bs).toInt32

def toInt64 (bs : Bytes) : Int64 := (toUInt64 bs).toInt64

@[simp] theorem length_ofUInt32 (n : UInt32) : (ofUInt32 n).length = 4 := length_encode ..

@[simp] theorem length_ofUInt64 (n : UInt64) : (ofUInt64 n).length = 8 := length_encode ..

@[simp] theorem length_ofInt32 (n : Int32) : (ofInt32 n).length = 4 := length_encode ..

@[simp] theorem toUInt32_ofUInt32 (n : UInt32) : toUInt32 (ofUInt32 n) = n := by
  apply UInt32.toNat_inj.1
  have := n.toNat_lt
  have hspan : LittleEndian.span 4 = 2 ^ 32 := by decide
  simp only [toUInt32, ofUInt32, decode_encode, UInt32.toNat_ofNat', hspan]
  omega

@[simp] theorem toUInt64_ofUInt64 (n : UInt64) : toUInt64 (ofUInt64 n) = n := by
  apply UInt64.toNat_inj.1
  have := n.toNat_lt
  have hspan : LittleEndian.span 8 = 2 ^ 64 := by decide
  simp only [toUInt64, ofUInt64, decode_encode, UInt64.toNat_ofNat', hspan]
  omega

@[simp] theorem toInt32_ofInt32 (n : Int32) : toInt32 (ofInt32 n) = n := by
  simp [toInt32, ofInt32]

theorem ofUInt32_toUInt32 {bs : Bytes} (h : bs.length = 4) : ofUInt32 (toUInt32 bs) = bs := by
  have hlt := decode_lt bs
  have he := encode_decode bs
  have hspan : LittleEndian.span 4 = 2 ^ 32 := by decide
  rw [h] at he
  rw [h, hspan] at hlt
  rw [ofUInt32, toUInt32, UInt32.toNat_ofNat', Nat.mod_eq_of_lt hlt, he]

theorem ofUInt64_toUInt64 {bs : Bytes} (h : bs.length = 8) : ofUInt64 (toUInt64 bs) = bs := by
  have hlt := decode_lt bs
  have he := encode_decode bs
  have hspan : LittleEndian.span 8 = 2 ^ 64 := by decide
  rw [h] at he
  rw [h, hspan] at hlt
  rw [ofUInt64, toUInt64, UInt64.toNat_ofNat', Nat.mod_eq_of_lt hlt, he]

theorem ofInt32_toInt32 {bs : Bytes} (h : bs.length = 4) : ofInt32 (toInt32 bs) = bs := by
  simp [ofInt32, toInt32, ofUInt32_toUInt32 h]

end ChainNode.BigEndian
