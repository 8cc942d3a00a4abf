import ChainNode.Bytes

/-!
# Little-endian integers

`encode width n` writes the `width` lowest base-256 digits of `n`, lowest first; `decode` reads a byte
string of any length. Each undoes the other: `decode_encode` up to the digits that were cut off,
`encode_decode` for every byte string.
-/

namespace ChainNode.LittleEndian

def encode : (width n : Nat) → Bytes
  | 0, _ => []
  | width + 1, n => UInt8.ofNat n :: encode width (n / 256)

def decode : Bytes → Nat
  | [] => 0
  | b :: bs => b.toNat + 256 * decode bs

/-- How many numbers there are with so many digits. -/
def span : (width : Nat) → Nat
  | 0 => 1
  | width + 1 => 256 * span width

@[simp] theorem length_encode (width n : Nat) : (encode width n).length = width := by
  induction width generalizing n with
  | zero => rfl
  | succ width ih => simp [encode, ih]

theorem decode_lt (bs : Bytes) : decode bs < span bs.length := by
  induction bs with
  | nil => decide
  | cons b bs ih =>
    have := b.toNat_lt
    simp only [decode, List.length_cons, span]
    omega

theorem decode_encode (width n : Nat) : decode (encode width n) = n % span width := by
  induction width generalizing n with
  | zero => simp [encode, decode, span, Nat.mod_one]
  | succ width ih =>
    simp only [encode, decode, ih, UInt8.toNat_ofNat']
    rw [span, Nat.mod_mul]

theorem encode_decode (bs : Bytes) : encode bs.length (decode bs) = bs := by
  induction bs with
  | nil => rfl
  | cons b bs ih =>
    have hb := b.toNat_lt
    simp only [List.length_cons, encode, decode]
    rw [show (b.toNat + 256 * decode bs) / 256 = decode bs by omega, ih]
    congr 1
    apply UInt8.toNat_inj.1
    simp only [UInt8.toNat_ofNat']
    omega

end ChainNode.LittleEndian
