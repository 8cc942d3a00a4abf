import ChainNode.Ed25519.Curve
import ChainNode.Sha512

/-!
# Ed25519 signatures

A signature is a compressed point `R` followed by a scalar `S`. Verification is strict: `S` lies below
the group order, neither `R` nor the key is a point of small order, and the bytes of `R` are those of
`S·B - k·A`, without clearing the cofactor.
-/

namespace ChainNode.Ed25519

/-- The scalar that binds `R`, the key and the message together. -/
def challenge (r key message : Bytes) : Nat :=
  LittleEndian.decode (Sha512.digest (r ++ key ++ message)) % groupOrder

def verify (key : PublicKey) (message : Bytes) (signature : Signature) : Bool :=
  let r := signature.toBytes.take 32
  let s := LittleEndian.decode (signature.toBytes.drop 32)
  match Point.decompress? key.toBytes, Point.decompress? r with
  | some a, some rPoint =>
    decide (s < groupOrder) && !rPoint.isSmallOrder && !a.isSmallOrder &&
      ((Point.base.scale s).add (a.neg.scale (challenge r key.toBytes message))).compress == r
  | _, _ => false

/-- A secret key: the 32 bytes that all else is derived from. -/
structure SigningKey where
  seed : FixedBytes 32
deriving DecidableEq

namespace SigningKey

/-- The secret scalar: the lower half of the seed's digest, a multiple of eight between `2²⁵⁴` and
`2²⁵⁵`. -/
def scalar (key : SigningKey) : Nat :=
  let n := LittleEndian.decode ((Sha512.digest key.seed.toBytes).take 32)
  Nat.pow 2 254 + n % Nat.pow 2 254 / 8 * 8

def publicKey (key : SigningKey) : PublicKey :=
  ⟨(Point.base.scale key.scalar).compress, by simp [Point.compress]⟩

/-- The secret number of a message's signature is derived from the message, so that none is used for
two of them. -/
def nonce (key : SigningKey) (message : Bytes) : Nat :=
  LittleEndian.decode (Sha512.digest ((Sha512.digest key.seed.toBytes).drop 32 ++ message)) %
    groupOrder

def sign (key : SigningKey) (message : Bytes) : Signature :=
  let r := key.nonce message
  let rBytes := (Point.base.scale r).compress
  let k := challenge rBytes key.publicKey.toBytes message
  ⟨rBytes ++ LittleEndian.encode 32 ((r + k * key.scalar) % groupOrder), by
    simp [rBytes, Point.compress]⟩

end SigningKey
end ChainNode.Ed25519
