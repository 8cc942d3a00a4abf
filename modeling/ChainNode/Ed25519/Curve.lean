import ChainNode.Bytes.LittleEndian

/-!
# The curve of Ed25519

The twisted Edwards curve `-x² + y² = 1 + d x² y²` over the integers modulo `2²⁵⁵ - 19`. Points are
kept as `(X : Y : Z : T)` with `x = X/Z`, `y = Y/Z` and `xy = T/Z`. Since `d` is no square, one
addition formula serves all pairs of points, equal and opposite ones included.
-/

namespace ChainNode.Ed25519

def modulus : Nat := Nat.pow 2 255 - 19

instance : @NeZero Nat Zero.ofOfNat0 modulus := ⟨by decide⟩

abbrev Coord := Fin modulus

/-- The order of the base point. -/
def groupOrder : Nat := Nat.pow 2 252 + 27742317777372353535851937790883648493

/-- Powers by squaring, over the 256 bits of the exponent from the highest down. -/
def Coord.pow (x : Coord) (exponent : Nat) : Coord :=
  (List.range 256).foldr (fun i acc => if exponent.testBit i then acc * acc * x else acc * acc) 1

def Coord.inverse (x : Coord) : Coord := x.pow (modulus - 2)

/-- The curve's constant `-121665/121666`. -/
def d : Coord :=
  Fin.ofNat modulus 0x52036cee2b6ffe738cc740797779e89800700a4d4141d8ab75eb4dca135978a3

def sqrtMinusOne : Coord :=
  Fin.ofNat modulus 0x2b8324804fc1df0b2b4d00993dfbd7a72f431806ad2fe478c4ee1b274a0ea0b0

structure Point where
  x : Coord
  y : Coord
  z : Coord
  t : Coord
deriving DecidableEq

namespace Point

def identity : Point := ⟨0, 1, 1, 0⟩

def ofAffine (x y : Coord) : Point := ⟨x, y, 1, x * y⟩

/-- The generator: `y = 4/5` with the even `x`. -/
def base : Point :=
  ofAffine (Fin.ofNat modulus 0x216936d3cd6e53fec0a4e231fdd6dc5c692cc7609525a7b2c9562d608f25d51a)
    (Fin.ofNat modulus 0x6666666666666666666666666666666666666666666666666666666666666658)

def add (p q : Point) : Point :=
  let a := (p.y - p.x) * (q.y - q.x)
  let b := (p.y + p.x) * (q.y + q.x)
  let c := p.t * (d + d) * q.t
  let e := p.z * (q.z + q.z)
  ⟨(b - a) * (e - c), (e + c) * (b + a), (e - c) * (e + c), (b - a) * (b + a)⟩

def neg (p : Point) : Point := ⟨-p.x, p.y, p.z, -p.t⟩

/-- The `k`-fold of `p`, for `k` below `2²⁵⁶`. -/
def scale (k : Nat) (p : Point) : Point :=
  (List.range 256).foldr
    (fun i acc => if k.testBit i then (acc.add acc).add p else acc.add acc) identity

/-- The eightfold of the point is the neutral element. -/
def isSmallOrder (p : Point) : Bool :=
  let p₂ := p.add p
  let p₄ := p₂.add p₂
  let p₈ := p₄.add p₄
  -- the neutral element has `x = 0` and `y = 1`, whatever its `z`
  p₈.x == 0 && p₈.y == p₈.z

/-- The 32 bytes of `y`, lowest first, with the parity of `x` in the highest bit. -/
def compress (p : Point) : Bytes :=
  let zi := p.z.inverse
  LittleEndian.encode 32 ((p.y * zi).val + Nat.pow 2 255 * ((p.x * zi).val % 2))

/-- A square root of `u/v`, if there is one. The modulus is 5 modulo 8, so a candidate is one power
away, and it is right up to a root of `-1`. -/
def sqrtRatio? (u v : Coord) : Option Coord :=
  let v₃ := v * v * v
  let r := u * v₃ * (u * v₃ * v₃ * v).pow ((modulus - 5) / 8)
  let check := v * r * r
  if check = u then some r else if check = -u then some (r * sqrtMinusOne) else none

/-- The point that 32 bytes stand for. A `y` at or above the modulus is reduced, and `x = 0` may carry
the highest bit. -/
def decompress? (bs : Bytes) : Option Point := do
  let n := LittleEndian.decode bs
  let y := Fin.ofNat modulus (n % Nat.pow 2 255)
  let x ← sqrtRatio? (y * y - 1) (d * y * y + 1)
  return ofAffine (if x.val % 2 = n / Nat.pow 2 255 then x else -x) y

end Point
end ChainNode.Ed25519
