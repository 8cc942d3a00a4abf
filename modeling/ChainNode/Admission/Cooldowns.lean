import ChainNode.Bytes

/-!
# Cool-downs

Signatures that were refused are barred for a while. A cool-down includes its last millisecond, and a
later end replaces an earlier one, never the reverse.
-/

namespace ChainNode.Admission

/-- The end of each signature's cool-down. -/
structure Cooldowns where
  expiries : List (Signature × UInt64) := []
deriving DecidableEq

namespace Cooldowns

def expiry? (c : Cooldowns) (s : Signature) : Option UInt64 := c.expiries.lookup s

def isCoolingDown (c : Cooldowns) (s : Signature) (now : UInt64) : Bool :=
  match c.expiry? s with
  | some expiry => decide (now ≤ expiry)
  | none => false

def extend (s : Signature) (expiry : UInt64) : List (Signature × UInt64) → List (Signature × UInt64)
  | [] => [(s, expiry)]
  | (t, e) :: rest => if t = s then (t, max e expiry) :: rest else (t, e) :: extend s expiry rest

/-- Bars `s` until `expiry` at least. -/
def record (c : Cooldowns) (s : Signature) (expiry : UInt64) : Cooldowns :=
  ⟨extend s expiry c.expiries⟩

/-- A second cool-down can only prolong the first, and bars no other signature. -/
theorem lookup_extend (s t : Signature) (expiry : UInt64) (es : List (Signature × UInt64)) :
    (extend s expiry es).lookup t =
      if t = s then some ((es.lookup s).elim expiry (max · expiry)) else es.lookup t := by
  induction es with
  | nil =>
    by_cases h : t = s
    · simp [extend, h]
    · simp [extend, List.lookup_cons, beq_false_of_ne h, h]
  | cons e es ih =>
    obtain ⟨u, e⟩ := e
    unfold extend
    by_cases hu : u = s
    · by_cases h : t = s
      · simp [hu, h]
      · simp [hu, List.lookup_cons, beq_false_of_ne h, h]
    · by_cases h : t = u
      · simp [hu, h]
      · simp [hu, List.lookup_cons, beq_false_of_ne h, beq_false_of_ne (Ne.symm hu), ih]

/-- Drops the cool-downs that have ended, and says how many there were. -/
def purge (c : Cooldowns) (now : UInt64) : Nat × Cooldowns :=
  let left := c.expiries.filter fun (_, expiry) => decide (now ≤ expiry)
  (c.expiries.length - left.length, ⟨left⟩)

def size (c : Cooldowns) : Nat := c.expiries.length

def isEmpty (c : Cooldowns) : Bool := c.expiries.isEmpty

end Cooldowns
end ChainNode.Admission
