/-!
# Decimal numerals

Digits are the ASCII digits, and a numeral may have leading zeros. `ofChars?_toChars` says that what is
written reads back.
-/

namespace ChainNode.Numeral

/-- The decimal digits of `n`, without leading zeros. -/
def toChars (n : Nat) : List Char := Nat.toDigits 10 n

/-- The value of one or more digits. -/
def ofChars? (cs : List Char) : Option Nat :=
  if cs ≠ [] ∧ cs.all Char.isDigit then some (Nat.ofDigitChars 10 cs 0) else none

/-- The digits behind a plus sign, if there is one. -/
def withoutPlus : List Char → List Char
  | '+' :: cs => cs
  | cs => cs

/-- A number that fits 32 bits, with or without a plus sign before it. -/
def toUInt32? (cs : List Char) : Option UInt32 :=
  match ofChars? (withoutPlus cs) with
  | some n => if n < UInt32.size then some (UInt32.ofNat n) else none
  | none => none

theorem all_isDigit_toChars (n : Nat) : (toChars n).all Char.isDigit = true :=
  List.all_eq_true.2 fun _ h => Nat.isDigit_of_mem_toDigits (by decide) (by decide) h

theorem ofChars?_toChars (n : Nat) : ofChars? (toChars n) = some n := by
  rw [ofChars?, if_pos ⟨Nat.toDigits_ne_nil, all_isDigit_toChars n⟩, toChars,
    Nat.ofDigitChars_ten_toDigits]

end ChainNode.Numeral
