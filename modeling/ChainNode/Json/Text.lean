import ChainNode.Bytes

/-!
# What a JSON string stands for

The text between the quotes, read as characters or as bytes. An escape `\u` gives one UTF-16 unit;
two that form a surrogate pair give one character. Readers differ in what they let through:

* characters: no control characters, and no surrogate outside a pair;
* bytes: both are allowed, and a single surrogate is written in three bytes like any other character
  of its size.
-/

namespace ChainNode.Json

def hexDigit? (c : Char) : Option Nat :=
  if c.isDigit then some (c.toNat - 48)
  else if 'a' ≤ c ∧ c ≤ 'f' then some (c.toNat - 87)
  else if 'A' ≤ c ∧ c ≤ 'F' then some (c.toNat - 55)
  else none

/-- The value of four hexadecimal digits. -/
def unit? (a b c d : Char) : Option Nat := do
  return 4096 * (← hexDigit? a) + 256 * (← hexDigit? b) + 16 * (← hexDigit? c) + (← hexDigit? d)

/-- What a one-letter escape stands for. -/
def shortEscape? : Char → Option Nat
  | '"' => some 0x22
  | '\\' => some 0x5c
  | '/' => some 0x2f
  | 'b' => some 0x08
  | 'f' => some 0x0c
  | 'n' => some 0x0a
  | 'r' => some 0x0d
  | 't' => some 0x09
  | _ => none

/-- The code points of a raw string, surrogates from escapes still apart. `none` if an escape is
malformed. -/
def codePoints? : List Char → Option (List Nat)
  | [] => some []
  | '\\' :: 'u' :: a :: b :: c :: d :: cs => do
    let n ← unit? a b c d
    return n :: (← codePoints? cs)
  | '\\' :: c :: cs => do
    let n ← shortEscape? c
    return n :: (← codePoints? cs)
  | c :: cs => do
    if c = '\\' then failure
    return c.toNat :: (← codePoints? cs)

def isHighSurrogate (n : Nat) : Bool := 0xd800 ≤ n && n < 0xdc00

def isLowSurrogate (n : Nat) : Bool := 0xdc00 ≤ n && n < 0xe000

/-- Joins a high surrogate with a low one right behind it. -/
def joinSurrogates : List Nat → List Nat
  | [] => []
  | [n] => [n]
  | high :: low :: ns =>
    if isHighSurrogate high && isLowSurrogate low then
      (0x10000 + (high - 0xd800) * 0x400 + (low - 0xdc00)) :: joinSurrogates ns
    else
      high :: joinSurrogates (low :: ns)

def hasControl (raw : List Char) : Bool := raw.any (·.toNat < 0x20)

/-- The escapes are well formed and no control character stands unescaped: all that is asked of a
string that nobody reads. -/
def isReadable (raw : List Char) : Bool := !hasControl raw && (codePoints? raw).isSome

/-- A raw string as characters. -/
def chars? (raw : List Char) : Option (List Char) := do
  if hasControl raw then failure
  let points := joinSurrogates (← codePoints? raw)
  if points.any fun n => isHighSurrogate n || isLowSurrogate n then failure
  return points.map Char.ofNat

/-- A code point in one to four bytes. -/
def utf8 (n : Nat) : Bytes :=
  if n < 0x80 then [UInt8.ofNat n]
  else if n < 0x800 then [UInt8.ofNat (0xc0 + n / 0x40), UInt8.ofNat (0x80 + n % 0x40)]
  else if n < 0x10000 then
    [UInt8.ofNat (0xe0 + n / 0x1000), UInt8.ofNat (0x80 + n / 0x40 % 0x40),
      UInt8.ofNat (0x80 + n % 0x40)]
  else
    [UInt8.ofNat (0xf0 + n / 0x40000), UInt8.ofNat (0x80 + n / 0x1000 % 0x40),
      UInt8.ofNat (0x80 + n / 0x40 % 0x40), UInt8.ofNat (0x80 + n % 0x40)]

/-- A raw string as bytes. -/
def bytes? (raw : List Char) : Option Bytes :=
  (codePoints? raw).map fun points => (joinSurrogates points).flatMap utf8

end ChainNode.Json
