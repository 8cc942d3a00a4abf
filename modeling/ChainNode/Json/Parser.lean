import ChainNode.Json.Value

/-!
# Reading JSON text

One value with nothing but blanks around it. Blanks are the space, the tab, the line feed and the
carriage return. The text of strings is taken as it stands; whether its escapes are right shows when it
is read.
-/

namespace ChainNode.Json

def isBlank (c : Char) : Bool := c = ' ' || c = '\t' || c = '\n' || c = '\r'

def skipBlanks (cs : List Char) : List Char := cs.dropWhile isBlank

/-- One or more digits, and what stands behind them. -/
def digits? (cs : List Char) : Option (List Char × List Char) :=
  match cs.span Char.isDigit with
  | ([], _) => none
  | r => some r

/-- The digits before point and exponent: a zero stands alone. -/
def integerPart? : List Char → Option (List Char × List Char)
  | '0' :: cs => some (['0'], cs)
  | cs => digits? cs

def fractionPart? : List Char → Option (List Char × List Char)
  | '.' :: cs => do
    let (ds, cs) ← digits? cs
    return ('.' :: ds, cs)
  | cs => some ([], cs)

def signPart : List Char → List Char × List Char
  | '-' :: cs => (['-'], cs)
  | '+' :: cs => (['+'], cs)
  | cs => ([], cs)

def exponentPart? : List Char → Option (List Char × List Char)
  | [] => some ([], [])
  | c :: cs =>
    if c = 'e' ∨ c = 'E' then do
      let (sign, cs) := signPart cs
      let (ds, cs) ← digits? cs
      return (c :: sign ++ ds, cs)
    else some ([], c :: cs)

def unsigned? (cs : List Char) : Option (List Char × List Char) := do
  let (i, cs) ← integerPart? cs
  let (f, cs) ← fractionPart? cs
  let (e, cs) ← exponentPart? cs
  return (i ++ f ++ e, cs)

def number? : List Char → Option (List Char × List Char)
  | '-' :: cs => do
    let (n, cs) ← unsigned? cs
    return ('-' :: n, cs)
  | cs => unsigned? cs

/-- The text up to the closing quote, and what stands behind it. A quote behind a backslash does not
close the string. -/
def stringBody? : List Char → Option (List Char × List Char)
  | [] => none
  | '"' :: cs => some ([], cs)
  | '\\' :: c :: cs => do
    let (raw, cs) ← stringBody? cs
    return ('\\' :: c :: raw, cs)
  | c :: cs => do
    let (raw, cs) ← stringBody? cs
    return (c :: raw, cs)

mutual

/-- A value at the front of the text, and what stands behind it. -/
def value? : (fuel : Nat) → List Char → Option (Value × List Char)
  | 0, _ => none
  | fuel + 1, cs =>
    match skipBlanks cs with
    | 'n' :: 'u' :: 'l' :: 'l' :: cs => some (.null, cs)
    | 't' :: 'r' :: 'u' :: 'e' :: cs => some (.bool true, cs)
    | 'f' :: 'a' :: 'l' :: 's' :: 'e' :: cs => some (.bool false, cs)
    | '"' :: cs => (stringBody? cs).map fun (raw, cs) => (.string raw, cs)
    | '[' :: cs =>
      match skipBlanks cs with
      | ']' :: cs => some (.array [], cs)
      | cs => (items? fuel cs).map fun (items, cs) => (.array items, cs)
    | '{' :: cs =>
      match skipBlanks cs with
      | '}' :: cs => some (.object [], cs)
      | cs => (members? fuel cs).map fun (members, cs) => (.object members, cs)
    | cs => (number? cs).map fun (literal, cs) => (.number literal, cs)

/-- One or more values with commas between them, and the bracket behind them. -/
def items? : (fuel : Nat) → List Char → Option (List Value × List Char)
  | 0, _ => none
  | fuel + 1, cs => do
    let (v, cs) ← value? fuel cs
    match skipBlanks cs with
    | ',' :: cs => (items? fuel cs).map fun (vs, cs) => (v :: vs, cs)
    | ']' :: cs => some ([v], cs)
    | _ => none

/-- One or more members with commas between them, and the brace behind them. -/
def members? : (fuel : Nat) → List Char → Option (List (List Char × Value) × List Char)
  | 0, _ => none
  | fuel + 1, cs => do
    let (m, cs) ← member? fuel cs
    match skipBlanks cs with
    | ',' :: cs => (members? fuel cs).map fun (ms, cs) => (m :: ms, cs)
    | '}' :: cs => some ([m], cs)
    | _ => none

def member? : (fuel : Nat) → List Char → Option ((List Char × Value) × List Char)
  | 0, _ => none
  | fuel + 1, cs =>
    match skipBlanks cs with
    | '"' :: cs => do
      let (name, cs) ← stringBody? cs
      match skipBlanks cs with
      | ':' :: cs => (value? fuel cs).map fun (v, cs) => ((name, v), cs)
      | _ => none
    | _ => none

end

/-- The value that the whole text stands for. Every level and every item takes a character or more, so
the fuel does not run out on well-formed text. -/
def parse? (cs : List Char) : Option Value := do
  let (v, cs) ← value? (3 * cs.length + 3) cs
  if skipBlanks cs = [] then some v else none

end ChainNode.Json
