import ChainNode.Numeral

/-!
# JSON values and their compact text

A value keeps numbers and strings as they are written: a number as its literal, a string as the text
between its quotes, escapes included. What that text stands for depends on who asks
(`ChainNode.Json.Text`).
-/

namespace ChainNode.Json

inductive Value
  | null
  | bool (value : Bool)
  | number (literal : List Char)
  | string (raw : List Char)
  | array (items : List Value)
  | object (members : List (List Char × Value))

namespace Value

def ofNat (n : Nat) : Value := .number (Numeral.toChars n)

/-- Text that needs no escapes. -/
def ofPlain (text : String) : Value := .string text.toList

/-- An object whose names need no escapes. -/
def ofFields (fields : List (String × Value)) : Value :=
  .object (fields.map fun (name, v) => (name.toList, v))

/-- An unsigned integer below `bound`. A sign, a fraction or an exponent makes it none. -/
def toNat? (bound : Nat) : Value → Option Nat
  | .number literal => (Numeral.ofChars? literal).filter (· < bound)
  | _ => none

def quoted (raw : List Char) : List Char := '"' :: raw ++ ['"']

mutual

/-- The text of a value, without blanks. -/
def render : Value → List Char
  | .null => ['n', 'u', 'l', 'l']
  | .bool true => ['t', 'r', 'u', 'e']
  | .bool false => ['f', 'a', 'l', 's', 'e']
  | .number literal => literal
  | .string raw => quoted raw
  | .array items => '[' :: List.intercalate [','] (renderItems items) ++ [']']
  | .object members => '{' :: List.intercalate [','] (renderMembers members) ++ ['}']

def renderItems : List Value → List (List Char)
  | [] => []
  | v :: vs => render v :: renderItems vs

def renderMembers : List (List Char × Value) → List (List Char)
  | [] => []
  | m :: ms => renderMember m :: renderMembers ms

def renderMember : List Char × Value → List Char
  | (name, v) => quoted name ++ ':' :: render v

end

def text (v : Value) : String := String.ofList v.render

end Value
end ChainNode.Json
