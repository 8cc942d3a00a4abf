import ChainNode.Json.Text
import ChainNode.Json.Value

/-!
# Reading records from JSON

A record is an object that has each of its fields once, or an array that has them all in order. Other
members of the object are passed over, as long as their strings are readable.
-/

namespace ChainNode.Json.Value

mutual

/-- All strings in the value are readable. -/
def isReadable : Value → Bool
  | .null | .bool _ | .number _ => true
  | .string raw => Json.isReadable raw
  | .array items => areReadable items
  | .object members => membersReadable members

def areReadable : List Value → Bool
  | [] => true
  | v :: vs => isReadable v && areReadable vs

def membersReadable : List (List Char × Value) → Bool
  | [] => true
  | m :: ms => memberReadable m && membersReadable ms

def memberReadable : List Char × Value → Bool
  | (name, v) => Json.isReadable name && isReadable v

end

/-- The members with their names as text. -/
def named? : List (List Char × Value) → Option (List (List Char × Value))
  | [] => some []
  | (name, v) :: ms => do
    return (← chars? name, v) :: (← named? ms)

/-- The value of the one member of this name. -/
def only? (name : List Char) (members : List (List Char × Value)) : Option Value :=
  match members.filter (·.1 = name) with
  | [(_, v)] => some v
  | _ => none

/-- The values of a record's fields, in the order of `names`. -/
def fields? (names : List (List Char)) : Value → Option (List Value)
  | .array items => if items.length = names.length then some items else none
  | .object members => do
    let members ← named? members
    -- the values of other members are never looked at, but their text must be in order
    if members.any fun (name, v) => !names.contains name && !v.isReadable then failure
    names.mapM fun name => only? name members
  | _ => none

def toByte? (v : Value) : Option UInt8 := (v.toNat? 256).map UInt8.ofNat

/-- A byte string, as an array of numbers. -/
def toBytes? : Value → Option Bytes
  | .array items => items.mapM toByte?
  | _ => none

def ofBytes (bs : Bytes) : Value := .array (bs.map fun b => ofNat b.toNat)

end ChainNode.Json.Value
