import ChainNode.Json.Fields
import ChainNode.Json.Parser
import ChainNode.Transaction

/-!
# Transactions and chain tips in JSON

Both are written as compact objects with their fields in a fixed order.
-/

namespace ChainNode

open Json

namespace ChainTip

def toJson (tip : ChainTip) : Value :=
  .ofFields [("height", .ofNat tip.height.toNat), ("timestamp", .ofNat tip.timestamp.toNat)]

def ofJson? (v : Value) : Option ChainTip := do
  match ← v.fields? ["height".toList, "timestamp".toList] with
  | [height, timestamp] =>
    return ⟨UInt32.ofNat (← height.toNat? UInt32.size), UInt64.ofNat (← timestamp.toNat? UInt64.size)⟩
  | _ => failure

def render (tip : ChainTip) : String := tip.toJson.text

def parse? (text : String) : Option ChainTip := do ofJson? (← Json.parse? text.toList)

end ChainTip

namespace TransactionType

/-- A named type is a string, any other an object with its tag. -/
def toJson : TransactionType → Value
  | .payment => .ofPlain "Payment"
  | .transfer => .ofPlain "Transfer"
  | .message => .ofPlain "Message"
  | .chat => .ofPlain "Chat"
  | .other tag => .ofFields [("Other", .ofNat tag.toNat)]

def ofName? (name : List Char) : Option TransactionType :=
  if name = "Payment".toList then some .payment
  else if name = "Transfer".toList then some .transfer
  else if name = "Message".toList then some .message
  else if name = "Chat".toList then some .chat
  else none

/-- A named type may also be an object whose one member is the name with `null`. -/
def ofJson? : Value → Option TransactionType
  | .string raw => do ofName? (← chars? raw)
  | .object [(raw, v)] => do
    let name ← chars? raw
    if name = "Other".toList then return .other (← v.toByte?)
    match v with
    | .null => ofName? name
    | _ => failure
  | _ => none

end TransactionType

namespace Transaction

def toJson (tx : Transaction) : Value :=
  .ofFields [("tx_type", tx.type.toJson), ("timestamp", .ofNat tx.timestamp.toNat),
    ("creator", .ofBytes tx.creator.toBytes), ("body", .ofBytes tx.body),
    ("signature", .ofBytes tx.signature.toBytes)]

/-- A signature may also be a string that stands for its bytes. -/
def signatureOfJson? (v : Value) : Option Signature := do
  FixedBytes.ofBytes? 64 (← match v with
    | .string raw => Json.bytes? raw
    | v => v.toBytes?)

def ofJson? (v : Value) : Option Transaction := do
  match ← v.fields? (["tx_type", "timestamp", "creator", "body", "signature"].map String.toList) with
  | [type, timestamp, creator, body, signature] =>
    return {
      type := ← TransactionType.ofJson? type
      timestamp := UInt64.ofNat (← timestamp.toNat? UInt64.size)
      creator := ← FixedBytes.ofBytes? 32 (← creator.toBytes?)
      body := ← body.toBytes?
      signature := ← signatureOfJson? signature }
  | _ => failure

def render (tx : Transaction) : String := tx.toJson.text

def parse? (text : String) : Option Transaction := do ofJson? (← Json.parse? text.toList)

end Transaction
end ChainNode
