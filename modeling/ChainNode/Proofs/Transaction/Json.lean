import ChainNode.Proofs.Json.Fields
import ChainNode.Transaction.Json

/-!
# Transactions and chain tips read back

What is written for a transaction or a chain tip, character by character, and that reading it gives the same one
back. So no two of them share a text.
-/

namespace ChainNode

/-! ## Texts -/

namespace Json

/-- Names and the texts of their values, in braces. -/
def objectText (fields : List (String × String)) : String :=
  "\x7b" ++ ",".intercalate (fields.map fun m => "\"" ++ m.1 ++ "\":" ++ m.2) ++ "\x7d"

/-- The texts of the items, in brackets. -/
def arrayText (items : List String) : String := "[" ++ ",".intercalate items ++ "]"

/-- A byte string as the decimal numbers of its bytes. -/
def bytesText (bs : Bytes) : String := arrayText (bs.map fun b => toString b.toNat)

theorem text_ofNat (n : Nat) : (Value.ofNat n).text = toString n :=
  Nat.toString_eq_ofList_toDigits.symm

theorem text_ofPlain (text : String) : (Value.ofPlain text).text = "\"" ++ text ++ "\"" := by
  apply String.toList_inj.mp
  simp [Value.text, Value.ofPlain, Value.render, Value.quoted]

theorem text_array (vs : List Value) : (Value.array vs).text = arrayText (vs.map Value.text) := by
  have hitems : (vs.map Value.text).map String.toList = vs.map Value.render := by
    rw [List.map_map]
    exact List.map_congr_left fun v _ => String.toList_ofList
  apply String.toList_inj.mp
  rw [arrayText, String.toList_append, String.toList_append, String.toList_intercalate, hitems,
    Value.text, String.toList_ofList, Value.render, renderItems_eq_map]
  rfl

theorem text_ofBytes (bs : Bytes) : (Value.ofBytes bs).text = bytesText bs := by
  rw [Value.ofBytes, text_array, bytesText, List.map_map]
  exact congrArg arrayText (List.map_congr_left fun b _ => text_ofNat b.toNat)

theorem text_ofFields (fields : List (String × Value)) :
    (Value.ofFields fields).text = objectText (fields.map fun m => (m.1, m.2.text)) := by
  have hmembers : ((fields.map fun m => (m.1, m.2.text)).map fun m =>
        "\"" ++ m.1 ++ "\":" ++ m.2).map String.toList =
      (fields.map fun m => (m.1.toList, m.2)).map Value.renderMember := by
    simp only [List.map_map]
    refine List.map_congr_left fun m _ => ?_
    simp [renderMember_eq, Value.text]
  apply String.toList_inj.mp
  rw [objectText, String.toList_append, String.toList_append, String.toList_intercalate, hmembers,
    Value.text, String.toList_ofList, Value.ofFields, Value.render, renderMembers_eq_map]
  rfl

end Json

open Json

/-! ## Chain tips -/

namespace ChainTip

theorem areNames_fields : AreNames ["height", "timestamp"] := by decide

theorem plain_toJson (tip : ChainTip) : tip.toJson.Plain := by
  refine Value.plain_ofFields areNames_fields fun m hm => ?_
  simp only [List.mem_cons, List.not_mem_nil, or_false] at hm
  rcases hm with rfl | rfl <;> exact .number _

theorem ofJson?_toJson (tip : ChainTip) : ofJson? tip.toJson = some tip := by
  have hfields : tip.toJson.fields? ["height".toList, "timestamp".toList] =
      some [.ofNat tip.height.toNat, .ofNat tip.timestamp.toNat] :=
    Value.fields?_ofFields areNames_fields
  have hheight : (Value.ofNat tip.height.toNat).toNat? UInt32.size = some tip.height.toNat :=
    Value.toNat?_ofNat tip.height.toNat_lt
  have htime : (Value.ofNat tip.timestamp.toNat).toNat? UInt64.size = some tip.timestamp.toNat :=
    Value.toNat?_ofNat tip.timestamp.toNat_lt
  simp only [ofJson?, hfields, hheight, htime, Option.bind_eq_bind, Option.bind_some,
    UInt32.ofNat_toNat, UInt64.ofNat_toNat]
  rfl

theorem parse?_render (tip : ChainTip) : parse? tip.render = some tip := by
  rw [parse?, render, Value.text, String.toList_ofList, Json.parse?_render tip.plain_toJson]
  exact ofJson?_toJson tip

theorem render_eq (tip : ChainTip) :
    tip.render = objectText [
      ("height", toString tip.height.toNat),
      ("timestamp", toString tip.timestamp.toNat)] := by
  rw [render, toJson, text_ofFields]
  simp only [List.map_cons, List.map_nil, text_ofNat]

example : render ⟨42, 1700000000000⟩ = "\x7b\"height\":42,\"timestamp\":1700000000000\x7d" := by decide

theorem render_injective : Function.Injective render := by
  have hread : parse? ∘ render = some := funext parse?_render
  exact .of_comp (hread ▸ Option.some_injective _)

end ChainTip

/-! ## Types -/

namespace TransactionType

/-- A named type is its name in quotes, any other an object with its tag. -/
def text : TransactionType → String
  | .payment => "\"Payment\""
  | .transfer => "\"Transfer\""
  | .message => "\"Message\""
  | .chat => "\"Chat\""
  | .other tag => objectText [("Other", toString tag.toNat)]

theorem areNames_fields : AreNames ["Other"] := by decide

theorem plain_toJson (type : TransactionType) : type.toJson.Plain := by
  cases type with
  | other tag =>
    refine Value.plain_ofFields areNames_fields fun m hm => ?_
    rw [List.mem_singleton.mp hm]
    exact .number _
  | payment | transfer | message | chat => exact .string (by decide)

theorem ofJson?_toJson (type : TransactionType) : ofJson? type.toJson = some type := by
  cases type with
  | other tag =>
    have hname : chars? "Other".toList = some "Other".toList := chars?_plain (by decide)
    show ofJson? (.object [("Other".toList, .ofNat tag.toNat)]) = _
    rw [ofJson?, hname]
    show (Value.toByte? _).bind _ = _
    rw [Value.toByte?_ofNat]
    rfl
  | payment | transfer | message | chat => rfl

theorem text_toJson (type : TransactionType) : type.toJson.text = type.text := by
  cases type with
  | other tag =>
    rw [toJson, text_ofFields]
    simp only [List.map_cons, List.map_nil, text_ofNat, text]
  | payment | transfer | message | chat => exact text_ofPlain _

end TransactionType

/-! ## Transactions -/

namespace Transaction

theorem areNames_fields : AreNames ["tx_type", "timestamp", "creator", "body", "signature"] := by decide

theorem plain_toJson (tx : Transaction) : tx.toJson.Plain := by
  refine Value.plain_ofFields areNames_fields fun m hm => ?_
  simp only [List.mem_cons, List.not_mem_nil, or_false] at hm
  rcases hm with rfl | rfl | rfl | rfl | rfl
  · exact tx.type.plain_toJson
  · exact .number _
  · exact Value.plain_ofBytes _
  · exact Value.plain_ofBytes _
  · exact Value.plain_ofBytes _

theorem signatureOfJson?_ofBytes (signature : Signature) :
    signatureOfJson? (.ofBytes signature.toBytes) = some signature := by
  show ((Value.ofBytes signature.toBytes).toBytes?).bind (FixedBytes.ofBytes? 64) = _
  rw [Value.toBytes?_ofBytes, Option.bind_some, FixedBytes.ofBytes?_toBytes]

theorem ofJson?_toJson (tx : Transaction) : ofJson? tx.toJson = some tx := by
  have hfields : tx.toJson.fields?
      (["tx_type", "timestamp", "creator", "body", "signature"].map String.toList) =
      some [tx.type.toJson, .ofNat tx.timestamp.toNat, .ofBytes tx.creator.toBytes, .ofBytes tx.body,
        .ofBytes tx.signature.toBytes] :=
    Value.fields?_ofFields areNames_fields
  have htime : (Value.ofNat tx.timestamp.toNat).toNat? UInt64.size = some tx.timestamp.toNat :=
    Value.toNat?_ofNat tx.timestamp.toNat_lt
  simp only [ofJson?, hfields, htime, TransactionType.ofJson?_toJson, Value.toBytes?_ofBytes,
    FixedBytes.ofBytes?_toBytes, signatureOfJson?_ofBytes, Option.bind_eq_bind, Option.bind_some,
    UInt64.ofNat_toNat]
  rfl

theorem parse?_render (tx : Transaction) : parse? tx.render = some tx := by
  rw [parse?, render, Value.text, String.toList_ofList, Json.parse?_render tx.plain_toJson]
  exact ofJson?_toJson tx

theorem render_eq (tx : Transaction) :
    tx.render = objectText [
      ("tx_type", tx.type.text),
      ("timestamp", toString tx.timestamp.toNat),
      ("creator", bytesText tx.creator.toBytes),
      ("body", bytesText tx.body),
      ("signature", bytesText tx.signature.toBytes)] := by
  rw [render, toJson, text_ofFields]
  simp only [List.map_cons, List.map_nil, text_ofNat, text_ofBytes, TransactionType.text_toJson]

theorem render_injective : Function.Injective render := by
  have hread : parse? ∘ render = some := funext parse?_render
  exact .of_comp (hread ▸ Option.some_injective _)

end Transaction

/-- Every transaction and every chain tip is written as one compact object, in which numbers stand in decimal
and byte strings as arrays of such numbers. Reading that text gives back the same transaction or chain tip, an
`other` with the tag of a named type included, so no two have one text. -/
theorem json_texts_read_back :
    (∀ tx : Transaction,
      tx.render = objectText [
        ("tx_type", tx.type.text),
        ("timestamp", toString tx.timestamp.toNat),
        ("creator", bytesText tx.creator.toBytes),
        ("body", bytesText tx.body),
        ("signature", bytesText tx.signature.toBytes)] ∧
      Transaction.parse? tx.render = some tx) ∧
    (∀ tip : ChainTip,
      tip.render = objectText [
        ("height", toString tip.height.toNat),
        ("timestamp", toString tip.timestamp.toNat)] ∧
      ChainTip.parse? tip.render = some tip) ∧
    Function.Injective Transaction.render ∧ Function.Injective ChainTip.render :=
  ⟨fun tx => ⟨tx.render_eq, tx.parse?_render⟩, fun tip => ⟨tip.render_eq, tip.parse?_render⟩,
    Transaction.render_injective, ChainTip.render_injective⟩

end ChainNode
