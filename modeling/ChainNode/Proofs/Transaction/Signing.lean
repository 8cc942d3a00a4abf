import ChainNode.Transaction
import Mathlib.Data.Set.Operations

/-!
# What a signature covers

Tag, timestamp and creator have fixed widths and the body comes last, so what is signed can be taken apart in
one way only. The tag tells the type, except that an `other` may have the tag of a named type.
-/

namespace ChainNode

/-! ## Tags -/

namespace TransactionType

variable {a b : TransactionType}

theorem mem_range_ofTag_iff : a ∈ Set.range ofTag ↔ ofTag a.tag = a := by
  constructor
  · rintro ⟨n, rfl⟩
    rw [tag_ofTag]
  · exact fun h => ⟨a.tag, h⟩

theorem ofTag_tag_or (a : TransactionType) : ofTag a.tag = a ∨ a = .other a.tag := by
  cases a with
  | other n => exact Or.inr rfl
  | payment | transfer | message | chat => exact Or.inl rfl

/-- Two types share a tag only if one of them is the `other` with the tag of the other one. -/
theorem tag_eq_tag_iff : a.tag = b.tag ↔ a = b ∨ a = .other b.tag ∨ b = .other a.tag := by
  constructor
  · intro h
    rcases ofTag_tag_or a with ha | ha
    · rcases ofTag_tag_or b with hb | hb
      · -- both are what the tag stands for
        exact Or.inl (by rw [← ha, h, hb])
      · exact Or.inr (Or.inr (by rw [hb, h]))
    · exact Or.inr (Or.inl (by rw [ha, h]))
  · rintro (rfl | h | h)
    · rfl
    · rw [h, tag]
    · rw [h, tag]

end TransactionType

/-! ## Signed bytes -/

namespace Transaction

/-- The same with its type as an `other` of the same tag. -/
def asOther (t : Transaction) : Transaction := { t with type := .other t.type.tag }

variable {t u : Transaction}

theorem signedBytes_eq_iff :
    t.signedBytes = u.signedBytes ↔
      t.type.tag = u.type.tag ∧ t.timestamp = u.timestamp ∧ t.creator = u.creator ∧
        t.body = u.body := by
  constructor
  · intro h
    have hparts : t.type.tag :: (BigEndian.ofUInt64 t.timestamp ++ t.creator.toBytes ++ t.body) =
        u.type.tag :: (BigEndian.ofUInt64 u.timestamp ++ u.creator.toBytes ++ u.body) := h
    obtain ⟨htag, hrest⟩ := List.cons.inj hparts
    -- cut behind the creator, then behind the timestamp: both cuts are at fixed places
    have hwidth (x : Transaction) :
        (BigEndian.ofUInt64 x.timestamp ++ x.creator.toBytes).length = 8 + 32 := by
      rw [List.length_append, BigEndian.length_ofUInt64, x.creator.length_toBytes]
    obtain ⟨hfront, hbody⟩ := List.append_inj hrest ((hwidth t).trans (hwidth u).symm)
    have htimes : (BigEndian.ofUInt64 t.timestamp).length = (BigEndian.ofUInt64 u.timestamp).length := by
      rw [BigEndian.length_ofUInt64, BigEndian.length_ofUInt64]
    obtain ⟨htime, hcreator⟩ := List.append_inj hfront htimes
    refine ⟨htag, ?_, FixedBytes.ext hcreator, hbody⟩
    rw [← BigEndian.toUInt64_ofUInt64 t.timestamp, htime, BigEndian.toUInt64_ofUInt64]
  · rintro ⟨htag, htime, hcreator, hbody⟩
    rw [signedBytes, signedBytes, htag, htime, hcreator, hbody]

theorem verifies_congr (hbytes : t.signedBytes = u.signedBytes) (hcreator : t.creator = u.creator)
    (hsignature : t.signature = u.signature) : t.verifies = u.verifies := by
  rw [verifies, verifies, hbytes, hcreator, hsignature]

theorem eq_of_signedBytes (htype : t.type = u.type) (hbytes : t.signedBytes = u.signedBytes)
    (hsignature : t.signature = u.signature) : t = u := by
  obtain ⟨-, htime, hcreator, hbody⟩ := signedBytes_eq_iff.mp hbytes
  cases t
  cases u
  cases htype
  cases htime
  cases hcreator
  cases hbody
  cases hsignature
  rfl

theorem signedBytes_asOther (t : Transaction) : t.asOther.signedBytes = t.signedBytes :=
  signedBytes_eq_iff.mpr ⟨rfl, rfl, rfl, rfl⟩

theorem sameSigned_iff :
    t.signedBytes = u.signedBytes ∧ t.signature = u.signature ↔
      t = u ∨ t = u.asOther ∨ u = t.asOther := by
  constructor
  · rintro ⟨hbytes, hsignature⟩
    have htag := (signedBytes_eq_iff.mp hbytes).1
    rcases TransactionType.tag_eq_tag_iff.mp htag with htype | htype | htype
    · exact Or.inl (eq_of_signedBytes htype hbytes hsignature)
    · have hother : t.signedBytes = u.asOther.signedBytes := by rw [hbytes, signedBytes_asOther]
      exact Or.inr (Or.inl (eq_of_signedBytes htype hother hsignature))
    · have hother : u.signedBytes = t.asOther.signedBytes := by rw [← hbytes, signedBytes_asOther]
      exact Or.inr (Or.inr (eq_of_signedBytes htype hother hsignature.symm))
  · rintro (rfl | rfl | rfl)
    · exact ⟨rfl, rfl⟩
    · exact ⟨u.signedBytes_asOther, rfl⟩
    · exact ⟨t.signedBytes_asOther.symm, rfl⟩

/-- What is signed determines the tag, the timestamp, the creator and the body, and nothing else: no byte can
pass from one to the next unnoticed, and the verdict depends on these and the signature alone. With types that
tags stand for, it determines the transaction. All that it leaves open is whether a named type is written as
the `other` with its tag. -/
theorem signature_covers_fields (t u : Transaction) :
    (t.signedBytes = u.signedBytes ↔
      t.type.tag = u.type.tag ∧ t.timestamp = u.timestamp ∧ t.creator = u.creator ∧
        t.body = u.body) ∧
    (t.type.tag = u.type.tag → t.timestamp = u.timestamp → t.creator = u.creator →
      t.body = u.body → t.signature = u.signature → t.verifies = u.verifies) ∧
    (t.type ∈ Set.range TransactionType.ofTag → u.type ∈ Set.range TransactionType.ofTag →
      t.signedBytes = u.signedBytes → t.signature = u.signature → t = u) ∧
    (t.signedBytes = u.signedBytes ∧ t.signature = u.signature ↔
      t = u ∨ t = u.asOther ∨ u = t.asOther) := by
  refine ⟨signedBytes_eq_iff, ?_, ?_, sameSigned_iff⟩
  · intro htag htime hcreator hbody hsignature
    have hbytes := signedBytes_eq_iff.mpr ⟨htag, htime, hcreator, hbody⟩
    exact verifies_congr hbytes hcreator hsignature
  · intro ht hu hbytes hsignature
    have htag := (signedBytes_eq_iff.mp hbytes).1
    have htype : t.type = u.type := by
      rw [← TransactionType.mem_range_ofTag_iff.mp ht, htag, TransactionType.mem_range_ofTag_iff.mp hu]
    exact eq_of_signedBytes htype hbytes hsignature

/-- A chat message under its tag: read back from the tag it is the same, as an `other` it is not, and yet it
is signed and verified like it. -/
theorem signature_covers_fields_chat :
    let chat : Transaction := ⟨.chat, 1000, .replicate 32 7, [1, 2, 3], .replicate 64 9⟩
    let readBack : Transaction := { chat with type := .ofTag 18 }
    readBack = chat ∧ chat.asOther ≠ chat ∧ chat.asOther.signedBytes = chat.signedBytes ∧
      chat.asOther.verifies = chat.verifies := by
  intro chat readBack
  obtain ⟨hbytes, hverifies, -, -⟩ := signature_covers_fields chat.asOther chat
  obtain ⟨-, -, hequal, -⟩ := signature_covers_fields readBack chat
  exact ⟨hequal ⟨18, rfl⟩ ⟨18, rfl⟩ rfl rfl, by decide, hbytes.mpr ⟨rfl, rfl, rfl, rfl⟩,
    hverifies rfl rfl rfl rfl rfl⟩

end Transaction
end ChainNode
