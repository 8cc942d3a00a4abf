import ChainNode.Admission.Cooldowns
import ChainNode.Bytes.Hex
import Mathlib.Data.List.Nodup

/-!
# Laws of the cool-downs

A record changes the end of one signature only, and a purge drops exactly the ends that lie in the past.
The text of a signature names it uniquely, so cool-downs may as well be filed under texts.
-/

namespace ChainNode

theorem digitChar_inj {m n : Nat} (hm : m < 16) (hn : n < 16)
    (h : Nat.digitChar m = Nat.digitChar n) : m = n := by
  have hall : ∀ m < 16, ∀ n < 16, Nat.digitChar m = Nat.digitChar n → m = n := by decide
  exact hall m hm n hn h

theorem Hex.encode_injective : Function.Injective Hex.encode := by
  intro xs ys h
  rw [Hex.encode, Hex.encode, String.ofList_inj] at h
  induction xs generalizing ys with
  | nil =>
    cases ys with
    | nil => rfl
    | cons y ys => simp at h
  | cons x xs ih =>
    cases ys with
    | nil => simp at h
    | cons y ys =>
      simp only [List.flatMap_cons, List.cons_append, List.nil_append, List.cons.injEq] at h
      -- two digits a byte, so the first two characters give the first byte
      obtain ⟨hhigh, hlow, hrest⟩ := h
      have hx := x.toNat_lt
      have hy := y.toNat_lt
      have h16 := digitChar_inj (by omega) (by omega) hhigh
      have h1 := digitChar_inj (by omega) (by omega) hlow
      have hxy : x = y := UInt8.toNat_inj.mp (by omega)
      rw [hxy, ih hrest]

theorem signatureText_injective : Function.Injective signatureText := by
  intro s t h
  exact FixedBytes.ext (Hex.encode_injective h)

namespace Admission.Cooldowns

/-- No signature has two cool-downs on record. -/
def Distinct (c : Cooldowns) : Prop := (c.expiries.map Prod.fst).Nodup

/-- The cool-downs filed under the texts of their signatures. -/
def filed (c : Cooldowns) : List (String × UInt64) :=
  c.expiries.map fun (s, expiry) => (signatureText s, expiry)

variable {c : Cooldowns} {s t : Signature} {now expiry : UInt64}

theorem lookup_filed (c : Cooldowns) (s : Signature) :
    c.filed.lookup (signatureText s) = c.expiry? s := by
  obtain ⟨es⟩ := c
  show (es.map fun (s, expiry) => (signatureText s, expiry)).lookup (signatureText s) = es.lookup s
  induction es with
  | nil => rfl
  | cons e es ih =>
    obtain ⟨t, expiry⟩ := e
    rw [List.map_cons, List.lookup_cons, List.lookup_cons, ih]
    by_cases h : s = t
    · rw [h, beq_self_eq_true, beq_self_eq_true]
    · rw [beq_false_of_ne h, beq_false_of_ne fun ht => h (signatureText_injective ht)]

/-- A record touches only what is filed under the text of its own signature. -/
theorem lookup_filed_record {text : String} (h : text ≠ signatureText s) (c : Cooldowns)
    (expiry : UInt64) : (c.record s expiry).filed.lookup text = c.filed.lookup text := by
  obtain ⟨es⟩ := c
  show ((extend s expiry es).map fun (s, expiry) => (signatureText s, expiry)).lookup text =
    (es.map fun (s, expiry) => (signatureText s, expiry)).lookup text
  induction es with
  | nil => rw [extend, List.map_singleton, List.lookup_cons, beq_false_of_ne h, List.map_nil]
  | cons e es ih =>
    obtain ⟨t, e⟩ := e
    unfold extend
    by_cases ht : t = s
    · rw [if_pos ht, ht, List.map_cons, List.map_cons, List.lookup_cons, List.lookup_cons,
        beq_false_of_ne h]
    · rw [if_neg ht, List.map_cons, List.map_cons, List.lookup_cons, List.lookup_cons, ih]

theorem isCoolingDown_iff :
    c.isCoolingDown s now = true ↔ ∃ expiry, c.expiry? s = some expiry ∧ now ≤ expiry := by
  unfold isCoolingDown
  cases h : c.expiry? s with
  | none => simp
  | some e => simp

theorem expiry?_record (c : Cooldowns) (s t : Signature) (expiry : UInt64) :
    (c.record s expiry).expiry? t =
      if t = s then some ((c.expiry? s).elim expiry (max · expiry)) else c.expiry? t :=
  lookup_extend s t expiry c.expiries

theorem map_fst_extend (s : Signature) (expiry : UInt64) (es : List (Signature × UInt64)) :
    (extend s expiry es).map Prod.fst =
      if s ∈ es.map Prod.fst then es.map Prod.fst else es.map Prod.fst ++ [s] := by
  induction es with
  | nil => rfl
  | cons e es ih =>
    obtain ⟨t, e⟩ := e
    unfold extend
    by_cases h : t = s
    · simp [h]
    · rw [if_neg h, List.map_cons, ih, List.map_cons]
      by_cases hs : s ∈ es.map Prod.fst
      · rw [if_pos hs, if_pos (List.mem_cons_of_mem _ hs)]
      · have hcons : s ∉ t :: es.map Prod.fst :=
          fun hm => (List.mem_cons.mp hm).elim (Ne.symm h) hs
        rw [if_neg hs, if_neg hcons, List.cons_append]

theorem Distinct.record (h : c.Distinct) (s : Signature) (expiry : UInt64) :
    (c.record s expiry).Distinct := by
  rw [Distinct, Cooldowns.record, map_fst_extend]
  split
  · exact h
  · rename_i hs
    rw [← List.concat_eq_append]
    exact List.Nodup.concat hs h

theorem Distinct.purge (h : c.Distinct) (now : UInt64) : (c.purge now).2.Distinct :=
  List.Nodup.sublist (List.filter_sublist.map _) h

theorem lookup_eq_none_of_notMem {es : List (Signature × UInt64)} (h : s ∉ es.map Prod.fst) :
    es.lookup s = none := by
  rw [List.lookup_eq_none_iff]
  intro e he
  have hne : s ≠ e.1 := fun hs => h (hs ▸ List.mem_map_of_mem he)
  simpa using hne

theorem Distinct.expiry?_purge (h : c.Distinct) (now : UInt64) (s : Signature) :
    (c.purge now).2.expiry? s = (c.expiry? s).filter fun expiry => decide (now ≤ expiry) := by
  obtain ⟨es⟩ := c
  change (es.map Prod.fst).Nodup at h
  show (es.filter fun (_, expiry) => decide (now ≤ expiry)).lookup s =
    (es.lookup s).filter fun expiry => decide (now ≤ expiry)
  induction es with
  | nil => rfl
  | cons e es ih =>
    obtain ⟨t, e⟩ := e
    rw [List.map_cons, List.nodup_cons] at h
    obtain ⟨hfresh, hrest⟩ := h
    rw [List.filter_cons, List.lookup_cons]
    by_cases hst : s = t
    · subst hst
      rw [beq_self_eq_true]
      by_cases hnow : now ≤ e
      · simp [hnow, Option.filter]
      · -- the only cool-down of the signature is dropped
        have hnone := lookup_eq_none_of_notMem hfresh
        simp [hnow, ih hrest, hnone, Option.filter]
    · rw [beq_false_of_ne hst]
      by_cases hnow : now ≤ e
      · simp [hnow, List.lookup_cons, beq_false_of_ne hst, ih hrest]
      · simp [hnow, ih hrest]

theorem Distinct.mem_iff (h : c.Distinct) :
    (s, expiry) ∈ c.expiries ↔ c.expiry? s = some expiry := by
  obtain ⟨es⟩ := c
  change (es.map Prod.fst).Nodup at h
  show (s, expiry) ∈ es ↔ es.lookup s = some expiry
  induction es with
  | nil => simp
  | cons e es ih =>
    obtain ⟨t, e⟩ := e
    rw [List.map_cons, List.nodup_cons] at h
    rw [List.lookup_cons, List.mem_cons, ih h.2]
    by_cases hst : s = t
    · subst hst
      have hnone := lookup_eq_none_of_notMem h.1
      simp [hnone, eq_comm]
    · simp [beq_false_of_ne hst, hst]

/-- Cool-downs on distinct signatures are told apart by looking them up. -/
theorem Distinct.perm_of_expiry? {d : Cooldowns} (hc : c.Distinct) (hd : d.Distinct)
    (h : ∀ s, c.expiry? s = d.expiry? s) : c.expiries.Perm d.expiries := by
  refine (List.perm_ext_iff_of_nodup hc.of_map hd.of_map).mpr ?_
  intro ⟨s, expiry⟩
  rw [hc.mem_iff, hd.mem_iff, h]

theorem fst_purge_perm {d : Cooldowns} (h : c.expiries.Perm d.expiries) (now : UInt64) :
    (c.purge now).1 = (d.purge now).1 := by
  rw [purge, purge, h.length_eq, (h.filter _).length_eq]

theorem size_purge_add (c : Cooldowns) (now : UInt64) : (c.purge now).2.size + (c.purge now).1 = c.size :=
  Nat.add_sub_cancel' (List.length_filter_le _ _)

theorem purge_eq_self (h : (c.purge now).1 = 0) : (c.purge now).2 = c := by
  have hsize := c.size_purge_add now
  rw [h, Nat.add_zero] at hsize
  have hall : (c.expiries.filter fun (_, expiry) => decide (now ≤ expiry)) = c.expiries :=
    List.filter_eq_self.mpr (List.length_filter_eq_length_iff.mp hsize)
  exact congrArg Cooldowns.mk hall

end Admission.Cooldowns
end ChainNode
