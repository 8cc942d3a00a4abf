import ChainNode.Archive.Sample
import ChainNode.Proofs.Archive.Record

/-!
# Records tell where they end

A decoder delimits what it reads if it takes the same bytes off the front whatever follows them, and fails
where fewer of them are there. Decoders that delimit can be put one after the other, and if nothing may be
left behind the last, all of the input counts. So a record that is cut short anywhere is refused as cut
short, and one with bytes behind it is refused for these.
-/

namespace ChainNode.Archive

namespace Decoder

variable {α β : Type} {d m : Decoder α} {f : α → Decoder β} {Fault : ArchiveError → Prop}
  {fault : ArchiveError} {left : Nat → ArchiveError} {x : α} {y : β} {bs used used' : Bytes}

/-- Where only a part of the bytes is there, the decoder fails for want of the rest. -/
def RefusesCuts (d : Decoder α) (Fault : ArchiveError → Prop) (bs : Bytes) : Prop :=
  ∀ cut, cut <+: bs → cut ≠ bs → ∃ e, d cut = .error e ∧ Fault e

/-- The decoder reads `x` from just these bytes, whatever follows them. -/
structure Takes (d : Decoder α) (Fault : ArchiveError → Prop) (x : α) (used : Bytes) : Prop where
  reads : ∀ rest, d (used ++ rest) = .ok (x, rest)
  cuts : d.RefusesCuts Fault used

/-- Whatever the decoder reads, the bytes themselves say where it ends. -/
def Delimits (d : Decoder α) (Fault : ArchiveError → Prop) : Prop :=
  ∀ bs x rest, d bs = .ok (x, rest) → ∃ used, bs = used ++ rest ∧ d.Takes Fault x used

/-- The decoder reads these bytes, but neither a part of them nor any bytes more. -/
structure Fits (d : Decoder α) (Fault : ArchiveError → Prop) (left : Nat → ArchiveError)
    (bs : Bytes) : Prop where
  cuts : d.RefusesCuts Fault bs
  extended : ∀ more, more ≠ [] → d (bs ++ more) = .error (left more.length)

/-- Whatever the decoder reads is its whole input. -/
def Exhausts (d : Decoder α) (Fault : ArchiveError → Prop) (left : Nat → ArchiveError) : Prop :=
  ∀ bs x rest, d bs = .ok (x, rest) → d.Fits Fault left bs

/-! ## One after the other -/

/-- A part of two byte strings in a row that ends early does so in the first or in the second. -/
theorem cut_append {cut : Bytes} (h : cut <+: used ++ used') (hne : cut ≠ used ++ used') :
    (cut <+: used ∧ cut ≠ used) ∨ ∃ cut', cut = used ++ cut' ∧ cut' <+: used' ∧ cut' ≠ used' := by
  by_cases hfirst : used <+: cut
  · obtain ⟨cut', rfl⟩ := hfirst
    refine Or.inr ⟨cut', rfl, (List.prefix_append_right_inj used).mp h, ?_⟩
    rintro rfl
    exact hne rfl
  · refine Or.inl ⟨?_, ?_⟩
    · exact (List.prefix_or_prefix_of_prefix h (List.prefix_append used used')).resolve_right hfirst
    · rintro rfl
      exact hfirst (List.prefix_refl cut)

theorem Takes.refusesCuts_bind (hm : m.Takes Fault x used) (hf : (f x).RefusesCuts Fault used') :
    (m >>= f).RefusesCuts Fault (used ++ used') := by
  intro cut hcut hne
  rcases cut_append hcut hne with ⟨hfirst, hless⟩ | ⟨cut', rfl, hsecond, hless⟩
  · obtain ⟨e, he, hfault⟩ := hm.cuts cut hfirst hless
    exact ⟨e, bind_of_error he, hfault⟩
  · -- the first part is whole, so the second decoder gets what is left of the cut
    rw [bind_of_ok (hm.reads cut')]
    exact hf cut' hsecond hless

theorem Delimits.bind (hm : m.Delimits Fault) (hf : ∀ x, (f x).Delimits Fault) :
    (m >>= f).Delimits Fault := by
  intro bs y rest h
  obtain ⟨x, mid, hx, hy⟩ := bind_eq_ok_iff.mp h
  obtain ⟨used, rfl, hfirst⟩ := hm bs x mid hx
  obtain ⟨used', rfl, hsecond⟩ := hf x mid y rest hy
  refine ⟨used ++ used', (List.append_assoc ..).symm, ?_, hfirst.refusesCuts_bind hsecond.cuts⟩
  intro rest
  rw [List.append_assoc, bind_of_ok (hfirst.reads _), hsecond.reads]

theorem Delimits.exhausts_bind (hm : m.Delimits Fault) (hf : ∀ x, (f x).Exhausts Fault left) :
    (m >>= f).Exhausts Fault left := by
  intro bs y rest h
  obtain ⟨x, mid, hx, hy⟩ := bind_eq_ok_iff.mp h
  obtain ⟨used, rfl, hfirst⟩ := hm bs x mid hx
  have hsecond := hf x mid y rest hy
  refine ⟨hfirst.refusesCuts_bind hsecond.cuts, fun more hmore => ?_⟩
  rw [List.append_assoc, bind_of_ok (hfirst.reads _), hsecond.extended more hmore]

/-! ## The parts of a record -/

/-- There is nothing to cut off. -/
theorem refusesCuts_nil (d : Decoder α) (Fault : ArchiveError → Prop) : d.RefusesCuts Fault [] := by
  intro cut hcut hne
  exact absurd (List.prefix_nil.mp hcut) hne

theorem delimits_pure (x : α) : (pure x : Decoder α).Delimits Fault := by
  intro bs x' rest h
  obtain ⟨rfl, rfl⟩ := pure_eq_ok_iff.mp h
  exact ⟨[], rfl, fun rest => rfl, refusesCuts_nil _ _⟩

theorem delimits_throw (e : ArchiveError) : (throw e : Decoder α).Delimits Fault := by
  intro bs x rest h
  cases h

theorem delimits_take (n : Nat) (hfault : Fault fault) : (take n fault).Delimits Fault := by
  intro bs x rest h
  refine ⟨x.toBytes, eq_append_of_take h, fun rest => take_append x rest fault, ?_⟩
  intro cut hcut hne
  -- a prefix of all the bytes that were asked for would be the bytes themselves
  have hshort : ¬ n ≤ cut.length := by
    intro hle
    have hlength := x.length_toBytes
    exact hne (hcut.eq_of_length_le (by omega))
  exact ⟨fault, by rw [take, dif_neg hshort], hfault⟩

theorem Delimits.guard {c : Prop} [Decidable c] {e : ArchiveError} (h : d.Delimits Fault) :
    (if c then (throw e : Decoder Unit) >>= fun _ => d else d).Delimits Fault := by
  split
  · exact (delimits_throw e).bind fun _ => h
  · exact h

theorem Exhausts.guard {c : Prop} [Decidable c] {e : ArchiveError} (h : d.Exhausts Fault left) :
    (if c then (throw e : Decoder Unit) >>= fun _ => d else d).Exhausts Fault left := by
  split
  · exact (delimits_throw e).exhausts_bind fun _ => h
  · exact h

theorem Delimits.times (h : d.Delimits Fault) (count : Nat) : (times d count).Delimits Fault := by
  induction count with
  | zero => exact delimits_pure []
  | succ count ih => exact h.bind fun x => ih.bind fun xs => delimits_pure (x :: xs)

theorem exhausts_finish (x : α) : (finish left >>= fun _ => (pure x : Decoder α)).Exhausts Fault left := by
  intro bs x' rest h
  obtain ⟨u, mid, hu, hx⟩ := bind_eq_ok_iff.mp h
  obtain ⟨rfl, rfl⟩ := finish_eq_ok_iff.mp hu
  refine ⟨refusesCuts_nil _ _, fun more hmore => ?_⟩
  apply bind_of_error
  rw [List.nil_append, finish, if_neg (by simpa using hmore)]

/-- What is read is told from anything longer or shorter by the bytes alone. -/
theorem Exhausts.run' {left : Nat → ArchiveError} (h : d.Exhausts Fault left)
    (hx : d.run' bs = .ok x) :
    (∀ cut, cut <+: bs → cut ≠ bs → ∃ e, d.run' cut = .error e ∧ Fault e) ∧
      ∀ more, more ≠ [] → d.run' (bs ++ more) = .error (left more.length) := by
  obtain ⟨rest, hd⟩ := run'_eq_ok_iff.mp hx
  have hfits := h bs x rest hd
  refine ⟨fun cut hcut hne => ?_, fun more hmore => run'_of_error (hfits.extended more hmore)⟩
  obtain ⟨e, he, hfault⟩ := hfits.cuts cut hcut hne
  exact ⟨e, run'_of_error he, hfault⟩

end Decoder

open Decoder

/-! ## Version 1 -/

namespace RecordV1

def CutShort (e : ArchiveError) : Prop := ∃ field, e = .truncated field

variable (field : Field)

theorem delimits_readInt32 : (readInt32 field).Delimits CutShort :=
  (delimits_take 4 ⟨field, rfl⟩).bind fun _ => delimits_pure _

theorem delimits_readLength : (readLength field).Delimits CutShort :=
  (delimits_readInt32 field).bind fun _ => (delimits_pure _).guard

theorem delimits_readItem : (readItem field).Delimits CutShort :=
  (delimits_readLength field).bind fun length =>
    (delimits_take length ⟨field, rfl⟩).bind fun _ => delimits_pure _

theorem delimits_readList : (readList field).Delimits CutShort := by
  refine (delimits_readLength field).bind fun count => ?_
  intro bs items rest h
  simp only [bind_eq_ok_iff, guard_eq_ok_iff, get_eq_ok_iff] at h
  obtain ⟨left, r, ⟨rfl, rfl⟩, -, hitems⟩ := h
  obtain ⟨hcount, -, hbytes⟩ := ((reads_readItem field).times count).mp hitems
  obtain ⟨used, hused, htakes⟩ := (delimits_readItem field).times count _ _ _ hitems
  -- the items take no less than the check on their count asks for
  have hroom : 4 * count ≤ used.length := by
    have hmin := length_le_length_flatMap_encodeItem items
    rw [hbytes, List.append_left_inj] at hused
    rwa [hused, hcount] at hmin
  refine ⟨used, hused, fun rest => ?_, fun cut hcut hne => ?_⟩
  · have hpasses : ¬ (used ++ rest).length / 4 < count := by
      rw [List.length_append]
      omega
    rw [bind_of_ok (rfl : (get : Decoder Bytes) _ = .ok (used ++ rest, used ++ rest)), if_neg hpasses]
    exact htakes.reads rest
  · rw [bind_of_ok (rfl : (get : Decoder Bytes) _ = .ok (cut, cut))]
    by_cases hrefused : cut.length / 4 < count
    · exact ⟨.truncated field, guard_of_pos hrefused, field, rfl⟩
    · rw [if_neg hrefused]
      exact htakes.cuts cut hcut hne

theorem exhausts_readBlock :
    readBlock.Exhausts CutShort fun left => .decode (.trailingBytes left) := by
  refine (delimits_readInt32 .blockHeight).exhausts_bind fun height => ?_
  refine (delimits_take 8 ⟨.blockTimestamp, rfl⟩).exhausts_bind fun timestamp => ?_
  refine Exhausts.guard (Exhausts.guard ?_)
  refine (delimits_take 64 ⟨.blockReference, rfl⟩).exhausts_bind fun reference => ?_
  refine (delimits_take 32 ⟨.minterPublicKey, rfl⟩).exhausts_bind fun minter => ?_
  refine (delimits_take 64 ⟨.blockSignature, rfl⟩).exhausts_bind fun signature => ?_
  refine (delimits_readList .transactions).exhausts_bind fun transactions => ?_
  exact (delimits_readList .atStates).exhausts_bind fun states => exhausts_finish _

end RecordV1

/-! ## Version 2 -/

namespace RecordV2

def CutShort (e : ArchiveError) : Prop :=
  ∃ fault detail, e = .decode fault ∧ fault.message = "io error: " ++ detail

theorem cutShort_endOfRecord : CutShort (.decode .endOfRecord) :=
  ⟨.endOfRecord, "unexpected end of file", rfl, rfl⟩

theorem cutShort_bytesCutOff : CutShort (.decode .bytesCutOff) :=
  ⟨.bytesCutOff, "", rfl, rfl⟩

theorem delimits_readNat (width : Nat) : (readNat width).Delimits CutShort :=
  (delimits_take width cutShort_endOfRecord).bind fun _ => delimits_pure _

theorem delimits_readSignature : readSignature.Delimits CutShort := by
  refine (delimits_readNat 8).bind fun length => ?_
  refine (delimits_take length cutShort_bytesCutOff).bind fun bs => ?_
  split
  · exact delimits_pure _
  · exact delimits_throw _

theorem delimits_readTransaction : readTransaction.Delimits CutShort :=
  (delimits_readNat 8).bind fun length =>
    (delimits_take length cutShort_endOfRecord).bind fun _ => delimits_pure _

theorem exhausts_readBody : readBody.Exhausts CutShort fun _ => .decode .bytesRemaining := by
  refine (delimits_readNat 4).exhausts_bind fun height => ?_
  refine (delimits_readNat 8).exhausts_bind fun timestamp => ?_
  refine delimits_readSignature.exhausts_bind fun reference => ?_
  refine (delimits_take 32 cutShort_endOfRecord).exhausts_bind fun minter => ?_
  refine delimits_readSignature.exhausts_bind fun signature => ?_
  refine (delimits_readNat 8).exhausts_bind fun count => ?_
  refine (delimits_readTransaction.times count).exhausts_bind fun transactions => ?_
  exact (delimits_take 32 cutShort_endOfRecord).exhausts_bind fun digest => exhausts_finish _

theorem decode_of_error {bs : Bytes} {e : ArchiveError} (h : Body.decode bs = .error e) :
    decode bs = .error e := by
  rw [decode, h]
  rfl

end RecordV2

/-! ## Either version -/

namespace RecordVersion

variable {v : RecordVersion} {bs : Bytes} {b : Block}

/-- The error says that the record ends too early. -/
def CutShort : RecordVersion → ArchiveError → Prop
  | .v1 => RecordV1.CutShort
  | .v2 => RecordV2.CutShort

/-- The error for a record with so many bytes behind its end. -/
def overlong : RecordVersion → Nat → ArchiveError
  | .v1, count => .decode (.trailingBytes count)
  | .v2, _ => .decode .bytesRemaining

theorem decode_cut_and_extended (h : v.decode bs = .ok b) :
    (∀ cut, cut <+: bs → cut ≠ bs → ∃ e, v.decode cut = .error e ∧ v.CutShort e) ∧
      ∀ more, more ≠ [] → v.decode (bs ++ more) = .error (v.overlong more.length) := by
  cases v with
  | v1 => exact RecordV1.exhausts_readBlock.run' h
  | v2 =>
    obtain ⟨r, hr, -⟩ := RecordV2.decode_eq_ok_iff_body.mp h
    obtain ⟨hcut, hextended⟩ := RecordV2.exhausts_readBody.run' hr
    refine ⟨fun cut hpre hne => ?_, fun more hmore => RecordV2.decode_of_error (hextended more hmore)⟩
    obtain ⟨e, he, hfault⟩ := hcut cut hpre hne
    exact ⟨e, RecordV2.decode_of_error he, hfault⟩

/-- No record is the beginning of another. What is left of one that was cut, at any byte, is refused as
cut short, and one with bytes behind it is refused for these. -/
theorem records_self_delimiting (v : RecordVersion) (bs : Bytes) (b : Block)
    (h : v.decode bs = .ok b) :
    (∀ cs c, v.decode cs = .ok c → cs <+: bs ∨ bs <+: cs → cs = bs) ∧
    (∀ cut, cut <+: bs → cut ≠ bs → ∃ e, v.decode cut = .error e ∧ v.CutShort e) ∧
    ∀ more, more ≠ [] → v.decode (bs ++ more) = .error (v.overlong more.length) := by
  have hparts := decode_cut_and_extended h
  refine ⟨fun cs c hc hprefix => ?_, hparts⟩
  by_contra hne
  -- the shorter of the two would be a part of the longer that is refused
  rcases hprefix with hshorter | hlonger
  · obtain ⟨e, he, -⟩ := hparts.1 cs hshorter hne
    rw [hc] at he
    cases he
  · obtain ⟨e, he, -⟩ := (decode_cut_and_extended hc).1 bs hlonger (Ne.symm hne)
    rw [h] at he
    cases he

/-- A record that ends within the length of its second transaction, and one with a byte to spare. -/
theorem records_self_delimiting_sample :
    let bs := RecordVersion.v2.encode (Sample.blockV2 7)
    RecordVersion.v2.decode bs = .ok (Sample.blockV2 7) ∧
      RecordVersion.v2.decode (bs.take 215) = .error (.decode .endOfRecord) ∧
      (∃ e, RecordVersion.v2.decode (bs.take 215) = .error e ∧ RecordVersion.v2.CutShort e) ∧
      RecordVersion.v2.decode (bs ++ [0]) = .error (.decode .bytesRemaining) := by
  intro bs
  have hdecode : RecordVersion.v2.decode bs = .ok (Sample.blockV2 7) :=
    decode_eq_ok_iff.mpr ⟨⟨by decide, _, rfl⟩, rfl⟩
  obtain ⟨-, hcut, hextended⟩ := records_self_delimiting _ _ _ hdecode
  refine ⟨hdecode, by decide +kernel, ?_, hextended [0] (by decide)⟩
  exact hcut _ (List.take_prefix 215 bs) (by decide +kernel)

end RecordVersion
end ChainNode.Archive
