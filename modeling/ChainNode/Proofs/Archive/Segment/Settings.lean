import ChainNode.Proofs.Archive.Segment.Builder
import Mathlib.Data.List.Induction

/-!
# What a segment answers

A builder starts out plain and takes any number of settings: its version, payloads and framed heights of
single heights, a name. What the built segment answers for a height follows from the version, from the
range, and from what was last set for this height; nothing that was set for another height matters.
-/

namespace ChainNode.Archive

/-- The sample block in the form that the version can represent. -/
def RecordVersion.sample : RecordVersion → UInt32 → Block
  | .v1 => Sample.blockV1
  | .v2 => Sample.blockV2

namespace SegmentBuilder

variable {α : Type} {b : SegmentBuilder} {v : RecordVersion} {height : UInt32}

/-! ## Settings -/

inductive Setting
  | version (version : Int32)
  | payload (height : UInt32) (payload : Bytes)
  | framedHeight (height : UInt32) (framedAs : Int32)
  | name (name : String)

def set (b : SegmentBuilder) : Setting → SegmentBuilder
  | .version version => b.withVersion version
  | .payload height payload => b.withPayload height payload
  | .framedHeight height framedAs => b.withFramedHeight height framedAs
  | .name name => b.withName name

/-- The builder after settings that were made one after the other. -/
def setAll (b : SegmentBuilder) (settings : List Setting) : SegmentBuilder := settings.foldl set b

namespace Setting

def version? : Setting → Option Int32
  | .version v => some v
  | _ => none

def payload? (height : UInt32) : Setting → Option Bytes
  | .payload h bytes => if height = h then some bytes else none
  | _ => none

def framedHeight? (height : UInt32) : Setting → Option Int32
  | .framedHeight h found => if height = h then some found else none
  | _ => none

end Setting

/-- What the last of the settings that concern it has set. -/
def lastSet (concerns : Setting → Option α) (settings : List Setting) : Option α :=
  settings.reverse.findSome? concerns

/-- A part of the builder that each setting replaces or leaves as it is. -/
theorem part_setAll (part : SegmentBuilder → Option α) (concerns : Setting → Option α)
    (hset : ∀ b setting, part (set b setting) = (concerns setting).or (part b))
    (b : SegmentBuilder) (settings : List Setting) :
    part (b.setAll settings) = (lastSet concerns settings).or (part b) := by
  -- from the last setting back to the first, as the last one counts
  induction settings using List.reverseRecOn with
  | nil => rfl
  | append_singleton settings setting ih =>
    have hlast : lastSet concerns (settings ++ [setting]) =
        (concerns setting).or (lastSet concerns settings) := by
      rw [lastSet, List.reverse_append, List.reverse_singleton, List.singleton_append,
        List.findSome?_cons, lastSet]
      cases concerns setting <;> rfl
    rw [hlast, Option.or_assoc, ← ih, ← hset]
    exact congrArg part (List.foldl_concat ..)

theorem version_setAll (b : SegmentBuilder) (settings : List Setting) :
    (b.setAll settings).version = (lastSet Setting.version? settings).getD b.version := by
  have hpart := part_setAll (fun b => some b.version) Setting.version?
    (fun b setting => by cases setting <;> rfl) b settings
  apply Option.some.inj
  rw [hpart]
  cases lastSet Setting.version? settings <;> rfl

theorem lookup_cons_eq_or (key height : UInt32) (x : α) (xs : List (UInt32 × α)) :
    ((key, x) :: xs).lookup height = (if height = key then some x else none).or (xs.lookup height) := by
  by_cases h : height = key
  · simp [h]
  · simp [List.lookup_cons, beq_false_of_ne h, h]

theorem payloads_setAll (b : SegmentBuilder) (settings : List Setting) (height : UInt32) :
    (b.setAll settings).payloads.lookup height =
      (lastSet (Setting.payload? height) settings).or (b.payloads.lookup height) := by
  apply part_setAll fun b => b.payloads.lookup height
  intro b setting
  cases setting with
  | payload key payload => exact lookup_cons_eq_or key height payload b.payloads
  | _ => rfl

theorem framed_setAll (b : SegmentBuilder) (settings : List Setting) (height : UInt32) :
    (b.setAll settings).framed.lookup height =
      (lastSet (Setting.framedHeight? height) settings).or (b.framed.lookup height) := by
  apply part_setAll fun b => b.framed.lookup height
  intro b setting
  cases setting with
  | framedHeight key framedAs => exact lookup_cons_eq_or key height framedAs b.framed
  | _ => rfl

/-- No setting changes the range or the variable part of the header. -/
theorem range_setAll (b : SegmentBuilder) (settings : List Setting) :
    (b.setAll settings).first = b.first ∧ (b.setAll settings).last = b.last ∧
      (b.setAll settings).variableHeader = b.variableHeader := by
  induction settings generalizing b with
  | nil => exact ⟨rfl, rfl, rfl⟩
  | cons setting settings ih =>
    obtain ⟨hfirst, hlast, hvariable⟩ := ih (set b setting)
    refine ⟨hfirst.trans ?_, hlast.trans ?_, hvariable.trans ?_⟩ <;> cases setting <;> rfl

/-! ## Answers -/

/-- What a segment answers for a height that has `framed` and `payload` set for it. A segment's heights
fit signed words, so the range that is reported is the range of the segment. -/
def answer (version : Int32) (first last height : UInt32) (framed : Option Int32)
    (payload : Option Bytes) : Except ArchiveError SerializedBlock :=
  match RecordVersion.ofFormat? version with
  | none => .error (.unsupportedVersion version)
  | some v =>
    if height < first ∨ last < height then .error (.heightOutOfRange height first.toInt32 last.toInt32)
    else
      match framed.filter fun found => found.toInt ≠ (height.toNat : Int) with
      | some found => .error (.heightMismatch height found.toInt)
      | none => .ok ⟨height, v, payload.getD (v.encode (v.sample height))⟩

theorem defaultPayload_eq (hversion : b.version = v.format) :
    b.defaultPayload height = v.encode (v.sample height) := by
  rw [defaultPayload, hversion]
  cases v <;> rfl

theorem record_build_eq_answer (hb : b.Fits) (height : UInt32) :
    Segment.record b.build height = answer b.version b.first b.last height (b.framed.lookup height)
      (b.payloads.lookup height) := by
  unfold answer
  cases hversion : RecordVersion.ofFormat? b.version with
  | none => exact record_build_of_unsupported hb hversion
  | some v =>
    rw [RecordVersion.ofFormat?_eq_some_iff] at hversion
    simp only
    split
    · rename_i hheight
      exact record_build_of_outside hb hversion hheight
    · rename_i hheight
      rw [not_or, UInt32.not_lt, UInt32.not_lt] at hheight
      obtain ⟨hfirst, hlast⟩ := hheight
      split
      · rename_i found hfound
        obtain ⟨hfound, hne⟩ := Option.filter_eq_some_iff.mp hfound
        have hframed : b.framedHeight height = found := by rw [framedHeight, hfound]; rfl
        rw [← hframed]
        rw [← hframed] at hne
        exact record_build_of_framed hb hversion hfirst hlast (of_decide_eq_true hne)
      · rename_i hnone
        have hframed : b.framedHeight height = height.toInt32 := by
          rw [framedHeight]
          cases hfound : b.framed.lookup height with
          | none => rfl
          | some found =>
            rw [hfound, Option.filter_eq_none_iff] at hnone
            -- a frame that says the height as a signed number says it as a word
            have hsame : found.toInt = height.toNat := by simpa using hnone found rfl
            exact congrArg UInt32.toInt32 (toInt_eq_toNat_iff.mp hsame).1
        rw [record_build hb hversion hfirst hlast hframed, payload, defaultPayload_eq hversion]

/-- Reading a built segment gives back what was set, whatever the settings are: first the version counts,
then the range, then the height that the record was last framed as, and the record holds the payload that
was last set, or that of the sample block. What was set for other heights changes nothing. -/
theorem record_inverts_build (plain : SegmentBuilder) (first last : UInt32) (settings : List Setting)
    (hplain : plain = v1 first last ∨ plain = v2 first last) (hrange : first ≤ last)
    (hlast : last.toNat < 2 ^ 31) (hdata : (plain.setAll settings).data.length < 2 ^ 31)
    (height : UInt32) :
    Segment.record (plain.setAll settings).build height =
      answer ((lastSet Setting.version? settings).getD plain.version) first last height
        (lastSet (Setting.framedHeight? height) settings) (lastSet (Setting.payload? height) settings) ∧
    ∀ others : List Setting, (plain.setAll others).data.length < 2 ^ 31 →
      lastSet Setting.version? others = lastSet Setting.version? settings →
      lastSet (Setting.framedHeight? height) others = lastSet (Setting.framedHeight? height) settings →
      lastSet (Setting.payload? height) others = lastSet (Setting.payload? height) settings →
      Segment.record (plain.setAll others).build height =
        Segment.record (plain.setAll settings).build height := by
  -- nothing is set to begin with, and the variable part of the header is short
  obtain ⟨hplainFirst, hplainLast, hvariable, hpayloads, hframed⟩ :
      plain.first = first ∧ plain.last = last ∧ plain.variableHeader.length < 2 ^ 31 ∧
        plain.payloads = [] ∧ plain.framed = [] := by
    have hshort : (v1 0 0).variableHeader.length < 2 ^ 31 := by decide
    rcases hplain with rfl | rfl <;> exact ⟨rfl, rfl, hshort, rfl, rfl⟩
  have hrecord (settings : List Setting) (hdata : (plain.setAll settings).data.length < 2 ^ 31) :
      Segment.record (plain.setAll settings).build height =
        answer ((lastSet Setting.version? settings).getD plain.version) first last height
          (lastSet (Setting.framedHeight? height) settings)
          (lastSet (Setting.payload? height) settings) := by
    obtain ⟨hsetFirst, hsetLast, hsetVariable⟩ := range_setAll plain settings
    rw [hplainFirst] at hsetFirst
    rw [hplainLast] at hsetLast
    have hb : (plain.setAll settings).Fits := by
      refine ⟨?_, ?_, ?_, hdata⟩
      · rw [hsetFirst, hsetLast]
        exact hrange
      · rw [hsetLast]
        exact hlast
      · rw [hsetVariable]
        exact hvariable
    rw [record_build_eq_answer hb, hsetFirst, hsetLast, version_setAll, framed_setAll, payloads_setAll,
      hframed, hpayloads, List.lookup_nil, List.lookup_nil, Option.or_none, Option.or_none]
  refine ⟨hrecord settings hdata, fun others hothers hversion hframed hpayload => ?_⟩
  rw [hrecord others hothers, hrecord settings hdata, hversion, hframed, hpayload]

/-- Settings of every kind, one of them taken back and one made twice. -/
def mixedSettings : List Setting :=
  [.framedHeight 1 7, .payload 2 [1], .version 2, .framedHeight 3 (-1), .payload 2 [4, 5], .name "odd",
    .framedHeight 1 1]

theorem record_inverts_build_mixed :
    let b := (v1 1 3).setAll mixedSettings
    b.data.length < 2 ^ 31 ∧
    Segment.record b.build 1 = .ok ⟨1, .v2, RecordV2.encode (Sample.blockV2 1)⟩ ∧
    Segment.record b.build 2 = .ok ⟨2, .v2, [4, 5]⟩ ∧
    Segment.record b.build 3 = .error (.heightMismatch 3 (-1)) ∧
    Segment.record b.build 4 = .error (.heightOutOfRange 4 1 3) ∧
    Segment.record (b.setAll [.version 0, .payload 2 []]).build 2 = .error (.unsupportedVersion 0) ∧
    Segment.record ((v1 1 3).setAll [.payload 2 [4, 5], .version 2]).build 2 = .ok ⟨2, .v2, [4, 5]⟩ := by
  intro b
  have hdata : b.data.length < 2 ^ 31 := by decide +kernel
  have hinverts := record_inverts_build (v1 1 3) 1 3 mixedSettings (Or.inl rfl) (by decide) (by decide)
    hdata
  have hunsupported := record_inverts_build (v1 1 3) 1 3 (mixedSettings ++ [.version 0, .payload 2 []])
    (Or.inl rfl) (by decide) (by decide) (by decide +kernel) 2
  have hfewer := (hinverts 2).2 [.payload 2 [4, 5], .version 2] (by decide +kernel) rfl rfl rfl
  exact ⟨hdata, (hinverts 1).1, (hinverts 2).1, (hinverts 3).1, (hinverts 4).1, hunsupported.1,
    hfewer.trans (hinverts 2).1⟩

end SegmentBuilder
end ChainNode.Archive
