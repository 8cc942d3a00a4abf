import ChainNode.Numeral

/-!
# Segment file names

`<first>-<last>.<extension>`: the name of a segment tells which heights it covers, both ends included.
-/

namespace ChainNode.Archive

/-- A segment file and the heights it covers. -/
structure SegmentEntry where
  fileName : String
  first : UInt32
  last : UInt32
  /-- `last - first`. -/
  length : UInt32
deriving DecidableEq

/-- What stands before the first `c` of a text, and what stands behind it. -/
def splitAtFirst (c : Char) : List Char → Option (List Char × List Char)
  | [] => none
  | x :: xs =>
    if x = c then some ([], xs) else (splitAtFirst c xs).map fun (before, behind) => (x :: before, behind)

/-- The split is the one whose first part is free of `c`. -/
theorem splitAtFirst_eq_some_iff {c : Char} {cs before behind : List Char} :
    splitAtFirst c cs = some (before, behind) ↔ cs = before ++ c :: behind ∧ c ∉ before := by
  induction cs generalizing before with
  | nil => simp [splitAtFirst]
  | cons x cs ih =>
    unfold splitAtFirst
    by_cases h : x = c
    · subst h
      cases before with
      | nil => simp
      | cons y ys =>
        -- nothing stands before a first character that is already the separator
        simp only [if_true, Option.some.injEq, Prod.mk.injEq, List.cons_append, List.cons.injEq,
          List.mem_cons, not_or]
        exact ⟨fun e => (List.cons_ne_nil y ys e.1.symm).elim, fun e => absurd e.1.1 e.2.1⟩
    · rw [if_neg h]
      cases before with
      | nil => simp [h]
      | cons y ys =>
        simp only [Option.map_eq_some_iff, Prod.exists, Prod.mk.injEq, List.cons_append,
          List.cons.injEq, List.mem_cons, not_or]
        constructor
        · rintro ⟨a, b, hab, ⟨rfl, rfl⟩, rfl⟩
          have hs := ih.1 hab
          exact ⟨⟨rfl, hs.1⟩, fun e => h e.symm, hs.2⟩
        · rintro ⟨⟨rfl, hs⟩, _, hc⟩
          exact ⟨ys, behind, ih.2 ⟨hs, hc⟩, ⟨rfl, rfl⟩, rfl⟩

namespace SegmentEntry

def covers (e : SegmentEntry) (height : UInt32) : Bool :=
  decide (e.first ≤ height) && decide (height ≤ e.last)

/-- The entry that a file name stands for; `none` for names of another shape, and for ranges whose last
height lies below the first. -/
def ofName? (name : String) : Option SegmentEntry := do
  let (stem, extension) ← splitAtFirst '.' name.toList
  if extension = [] then failure
  let (firstText, lastText) ← splitAtFirst '-' stem
  let first ← Numeral.toUInt32? firstText
  let last ← Numeral.toUInt32? lastText
  if last < first then failure
  return ⟨name, first, last, last - first⟩

/-- The name under which a segment is stored by default. -/
def defaultName (first last : UInt32) : String :=
  String.ofList (Numeral.toChars first.toNat ++ '-' :: Numeral.toChars last.toNat ++ ".dat".toList)

end SegmentEntry
end ChainNode.Archive
