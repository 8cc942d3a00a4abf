import ChainNode.Proofs.Archive.Index

/-!
# Ranges of blocks

A range is fetched height by height, and each fetch may drop the snapshot or list the archive anew. As
long as the snapshot lists the archive as it is, that changes nothing in what the next fetch finds, and
the range is the run of blocks up to the first height that has none. A range that is fetched in two parts
is the same, if the second part is fetched only where the first was complete.
-/

namespace ChainNode.Archive.Reader

variable {storage : Storage} {s t : Snapshot} {found : UInt32 → Option Block} {blocks : List Block}
  {b : Block} {count : Nat} {height first middle last : UInt32}

/-! ## Runs -/

/-- The blocks from `height` on, at most `count`, up to the first that is not found. -/
def runOf (found : UInt32 → Option Block) : (count : Nat) → (height : UInt32) → List Block
  | 0, _ => []
  | count + 1, height =>
    match found height with
    | none => []
    | some b => b :: runOf found count (height + 1)

/-- The blocks of consecutive heights from `height` on: of as many as are found, out of `count`. -/
structure LongestRun (found : UInt32 → Option Block) (height : UInt32) (count : Nat)
    (blocks : List Block) : Prop where
  within : blocks.length ≤ count
  consecutive : ∀ i < blocks.length, blocks[i]? = found (height + UInt32.ofNat i)
  longest : ∀ k ≤ count, (∀ i < k, (found (height + UInt32.ofNat i)).isSome) → k ≤ blocks.length

theorem add_ofNat_zero (height : UInt32) : height + UInt32.ofNat 0 = height := UInt32.add_zero height

theorem succ_add_ofNat (height : UInt32) (i : Nat) :
    height + 1 + UInt32.ofNat i = height + UInt32.ofNat (i + 1) := by
  rw [UInt32.ofNat_add, UInt32.add_assoc, UInt32.add_comm 1]
  rfl

/-- Up to the maximal height, heights are counted as numbers are. -/
theorem toNat_add_ofNat {i : Nat} (h : height.toNat + i < 2 ^ 32) :
    (height + UInt32.ofNat i).toNat = height.toNat + i := by
  rw [UInt32.toNat_add, UInt32.toNat_ofNat']
  omega

theorem longestRun_nil (h : found height = none) : LongestRun found height count [] where
  within := Nat.zero_le count
  consecutive := nofun
  longest := by
    intro k _ hall
    cases k with
    | zero => exact Nat.le_refl 0
    | succ k =>
      have hfirst := hall 0 (Nat.zero_lt_succ k)
      rw [add_ofNat_zero, h] at hfirst
      cases hfirst

theorem LongestRun.cons (h : found height = some b) (hrest : LongestRun found (height + 1) count blocks) :
    LongestRun found height (count + 1) (b :: blocks) where
  within := Nat.succ_le_succ hrest.within
  consecutive := by
    intro i hi
    cases i with
    | zero => rw [add_ofNat_zero, h, List.getElem?_cons_zero]
    | succ i =>
      rw [List.getElem?_cons_succ, ← succ_add_ofNat]
      exact hrest.consecutive i (Nat.lt_of_succ_lt_succ hi)
  longest := by
    intro k hk hall
    cases k with
    | zero => exact Nat.zero_le _
    | succ k =>
      apply Nat.succ_le_succ
      apply hrest.longest k (Nat.le_of_succ_le_succ hk)
      intro i hi
      rw [succ_add_ofNat]
      exact hall (i + 1) (Nat.succ_lt_succ hi)

theorem longestRun_runOf (found : UInt32 → Option Block) (count : Nat) (height : UInt32) :
    LongestRun found height count (runOf found count height) := by
  induction count generalizing height with
  | zero => exact ⟨Nat.le_refl 0, nofun, fun k hk _ => hk⟩
  | succ count ih =>
    rw [runOf]
    cases hfound : found height with
    | none => exact longestRun_nil hfound
    | some b => exact (ih (height + 1)).cons hfound

/-- A run goes on past `m` heights only where each of these had a block. -/
theorem runOf_add (found : UInt32 → Option Block) (m n : Nat) (height : UInt32) :
    runOf found (m + n) height =
      if (runOf found m height).length < m then runOf found m height
      else runOf found m height ++ runOf found n (height + UInt32.ofNat m) := by
  induction m generalizing height with
  | zero => simp [runOf]
  | succ m ih =>
    rw [Nat.succ_add, runOf, runOf]
    cases hfound : found height with
    | none => simp
    | some b =>
      simp only [ih, List.length_cons, Nat.succ_lt_succ_iff, succ_add_ofNat]
      split <;> rfl

/-! ## What a reader fetches -/

theorem Current.of_leaves_current (hs : Current storage s) (h : Leaves storage s t) :
    Current storage t := by
  rcases h with rfl | rfl | hlisted
  · exact hs
  · exact nofun
  · exact Current.of_leaves (Or.inr (Or.inr hlisted))

/-- The fetches of a run find what each of them would find as the first. -/
theorem Current.fetchRun (hs : Current storage s) : (fetchRun storage count height s).1 =
    runOf (fun height => (Reader.fetchBlock storage height none).1) count height := by
  induction count generalizing height s with
  | zero => rfl
  | succ count ih =>
    have hblock : (Reader.fetchBlock storage height s).1 = (Reader.fetchBlock storage height none).1 :=
      hs.fetchBlock
    have hleft : Leaves storage s (Reader.fetchBlock storage height s).2 := leaves_fetchBlock height s
    rw [runOf, Reader.fetchRun, ← hblock]
    cases hfetch : Reader.fetchBlock storage height s with
    | mk found left =>
      rw [hfetch] at hleft
      cases found with
      | none => rfl
      | some b => exact congrArg (b :: ·) (ih (hs.of_leaves_current hleft))

theorem Current.fetchRange (hs : Current storage s) : (fetchRange storage first last s).1 =
    runOf (fun height => (Reader.fetchBlock storage height none).1) (last.toNat + 1 - first.toNat) first :=
  hs.fetchRun

/-- A range is the longest run of found blocks from its first height on, so each block has the height of
its place. If the range is cut in two, the second part follows the first where that is complete, and is
left out where it is not. -/
theorem fetchRange_longest_run (storage : Storage) (s : Snapshot) (hs : Current storage s)
    (first last : UInt32) :
    let blocks := (fetchRange storage first last s).1
    LongestRun (fun height => (fetchBlock storage height s).1) first (last.toNat + 1 - first.toNat)
      blocks ∧
    (∀ i b, blocks[i]? = some b → b.height.toNat = first.toNat + i) ∧
    ∀ middle, first ≤ middle → middle < last → ∀ t u, Current storage t → Current storage u →
      let head := (fetchRange storage first middle t).1
      blocks =
        if head.length < middle.toNat - first.toNat + 1 then head
        else head ++ (fetchRange storage (middle + 1) last u).1 := by
  intro blocks
  have hfound : (fun height => (fetchBlock storage height s).1) =
      fun height => (fetchBlock storage height none).1 := funext fun height => hs.fetchBlock
  have hrun : LongestRun (fun height => (fetchBlock storage height s).1) first
      (last.toNat + 1 - first.toNat) blocks := by
    show LongestRun _ _ _ (fetchRange storage first last s).1
    rw [hs.fetchRange, hfound]
    exact longestRun_runOf _ _ first
  refine ⟨hrun, fun i b hb => ?_, fun middle hfirst hlast t u ht hu => ?_⟩
  · have hi : i < blocks.length := (List.getElem?_eq_some_iff.mp hb).1
    have hheight : b.height = first + UInt32.ofNat i :=
      height_of_fetchBlock ((hrun.consecutive i hi).symm.trans hb)
    have hwithin := hrun.within
    have hbound := last.toNat_lt
    rw [hheight]
    exact toNat_add_ofNat (by omega)
  · intro head
    rw [UInt32.le_iff_toNat_le] at hfirst
    rw [UInt32.lt_iff_toNat_lt] at hlast
    have hbound := last.toNat_lt
    -- there is a height after the middle one, so neither sum wraps
    have hnext : (middle + 1).toNat = middle.toNat + 1 := toNat_add_ofNat (i := 1) (by omega)
    have hmiddle : first + UInt32.ofNat (middle.toNat - first.toNat + 1) = middle + 1 := by
      rw [← UInt32.toNat_inj, hnext, toNat_add_ofNat (by omega)]
      omega
    have hcount : last.toNat + 1 - first.toNat =
        (middle.toNat - first.toNat + 1) + (last.toNat + 1 - (middle + 1).toNat) := by omega
    have hhead : middle.toNat + 1 - first.toNat = middle.toNat - first.toNat + 1 := by omega
    show (fetchRange storage first last s).1 = _
    rw [hs.fetchRange, hcount, runOf_add, hmiddle, ← hu.fetchRange, ← hhead, ← ht.fetchRange]

/-- Two segments, a record of the second damaged: the run ends before it, wherever the range is cut, and
starts anew behind it, up to the maximal height. -/
theorem fetchRange_longest_run_damaged :
    let damaged := (SegmentBuilder.v2 3 6).withPayload 5 [0xff, 0xff, 0xff]
    let storage := Storage.folder [(SegmentBuilder.v1 1 2).stored, damaged.stored]
    let s := (fetchBlock storage 2 none).2
    let blocks := [Sample.blockV1 1, Sample.blockV1 2, Sample.blockV2 3, Sample.blockV2 4]
    s ≠ none ∧ Current storage s ∧ (fetchRange storage 1 6 s).1 = blocks ∧
    LongestRun (fun height => (fetchBlock storage height s).1) 1 6 blocks ∧
    blocks = (fetchRange storage 1 2 none).1 ++ (fetchRange storage 3 6 s).1 ∧
    blocks = (fetchRange storage 1 5 s).1 ∧
    (fetchRange storage 6 4294967295 s).1 = [Sample.blockV2 6] := by
  intro damaged storage s blocks
  have hs : Current storage s := Current.of_leaves (leaves_fetchBlock 2 none)
  have hblocks : (fetchRange storage 1 6 s).1 = blocks := by decide +kernel
  obtain ⟨hrun, -, hparts⟩ := fetchRange_longest_run storage s hs 1 6
  rw [hblocks] at hrun hparts
  refine ⟨by decide +kernel, hs, hblocks, hrun, ?_, ?_, by decide +kernel⟩
  · rw [hparts 2 (by decide) (by decide) none s nofun hs, if_neg (by decide +kernel)]
    rfl
  · rw [hparts 5 (by decide) (by decide) s none hs nofun, if_pos (by decide +kernel)]

end ChainNode.Archive.Reader
