import ChainNode.Archive.Segment.Builder
import ChainNode.Proofs.Archive.Retrieval

/-!
# Looking blocks up

The index gives heights and the archive gives blocks. Where the entered blocks are those of the archive,
a look-up by signature, by parent or by time answers as if it searched these blocks themselves, and the
order in which they were entered does not matter. While the index is not available, nothing is found.
-/

namespace ChainNode.Archive

variable {storage : Storage} {height : UInt32} {s : Snapshot} {a : State} {event : Event}
  {events : List Event} {ix : Index} {blocks : List Block} {b : Block} {x : Signature}
  {timestamp : UInt64} {headers : List BlockHeader} {h : BlockHeader}

/-! ## What the index holds -/

namespace Event

/-- The block that an event enters in the index. -/
def inserted? : Event → Option Block
  | .insertIndex block => some block
  | _ => none

end Event

/-- The blocks that a run enters in the index, the first first. -/
def inserted (events : List Event) : List Block := events.filterMap Event.inserted?

theorem State.headers_step : (a.step event).2.index.headers =
    (event.inserted?.map (·.header)).toList ++ a.index.headers := by
  cases event <;> rfl

/-- Only insertions change what the index holds, and each puts its header first. -/
theorem State.headers_run : (a.run events).index.headers =
    ((inserted events).map (·.header)).reverse ++ a.index.headers := by
  induction events generalizing a with
  | nil => rfl
  | cons event events ih =>
    have hrun : a.run (event :: events) = (a.step event).2.run events := rfl
    rw [hrun, ih, headers_step]
    cases hinserted : event.inserted? with
    | none =>
      have hrest : inserted (event :: events) = inserted events := List.filterMap_cons_none hinserted
      rw [hrest]
      rfl
    | some b =>
      have hfirst : inserted (event :: events) = b :: inserted events :=
        List.filterMap_cons_some hinserted
      rw [hfirst, List.map_cons, List.reverse_cons, List.append_assoc]
      rfl

namespace Index

/-- The index holds the headers of these blocks and no others. -/
def Holds (ix : Index) (blocks : List Block) : Prop :=
  ∀ h, h ∈ ix.headers ↔ ∃ b ∈ blocks, b.header = h

theorem whenAvailable_of_available {α : Type} (answer : α) (h : ix.failing = false) :
    ix.whenAvailable answer = .ok answer := by
  rw [whenAvailable, h]
  rfl

theorem whenAvailable_of_failing {α : Type} (answer : α) (h : ix.failing = true) :
    ix.whenAvailable answer = .error (.unavailable "index offline") := by
  rw [whenAvailable, h]
  rfl

end Index

theorem State.holds_run (storage : Storage) (events : List Event) :
    (State.run { storage } events).index.Holds (inserted events) := by
  intro h
  rw [headers_run, List.append_nil, List.mem_reverse, List.mem_map]

/-- What an index over an archive may be made of: the block that is found at each height, with no
signature and no parent in common, and times that go up with the heights. -/
structure Indexable (storage : Storage) (blocks : List Block) : Prop where
  found : ∀ b ∈ blocks, (Reader.fetchBlock storage b.height none).1 = some b
  signatures : ∀ b ∈ blocks, ∀ c ∈ blocks, b.header.signature = c.header.signature → b = c
  references : ∀ b ∈ blocks, ∀ c ∈ blocks, b.header.reference = c.header.reference → b = c
  timestamps : ∀ b ∈ blocks, ∀ c ∈ blocks, b.height < c.height →
    b.header.timestamp < c.header.timestamp

/-! ## By signature and by parent -/

namespace Reader

/-- A snapshot, if there is one, lists the archive as it is. -/
def Current (storage : Storage) (s : Snapshot) : Prop := ∀ d, s = some d → storage.scan = .ok d

theorem Current.of_leaves (hs : Leaves storage none s) : Current storage s := by
  rintro d rfl
  rcases hs with hnone | hnone | ⟨d', hscan, hd⟩
  · cases hnone
  · cases hnone
  · cases hd
    exact hscan

theorem Current.fetchBlock (hs : Current storage s) :
    (fetchBlock storage height s).1 = (fetchBlock storage height none).1 := by
  cases s with
  | none => rfl
  | some d => rw [fetchBlock_none, hs d rfl]

/-- Whatever identifies the entered blocks also finds them: no matter which of the headers with this
key comes first, it is that of the one block. -/
theorem fetchIndexed_eq_some_iff {key : BlockHeader → Signature} (hs : Current storage s)
    (hix : ix.Holds blocks)
    (hfound : ∀ b ∈ blocks, (Reader.fetchBlock storage b.height none).1 = some b)
    (hkey : ∀ b ∈ blocks, ∀ c ∈ blocks, key b.header = key c.header → b = c) :
    (fetchIndexed storage (.ok ((ix.headers.find? (key · = x)).map (·.height))) s).1 = some b ↔
      b ∈ blocks ∧ key b.header = x := by
  cases hfind : ix.headers.find? (key · = x) with
  | none =>
    have habsent : ∀ h ∈ ix.headers, key h ≠ x := by
      simpa only [decide_eq_true_eq] using List.find?_eq_none.mp hfind
    constructor
    · exact nofun
    · rintro ⟨hb, hx⟩
      exact absurd hx (habsent b.header ((hix b.header).mpr ⟨b, hb, rfl⟩))
  | some h =>
    -- the header that comes first may be any insertion's, but only one block has this key
    obtain ⟨c, hc, rfl⟩ := (hix h).mp (List.mem_of_find?_eq_some hfind)
    have hcx : key c.header = x := by
      simpa only [decide_eq_true_eq] using List.find?_some hfind
    have hfetch : (Reader.fetchBlock storage c.header.height s).1 = some c :=
      hs.fetchBlock.trans (hfound c hc)
    show (Reader.fetchBlock storage c.header.height s).1 = some b ↔ _
    rw [hfetch, Option.some.injEq]
    constructor
    · rintro rfl
      exact ⟨hc, hcx⟩
    · rintro ⟨hb, hx⟩
      exact hkey c hc b hb (hcx.trans hx.symm)

end Reader

/-! ## By time -/

namespace Index

/-- No header that is not past `timestamp` is later than `h`, which is one of them. -/
structure IsLast (timestamp : UInt64) (headers : List BlockHeader) (h : BlockHeader) : Prop where
  mem : h ∈ headers
  notPast : h.timestamp ≤ timestamp
  last : ∀ g ∈ headers, g.timestamp ≤ timestamp → g.timestamp ≤ h.timestamp

theorem lastBefore?_eq_none_iff :
    lastBefore? timestamp headers = none ↔ ∀ h ∈ headers, ¬ h.timestamp ≤ timestamp := by
  induction headers with
  | nil => exact ⟨nofun, fun _ => rfl⟩
  | cons g headers ih =>
    rw [List.forall_mem_cons, ← ih, lastBefore?]
    split <;> rename_i hg
    · exact ⟨nofun, fun h => absurd hg h.1⟩
    · exact ⟨fun h => ⟨hg, h⟩, fun h => h.2⟩

theorem IsLast.later_none (hg : h.timestamp ≤ timestamp)
    (hnone : ∀ g ∈ headers, ¬ g.timestamp ≤ timestamp) : IsLast timestamp (h :: headers) h where
  mem := List.mem_cons_self
  notPast := hg
  last := by
    rw [List.forall_mem_cons]
    exact ⟨fun _ => UInt64.le_refl _, fun g hmem hle => absurd hle (hnone g hmem)⟩

theorem IsLast.later_some {g : BlockHeader} (hg : g.timestamp ≤ timestamp)
    (hlast : IsLast timestamp headers h) : IsLast timestamp (g :: headers) (later g (some h)) := by
  by_cases hlt : g.timestamp < h.timestamp
  · rw [later, if_pos hlt]
    refine ⟨List.mem_cons_of_mem g hlast.mem, hlast.notPast, ?_⟩
    rw [List.forall_mem_cons]
    exact ⟨fun _ => UInt64.le_of_lt hlt, hlast.last⟩
  · rw [later, if_neg hlt]
    refine ⟨List.mem_cons_self, hg, ?_⟩
    rw [List.forall_mem_cons]
    exact ⟨fun _ => UInt64.le_refl _,
      fun f hf hle => UInt64.le_trans (hlast.last f hf hle) (UInt64.not_lt.mp hlt)⟩

theorem isLast_of_lastBefore? (hfound : lastBefore? timestamp headers = some h) :
    IsLast timestamp headers h := by
  induction headers generalizing h with
  | nil => cases hfound
  | cons g headers ih =>
    rw [lastBefore?] at hfound
    split at hfound <;> rename_i hg
    · cases hfound
      -- `g` competes with the last of those behind it, if there is one
      cases hrest : lastBefore? timestamp headers with
      | none => exact IsLast.later_none hg (lastBefore?_eq_none_iff.mp hrest)
      | some f => exact IsLast.later_some hg (ih hrest)
    · obtain ⟨hmem, hle, hlast⟩ := ih hfound
      refine ⟨List.mem_cons_of_mem g hmem, hle, ?_⟩
      rw [List.forall_mem_cons]
      exact ⟨fun hpast => absurd hpast hg, hlast⟩

end Index

/-- The heights of the blocks that are not past `timestamp`. -/
def heightsBefore (timestamp : UInt64) (blocks : List Block) : List UInt32 :=
  (blocks.filter (·.header.timestamp ≤ timestamp)).map (·.height)

theorem mem_heightsBefore : height ∈ heightsBefore timestamp blocks ↔
    ∃ b ∈ blocks, b.header.timestamp ≤ timestamp ∧ b.height = height := by
  simp only [heightsBefore, List.mem_map, List.mem_filter, decide_eq_true_eq, and_assoc]

/-- More heights do not have a lower maximum. -/
theorem max?_getD_le {xs ys : List UInt32} (hsubset : xs ⊆ ys) : xs.max?.getD 0 ≤ ys.max?.getD 0 := by
  cases hx : xs.max? with
  | none => exact UInt32.zero_le
  | some m =>
    have hm : m ∈ ys := hsubset (List.max?_eq_some_iff.mp hx).1
    cases hy : ys.max? with
    | none =>
      rw [List.max?_eq_none_iff.mp hy] at hm
      cases hm
    | some n => exact (List.max?_eq_some_iff.mp hy).2 m hm

theorem heightsBefore_subset {later : UInt64} (hle : timestamp ≤ later) {blocks' : List Block}
    (hblocks : blocks ⊆ blocks') : heightsBefore timestamp blocks ⊆ heightsBefore later blocks' := by
  intro height hheight
  obtain ⟨b, hb, hbefore, hheight⟩ := mem_heightsBefore.mp hheight
  exact mem_heightsBefore.mpr ⟨b, hblocks hb, UInt64.le_trans hbefore hle, hheight⟩

/-- The last block by time is the highest, since time goes up with the height. -/
theorem Index.heightForTimestamp_eq (hix : ix.Holds blocks) (havailable : ix.failing = false)
    (hblocks : Indexable storage blocks) : Reader.heightForTimestamp ix timestamp =
      (heightsBefore timestamp blocks).max?.getD 0 := by
  have hanswer : Reader.heightForTimestamp ix timestamp =
      ((lastBefore? timestamp ix.headers).map (·.height)).getD 0 := by
    rw [Reader.heightForTimestamp, Index.heightForTimestamp, whenAvailable_of_available _ havailable]
    cases lastBefore? timestamp ix.headers <;> rfl
  rw [hanswer]
  cases hlast : lastBefore? timestamp ix.headers with
  | none =>
    have hnone : heightsBefore timestamp blocks = [] := by
      refine List.eq_nil_iff_forall_not_mem.mpr fun height hheight => ?_
      obtain ⟨b, hb, hbefore, -⟩ := mem_heightsBefore.mp hheight
      exact lastBefore?_eq_none_iff.mp hlast b.header ((hix b.header).mpr ⟨b, hb, rfl⟩) hbefore
    rw [hnone]
    rfl
  | some h =>
    obtain ⟨hmem, hbefore, hlatest⟩ := isLast_of_lastBefore? hlast
    obtain ⟨b, hb, rfl⟩ := (hix h).mp hmem
    have hmax : (heightsBefore timestamp blocks).max? = some b.height := by
      refine List.max?_eq_some_iff.mpr ⟨mem_heightsBefore.mpr ⟨b, hb, hbefore, rfl⟩, ?_⟩
      intro height hheight
      obtain ⟨c, hc, hcbefore, rfl⟩ := mem_heightsBefore.mp hheight
      -- a higher block would be later than the last one
      by_contra hhigher
      have hlater := hblocks.timestamps b hb c hc (UInt32.not_le.mp hhigher)
      have hearlier := hlatest c.header ((hix c.header).mpr ⟨c, hc, rfl⟩) hcbefore
      exact UInt64.not_lt.mpr hearlier hlater
    rw [hmax]
    rfl

/-! ## Runs -/

/-- While nothing is changed from outside, the snapshot lists the archive as it is. -/
theorem State.current_run (storage : Storage) (hevents : ∀ change, .change change ∉ events) :
    Reader.Current (State.run { storage } events).storage (State.run { storage } events).snapshot := by
  obtain ⟨hstorage, hleaves⟩ := State.leaves_run (a := { storage }) hevents
  rw [← hstorage] at hleaves
  exact .of_leaves hleaves

/-- Of the blocks that a run entered, those are found that have the signature, or the parent, and the
highest one counts that is not past a time. So later times give no lower heights, and a run that
entered the same blocks otherwise gives the same. An index that is not available finds nothing and
changes nothing. -/
theorem State.index_lookups_agree (storage : Storage) (events : List Event) :
    let a := State.run { storage } events
    let blocks := inserted events
    (a.index.failing = false → Reader.Current a.storage a.snapshot → Indexable a.storage blocks →
      (∀ x b, (a.step (.fetchBySignature x)).1 = .block (some b) ↔
        b ∈ blocks ∧ b.header.signature = x) ∧
      (∀ x b, (a.step (.fetchByReference x)).1 = .block (some b) ↔
        b ∈ blocks ∧ b.header.reference = x) ∧
      (∀ t, (a.step (.heightForTimestamp t)).1 = .height ((heightsBefore t blocks).max?.getD 0)) ∧
      (∀ t u, t ≤ u → Reader.heightForTimestamp a.index t ≤ Reader.heightForTimestamp a.index u) ∧
      ∀ others, (∀ b, b ∈ inserted others ↔ b ∈ blocks) →
        let c := State.run { storage } others
        c.index.failing = false →
        ∀ t, (c.step (.heightForTimestamp t)).1 = (a.step (.heightForTimestamp t)).1) ∧
    (a.index.failing = true →
      (∀ x, a.step (.fetchBySignature x) = (.block none, a)) ∧
      (∀ x, a.step (.fetchByReference x) = (.block none, a)) ∧
      ∀ t, a.step (.heightForTimestamp t) = (.height 0, a)) := by
  intro a blocks
  have hblocks : a.index.Holds blocks := holds_run storage events
  refine ⟨fun havailable hcurrent hindexable => ?_, fun hfailing => ?_⟩
  · have htime (c : State) (hc : c.index.Holds blocks) (hcavailable : c.index.failing = false)
        (t : UInt64) : Reader.heightForTimestamp c.index t = (heightsBefore t blocks).max?.getD 0 :=
      Index.heightForTimestamp_eq hc hcavailable hindexable
    refine ⟨fun x b => ?_, fun x b => ?_, fun t => ?_, fun t u htu => ?_, ?_⟩
    · show Answer.block (Reader.fetchIndexed a.storage (a.index.whenAvailable _) a.snapshot).1 =
        .block (some b) ↔ _
      rw [Index.whenAvailable_of_available _ havailable, Answer.block.injEq]
      exact Reader.fetchIndexed_eq_some_iff hcurrent hblocks hindexable.found hindexable.signatures
    · show Answer.block (Reader.fetchIndexed a.storage (a.index.whenAvailable _) a.snapshot).1 =
        .block (some b) ↔ _
      rw [Index.whenAvailable_of_available _ havailable, Answer.block.injEq]
      exact Reader.fetchIndexed_eq_some_iff hcurrent hblocks hindexable.found hindexable.references
    · exact congrArg Answer.height (htime a hblocks havailable t)
    · rw [htime a hblocks havailable, htime a hblocks havailable]
      exact max?_getD_le (heightsBefore_subset htu fun _ hb => hb)
    · intro others hothers c hcavailable t
      -- what the index holds is a set of headers, which both runs have in common
      have hc : c.index.Holds blocks := fun h =>
        (holds_run storage others h).trans (exists_congr fun b => and_congr_left' (hothers b))
      show Answer.height (Reader.heightForTimestamp c.index t) =
        .height (Reader.heightForTimestamp a.index t)
      rw [htime c hc hcavailable, htime a hblocks havailable]
  · refine ⟨fun x => ?_, fun x => ?_, fun t => ?_⟩
    · show a.read .block (Reader.fetchIndexed a.storage (a.index.whenAvailable _)) = _
      rw [Index.whenAvailable_of_failing _ hfailing]
      rfl
    · show a.read .block (Reader.fetchIndexed a.storage (a.index.whenAvailable _)) = _
      rw [Index.whenAvailable_of_failing _ hfailing]
      rfl
    · show (Answer.height (Reader.heightForTimestamp a.index t), a) = _
      rw [Reader.heightForTimestamp, Index.heightForTimestamp,
        Index.whenAvailable_of_failing _ hfailing]

/-- Three blocks, entered in disorder and one of them twice, with a look-up in between. -/
def shuffledEntries : List Event :=
  [.insertIndex (Sample.blockV2 3), .fetchBlock 2, .insertIndex (Sample.blockV2 1),
    .insertIndex (Sample.blockV2 2), .insertIndex (Sample.blockV2 3)]

/-- The same blocks, from the lowest to the highest. -/
def orderedEntries : List Event := [1, 2, 3].map fun height => .insertIndex (Sample.blockV2 height)

theorem State.index_lookups_agree_shuffled :
    let storage := Storage.folder [(SegmentBuilder.v2 1 3).stored]
    let a := State.run { storage } shuffledEntries
    let ordered := State.run { storage } orderedEntries
    let offline := State.run { storage } (shuffledEntries ++ [.setIndexFailing true])
    let justBefore3 := (Sample.header 3).timestamp - 1
    a.index.failing = false ∧ Reader.Current a.storage a.snapshot ∧
    Indexable a.storage (inserted shuffledEntries) ∧
    (a.step (.fetchBySignature (Sample.signature 2))).1 = .block (some (Sample.blockV2 2)) ∧
    (a.step (.fetchByReference (Sample.signature 2))).1 = .block (some (Sample.blockV2 3)) ∧
    (a.step (.heightForTimestamp justBefore3)).1 = .height 2 ∧
    (ordered.step (.heightForTimestamp justBefore3)).1 = .height 2 ∧
    offline.index.failing = true ∧
    offline.step (.fetchBySignature (Sample.signature 2)) = (.block none, offline) := by
  intro storage a ordered offline justBefore3
  have havailable : a.index.failing = false := by decide +kernel
  have hcurrent : Reader.Current a.storage a.snapshot :=
    State.current_run storage (by simp [shuffledEntries])
  have hindexable : Indexable a.storage (inserted shuffledEntries) :=
    ⟨by decide +kernel, by decide +kernel, by decide +kernel, by decide +kernel⟩
  obtain ⟨hsignature, hreference, htime, -, horder⟩ :=
    (State.index_lookups_agree storage shuffledEntries).1 havailable hcurrent hindexable
  have hheight : (a.step (.heightForTimestamp justBefore3)).1 = .height 2 := by
    rw [htime]
    decide +kernel
  have hfrom : ∀ b ∈ inserted orderedEntries, b ∈ inserted shuffledEntries := by decide +kernel
  have hinto : ∀ b ∈ inserted shuffledEntries, b ∈ inserted orderedEntries := by decide +kernel
  have hsame : ∀ b, b ∈ inserted orderedEntries ↔ b ∈ inserted shuffledEntries :=
    fun b => ⟨hfrom b, hinto b⟩
  have hoffline : offline.index.failing = true := by decide +kernel
  exact ⟨havailable, hcurrent, hindexable, (hsignature _ _).mpr (by decide +kernel),
    (hreference _ _).mpr (by decide +kernel), hheight,
    (horder orderedEntries hsame (by decide +kernel) justBefore3).trans hheight, hoffline,
    ((State.index_lookups_agree storage _).2 hoffline).1 _⟩

end ChainNode.Archive
