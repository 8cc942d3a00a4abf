import ChainNode.Proofs.Archive.Reader
import ChainNode.Proofs.Archive.Record
import ChainNode.Proofs.Archive.Segment.Builder

/-!
# What was archived is found

A folder keeps built segments under their default names, among other files and subdirectories. A reader
that starts without a snapshot finds the block of every height that some segment covers, and no other,
whatever it was asked before and in whatever order the folder is listed.
-/

namespace ChainNode.Archive

variable {height : UInt32} {block : UInt32 → Block} {b : SegmentBuilder} {storage : Storage}
  {d : Directory} {s t : Snapshot} {a : State} {items : List (FileName × Item)}
  {segments : List SegmentBuilder} {events : List Event}

/-! ## Stored segments -/

namespace SegmentBuilder

/-- The segment keeps the record of one block for each of its heights, under its default name. -/
structure Archives (b : SegmentBuilder) (block : UInt32 → Block) : Prop extends b.Fits where
  name : b.name = none
  framed : b.framed = []
  records : ∃ v : RecordVersion, b.version = v.format ∧
    ∀ height, b.first ≤ height → height ≤ b.last →
      v.Representable (block height) ∧ (block height).height = height ∧
        b.payload height = v.encode (block height)

def stored (b : SegmentBuilder) : FileName × Item := (.text b.fileName, .file b.build)

/-- What the directory lists for the segment. -/
def entry (b : SegmentBuilder) : SegmentEntry := ⟨b.fileName, b.first, b.last, b.last - b.first⟩

theorem Archives.entry?_stored (hb : b.Archives block) : Storage.entry? b.stored = some b.entry := by
  have hname : b.fileName = SegmentEntry.defaultName b.first b.last := by
    rw [fileName, hb.name]
    rfl
  show SegmentEntry.ofName? b.fileName = some b.entry
  rw [entry, hname]
  exact SegmentEntry.ofName?_defaultName hb.range

theorem Archives.blockIn_build (hb : b.Archives block) (hfirst : b.first ≤ height)
    (hlast : height ≤ b.last) : Reader.blockIn b.build height = some (block height) := by
  obtain ⟨v, hversion, hrecords⟩ := hb.records
  obtain ⟨hrepresentable, hheight, hpayload⟩ := hrecords height hfirst hlast
  have hframed : b.framedHeight height = height.toInt32 := by
    rw [framedHeight, hb.framed]
    rfl
  have hrecord := record_build hb.toFits hversion hfirst hlast hframed
  have hdecode := RecordVersion.decode_eq_ok_iff.mpr ⟨hrepresentable, hpayload.symm⟩
  exact Reader.blockIn_eq_some_iff.mpr ⟨_, hrecord, hdecode, hheight⟩

end SegmentBuilder

/-! ## Folders -/

/-- The folder holds these segments, whose ranges have no height in common, and nothing else that is
listed as one. No two of its items have the same name. -/
structure Stocks (items : List (FileName × Item)) (segments : List SegmentBuilder)
    (block : UInt32 → Block) : Prop where
  names : (items.map (·.1)).Nodup
  contents : ∃ others, items.Perm (segments.map (·.stored) ++ others) ∧
    ∀ i ∈ others, Storage.entry? i = none
  apart : segments.Pairwise fun a b => a.last < b.first ∨ b.last < a.first
  archives : ∀ b ∈ segments, b.Archives block

namespace Stocks

variable (h : Stocks items segments block)

include h

theorem perm_entries : (items.filterMap Storage.entry?).Perm (segments.map (·.entry)) := by
  obtain ⟨others, hperm, hothers⟩ := h.contents
  -- listing keeps every segment and passes over the rest
  have hsegments : (segments.map (·.stored)).filterMap Storage.entry? = segments.map (·.entry) := by
    rw [List.filterMap_map, ← List.filterMap_eq_map]
    exact List.filterMap_congr fun b hb => (h.archives b hb).entry?_stored
  have hrest : others.filterMap Storage.entry? = [] := List.filterMap_eq_nil_iff.mpr hothers
  have hentries := hperm.filterMap Storage.entry?
  rw [List.filterMap_append, hsegments, hrest, List.append_nil] at hentries
  exact hentries

theorem pairwise_entries : (items.filterMap Storage.entry?).Pairwise SegmentEntry.Apart := by
  have hsegments : (segments.map (·.entry)).Pairwise SegmentEntry.Apart :=
    List.pairwise_map.mpr h.apart
  exact h.perm_entries.symm.pairwise hsegments fun hab => Or.symm hab

theorem find?_of_covered (hb : b ∈ segments) (hfirst : b.first ≤ height) (hlast : height ≤ b.last) :
    (Directory.ofEntries (items.filterMap Storage.entry?)).find? height = some b.entry :=
  Directory.find?_ofEntries h.pairwise_entries
    (h.perm_entries.mem_iff.mpr (List.mem_map.mpr ⟨b, hb, rfl⟩))
    (SegmentEntry.covers_iff.mpr ⟨hfirst, hlast⟩)

theorem find?_of_uncovered (huncovered : ∀ b ∈ segments, height < b.first ∨ b.last < height) :
    (Directory.ofEntries (items.filterMap Storage.entry?)).find? height = none := by
  rw [Directory.find?_eq_none_iff]
  intro e he
  obtain ⟨b, hb, rfl⟩ := List.mem_map.mp (h.perm_entries.mem_iff.mp (Directory.mem_ofEntries.mp he))
  have hheight := huncovered b hb
  rw [Bool.eq_false_iff, ne_eq, SegmentEntry.covers_iff]
  show ¬ (b.first ≤ height ∧ height ≤ b.last)
  rw [UInt32.le_iff_toNat_le, UInt32.le_iff_toNat_le]
  rw [UInt32.lt_iff_toNat_lt, UInt32.lt_iff_toNat_lt] at hheight
  omega

theorem open?_stored (hb : b ∈ segments) :
    (Storage.folder items).open? (.text b.entry.fileName) = some (.file b.build) := by
  obtain ⟨others, hperm, -⟩ := h.contents
  have hmem : b.stored ∈ items :=
    hperm.mem_iff.mpr (List.mem_append_left others (List.mem_map.mpr ⟨b, hb, rfl⟩))
  exact Storage.lookup_of_mem h.names hmem

end Stocks

/-! ## A reader that keeps up -/

theorem State.storage_step {event : Event} (hevent : ∀ change, event ≠ .change change) :
    (a.step event).2.storage = a.storage := by
  cases event with
  | change change => exact absurd rfl (hevent change)
  | _ => rfl

/-- While nothing is changed from outside, the snapshot is the directory as it is. -/
theorem State.leaves_run (hevents : ∀ change, .change change ∉ events) :
    (a.run events).storage = a.storage ∧ Reader.Leaves a.storage a.snapshot (a.run events).snapshot := by
  induction events generalizing a with
  | nil => exact ⟨rfl, Reader.Leaves.refl _⟩
  | cons event events ih =>
    have hstorage : (a.step event).2.storage = a.storage :=
      State.storage_step fun change h => hevents change (h ▸ List.mem_cons_self)
    have hleaves := a.leaves_step event
    obtain ⟨hrun, hrest⟩ :=
      ih (a := (a.step event).2) fun change h => hevents change (List.mem_cons_of_mem event h)
    rw [hstorage] at hrun hrest
    exact ⟨hrun, hleaves.trans hrest⟩

namespace Reader

/-- A snapshot that is up to date is as good as none. -/
theorem directory_of_leaves (hs : Leaves storage none s) (hscan : storage.scan = .ok d) :
    directory storage s = (.ok d, some d) := by
  have hnone : directory storage none = (.ok d, some d) := by
    unfold directory
    rw [hscan]
  rcases hs with rfl | rfl | ⟨d', hd', rfl⟩
  · exact hnone
  · exact hnone
  · rw [hscan] at hd'
    cases hd'
    rfl

theorem fetchBlock_of_leaves (hs : Leaves storage none s) (hscan : storage.scan = .ok d) :
    fetchBlock storage height s = fetchBlock storage height (some d) := by
  unfold fetchBlock tryBlock trySerialized
  rw [directory_of_leaves hs hscan]
  rfl

/-- Every block that was archived is found and no other, whatever the reader was asked before. What is
found keeps the snapshot, what is missed drops it. -/
theorem fetchBlock_retrieves (items : List (FileName × Item)) (segments : List SegmentBuilder)
    (block : UInt32 → Block) (index : Index) (events : List Event)
    (hitems : Stocks items segments block) (hevents : ∀ change, .change change ∉ events) :
    let a := State.run { storage := .folder items, index } events
    let d := Directory.ofEntries (items.filterMap Storage.entry?)
    let fetch := fun height => Reader.fetchBlock a.storage height a.snapshot
    (a.snapshot = none ∨ a.snapshot = some d) ∧
    (∀ b ∈ segments, ∀ height, b.first ≤ height → height ≤ b.last →
      fetch height = (some (block height), some d)) ∧
    (∀ height, (∀ b ∈ segments, height < b.first ∨ b.last < height) → fetch height = (none, none)) ∧
    (Reader.lastHeight a.storage a.snapshot).1 = (segments.map (·.last)).max?.getD 0 ∧
    (Reader.segmentCount a.storage a.snapshot).1 = segments.length := by
  intro a d fetch
  obtain ⟨hstorage, hleaves⟩ :=
    State.leaves_run (a := { storage := .folder items, index }) hevents
  -- nothing changed from outside, so the folder is the one at the start and its listing is `d`
  have hscan : a.storage.scan = .ok d := by
    rw [hstorage]
    rfl
  rw [← hstorage] at hleaves
  have hdirectory : directory a.storage a.snapshot = (.ok d, some d) := directory_of_leaves hleaves hscan
  have hfetch (height : UInt32) : fetch height = Reader.fetchBlock a.storage height (some d) :=
    fetchBlock_of_leaves hleaves hscan
  refine ⟨?_, ?_, ?_, ?_, ?_⟩
  · rcases hleaves with hnone | hnone | ⟨d', hd', hsome⟩
    · exact Or.inl hnone
    · exact Or.inl hnone
    · rw [hscan] at hd'
      cases hd'
      exact Or.inr hsome
  · intro b hb height hfirst hlast
    have hopen : a.storage.open? (.text b.entry.fileName) = some (.file b.build) := by
      rw [hstorage]
      exact hitems.open?_stored hb
    have hfind : d.find? height = some b.entry := hitems.find?_of_covered hb hfirst hlast
    have hblock := (hitems.archives b hb).blockIn_build hfirst hlast
    rw [hfetch, fetchBlock_some, hfind]
    simp only [hopen, hblock]
  · intro height huncovered
    have hfind : d.find? height = none := hitems.find?_of_uncovered huncovered
    rw [hfetch, fetchBlock_some, hfind]
  · rw [lastHeight, hdirectory]
    show d.lastHeight = _
    rw [Directory.lastHeight_ofEntries hitems.perm_entries, List.map_map]
    rfl
  · rw [segmentCount, hdirectory]
    show d.size = _
    rw [Directory.size_ofEntries, hitems.perm_entries.length_eq, List.length_map]

/-- A segment of either version, a file and a subdirectory. -/
def mixedFolder : List (FileName × Item) :=
  [(.text "notes.txt", .file []), (SegmentBuilder.v2 3 3).stored, (.text "4-9.dat", .folder),
    (SegmentBuilder.v1 1 2).stored]

theorem fetchBlock_retrieves_mixed :
    let block := fun height => if height ≤ 2 then Sample.blockV1 height else Sample.blockV2 height
    let a := State.run { storage := .folder mixedFolder } [.fetchBlock 3, .fetchBlock 4]
    Stocks mixedFolder [SegmentBuilder.v1 1 2, SegmentBuilder.v2 3 3] block ∧
    (Reader.fetchBlock a.storage 2 a.snapshot).1 = some (Sample.blockV1 2) ∧
    (Reader.fetchBlock a.storage 3 a.snapshot).1 = some (Sample.blockV2 3) ∧
    Reader.fetchBlock a.storage 4 a.snapshot = (none, none) ∧
    (Reader.lastHeight a.storage a.snapshot).1 = 3 ∧
    (Reader.segmentCount a.storage a.snapshot).1 = 2 := by
  intro block a
  have hv1 : (SegmentBuilder.v1 1 2).Archives block := by
    refine ⟨⟨by decide, by decide, by decide, by decide +kernel⟩, rfl, rfl, .v1, rfl, ?_⟩
    intro height hfirst hlast
    have hmem : height ∈ (SegmentBuilder.v1 1 2).heights := SegmentBuilder.mem_heights hfirst hlast
    have hheights : (SegmentBuilder.v1 1 2).heights = [1, 2] := by decide
    rw [hheights, List.mem_pair] at hmem
    rcases hmem with rfl | rfl
    · exact ⟨⟨by decide, by decide, by decide, _, rfl, by decide⟩, by decide, by decide +kernel⟩
    · exact ⟨⟨by decide, by decide, by decide, _, rfl, by decide⟩, by decide, by decide +kernel⟩
  have hv2 : (SegmentBuilder.v2 3 3).Archives block := by
    refine ⟨⟨by decide, by decide, by decide, by decide +kernel⟩, rfl, rfl, .v2, rfl, ?_⟩
    intro height hfirst hlast
    have hmem : height ∈ (SegmentBuilder.v2 3 3).heights := SegmentBuilder.mem_heights hfirst hlast
    have hheights : (SegmentBuilder.v2 3 3).heights = [3] := by decide
    rw [hheights, List.mem_singleton] at hmem
    subst hmem
    exact ⟨⟨by decide, _, rfl⟩, by decide, by decide +kernel⟩
  have hstocks : Stocks mixedFolder [SegmentBuilder.v1 1 2, SegmentBuilder.v2 3 3] block := by
    refine ⟨by decide, ⟨[(.text "notes.txt", .file []), (.text "4-9.dat", .folder)], ?_, by decide⟩,
      by decide, ?_⟩
    · decide +kernel
    · exact List.forall_mem_cons.mpr ⟨hv1, List.forall_mem_singleton.mpr hv2⟩
  have hevents : ∀ change, Event.change change ∉ [.fetchBlock 3, .fetchBlock 4] := by
    intro change hmem
    rcases List.mem_pair.mp hmem with h | h <;> cases h
  obtain ⟨-, hcovered, huncovered, hlast, hcount⟩ :=
    fetchBlock_retrieves mixedFolder _ block {} [.fetchBlock 3, .fetchBlock 4] hstocks hevents
  refine ⟨hstocks, ?_, ?_, huncovered 4 (by decide), hlast, hcount⟩
  · exact congrArg Prod.fst (hcovered _ List.mem_cons_self 2 (by decide) (by decide))
  · exact congrArg Prod.fst
      (hcovered _ (List.mem_cons_of_mem _ List.mem_cons_self) 3 (by decide) (by decide))

end Reader
end ChainNode.Archive
