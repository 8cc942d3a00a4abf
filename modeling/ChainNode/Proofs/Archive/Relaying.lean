import ChainNode.Proofs.Archive.Reader
import ChainNode.Proofs.Archive.Record
import ChainNode.Proofs.Archive.Segment

/-!
# What is handed on is what is read

A record goes to other nodes as it is stored, while this node goes by the block that it decodes to. The
two belong together: a block that is found stands in a record that is the encoding of this block and of
no other, and where such a record is handed on, its block is found.
-/

namespace ChainNode.Archive

open Reader

variable {storage : Storage} {height : UInt32} {d : Directory} {s : Snapshot} {b : Block}
  {r : SerializedBlock}

namespace Segment

theorem height_of_record {segment : Bytes} (h : record segment height = .ok r) : r.height = height := by
  obtain ⟨header, n, offset, hholds⟩ := record_eq_ok_iff.mp h
  exact hholds.height_eq

end Segment

namespace Reader

theorem height_of_readListed (h : (readListed storage d height).1 = .ok (some r)) :
    r.height = height := by
  unfold readListed at h
  split at h
  · cases h
  · split at h
    · cases h
    · cases h
    · rename_i segment hopen
      cases hrecord : Segment.record segment height with
      | error e =>
        rw [hrecord] at h
        cases h
      | ok found =>
        rw [hrecord] at h
        cases h
        exact Segment.height_of_record hrecord

theorem height_of_trySerialized (h : (trySerialized storage height s).1 = .ok (some r)) :
    r.height = height := by
  unfold trySerialized at h
  split at h
  · exact height_of_readListed h
  · cases h

theorem orNone_eq_some_iff {α : Type} {x : Except ArchiveError (Option α)} {y : α} :
    orNone x = some y ↔ x = .ok (some y) := by
  cases x with
  | error e => exact ⟨nofun, nofun⟩
  | ok found =>
    rw [Except.ok.injEq]
    rfl

theorem height_of_fetchSerialized (h : (fetchSerialized storage height s).1 = some r) :
    r.height = height :=
  height_of_trySerialized (orNone_eq_some_iff.mp h)

theorem tryBlock_eq_ok_some_iff : (tryBlock storage height s).1 = .ok (some b) ↔
    ∃ r, (trySerialized storage height s).1 = .ok (some r) ∧ decodeAt height r = .ok b := by
  unfold tryBlock
  cases trySerialized storage height s with
  | mk answer left =>
    cases answer with
    | error e => exact ⟨nofun, nofun⟩
    | ok found =>
      cases found with
      | none => exact ⟨nofun, nofun⟩
      | some r =>
        simp only [Except.ok.injEq, Option.some.injEq, exists_eq_left']
        cases decodeAt height r with
        | error e => exact ⟨nofun, nofun⟩
        | ok c =>
          show Except.ok (some c) = Except.ok (some b) ↔ _
          rw [Except.ok.injEq, Except.ok.injEq, Option.some.injEq]

/-- A block is found where its record is: both calls look at the same place. -/
theorem fetchBlock_eq_some_iff : (fetchBlock storage height s).1 = some b ↔
    ∃ r, (fetchSerialized storage height s).1 = some r ∧ r.version.decode r.bytes = .ok b ∧
      b.height = height := by
  have hblock : (fetchBlock storage height s).1 = some b ↔
      (tryBlock storage height s).1 = .ok (some b) := orNone_eq_some_iff
  have hserialized (r : SerializedBlock) : (fetchSerialized storage height s).1 = some r ↔
      (trySerialized storage height s).1 = .ok (some r) := orNone_eq_some_iff
  simp only [hblock, hserialized, tryBlock_eq_ok_some_iff, decodeAt_eq_ok_iff]

theorem snd_fetchBlock (storage : Storage) (height : UInt32) (s : Snapshot) :
    (fetchBlock storage height s).2 = (fetchSerialized storage height s).2 :=
  snd_tryBlock storage height s

end Reader

/-- Whatever is stored and however old the snapshot is: a block is found at a height if and only if the
record handed on for that height is its encoding in the record's version. Either call leaves the same
snapshot. -/
theorem State.relayed_record_canonical (a : State) (height : UInt32) (b : Block) :
    ((a.step (.fetchBlock height)).1 = .block (some b) ↔
      ∃ r, (a.step (.fetchSerialized height)).1 = .serialized (some r) ∧
        r.height = height ∧ b.height = height ∧ r.version.Representable b ∧
        r.version.encode b = r.bytes) ∧
    (a.step (.fetchBlock height)).2 = (a.step (.fetchSerialized height)).2 := by
  have hblock : (a.step (.fetchBlock height)).1 =
      .block (Reader.fetchBlock a.storage height a.snapshot).1 := rfl
  have hserialized : (a.step (.fetchSerialized height)).1 =
      .serialized (Reader.fetchSerialized a.storage height a.snapshot).1 := rfl
  simp only [hblock, hserialized, Answer.block.injEq, Answer.serialized.injEq,
    fetchBlock_eq_some_iff, RecordVersion.decode_eq_ok_iff]
  constructor
  · constructor
    · rintro ⟨r, hr, ⟨hrepresentable, hencode⟩, hheight⟩
      exact ⟨r, hr, height_of_fetchSerialized hr, hheight, hrepresentable, hencode⟩
    · rintro ⟨r, hr, -, hheight, hrepresentable, hencode⟩
      exact ⟨r, hr, ⟨hrepresentable, hencode⟩, hheight⟩
  · exact congrArg (fun snapshot => { a with snapshot })
      (Reader.snd_fetchBlock a.storage height a.snapshot)

end ChainNode.Archive
