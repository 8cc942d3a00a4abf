import ChainNode.Archive.Index
import ChainNode.Archive.Record
import ChainNode.Archive.Segment
import ChainNode.Archive.Storage

/-!
# Reading the archive

The reader lists the archive once and keeps the segment directory as its snapshot. Whatever it does
not find makes it drop the snapshot, so that the next look-up lists the archive anew. Damage and
failures are not reported: they count as "not there".
-/

namespace ChainNode.Archive

/-- The segment directory as it was last seen. -/
abbrev Snapshot := Option Directory

namespace Reader

/-- The snapshot, made first if there is none. -/
def directory (storage : Storage) : Snapshot → Except ArchiveError Directory × Snapshot
  | some d => (.ok d, some d)
  | none =>
    match storage.scan with
    | .ok d => (.ok d, some d)
    | .error e => (.error e, none)

/-- The stored record of `height`, by a directory that may be out of date. -/
def readListed (storage : Storage) (d : Directory) (height : UInt32) :
    Except ArchiveError (Option SerializedBlock) × Snapshot :=
  match d.find? height with
  -- the height may have been archived since
  | none => (.ok none, none)
  | some entry =>
    match storage.open? (.text entry.fileName) with
    -- a file that is listed but gone: the directory is out of date
    | none => (.error .io, none)
    -- a subdirectory in its place can be opened but not read, which says nothing of the directory
    | some .folder => (.error .io, some d)
    | some (.file segment) => (some <$> Segment.record segment height, some d)

def trySerialized (storage : Storage) (height : UInt32) (snapshot : Snapshot) :
    Except ArchiveError (Option SerializedBlock) × Snapshot :=
  match directory storage snapshot with
  | (.ok d, _) => readListed storage d height
  | (.error e, snapshot) => (.error e, snapshot)

/-- The block of a record, which must be of the height that the record was found under. -/
def decodeAt (height : UInt32) (record : SerializedBlock) : Except ArchiveError Block := do
  let block ← record.version.decode record.bytes
  if block.height ≠ height then throw (.heightMismatch height block.height.toNat)
  return block

def tryBlock (storage : Storage) (height : UInt32) (snapshot : Snapshot) :
    Except ArchiveError (Option Block) × Snapshot :=
  match trySerialized storage height snapshot with
  | (.ok (some record), snapshot) => (some <$> decodeAt height record, snapshot)
  | (.ok none, snapshot) => (.ok none, snapshot)
  | (.error e, snapshot) => (.error e, snapshot)

def orNone {α : Type} : Except ArchiveError (Option α) → Option α
  | .ok x => x
  | .error _ => none

def fetchSerialized (storage : Storage) (height : UInt32) (snapshot : Snapshot) :
    Option SerializedBlock × Snapshot :=
  (trySerialized storage height snapshot).map orNone id

def fetchBlock (storage : Storage) (height : UInt32) (snapshot : Snapshot) :
    Option Block × Snapshot :=
  (tryBlock storage height snapshot).map orNone id

/-- The block at the height that the index gives, if it gives one. -/
def fetchIndexed (storage : Storage) (height : Except RepositoryError (Option UInt32))
    (snapshot : Snapshot) : Option Block × Snapshot :=
  match height with
  | .ok (some height) => fetchBlock storage height snapshot
  | .ok none | .error _ => (none, snapshot)

def fetchBySignature (storage : Storage) (ix : Index) (signature : Signature) (snapshot : Snapshot) :
    Option Block × Snapshot :=
  fetchIndexed storage (ix.heightOfSignature signature) snapshot

/-- The block that follows the one with this signature. -/
def fetchByReference (storage : Storage) (ix : Index) (reference : Signature) (snapshot : Snapshot) :
    Option Block × Snapshot :=
  fetchIndexed storage (ix.heightOfReference reference) snapshot

/-- At most `count` blocks from `height` on, up to the first that is missing. -/
def fetchRun (storage : Storage) : (count : Nat) → (height : UInt32) → Snapshot →
    List Block × Snapshot
  | 0, _, snapshot => ([], snapshot)
  | count + 1, height, snapshot =>
    match fetchBlock storage height snapshot with
    | (none, snapshot) => ([], snapshot)
    | (some block, snapshot) =>
      let (blocks, snapshot) := fetchRun storage count (height + 1) snapshot
      (block :: blocks, snapshot)

/-- The blocks from `first` to `last`, up to the first that is missing. -/
def fetchRange (storage : Storage) (first last : UInt32) (snapshot : Snapshot) :
    List Block × Snapshot :=
  fetchRun storage (last.toNat + 1 - first.toNat) first snapshot

/-- 0 where the index is not available. -/
def heightForTimestamp (ix : Index) (timestamp : UInt64) : UInt32 :=
  match ix.heightForTimestamp timestamp with
  | .ok height => height
  | .error _ => 0

def lastHeight (storage : Storage) (snapshot : Snapshot) : UInt32 × Snapshot :=
  match directory storage snapshot with
  | (.ok d, snapshot) => (d.lastHeight, snapshot)
  | (.error _, snapshot) => (0, snapshot)

def segmentCount (storage : Storage) (snapshot : Snapshot) : Nat × Snapshot :=
  match directory storage snapshot with
  | (.ok d, snapshot) => (d.size, snapshot)
  | (.error _, snapshot) => (0, snapshot)

end Reader

/-- An archive in use: what is stored, the index over it and the reader's snapshot. -/
structure State where
  storage : Storage
  index : Index := {}
  snapshot : Snapshot := none

/-- What can happen to an archive, from outside or through its reader. -/
inductive Event
  | change (change : StorageChange)
  | insertIndex (block : Block)
  | setIndexFailing (failing : Bool)
  | fetchBlock (height : UInt32)
  | fetchSerialized (height : UInt32)
  | fetchBySignature (signature : Signature)
  | fetchByReference (reference : Signature)
  | fetchRange (first last : UInt32)
  | heightForTimestamp (timestamp : UInt64)
  | lastHeight
  | segmentCount
  | invalidate

inductive Answer
  | done
  | block (block : Option Block)
  | serialized (record : Option SerializedBlock)
  | blocks (blocks : List Block)
  | height (height : UInt32)
  | count (count : Nat)
deriving DecidableEq

namespace State

/-- Carries out a reader's call and keeps the snapshot that it leaves. -/
def read {α : Type} (a : State) (answer : α → Answer) (call : Snapshot → α × Snapshot) :
    Answer × State :=
  let (x, snapshot) := call a.snapshot
  (answer x, { a with snapshot })

def step (a : State) : Event → Answer × State
  | .change change => (.done, { a with storage := a.storage.apply change })
  | .insertIndex block => (.done, { a with index := a.index.insert block })
  | .setIndexFailing failing => (.done, { a with index := a.index.setFailing failing })
  | .fetchBlock height => a.read .block (Reader.fetchBlock a.storage height)
  | .fetchSerialized height => a.read .serialized (Reader.fetchSerialized a.storage height)
  | .fetchBySignature signature =>
    a.read .block (Reader.fetchBySignature a.storage a.index signature)
  | .fetchByReference reference =>
    a.read .block (Reader.fetchByReference a.storage a.index reference)
  | .fetchRange first last => a.read .blocks (Reader.fetchRange a.storage first last)
  | .heightForTimestamp timestamp => (.height (Reader.heightForTimestamp a.index timestamp), a)
  | .lastHeight => a.read .height (Reader.lastHeight a.storage)
  | .segmentCount => a.read .count (Reader.segmentCount a.storage)
  | .invalidate => (.done, { a with snapshot := none })

/-- The archive after a run of events. -/
def run (a : State) (events : List Event) : State :=
  events.foldl (fun a e => (a.step e).2) a

end State
end ChainNode.Archive
