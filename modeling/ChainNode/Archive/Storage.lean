import ChainNode.Archive.Directory
import ChainNode.Archive.Error
import ChainNode.Bytes

/-!
# Where the archive is stored

What stands at the archive's path, and how files come, change and go there. Listing the place gives
the segment directory: subdirectories, names that are no text and names of another shape are passed
over.
-/

namespace ChainNode.Archive

/-- The archive's path, unless another one is configured. -/
def defaultPath : String := "./data/archive"

/-- A file name need not be text. -/
inductive FileName
  | text (name : String)
  | raw (bytes : Bytes)
deriving DecidableEq

inductive Item
  | file (content : Bytes)
  | folder
deriving DecidableEq

/-- What stands at the archive's path. A folder's items are in the order in which they are listed. -/
inductive Storage
  | missing
  | notAFolder
  | folder (items : List (FileName × Item))
deriving DecidableEq

/-- Something done to the place from outside. -/
inductive StorageChange
  | write (name : FileName) (content : Bytes)
  /-- Removes the last `count` bytes, all if there are fewer. -/
  | truncate (name : FileName) (count : Nat)
  | patch (name : FileName) (offset : Nat) (content : Bytes)
  | remove (name : FileName)
  | makeFolder (name : FileName)
  | create
  | destroy
  /-- Puts a file where the folder would be, if nothing stands there. -/
  | obstruct
deriving DecidableEq

namespace Storage

/-- Puts an item in the place of the one of its name, or behind all others. -/
def put (name : FileName) (item : Item) : List (FileName × Item) → List (FileName × Item)
  | [] => [(name, item)]
  | (n, i) :: items => if n = name then (n, item) :: items else (n, i) :: put name item items

/-- Overwrites from `offset` on; a gap behind the old end is filled with zeros. -/
def overwrite (offset : Nat) (content old : Bytes) : Bytes :=
  (old ++ List.replicate (offset - old.length) 0).take offset ++ content ++
    old.drop (offset + content.length)

/-- What was put under a name is found there, and nothing else moves. -/
theorem lookup_put (name n : FileName) (item : Item) (items : List (FileName × Item)) :
    (put name item items).lookup n = if n = name then some item else items.lookup n := by
  induction items with
  | nil =>
    by_cases h : n = name
    · simp [put, h]
    · simp [put, List.lookup_cons, beq_false_of_ne h, h]
  | cons i items ih =>
    obtain ⟨m, old⟩ := i
    unfold put
    by_cases hm : m = name
    · by_cases h : n = name
      · simp [hm, h]
      · simp [hm, List.lookup_cons, beq_false_of_ne h, h]
    · by_cases h : n = m
      · simp [hm, h]
      · simp [hm, List.lookup_cons, beq_false_of_ne h, ih]

def editFile (name : FileName) (edit : Bytes → Bytes) (items : List (FileName × Item)) :
    List (FileName × Item) :=
  items.map fun
    | (n, .file content) => (n, .file (if n = name then edit content else content))
    | item => item

def changeItems (items : List (FileName × Item)) : StorageChange → List (FileName × Item)
  | .write name content => put name (.file content) items
  | .truncate name count => editFile name (fun old => old.take (old.length - count)) items
  | .patch name offset content => editFile name (overwrite offset content) items
  | .remove name => items.filter (·.1 ≠ name)
  | .makeFolder name => put name .folder items
  | .create | .destroy | .obstruct => items

/-- Files can only be changed in a folder that is there. A folder, or a file in its place, only comes where
nothing stands. -/
def apply : Storage → StorageChange → Storage
  | _, .destroy => missing
  | missing, .create => folder []
  | missing, .obstruct => notAFolder
  | folder items, change => folder (changeItems items change)
  | s, _ => s

def open? : Storage → FileName → Option Item
  | folder items, name => items.lookup name
  | _, _ => none

/-- The segment that a listed item is, if it is one. -/
def entry? : FileName × Item → Option SegmentEntry
  | (.text name, .file _) => SegmentEntry.ofName? name
  | _ => none

/-- Lists the place. One that is missing holds no segments, one that is no folder cannot be listed. -/
def scan : Storage → Except ArchiveError Directory
  | missing => .ok {}
  | notAFolder => .error .io
  | folder items => .ok (Directory.ofEntries (items.filterMap entry?))

end Storage
end ChainNode.Archive
