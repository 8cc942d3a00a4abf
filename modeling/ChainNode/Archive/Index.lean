import ChainNode.Archive.Block
import ChainNode.RepositoryError

/-!
# The archive index

Finds the height of an archived block by its signature, by its parent's, or by time.
-/

namespace ChainNode.Archive

structure Index where
  /-- The headers entered so far, the latest first. A later one takes the place of an earlier one with
  the same signature, reference or timestamp. -/
  headers : List BlockHeader := []
  failing : Bool := false
deriving DecidableEq

namespace Index

def insert (ix : Index) (b : Block) : Index := { ix with headers := b.header :: ix.headers }

def setFailing (ix : Index) (failing : Bool) : Index := { ix with failing }

def whenAvailable {α : Type} (ix : Index) (answer : α) : Except RepositoryError α :=
  if ix.failing then .error (.unavailable "index offline") else .ok answer

def heightOfSignature (ix : Index) (signature : Signature) :
    Except RepositoryError (Option UInt32) :=
  ix.whenAvailable ((ix.headers.find? (·.signature = signature)).map (·.height))

/-- The height of the block that follows the one with this signature. -/
def heightOfReference (ix : Index) (reference : Signature) :
    Except RepositoryError (Option UInt32) :=
  ix.whenAvailable ((ix.headers.find? (·.reference = reference)).map (·.height))

/-- The header with the later timestamp; of two with the same one, the first. -/
def later (a : BlockHeader) : Option BlockHeader → BlockHeader
  | none => a
  | some b => if a.timestamp < b.timestamp then b else a

/-- The last of the headers by time that is not past `timestamp`. -/
def lastBefore? (timestamp : UInt64) : List BlockHeader → Option BlockHeader
  | [] => none
  | a :: headers =>
    if a.timestamp ≤ timestamp then some (later a (lastBefore? timestamp headers))
    else lastBefore? timestamp headers

/-- The height of the last block at or before `timestamp`, 0 if there is none. -/
def heightForTimestamp (ix : Index) (timestamp : UInt64) : Except RepositoryError UInt32 :=
  ix.whenAvailable (match lastBefore? timestamp ix.headers with
    | some h => h.height
    | none => 0)

end Index
end ChainNode.Archive
