import ChainNode.Admission.Outcome
import ChainNode.Admission.UnconfirmedCache

/-!
# The repository

Holds the transactions that were saved as unconfirmed. It may be told what to answer for a signature,
it may go offline, and it may fail after a number of saves. Every request to save is kept with what it
found and what it was answered.
-/

namespace ChainNode.Admission

/-- A request to save: what was handed over, what was stored at that moment, and the answer. -/
structure SaveRequest where
  transaction : Transaction
  cache : UnconfirmedCache
  stored : List Transaction
  answer : Except RepositoryError ImportResult
deriving DecidableEq

structure Repository where
  stored : List Transaction := []
  /-- Answers to be given, each once and in this order among those of one signature. -/
  scripts : List (Signature × ImportResult) := []
  failing : Bool := false
  /-- How many saves go through before all fail; `none` is no limit. -/
  savesLeft : Option Nat := none
  requests : List SaveRequest := []
deriving DecidableEq

namespace Repository

def offline : RepositoryError := .unavailable "repository offline"

def writeFailed : RepositoryError := .io "write failed"

def contains (r : Repository) (s : Signature) : Bool := r.stored.any (·.signature = s)

def exists? (r : Repository) (s : Signature) : Except RepositoryError Bool :=
  if r.failing then .error offline else .ok (r.contains s)

/-- All that is stored except the given types. -/
def unconfirmed (r : Repository) (excluded : List TransactionType) :
    Except RepositoryError (List Transaction) :=
  if r.failing then .error offline
  else .ok (r.stored.filter fun tx => !excluded.contains tx.type)

/-- The first answer kept for `s`, and the answers left. -/
def takeScript (s : Signature) :
    List (Signature × ImportResult) → Option ImportResult × List (Signature × ImportResult)
  | [] => (none, [])
  | (t, result) :: rest =>
    if t = s then (some result, rest)
    else ((takeScript s rest).1, (t, result) :: (takeScript s rest).2)

def store (r : Repository) (tx : Transaction) : Repository := { r with stored := r.stored ++ [tx] }

theorem contains_store (r : Repository) (tx : Transaction) (s : Signature) :
    (r.store tx).contains s = (r.contains s || decide (tx.signature = s)) := by
  simp [store, contains]

/-- The answer to a request that got through: the one kept for the signature if there is one, else a
transaction is saved unless its signature is stored. -/
def respond (r : Repository) (tx : Transaction) : ImportResult × Repository :=
  match takeScript tx.signature r.scripts with
  | (some .saved, scripts) => (.saved, { r with scripts }.store tx)
  | (some result, scripts) => (result, { r with scripts })
  | (none, _) =>
    if r.contains tx.signature then (.alreadyExists, r) else (.saved, r.store tx)

def trySave (r : Repository) (tx : Transaction) : Except RepositoryError ImportResult × Repository :=
  if r.failing then (.error offline, r)
  else match r.savesLeft with
    | some 0 => (.error writeFailed, r)
    | left => ({ r with savesLeft := left.map (· - 1) }.respond tx).map .ok id

def save (r : Repository) (tx : Transaction) (cache : UnconfirmedCache) :
    Except RepositoryError ImportResult × Repository :=
  let (answer, after) := r.trySave tx
  (answer, { after with requests := r.requests ++ [⟨tx, cache, r.stored, answer⟩] })

/-- The requests that got through. -/
def answered (r : Repository) : List SaveRequest :=
  r.requests.filter fun q => match q.answer with
    | .ok _ => true
    | .error _ => false

end Repository
end ChainNode.Admission
