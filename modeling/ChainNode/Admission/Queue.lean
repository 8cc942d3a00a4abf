import ChainNode.StableSort
import ChainNode.Transaction

/-!
# The candidate queue

Transactions that have come in and are not yet handed to the repository, at most one for each signature:
the first stays. A candidate is tagged once its signature is known to be valid, and the tag stays as
long as the candidate does.
-/

namespace ChainNode.Admission

inductive ValidationState
  | unvalidated
  | signatureValid
deriving DecidableEq

structure Candidate where
  transaction : Transaction
  state : ValidationState := .unvalidated
  receivedAt : UInt64
deriving DecidableEq

namespace Candidate

def signature (c : Candidate) : Signature := c.transaction.signature

def isValid (c : Candidate) : Bool := decide (c.state = .signatureValid)

/-- Tags the candidate, and says whether the tag is new. -/
def markValid (c : Candidate) : Bool × Candidate := (!c.isValid, { c with state := .signatureValid })

@[simp] theorem signature_markValid (c : Candidate) : c.markValid.2.signature = c.signature := rfl

end Candidate

/-- The candidates in the order in which they came. -/
structure Queue where
  candidates : List Candidate := []
deriving DecidableEq

namespace Queue

def get? (q : Queue) (s : Signature) : Option Candidate := q.candidates.find? (·.signature = s)

def contains (q : Queue) (s : Signature) : Bool := (q.get? s).isSome

def size (q : Queue) : Nat := q.candidates.length

def isEmpty (q : Queue) : Bool := q.candidates.isEmpty

def validatedSize (q : Queue) : Nat := q.candidates.countP (·.isValid)

/-- Says whether the candidate was taken in. -/
def insertIfAbsent (q : Queue) (c : Candidate) : Bool × Queue :=
  if q.contains c.signature then (false, q) else (true, ⟨q.candidates ++ [c]⟩)

/-- The earlier candidate stays. -/
theorem get?_insertIfAbsent (q : Queue) (c : Candidate) (s : Signature) :
    (q.insertIfAbsent c).2.get? s =
      if s = c.signature then some ((q.get? s).getD c) else q.get? s := by
  by_cases h : q.contains c.signature
  · by_cases hs : s = c.signature
    · subst hs
      obtain ⟨d, hd⟩ := Option.isSome_iff_exists.1 h
      simp [insertIfAbsent, h, hd]
    · simp [insertIfAbsent, h, hs]
  · have hn : q.get? c.signature = none := by simpa [contains] using h
    rw [insertIfAbsent, if_neg h]
    by_cases hs : s = c.signature
    · subst hs
      simp only [if_true, hn, Option.getD_none]
      rw [get?] at hn ⊢
      simp [List.find?_append, hn]
    · simp [hs, get?, List.find?_append, Ne.symm hs]

/-- Says whether a candidate got a tag that it did not have. -/
def markValid (q : Queue) (s : Signature) : Bool × Queue :=
  (match q.get? s with
    | some c => !c.isValid
    | none => false,
   ⟨q.candidates.map fun c => if c.signature = s then c.markValid.2 else c⟩)

theorem get?_markValid (q : Queue) (s t : Signature) :
    (q.markValid s).2.get? t = if t = s then (q.get? t).map (·.markValid.2) else q.get? t := by
  rcases q with ⟨cs⟩
  simp only [markValid, get?]
  induction cs with
  | nil => simp
  | cons c cs ih =>
    rw [List.map_cons, List.find?_cons, List.find?_cons]
    by_cases hs : c.signature = s
    · by_cases ht : s = t
      · simp [hs, ht, Candidate.signature_markValid]
      · simp [hs, ht, Candidate.signature_markValid, ih]
    · by_cases ht : c.signature = t
      · simp [ht]
        grind
      · simp [hs, ht, ih]

/-- Gives back the candidate that was there. -/
def remove (q : Queue) (s : Signature) : Option Candidate × Queue :=
  (q.get? s, ⟨q.candidates.filter (·.signature ≠ s)⟩)

theorem get?_remove (q : Queue) (s t : Signature) :
    (q.remove s).2.get? t = if t = s then none else q.get? t := by
  simp only [remove, get?, List.find?_filter]
  by_cases h : t = s
  · subst h
    simp
  · rw [if_neg h]
    congr 1
    funext c
    grind

/-- All candidates, by rising rank of their signatures; those of one rank in the order of the queue. -/
def walk (q : Queue) (rank : Signature → Nat) : List Candidate :=
  stableSort (fun a b => decide (rank a.signature ≤ rank b.signature)) q.candidates

/-- The transactions of the tagged candidates, in the same order. -/
def walkValidated (q : Queue) (rank : Signature → Nat) : List Transaction :=
  ((q.walk rank).filter (·.isValid)).map (·.transaction)

end Queue
end ChainNode.Admission
