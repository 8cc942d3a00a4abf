import ChainNode.RepositoryError
import ChainNode.Transaction

/-!
# The chain state and its lock

Everything that changes the chain takes one lock first, and nobody waits for it. Only the guard that
came out of taking the lock releases it. Whether the lock is held is a flag of its own, beside the
guards that are alive.
-/

namespace ChainNode.Admission

/-- Who has taken the lock: the chain state on behalf of an import, or another part of the node. -/
inductive Holder
  | chainState
  | subsystem (name : String)
deriving DecidableEq

structure ChainLock where
  held : Bool := false
  /-- The guards that are alive. -/
  guards : List Holder := []
deriving DecidableEq

namespace ChainLock

/-- Takes the lock if it is free, and says whether it was. -/
def tryAcquire (l : ChainLock) (holder : Holder) : Bool × ChainLock :=
  if l.held then (false, l) else (true, ⟨true, holder :: l.guards⟩)

/-- Drops the holder's guard, and says whether there was one. -/
def release (l : ChainLock) (holder : Holder) : Bool × ChainLock :=
  if holder ∈ l.guards then (true, ⟨false, l.guards.erase holder⟩) else (false, l)

end ChainLock

structure ChainState where
  tip : Option ChainTip := none
  tipFailing : Bool := false
  lock : ChainLock := {}
  /-- How often the lock was taken on behalf of an import. -/
  acquisitions : Nat := 0
deriving DecidableEq

namespace ChainState

def currentTip (c : ChainState) : Except RepositoryError (Option ChainTip) :=
  if c.tipFailing then .error (.io "tip unreadable") else .ok c.tip

def tryAcquireLock (c : ChainState) : Bool × ChainState :=
  match c.lock.tryAcquire .chainState with
  | (true, lock) => (true, { c with lock, acquisitions := c.acquisitions + 1 })
  | (false, _) => (false, c)

def releaseLock (c : ChainState) : ChainState :=
  { c with lock := (c.lock.release .chainState).2 }

end ChainState

/-- The lock in the hands of several parts of the node: those that take it themselves, by slot, and
those that take it through the chain state. -/
structure LockSession where
  chain : ChainState := {}
  /-- The slots that keep a guard taken through the chain state. -/
  guardSlots : List String := []

inductive LockAction
  | acquire (slot : String)
  | release (slot : String)
  | guard (slot : String)
  | dropGuard (slot : String)
  | acquireState
  | releaseState
deriving DecidableEq

namespace LockSession

/-- The answer says whether the lock was taken, or whether there was something to give back. -/
def step (s : LockSession) : LockAction → Option Bool × LockSession
  | .acquire slot =>
    let (taken, lock) := s.chain.lock.tryAcquire (.subsystem slot)
    (some taken, { s with chain.lock := lock })
  | .release slot =>
    let (there, lock) := s.chain.lock.release (.subsystem slot)
    (some there, { s with chain.lock := lock })
  | .guard slot =>
    let (taken, chain) := s.chain.tryAcquireLock
    (some taken, { chain, guardSlots := if taken then slot :: s.guardSlots else s.guardSlots })
  | .dropGuard slot =>
    if slot ∈ s.guardSlots then
      (some true, { chain := s.chain.releaseLock, guardSlots := s.guardSlots.erase slot })
    else (some false, s)
  | .acquireState =>
    let (taken, chain) := s.chain.tryAcquireLock
    (some taken, { s with chain })
  | .releaseState => (none, { s with chain := s.chain.releaseLock })

end LockSession
end ChainNode.Admission
