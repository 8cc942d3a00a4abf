import ChainNode.Admission.ChainState
import ChainNode.Admission.Repository

/-!
# The surroundings of the pipeline

The clock, the repository, the chain state, the synchronizer and the broadcaster, and what happens to
them from outside.
-/

namespace ChainNode.Admission

/-- Whether the node is synchronizing, or has been asked to. -/
structure SyncStatus where
  inProgress : Bool := false
  pending : Bool := false
  /-- After so many more queries a sync request comes in. -/
  pendingAfter : Option Nat := none
  /-- After so many more queries the pipeline is told to stop. -/
  stopAfter : Option Nat := none
deriving DecidableEq

namespace SyncStatus

/-- A countdown after one more query, and whether it has run out with it. -/
def tick : Option Nat → Bool × Option Nat
  | none => (false, none)
  | some 0 => (true, none)
  | some (n + 1) => (false, some n)

/-- The status after one query: its `pending` is the answer. -/
def query (s : SyncStatus) : SyncStatus :=
  let (due, pendingAfter) := tick s.pendingAfter
  { s with pending := s.pending || due, pendingAfter, stopAfter := (tick s.stopAfter).2 }

/-- The next query comes with the order to stop. -/
def stopsNext (s : SyncStatus) : Bool := (tick s.stopAfter).1

end SyncStatus

structure Broadcaster where
  messages : List (List Signature) := []
  failing : Bool := false
  /-- The chain lock is watched. -/
  observing : Bool := false
  /-- Whether the lock was held, for each announcement under observation. -/
  lockHeld : List Bool := []
deriving DecidableEq

/-- Announces signatures to the peers. `lockHeld` tells whether the chain lock is held meanwhile. -/
def Broadcaster.announce (b : Broadcaster) (lockHeld : Bool) (signatures : List Signature) :
    Except BroadcastError Unit × Broadcaster :=
  let b := if b.observing then { b with lockHeld := b.lockHeld ++ [lockHeld] } else b
  if b.failing then (.error .noPeers, b)
  else (.ok (), { b with messages := b.messages ++ [signatures] })

@[ext]
structure Environment where
  now : UInt64
  repository : Repository := {}
  chain : ChainState := {}
  sync : SyncStatus := {}
  broadcaster : Broadcaster := {}
deriving DecidableEq

/-- What can happen around the pipeline. -/
inductive Change
  | setTime (now : UInt64)
  | advance (milliseconds : UInt64)
  | setTip (tip : Option ChainTip)
  | setTipFailing (failing : Bool)
  /-- Another part of the node tries to take the chain lock. -/
  | takeLock (name : String)
  | dropLock (name : String)
  | setSyncInProgress (value : Bool)
  | setSyncPending (value : Bool)
  | requestSyncAfter (queries : Nat)
  | requestStopAfter (queries : Nat)
  | insertStored (transaction : Transaction)
  | script (signature : Signature) (result : ImportResult)
  | setRepositoryFailing (failing : Bool)
  | failAfterSaves (saves : Nat)
  | setBroadcasterFailing (failing : Bool)
  | observeLock
deriving DecidableEq

namespace Environment

def announce (e : Environment) (signatures : List Signature) :
    Except BroadcastError Unit × Environment :=
  let (result, broadcaster) := e.broadcaster.announce e.chain.lock.held signatures
  (result, { e with broadcaster })

def apply (e : Environment) : Change → Environment
  | .setTime now => { e with now }
  | .advance milliseconds => { e with now := e.now + milliseconds }
  | .setTip tip => { e with chain.tip := tip }
  | .setTipFailing failing => { e with chain.tipFailing := failing }
  | .takeLock name => { e with chain.lock := (e.chain.lock.tryAcquire (.subsystem name)).2 }
  | .dropLock name => { e with chain.lock := (e.chain.lock.release (.subsystem name)).2 }
  | .setSyncInProgress value => { e with sync.inProgress := value }
  | .setSyncPending value => { e with sync.pending := value }
  | .requestSyncAfter queries => { e with sync.pendingAfter := some queries }
  | .requestStopAfter queries => { e with sync.stopAfter := some queries }
  | .insertStored transaction => { e with repository := e.repository.store transaction }
  | .script signature result =>
    { e with repository.scripts := e.repository.scripts ++ [(signature, result)] }
  | .setRepositoryFailing failing => { e with repository.failing := failing }
  | .failAfterSaves saves => { e with repository.savesLeft := some saves }
  | .setBroadcasterFailing failing => { e with broadcaster.failing := failing }
  | .observeLock => { e with broadcaster.observing := true }

/-- What the change is answered: for the lock, whether it was taken or was there to be dropped. -/
def answer (e : Environment) : Change → Option Bool
  | .takeLock name => some (e.chain.lock.tryAcquire (.subsystem name)).1
  | .dropLock name => some (e.chain.lock.release (.subsystem name)).1
  | _ => none

end Environment
end ChainNode.Admission
