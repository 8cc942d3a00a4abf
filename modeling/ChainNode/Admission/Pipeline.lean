import ChainNode.Admission.Config
import ChainNode.Admission.Cooldowns
import ChainNode.Admission.Environment
import ChainNode.Admission.Queue
import ChainNode.Admission.Report

/-!
# The admission pipeline

Submitted transactions wait in the queue. A cycle first judges every candidate by its deadline and its
signature, then imports the tagged ones into the repository under the chain lock, and last drops the
cool-downs that have ended. What a phase cannot do is left to the next cycle.

```text
submitted → unvalidated → tagged → imported or known
                 ↓            ↓
            expired, bad signature, refused  → cool-down
```
-/

namespace ChainNode.Admission

@[ext]
structure Pipeline where
  config : Config
  queue : Queue := {}
  cooldowns : Cooldowns := {}
  stopRequested : Bool := false
  environment : Environment
deriving DecidableEq

/-- The order in which a cycle goes through the queue, as a rank for each signature: once to judge the
candidates and once to import them. -/
structure WalkOrder where
  judging : Signature → Nat := fun _ => 0
  importing : Signature → Nat := fun _ => 0

/-- A cycle under way. -/
structure Cycle where
  pipeline : Pipeline
  report : CycleReport := {}

/-- A batch of imports under way. -/
structure Batch where
  cycle : Cycle
  cache : UnconfirmedCache
  /-- The signatures imported so far, in order. -/
  imported : List Signature := []

/-- What a cycle finds about a candidate. -/
inductive Verdict
  | expired
  | unchanged
  | valid
  | badSignature
deriving DecidableEq

namespace Pipeline

def isCoolingDown (p : Pipeline) (s : Signature) : Bool :=
  p.cooldowns.isCoolingDown s p.environment.now

def submit (p : Pipeline) (tx : Transaction) : SubmitOutcome × Pipeline :=
  if p.isCoolingDown tx.signature then (.coolingDown, p)
  else match p.queue.insertIfAbsent ⟨tx, .unvalidated, p.environment.now⟩ with
    | (true, queue) => (.queued, { p with queue })
    | (false, _) => (.alreadyQueued, p)

def requestStop (p : Pipeline) : Pipeline := { p with stopRequested := true }

/-- Those of the signatures that are not queued, not cooling down and not stored. -/
def unknownSignatures (p : Pipeline) : List Signature → Except RepositoryError (List Signature)
  | [] => .ok []
  | s :: signatures =>
    if p.queue.contains s || p.isCoolingDown s then p.unknownSignatures signatures
    else do
      let known ← p.environment.repository.exists? s
      let unknown ← p.unknownSignatures signatures
      return if known then unknown else s :: unknown

def status (p : Pipeline) : Status :=
  ⟨p.queue.size, p.queue.validatedSize, p.cooldowns.size, p.config.liteMode⟩

def removed (p : Pipeline) (s : Signature) : Pipeline := { p with queue := (p.queue.remove s).2 }

/-- Takes the candidate out and bars its signature for a time. -/
def barred (p : Pipeline) (s : Signature) (cooldown : UInt64) : Pipeline :=
  { p.removed s with cooldowns := p.cooldowns.record s (p.environment.now + cooldown) }

/-- Asks the synchronizer once whether a sync is wanted. -/
def querySync (p : Pipeline) : Bool × Pipeline :=
  let sync := p.environment.sync.query
  (sync.pending, { p with
    stopRequested := p.stopRequested || p.environment.sync.stopsNext
    environment.sync := sync })

/-- The synchronizer is at work or wanted. One at work is not asked for requests. -/
def isSynchronizing (p : Pipeline) : Bool × Pipeline :=
  if p.environment.sync.inProgress then (true, p) else p.querySync

end Pipeline

/-! ## Judging the candidates -/

/-- What is found about a candidate before its signature is looked at. Deadlines bind every candidate,
tagged or not, and a signature is checked once, in lite mode never. -/
def firstVerdict (config : Config) (tip : Option ChainTip) (c : Candidate) : Option Verdict :=
  if tip.any c.transaction.isExpiredAt then some .expired
  else if c.isValid then some .unchanged
  else if config.liteMode then some .valid
  else none

def Verdict.ofSignature (verifies : Bool) : Verdict := if verifies then .valid else .badSignature

namespace Cycle

def carryOut (c : Cycle) (s : Signature) : Verdict → Cycle
  | .unchanged => c
  | .expired =>
    { pipeline := c.pipeline.barred s c.pipeline.config.expiredCooldown
      report := { c.report with expired := c.report.expired + 1 } }
  | .valid =>
    { pipeline := { c.pipeline with queue := (c.pipeline.queue.markValid s).2 }
      report := { c.report with validated :=
        c.report.validated + (c.pipeline.queue.markValid s).1.toNat } }
  | .badSignature =>
    { pipeline := c.pipeline.barred s c.pipeline.config.invalidCooldown
      report := { c.report with rejected := c.report.rejected + 1 } }

/-- Judges the candidates as they stood when the phase began. If the tip cannot be read, none is
judged. -/
def judge (order : WalkOrder) (c : Cycle) : Cycle :=
  match c.pipeline.environment.chain.currentTip with
  | .error _ => c
  | .ok tip =>
    let first := firstVerdict c.pipeline.config tip
    let candidates := c.pipeline.queue.walk order.judging
    -- signatures are verified together, after all that needs no look at them is settled
    let unverified := candidates.filter fun d => (first d).isNone
    let settled := candidates.foldl (fun c d => (first d).elim c (c.carryOut d.signature)) c
    (Transaction.verdicts (unverified.map (·.transaction))).foldl
      (fun c v => c.carryOut v.1 (.ofSignature v.2)) settled

end Cycle

/-! ## Importing the tagged ones -/

namespace Batch

/-- What the repository's answer means for the transaction. -/
def settle (b : Batch) (tx : Transaction) : ImportResult → Batch
  | .saved =>
    { cycle := {
        pipeline := b.cycle.pipeline.removed tx.signature
        report := { b.cycle.report with imported := b.cycle.report.imported + 1 } }
      cache := if b.cycle.pipeline.config.isLowPriority tx.type then b.cache else b.cache.push tx
      imported := b.imported ++ [tx.signature] }
  | .alreadyExists =>
    { b with cycle := {
        pipeline := b.cycle.pipeline.removed tx.signature
        report := { b.cycle.report with alreadyKnown := b.cycle.report.alreadyKnown + 1 } } }
  | .lockUnavailable => b
  | .invalid reason =>
    { b with cycle := {
        pipeline :=
          b.cycle.pipeline.barred tx.signature (b.cycle.pipeline.config.cooldownFor reason)
        report := { b.cycle.report with rejected := b.cycle.report.rejected + 1 } } }

def interrupt (b : Batch) : Batch := { b with cycle.report.importInterrupted := true }

/-- Hands one transaction to the repository. -/
def save (b : Batch) (tx : Transaction) : Except RepositoryError ImportResult × Batch :=
  let (answer, repository) := b.cycle.pipeline.environment.repository.save tx b.cache
  (answer, { b with cycle.pipeline.environment.repository := repository })

/-- Imports the transactions in turn. A stop, a sync request or a failing repository leaves the rest
for a later cycle; the second component tells which failure it was. -/
def importAll : List Transaction → Batch → Batch × Option AdmissionError
  | [], b => (b, none)
  | tx :: txs, b =>
    if b.cycle.pipeline.stopRequested then (b.interrupt, some .stopped)
    -- asked before every single save, so that a sync never waits for the rest of a batch
    else match b.cycle.pipeline.querySync with
      | (true, pipeline) => ({ b with cycle.pipeline := pipeline }.interrupt, none)
      | (false, pipeline) =>
        match { b with cycle.pipeline := pipeline }.save tx with
        | (.error e, b) => (b, some (.repository e))
        | (.ok result, b) => importAll txs (b.settle tx result)

end Batch

namespace Cycle

def skipImport (c : Cycle) (reason : ImportSkip) : Cycle :=
  { c with report.importSkipped := some reason }

/-- Imports under the chain lock, which is already taken. -/
def importLocked (c : Cycle) (txs : List Transaction) : Batch × Option AdmissionError :=
  match c.pipeline.environment.repository.unconfirmed c.pipeline.config.lowPriorityTypes with
  | .error e => ({ cycle := c, cache := {} }, some (.repository e))
  | .ok stored => Batch.importAll txs { cycle := c, cache := .ofTransactions stored }

/-- What was imported is announced once, after the lock is released. That nobody hears it changes
nothing. -/
def announce (c : Cycle) (signatures : List Signature) : Cycle :=
  if signatures.isEmpty then c
  else { c with pipeline.environment := (c.pipeline.environment.announce signatures).2 }

def releaseLock (c : Cycle) : Cycle :=
  { c with pipeline.environment.chain := c.pipeline.environment.chain.releaseLock }

/-- Imports the candidates that are tagged when the phase begins. -/
def importTagged (order : WalkOrder) (c : Cycle) : Cycle × Option AdmissionError :=
  let txs := c.pipeline.queue.walkValidated order.importing
  if txs.isEmpty then (c, none)
  else match c.pipeline.isSynchronizing with
    | (true, pipeline) => ({ c with pipeline }.skipImport .synchronizing, none)
    | (false, pipeline) =>
      match pipeline.environment.chain.tryAcquireLock with
      | (false, _) => ({ c with pipeline }.skipImport .chainLockBusy, none)
      | (true, chain) =>
        let (b, failure) :=
          importLocked { c with pipeline := { pipeline with environment.chain := chain } } txs
        -- what a failed or interrupted batch did import is announced all the same
        (b.cycle.releaseLock.announce b.imported, failure)

/-! ## The whole cycle -/

def countPending (c : Cycle) : Cycle :=
  { c with report.pendingImport := c.pipeline.queue.validatedSize }

/-- Drops the cool-downs that have ended. -/
def cleanUp (c : Cycle) : Cycle :=
  let (purged, cooldowns) := c.pipeline.cooldowns.purge c.pipeline.environment.now
  { pipeline := { c.pipeline with cooldowns }, report := { c.report with purged } }

end Cycle

namespace Pipeline

/-- One cycle. A pipeline that is to stop does nothing more, and one that is stopped in its batch does
not clean up. -/
def cycle (p : Pipeline) (order : WalkOrder) : CycleReport × Pipeline :=
  if p.stopRequested then ({ stopped := true }, p)
  else
    let (c, failure) := ((Cycle.mk p {}).judge order).countPending.importTagged order
    if failure = some .stopped then ({ c.report with stopped := true }, c.pipeline)
    else (c.cleanUp.report, c.cleanUp.pipeline)

end Pipeline
end ChainNode.Admission
