import ChainNode.Admission.Pipeline

/-!
# Runs of the pipeline

A run is a list of events: submissions, cycles, stop requests, questions, and changes of the
surroundings. Each event has an answer.
-/

namespace ChainNode.Admission

/-- What can be asked without changing anything. -/
inductive Question
  | isStopped
  | unknownSignatures (signatures : List Signature)
  | isQueued (signature : Signature)
  | isCoolingDown (signature : Signature)
  | cooldownExpiry (signature : Signature)
  | status
  | now
deriving DecidableEq

inductive Event
  | submit (transaction : Transaction)
  | cycle (order : WalkOrder)
  | requestStop
  | ask (question : Question)
  | change (change : Change)

inductive Answer
  | done
  | outcome (outcome : SubmitOutcome)
  | report (report : CycleReport)
  | flag (value : Bool)
  | time (value : Option UInt64)
  | signatures (result : Except RepositoryError (List Signature))
  | status (status : Status)
deriving DecidableEq

namespace Pipeline

def answer (p : Pipeline) : Question → Answer
  | .isStopped => .flag p.stopRequested
  | .unknownSignatures signatures => .signatures (p.unknownSignatures signatures)
  | .isQueued s => .flag (p.queue.contains s)
  | .isCoolingDown s => .flag (p.isCoolingDown s)
  | .cooldownExpiry s => .time (p.cooldowns.expiry? s)
  | .status => .status p.status
  | .now => .time (some p.environment.now)

def step (p : Pipeline) : Event → Answer × Pipeline
  | .submit tx => (p.submit tx).map .outcome id
  | .cycle order => (p.cycle order).map .report id
  | .requestStop => (.done, p.requestStop)
  | .ask question => (p.answer question, p)
  | .change change =>
    (match p.environment.answer change with
      | some value => .flag value
      | none => .done,
     { p with environment := p.environment.apply change })

/-- The pipeline after a run. -/
def run (p : Pipeline) : List Event → Pipeline
  | [] => p
  | e :: events => (p.step e).2.run events

/-- The answers of a run, in order. -/
def answers (p : Pipeline) : List Event → List Answer
  | [] => []
  | e :: events => (p.step e).1 :: (p.step e).2.answers events

/-- A pipeline at `now` with nothing queued, over a chain with this tip. -/
def start (config : Config) (now : UInt64) (tip : Option ChainTip) : Pipeline where
  config := config
  environment := { now, chain := { tip } }

theorem run_append (p : Pipeline) (es fs : List Event) : p.run (es ++ fs) = (p.run es).run fs := by
  induction es generalizing p with
  | nil => rfl
  | cons e es ih => exact ih _

end Pipeline

/-- What a worker is waited for. -/
inductive Goal
  | pending (count : Nat)
  | validated (count : Nat)
  | stopped
deriving DecidableEq

def Goal.isReached (p : Pipeline) : Goal → Bool
  | .pending count => decide (p.queue.size = count)
  | .validated count => decide (p.queue.validatedSize = count)
  | .stopped => p.stopRequested

namespace Pipeline

/-- Runs cycles until the goal is reached, at most `fuel`; `none` if it is not reached. -/
def cycleUntil (goal : Goal) : (fuel : Nat) → Pipeline → Option Pipeline
  | 0, p => if goal.isReached p then some p else none
  | fuel + 1, p =>
    if goal.isReached p then some p
    -- a pipeline that is to stop does nothing more, so the goal stays out of reach
    else if p.stopRequested then none
    else cycleUntil goal fuel (p.cycle {}).2

/-- A worker that is waited for and then shut down. -/
def work (p : Pipeline) (goal : Goal) (fuel : Nat) : Option Pipeline :=
  (cycleUntil goal fuel p).map requestStop

end Pipeline
end ChainNode.Admission
