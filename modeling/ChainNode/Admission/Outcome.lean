import ChainNode.RepositoryError

/-!
# Outcomes of admission

What a submission, an import and an announcement can come to.
-/

namespace ChainNode.Admission

inductive SubmitOutcome
  | queued
  | alreadyQueued
  | coolingDown
deriving DecidableEq

/-- Why the repository refuses a transaction. -/
inductive InvalidReason
  | timestampTooOld
  | timestampTooNew
  | insufficientFee
  | other (reason : String)
deriving DecidableEq

def InvalidReason.message : InvalidReason → String
  | .timestampTooOld => "timestamp too old"
  | .timestampTooNew => "timestamp too new"
  | .insufficientFee => "insufficient fee"
  | .other reason => reason

/-- The repository's answer when it is asked to save a transaction. -/
inductive ImportResult
  | saved
  | alreadyExists
  /-- The repository is locked; the transaction may come again later. -/
  | lockUnavailable
  | invalid (reason : InvalidReason)
deriving DecidableEq

/-- Why a cycle left its import phase out. -/
inductive ImportSkip
  | synchronizing
  | chainLockBusy
deriving DecidableEq

/-- Why a phase of a cycle ended early. -/
inductive AdmissionError
  | repository (error : RepositoryError)
  | stopped
  | worker (detail : String)
deriving DecidableEq

def AdmissionError.message : AdmissionError → String
  | .repository error => "Repository error: " ++ error.message
  | .stopped => "Admission pipeline stopped"
  | .worker detail => "Admission worker failed: " ++ detail

inductive BroadcastError
  | noPeers
  | network (detail : String)
deriving DecidableEq

def BroadcastError.message : BroadcastError → String
  | .noPeers => "No peers connected"
  | .network detail => "Network error: " ++ detail

end ChainNode.Admission
