/-!
# Repository errors

What the node's storage reports when it cannot answer. Such a failure is always passing: the caller
gives up and tries again on its next round.
-/

namespace ChainNode

inductive RepositoryError
  | io (detail : String)
  | unavailable (detail : String)
  | corrupt (detail : String)
deriving DecidableEq

def RepositoryError.message : RepositoryError → String
  | .io detail => "Repository I/O error: " ++ detail
  | .unavailable detail => "Repository unavailable: " ++ detail
  | .corrupt detail => "Repository data corrupt: " ++ detail

instance decidableEqExcept {ε α : Type} [DecidableEq ε] [DecidableEq α] :
    DecidableEq (Except ε α)
  | .ok a, .ok b => decidable_of_iff (a = b) ⟨congrArg Except.ok, Except.ok.inj⟩
  | .error d, .error e => decidable_of_iff (d = e) ⟨congrArg Except.error, Except.error.inj⟩
  | .ok _, .error _ => .isFalse fun h => by cases h
  | .error _, .ok _ => .isFalse fun h => by cases h

end ChainNode
