import NyanShopBot.Orchestrator.Store

/-!
# Errors and results of the runner

`RunnerError` is what the runner raises, and `WorkerResult` and `ReviewResult` are the parts
of an agent's result that it reads.
-/

namespace NyanShopBot.Orchestrator

open Py

inductive RunnerError where
  | store (e : StoreError)
  | runtime (message : Str)
  | agentPaused (message : Str)
  | agentStopped (message : Str)
  | pauseRequested (message : Str)
  | stopRequested (message : Str)
  | exception (message : Str)
  | interrupt
deriving DecidableEq

namespace RunnerError

/-- `isinstance(e, Exception)`. -/
def isException : RunnerError → Bool
  | interrupt => false
  | _ => true

/-- `isinstance(e, RuntimeError)`. -/
def isRuntime : RunnerError → Bool
  | store (.runtimeError _) | runtime _ | agentPaused _ | agentStopped _ | pauseRequested _
  | stopRequested _ => true
  | _ => false

def storeMessage : StoreError → Str
  | .valueError m | .runtimeError m | .keyError m => m
  | .integrityError | .overflowError | .unicodeEncodeError => []

/-- `str(e)`. -/
def message : RunnerError → Str
  | store e => storeMessage e
  | runtime m | agentPaused m | agentStopped m | pauseRequested m | stopRequested m
  | exception m => m
  | interrupt => []

end RunnerError

/-! ## Results -/

inductive WorkerStatus where
  | success | blocked
deriving DecidableEq

def WorkerStatus.value : WorkerStatus → Str
  | success => str "SUCCESS"
  | blocked => str "BLOCKED"

/-- The part of a worker's result that the runner reads. -/
structure WorkerResult where
  status : WorkerStatus
  headSha : Str
  blockers : List Str
deriving DecidableEq

inductive ReviewVerdict where
  | pass | changesRequested | blocked
deriving DecidableEq

def ReviewVerdict.value : ReviewVerdict → Str
  | pass => str "PASS"
  | changesRequested => str "CHANGES_REQUESTED"
  | blocked => str "BLOCKED"

/-- The part of a review that the runner reads. -/
structure ReviewResult where
  verdict : ReviewVerdict
  reviewedHeadSha : Str
  findings : Nat
  blockers : List Str
  pass : verdict = .pass → findings = 0 ∧ blockers = []
  changes : verdict = .changesRequested → findings ≠ 0
  blocked : verdict = .blocked → blockers ≠ []
deriving DecidableEq

end NyanShopBot.Orchestrator
