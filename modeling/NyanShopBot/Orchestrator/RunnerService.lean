import NyanShopBot.Conc.RelyGuarantee
import NyanShopBot.Orchestrator.CiGate
import NyanShopBot.Orchestrator.LeaseSystem
import NyanShopBot.Orchestrator.Results

/-!
# The runner service

`RunnerService` for one run, as programs over what a process of it calls: the state store,
the machine that it runs on (`LeaseAction`), the agents that it launches, and what it asks
of git, of GitHub and of its files (`Question`). Agents and answers are outside: they can be
anything that the models they are validated by admit.
-/

namespace NyanShopBot.Orchestrator

open Py Db Conc

/-! ## What a process calls -/

/-- A review whose head is a commit. -/
structure Review extends ReviewResult where
  sha : CiGate.isSha reviewedHeadSha = true

abbrev AgentOutput : Role → Type
  | .worker => WorkerResult
  | .reviewer => Review

structure AgentInvocation where
  sessionId : Str
  resultPath : Str
  usage : Usage
  activityDelivered : Int
  activityDropped : Int
  activityErrors : Int
  activityCleanShutdown : Bool

/-- A line of an agent's stream, with what `normalize_stream_line` makes of it. -/
structure StreamLine where
  channel : Str
  sequence : Int
  normalized : Option (List (Str × Json))

/-- What an adapter calls back while its agent runs. -/
inductive Callback where
  | processStart (agent : Agent)
  | processEnd (agent : Agent)
  | control
  | streamLine (line : StreamLine)

/-- An agent process: what it called back, and how its adapter ended. -/
structure AgentRun (role : Role) where
  callbacks : List Callback
  outcome : Except RunnerError (AgentOutput role × AgentInvocation)

/-- A result that an interrupted agent left complete, with its session and usage. -/
abbrev Recovered (role : Role) := AgentOutput role × Str × Usage

/-- What is asked of git, of GitHub, of the files and of the clock. -/
inductive Question where
  | utcNow
  | ownIdentity
  | processIdentity (pid : Int)
  | remainingSeconds (cap : Option Int)
  | taskForRun
  | gitHubClient
  | createWorktree
  | ensureClaim
  | validateIssue
  | validatePullRequest (headSha : Str)
  | ensurePullRequest (headSha : Str)
  | markInReview
  | markBlocked (reason : Str)
  | waitForCi (headSha : Str)
  | mergedCommitIfExact (expectedHead expectedBase : Str)
  | waitForMainDelivery (commitSha : Str)
  | pushBranch
  | headSha
  | gitStatus
  | validatePartialFiles
  | validateUiWorkerPolicy
  | validateUiPrelaunchWorkspace
  | fixPrompt
  | validateCompletionPath (path : Str)
  | containmentRecorded (path nonce : Str)
  | terminateProcessTree (process : Process)
  | streamLines (name channel : Str)
  | eventsDigest (name : Str)
  | eventsPath (name : Str)
  | resultPath (name : Str)
  | recoverCompletedResult (role : Role) (name : Str)
  | recoverSessionId (name : Str)
  | validateAntigravityContext (name : Str)
  | validateAndCommit (expectedParent : Str) (result : WorkerResult)
  | validateRecoveredCommit (expectedParent : Str) (result : WorkerResult)
  | writeFixRequest (round : Int) (request : List (Str × Json))
  | ownerGateDeadline
  | redactText (text : Str) (limit : Nat)

abbrev Question.Res : Question → Type
  | utcNow | headSha | gitStatus | eventsDigest _ | eventsPath _ | resultPath _
  | mergedCommitIfExact _ _ | waitForMainDelivery _ | validateCompletionPath _
  | redactText _ _ => Str
  | processIdentity _ | recoverSessionId _ => Option Str
  | remainingSeconds _ => Int
  | taskForRun | gitHubClient | createWorktree | ensureClaim | validateIssue
  | validatePullRequest _ | markInReview | markBlocked _ | pushBranch | validatePartialFiles
  | validateUiPrelaunchWorkspace | fixPrompt | validateAntigravityContext _
  | writeFixRequest _ _ => Unit
  | ensurePullRequest _ => Int × Str
  | waitForCi _ => CiGate.Verdict
  | validateUiWorkerPolicy => Option (List (Str × Json))
  | ownIdentity | containmentRecorded _ _ | terminateProcessTree _ => Bool
  | streamLines _ _ => List StreamLine
  | recoverCompletedResult role _ => Option (Recovered role)
  | validateAndCommit _ _ | validateRecoveredCommit _ _ => Str × List Str
  | ownerGateDeadline => Str × Int

inductive ServiceOp where
  | store (op : StoreOp)
  | machine (action : LeaseAction)
  | heartbeat (token : Str)
  | launch (role : Role) (name : Str) (attempt : Int)
  | ask (question : Question)
  /-- The process takes no further step. -/
  | hang

abbrev ServiceOp.Res : ServiceOp → Type
  | store op => op.Res
  | machine action => action.Res
  | heartbeat _ | hang => Unit
  | launch role _ _ => AgentRun role
  | ask question => question.Res

/-- An operation with the process that calls it. -/
abbrev serviceSig : Sig := ⟨Process × ServiceOp, fun op => op.2.Res⟩

abbrev ServiceProg := Prog serviceSig RunnerError

/-! ## Phases -/

def autoMergeBlocker : Str :=
  str "automatic merge is BLOCKED: GitHub's " ++
    str "supported merge precondition binds the head SHA " ++
    str "but not the reviewed base branch atomically"

namespace RunPhase

/-- `TERMINAL_PHASES`. -/
def isTerminal : RunPhase → Bool
  | blocked | completed | readyForOwner | mergePendingConfirmation | stopped => true
  | _ => false

/-- `OWNER_GATE_PHASES`. -/
def isOwnerGate : RunPhase → Bool
  | readyForOwner | mergePendingConfirmation => true
  | _ => false

end RunPhase

/-- `review_decision`. -/
def reviewDecision (result : ReviewResult) (fixRounds maxFixRounds : Int) :
    Except RunnerError (RunPhase × Int) :=
  match result.verdict with
  | .blocked => .error (.runtime (str "reviewer blocked: " ++ join (str "; ") result.blockers))
  | .changesRequested =>
    if maxFixRounds ≤ fixRounds then
      .error (.runtime (str "maximum automatic fix rounds reached"))
    else .ok (.fixRequested, fixRounds + 1)
  | .pass => .ok (.readyForOwner, fixRounds)

/-- `worker-initial`, or `worker-fix-n`. -/
def workerName (fixRounds : Int) : Str :=
  if fixRounds = 0 then str "worker-initial" else str "worker-fix-" ++ intStr fixRounds

def reviewName (fixRounds : Int) : Str := str "review-" ++ intStr fixRounds

def attemptName (name : Str) (attempt : Int) : Str := name ++ str "-attempt-" ++ intStr attempt

/-! ## Processes of the service -/

/-- A process of the service: its run, and the lease that it has taken. -/
structure Service where
  me : Process
  runId : Str
  lease : Option Str

def runtime (message : Str) : RunnerError := .runtime message

/-- `p`, and `final` however it ends. -/
def finally' {α : Type} (p : ServiceProg α) (final : ServiceProg Unit) : ServiceProg α := do
  let r ← p.attempt
  final
  .ofExcept r

def getOrRaise {α : Type} (message : Str) : Option α → ServiceProg α
  | some a => pure a
  | none => .raise (runtime message)

/-- `if c: p`. -/
def whenever (c : Prop) [Decidable c] (p : ServiceProg Unit) : ServiceProg Unit :=
  if c then p else pure ()

/-- A program of the lease, as one of the service. -/
def ofLease {α : Type} : LeaseProg α → ServiceProg α
  | .ret a => .ret a
  | .raise e => .raise (.store e)
  | .call (me, action) k => .call (me, .machine action) fun r => match r with
    | .ok a => ofLease (k (.ok a))
    | .error (.store e) => ofLease (k (.error e))
    | .error e => .raise e

namespace Service

variable (s : Service)

def await (op : ServiceOp) : ServiceProg op.Res := Prog.perform (S := serviceSig) (s.me, op)

def ask (question : Question) : ServiceProg question.Res := s.await (.ask question)

def store (op : StoreOp) : ServiceProg op.Res := s.await (.store op)

def getRun : ServiceProg RunRow := s.await (.machine .getRun)

def updateRun (values : List RunField) : ServiceProg Unit := s.store (.updateRun s.runId values)

def transition (phase : RunPhase) (payload : List (Str × Json)) : ServiceProg Unit :=
  s.store (.transition s.runId phase (.obj payload))

def appendEvent (kind : Str) (payload : List (Str × Json)) : ServiceProg Unit :=
  s.store (.appendEvent s.runId kind (.obj payload))

def reason (text : Str) : List (Str × Json) := [(str "reason", .str text)]

def remainingSeconds (cap : Option Int) : ServiceProg Int := s.ask (.remainingSeconds cap)

/-- `head_sha(worktree)`. -/
def headSha : ServiceProg Str := do
  let _ ← s.remainingSeconds (some 60)
  s.ask .headSha

/-- `git status --porcelain=v1`. -/
def gitStatus : ServiceProg Str := do
  let _ ← s.remainingSeconds (some 60)
  s.ask .gitStatus

/-- The head of the worktree is `expected`. -/
def requireHead (expected message : Str) : ServiceProg Unit := do
  let head ← s.headSha
  Prog.ensure (head = expected) (runtime message)

def requireClean (message : Str) : ServiceProg Unit := do
  let status ← s.gitStatus
  Prog.ensure (status = []) (runtime message)

/-! ### Control -/

/-- `set_desired_state`. -/
def setDesiredState (desired : DesiredState) : ServiceProg Unit := do
  s.updateRun [.desiredState desired]
  s.appendEvent (str "control.requested") [(str "desired_state", .str desired.value)]

def desiredState : ServiceProg DesiredState := do
  let run ← s.getRun
  return run.desiredState

/-- The heartbeat of a process that has a lease. -/
def beat : Option Str → ServiceProg Unit
  | some token => s.await (.heartbeat token)
  | none => pure ()

/-- `_control_state`. -/
def controlState : ServiceProg DesiredState := do
  s.beat s.lease
  s.desiredState

/-- `_checkpoint_control`. -/
def checkpointControl : ServiceProg Unit := do
  let desired ← s.controlState
  Prog.ensure (desired ≠ .paused)
    (.pauseRequested (str "pause requested at safe checkpoint"))
  Prog.ensure (desired ≠ .stopped)
    (.stopRequested (str "stop requested at safe checkpoint"))

/-- The agent of the row is gone and what it started is contained. -/
def clearIdleAgent (run : RunRow) (pid : Int) : ServiceProg Bool :=
  match run.activeAgentIdentity with
  | none => do
    s.appendEvent (str "claim.release_deferred")
      (reason (str "registered launcher has no process identity"))
    return false
  | some identity => do
    let live : Bool ← s.await (.machine (.processMatches (pid, identity)))
    if live = true then do
      s.appendEvent (str "claim.release_deferred") [(str "active_agent_pid", .int pid)]
      return false
    else do
      let confirmed : Bool ← s.await (.machine (.agentContainmentConfirmed run))
      if confirmed = false then do
        s.appendEvent (str "claim.release_deferred")
          (reason (str "launcher containment is not confirmed"))
        return false
      else
        match run.processToken with
        | none => do
          s.appendEvent (str "claim.release_deferred")
            (reason (str "stale agent has no matching " ++ str "runner lease"))
          return false
        | some token => do
          s.await (.machine (.exec (.clearStaleActiveAgent token pid identity)))
          return true

/-- No agent is registered, or the one that is has been cleared. -/
def agentIdle (run : RunRow) : ServiceProg Bool :=
  match run.activeAgentPid with
  | none => pure true
  | some pid => s.clearIdleAgent run pid

/-- `_release_claim_if_agent_idle`. -/
def releaseClaimIfAgentIdle : ServiceProg Bool := do
  let run ← s.getRun
  let idle ← s.agentIdle run
  if idle = true then do
    s.store (.releaseClaim s.runId)
    return true
  else return false

/-- `_stop_run`. -/
def stopRun : ServiceProg Unit := do
  let run ← s.getRun
  if run.phase.isOver = true then pure ()
  else do
    let released ← s.releaseClaimIfAgentIdle
    if released = false then
      s.appendEvent (str "control.stop_deferred") (reason (str "agent alive"))
    else s.transition .stopped []

/-- GitHub is told that the run is blocked. -/
def reportBlocked (safeReason : Str) : ServiceProg Unit := do
  s.ask .taskForRun
  s.ask .gitHubClient
  s.ask (.markBlocked safeReason)

/-- What is noted where GitHub could not be told; only an `Exception` is caught. -/
def noteUnreported : Except RunnerError Unit → ServiceProg Unit
  | .ok _ => pure ()
  | .error e =>
    if e.isException = true then do
      let text ← s.ask (.redactText e.message 1000)
      s.appendEvent (str "github.blocked_status_skipped") (reason text)
    else .raise e

/-- `_block`. -/
def block (text : Str) : ServiceProg Unit := do
  let run ← s.getRun
  if run.phase.isTerminal = true then pure ()
  else do
    let safeReason ← s.ask (.redactText text 4000)
    s.updateRun [.lastError (some safeReason)]
    s.transition .blocked (reason (safeReason.take 1000))
    finally' (do
      let r ← (s.reportBlocked safeReason).attempt
      s.noteUnreported r) (do
        let _ ← s.releaseClaimIfAgentIdle
        pure ())

end Service

end NyanShopBot.Orchestrator
