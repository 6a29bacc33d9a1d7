import NyanShopBot.Orchestrator.RunnerPhases

/-!
# Runner processes

`runLoop` takes a run from phase to phase, `Service.run` is a runner process from its lease
to its exit, and `setControl`, `resumeRun` and `prepareProcessLaunch` are the commands of an
operator. `serviceSystem` lets any number of them work on one run at the same time. The
`World` keeps what happened: the agents that were launched, and the phases that the run was
put in.
-/

namespace NyanShopBot.Orchestrator

open Py Db Conc

namespace Service

variable (s : Service)

/-! ## The loop -/

/-- `CREATED`: the worktree is made and the issue is claimed. -/
def startRun : ServiceProg Unit := do
  let _ ← s.remainingSeconds (some 60)
  s.ask .createWorktree
  s.ask .ensureClaim
  s.transition .claimed []

/-- `WORKER_COMPLETE`: the head is pushed for review. -/
def publishHead (run : RunRow) : ServiceProg Unit := do
  let head := pyStr run.headSha
  s.requireHead head (str "worktree HEAD changed outside the runner")
  let _ ← s.remainingSeconds (some 60)
  s.ask .pushBranch
  let pull ← s.ask (.ensurePullRequest head)
  s.ask .markInReview
  s.updateRun [.prNumber (some pull.1), .prUrl (some pull.2), .reviewedHeadSha none,
    .ciRunId none, .ciUrl none]
  s.transition .ciWaiting []

/-- What CI says of the head takes effect. -/
def applyVerdict : CiGate.Verdict → ServiceProg Unit
  | .failed failure => s.requestCiFix failure
  | .evidence evidence => do
    s.updateRun [.ciRunId (some evidence.runId), .ciUrl (some evidence.runUrl)]
    s.appendEvent (str "ci.passed")
      [(str "head_sha", .str evidence.headSha), (str "url", .str evidence.runUrl)]
    s.transition .reviewRunning []

/-- `CI_WAITING`. -/
def awaitCi (run : RunRow) : ServiceProg Unit := do
  let head := pyStr run.headSha
  s.requireHead head (str "worktree HEAD changed while CI was pending")
  let _ ← s.remainingSeconds none
  let verdict ← s.ask (.waitForCi head)
  s.applyVerdict verdict

/-- The phase of the row that the loop has read. -/
def runPhase (run : RunRow) : ServiceProg Unit :=
  match run.phase with
  | .created => s.startRun
  | .claimed => s.runWorker .claimed
  | .fixRequested => s.runWorker .fixRequested
  | .workerRunning => s.recoverInterruptedWorker
  | .workerComplete => s.publishHead run
  | .ciWaiting => s.awaitCi run
  | .reviewRunning => s.runReview
  | .mergeAuthorized => .raise (runtime autoMergeBlocker)
  | .ownerMerged => s.completeMainDelivery (pyStr run.mergeSha) (pyStr run.headSha)
  | phase => .raise (runtime (str "unsupported resumable phase: " ++ phase.value))

/-- `_run_loop`, for so many iterations; a process that has more to do takes no further
step. -/
def runLoop : Nat → ServiceProg Unit
  | 0 => s.await .hang
  | fuel + 1 => do
    let run ← s.getRun
    if run.phase.isTerminal = true then pure ()
    else do
      s.checkpointControl
      s.ask .taskForRun
      s.ask .gitHubClient
      s.runPhase run
      runLoop fuel

/-- What follows where an agent was paused: whether to go on. -/
def agentPaused (message : Str) : ServiceProg Bool := do
  s.appendEvent (str "process.checkpoint_exit") (reason message)
  let desired ← s.desiredState
  match desired with
  | .running => do
    s.appendEvent (str "control.resume_reconciled")
      [(str "checkpoint", .str (str "active_agent_pause"))]
    return true
  | .stopped => do
    s.stopRun
    return false
  | .paused => return false

/-- The loop, taken up again where an agent was paused while the operator wants it to run. -/
def runAgents : Nat → ServiceProg Unit
  | 0 => s.await .hang
  | fuel + 1 => do
    let r ← (s.runLoop fuel).attempt
    match r with
    | .error (.agentPaused message) => do
      let again ← s.agentPaused message
      if again = true then runAgents fuel else pure ()
    | .error e => .raise e
    | .ok _ => pure ()

/-- What `run` does about how the loop ended. -/
def conclude : Except RunnerError Unit → ServiceProg Unit
  | .ok _ => pure ()
  | .error (.pauseRequested message) =>
    s.appendEvent (str "process.checkpoint_exit") (reason message)
  | .error (.stopRequested message) => do
    s.appendEvent (str "process.checkpoint_exit") (reason message)
    s.stopRun
  | .error (.agentStopped message) => do
    s.appendEvent (str "agent.stop_completed") (reason message)
    s.stopRun
  | .error e =>
    if e.isException = true then do
      s.block e.message
      .raise e
    else .raise e

/-- The lease is given back. -/
def exit (token : Str) : ServiceProg Unit := do
  s.await (.machine (.exec (.releaseProcessLease token)))
  s.appendEvent (str "process.exited") [(str "pid", .int s.me.1)]

/-- A runner that holds the lease of the run. -/
def serve (fuel : Nat) (token : Str) : ServiceProg Unit := do
  s.appendEvent (str "process.started") [(str "pid", .int s.me.1)]
  finally' (do
    let r ← (s.runAgents fuel).attempt
    s.conclude r) (s.exit token)

/-- **`run`**: a runner process. -/
def run (fuel : Nat) : ServiceProg Unit := do
  let token : Str ← s.await (.machine .uuid4)
  let established ← s.ask .ownIdentity
  Prog.ensure (established = true)
    (runtime (str "could not establish the runner process " ++ str "identity"))
  s.await (.machine (.exec (.acquireProcessLease s.me.1 s.me.2 token)))
  serve { s with lease := some token } fuel token

/-! ## Commands -/

def terminalAt (phase : RunPhase) : RunnerError :=
  runtime (str "run is terminal at " ++ phase.value)

/-- `_clear_stale_process_state`. -/
def clearStaleProcessState : ServiceProg Unit :=
  ofLease (Orchestrator.clearStaleProcessState s.me)

/-- `prepare_process_launch`. -/
def prepareProcessLaunch : ServiceProg Unit := do
  let run ← s.getRun
  Prog.ensure (run.phase.isTerminal = false) (terminalAt run.phase)
  s.clearStaleProcessState

/-- Whether the runner of the row is there. -/
def controllerLive (run : RunRow) : ServiceProg Bool :=
  match run.pid, run.processIdentity with
  | some pid, some identity => s.await (.machine (.processMatches (pid, identity)))
  | _, _ => pure false

/-- Kill the agent of the row, and what it started. -/
def terminateAgent (process : Process) : ServiceProg Unit := do
  s.appendEvent (str "agent.process_tree_termination_requested") [(str "pid", .int process.1)]
  let terminated ← s.ask (.terminateProcessTree process)
  Prog.ensure (terminated = true)
    (runtime (str "registered agent process tree " ++ intStr process.1 ++
      str " could not be terminated"))
  let run ← s.getRun
  let confirmed : Bool ← s.await (.machine (.agentContainmentConfirmed run))
  Prog.ensure (confirmed = true)
    (runtime (str "registered agent process tree lacks " ++ str "containment acknowledgement"))

/-- `_stop_orphan_process`. -/
def stopOrphanProcess : ServiceProg Unit := do
  let run ← s.getRun
  match run.activeAgentPid, run.activeAgentIdentity with
  | none, _ => pure ()
  | some _, none => .raise (runtime (str "registered agent PID has no creation " ++
      str "identity; refusing to kill it"))
  | some pid, some identity => do
    let live : Bool ← s.await (.machine (.processMatches (pid, identity)))
    whenever (live = true) (s.terminateAgent (pid, identity))

/-- `set_control`. -/
def setControl (desired : DesiredState) : ServiceProg Unit := do
  let run ← s.getRun
  if run.phase.isOwnerGate = true ∧ desired = .stopped then do
    s.setDesiredState desired
    s.stopRun
  else if run.phase = .blocked ∧ desired = .stopped then do
    s.setDesiredState desired
    s.stopOrphanProcess
    let _ ← s.releaseClaimIfAgentIdle
    let refreshed ← s.getRun
    let live ← s.controllerLive refreshed
    whenever (live = false) s.clearStaleProcessState
  else do
    Prog.ensure (run.phase.isTerminal = false) (terminalAt run.phase)
    s.setDesiredState desired
    let live ← s.controllerLive run
    whenever (desired ≠ .running ∧ live = false) (do
      s.stopOrphanProcess
      s.prepareProcessLaunch
      whenever (desired = .stopped) s.stopRun)

/-- What CI says now of the head of a run that is blocked takes effect. -/
def reconcileCi (head : Str) : CiGate.Verdict → ServiceProg Unit
  | .failed failure => s.requestCiFix failure
  | .evidence evidence => do
    s.ask .markInReview
    s.checkpointControl
    s.store (.recoverBlockedCiPass s.runId head evidence.runId evidence.runUrl)

/-- `_resume_ci_failed_run`. -/
def resumeCiFailedRun (run : RunRow) : ServiceProg Unit := do
  Prog.ensure (run.lastError.any (str "required CI failed for ").isPrefixOf = true)
    (terminalAt run.phase)
  Prog.ensure (run.headSha ≠ none ∧ run.prNumber ≠ none ∧ run.prUrl ≠ none ∧
      run.workerSessionId ≠ none)
    (runtime (str "CI-blocked run lacks its exact HEAD, " ++ str "PR, or writer session"))
  let head := pyStr run.headSha
  s.requireHead head (str "CI-blocked worktree no longer matches " ++ str "its exact HEAD")
  s.requireClean (str "CI-blocked worktree is not clean")
  s.ask .gitHubClient
  s.ask .validateIssue
  s.ask (.validatePullRequest head)
  let _ ← s.remainingSeconds (some 60)
  let verdict ← s.ask (.waitForCi head)
  s.checkpointControl
  s.ask .ensureClaim
  s.checkpointControl
  s.reconcileCi head verdict

/-- `_renew_owner_gate_deadline`. -/
def renewOwnerGateDeadline : ServiceProg Unit := do
  let deadline ← s.ask .ownerGateDeadline
  s.appendEvent (str "owner_gate.deadline_renewed")
    [(str "deadline_at", .str deadline.1), (str "window_seconds", .int deadline.2)]

/-- The owner has merged the run that was ready for it. -/
def reconcileMerge (run : RunRow) : ServiceProg Unit := do
  Prog.ensure (run.prNumber ≠ none ∧ run.headSha ≠ none)
    (runtime (str "owner-ready run is missing its PR or " ++ str "exact HEAD"))
  Prog.ensure (run.reviewedHeadSha = run.headSha)
    (runtime (str "owner-ready run no longer has exact-SHA " ++ str "reviewer PASS evidence"))
  s.renewOwnerGateDeadline
  s.ask .gitHubClient
  let mergeSha ← s.ask (.mergedCommitIfExact (pyStr run.headSha) run.task.prBase)
  s.updateRun [.desiredState .running, .mergeSha (some mergeSha)]
  s.transition .ownerMerged
    [(str "merge_sha", .str mergeSha), (str "owner_merge_reconciled", .bool true)]

/-- `resume_run`. -/
def resumeRun : ServiceProg Unit := do
  let run ← s.getRun
  s.ask .taskForRun
  match run.phase with
  | .mergePendingConfirmation => .raise (runtime autoMergeBlocker)
  | .readyForOwner => s.reconcileMerge run
  | .blocked => s.resumeCiFailedRun run
  | .completed => .raise (terminalAt .completed)
  | .stopped => .raise (terminalAt .stopped)
  | _ => s.setDesiredState .running

end Service

/-! ## The world -/

/-- The token of the lease, with the process that it is registered for. -/
def RunRow.holder (r : RunRow) : Option (Str × Process) :=
  r.processToken.bind fun token => r.pid.bind fun pid => r.processIdentity.map fun identity =>
    (token, (pid, identity))

/-- An agent that a process has launched, with who held the lease and what the role had
spent by then. -/
structure Launch where
  me : Process
  holder : Option (Str × Process)
  role : Role
  attempt : Int
  spent : Option Int
  /-- A usage row of the run was without enforceable tokens. -/
  unaccounted : Bool

/-- The machine, and what has happened on the run. -/
structure World where
  machine : Machine
  launched : List Launch
  phases : List RunPhase

/-- The phase that an assignment puts the run in. -/
def RunField.phase? : RunField → Option RunPhase
  | .phase p => some p
  | _ => none

/-- The phases that a transaction put the run in. -/
def StoreOp.phases : (op : StoreOp) → Except StoreError op.Res → List RunPhase
  | .transition _ phase _, .ok _ => [phase]
  | .updateRun _ values, .ok _ => values.filterMap RunField.phase?
  | .recordCiFixRequest _, .ok _ => [.fixRequested]
  | .recoverBlockedCiPass _ _ _ _, .ok _ => [.reviewRunning]
  | _, _ => []

def ofStore {α : Type} : Except StoreError α → Except RunnerError α
  | .ok a => .ok a
  | .error e => .error (.store e)

def Tables.unaccounted (t : Tables) (runId : Str) : Bool :=
  t.invocationUsage.any fun r => r.runId = runId && r.enforceableTokens.isNone

namespace World

variable (w : World) (runId : Str)

def tables : Tables := w.machine.store.1

def row : Option RunRow := w.tables.run? runId

def launch (me : Process) (role : Role) (attempt : Int) : Launch where
  me := me
  holder := (w.row runId).bind RunRow.holder
  role := role
  attempt := attempt
  spent := (w.row runId).bind (·.enforceableTokens role)
  unaccounted := w.tables.unaccounted runId

end World

section effect

variable [UnicodeData]

/-- CI is what the gate makes of any answers of GitHub; all else is outside. -/
def Question.Admits : (q : Question) → Except RunnerError q.Res → Prop
  | .waitForCi head, .ok verdict => ∃ fuel task timeout reads,
    Exec CiGate.ciEffect [] (CiGate.waitForCi fuel task head timeout) reads
      (.ret (some verdict))
  | _, _ => True

/-- What a call of a live process does. -/
inductive ServiceEffect (runId : Str) (w : World) :
    (op : Process × ServiceOp) → Except RunnerError op.2.Res → World → Prop
  | store {me : Process} {dead : List Process} (op : StoreOp) : Ages me w.machine.dead dead →
      ServiceEffect runId w (me, .store op) (ofStore (op.exec w.machine.store).1)
        ⟨⟨(op.exec w.machine.store).2, dead, w.machine.used⟩, w.launched,
          w.phases ++ op.phases (op.exec w.machine.store).1⟩
  | machine {me : Process} {action : LeaseAction} {r : Except StoreError action.Res}
      {m : Machine} : LeaseEffect runId w.machine (me, action) r m →
      ServiceEffect runId w (me, .machine action) (ofStore r) ⟨m, w.launched, w.phases⟩
  | heartbeat {me : Process} {dead : List Process} {token : Str} : Ages me w.machine.dead dead →
      (w.row runId).bind (·.processToken) = some token →
      ServiceEffect runId w (me, .heartbeat token) (.ok ())
        ⟨⟨w.machine.store, dead, w.machine.used⟩, w.launched, w.phases⟩
  | heartbeatLost {me : Process} {dead : List Process} {token : Str} :
      Ages me w.machine.dead dead → (w.row runId).bind (·.processToken) ≠ some token →
      ServiceEffect runId w (me, .heartbeat token)
        (.error (.store (.runtimeError (str "runner process lease was lost"))))
        ⟨⟨w.machine.store, dead, w.machine.used⟩, w.launched, w.phases⟩
  | launch {me : Process} {dead : List Process} {role : Role} {name : Str} {attempt : Int}
      (agent : AgentRun role) : Ages me w.machine.dead dead →
      ServiceEffect runId w (me, .launch role name attempt) (.ok agent)
        ⟨⟨w.machine.store, dead, w.machine.used⟩, w.launched ++ [w.launch runId me role attempt],
          w.phases⟩
  | ask {me : Process} {dead : List Process} {q : Question} {r : Except RunnerError q.Res} :
      Ages me w.machine.dead dead → q.Admits r →
      ServiceEffect runId w (me, .ask q) r
        ⟨⟨w.machine.store, dead, w.machine.used⟩, w.launched, w.phases⟩

end effect

/-! ## The system -/

inductive ServiceCall where
  | run (fuel : Nat)
  | setControl (desired : DesiredState)
  | resumeRun
  | prepareProcessLaunch

/-- A call with the process that makes it. -/
structure Command where
  me : Process
  call : ServiceCall

def Command.body (runId : Str) (c : Command) : ServiceProg Unit :=
  let s : Service := ⟨c.me, runId, none⟩
  match c.call with
  | .run fuel => s.run fuel
  | .setControl desired => s.setControl desired
  | .resumeRun => s.resumeRun
  | .prepareProcessLaunch => s.prepareProcessLaunch

/-- **The processes that work on a run.** -/
abbrev serviceSystem [UnicodeData] (runId : Str) : System serviceSig RunnerError where
  Store := World
  Call := Command
  Out := Unit
  body := Command.body runId
  eff := ServiceEffect runId

end NyanShopBot.Orchestrator
