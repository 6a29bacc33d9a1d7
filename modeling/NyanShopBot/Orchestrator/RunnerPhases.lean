import NyanShopBot.Orchestrator.RunnerService

/-!
# The phases of a run

What a runner does in each phase: it launches a writer or takes up one that was
interrupted (`runWorker`, `recoverInterruptedWorker`), has the head reviewed (`runReview`,
`finishReview`), sends a failure of CI back to the writer (`requestCiFix`) and follows a
merge to its delivery (`completeMainDelivery`). An agent is accounted once it has ended.
-/

namespace NyanShopBot.Orchestrator

open Py Db Conc

/-- `str(run.get("head_sha") or run["base_sha"])`. -/
def RunRow.commitSha (r : RunRow) : Str := (r.headSha.filter (· ≠ [])).getD r.baseSha

/-- The session that a writer resumes. -/
def RunRow.resumeSession (r : RunRow) : Option Str := r.workerSessionId.filter (· ≠ [])

/-- The adapter that a role runs on. -/
def TaskSpec.adapter (task : TaskSpec) : Role → WorkerKind
  | .worker => task.worker
  | .reviewer => .codex

/-- An invocation: its role, the name of its files, and the name of its activity. -/
structure Invocation where
  role : Role
  name : Str
  activity : Str

def Invocation.attempt (role : Role) (name : Str) (attempt : Int) : Invocation :=
  ⟨role, name, attemptName name attempt⟩

/-- The payload of `agent.activity`; the members of the line come last. -/
def activityPayload (run : RunRow) (invocation : Invocation) (commitSha : Str)
    (line : StreamLine) (normalized : List (Str × Json)) : List (Str × Json) :=
  ofItems ([
    (str "adapter", .str (run.task.adapter invocation.role).value),
    (str "branch", .str run.task.branch),
    (str "commit", .str commitSha),
    (str "invocation", .str invocation.activity),
    (str "issue", .int run.task.issueNumber),
    (str "role", .str invocation.role.value),
    (str "stream_channel", .str line.channel),
    (str "stream_sequence", .int line.sequence),
    (str "task_id", .str run.task.taskId),
    (str "worktree", .str run.worktreePath)] ++ normalized)

/-- The session of a payload, if that is a text. -/
def payloadSession (payload : List (Str × Json)) : Option Str :=
  match Json.get payload (str "session_id") with
  | .str session => some session
  | _ => none

/-- The place of a line among the activity of a run. -/
def streamKey (invocation : Invocation) (line : StreamLine) : Str :=
  invocation.role.value ++ str ":" ++ invocation.activity ++ str ":" ++ line.channel ++ str ":" ++
    intStr line.sequence

namespace Service

variable (s : Service)

/-! ## Activity -/

/-- `_record_activity_line`. -/
def recordActivityLine (run : RunRow) (invocation : Invocation) (commitSha : Str)
    (line : StreamLine) : ServiceProg Bool :=
  match line.normalized with
  | none => pure false
  | some normalized =>
    let payload := activityPayload run invocation commitSha line normalized
    s.store (.appendActivityEvent s.runId (.obj payload) (streamKey invocation line)
      ((payloadSession payload).map fun session => (invocation.role, session)))

def recordLines (run : RunRow) (invocation : Invocation) (commitSha : Str) :
    List StreamLine → ServiceProg Unit
  | [] => pure ()
  | line :: lines => do
    let _ ← s.recordActivityLine run invocation commitSha line
    recordLines run invocation commitSha lines

/-- `_replay_invocation_activity`. -/
def replayInvocationActivity (invocation : Invocation) : ServiceProg Unit := do
  let run ← s.getRun
  let stdout ← s.ask (.streamLines invocation.name (str "stdout"))
  s.recordLines run invocation run.commitSha stdout
  let stderr ← s.ask (.streamLines invocation.name (str "stderr"))
  s.recordLines run invocation run.commitSha stderr

/-! ## Agents -/

/-- `_agent_started`. -/
def agentStarted (agent : Agent) : ServiceProg Unit := do
  let token ← getOrRaise (str "agent process started without a runner lease") s.lease
  let identity ← s.ask (.processIdentity agent.pid)
  Prog.ensure (identity = some agent.identity)
    (runtime (str "registered launcher identity changed " ++ str "before persistence"))
  let path ← s.ask (.validateCompletionPath agent.completionPath)
  s.await (.machine (.exec (.setActiveAgent token { agent with completionPath := path })))

/-- `_agent_finished`. -/
def agentFinished (agent : Agent) : ServiceProg Unit := do
  let token ← getOrRaise (str "agent process finished without a runner lease") s.lease
  let run ← s.getRun
  let stored ← getOrRaise (str "registered launcher has no process identity")
    run.activeAgentIdentity
  Prog.ensure (stored = agent.identity)
    (runtime (str "launcher completion identity did not " ++ str "match registration"))
  let path ← s.ask (.validateCompletionPath agent.completionPath)
  Prog.ensure (run.activeAgentCompletionPath = some path)
    (runtime (str "launcher containment acknowledgement " ++ str "path changed"))
  Prog.ensure (run.activeAgentNonce = some agent.nonce)
    (runtime (str "launcher containment nonce changed"))
  let contained ← s.ask (.containmentRecorded path agent.nonce)
  Prog.ensure (contained = true)
    (runtime (str "launcher descendants were not durably " ++ str "contained"))
  s.await (.machine (.exec (.clearActiveAgent token agent.pid stored)))

def callback (run : RunRow) (invocation : Invocation) (commitSha : Str) :
    Callback → ServiceProg Unit
  | .processStart agent => s.agentStarted agent
  | .processEnd agent => s.agentFinished agent
  | .control => do
    let _ ← s.controlState
    pure ()
  | .streamLine line => do
    let _ ← s.recordActivityLine run invocation commitSha line
    pure ()

/-- What an adapter does about a callback that raised is in how it went on and ended. -/
def callbacks (run : RunRow) (invocation : Invocation) (commitSha : Str) :
    List Callback → ServiceProg Unit
  | [] => pure ()
  | c :: rest => do
    let _ ← (s.callback run invocation commitSha c).attempt
    callbacks run invocation commitSha rest

/-- Run an agent through its adapter. -/
def launch (run : RunRow) (role : Role) (name : Str) (attempt : Int) :
    ServiceProg (AgentOutput role × AgentInvocation) := do
  let current ← s.getRun
  let agent : AgentRun role ← s.await (.launch role name attempt)
  s.callbacks run (.attempt role name attempt) current.commitSha agent.callbacks
  .ofExcept agent.outcome

/-! ## Budget and usage -/

/-- `_check_budget`. -/
def checkBudget (run : RunRow) (role : Role) : ServiceProg Unit := do
  Prog.ensure (run.agentInvocations < run.task.budget.maxAgentInvocations)
    (runtime (str "maximum agent invocations reached"))
  let unenforceable : Bool ← s.store (.hasUnenforceableUsage s.runId)
  Prog.ensure (unenforceable = false)
    (runtime (str "prior invocation usage cannot be " ++ str "normalized for enforcement"))
  let total ← getOrRaise (str "run predates role-isolated usage " ++
    str "accounting and cannot be resumed") (run.enforceableTokens role)
  Prog.ensure (total < run.task.budget.tokenCeiling role)
    (runtime (role.value ++ str " token ceiling reached"))
  let _ ← s.remainingSeconds none

/-- The provider of the agent counts over all of its session. -/
def cumulative (run : RunRow) (role : Role) : Bool :=
  role = .worker && run.task.worker = .antigravity

/-- The arguments of `record_invocation_usage`. -/
def usageCall (run : RunRow) (invocation : Invocation) (session : Str) (usage : Usage)
    (digest : Str) : UsageCall where
  runId := s.runId
  invocationId := invocation.activity
  role := invocation.role.value
  sessionId := session
  terminalEventsSha256 := digest
  accounting :=
    if cumulative run invocation.role then usage.normalizeCumulativeProvider
    else usage.normalizeCodex
  cumulativeProviderTotal := cumulative run invocation.role && usage.rawProviderTotal.isSome

/-- `_account_invocation`. -/
def accountInvocation (run : RunRow) (invocation : Invocation) (session : Str) (usage : Usage) :
    ServiceProg UsageRecord := do
  let digest ← s.ask (.eventsDigest invocation.name)
  let now ← s.ask .utcNow
  let record : UsageRecord ← s.store
    (.recordInvocationUsage (s.usageCall run invocation session usage digest) now)
  Prog.ensure (∀ total ∈ record.roleEnforceableTotal,
      total ≤ run.task.budget.tokenCeiling invocation.role)
    (runtime (invocation.role.value ++ str " exceeded its token ceiling"))
  return record

/-- The stream of an agent that has ended, and its usage. -/
def accountAgent (run : RunRow) (invocation : Invocation) (agent : AgentInvocation) :
    ServiceProg UsageRecord := do
  s.replayInvocationActivity invocation
  whenever (agent.activityDropped ≠ 0 ∨ agent.activityErrors ≠ 0 ∨
      agent.activityCleanShutdown = false)
    (s.appendEvent (str "visibility.live_degraded") [
      (str "role", .str invocation.role.value),
      (str "invocation", .str invocation.activity),
      (str "delivered", .int agent.activityDelivered),
      (str "dropped", .int agent.activityDropped),
      (str "errors", .int agent.activityErrors),
      (str "catch_up", .str (str "complete"))])
  s.accountInvocation run invocation agent.sessionId agent.usage

/-! ## The writer -/

/-- `_validate_ui_worker_policy`. -/
def validateUiWorkerPolicy : ServiceProg Unit := do
  let verified ← s.ask .validateUiWorkerPolicy
  match verified with
  | none => pure ()
  | some payload => do
    s.appendEvent (str "ui.impeccable_verified") payload
    s.ask .validateUiPrelaunchWorkspace

/-- What `_run_worker` checks before it launches: the head that the writer starts from. -/
def prepareWorker (run : RunRow) (phase : RunPhase) : ServiceProg Str := do
  s.checkBudget run .worker
  let parent ← s.headSha
  Prog.ensure (∀ persisted ∈ run.workerParentSha, persisted = parent)
    (runtime (str "interrupted worker parent no longer " ++ str "matches worktree HEAD"))
  Prog.ensure (phase = .claimed → parent = run.baseSha)
    (runtime (str "CLAIMED worktree no longer matches " ++ str "its frozen base HEAD"))
  whenever (phase = .claimed ∧ run.workerParentSha = none)
    (s.requireClean (str "worker worktree is not clean without " ++
      str "an interrupted-parent marker"))
  whenever (run.workerParentSha ≠ none) (s.ask .validatePartialFiles)
  Prog.ensure (phase = .fixRequested → parent = pyStr run.headSha)
    (runtime (str "fix worktree no longer matches the " ++ str "failed/reviewed HEAD"))
  whenever (phase = .fixRequested ∧ run.workerParentSha = none)
    (s.requireClean (str "fix worktree is not clean before " ++ str "writer resume"))
  s.validateUiWorkerPolicy
  return parent

/-- The name of the writer's files; a fix needs its session and its prompt. -/
def writerName (run : RunRow) (phase : RunPhase) : ServiceProg Str :=
  if phase = .claimed then pure (str "worker-initial")
  else do
    let _ ← getOrRaise (str "fix loop has no worker session to resume") run.resumeSession
    s.ask .fixPrompt
    return str "worker-fix-" ++ intStr run.fixRounds

/-- The writer's work is committed. -/
def completeWorker (head : Str) (payload : List (Str × Json)) : ServiceProg Unit := do
  s.updateRun [.headSha (some head), .reviewedHeadSha none]
  s.transition .workerComplete payload
  s.updateRun [.workerParentSha none]

def filesJson (files : List Str) : Json := .arr (files.map .str)

def workerBlocked (result : WorkerResult) : RunnerError :=
  runtime (str "worker blocked: " ++ join (str "; ") result.blockers)

/-- The part of `_run_worker` after its agent. -/
def finishWorker (run : RunRow) (parent : Str) (invocation : Invocation) (result : WorkerResult)
    (agent : AgentInvocation) : ServiceProg Unit := do
  let record ← s.accountAgent run invocation agent
  s.appendEvent (str "worker.result") [
    (str "session_id", .str agent.sessionId),
    (str "status", .str result.status.value),
    (str "normalization_state", .str record.row.normalizationState.value),
    (str "enforceable_tokens", Json.ofInt record.row.enforceableTokens),
    (str "result_path", .str agent.resultPath)]
  let _ ← s.remainingSeconds none
  Prog.ensure (result.status ≠ .blocked) (workerBlocked result)
  let _ ← s.remainingSeconds (some 60)
  let commit ← s.ask (.validateAndCommit parent result)
  s.completeWorker commit.1 [
    (str "head_sha", .str commit.1),
    (str "worker_observed_head", .str result.headSha),
    (str "changed_files", filesJson commit.2)]

/-- `_run_worker`. -/
def runWorker (phase : RunPhase) : ServiceProg Unit := do
  let run ← s.getRun
  let parent ← s.prepareWorker run phase
  let attempt := run.agentInvocations + 1
  let name ← s.writerName run phase
  let _ ← s.remainingSeconds (some 1800)
  s.updateRun [.agentInvocations attempt, .workerParentSha (some parent)]
  s.transition .workerRunning [
    (str "invocation", .int attempt),
    (str "resume", .bool run.resumeSession.isSome)]
  let out ← s.launch run .worker name attempt
  s.finishWorker run parent (.attempt .worker name attempt) out.1 out.2

/-! ## Interrupted writers -/

/-- `_require_expected_worker_session`. -/
def requireExpectedWorkerSession (run : RunRow) (session : Str) : ServiceProg Unit :=
  Prog.ensure (∀ expected ∈ run.workerSessionId, expected = session)
    (runtime (str "recovered worker session does not " ++ str "match the persisted session"))

/-- Go back to the phase that launched the writer, with the session that it can resume. -/
def reopenWorker (run : RunRow) (parent name : Str) (unfinished : Bool) : ServiceProg Unit := do
  let session ← s.ask (.recoverSessionId name)
  whenever (unfinished = true ∧ session ≠ none ∧ run.task.worker = .antigravity)
    (s.ask (.validateAntigravityContext name))
  Prog.ensure (∀ recovered ∈ session, ∀ expected ∈ run.workerSessionId, expected = recovered)
    (runtime (str "recovered worker session does not " ++ str "match the persisted session"))
  let resumable := run.resumeSession <|> session
  whenever (resumable ≠ none) (s.updateRun [.workerSessionId resumable])
  let events ← s.ask (.eventsPath name)
  s.transition (if run.fixRounds = 0 then .claimed else .fixRequested) [
    (str "recovered_session", Json.ofText resumable),
    (str "interrupted_events", .str events)]
  s.updateRun [.workerParentSha (some parent)]

/-- The result of the writer is committed, unless the worktree is not as it left it. -/
def commitRecovered (run : RunRow) (parent name : Str) (result : WorkerResult) :
    ServiceProg Unit := do
  Prog.ensure (result.status ≠ .blocked) (workerBlocked result)
  let r ← Prog.attempt do
    let _ ← s.remainingSeconds (some 60)
    s.ask (.validateAndCommit parent result)
  match r with
  | .ok commit =>
    s.completeWorker commit.1 [
      (str "head_sha", .str commit.1),
      (str "changed_files", filesJson commit.2),
      (str "recovered_uncommitted_result", .bool true)]
  | .error e =>
    if e.isRuntime = true then do
      let head ← s.headSha
      Prog.ensure (head = parent) e
      s.reopenWorker run parent name false
    else .raise e

/-- The writer has moved the head, which its result must account for. -/
def adoptCommit (run : RunRow) (parent : Str) (invocation : Invocation) :
    Option (Recovered .worker) → ServiceProg Unit
  | none => .raise (runtime (str "worker history advanced without " ++ str "a durable result"))
  | some (result, session, usage) => do
    requireExpectedWorkerSession run session
    let _ ← s.accountInvocation run invocation session usage
    let _ ← s.remainingSeconds (some 60)
    let commit ← s.ask (.validateRecoveredCommit parent result)
    s.completeWorker commit.1 [
      (str "head_sha", .str commit.1),
      (str "changed_files", filesJson commit.2),
      (str "recovered_commit", .bool true)]

/-- The head is where the writer started. -/
def takeUpWorker (run : RunRow) (parent : Str) (invocation : Invocation) :
    Option (Recovered .worker) → ServiceProg Unit
  | none => s.reopenWorker run parent invocation.name true
  | some (result, session, usage) => do
    requireExpectedWorkerSession run session
    let _ ← s.accountInvocation run invocation session usage
    s.commitRecovered run parent invocation.name result

/-- `_recover_interrupted_worker`. -/
def recoverInterruptedWorker : ServiceProg Unit := do
  let run ← s.getRun
  let parent ← getOrRaise (str "interrupted worker has no persisted " ++ str "expected parent")
    run.workerParentSha
  let invocation := Invocation.attempt .worker (workerName run.fixRounds) run.agentInvocations
  let _ ← s.remainingSeconds (some 60)
  s.replayInvocationActivity invocation
  let head ← s.ask .headSha
  let recovered ← s.ask (.recoverCompletedResult .worker invocation.name)
  whenever (recovered.isSome = true ∧ run.task.worker = .antigravity)
    (s.ask (.validateAntigravityContext invocation.name))
  if head = parent then s.takeUpWorker run parent invocation recovered
  else s.adoptCommit run parent invocation recovered

/-! ## The reviewer -/

/-- The decision on a review takes effect. -/
def applyDecision (run : RunRow) (head : Str) (result : ReviewResult) :
    RunPhase × Int → ServiceProg Unit := fun decision =>
  if decision.1 = .fixRequested then do
    s.updateRun [.fixRounds decision.2]
    s.transition .fixRequested [
      (str "reviewed_head_sha", .str head),
      (str "findings", .int result.findings)]
    s.updateRun [.reviewStartedHeadSha none]
  else do
    s.transition .readyForOwner [
      (str "head_sha", .str head),
      (str "automatic_merge", .str
        (if run.task.autoMergeEligible then str "BLOCKED" else str "NOT_REQUESTED"))]
    whenever (run.task.autoMergeEligible = true)
      (s.appendEvent (str "merge.automatic_blocked") (reason autoMergeBlocker))
    s.updateRun [.reviewStartedHeadSha none]

/-- `require_exact_review_head`. -/
def requireExactReviewHead (result : ReviewResult) (expectedHead actualHead : Str) :
    ServiceProg Unit :=
  Prog.ensure (result.reviewedHeadSha = expectedHead ∧ actualHead = expectedHead)
    (runtime (str "review result is not bound to the " ++ str "current exact HEAD"))

/-- The payload of `review.result`. -/
def reviewPayload (result : ReviewResult) (session path : Str) (recovered : Bool) :
    List (Str × Json) := [
  (str "session_id", .str session),
  (str "verdict", .str result.verdict.value),
  (str "reviewed_head_sha", .str result.reviewedHeadSha),
  (str "result_path", .str path),
  (str "recovered", .bool recovered)]

/-- `_finish_review`. -/
def finishReview (run : RunRow) (head : Str) (result : Review) (session path : Str)
    (recovered : Bool) : ServiceProg Unit := do
  let _ ← s.remainingSeconds none
  let actual ← s.headSha
  requireExactReviewHead result.toReviewResult head actual
  s.requireClean (str "read-only reviewer changed the worktree")
  s.updateRun [.reviewedHeadSha (some result.reviewedHeadSha)]
  s.appendEvent (str "review.result")
    (reviewPayload result.toReviewResult session path recovered)
  let decision ← .ofExcept
    (reviewDecision result.toReviewResult run.fixRounds run.task.budget.maxFixRounds)
  s.applyDecision run head result.toReviewResult decision

/-- A result that an interrupted reviewer left for the head. -/
def recoverReview (run : RunRow) (invocation : Invocation) (head : Str) :
    ServiceProg (Option (Recovered .reviewer)) :=
  if run.reviewStartedHeadSha = some head then do
    s.replayInvocationActivity invocation
    s.ask (.recoverCompletedResult .reviewer invocation.name)
  else pure none

/-- Launch a reviewer. -/
def launchReview (run : RunRow) (name head : Str) : ServiceProg Unit := do
  whenever (run.reviewStartedHeadSha = some head) (s.updateRun [.reviewStartedHeadSha none])
  let current ← s.getRun
  s.checkBudget current .reviewer
  let current ← s.getRun
  let attempt := current.agentInvocations + 1
  let _ ← s.remainingSeconds (some 1800)
  s.updateRun [.agentInvocations attempt, .reviewStartedHeadSha (some head)]
  let out ← s.launch run .reviewer name attempt
  let _ ← s.accountAgent run (.attempt .reviewer name attempt) out.2
  s.finishReview run head out.1 out.2.sessionId out.2.resultPath false

/-- `_run_review`. -/
def runReview : ServiceProg Unit := do
  let run ← s.getRun
  let head := pyStr run.headSha
  s.requireHead head (str "review target HEAD is stale")
  s.requireClean (str "review target worktree is not clean")
  let name := reviewName run.fixRounds
  let invocation := Invocation.attempt .reviewer name run.agentInvocations
  let recovered ← s.recoverReview run invocation head
  match recovered with
  | some (result, session, usage) => do
    let _ ← s.accountInvocation run invocation session usage
    let path ← s.ask (.resultPath name)
    s.finishReview run head result session path true
  | none => s.launchReview run name head

/-! ## CI and delivery -/

/-- What the writer is told of a failure of CI. -/
def ciRequest (failure : CiGate.CiFailed) (round : Int) : List (Str × Json) := [
  (str "kind", .str (str "ci_failure")),
  (str "fix_round", .int round),
  (str "head_sha", .str failure.headSha),
  (str "run_id", .int failure.runId),
  (str "run_url", .str failure.runUrl),
  (str "failed_required_checks", .arr (failure.failedChecks.map .str)),
  (str "failed_jobs", .arr (failure.failedJobs.map .str))] ++
    ((failure.diagnosticExcerpt.filter (· ≠ [])).map fun excerpt =>
      (str "diagnostic_excerpt", .str excerpt)).toList

/-- The arguments of `record_ci_fix_request`. -/
def ciFixCall (run : RunRow) (failure : CiGate.CiFailed) : CiFixCall where
  runId := s.runId
  expectedPhase := run.phase
  expectedHead := failure.headSha
  expectedFixRounds := run.fixRounds
  nextFixRound := run.fixRounds + 1
  ciRunId := failure.runId
  ciUrl := failure.runUrl
  request := ciRequest failure (run.fixRounds + 1)

/-- A request that was refused since the operator wants a pause or a stop. -/
def preferControl : Except RunnerError Unit → ServiceProg Unit
  | .ok _ => pure ()
  | .error e =>
    if e.isRuntime = true then do
      s.checkpointControl
      .raise e
    else .raise e

/-- `_request_ci_fix`. -/
def requestCiFix (failure : CiGate.CiFailed) : ServiceProg Unit := do
  let run ← s.getRun
  Prog.ensure (failure.headSha = pyStr run.headSha)
    (runtime (str "CI failure evidence targets a stale HEAD"))
  Prog.ensure (run.phase = .ciWaiting ∨ run.phase = .blocked)
    (runtime (str "CI failure arrived outside an " ++ str "allowed checkpoint"))
  s.requireHead failure.headSha
    (str "worktree HEAD changed while CI failure " ++ str "was handed off")
  s.requireClean (str "worktree changed while CI failure was " ++ str "handed off")
  Prog.ensure (run.fixRounds < run.task.budget.maxFixRounds)
    (runtime (str "maximum automatic fix rounds reached " ++ str "after CI failure"))
  s.ask (.writeFixRequest (run.fixRounds + 1) (ciRequest failure (run.fixRounds + 1)))
  let r ← (s.store (.recordCiFixRequest (s.ciFixCall run failure))).attempt
  s.preferControl r

/-- Wait for the delivery of a merge to `main`. -/
def mainDelivery (run : RunRow) (mergeSha : Str) : ServiceProg (Option Str) :=
  if run.task.prBase = str "main" then do
    let _ ← s.remainingSeconds none
    let url ← s.ask (.waitForMainDelivery mergeSha)
    s.appendEvent (str "main.delivery.passed")
      [(str "merge_sha", .str mergeSha), (str "url", .str url)]
    return some url
  else pure none

/-- `_complete_main_delivery`; the next run is not launched, since no owner has authorized
it (`owner_authorized`). -/
def completeMainDelivery (mergeSha currentHead : Str) : ServiceProg Unit := do
  let run ← s.getRun
  Prog.ensure (run.reviewedHeadSha = some currentHead)
    (runtime (str "merged target is not the independently " ++ str "reviewed exact HEAD"))
  let url ← s.mainDelivery run mergeSha
  s.transition .completed [
    (str "auto_merge_queued", .bool false),
    (str "head_sha", .str currentHead),
    (str "merge_sha", .str mergeSha),
    (str "delivery_url", Json.ofText url)]
  let released ← s.releaseClaimIfAgentIdle
  Prog.ensure (released = true)
    (runtime (str "completed run still has a live " ++ str "registered agent process"))

end Service

end NyanShopBot.Orchestrator
