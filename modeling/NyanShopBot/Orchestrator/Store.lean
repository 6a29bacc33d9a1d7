import NyanShopBot.Db.Table
import NyanShopBot.Orchestrator.Models

/-!
# The state store of the orchestrator

The SQLite tables of `StateStore` with their constraints, and its operations:
`StoreOp.exec` runs one as a transaction. The columns of times are left out but
the one that `recordInvocationUsage` returns; the columns of a run that repeat
its task are read from the task. An event keeps the value its payload is the
text of.
-/

namespace NyanShopBot.Orchestrator

open Py Db

inductive StoreError where
  | valueError (message : Str)
  | runtimeError (message : Str)
  | keyError (message : Str)
  | integrityError
  | overflowError
  | unicodeEncodeError
deriving DecidableEq

/-! ## Tables -/

structure RunRow where
  runId : Str
  task : TaskSpec
  taskPath : Str
  baseSha : Str
  worktreePath : Str
  phase : RunPhase
  desiredState : DesiredState
  maxWorkers : Int
  pid : Option Int
  processIdentity : Option Str
  processToken : Option Str
  activeAgentPid : Option Int
  activeAgentIdentity : Option Str
  activeAgentCompletionPath : Option Str
  activeAgentNonce : Option Str
  workerSessionId : Option Str
  reviewerSessionId : Option Str
  headSha : Option Str
  reviewedHeadSha : Option Str
  prNumber : Option Int
  prUrl : Option Str
  ciRunId : Option Int
  ciUrl : Option Str
  fixRounds : Int
  agentInvocations : Int
  totalTokens : Int
  workerParentSha : Option Str
  mergeSha : Option Str
  reviewStartedHeadSha : Option Str
  workerAccountedEventsSha256 : Option Str
  reviewerAccountedEventsSha256 : Option Str
  workerCumulativeTokens : Int
  workerEnforceableTokens : Option Int
  reviewerEnforceableTokens : Option Int
  lastError : Option Str
deriving DecidableEq

structure ClaimRow where
  repository : Str
  issueNumber : Int
  runId : Str
  active : Bool
deriving DecidableEq

structure EventRow where
  runId : Str
  kind : Str
  payload : Json
  sourceKey : Option Str

inductive EnforcementBasis where
  | codexComponents | providerCumulative | unavailable
deriving DecidableEq

def EnforcementBasis.value : EnforcementBasis → Str
  | codexComponents => str "CODEX_COMPONENTS"
  | providerCumulative => str "PROVIDER_CUMULATIVE"
  | unavailable => str "UNAVAILABLE"

/-- A row of `invocation_usage`. -/
structure UsageRow extends AccountingFields where
  runId : Str
  invocationId : Str
  role : Role
  sessionId : Str
  terminalEventsSha256 : Str
  enforcementBasis : EnforcementBasis
  createdAt : Str
deriving DecidableEq

structure Tables where
  runs : List RunRow
  claims : List ClaimRow
  events : List EventRow
  invocationUsage : List UsageRow

/-- The columns of counts with a CHECK. -/
def UsageRow.counts (r : UsageRow) : List (Option Int) :=
  [r.rawInputTokens, r.cachedInputTokens, r.freshInputTokens, r.rawOutputTokens,
    r.reasoningTokens, r.rawProviderTotal, r.enforceableTokens]

namespace Tables

def RunsOk (t : Tables) : Prop :=
  (t.runs.map (·.runId)).Nodup ∧ ∀ r ∈ t.runs, r.maxWorkers = 1 ∨ r.maxWorkers = 2

def ClaimsOk (t : Tables) : Prop :=
  (t.claims.map fun r => (r.repository, r.issueNumber, r.runId)).Nodup ∧
    ((t.claims.filter (·.active)).map fun r => (r.repository, r.issueNumber)).Nodup ∧
    ∀ r ∈ t.claims, r.runId ∈ t.runs.map (·.runId)

/-- The positions of the index `one_event_per_stream_position`. -/
def sources (t : Tables) : List (Str × Str) :=
  t.events.filterMap fun r => r.sourceKey.map fun key => (r.runId, key)

def EventsOk (t : Tables) : Prop :=
  t.sources.Nodup ∧ ∀ r ∈ t.events, r.runId ∈ t.runs.map (·.runId)

def UsageOk (t : Tables) : Prop :=
  (t.invocationUsage.map fun r => (r.runId, r.invocationId)).Nodup ∧
    (∀ r ∈ t.invocationUsage, r.runId ∈ t.runs.map (·.runId)) ∧
    ∀ r ∈ t.invocationUsage, ∀ v ∈ r.counts, ∀ n ∈ v, 0 ≤ n

instance (t : Tables) : Decidable t.RunsOk := inferInstanceAs (Decidable (_ ∧ _))

instance (t : Tables) : Decidable t.ClaimsOk := inferInstanceAs (Decidable (_ ∧ _ ∧ _))

instance (t : Tables) : Decidable t.EventsOk := inferInstanceAs (Decidable (_ ∧ _))

instance (t : Tables) : Decidable t.UsageOk := inferInstanceAs (Decidable (_ ∧ _ ∧ _))

end Tables

/-- The constraints of the tables; there are no triggers. -/
def schema : Schema Tables where
  Valid t := t.RunsOk ∧ t.ClaimsOk ∧ t.EventsOk ∧ t.UsageOk
  Trigger _ _ := True
  decValid _ := inferInstanceAs (Decidable (_ ∧ _ ∧ _ ∧ _))
  decTrigger _ _ := inferInstanceAs (Decidable True)

abbrev Store := schema.Store

def Store.empty : Store := ⟨⟨[], [], [], []⟩, by decide⟩

abbrev StoreTx := Tx Store StoreError

/-- `str(value)` of a nullable text column. -/
def pyStr (s : Option Str) : Str := s.getD (str "None")

def Tables.run? (t : Tables) (runId : Str) : Option RunRow := lookup RunRow.runId t.runs runId

def Tables.setRun (t : Tables) (runId : Str) (f : RunRow → RunRow) : Tables :=
  { t with runs := modify RunRow.runId t.runs runId f }

def Tables.addEvent (t : Tables) (r : EventRow) : Tables := { t with events := t.events ++ [r] }

/-- The key of the ledger. -/
def UsageRow.key (r : UsageRow) : Str × Str := (r.runId, r.invocationId)

def Tables.addUsage (t : Tables) (r : UsageRow) : Tables :=
  { t with invocationUsage := t.invocationUsage ++ [r] }

def Tables.usage? (t : Tables) (runId invocationId : Str) : Option UsageRow :=
  lookup UsageRow.key t.invocationUsage (runId, invocationId)

/-! ## Parameters -/

/-- A value that is bound to a statement. -/
inductive Param where
  | null
  | text (s : Str)
  | int (n : Int)

def Param.ofText (s : Option Str) : Param := s.elim null text

def Param.ofInt (n : Option Int) : Param := n.elim null int

/-- Text is bound as UTF-8, and an integer in 64 bits. -/
def Param.bind : Param → Except StoreError Unit
  | null => .ok ()
  | text s => if s.any isSurrogate then .error .unicodeEncodeError else .ok ()
  | int n =>
    if -9223372036854775808 ≤ n ∧ n ≤ 9223372036854775807 then .ok () else .error .overflowError

/-- Bind in order; the first value that cannot be bound raises. -/
def bindParams : List Param → Except StoreError Unit
  | [] => .ok ()
  | p :: params => do
    p.bind
    bindParams params

def bindAll (params : List Param) : StoreTx Unit := Tx.ofExcept (bindParams params)

def unknownRun (runId : Str) : StoreError := .keyError (str "unknown run: " ++ runId)

/-- `SELECT … FROM runs WHERE run_id = ?`, where the run must be there. -/
def selectRun (runId : Str) : StoreTx RunRow := do
  bindAll [.text runId]
  let t ← Tx.query Subtype.val
  Tx.getOrThrow (t.run? runId) (unknownRun runId)

/-- `_append_event`. -/
def appendEventRow (runId kind : Str) (payload : Json) : StoreTx Unit := do
  bindAll [.text runId, .text kind]
  schema.execute .integrityError (·.addEvent ⟨runId, kind, payload, none⟩)

/-! ## Runs -/

/-- The phases that free the task for another run. -/
def RunPhase.isOver : RunPhase → Bool
  | completed | blocked | stopped => true
  | _ => false

def Tables.activeClaims (t : Tables) : Int := (t.claims.filter (·.active)).length

def writerLimit (activeCount maxWorkers : Int) : StoreError :=
  .runtimeError (str "writer limit reached (" ++ intStr activeCount ++ str "/" ++
    intStr maxWorkers ++ str ")")

def RunRow.new (runId : Str) (task : TaskSpec) (taskPath baseSha worktreePath : Str)
    (maxWorkers : Int) : RunRow where
  runId := runId
  task := task
  taskPath := taskPath
  baseSha := baseSha
  worktreePath := worktreePath
  phase := .created
  desiredState := .running
  maxWorkers := maxWorkers
  pid := none
  processIdentity := none
  processToken := none
  activeAgentPid := none
  activeAgentIdentity := none
  activeAgentCompletionPath := none
  activeAgentNonce := none
  workerSessionId := none
  reviewerSessionId := none
  headSha := none
  reviewedHeadSha := none
  prNumber := none
  prUrl := none
  ciRunId := none
  ciUrl := none
  fixRounds := 0
  agentInvocations := 0
  totalTokens := 0
  workerParentSha := none
  mergeSha := none
  reviewStartedHeadSha := none
  workerAccountedEventsSha256 := none
  reviewerAccountedEventsSha256 := none
  workerCumulativeTokens := 0
  workerEnforceableTokens := some 0
  reviewerEnforceableTokens := some 0
  lastError := none

def createRun (runId : Str) (task : TaskSpec) (taskPath baseSha worktreePath : Str)
    (maxWorkers : Int) : StoreTx Unit := do
  let t ← Tx.query Subtype.val
  Tx.ensure (t.activeClaims < maxWorkers) (writerLimit t.activeClaims maxWorkers)
  bindAll [.text task.taskId]
  Tx.refuse <| (t.runs.find? fun r => r.task.taskId = task.taskId ∧ ¬ r.phase.isOver).map
    fun duplicate => .runtimeError (str "task " ++ task.taskId ++
      str " already has active run " ++ duplicate.runId)
  bindAll [.text runId, .text task.taskId, .text taskPath, .int task.issueNumber,
    .text task.repository, .text task.branch, .text task.baseRef, .text baseSha,
    .text worktreePath, .int maxWorkers]
  schema.execute .integrityError fun t =>
    { t with runs := t.runs ++ [.new runId task taskPath baseSha worktreePath maxWorkers] }
  bindAll [.text task.repository, .int task.issueNumber, .text runId]
  schema.execute .integrityError fun t =>
    { t with claims := t.claims ++ [⟨task.repository, task.issueNumber, runId, true⟩] }
  appendEventRow runId (str "run.created") (.obj [(str "base_sha", .str baseSha)])

/-- One column of `RUN_FIELDS` with its new value. -/
inductive RunField where
  | phase (v : RunPhase)
  | desiredState (v : DesiredState)
  | pid (v : Option Int)
  | processIdentity (v : Option Str)
  | activeAgentIdentity (v : Option Str)
  | activeAgentCompletionPath (v : Option Str)
  | activeAgentNonce (v : Option Str)
  | workerParentSha (v : Option Str)
  | mergeSha (v : Option Str)
  | reviewStartedHeadSha (v : Option Str)
  | workerAccountedEventsSha256 (v : Option Str)
  | reviewerAccountedEventsSha256 (v : Option Str)
  | workerCumulativeTokens (v : Int)
  | workerEnforceableTokens (v : Option Int)
  | reviewerEnforceableTokens (v : Option Int)
  | workerSessionId (v : Option Str)
  | reviewerSessionId (v : Option Str)
  | headSha (v : Option Str)
  | reviewedHeadSha (v : Option Str)
  | prNumber (v : Option Int)
  | prUrl (v : Option Str)
  | ciRunId (v : Option Int)
  | ciUrl (v : Option Str)
  | fixRounds (v : Int)
  | agentInvocations (v : Int)
  | totalTokens (v : Int)
  | lastError (v : Option Str)

namespace RunField

def set (r : RunRow) : RunField → RunRow
  | phase v => { r with phase := v }
  | desiredState v => { r with desiredState := v }
  | pid v => { r with pid := v }
  | processIdentity v => { r with processIdentity := v }
  | activeAgentIdentity v => { r with activeAgentIdentity := v }
  | activeAgentCompletionPath v => { r with activeAgentCompletionPath := v }
  | activeAgentNonce v => { r with activeAgentNonce := v }
  | workerParentSha v => { r with workerParentSha := v }
  | mergeSha v => { r with mergeSha := v }
  | reviewStartedHeadSha v => { r with reviewStartedHeadSha := v }
  | workerAccountedEventsSha256 v => { r with workerAccountedEventsSha256 := v }
  | reviewerAccountedEventsSha256 v => { r with reviewerAccountedEventsSha256 := v }
  | workerCumulativeTokens v => { r with workerCumulativeTokens := v }
  | workerEnforceableTokens v => { r with workerEnforceableTokens := v }
  | reviewerEnforceableTokens v => { r with reviewerEnforceableTokens := v }
  | workerSessionId v => { r with workerSessionId := v }
  | reviewerSessionId v => { r with reviewerSessionId := v }
  | headSha v => { r with headSha := v }
  | reviewedHeadSha v => { r with reviewedHeadSha := v }
  | prNumber v => { r with prNumber := v }
  | prUrl v => { r with prUrl := v }
  | ciRunId v => { r with ciRunId := v }
  | ciUrl v => { r with ciUrl := v }
  | fixRounds v => { r with fixRounds := v }
  | agentInvocations v => { r with agentInvocations := v }
  | totalTokens v => { r with totalTokens := v }
  | lastError v => { r with lastError := v }

def param : RunField → Param
  | phase v => .text v.value
  | desiredState v => .text v.value
  | processIdentity v | activeAgentIdentity v | activeAgentCompletionPath v | activeAgentNonce v
  | workerParentSha v | mergeSha v | reviewStartedHeadSha v | workerAccountedEventsSha256 v
  | reviewerAccountedEventsSha256 v | workerSessionId v | reviewerSessionId v | headSha v
  | reviewedHeadSha v | prUrl v | ciUrl v | lastError v => .ofText v
  | pid v | workerEnforceableTokens v | reviewerEnforceableTokens v | prNumber v | ciRunId v =>
    .ofInt v
  | workerCumulativeTokens v | fixRounds v | agentInvocations v | totalTokens v => .int v

end RunField

/-- The assignments of one `UPDATE`, in their order. -/
def RunRow.assign (r : RunRow) (values : List RunField) : RunRow := values.foldl RunField.set r

/-- `UPDATE runs SET … WHERE run_id = ?`, where the run must be there. -/
def updateRun (runId : Str) (values : List RunField) : StoreTx Unit := do
  if values = [] then
    return ()
  bindAll (values.map RunField.param ++ [.text runId])
  let t ← Tx.query Subtype.val
  let _ ← Tx.getOrThrow (t.run? runId) (unknownRun runId)
  schema.execute .integrityError fun t => t.setRun runId (·.assign values)

def transition (runId : Str) (phase : RunPhase) (payload : Json) : StoreTx Unit := do
  updateRun runId [.phase phase]
  appendEventRow runId phase.eventKind payload

/-! ## Usage -/

/-- The arguments of `record_invocation_usage`. -/
structure UsageCall where
  runId : Str
  invocationId : Str
  role : Str
  sessionId : Str
  terminalEventsSha256 : Str
  accounting : UsageAccounting
  cumulativeProviderTotal : Bool

def isHexDigit (c : CodePoint) : Bool := (str "0123456789abcdef").contains c

/-- A lowercase SHA-256 digest. -/
def isDigest (s : Str) : Bool := s.length = 64 && s.all isHexDigit

namespace UsageCall

def basis (c : UsageCall) : EnforcementBasis :=
  if c.cumulativeProviderTotal then .providerCumulative
  else if c.accounting.enforceableTokens.isSome then .codexComponents
  else .unavailable

/-- The checks of the arguments, before the transaction. -/
def validate (c : UsageCall) : Except StoreError Role :=
  match Role.ofValue c.role with
  | none => .error (.valueError (str "unsupported invocation role: " ++ c.role))
  | some role =>
    if c.invocationId = [] ∨ 200 < c.invocationId.length then
      .error (.valueError (str "invocation identity must be between 1 " ++
        str "and 200 characters"))
    else if ¬ isDigest c.terminalEventsSha256 then
      .error (.valueError (str "terminal event evidence must be " ++
        str "a lowercase SHA-256 digest"))
    else if c.sessionId = [] then
      .error (.valueError (str "usage accounting requires a session ID"))
    else if c.cumulativeProviderTotal ∧ role ≠ .worker then
      .error (.valueError (str "cumulative provider accounting is " ++
        str "supported only for workers"))
    else .ok role

/-- The values of the call that a replay must repeat. -/
def Matches (c : UsageCall) (role : Role) (r : UsageRow) : Prop :=
  r.role = role ∧ r.sessionId = c.sessionId ∧
    r.terminalEventsSha256 = c.terminalEventsSha256 ∧ r.enforcementBasis = c.basis ∧
    r.toUsageFields = c.accounting.toUsageFields ∧
    r.freshInputTokens = c.accounting.freshInputTokens ∧
    r.normalizationState = c.accounting.normalizationState

instance (c : UsageCall) (role : Role) (r : UsageRow) : Decidable (c.Matches role r) :=
  inferInstanceAs (Decidable (_ ∧ _ ∧ _ ∧ _ ∧ _ ∧ _ ∧ _))

/-- The row of a fresh invocation. -/
def row (c : UsageCall) (role : Role) (enforceable : Option Int) (now : Str) : UsageRow :=
  { c.accounting.toAccountingFields with
    enforceableTokens := enforceable
    runId := c.runId
    invocationId := c.invocationId
    role := role
    sessionId := c.sessionId
    terminalEventsSha256 := c.terminalEventsSha256
    enforcementBasis := c.basis
    createdAt := now }

end UsageCall

/-- What `record_invocation_usage` returns. -/
structure UsageRecord where
  row : UsageRow
  roleEnforceableTotal : Option Int
  replayed : Bool
deriving DecidableEq

namespace RunRow

/-- `{role}_enforceable_tokens`. -/
def enforceableTokens (r : RunRow) : Role → Option Int
  | .worker => r.workerEnforceableTokens
  | .reviewer => r.reviewerEnforceableTokens

/-- `{role}_session_id`. -/
def sessionId (r : RunRow) : Role → Option Str
  | .worker => r.workerSessionId
  | .reviewer => r.reviewerSessionId

/-- The columns of the role that an accounted invocation sets. -/
def setAccounted (r : RunRow) (total : Int) (session digest : Str) : Role → RunRow
  | .worker => { r with
      workerEnforceableTokens := some total
      workerSessionId := some session
      workerAccountedEventsSha256 := some digest }
  | .reviewer => { r with
      reviewerEnforceableTokens := some total
      reviewerSessionId := some session
      reviewerAccountedEventsSha256 := some digest }

/-- The run after an accounted invocation. -/
def account (r : RunRow) (role : Role) (roleTotal total : Int) (session digest : Str)
    (nextCumulative : Option Int) : RunRow :=
  { r.setAccounted roleTotal session digest role with
    totalTokens := total
    workerCumulativeTokens := nextCumulative.getD r.workerCumulativeTokens }

end RunRow

def Json.ofText (s : Option Str) : Json := s.elim .null .str

def Json.ofInt (n : Option Int) : Json := n.elim .null .int

/-- The payload of `usage.accounted`. -/
def UsageRow.payload (r : UsageRow) (roleTotal : Int) : Json := .obj [
  (str "invocation_id", .str r.invocationId),
  (str "role", .str r.role.value),
  (str "session_id", .str r.sessionId),
  (str "terminal_events_sha256", .str r.terminalEventsSha256),
  (str "raw_input_tokens", Json.ofInt r.rawInputTokens),
  (str "cached_input_tokens", Json.ofInt r.cachedInputTokens),
  (str "fresh_input_tokens", Json.ofInt r.freshInputTokens),
  (str "raw_output_tokens", Json.ofInt r.rawOutputTokens),
  (str "reasoning_tokens", Json.ofInt r.reasoningTokens),
  (str "raw_provider_total", Json.ofInt r.rawProviderTotal),
  (str "normalization_state", .str r.normalizationState.value),
  (str "enforceable_tokens", Json.ofInt r.enforceableTokens),
  (str "enforcement_basis", .str r.enforcementBasis.value),
  (str "role_enforceable_total", .int roleTotal)]

/-- An invocation that is in the ledger already. -/
def replayUsage (c : UsageCall) (role : Role) (existing : UsageRow) : StoreTx UsageRecord := do
  Tx.ensure (c.Matches role existing)
    (.runtimeError (str "persisted invocation usage does not " ++ str "match replay evidence"))
  Tx.ensure (c.cumulativeProviderTotal ∨
      existing.enforceableTokens = c.accounting.enforceableTokens)
    (.runtimeError (str "persisted invocation policy value " ++ str "changed during replay"))
  let run ← selectRun c.runId
  return ⟨existing, run.enforceableTokens role, true⟩

/-- The enforceable tokens and the next cumulative total of a fresh invocation. -/
def UsageCall.charge (c : UsageCall) (run : RunRow) :
    Except StoreError (Option Int × Option Int) :=
  if c.cumulativeProviderTotal then
    match c.accounting.rawProviderTotal with
    | none =>
      .error (.runtimeError (str "cumulative provider usage omitted " ++ str "its raw total"))
    | some total =>
      if total < run.workerCumulativeTokens then
        .error (.runtimeError (str "provider cumulative usage moved backwards"))
      else .ok (some (total - run.workerCumulativeTokens), some total)
  else .ok (c.accounting.enforceableTokens, none)

/-- An invocation that is new to the ledger. -/
def freshUsage (c : UsageCall) (role : Role) (now : Str) : StoreTx UsageRecord := do
  let run ← selectRun c.runId
  let prior ← Tx.getOrThrow (run.enforceableTokens role)
    (.runtimeError (str "run predates role-isolated usage " ++
      str "accounting and cannot be resumed"))
  Tx.ensure (role = .worker → ∀ s ∈ run.workerSessionId, s = c.sessionId)
    (.runtimeError (str "worker usage session changed " ++ str "during accounting"))
  let (enforceable, nextCumulative) ← Tx.ofExcept (c.charge run)
  let roleTotal := prior + enforceable.getD 0
  let total := run.totalTokens + enforceable.getD 0
  let row := c.row role enforceable now
  bindAll [.text c.runId, .text c.invocationId, .text c.role, .text c.sessionId,
    .text c.terminalEventsSha256, .ofInt row.rawInputTokens, .ofInt row.cachedInputTokens,
    .ofInt row.freshInputTokens, .ofInt row.rawOutputTokens, .ofInt row.reasoningTokens,
    .ofInt row.rawProviderTotal, .text row.normalizationState.value, .ofInt enforceable,
    .text row.enforcementBasis.value, .text now]
  schema.execute .integrityError (·.addUsage row)
  bindAll [.int roleTotal, .int total, .text c.sessionId, .text c.terminalEventsSha256,
    .ofInt nextCumulative, .text c.runId]
  schema.execute .integrityError fun t => t.setRun c.runId
    (·.account role roleTotal total c.sessionId c.terminalEventsSha256 nextCumulative)
  appendEventRow c.runId (str "usage.accounted") (row.payload roleTotal)
  return ⟨row, some roleTotal, false⟩

/-- By whether the invocation is in the ledger. -/
def accountUsage (c : UsageCall) (role : Role) (now : Str) :
    Option UsageRow → StoreTx UsageRecord
  | some existing => replayUsage c role existing
  | none => freshUsage c role now

def recordInvocationUsage (c : UsageCall) (now : Str) : StoreTx UsageRecord := do
  let role ← Tx.ofExcept c.validate
  bindAll [.text c.runId, .text c.invocationId]
  let t ← Tx.query Subtype.val
  accountUsage c role now (t.usage? c.runId c.invocationId)

/-- Whether an invocation of the run lacks an enforceable count. -/
def hasUnenforceableUsage (runId : Str) : StoreTx Bool := do
  bindAll [.text runId]
  let t ← Tx.query Subtype.val
  return t.invocationUsage.any fun r => r.runId = runId && r.enforceableTokens.isNone

/-! ## Claims and CI checkpoints -/

def Tables.setClaims (t : Tables) (runId : Str) (active : Bool) : Tables :=
  { t with claims := modify ClaimRow.runId t.claims runId fun r => { r with active := active } }

def releaseClaim (runId : Str) : StoreTx Unit := do
  bindAll [.text runId]
  schema.execute .integrityError fun t => t.setClaims runId false
  appendEventRow runId (str "claim.released") (.obj [])

/-- `_reactivate_claim_in_transaction`. -/
def reactivateClaim (run : RunRow) : StoreTx Unit := do
  Tx.ensure (1 ≤ run.maxWorkers ∧ run.maxWorkers ≤ 2)
    (.runtimeError (str "persisted writer limit is invalid"))
  let t ← Tx.query Subtype.val
  let claim ← Tx.getOrThrow (lookup ClaimRow.runId t.claims run.runId)
    (.runtimeError (str "run has no durable claim to reactivate"))
  Tx.ensure (claim.active = false) (.runtimeError (str "run claim is already active"))
  Tx.refuse <| (t.claims.find? fun r => r.repository = run.task.repository ∧
      r.issueNumber = run.task.issueNumber ∧ r.active).map
    fun conflicting => .runtimeError (str "issue already has active run " ++ conflicting.runId)
  Tx.ensure (t.activeClaims < run.maxWorkers) (writerLimit t.activeClaims run.maxWorkers)
  schema.execute .integrityError fun t => t.setClaims run.runId true
  appendEventRow run.runId (str "claim.reactivated") (.obj [])

/-- A run that is blocked takes its claim again. -/
def reactivateBlocked (phase : RunPhase) (run : RunRow) : StoreTx Unit :=
  if phase = .blocked then reactivateClaim run else pure ()

/-- The arguments of `record_ci_fix_request`. -/
structure CiFixCall where
  runId : Str
  expectedPhase : RunPhase
  expectedHead : Str
  expectedFixRounds : Int
  nextFixRound : Int
  ciRunId : Int
  ciUrl : Str
  request : List (Str × Json)

def RunRow.fixRequested (r : RunRow) (c : CiFixCall) : RunRow :=
  { r with
    phase := .fixRequested
    fixRounds := c.nextFixRound
    ciRunId := some c.ciRunId
    ciUrl := some c.ciUrl
    reviewedHeadSha := none
    reviewStartedHeadSha := none
    lastError := none }

def recordCiFixRequest (c : CiFixCall) : StoreTx Unit := do
  Tx.ensure (c.expectedPhase = .ciWaiting ∨ c.expectedPhase = .blocked)
    (.valueError (str "CI fix requests require CI_WAITING " ++ str "or legacy BLOCKED state"))
  Tx.ensure (c.nextFixRound = c.expectedFixRounds + 1)
    (.valueError (str "CI fix round must advance exactly once"))
  let run ← selectRun c.runId
  Tx.ensure (run.phase = c.expectedPhase ∧ run.desiredState = .running ∧
      pyStr run.headSha = c.expectedHead ∧ run.fixRounds = c.expectedFixRounds)
    (.runtimeError (str "CI fix checkpoint changed before " ++ str "it could be recorded"))
  reactivateBlocked c.expectedPhase run
  bindAll [.text RunPhase.fixRequested.value, .int c.nextFixRound, .int c.ciRunId, .text c.ciUrl,
    .text c.runId]
  schema.execute .integrityError fun t => t.setRun c.runId (·.fixRequested c)
  appendEventRow c.runId (str "ci.failed") (.obj c.request)
  appendEventRow c.runId RunPhase.fixRequested.eventKind (.obj [
    (str "head_sha", .str c.expectedHead),
    (str "run_id", .int c.ciRunId),
    (str "failed_jobs", (Json.get? c.request (str "failed_jobs")).getD (.arr [])),
    (str "fix_round", .int c.nextFixRound)])

def RunRow.ciPassed (r : RunRow) (ciRunId : Int) (ciUrl : Str) : RunRow :=
  { r with
    phase := .reviewRunning
    ciRunId := some ciRunId
    ciUrl := some ciUrl
    lastError := none
    reviewedHeadSha := none
    reviewStartedHeadSha := none }

def recoverBlockedCiPass (runId expectedHead : Str) (ciRunId : Int) (ciUrl : Str) :
    StoreTx Unit := do
  let run ← selectRun runId
  Tx.ensure (run.phase = .blocked ∧ run.desiredState = .running ∧
      pyStr run.headSha = expectedHead)
    (.runtimeError (str "CI recovery checkpoint changed before " ++ str "it could be recorded"))
  reactivateClaim run
  bindAll [.text RunPhase.reviewRunning.value, .int ciRunId, .text ciUrl, .text runId]
  schema.execute .integrityError fun t => t.setRun runId (·.ciPassed ciRunId ciUrl)
  appendEventRow runId (str "ci.passed") (.obj [
    (str "head_sha", .str expectedHead), (str "url", .str ciUrl), (str "recovered", .bool true)])
  appendEventRow runId RunPhase.reviewRunning.eventKind (.obj [])

/-! ## Live activity -/

def RunRow.setSession (r : RunRow) (session : Str) : Role → RunRow
  | .worker => { r with workerSessionId := some session }
  | .reviewer => { r with reviewerSessionId := some session }

/-- The session of a live stream is pinned by its first event. -/
def pinSession (runId : Str) (role : Role) (session : Str) : StoreTx Unit := do
  let run ← selectRun runId
  match run.sessionId role with
  | some persisted =>
    Tx.ensure (persisted = session)
      (.runtimeError (str "live stream changed the " ++ str "persisted session"))
  | none =>
    bindAll [.text session, .text runId]
    schema.execute .integrityError fun t => t.setRun runId (·.setSession session role)

def pinOptional (runId : Str) : Option (Role × Str) → StoreTx Unit
  | some (role, session) => pinSession runId role session
  | none => pure ()

/-- `append_activity_event`: whether the event is new. The session goes with its field. -/
def appendActivityEvent (runId : Str) (payload : Json) (sourceKey : Str)
    (session : Option (Role × Str)) : StoreTx Bool := do
  pinOptional runId session
  bindAll [.text runId, .text sourceKey]
  let t ← Tx.query Subtype.val
  if (runId, sourceKey) ∈ t.sources then
    return false
  schema.execute .integrityError
    (·.addEvent ⟨runId, str "agent.activity", payload, some sourceKey⟩)
  return true

/-! ## The interface -/

inductive StoreOp where
  | createRun (runId : Str) (task : TaskSpec) (taskPath baseSha worktreePath : Str)
      (maxWorkers : Int)
  | getRun (runId : Str)
  | updateRun (runId : Str) (values : List RunField)
  | recordInvocationUsage (call : UsageCall) (now : Str)
  | hasUnenforceableUsage (runId : Str)
  | transition (runId : Str) (phase : RunPhase) (payload : Json)
  | recordCiFixRequest (call : CiFixCall)
  | recoverBlockedCiPass (runId expectedHead : Str) (ciRunId : Int) (ciUrl : Str)
  | appendEvent (runId kind : Str) (payload : Json)
  | appendActivityEvent (runId : Str) (payload : Json) (sourceKey : Str)
      (session : Option (Role × Str))
  | releaseClaim (runId : Str)

namespace StoreOp

abbrev Res : StoreOp → Type
  | getRun _ => RunRow
  | recordInvocationUsage _ _ => UsageRecord
  | hasUnenforceableUsage _ | appendActivityEvent _ _ _ _ => Bool
  | createRun _ _ _ _ _ _ | updateRun _ _ | transition _ _ _ | recordCiFixRequest _
  | recoverBlockedCiPass _ _ _ _ | appendEvent _ _ _ | releaseClaim _ => Unit

def body : (op : StoreOp) → StoreTx op.Res
  | createRun runId task taskPath baseSha worktreePath maxWorkers =>
    Orchestrator.createRun runId task taskPath baseSha worktreePath maxWorkers
  | getRun runId => selectRun runId
  | updateRun runId values => Orchestrator.updateRun runId values
  | recordInvocationUsage call now => Orchestrator.recordInvocationUsage call now
  | hasUnenforceableUsage runId => Orchestrator.hasUnenforceableUsage runId
  | transition runId phase payload => Orchestrator.transition runId phase payload
  | recordCiFixRequest call => Orchestrator.recordCiFixRequest call
  | recoverBlockedCiPass runId expectedHead ciRunId ciUrl =>
    Orchestrator.recoverBlockedCiPass runId expectedHead ciRunId ciUrl
  | appendEvent runId kind payload => appendEventRow runId kind payload
  | appendActivityEvent runId payload sourceKey session =>
    Orchestrator.appendActivityEvent runId payload sourceKey session
  | releaseClaim runId => Orchestrator.releaseClaim runId

/-- One operation: its result, and the store after it. -/
def exec (op : StoreOp) (s : Store) : Except StoreError op.Res × Store := op.body.commit s

end StoreOp

/-- The store after a list of operations. -/
def runOps (s : Store) (ops : List StoreOp) : Store := ops.foldl (fun s op => (op.exec s).2) s

end NyanShopBot.Orchestrator
