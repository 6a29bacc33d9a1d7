import NyanShopBot.Py.Json

/-!
# Models of the orchestrator

The enumerations of a run, the parts of a task that the runner reads, and the
telemetry of an agent. A `Usage` and a `UsageAccounting` carry what their
validators check; `Usage.normalizeCodex` and `Usage.normalizeCumulativeProvider`
therefore never raise.
-/

namespace NyanShopBot.Orchestrator

open Py

inductive WorkerKind where
  | codex | antigravity
deriving DecidableEq

def WorkerKind.value : WorkerKind → Str
  | codex => str "codex"
  | antigravity => str "antigravity"

inductive Role where
  | worker | reviewer
deriving DecidableEq

def Role.value : Role → Str
  | worker => str "worker"
  | reviewer => str "reviewer"

def Role.ofValue (s : Str) : Option Role :=
  if s = Role.worker.value then some .worker
  else if s = Role.reviewer.value then some .reviewer
  else none

inductive RunPhase where
  | created | claimed | workerRunning | workerComplete | ciWaiting | reviewRunning | fixRequested
  | readyForOwner | mergePendingConfirmation | mergeAuthorized | ownerMerged | paused | stopped
  | blocked | completed
deriving DecidableEq

namespace RunPhase

def value : RunPhase → Str
  | created => str "CREATED"
  | claimed => str "CLAIMED"
  | workerRunning => str "WORKER_RUNNING"
  | workerComplete => str "WORKER_COMPLETE"
  | ciWaiting => str "CI_WAITING"
  | reviewRunning => str "REVIEW_RUNNING"
  | fixRequested => str "FIX_REQUESTED"
  | readyForOwner => str "READY_FOR_OWNER"
  | mergePendingConfirmation => str "MERGE_PENDING_CONFIRMATION"
  | mergeAuthorized => str "MERGE_AUTHORIZED"
  | ownerMerged => str "OWNER_MERGED"
  | paused => str "PAUSED"
  | stopped => str "STOPPED"
  | blocked => str "BLOCKED"
  | completed => str "COMPLETED"

/-- `f"phase.{phase.value.lower()}"`. -/
def eventKind : RunPhase → Str
  | created => str "phase.created"
  | claimed => str "phase.claimed"
  | workerRunning => str "phase.worker_running"
  | workerComplete => str "phase.worker_complete"
  | ciWaiting => str "phase.ci_waiting"
  | reviewRunning => str "phase.review_running"
  | fixRequested => str "phase.fix_requested"
  | readyForOwner => str "phase.ready_for_owner"
  | mergePendingConfirmation => str "phase.merge_pending_confirmation"
  | mergeAuthorized => str "phase.merge_authorized"
  | ownerMerged => str "phase.owner_merged"
  | paused => str "phase.paused"
  | stopped => str "phase.stopped"
  | blocked => str "phase.blocked"
  | completed => str "phase.completed"

end RunPhase

inductive DesiredState where
  | running | paused | stopped
deriving DecidableEq

def DesiredState.value : DesiredState → Str
  | running => str "RUNNING"
  | paused => str "PAUSED"
  | stopped => str "STOPPED"

/-! ## Tasks -/

/-- `Field(ge=lo, le=hi)`. -/
def Within (lo hi n : Int) : Prop := lo ≤ n ∧ n ≤ hi

instance (lo hi n : Int) : Decidable (Within lo hi n) := inferInstanceAs (Decidable (_ ∧ _))

/-- The limits that are not about time, in their bounds. -/
structure Budget where
  maxAgentInvocations : Int
  maxTotalTokens : Int
  maxWorkerTokens : Option Int
  maxReviewerTokens : Option Int
  maxFixRounds : Int
  invocations : Within 2 8 maxAgentInvocations
  tokens : Within 1000 1000000 maxTotalTokens
  workerTokens : ∀ n ∈ maxWorkerTokens, Within 1000 1000000 n
  reviewerTokens : ∀ n ∈ maxReviewerTokens, Within 1000 1000000 n
  fixRounds : Within 0 3 maxFixRounds
deriving DecidableEq

/-- The role's own ceiling, or the shared one. -/
def Budget.tokenCeiling (b : Budget) : Role → Int
  | .worker => b.maxWorkerTokens.getD b.maxTotalTokens
  | .reviewer => b.maxReviewerTokens.getD b.maxTotalTokens

structure TaskSpec where
  taskId : Str
  issueNumber : Int
  repository : Str
  branch : Str
  baseRef : Str
  prBase : Str
  worker : WorkerKind
  autoMergeEligible : Bool
  budget : Budget
deriving DecidableEq

/-! ## Usage -/

inductive UsageNormalization where
  | complete | partly | unknown
deriving DecidableEq

def UsageNormalization.value : UsageNormalization → Str
  | complete => str "COMPLETE"
  | partly => str "PARTIAL"
  | unknown => str "UNKNOWN"

/-- Raw telemetry; what the provider left out is none. -/
structure UsageFields where
  rawInputTokens : Option Int
  cachedInputTokens : Option Int
  rawOutputTokens : Option Int
  reasoningTokens : Option Int
  rawProviderTotal : Option Int
deriving DecidableEq

namespace UsageFields

def components (u : UsageFields) : List (Option Int) :=
  [u.rawInputTokens, u.cachedInputTokens, u.rawOutputTokens, u.reasoningTokens]

def rawValues (u : UsageFields) : List (Option Int) := u.components ++ [u.rawProviderTotal]

/-- The raw input that was not cached. -/
def fresh (u : UsageFields) : Option Int := do
  return (← u.rawInputTokens) - (← u.cachedInputTokens)

/-- The fresh input and the raw output. -/
def enforceable (u : UsageFields) : Option Int := do
  return (← u.fresh) + (← u.rawOutputTokens)

/-- `part` is at most `whole` where both are there. -/
def WithinOf (part whole : Option Int) : Prop := ∀ p ∈ part, ∀ w ∈ whole, p ≤ w

/-- The checks of `Usage`. -/
structure Valid (u : UsageFields) : Prop where
  nonneg : ∀ v ∈ u.rawValues, ∀ n ∈ v, 0 ≤ n
  cached : WithinOf u.cachedInputTokens u.rawInputTokens
  reasoning : WithinOf u.reasoningTokens u.rawOutputTokens

end UsageFields

structure Usage extends UsageFields where
  valid : toUsageFields.Valid

structure AccountingFields extends UsageFields where
  freshInputTokens : Option Int
  normalizationState : UsageNormalization
  enforceableTokens : Option Int
deriving DecidableEq

/-- The checks of `UsageAccounting`. -/
structure AccountingFields.Valid (a : AccountingFields) : Prop where
  nonneg : ∀ v ∈ a.rawValues ++ [a.freshInputTokens, a.enforceableTokens], ∀ n ∈ v, 0 ≤ n
  complete : a.normalizationState = .complete → (∀ v ∈ a.components, v ≠ none) ∧
    a.freshInputTokens = a.fresh ∧ a.enforceableTokens = a.enforceable
  unknown : a.normalizationState = .unknown → (∀ v ∈ a.rawValues, v = none) ∧
    a.freshInputTokens = none ∧ a.enforceableTokens = none

/-- Raw telemetry with the value that is enforced. -/
structure UsageAccounting extends AccountingFields where
  valid : toAccountingFields.Valid

namespace UsageFields

/-- The formula for Codex, on complete telemetry. -/
def normalizeCodex (u : UsageFields) : AccountingFields :=
  if u.components.all (·.isSome) then
    { u with
      freshInputTokens := u.fresh
      normalizationState := .complete
      enforceableTokens := u.enforceable }
  else if u.rawValues.all (·.isNone) then
    { u with freshInputTokens := none, normalizationState := .unknown, enforceableTokens := none }
  else
    { u with
      freshInputTokens := u.fresh
      normalizationState := .partly
      enforceableTokens := none }

/-- The raw fields only: the store finds the difference to the previous total. -/
def normalizeCumulativeProvider (u : UsageFields) : AccountingFields :=
  { u with
    freshInputTokens := none
    normalizationState := if u.rawValues.all (·.isNone) then .unknown else .partly
    enforceableTokens := none }

variable {u : UsageFields}

theorem Valid.fresh_nonneg (h : u.Valid) : ∀ n ∈ u.fresh, 0 ≤ n := by
  intro n hn
  obtain ⟨i, hi, hn⟩ := Option.bind_eq_some_iff.1 hn
  obtain ⟨c, hc, hn⟩ := Option.bind_eq_some_iff.1 hn
  obtain rfl : i - c = n := Option.some.inj hn
  have := h.cached c hc i hi
  omega

theorem Valid.enforceable_nonneg (h : u.Valid) : ∀ n ∈ u.enforceable, 0 ≤ n := by
  intro n hn
  obtain ⟨f, hf, hn⟩ := Option.bind_eq_some_iff.1 hn
  obtain ⟨o, ho, hn⟩ := Option.bind_eq_some_iff.1 hn
  obtain rfl : f + o = n := Option.some.inj hn
  have hf := h.fresh_nonneg f hf
  have ho := h.nonneg u.rawOutputTokens (by simp [rawValues, components]) o ho
  omega

theorem normalizeCodex_valid (h : u.Valid) : u.normalizeCodex.Valid := by
  unfold normalizeCodex
  split_ifs with hall hnone
  · refine ⟨?_, fun _ => ⟨fun v hv => ?_, rfl, rfl⟩, nofun⟩
    · intro v hv
      rcases List.mem_append.1 hv with hv | hv
      · exact h.nonneg v hv
      · rcases List.mem_pair.1 hv with rfl | rfl
        · exact h.fresh_nonneg
        · exact h.enforceable_nonneg
    · exact Option.isSome_iff_ne_none.1 (List.all_eq_true.1 hall v hv)
  · refine ⟨?_, nofun, fun _ => ⟨fun v hv => ?_, rfl, rfl⟩⟩
    · intro v hv
      rcases List.mem_append.1 hv with hv | hv
      · exact h.nonneg v hv
      · rcases List.mem_pair.1 hv with rfl | rfl <;> exact nofun
    · exact Option.isNone_iff_eq_none.1 (List.all_eq_true.1 hnone v hv)
  · refine ⟨?_, nofun, nofun⟩
    intro v hv
    rcases List.mem_append.1 hv with hv | hv
    · exact h.nonneg v hv
    · rcases List.mem_pair.1 hv with rfl | rfl
      · exact h.fresh_nonneg
      · exact nofun

theorem normalizeCumulativeProvider_valid (h : u.Valid) : u.normalizeCumulativeProvider.Valid := by
  unfold normalizeCumulativeProvider
  refine ⟨?_, ?_, ?_⟩
  · intro v hv
    rcases List.mem_append.1 hv with hv | hv
    · exact h.nonneg v hv
    · rcases List.mem_pair.1 hv with rfl | rfl <;> exact nofun
  · dsimp only
    split_ifs <;> exact nofun
  · dsimp only
    split_ifs with hnone
    · refine fun _ => ⟨fun v hv => ?_, rfl, rfl⟩
      exact Option.isNone_iff_eq_none.1 (List.all_eq_true.1 hnone v hv)
    · exact nofun

end UsageFields

namespace Usage

def normalizeCodex (u : Usage) : UsageAccounting :=
  ⟨u.toUsageFields.normalizeCodex, UsageFields.normalizeCodex_valid u.valid⟩

def normalizeCumulativeProvider (u : Usage) : UsageAccounting :=
  ⟨u.toUsageFields.normalizeCumulativeProvider,
    UsageFields.normalizeCumulativeProvider_valid u.valid⟩

end Usage

end NyanShopBot.Orchestrator
