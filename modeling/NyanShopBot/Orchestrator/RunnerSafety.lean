import NyanShopBot.Orchestrator.LeaseSafety
import NyanShopBot.Orchestrator.RunnerLoop

/-!
# Safety of a run

What holds of a run in every run of the system, whatever its runners and its operators do at
the same time, where no two processes are one and no two of them resume the run at once
(`Command.Apart`). The owner gets a head only after it passed CI and then its review, and
agents are launched within the budget and only by the process that holds the lease. Both are
read off the invariant of the view (`serviceSystem_good`), which the outlines of the processes
keep.
-/

namespace NyanShopBot.Orchestrator

open Py Db Conc

/-- Two processes that may work on the run at the same time. -/
def Command.Apart (c c' : Command) : Prop :=
  c.me ≠ c'.me ∧ ¬ (c.resumes = true ∧ c'.resumes = true)

instance (c c' : Command) : Decidable (c.Apart c') := inferInstanceAs (Decidable (_ ∧ _))

/-- The run was created, and nothing has happened on it. -/
structure World.Created (w : World) (runId : Str) (task : TaskSpec) : Prop where
  row : ∃ taskPath baseSha worktreePath maxWorkers, w.row runId =
    some (.new runId task taskPath baseSha worktreePath maxWorkers)
  launched : w.launched = []
  phases : w.phases = []

/-- The run is there, and the invariant holds of it. -/
def World.Sound (w : World) (runId : Str) (task : TaskSpec) : Prop :=
  ∃ v, w.view runId = some v ∧ v.Good runId task

section

variable {runId : Str} {task : TaskSpec} {w : World}

theorem World.Created.sound (h : w.Created runId task) : w.Sound runId task := by
  obtain ⟨⟨taskPath, baseSha, worktreePath, maxWorkers, hrow⟩, hlaunched, hphases⟩ := h
  refine ⟨_, view_eq_some.2 ⟨_, hrow, rfl⟩, rfl, .inl ?_, ?_, ?_, ?_, ?_⟩
  · rw [hphases]
    rfl
  · rw [hphases]
    rintro ⟨⟩
  · rw [hphases]
    rintro ⟨⟩
  · rw [hphases]
    rintro ⟨⟩
  · have hinvocations : (0 : Int) ≤ task.budget.maxAgentInvocations :=
      le_trans (by decide) task.budget.invocations.1
    rw [hlaunched]
    refine ⟨hinvocations, task.budget.fixRounds.1, le_refl _, ?_, .nil, ?_, ?_⟩
    all_goals rintro l ⟨⟩

variable [UnicodeData] {tr : List (Trans (serviceSystem runId))} {cfg : Cfg (serviceSystem runId)}

/-- **The invariant of the view holds in every run.** -/
theorem serviceSystem_good (h : Run (serviceSystem runId) w tr cfg) (hw : w.Created runId task)
    (hbeside : Beside (serviceSystem runId) w Command.Apart tr) : cfg.store.Sound runId task := by
  have hbody (c : Command) (w : World) (hI : w.Sound runId task) :
      Keeps (ServiceEffect runId) (Rely runId task c.me c.resumes)
        (Guarantee runId task c.me c.resumes) (fun _ _ => True) (Command.body runId c) w := by
    obtain ⟨v, hv, hgood⟩ := hI
    exact keeps_mono (fun _ _ _ => trivial) (c.outline ⟨v, hv, hgood, fun _ => trivial⟩)
  have hinv (c : Command) (w w' : World) (hI : w.Sound runId task)
      (hg : Guarantee runId task c.me c.resumes w w') : w'.Sound runId task := by
    obtain ⟨v, hv, hgood⟩ := hI
    obtain ⟨v', hv', hsteps⟩ := hg.2 v hv hgood
    exact ⟨v', hv', hsteps.good⟩
  have hrely (c c' : Command) (w w' : World) (hok : c.Apart c') (_ : w.Sound runId task)
      (hg : Guarantee runId task c.me c.resumes w w') : Rely runId task c'.me c'.resumes w w' :=
    hg.rely hok.1 hok.2
  exact (Run.keeps hbody hinv hrely h hw.sound hbeside).1

/-- **The owner gets a head that was vetted**: a run that is ready for its owner, or was
merged or delivered, is at the head that its reviewer has passed, after CI had. -/
theorem handover_vetted (h : Run (serviceSystem runId) w tr cfg) (hw : w.Created runId task)
    (hbeside : Beside (serviceSystem runId) w Command.Apart tr) {row : RunRow}
    (hrow : cfg.store.row runId = some row) (hgate : row.phase.isGate = true) :
    ∃ head, row.headSha = some head ∧ row.reviewedHeadSha = some head ∧
      Vetted runId head cfg.store.tables.events := by
  obtain ⟨v, hv, hgood⟩ := serviceSystem_good h hw hbeside
  obtain ⟨row', hrow', rfl⟩ := view_eq_some.1 hv
  obtain rfl := Option.some.inj (hrow.symm.trans hrow')
  rcases hgood.phase with hmark | hstopped
  · exact (hgood.handed (hgood.gate (hmark ▸ hgate))).2
  · have hstopped : row.phase = .stopped := hstopped
    rw [hstopped] at hgate
    cases hgate

/-- **Agents are launched within the budget**, each with a number of its own, and only by
the process that holds the lease of the run. -/
theorem launches_held (h : Run (serviceSystem runId) w tr cfg) (hw : w.Created runId task)
    (hbeside : Beside (serviceSystem runId) w Command.Apart tr) {row : RunRow}
    (hrow : cfg.store.row runId = some row) :
    cfg.store.launched.Pairwise (fun l m => l.attempt < m.attempt) ∧
    (∀ l ∈ cfg.store.launched, l.attempt ≤ row.agentInvocations ∧ l.Affordable task ∧ l.Held) ∧
    (cfg.store.launched.length : Int) ≤ row.agentInvocations ∧
    row.agentInvocations ≤ task.budget.maxAgentInvocations ∧
    row.fixRounds ≤ task.budget.maxFixRounds := by
  obtain ⟨v, hv, hgood⟩ := serviceSystem_good h hw hbeside
  obtain ⟨row', hrow', rfl⟩ := view_eq_some.1 hv
  obtain rfl := Option.some.inj (hrow.symm.trans hrow')
  have htask : row.task = task := hgood.task
  have hwithin := hgood.within
  refine ⟨hwithin.increasing, fun l hl => ⟨hwithin.attempts l hl, ?_, hwithin.held l hl⟩,
    hwithin.count, ?_, ?_⟩
  · exact htask ▸ hwithin.affordable l hl
  · rw [← htask]
    exact hwithin.invocations
  · rw [← htask]
    exact hwithin.fixRounds

end

/-! ## A sample run -/

section

attribute [local instance] CiGate.sampleUnicode

def sampleReview : Review where
  verdict := .pass
  reviewedHeadSha := CiGate.sampleHead
  findings := 0
  blockers := []
  pass := fun _ => ⟨rfl, rfl⟩
  changes := by rintro ⟨⟩
  blocked := by rintro ⟨⟩
  sha := by decide

/-- A writer that commits, and a reviewer that passes what it wrote. -/
def sampleAgent : (role : Role) → AgentRun role
  | .worker => ⟨[.control], .ok (⟨.success, CiGate.sampleHead, []⟩,
      ⟨str "s", str "worker.json", sampleTotal 100, 0, 0, 0, true⟩)⟩
  | .reviewer => ⟨[.control], .ok (sampleReview,
      ⟨str "t", str "review.json", sampleComponents, 0, 0, 0, true⟩)⟩

/-- CI and git as they are for the head of the writer. -/
def runnerReply (w : World) : (q : Question) → Except RunnerError q.Res
  | .headSha => .ok (((w.row sampleRunId).bind (·.headSha)).getD (str "b"))
  | .waitForCi head =>
    if head = CiGate.sampleHead then .ok (.evidence CiGate.sampleEvidence)
    else .error (runtime (str "CI timed out"))
  | .eventsDigest _ => .ok sampleDigest
  | .utcNow => .ok (str "2026-01-01T00:00:00Z")
  | .gitStatus | .eventsPath _ | .resultPath _ | .mergedCommitIfExact _ _
  | .waitForMainDelivery _ => .ok []
  | .validateCompletionPath text | .redactText text _ => .ok text
  | .processIdentity _ | .recoverSessionId _ | .validateUiWorkerPolicy
  | .recoverCompletedResult _ _ => .ok none
  | .remainingSeconds _ => .ok 60
  | .ensurePullRequest _ => .ok (7, str "https://github.invalid/7")
  | .ownIdentity | .containmentRecorded _ _ | .terminateProcessTree _ => .ok true
  | .streamLines _ _ => .ok []
  | .validateAndCommit _ _ | .validateRecoveredCommit _ _ => .ok (CiGate.sampleHead, [])
  | .ownerGateDeadline => .ok (str "2026-01-02T00:00:00Z", 60)
  | .taskForRun | .gitHubClient | .createWorktree | .ensureClaim | .validateIssue
  | .validatePullRequest _ | .markInReview | .markBlocked _ | .pushBranch | .validatePartialFiles
  | .validateUiPrelaunchWorkspace | .fixPrompt | .validateAntigravityContext _
  | .writeFixRequest _ _ => .ok ()

theorem runnerReply_admits (w : World) (q : Question) : q.Admits (runnerReply w q) := by
  cases q with
  | waitForCi head =>
    show (Question.waitForCi head).Admits (if head = CiGate.sampleHead then _ else _)
    split
    · next hhead =>
      subst hhead
      have hexec : Exec CiGate.ciEffect []
          (CiGate.waitForCi 1 CiGate.sampleTask CiGate.sampleHead 60)
          (CiGate.sampleReads [CiGate.sampleJob "success"])
          (.ret (some (.evidence CiGate.sampleEvidence))) :=
        CiGate.sample_exec fun deadline hd => by
          show Prog.run _ (if CiGate.before (.finite 0) deadline then _ else _) _ = _
          rw [if_pos hd]
          rfl
      exact ⟨1, CiGate.sampleTask, 60, _, hexec⟩
    · trivial
  | _ => trivial

instance instLawfulBEqProcess : LawfulBEq Process := inferInstance

/-- What a call returns to a process that is alone. -/
def runnerAnswer (w : World) :
    (op : Process × ServiceOp) → Option (Except RunnerError op.2.Res × World)
  | (_, .store op) => some (ofStore (op.exec w.machine.store).1,
      ⟨⟨(op.exec w.machine.store).2, w.machine.dead, w.machine.used⟩, w.launched,
        w.phases ++ op.phases (op.exec w.machine.store).1⟩)
  | (me, .machine .uuid4) =>
    if str "t" ∈ w.machine.used.map Prod.fst then none
    else some (.ok (str "t"), ⟨⟨w.machine.store, w.machine.dead,
      (str "t", me) :: w.machine.used⟩, w.launched, w.phases⟩)
  | (_, .machine .getRun) => some (ofStore ((selectRun sampleRunId).commit w.machine.store).1, w)
  | (_, .machine (.exec op)) => some (ofStore (op.exec sampleRunId w.machine.store).1,
      ⟨⟨(op.exec sampleRunId w.machine.store).2, w.machine.dead, w.machine.used⟩, w.launched,
        w.phases⟩)
  | (_, .machine (.processMatches process)) => some (.ok (decide (process ∉ w.machine.dead)), w)
  | (_, .machine (.agentContainmentConfirmed _)) => some (.ok true, w)
  | (_, .heartbeat token) =>
    if (w.row sampleRunId).bind (·.processToken) = some token then some (.ok (), w) else none
  | (me, .launch role _ attempt) => some (.ok (sampleAgent role),
      ⟨w.machine, w.launched ++ [w.launch sampleRunId me role attempt], w.phases⟩)
  | (_, .ask q) => some (runnerReply w q, w)
  | (_, .hang) => none

theorem runnerAnswer_effect {w w' : World} {op : Process × ServiceOp}
    {r : Except RunnerError op.2.Res} (halive : op.1 ∉ w.machine.dead)
    (h : runnerAnswer w op = some (r, w')) : ServiceEffect sampleRunId w op r w' := by
  obtain ⟨me, op⟩ := op
  have hages : Ages me w.machine.dead w.machine.dead := sampleAlive halive
  cases op with
  | store op =>
    cases h
    exact .store op hages
  | machine action =>
    cases action with
    | uuid4 =>
      have h : (if str "t" ∈ w.machine.used.map Prod.fst then none else some _) = some (r, w') := h
      split at h
      · cases h
      · next hfresh =>
        cases h
        exact .machine (.uuid4 hages hfresh)
    | getRun =>
      cases h
      exact .machine (.getRun hages)
    | exec op =>
      cases h
      exact .machine (.exec op hages)
    | processMatches process =>
      cases h
      exact .machine (.processMatches process hages)
    | agentContainmentConfirmed run =>
      cases h
      exact .machine (.agentContainmentConfirmed run (.ok true) hages)
  | heartbeat token =>
    have h : (if (w.row sampleRunId).bind (·.processToken) = some token then some (.ok (), w)
      else none) = some (r, w') := h
    split at h
    · next htoken =>
      cases h
      exact .heartbeat hages htoken
    · cases h
  | launch role name attempt =>
    cases h
    exact .launch (sampleAgent role) hages
  | ask q =>
    cases h
    exact .ask hages (runnerReply_admits w q)
  | hang => cases h

def runnerStep (w : World) (op : Process × ServiceOp) :
    Option (Except RunnerError op.2.Res × World) :=
  if op.1 ∈ w.machine.dead then none else runnerAnswer w op

theorem runnerStep_effect (w : World) (op : Process × ServiceOp) (r : Except RunnerError op.2.Res)
    (w' : World) (h : runnerStep w op = some (r, w')) : ServiceEffect sampleRunId w op r w' := by
  unfold runnerStep at h
  split at h
  · cases h
  · next halive => exact runnerAnswer_effect halive h

def sampleWorld : World := ⟨⟨leasedStore [], [], []⟩, [], []⟩

theorem sampleWorld_created : sampleWorld.Created sampleRunId sampleTask :=
  ⟨⟨str "t.json", str "b", str "w", 2, by decide +kernel⟩, rfl, rfl⟩

def sampleRunner : Command := ⟨(1, str "a"), .run 7⟩

def sampleOperator : Command := ⟨(2, str "b"), .setControl .running⟩

/-- The runner, up to some point. -/
def sampleStarted : ServiceProg Unit × World :=
  (Command.body sampleRunId sampleRunner).steps runnerStep 60 sampleWorld

/-- An operator sets the desired state of the run. -/
def sampleControl : ServiceProg Unit × World :=
  (Command.body sampleRunId sampleOperator).steps runnerStep 20 sampleStarted.2

/-- The runner goes on, up to the hand-over. -/
def sampleService : ServiceProg Unit × World :=
  sampleStarted.1.steps runnerStep 200 sampleControl.2

theorem sampleService_run : ∃ tr cfg, Run (serviceSystem sampleRunId) sampleWorld tr cfg ∧
    cfg.store = sampleService.2 ∧
    Beside (serviceSystem sampleRunId) sampleWorld Command.Apart tr :=
  Run.interrupted (A := serviceSystem sampleRunId) (c := sampleRunner) (d := sampleOperator)
    (Exec.of_steps runnerStep_effect 60 _ _) (Exec.of_steps runnerStep_effect 20 _ _)
    (Exec.of_steps runnerStep_effect 200 _ _) (by decide) (by decide)

theorem sampleControl_done :
    (sampleStarted.1 matches .call _ _) = true ∧ (sampleControl.1 matches .ret _) = true := by
  decide +kernel

theorem sampleService_ready :
    (sampleService.2.row sampleRunId).map (·.phase) = some .readyForOwner ∧
    sampleService.2.launched.length = 2 := by
  decide +kernel

theorem handover_vetted_sample :
    ∃ (tr : List (Trans (serviceSystem sampleRunId))) (cfg : Cfg (serviceSystem sampleRunId))
      (row : RunRow), Run (serviceSystem sampleRunId) sampleWorld tr cfg ∧
    cfg.store.row sampleRunId = some row ∧ row.phase = .readyForOwner ∧
    ∃ head, row.headSha = some head ∧ row.reviewedHeadSha = some head ∧
      Vetted sampleRunId head cfg.store.tables.events := by
  obtain ⟨tr, cfg, hrun, hstore, hbeside⟩ := sampleService_run
  obtain ⟨row, hrow, hphase⟩ := Option.map_eq_some_iff.1 sampleService_ready.1
  rw [← hstore] at hrow
  have hgate : row.phase.isGate = true := by rw [hphase]; rfl
  exact ⟨tr, cfg, row, hrun, hrow, hphase,
    handover_vetted hrun sampleWorld_created hbeside hrow hgate⟩

theorem launches_held_sample :
    ∃ (tr : List (Trans (serviceSystem sampleRunId))) (cfg : Cfg (serviceSystem sampleRunId))
      (row : RunRow), Run (serviceSystem sampleRunId) sampleWorld tr cfg ∧
    cfg.store.row sampleRunId = some row ∧ cfg.store.launched.length = 2 ∧
    cfg.store.launched.Pairwise (fun l m => l.attempt < m.attempt) ∧
    (∀ l ∈ cfg.store.launched,
      l.attempt ≤ row.agentInvocations ∧ l.Affordable sampleTask ∧ l.Held) ∧
    (cfg.store.launched.length : Int) ≤ row.agentInvocations ∧
    row.agentInvocations ≤ sampleTask.budget.maxAgentInvocations ∧
    row.fixRounds ≤ sampleTask.budget.maxFixRounds := by
  obtain ⟨tr, cfg, hrun, hstore, hbeside⟩ := sampleService_run
  obtain ⟨row, hrow, -⟩ := Option.map_eq_some_iff.1 sampleService_ready.1
  have hlaunched := sampleService_ready.2
  rw [← hstore] at hrow hlaunched
  exact ⟨tr, cfg, row, hrun, hrow, hlaunched,
    launches_held hrun sampleWorld_created hbeside hrow⟩

end

end NyanShopBot.Orchestrator
