import NyanShopBot.Orchestrator.RunnerWork

/-!
# Outlines of the writer

A writer is launched where the budget affords it (`Goes.runWorker`), and one that was
interrupted is taken up without another launch (`Goes.recoverInterruptedWorker`). Either
way the runner holds the lease in the end.
-/

namespace NyanShopBot.Orchestrator

open Py Db Conc

section

variable [UnicodeData] {s : Service} {task : TaskSpec} {token : Str} {w : World}
  {p : RunPhase} {run : RunRow} {head : Option Str} {rounds : Int}

/-- A phase, and nothing more of the run. -/
abbrev Works (s : Service) (token : Str) (p : RunPhase) : View → Prop :=
  Runs s token p fun _ _ => True

omit [UnicodeData] in
theorem Knows.works {F : Core → List EventRow → Prop}
    (h : Knows s.runId task s.me (Runs s token p F) w) :
    Knows s.runId task s.me (Works s token p) w :=
  h.mono fun _ _ hv => ⟨hv.1, hv.2.1, trivial⟩

theorem Goes.completeWorker {head : Str} {payload : List (Str × Json)}
    (hw : Knows s.runId task s.me (Works s token .workerRunning) w) :
    Holds s task token (s.completeWorker head payload) w := by
  have hwrite := Goes.updateRun [.headSha (some head), .reviewedHeadSha none]
    (G := fun _ _ => True) (.core _) rfl (by simp [RunField.isPlain])
    (fun v hgood _ => ⟨hgood.within.congr rfl rfl rfl rfl, by rintro ⟨⟩, trivial⟩) hw
  refine .bind hwrite fun _ w hw => ?_
  refine .bind (.transition (q := .workerComplete) (.core _) rfl rfl (by rintro ⟨⟩) hw)
    fun _ w hw => ?_
  exact .ends (.core _) rfl (.updateRun (by simp [RunField.isQuiet, RunField.isPlain])) hw

theorem Goes.finishWorker {parent : Str} {invocation : Invocation} {result : WorkerResult}
    {agent : AgentInvocation}
    (hw : Knows s.runId task s.me (Runs s token .workerRunning fun c _ => At head rounds c) w) :
    Holds s task token (s.finishWorker run parent invocation result agent) w := by
  refine .bind (.accountAgent rfl hw) fun record w hw => ?_
  refine Goes.after (.core _) rfl (.appendEvent _ _) hw fun _ w hw => ?_
  refine Goes.after (.core _) rfl (.remainingSeconds _) hw fun _ w hw => ?_
  refine .check .runs hw fun _ => ?_
  refine Goes.after (.core _) rfl (.remainingSeconds _) hw fun _ w hw => ?_
  refine Goes.after (.core _) rfl (.ask _) hw fun commit w hw => ?_
  exact .completeWorker hw.works

/-- What is checked before a writer is launched, the budget first. -/
theorem Goes.prepareWorker {phase : RunPhase} (hp : p.isTerminal = false) (htask : run.task = task)
    (hw : Knows s.runId task s.me (Runs s token p fun c _ => True ∧ run.Matches c) w) :
    Goes s task token (fun _ w => Knows s.runId task s.me
      (Runs s token p fun c _ => True ∧ run.Matches c ∧ Affords task .worker c) w)
      (s.prepareWorker run phase) w := by
  refine .bind (.checkBudget .worker (.core _) hp htask hw) fun _ w hw => ?_
  have hup := Upward.core fun c => True ∧ run.Matches c ∧ Affords task .worker c
  refine Goes.after hup hp .headSha hw fun parent w hw => ?_
  refine .check .runs hw fun _ => .check .runs hw fun _ => ?_
  refine Goes.after hup hp (.whenever (.requireClean _)) hw fun _ w hw => ?_
  refine Goes.after hup hp (.whenever (.ask _)) hw fun _ w hw => ?_
  refine .check .runs hw fun _ => ?_
  refine Goes.after hup hp (.whenever (.requireClean _)) hw fun _ w hw => ?_
  exact Goes.after hup hp .validateUiWorkerPolicy hw fun _ w hw => .pure hw

/-- The number of the next launch is stored, before the agent is launched. -/
theorem Goes.storeAttempt {role : Role} {more : RunField} (hmore : more.isQuiet = true)
    (hp : p.isWork = true) (hat : run.headSha = head ∧ run.fixRounds = rounds)
    (hw : Knows s.runId task s.me
      (Runs s token p fun c _ => run.Matches c ∧ Affords task role c) w) :
    Goes s task token (fun _ w => Knows s.runId task s.me
      (Runs s token p fun c _ => At head rounds c ∧ Ready task role (run.agentInvocations + 1) c) w)
      (s.updateRun [.agentInvocations (run.agentInvocations + 1), more]) w := by
  refine Goes.updateRun _ (.core fun c => run.Matches c ∧ Affords task role c) hp
    (fun f hf => ?_) (fun v hgood hF => ?_) hw
  · rcases List.mem_cons.1 hf with rfl | hf
    · rfl
    · rw [List.mem_singleton.1 hf]
      exact RunField.isPlain_of_isQuiet hmore
  · obtain ⟨hmatches, haffords⟩ := hF
    have hquiet : ∀ f ∈ [more], f.isQuiet = true := by simpa using hmore
    have hcore : v.core.assign [.agentInvocations (run.agentInvocations + 1), more] =
        { v.core with invocations := run.agentInvocations + 1 } :=
      Core.assign_quiet hquiet _
    have hnext : run.agentInvocations + 1 = v.core.invocations + 1 := by
      rw [hmatches.invocations]
    obtain ⟨hwithin, hready⟩ := haffords.ready
      (d := { v.core with invocations := run.agentInvocations + 1 }) hgood.within hgood.task
      rfl rfl hnext rfl rfl rfl
    rw [hcore]
    exact ⟨hwithin, fun _ => rfl, ⟨hmatches.head.trans hat.1, hmatches.fixRounds.trans hat.2⟩,
      hnext.symm ▸ hready⟩

/-- **`runWorker`**, in a phase that a writer is launched from. -/
theorem Goes.runWorker (hp : p.isWork = true)
    (hw : Knows s.runId task s.me (Works s token p) w) :
    Holds s task token (s.runWorker p) w := by
  have hterm := RunPhase.not_isTerminal_of_isWork hp
  refine .bind (.getRun (.core _) hterm hw) fun run w hrun => ?_
  obtain ⟨htask, -, hw⟩ := hrun
  refine .bind (.prepareWorker hterm htask hw) fun parent w hw => ?_
  have hw : Knows s.runId task s.me
      (Runs s token p fun c _ => run.Matches c ∧ Affords task .worker c) w :=
    hw.mono fun v _ hv => ⟨hv.1, hv.2.1, hv.2.2.2⟩
  refine Goes.after (.core _) hterm (.writerName _ _) hw fun name w hw => ?_
  refine Goes.after (.core _) hterm (.remainingSeconds _) hw fun _ w hw => ?_
  refine .bind (.storeAttempt rfl hp ⟨rfl, rfl⟩ hw) fun _ w hw => ?_
  refine .bind (.transition (q := .workerRunning) (.core _) hp rfl (by rintro ⟨⟩) hw)
    fun _ w hw => ?_
  exact .bind (.launch rfl hw) fun out w hw => .finishWorker hw

/-! ## Interrupted writers -/

theorem Goes.reopenWorker {parent name : Str} {unfinished : Bool}
    (hw : Knows s.runId task s.me (Works s token .workerRunning) w) :
    Holds s task token (s.reopenWorker run parent name unfinished) w := by
  refine Goes.after (.core _) rfl (.ask _) hw fun session w hw => ?_
  refine Goes.after (.core _) rfl (.whenever (.ask _)) hw fun _ w hw => ?_
  refine .check .runs hw fun _ => ?_
  refine Goes.after (.core _) rfl (.whenever (.updateRun
    (by simp [RunField.isQuiet, RunField.isPlain]))) hw fun _ w hw => ?_
  refine Goes.after (.core _) rfl (.ask _) hw fun events w hw => ?_
  have hwork : (if run.fixRounds = 0 then RunPhase.claimed else .fixRequested).isWork = true := by
    split <;> rfl
  refine .bind (.transition (.core _) rfl hwork (fun he => ?_) hw) fun _ w hw => ?_
  · split at he <;> cases he
  · exact .ends (.core _) (RunPhase.not_isTerminal_of_isWork hwork)
      (.updateRun (by simp [RunField.isQuiet, RunField.isPlain])) hw

theorem Goes.commitRecovered {parent name : Str} {result : WorkerResult}
    (hw : Knows s.runId task s.me (Works s token .workerRunning) w) :
    Holds s task token (s.commitRecovered run parent name result) w := by
  refine .check .runs hw fun _ => ?_
  refine Goes.after (.core _) rfl (.attempt (.bind (.remainingSeconds _) fun _ => .ask _)) hw
    fun r w hw => ?_
  cases r with
  | ok commit => exact .completeWorker hw
  | error e =>
    show Goes s task token _ (if e.isRuntime = true then _ else _) w
    split
    · refine Goes.after (.core _) rfl .headSha hw fun head w hw => ?_
      exact .check .runs hw fun _ => .reopenWorker hw
    · exact .raise .runs hw

theorem Goes.adoptCommit {parent : Str} {invocation : Invocation}
    {recovered : Option (Recovered .worker)}
    (hw : Knows s.runId task s.me (Runs s token .workerRunning fun c _ => At head rounds c) w) :
    Holds s task token (s.adoptCommit run parent invocation recovered) w := by
  cases recovered with
  | none => exact .raise .runs hw
  | some recovered =>
    obtain ⟨result, session, usage⟩ := recovered
    refine Goes.after (.core _) rfl (.ensure _ _) hw fun _ w hw => ?_
    refine .bind (.accountInvocation rfl hw) fun _ w hw => ?_
    refine Goes.after (.core _) rfl (.remainingSeconds _) hw fun _ w hw => ?_
    refine Goes.after (.core _) rfl (.ask _) hw fun commit w hw => ?_
    exact .completeWorker hw.works

theorem Goes.takeUpWorker {parent : Str} {invocation : Invocation}
    {recovered : Option (Recovered .worker)}
    (hw : Knows s.runId task s.me (Runs s token .workerRunning fun c _ => At head rounds c) w) :
    Holds s task token (s.takeUpWorker run parent invocation recovered) w := by
  cases recovered with
  | none => exact .reopenWorker hw.works
  | some recovered =>
    obtain ⟨result, session, usage⟩ := recovered
    refine Goes.after (.core _) rfl (.ensure _ _) hw fun _ w hw => ?_
    exact .bind (.accountInvocation rfl hw) fun _ w hw => .commitRecovered hw.works

theorem Goes.recoverInterruptedWorker
    (hw : Knows s.runId task s.me (Works s token .workerRunning) w) :
    Holds s task token s.recoverInterruptedWorker w := by
  refine .bind (.getRun (.core _) rfl hw) fun run w hrun => ?_
  have hw : Knows s.runId task s.me
      (Runs s token .workerRunning fun c _ => At run.headSha run.fixRounds c) w :=
    hrun.2.2.mono fun v _ hv => ⟨hv.1, hv.2.1, hv.2.2.2.head, hv.2.2.2.fixRounds⟩
  refine .getOrRaise hw fun parent _ => ?_
  refine Goes.after (.core _) rfl (.remainingSeconds _) hw fun _ w hw => ?_
  refine Goes.after (.core _) rfl (.replayInvocationActivity _) hw fun _ w hw => ?_
  refine Goes.after (.core _) rfl (.ask _) hw fun head w hw => ?_
  refine Goes.after (.core _) rfl (.ask _) hw fun recovered w hw => ?_
  refine Goes.after (.core _) rfl (.whenever (.ask _)) hw fun _ w hw => ?_
  show Goes s task token _ (if head = parent then _ else _) w
  split
  · exact .takeUpWorker hw
  · exact .adoptCommit hw

end

end NyanShopBot.Orchestrator
