import NyanShopBot.Orchestrator.RunnerOps

/-!
# Calls beside others

`Guarantee` is what every step of a process does and `Rely` what it may expect of the steps
beside it. `Knows P` says that `P` holds of the view of the run for as long as the process
has not exited; `Lasting` assertions survive the others (`Lasting.stable`). `keeps_call` is
the rule of one call and `keeps_quiet` that of a program which makes quiet calls only, as
most of the runner's do (`Quietly`).
-/

namespace NyanShopBot.Orchestrator

open Py Db Conc

/-! ## Rely and guarantee -/

section definitions

variable (runId : Str) (task : TaskSpec) (me : Process) (resumes : Bool)

def Guarantee (w w' : World) : Prop :=
  (∀ p ∈ w.machine.dead, p ∈ w'.machine.dead) ∧
    ∀ v, w.view runId = some v → v.Good runId task → ∃ v', w'.view runId = some v' ∧
      v.Steps runId task me resumes w'.machine.dead v'

/-- What a view is after a step beside `me`. -/
structure View.Beside (v v' : View) : Prop where
  log : v.log <+: v'.log
  good : v.Good runId task
  spares : ∀ token, v.holder = some (token, me) → v.Spares v'
  abides : resumes = true → v.Abides v'

def Rely (w w' : World) : Prop :=
  (∀ p ∈ w.machine.dead, p ∈ w'.machine.dead) ∧
    ∀ v, w.view runId = some v → v.Good runId task → ∃ v', w'.view runId = some v' ∧
      v'.Good runId task ∧ (me ∉ w'.machine.dead → v.Beside runId task me resumes v')

/-- `P` holds of the view, unless the process has exited. -/
def Knows (P : View → Prop) (w : World) : Prop :=
  ∃ v, w.view runId = some v ∧ v.Good runId task ∧ (me ∉ w.machine.dead → P v)

def Lasting (P : View → Prop) : Prop :=
  ∀ v v', v.Beside runId task me resumes v' → P v → P v'

end definitions

section rules

variable {runId : Str} {task : TaskSpec} {me : Process} {resumes : Bool} {P R : View → Prop}
  {w w' : World} {v v' : View}

theorem Knows.mono (h : Knows runId task me P w) (hPR : ∀ v, v.Good runId task → P v → R v) :
    Knows runId task me R w := by
  obtain ⟨v, hv, hgood, hP⟩ := h
  exact ⟨v, hv, hgood, fun hme => hPR v hgood (hP hme)⟩

theorem Knows.any (h : Knows runId task me P w) : Knows runId task me (fun _ => True) w :=
  h.mono fun _ _ _ => trivial

theorem Lasting.stable (hP : Lasting runId task me resumes P) :
    Stable (Rely runId task me resumes) (Knows runId task me P) := by
  rintro w w' ⟨hdead, hview⟩ ⟨v, hv, hgood, hPv⟩
  obtain ⟨v', hv', hgood', hbeside⟩ := hview v hv hgood
  refine ⟨v', hv', hgood', fun hme => hP v v' (hbeside hme) (hPv fun hin => ?_)⟩
  exact hme (hdead me hin)

/-- The steps of a process are those that another may expect. -/
theorem Guarantee.rely {me' : Process} {resumes' : Bool} (hne : me ≠ me')
    (hresumes : ¬ (resumes = true ∧ resumes' = true))
    (h : Guarantee runId task me resumes w w') : Rely runId task me' resumes' w w' := by
  refine ⟨h.1, fun v hv hgood => ?_⟩
  obtain ⟨v', hv', hsteps⟩ := h.2 v hv hgood
  refine ⟨v', hv', hsteps.good, fun hme => ⟨hsteps.log, hgood, fun token hheld => ?_, fun he => ?_⟩⟩
  · exact hsteps.others token me' hheld (Ne.symm hne) hme
  · cases resumes with
    | false => exact hsteps.abides rfl
    | true => exact absurd ⟨rfl, he⟩ hresumes

theorem View.Quiet.beside (h : v.Quiet v') (hgood : v.Good runId task) :
    v.Beside runId task me resumes v' where
  log := h.log
  good := hgood
  spares _ _ := ⟨h.holder, .inr ⟨h.core, .inl h.mark⟩⟩
  abides _ := ⟨by rw [h.core]; exact id, by rw [h.mark]; exact id⟩

theorem Lasting.any : Lasting runId task me resumes fun _ => True := fun _ _ _ _ => trivial

theorem Lasting.and (hP : Lasting runId task me resumes P) (hR : Lasting runId task me resumes R) :
    Lasting runId task me resumes fun v => P v ∧ R v :=
  fun v v' h hv => ⟨hP v v' h hv.1, hR v v' h hv.2⟩

end rules

/-! ## One call -/

section calls

variable [UnicodeData] {s : Service} {task : TaskSpec} {resumes : Bool} {P : View → Prop}
  {w : World} {α : Type}

/-- A program of a process, beside others. -/
abbrev Does (s : Service) (task : TaskSpec) (resumes : Bool)
    (Q : Except RunnerError α → World → Prop) (p : ServiceProg α) (w : World) : Prop :=
  Keeps (ServiceEffect s.runId) (Rely s.runId task s.me resumes)
    (Guarantee s.runId task s.me resumes) Q p w

/-- **One call**, from a lasting assertion to what the call leaves and returns. -/
theorem keeps_call {o : ServiceOp} {Q : Except RunnerError o.Res → View → Prop}
    {F : Except RunnerError o.Res → Prop} (hP : Lasting s.runId task s.me resumes P)
    (h : ∀ w w' v r, ServiceEffect s.runId w (s.me, o) r w' → w.view s.runId = some v →
      v.Good s.runId task → P v → ∃ v', w'.view s.runId = some v' ∧
        v.Steps s.runId task s.me resumes w'.machine.dead v' ∧ Q r v' ∧ F r)
    (hw : Knows s.runId task s.me P w) :
    Does s task resumes (fun r w => Knows s.runId task s.me (Q r) w ∧ F r) (s.await o) w := by
  refine keeps_perform (S := serviceSig) (o := (s.me, o)) hP.stable hw fun w r w' hw heff => ?_
  have hages := heff.ages
  obtain ⟨v, hv, hgood, hPv⟩ := hw
  have halive : s.me ∉ w.machine.dead := fun hin => hages.alive (hages.grows _ hin)
  obtain ⟨v', hv', hsteps, hQ, hF⟩ := h w w' v r heff hv hgood (hPv halive)
  refine ⟨⟨hages.grows, fun v₀ hv₀ _ => ?_⟩, ⟨v', hv', hsteps.good, fun _ => hQ⟩, hF⟩
  obtain rfl := Option.some.inj (hv.symm.trans hv₀)
  exact ⟨v', hv', hsteps⟩

/-- A program that makes quiet calls only, and ends in `R`. -/
abbrev QuietProg (s : Service) (R : Except RunnerError α → Prop) (p : ServiceProg α) : Prop :=
  Calls (S := serviceSig) (fun op => op.1 = s.me ∧ op.2.IsQuiet s.runId) R p

/-- **A quiet program** keeps what lasts. -/
theorem keeps_quiet {R : Except RunnerError α → Prop} {p : ServiceProg α}
    (hP : Lasting s.runId task s.me resumes P) (hp : QuietProg s R p)
    (hw : Knows s.runId task s.me P w) :
    Does s task resumes (fun r w => Knows s.runId task s.me P w ∧ R r) p w := by
  refine keeps_frame hP.stable
    (C := fun op : Process × ServiceOp => op.1 = s.me ∧ op.2.IsQuiet s.runId)
    (fun op hop w r w' hw heff => ?_) hp hw
  obtain ⟨me, op⟩ := op
  obtain ⟨rfl, hquiet⟩ : me = s.me ∧ op.IsQuiet s.runId := hop
  have hages := heff.ages
  obtain ⟨v, hv, hgood, hPv⟩ := hw
  obtain ⟨v', hv', hq⟩ := heff.quiet hquiet hv
  refine ⟨⟨hages.grows, fun v₀ hv₀ _ => ?_⟩, v', hv', hgood.quiet hq, fun hme => ?_⟩
  · obtain rfl := Option.some.inj (hv.symm.trans hv₀)
    exact ⟨v', hv', hq.steps hgood⟩
  · exact hP v v' (hq.beside hgood) (hPv fun hin => hages.alive (hages.grows _ hin))

end calls

/-! ## Quiet programs -/

/-- The program makes quiet calls only. -/
def Quietly {α : Type} (s : Service) (p : ServiceProg α) : Prop := QuietProg s (fun _ => True) p

namespace Quietly

variable {s : Service} {α β : Type}

theorem bind {p : ServiceProg α} {f : α → ServiceProg β} (hp : Quietly s p)
    (hf : ∀ a, Quietly s (f a)) : Quietly s (p >>= f) :=
  calls_bind hp (fun a _ => hf a) fun _ _ => trivial

theorem pure (a : α) : Quietly s (Pure.pure a) := trivial

theorem raise (e : RunnerError) : Quietly s (.raise e : ServiceProg α) := trivial

theorem ofExcept (r : Except RunnerError α) : Quietly s (.ofExcept r) :=
  wp_ofExcept.2 trivial

theorem ensure (c : Prop) [Decidable c] (e : RunnerError) : Quietly s (.ensure c e) :=
  wp_ensure.2 ⟨fun _ => trivial, fun _ => trivial⟩

theorem attempt {p : ServiceProg α} (hp : Quietly s p) : Quietly s p.attempt := wp_attempt.2 hp

theorem ite {c : Prop} [Decidable c] {p q : ServiceProg α} (hp : Quietly s p)
    (hq : Quietly s q) : Quietly s (if c then p else q) := by
  split <;> assumption

theorem whenever {c : Prop} [Decidable c] {p : ServiceProg Unit} (hp : Quietly s p) :
    Quietly s (whenever c p) := ite hp (pure ())

theorem getOrRaise (message : Str) (o : Option α) : Quietly s (getOrRaise message o) := by
  cases o <;> trivial

theorem await {op : ServiceOp} (h : op.IsQuiet s.runId) : Quietly s (s.await op) :=
  calls_perform ⟨rfl, h⟩

theorem ask (q : Question) : Quietly s (s.ask q) := await trivial

theorem getRun : Quietly s s.getRun := await trivial

theorem appendEvent (kind : Str) (payload : List (Str × Json)) :
    Quietly s (s.appendEvent kind payload) := await trivial

theorem updateRun {values : List RunField} (h : ∀ f ∈ values, f.isQuiet = true) :
    Quietly s (s.updateRun values) := await ⟨rfl, h⟩

theorem stop (payload : List (Str × Json)) : Quietly s (s.transition .stopped payload) :=
  await ⟨rfl, rfl⟩

theorem remainingSeconds (cap : Option Int) : Quietly s (s.remainingSeconds cap) := ask _

theorem headSha : Quietly s s.headSha := bind (remainingSeconds _) fun _ => ask _

theorem gitStatus : Quietly s s.gitStatus := bind (remainingSeconds _) fun _ => ask _

theorem requireHead (expected message : Str) : Quietly s (s.requireHead expected message) :=
  bind headSha fun _ => ensure _ _

theorem requireClean (message : Str) : Quietly s (s.requireClean message) :=
  bind gitStatus fun _ => ensure _ _

theorem setDesiredState (desired : DesiredState) : Quietly s (s.setDesiredState desired) :=
  bind (updateRun (by simp [RunField.isQuiet, RunField.isPlain])) fun _ => appendEvent _ _

theorem desiredState : Quietly s s.desiredState := bind getRun fun _ => pure _

theorem beat (lease : Option Str) : Quietly s (s.beat lease) := by
  cases lease with
  | none => exact pure ()
  | some token => exact await trivial

theorem controlState : Quietly s s.controlState := bind (beat _) fun _ => desiredState

theorem checkpointControl : Quietly s s.checkpointControl :=
  bind controlState fun _ => bind (ensure _ _) fun _ => ensure _ _

theorem clearIdleAgent (run : RunRow) (pid : Int) : Quietly s (s.clearIdleAgent run pid) := by
  unfold Service.clearIdleAgent
  cases run.activeAgentIdentity with
  | none => exact bind (appendEvent _ _) fun _ => pure _
  | some identity =>
    refine bind (await trivial) fun live => ite (bind (appendEvent _ _) fun _ => pure _) ?_
    refine bind (await trivial) fun confirmed => ite (bind (appendEvent _ _) fun _ => pure _) ?_
    cases run.processToken with
    | none => exact bind (appendEvent _ _) fun _ => pure _
    | some token => exact bind (await rfl) fun _ => pure _

theorem releaseClaimIfAgentIdle : Quietly s s.releaseClaimIfAgentIdle := by
  refine bind getRun fun run => bind ?_ fun idle => ite (bind (await trivial) fun _ => pure _)
    (pure _)
  unfold Service.agentIdle
  cases run.activeAgentPid with
  | none => exact pure _
  | some pid => exact clearIdleAgent run pid

theorem stopRun : Quietly s s.stopRun :=
  bind getRun fun _ => ite (pure ()) (bind releaseClaimIfAgentIdle fun _ =>
    ite (appendEvent _ _) (stop _))

theorem noteUnreported (r : Except RunnerError Unit) : Quietly s (s.noteUnreported r) := by
  cases r with
  | ok _ => exact pure ()
  | error e => exact ite (bind (ask _) fun _ => appendEvent _ _) (raise e)

theorem finally' {p : ServiceProg α} {final : ServiceProg Unit} (hp : Quietly s p)
    (hfinal : Quietly s final) : Quietly s (finally' p final) :=
  bind (attempt hp) fun _ => bind hfinal fun _ => ofExcept _

/-! ### Activity and agents -/

theorem recordActivityLine (run : RunRow) (invocation : Invocation) (commitSha : Str)
    (line : StreamLine) : Quietly s (s.recordActivityLine run invocation commitSha line) := by
  unfold Service.recordActivityLine
  cases line.normalized with
  | none => exact pure _
  | some normalized => exact await rfl

theorem recordLines (run : RunRow) (invocation : Invocation) (commitSha : Str) :
    ∀ lines : List StreamLine, Quietly s (s.recordLines run invocation commitSha lines)
  | [] => pure ()
  | line :: lines => bind (recordActivityLine run invocation commitSha line) fun _ =>
    recordLines run invocation commitSha lines

theorem replayInvocationActivity (invocation : Invocation) :
    Quietly s (s.replayInvocationActivity invocation) :=
  bind getRun fun _ => bind (ask _) fun _ => bind (recordLines _ _ _ _) fun _ =>
    bind (ask _) fun _ => recordLines _ _ _ _

theorem agentStarted (agent : Agent) : Quietly s (s.agentStarted agent) :=
  bind (getOrRaise _ _) fun _ => bind (ask _) fun _ => bind (ensure _ _) fun _ =>
    bind (ask _) fun _ => await rfl

theorem agentFinished (agent : Agent) : Quietly s (s.agentFinished agent) :=
  bind (getOrRaise _ _) fun _ => bind getRun fun _ => bind (getOrRaise _ _) fun _ =>
    bind (ensure _ _) fun _ => bind (ask _) fun _ => bind (ensure _ _) fun _ =>
    bind (ensure _ _) fun _ => bind (ask _) fun _ => bind (ensure _ _) fun _ => await rfl

theorem callback (run : RunRow) (invocation : Invocation) (commitSha : Str) (c : Callback) :
    Quietly s (s.callback run invocation commitSha c) := by
  cases c with
  | processStart agent => exact agentStarted agent
  | processEnd agent => exact agentFinished agent
  | control => exact bind controlState fun _ => pure ()
  | streamLine line => exact bind (recordActivityLine _ _ _ _) fun _ => pure ()

theorem callbacks (run : RunRow) (invocation : Invocation) (commitSha : Str) :
    ∀ cs : List Callback, Quietly s (s.callbacks run invocation commitSha cs)
  | [] => pure ()
  | c :: cs => bind (attempt (callback run invocation commitSha c)) fun _ =>
    callbacks run invocation commitSha cs

/-! ### Checks -/

theorem validateUiWorkerPolicy : Quietly s s.validateUiWorkerPolicy := by
  refine bind (ask _) fun verified => ?_
  cases verified with
  | none => exact pure ()
  | some payload => exact bind (appendEvent _ _) fun _ => ask _

theorem writerName (run : RunRow) (phase : RunPhase) :
    Quietly s (s.writerName run phase) :=
  ite (pure _) (bind (getOrRaise _ _) fun _ => bind (ask _) fun _ => pure _)

theorem preferControl (r : Except RunnerError Unit) : Quietly s (s.preferControl r) := by
  cases r with
  | ok _ => exact pure ()
  | error e => exact ite (bind checkpointControl fun _ => raise e) (raise e)

theorem mainDelivery (run : RunRow) (mergeSha : Str) :
    Quietly s (s.mainDelivery run mergeSha) :=
  ite (bind (remainingSeconds _) fun _ => bind (ask _) fun _ => bind (appendEvent _ _) fun _ =>
    pure _) (pure _)

theorem agentPaused (message : Str) : Quietly s (s.agentPaused message) := by
  refine bind (appendEvent _ _) fun _ => bind desiredState fun desired => ?_
  cases desired with
  | running => exact bind (appendEvent _ _) fun _ => pure _
  | paused => exact pure _
  | stopped => exact bind stopRun fun _ => pure _

theorem controllerLive (run : RunRow) : Quietly s (s.controllerLive run) := by
  unfold Service.controllerLive
  cases run.pid with
  | none => exact pure _
  | some pid =>
    cases run.processIdentity with
    | none => exact pure _
    | some identity => exact await trivial

theorem terminateAgent (process : Process) : Quietly s (s.terminateAgent process) :=
  bind (appendEvent _ _) fun _ => bind (ask _) fun _ => bind (ensure _ _) fun _ =>
    bind getRun fun _ => bind (await trivial) fun _ => ensure _ _

theorem stopOrphanProcess : Quietly s s.stopOrphanProcess := by
  refine bind getRun fun run => ?_
  split
  · exact pure ()
  · exact raise _
  · exact bind (await trivial) fun _ => whenever (terminateAgent _)

end Quietly

end NyanShopBot.Orchestrator
