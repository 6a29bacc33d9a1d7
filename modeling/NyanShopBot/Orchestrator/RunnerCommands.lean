import NyanShopBot.Orchestrator.RunnerSteps

/-!
# Outlines of the commands

A command of an operator does not hold the lease. `Fine` programs keep the invariant and
need no more; `setControl` and `prepareProcessLaunch` are of that kind, since a lease that
they clear was of a process that has exited. `resumeRun` moves a run that was handed over,
or one that is blocked; both stay what they are while it works, as long as no other resume
does.
-/

namespace NyanShopBot.Orchestrator

open Py Db Conc

section

variable [UnicodeData] {s : Service} {task : TaskSpec} {resumes : Bool} {P : View → Prop}
  {w : World} {α β : Type}

/-! ## Reading the row -/

/-- What a row that was read says of the view. -/
structure RunRow.Shows (run : RunRow) (v : View) : Prop where
  task : v.core.task = run.task
  phase : v.phase = run.phase
  head : v.core.head = run.headSha
  reviewed : v.core.reviewed = run.reviewedHeadSha
  fixRounds : v.core.fixRounds = run.fixRounds
  invocations : v.core.invocations = run.agentInvocations
  spent : v.core.spent = run.enforceableTokens

/-- What is known where the row was read: it showed a view where `P` held, and `K` still
does. -/
def Read (s : Service) (task : TaskSpec) (P : View → Prop) (K : RunRow → View → Prop)
    (r : Except RunnerError RunRow) (w : World) : Prop :=
  match r with
  | .ok run => Knows s.runId task s.me (K run) w ∧
    ∃ v, v.Good s.runId task ∧ P v ∧ run.Shows v
  | .error _ => Knows s.runId task s.me P w

theorem keeps_getRun {K : RunRow → View → Prop} (hP : Lasting s.runId task s.me resumes P)
    (hK : ∀ run v, v.Good s.runId task → P v → run.Shows v → K run v)
    (hw : Knows s.runId task s.me P w) :
    Does s task resumes (Read s task P K) s.getRun w := by
  refine keeps_mono (fun r w h => ?_) (keeps_call (o := .machine .getRun)
    (Q := fun r v => match r with
      | .ok run => K run v
      | .error _ => P v)
    (F := fun r : Except RunnerError RunRow => ∀ run, r = .ok run → ∃ v, v.Good s.runId task ∧
      P v ∧ run.Shows v) hP (fun w w' v r h hv hgood hPv => ?_) hw)
  · cases r with
    | ok run => exact ⟨h.1, h.2 run rfl⟩
    | error e => exact h.1
  · cases h with
    | machine h =>
      cases h with
      | getRun hages =>
        refine ⟨v, hv, (View.Quiet.refl v).steps hgood, ?_⟩
        obtain ⟨row, hrow, rfl⟩ := view_eq_some.1 hv
        rcases Tx.commit_cases (selectRun s.runId) w.machine.store with
          ⟨e, he⟩ | ⟨run, s', he, hsel⟩
        · rw [he]
          exact ⟨hPv, by rintro _ ⟨⟩⟩
        · rw [he]
          obtain rfl := Option.some.inj (hrow.symm.trans (selectRun_ok hsel).1)
          have hshows : row.Shows (w.machine.store.1.viewOf s.runId w.launched w.phases row) :=
            ⟨rfl, rfl, rfl, rfl, rfl, rfl, rfl⟩
          refine ⟨hK row _ hgood hPv hshows, fun run hrun => ?_⟩
          obtain rfl := Except.ok.inj hrun
          exact ⟨_, hgood, hPv, hshows⟩

/-! ## Programs that keep the invariant -/

/-- The program keeps the invariant, whatever it does. -/
def Fine (s : Service) (task : TaskSpec) (resumes : Bool) (p : ServiceProg α) : Prop :=
  ∀ w, Knows s.runId task s.me (fun _ => True) w →
    Does s task resumes (fun _ w => Knows s.runId task s.me (fun _ => True) w) p w

namespace Fine

theorem quietly {p : ServiceProg α} (hp : Quietly s p) : Fine s task resumes p := fun _ hw =>
  keeps_mono (fun _ _ h => h.1) (keeps_quiet Lasting.any hp hw)

theorem bind {p : ServiceProg α} {f : α → ServiceProg β} (hp : Fine s task resumes p)
    (hf : ∀ a, Fine s task resumes (f a)) : Fine s task resumes (p >>= f) := fun w hw =>
  keeps_bind (fun a w h => hf a w h) (fun _ _ h => h) (hp w hw)

theorem ite {c : Prop} [Decidable c] {p q : ServiceProg α} (hp : Fine s task resumes p)
    (hq : Fine s task resumes q) : Fine s task resumes (if c then p else q) := by
  split <;> assumption

theorem whenever {c : Prop} [Decidable c] {p : ServiceProg Unit} (hp : Fine s task resumes p) :
    Fine s task resumes (whenever c p) := ite hp (quietly (.pure ()))

end Fine

/-! ## Stale leases -/

omit [UnicodeData] in
theorem ofLease_bind {p : LeaseProg α} {f : α → LeaseProg β} :
    ofLease (p >>= f) = ofLease p >>= fun a => ofLease (f a) := by
  show ofLease (p.bind f) = (ofLease p).bind fun a => ofLease (f a)
  induction p with
  | ret a => rfl
  | raise e => rfl
  | call op k ih =>
    obtain ⟨me, action⟩ := op
    show ofLease (.call (me, action) fun r => (k r).bind f) = _
    rw [ofLease.eq_def, ofLease.eq_def (.call (me, action) k)]
    show Prog.call _ _ = Prog.call _ _
    congr 1
    funext r
    cases r with
    | ok a => exact ih (.ok a)
    | error e =>
      cases e with
      | store e => exact ih (.error e)
      | _ => rfl

omit [UnicodeData] in
theorem ofLease_await (action : LeaseAction) :
    ofLease (awaitLease s.me action) = s.await (.machine action) := by
  show ofLease (.call (s.me, action) _) = _
  rw [ofLease.eq_def]
  show Prog.call _ _ = Prog.call _ _
  congr 1
  funext r
  cases r with
  | ok a => rfl
  | error e => cases e <;> rfl

omit [UnicodeData] in
theorem ofLease_ensure {c : Prop} [Decidable c] {e : StoreError} :
    ofLease (.ensure c e) = .ensure c (.store e) := by
  unfold Prog.ensure
  split <;> rfl

omit [UnicodeData] in
theorem Quietly.lease {p : LeaseProg α} {f : α → LeaseProg β} (hp : Quietly s (ofLease p))
    (hf : ∀ a, Quietly s (ofLease (f a))) : Quietly s (ofLease (p >>= f)) := by
  rw [ofLease_bind]
  exact bind hp hf

omit [UnicodeData] in
theorem Quietly.leaseAwait {action : LeaseAction} (h : (ServiceOp.machine action).IsQuiet s.runId) :
    Quietly s (ofLease (awaitLease s.me action)) := by
  rw [ofLease_await]
  exact await h

omit [UnicodeData] in
theorem Quietly.leaseEnsure {c : Prop} [Decidable c] {e : StoreError} :
    Quietly s (ofLease (.ensure c e)) := by
  rw [ofLease_ensure]
  exact ensure c _

/-- A program of the lease after another goes on where that one ends. -/
theorem keeps_lease {Q : Except RunnerError β → World → Prop}
    {R : Except RunnerError α → World → Prop} {p : LeaseProg α} {f : α → LeaseProg β}
    (hp : Does s task resumes R (ofLease p) w)
    (hok : ∀ a w, R (.ok a) w → Does s task resumes Q (ofLease (f a)) w)
    (herr : ∀ e w, R (.error e) w → Q (.error e) w) :
    Does s task resumes Q (ofLease (p >>= f)) w := by
  rw [ofLease_bind]
  exact keeps_bind hok herr hp

theorem keeps_leaseAwait {action : LeaseAction} {Q : Except RunnerError action.Res → World → Prop}
    (h : Does s task resumes Q (s.await (.machine action)) w) :
    Does s task resumes Q (ofLease (awaitLease s.me action)) w := by
  rw [ofLease_await]
  exact h

/-- What `process_matches` has said of a process that is not there. -/
theorem processMatches_keeps (p : Process) (hw : Knows s.runId task s.me (fun _ => True) w) :
    Does s task resumes (fun r w => Knows s.runId task s.me (fun _ => True) w ∧
      (r = .ok false → p ∈ w.machine.dead)) (s.await (.machine (.processMatches p))) w := by
  refine keeps_perform (S := serviceSig) (o := (s.me, .machine (.processMatches p)))
    Lasting.any.stable hw fun w r w' hw heff => ?_
  have hages := heff.ages
  obtain ⟨v, hv, hgood, -⟩ := hw
  cases heff with
  | machine h =>
    cases h with
    | processMatches =>
      refine ⟨⟨hages.grows, fun v₀ hv₀ hgood₀ => ⟨v₀, hv₀, (View.Quiet.refl v₀).steps hgood₀⟩⟩,
        ⟨v, hv, hgood, fun _ => trivial⟩, fun he => ?_⟩
      exact of_not_not (of_decide_eq_false (Except.ok.inj he))
    | processMatchesRaises =>
      refine ⟨⟨hages.grows, fun v₀ hv₀ hgood₀ => ⟨v₀, hv₀, (View.Quiet.refl v₀).steps hgood₀⟩⟩,
        ⟨v, hv, hgood, fun _ => trivial⟩, ?_⟩
      rintro ⟨⟩

theorem leaseEnsure_keeps {c : Prop} [Decidable c] {e : StoreError} :
    Does s task resumes (fun r w' => w' = w ∧ (r = .ok () → c)) (ofLease (.ensure c e)) w := by
  rw [ofLease_ensure]
  refine keeps_ensure (fun hc => ⟨rfl, fun _ => hc⟩) fun _ => ⟨rfl, ?_⟩
  rintro ⟨⟩

/-- A process that was not there when it was looked for has exited. -/
theorem staleRunner_keeps (run : RunRow) (hw : Knows s.runId task s.me (fun _ => True) w) :
    Does s task resumes (fun r w => Knows s.runId task s.me (fun _ => True) w ∧
      ∀ p, r = .ok (some p) → p ∈ w.machine.dead) (ofLease (staleRunner s.me run)) w := by
  unfold staleRunner
  cases run.pid with
  | none => exact ⟨hw, fun p hp => by cases hp⟩
  | some pid =>
    cases run.processIdentity with
    | none => exact ⟨hw, fun p hp => by cases hp⟩
    | some identity =>
      refine keeps_lease (p := identityOf _ (some identity)) (R := fun r w => r = .ok identity ∧
        Knows s.runId task s.me (fun _ => True) w) ⟨rfl, hw⟩ (fun id w hid => ?_)
        fun e w h => by cases h.1
      obtain rfl := Except.ok.inj hid.1
      refine keeps_lease (keeps_leaseAwait (processMatches_keeps (pid, id) hid.2))
        (fun live w h => ?_) fun e w h => ⟨h.1, fun p hp => by cases hp⟩
      refine keeps_lease leaseEnsure_keeps (fun _ w' hlive => ?_) fun e w' he => ?_
      · obtain ⟨rfl, hlive⟩ := hlive
        refine ⟨h.1, fun p hp => ?_⟩
        cases hp
        exact h.2 (by rw [hlive rfl])
      · obtain ⟨rfl, -⟩ := he
        exact ⟨h.1, fun p hp => by cases hp⟩

omit [UnicodeData] in
theorem clearStaleAgent_quiet (run : RunRow) : Quietly s (ofLease (clearStaleAgent s.me run)) := by
  unfold clearStaleAgent
  cases run.activeAgentPid with
  | none => exact .pure ()
  | some pid =>
    cases run.activeAgentIdentity with
    | none => exact .raise _
    | some identity =>
      refine .lease (.pure identity) fun identity => ?_
      refine .lease (.leaseAwait (by trivial)) fun live => .lease .leaseEnsure fun _ => ?_
      refine .lease (.leaseAwait (by trivial)) fun confirmed => .lease .leaseEnsure fun _ => ?_
      cases run.processToken with
      | none => exact .raise _
      | some token => exact .leaseAwait rfl

/-- The lease that is cleared was of a process that has exited. -/
theorem clearStaleLease_keeps (run : RunRow) (runner : Option Process)
    (hw : Knows s.runId task s.me (fun _ => True) w ∧ ∀ p ∈ runner, p ∈ w.machine.dead) :
    Does s task resumes (fun _ w => Knows s.runId task s.me (fun _ => True) w)
      (ofLease (clearStaleLease s.me run runner)) w := by
  unfold clearStaleLease
  cases run.processToken with
  | none =>
    cases runner with
    | none =>
      rw [ofLease_ensure]
      exact keeps_ensure (fun _ => hw.1) fun _ => hw.1
    | some p => exact hw.1
  | some token =>
    cases runner with
    | none => exact hw.1
    | some p =>
      obtain ⟨pid, identity⟩ := p
      show Does s task resumes _ (ofLease (awaitLease s.me
        (.exec (.clearStaleProcessLease pid identity token)))) w
      rw [ofLease_await]
      have hstable : Stable (Rely s.runId task s.me resumes) fun w =>
          (pid, identity) ∈ w.machine.dead := fun w w' h hin => h.1 _ hin
      refine keeps_perform (S := serviceSig)
        (o := (s.me, .machine (.exec (.clearStaleProcessLease pid identity token))))
        (Lasting.any.stable.and hstable) ⟨hw.1, hw.2 _ rfl⟩ fun w r w' hw heff => ?_
      have hages := heff.ages
      obtain ⟨⟨v, hv, hgood, -⟩, hdead⟩ := hw
      have hsteps : ∃ v', w'.view s.runId = some v' ∧
          v.Steps s.runId task s.me resumes w'.machine.dead v' := by
        rcases heff.lease_cases hv with ⟨e, -, hsame⟩ |
          ⟨-, v', row, row', hv', hmove, hrow, hrow', hcore, hmark, hphase, hlog⟩
        · exact ⟨v, hsame, (View.Quiet.refl v).steps hgood⟩
        · refine ⟨v', hv', hlog, hgood.keep hcore hmark (.inl hphase) hlog,
            fun token' q hq _ hq' => ?_,
              fun _ => ⟨by rw [hcore]; exact id, by rw [hmark]; exact id⟩⟩
          cases hmove with
          | staleLeaseCleared hpid hidentity htoken =>
            have hholder : row.holder = some (token, (pid, identity)) := by
              unfold RunRow.holder
              rw [htoken, hpid, hidentity]
              rfl
            rw [← hrow, hholder] at hq
            cases hq
            exact absurd (hages.grows _ hdead) hq'
      obtain ⟨v', hv', hsteps⟩ := hsteps
      refine ⟨⟨hages.grows, fun v₀ hv₀ _ => ?_⟩, v', hv', hsteps.good, fun _ => trivial⟩
      obtain rfl := Option.some.inj (hv.symm.trans hv₀)
      exact ⟨v', hv', hsteps⟩

/-- `clearStaleProcessState` spares a process that has not exited. -/
theorem Fine.clearStaleProcessState : Fine s task resumes s.clearStaleProcessState := by
  intro w hw
  have hread : Quietly s (ofLease (awaitLease s.me .getRun)) := .leaseAwait trivial
  refine keeps_lease (quietly hread w hw) (fun run w hw => ?_) fun _ _ h => h
  refine keeps_lease (staleRunner_keeps run hw) (fun runner w hw => ?_) fun _ _ h => h.1
  have hclear := keeps_and (K := fun w => ∀ p ∈ runner, p ∈ w.machine.dead)
    (fun _ _ h hin p hp => h.1 p (hin p hp)) (fun _ _ _ _ hin h p hp => h.ages.grows p (hin p hp))
    (@quietly _ _ _ resumes _ _ (clearStaleAgent_quiet run) w hw.1) fun p hp => hw.2 p (by rw [hp])
  exact keeps_lease hclear (fun _ w hw => clearStaleLease_keeps run runner hw) fun _ _ h => h.1

/-! ## Control -/

theorem Fine.prepareProcessLaunch : Fine s task resumes s.prepareProcessLaunch :=
  bind (quietly .getRun) fun _ => bind (quietly (.ensure _ _)) fun _ => clearStaleProcessState

theorem Fine.setControl (desired : DesiredState) : Fine s task resumes (s.setControl desired) := by
  refine bind (quietly .getRun) fun run => ite ?_ (ite ?_ ?_)
  · exact bind (quietly (.setDesiredState _)) fun _ => quietly .stopRun
  · exact bind (quietly (.setDesiredState _)) fun _ => bind (quietly .stopOrphanProcess) fun _ =>
      bind (quietly .releaseClaimIfAgentIdle) fun _ => bind (quietly .getRun) fun _ =>
      bind (quietly (.controllerLive _)) fun _ => whenever clearStaleProcessState
  · exact bind (quietly (.ensure _ _)) fun _ => bind (quietly (.setDesiredState _)) fun _ =>
      bind (quietly (.controllerLive _)) fun _ => whenever <|
      bind (quietly .stopOrphanProcess) fun _ => bind prepareProcessLaunch fun _ =>
      whenever (quietly .stopRun)

/-! ## A request to fix -/

/-- What follows a quiet part starts from what lasted. -/
theorem keeps_after {Q : Except RunnerError β → World → Prop} {p : ServiceProg α}
    {f : α → ServiceProg β} (hP : Lasting s.runId task s.me resumes P) (hp : Quietly s p)
    (hok : ∀ a w, Knows s.runId task s.me P w → Does s task resumes Q (f a) w)
    (herr : ∀ e w, Knows s.runId task s.me P w → Q (.error e) w)
    (hw : Knows s.runId task s.me P w) : Does s task resumes Q (p >>= f) w :=
  keeps_bind (fun a w h => hok a w h.1) (fun e w h => herr e w h.1) (keeps_quiet hP hp hw)

/-- A quiet part of a program that needs `P` after it, and keeps the invariant in the end. -/
theorem keeps_past {p : ServiceProg α} {f : α → ServiceProg β}
    (hP : Lasting s.runId task s.me resumes P) (hp : Quietly s p)
    (hw : Knows s.runId task s.me P w)
    (hf : ∀ a w, Knows s.runId task s.me P w →
      Does s task resumes (fun _ w => Knows s.runId task s.me (fun _ => True) w) (f a) w) :
    Does s task resumes (fun _ w => Knows s.runId task s.me (fun _ => True) w) (p >>= f) w :=
  keeps_after hP hp hf (fun _ _ h => h.any) hw

/-- A check before the rest of a program. -/
theorem keeps_check {Q : Except RunnerError β → World → Prop} {c : Prop} [Decidable c]
    {e : RunnerError} {f : Unit → ServiceProg β} (hok : c → Does s task resumes Q (f ()) w)
    (herr : Q (.error e) w) : Does s task resumes Q (.ensure c e >>= f) w := by
  unfold Prog.ensure
  by_cases h : c
  · rw [if_pos h]
    exact hok h
  · rw [if_neg h]
    exact herr

/-- `R` where the program returned, and `P` where it raised. -/
def Ends (s : Service) (task : TaskSpec) (R P : View → Prop) (r : Except RunnerError α)
    (w : World) : Prop :=
  match r with
  | .ok _ => Knows s.runId task s.me R w
  | .error _ => Knows s.runId task s.me P w

omit [UnicodeData] in
theorem preferControl_raises (e : RunnerError) :
    QuietProg s (fun r => ∀ u, r ≠ .ok u) (s.preferControl (.error e)) := by
  have hraise : QuietProg s (fun r => ∀ u, r ≠ .ok u) (.raise e : ServiceProg Unit) := by
    rintro _ ⟨⟩
  show QuietProg s _ (if e.isRuntime = true then _ else _)
  split
  · refine calls_bind Quietly.checkpointControl (fun _ _ => hraise) ?_
    rintro _ _ _ ⟨⟩
  · exact hraise

/-- **A request to fix the head** is recorded where the row is still what was read of it. -/
theorem requestCiFix_keeps {R : View → Prop} (failure : CiGate.CiFailed)
    (hP : Lasting s.runId task s.me resumes P)
    (hstep : ∀ v round more dead, v.Good s.runId task → P v →
      (v.phase = .ciWaiting ∨ v.phase = .blocked) → round ≤ task.budget.maxFixRounds →
      v.Steps s.runId task s.me resumes dead (v.fixed round (v.log ++ more)) ∧
        R (v.fixed round (v.log ++ more)))
    (hw : Knows s.runId task s.me P w) :
    Does s task resumes (Ends s task R P) (s.requestCiFix failure) w := by
  refine keeps_bind (R := Read s task P fun _ => P) (Q := Ends s task R P)
    (fun run w hrun => ?_) (fun e w h => h)
    (keeps_getRun (K := fun _ => P) hP (fun _ _ _ h _ => h) hw)
  obtain ⟨hw, v₀, hgood₀, hPv₀, hshows⟩ := hrun
  refine keeps_check (fun hhead => ?_) hw
  refine keeps_check (fun hphase => ?_) hw
  refine keeps_after hP (.requireHead _ _) (fun _ w hw => ?_) (fun _ _ h => h) hw
  refine keeps_after hP (.requireClean _) (fun _ w hw => ?_) (fun _ _ h => h) hw
  refine keeps_check (fun hrounds => ?_) hw
  refine keeps_after hP (.ask _) (fun _ w hw => ?_) (fun _ _ h => h) hw
  have hmax : run.fixRounds + 1 ≤ task.budget.maxFixRounds := by
    rw [← hshows.task, hgood₀.task] at hrounds
    omega
  -- the request commits only where the phase and the rounds are those of the row
  have hrecord : Does s task resumes (Ends s task R P)
      (s.store (.recordCiFixRequest (s.ciFixCall run failure))) w := by
    refine keeps_mono (fun r w h => ?_) (keeps_call (Q := fun r v => match r with
        | .ok _ => R v
        | .error _ => P v) (F := fun _ => True) hP (fun w w' v r h hv hgood hPv => ?_) hw)
    · cases r <;> exact h.1
    · rcases h.store_cases with ⟨e, rfl, hsame⟩ | ⟨u, s', hbody, rfl, hview⟩
      · exact ⟨v, hsame.trans hv, (View.Quiet.refl v).steps hgood, hPv, trivial⟩
      · obtain ⟨hp, hr, -, more, hfixed⟩ := view_recordCiFix rfl hbody hv
        have hp : v.phase = run.phase := hp
        obtain ⟨hsteps, hRv⟩ := hstep v (run.fixRounds + 1) more w'.machine.dead hgood hPv
          (by rw [hp]; exact hphase) hmax
        exact ⟨_, hview.trans hfixed, hsteps, hRv, trivial⟩
  refine keeps_bind (R := fun r w => ∃ r', r = .ok r' ∧ Ends s task R P r' w) (fun r w h => ?_)
    (fun e w h => ?_) (keeps_attempt (keeps_mono (fun r w h => ⟨r, rfl, h⟩) hrecord))
  · obtain ⟨r', hr', hends⟩ := h
    obtain rfl := Except.ok.inj hr'
    cases r with
    | ok u => exact hends
    | error e =>
      have hraises : Does s task resumes (fun r w => Knows s.runId task s.me P w ∧
          ∀ u, r ≠ .ok u) (s.preferControl (.error e)) w := by
        exact keeps_quiet hP (preferControl_raises e) hends
      refine keeps_mono (fun r w h => ?_) hraises
      cases r with
      | ok u => exact absurd rfl (h.2 u)
      | error e => exact h.1
  · obtain ⟨r', hr', -⟩ := h
    cases hr'

end

/-! ## Resuming -/

section

variable [UnicodeData] {s : Service} {task : TaskSpec} {w : World}

omit [UnicodeData] in
theorem Lasting.handed : Lasting s.runId task s.me true fun v => v.core.handedOver = true :=
  fun _ _ h hv => (h.abides rfl).handed hv

omit [UnicodeData] in
theorem Lasting.blocked : Lasting s.runId task s.me true fun v => v.mark = .blocked :=
  fun _ _ h hv => (h.abides rfl).blocked hv

/-- The merge of a run that was handed over. -/
theorem reconcileMerge_keeps (run : RunRow)
    (hw : Knows s.runId task s.me (fun v => v.core.handedOver = true) w) :
    Does s task true (fun _ w => Knows s.runId task s.me (fun _ => True) w)
      (s.reconcileMerge run) w := by
  refine keeps_check (fun _ => ?_) hw.any
  refine keeps_check (fun _ => ?_) hw.any
  refine keeps_past .handed (.bind (.ask _) fun _ => .appendEvent _ _) hw fun _ w hw => ?_
  refine keeps_past .handed (.ask _) hw fun _ w hw => ?_
  refine keeps_past .handed (.ask _) hw fun mergeSha w hw => ?_
  refine keeps_past .handed (.updateRun (by simp [RunField.isQuiet, RunField.isPlain])) hw
    fun _ w hw => ?_
  refine keeps_mono (fun r w h => h.1) (keeps_call (Q := fun _ _ => True) (F := fun _ => True)
    .handed (fun w w' v r h hv hgood hhanded => ?_) hw)
  rcases h.store_cases with ⟨e, rfl, hsame⟩ | ⟨u, s', hbody, rfl, hview⟩
  · exact ⟨v, hsame.trans hv, (View.Quiet.refl v).steps hgood, trivial, trivial⟩
  · refine ⟨_, hview.trans (view_transition hbody hv), ?_, trivial, trivial⟩
    exact ⟨List.prefix_append _ _, hgood.enter_merged (.inl rfl) hhanded,
      fun _ _ _ _ _ => ⟨rfl, .inr ⟨rfl, .inr ⟨hhanded, rfl⟩⟩⟩, by rintro ⟨⟩⟩

/-- What CI says of a run that is blocked. -/
theorem reconcileCi_keeps (head : Str) (verdict : CiGate.Verdict)
    (hw : Knows s.runId task s.me (fun v => v.mark = .blocked) w) :
    Does s task true (fun _ w => Knows s.runId task s.me (fun _ => True) w)
      (s.reconcileCi head verdict) w := by
  cases verdict with
  | failed failure =>
    refine keeps_mono (fun r w h => ?_) (requestCiFix_keeps (R := fun _ => True) failure .blocked
      (fun v round more dead hgood hmark _ hround => ⟨?_, trivial⟩) hw)
    · cases r with
      | ok _ => exact h
      | error _ => exact Knows.any h
    · exact ⟨List.prefix_append _ _, hgood.fixed hround, fun _ _ _ _ _ => ⟨rfl, .inl hmark⟩,
        by rintro ⟨⟩⟩
  | evidence evidence =>
    refine keeps_past .blocked (.ask _) hw fun _ w hw => ?_
    refine keeps_past .blocked .checkpointControl hw fun _ w hw => ?_
    refine keeps_mono (fun r w h => h.1) (keeps_call (Q := fun _ _ => True) (F := fun _ => True)
      .blocked (fun w w' v r h hv hgood hmark => ?_) hw)
    rcases h.store_cases with ⟨e, rfl, hsame⟩ | ⟨u, s', hbody, rfl, hview⟩
    · exact ⟨v, hsame.trans hv, (View.Quiet.refl v).steps hgood, trivial, trivial⟩
    · obtain ⟨hhead, log, hlog, hci, hrecovered⟩ := view_recoverBlocked hbody hv
      refine ⟨_, hview.trans hrecovered, ?_, trivial, trivial⟩
      exact ⟨hlog, hgood.recovered (hhead ▸ hci), fun _ _ _ _ _ => ⟨rfl, .inl hmark⟩,
        by rintro ⟨⟩⟩

theorem resumeCiFailedRun_keeps (run : RunRow)
    (hw : Knows s.runId task s.me (fun v => v.mark = .blocked) w) :
    Does s task true (fun _ w => Knows s.runId task s.me (fun _ => True) w)
      (s.resumeCiFailedRun run) w := by
  refine keeps_check (fun _ => ?_) hw.any
  refine keeps_check (fun _ => ?_) hw.any
  refine keeps_past .blocked (.requireHead _ _) hw fun _ w hw => ?_
  refine keeps_past .blocked (.requireClean _) hw fun _ w hw => ?_
  refine keeps_past .blocked (.ask _) hw fun _ w hw => ?_
  refine keeps_past .blocked (.ask _) hw fun _ w hw => ?_
  refine keeps_past .blocked (.ask _) hw fun _ w hw => ?_
  refine keeps_past .blocked (.remainingSeconds _) hw fun _ w hw => ?_
  refine keeps_past .blocked (.ask _) hw fun verdict w hw => ?_
  refine keeps_past .blocked .checkpointControl hw fun _ w hw => ?_
  refine keeps_past .blocked (.ask _) hw fun _ w hw => ?_
  refine keeps_past .blocked .checkpointControl hw fun _ w hw => ?_
  exact reconcileCi_keeps _ verdict hw

/-- What a resume goes on from. -/
def ResumesFrom (run : RunRow) (v : View) : Prop :=
  (run.phase = .readyForOwner → v.core.handedOver = true) ∧
    (run.phase = .blocked → v.mark = .blocked)

omit [UnicodeData] in
theorem Lasting.resumes (run : RunRow) : Lasting s.runId task s.me true (ResumesFrom run) :=
  fun v v' h hv => ⟨fun hp => Lasting.handed v v' h (hv.1 hp),
    fun hp => Lasting.blocked v v' h (hv.2 hp)⟩

omit [UnicodeData] in
theorem RunRow.Shows.resumes {run : RunRow} {v : View} (h : run.Shows v)
    (hgood : v.Good s.runId task) : ResumesFrom run v := by
  have hmark (hp : run.phase ≠ .stopped) : v.mark = run.phase := by
    rcases hgood.phase with e | e
    · rw [← e, h.phase]
    · exact absurd (h.phase.symm.trans e) hp
  constructor
  · intro hp
    refine hgood.gate ?_
    rw [hmark (by rw [hp]; decide), hp]
    rfl
  · intro hp
    rw [hmark (by rw [hp]; decide), hp]

/-- **`resumeRun`** moves a run that was handed over, or one that is blocked. -/
theorem resumeRun_keeps (hw : Knows s.runId task s.me (fun _ => True) w) :
    Does s task true (fun _ w => Knows s.runId task s.me (fun _ => True) w) s.resumeRun w := by
  refine keeps_bind (Q := fun _ w => Knows s.runId task s.me (fun _ => True) w)
    (R := Read s task (fun _ => True) ResumesFrom) (fun run w hread => ?_) (fun _ _ h => h)
    (keeps_getRun .any (fun run v hgood _ h => h.resumes hgood) hw)
  refine keeps_past (.resumes run) (.ask _) hread.1 fun _ w hw => ?_
  cases hphase : run.phase with
  | readyForOwner => exact reconcileMerge_keeps run (hw.mono fun _ _ h => h.1 hphase)
  | blocked => exact resumeCiFailedRun_keeps run (hw.mono fun _ _ h => h.2 hphase)
  | mergePendingConfirmation | completed | stopped => exact hw.any
  | _ => exact Fine.quietly (.setDesiredState .running) w hw.any

end

end NyanShopBot.Orchestrator
