import NyanShopBot.Orchestrator.RunnerReview

/-!
# The outline of a process

`runLoop` keeps the lease from phase to phase (`Goes.runLoop`, by induction on its
iterations), and so does what follows where it raised (`Goes.conclude`). A runner takes the
lease where nobody has it and gives it back in the end (`Fine.run`). With the commands of an
operator, every process of the system keeps its outline (`Command.outline`).
-/

namespace NyanShopBot.Orchestrator

open Py Db Conc

section

variable [UnicodeData] {s : Service} {task : TaskSpec} {token : Str} {w : World} {α β : Type}

theorem Holds.quiet {q : ServiceProg α} (hq : Quietly s q)
    (hw : Knows s.runId task s.me (Leased s token) w) : Holds s task token q w :=
  Goes.quietly .leased .leased hq hw

/-- A quiet part of a process that holds the lease. -/
theorem Holds.after {q : ServiceProg α} {f : α → ServiceProg β} (hq : Quietly s q)
    (hw : Knows s.runId task s.me (Leased s token) w)
    (hf : ∀ a w, Knows s.runId task s.me (Leased s token) w → Holds s task token (f a) w) :
    Holds s task token (q >>= f) w :=
  Goes.bind (Holds.quiet hq hw) hf

/-- The lease is held in the end, also where the program raised. -/
theorem Holds.does {p : ServiceProg α} (hp : Holds s task token p w) :
    Does s task false (fun _ w => Knows s.runId task s.me (Leased s token) w) p w :=
  keeps_mono (fun r w h => by cases r <;> exact h) hp

theorem Holds.attempt {p : ServiceProg α} (hp : Holds s task token p w) :
    Holds s task token p.attempt w :=
  keeps_attempt hp.does

/-! ## The loop -/

/-- What the loop knows of the row that it has read. -/
def Picked (s : Service) (token : Str) (run : RunRow) (v : View) : Prop :=
  Leased s token v ∧
    (run.phase.isTerminal = false → Runs s token run.phase (fun c _ => run.Matches c) v)

omit [UnicodeData] in
theorem RunRow.Shows.picked {run : RunRow} {v : View} (h : run.Shows v)
    (hgood : v.Good s.runId task) (hheld : Leased s token v) : Picked s token run v := by
  refine ⟨hheld, fun hp => ⟨hheld, ?_, h.matches⟩⟩
  rcases hgood.phase with e | e
  · exact e.symm.trans h.phase
  · rw [← h.phase, e] at hp
    cases hp

/-- One phase after another, with the lease. -/
theorem Goes.runLoop (fuel : Nat) (hw : Knows s.runId task s.me (Leased s token) w) :
    Holds s task token (s.runLoop fuel) w := by
  induction fuel generalizing w with
  | zero => exact Holds.quiet (.await trivial) hw
  | succ fuel ih =>
    refine keeps_bind (R := Read s task (Leased s token) fun run v => Leased s token v ∧
        Picked s token run v) (Q := Post s task token fun _ w => Knows s.runId task s.me
          (Leased s token) w) (fun run w hread => ?_) (fun _ _ h => h)
      (keeps_getRun .leased (fun run v hgood hheld hshows => ⟨hheld, hshows.picked hgood hheld⟩) hw)
    obtain ⟨hw, -⟩ := hread
    show Holds s task token (if run.phase.isTerminal = true then _ else _) w
    split
    · exact Goes.pure (hw.mono fun _ _ h => h.1)
    · next hterm =>
      have hterm : run.phase.isTerminal = false := by simpa using hterm
      have hw : Knows s.runId task s.me
          (Runs s token run.phase fun c _ => run.Matches c) w :=
        hw.mono fun _ _ h => h.2.2 hterm
      refine Goes.after (.core _) hterm .checkpointControl hw fun _ w hw => ?_
      refine Goes.after (.core _) hterm (.ask _) hw fun _ w hw => ?_
      refine Goes.after (.core _) hterm (.ask _) hw fun _ w hw => ?_
      exact .bind (.runPhase hw) fun _ w hw => ih hw

theorem Goes.runAgents (fuel : Nat) (hw : Knows s.runId task s.me (Leased s token) w) :
    Holds s task token (s.runAgents fuel) w := by
  induction fuel generalizing w with
  | zero => exact Holds.quiet (.await trivial) hw
  | succ fuel ih =>
    refine .bind (Goes.runLoop fuel hw).attempt fun r w hw => ?_
    cases r with
    | ok u => exact .pure hw
    | error e =>
      cases e with
      | agentPaused message =>
        refine Holds.after (.agentPaused message) hw fun again w hw => ?_
        show Holds s task token (if again = true then _ else _) w
        split
        · exact ih hw
        · exact .pure hw
      | _ => exact .raise .leased hw

/-- A run is blocked by the runner that holds its lease. -/
theorem Goes.block {text : Str} (hw : Knows s.runId task s.me (Leased s token) w) :
    Holds s task token (s.block text) w := by
  refine Holds.after .getRun hw fun run w hw => ?_
  show Holds s task token (if run.phase.isTerminal = true then _ else _) w
  split
  · exact .pure hw
  · refine Holds.after (.ask _) hw fun safeReason w hw => ?_
    refine Holds.after (.updateRun (by simp [RunField.isQuiet, RunField.isPlain])) hw
      fun _ w hw => ?_
    have hblock (payload : List (Str × Json)) :
        Holds s task token (s.transition .blocked payload) w := by
      refine Goes.transaction (Q := fun _ => Leased s token) .leased .leased
        (fun t t' launched phases v u hbody hv hgood hheld => ?_) hw
      exact ⟨_, view_transition hbody hv, List.prefix_append _ _, hgood.enter_blocked,
        ⟨fun hh => hh, fun _ => rfl⟩, hheld⟩
    refine .bind (hblock _) fun _ w hw => ?_
    have hreport : Quietly s (s.reportBlocked safeReason) :=
      .bind (.ask _) fun _ => .bind (.ask _) fun _ => .ask _
    exact Holds.quiet (.finally' (.bind (.attempt hreport) fun _ => .noteUnreported _)
      (.bind .releaseClaimIfAgentIdle fun _ => .pure ())) hw

theorem Goes.conclude {r : Except RunnerError Unit}
    (hw : Knows s.runId task s.me (Leased s token) w) : Holds s task token (s.conclude r) w := by
  cases r with
  | ok u => exact .pure hw
  | error e =>
    have hrest : Holds s task token
        (if e.isException = true then s.block e.message >>= fun _ => .raise e
          else .raise e : ServiceProg Unit) w := by
      split
      · exact .bind (Goes.block hw) fun _ w hw => .raise .leased hw
      · exact .raise .leased hw
    cases e with
    | pauseRequested message => exact Holds.quiet (.appendEvent _ _) hw
    | stopRequested message | agentStopped message =>
      exact Holds.quiet (.bind (.appendEvent _ _) fun _ => .stopRun) hw
    | _ => exact hrest

/-! ## The lease -/

/-- The lease is given back by the process that has it. -/
theorem exit_keeps (hw : Knows s.runId task s.me (Leased s token) w) :
    Does s task false (fun _ w => Knows s.runId task s.me (fun _ => True) w) (s.exit token) w := by
  refine keeps_bind (R := fun _ w => Knows s.runId task s.me (fun _ => True) w)
    (Q := fun _ w => Knows s.runId task s.me (fun _ => True) w)
    (fun _ w hw => Fine.quietly (.appendEvent _ _) w hw) (fun _ _ h => h)
    (keeps_mono (fun _ _ h => h.1) (keeps_call (Q := fun _ _ => True) (F := fun _ => True)
      .leased (fun w w' v r heff hv hgood hheld => ?_) hw))
  rcases heff.lease_cases hv with ⟨e, -, hsame⟩ |
    ⟨-, v', row, row', hv', -, -, -, hcore, hmark, hphase, hlog⟩
  · exact ⟨v, hsame, (View.Quiet.refl v).steps hgood, trivial, trivial⟩
  · refine ⟨v', hv', .of_holder hheld hlog (hgood.keep hcore hmark (.inl hphase) hlog) fun _ => ?_,
      trivial, trivial⟩
    exact ⟨by rw [hcore]; exact id, by rw [hmark]; exact id⟩

/-- The lease is taken where nobody has it. -/
theorem acquire_keeps (hw : Knows s.runId task s.me (fun _ => True) w) :
    Does s task false (Ends s task (Leased s token) fun _ => True)
      (s.await (.machine (.exec (.acquireProcessLease s.me.1 s.me.2 token)))) w := by
  refine keeps_mono (fun r w h => ?_) (keeps_call (Q := fun r v => r = .ok () → Leased s token v)
    (F := fun _ => True) .any (fun w w' v r heff hv hgood _ => ?_) hw)
  · cases r with
    | ok u => exact h.1.mono fun _ _ h => h rfl
    | error e => exact h.1.any
  · rcases heff.lease_cases hv with ⟨e, rfl, hsame⟩ |
      ⟨-, v', row, row', hv', hmove, hrow, hrow', hcore, hmark, hphase, hlog⟩
    · exact ⟨v, hsame, (View.Quiet.refl v).steps hgood, by rintro ⟨⟩, trivial⟩
    · cases hmove with
      | acquired hfree =>
        have hnone : v.holder = none := by
          rw [← hrow]
          unfold RunRow.holder
          rw [hfree]
          rfl
        refine ⟨v', hv', ⟨hlog, hgood.keep hcore hmark (.inl hphase) hlog, fun token' q hq => ?_,
          fun _ => ⟨by rw [hcore]; exact id, by rw [hmark]; exact id⟩⟩, fun _ => hrow'.symm,
          trivial⟩
        rw [hnone] at hq
        cases hq

theorem serve_keeps {fuel : Nat} (hw : Knows s.runId task s.me (Leased s token) w) :
    Does s task false (fun _ w => Knows s.runId task s.me (fun _ => True) w)
      (s.serve fuel token) w := by
  refine keeps_after .leased (.appendEvent _ _) (fun _ w hw => ?_)
    (fun _ _ h => h.any) hw
  have hwork : Holds s task token (do let r ← (s.runAgents fuel).attempt; s.conclude r) w :=
    Goes.bind (Goes.runAgents fuel hw).attempt fun r w hw => Goes.conclude hw
  refine keeps_bind (R := fun r w => Knows s.runId task s.me (Leased s token) w)
    (Q := fun _ w => Knows s.runId task s.me (fun _ => True) w) (fun r w hw => ?_)
    (fun e w hw => hw.any) (keeps_attempt hwork.does)
  refine keeps_bind (Q := fun _ w => Knows s.runId task s.me (fun _ => True) w)
    (fun _ w hw => ?_) (fun _ _ h => h) (exit_keeps hw)
  exact keeps_ofExcept.2 hw

/-- **A runner process.** -/
theorem Fine.run (fuel : Nat) : Fine s task false (s.run fuel) := by
  refine bind (quietly (.await trivial)) fun token => bind (quietly (.ask _)) fun established =>
    bind (quietly (.ensure _ _)) fun _ w hw => ?_
  refine keeps_bind (R := Ends s task (Leased s token) fun _ => True)
    (Q := fun _ w => Knows s.runId task s.me (fun _ => True) w) (fun _ w hw => ?_)
    (fun _ _ h => h) (acquire_keeps hw)
  exact serve_keeps (s := { s with lease := some token }) hw

end

/-! ## Commands -/

section

variable [UnicodeData] {runId : Str} {task : TaskSpec}

def Command.resumes (c : Command) : Bool :=
  match c.call with
  | .resumeRun => true
  | _ => false

/-- **Every process keeps its outline.** -/
theorem Command.outline (c : Command) {w : World}
    (hw : Knows runId task c.me (fun _ => True) w) :
    Keeps (ServiceEffect runId) (Rely runId task c.me c.resumes)
      (Guarantee runId task c.me c.resumes)
      (fun _ w => Knows runId task c.me (fun _ => True) w) (Command.body runId c) w := by
  obtain ⟨me, call⟩ := c
  cases call with
  | run fuel => exact Fine.run (s := ⟨me, runId, none⟩) fuel w hw
  | setControl desired => exact Fine.setControl (s := ⟨me, runId, none⟩) desired w hw
  | resumeRun => exact resumeRun_keeps (s := ⟨me, runId, none⟩) hw
  | prepareProcessLaunch => exact Fine.prepareProcessLaunch (s := ⟨me, runId, none⟩) w hw

end

end NyanShopBot.Orchestrator
