import NyanShopBot.Conc.System
import NyanShopBot.Orchestrator.Lease

/-!
# The runner processes of one run

`leaseSystem` runs any number of runner processes over the row of one run. A process
takes and gives back the lease, registers and clears its agent, and clears what a process
that has exited left, `clearStaleProcessState`, in any order that its `Script` says. The
machine knows which operating-system processes have exited, and `process_matches` says so
or raises.
`Session` is what a process has been told.
-/

namespace NyanShopBot.Orchestrator

open Py Db Conc

/-! ## The machine -/

/-- An operating-system process: its pid with its creation identity. -/
abbrev Process := Int × Str

structure Machine where
  store : Store
  /-- The processes that have exited. -/
  dead : List Process
  /-- The tokens that have been made, with the process that made each. -/
  used : List (Str × Process)

inductive LeaseAction where
  | uuid4
  | getRun
  | exec (op : LeaseOp)
  | processMatches (process : Process)
  | agentContainmentConfirmed (run : RunRow)

def LeaseAction.Res : LeaseAction → Type
  | uuid4 => Str
  | getRun => RunRow
  | exec _ => Unit
  | processMatches _ => Bool
  | agentContainmentConfirmed _ => Bool

/-- An action with the process that takes it. -/
abbrev leaseSig : Sig := ⟨Process × LeaseAction, fun op => op.2.Res⟩

abbrev LeaseProg := Prog leaseSig StoreError

/-- The processes that have exited at the end of an action of `me`, which has not. -/
structure Ages (me : Process) (dead dead' : List Process) : Prop where
  grows : ∀ p ∈ dead, p ∈ dead'
  alive : me ∉ dead'

/-- What an action of a live process does. -/
inductive LeaseEffect (runId : Str) (m : Machine) :
    (op : Process × LeaseAction) → Except StoreError op.2.Res → Machine → Prop
  | uuid4 {me : Process} {dead : List Process} {token : Str} : Ages me m.dead dead →
      token ∉ m.used.map Prod.fst →
      LeaseEffect runId m (me, .uuid4) (.ok token) ⟨m.store, dead, (token, me) :: m.used⟩
  | getRun {me : Process} {dead : List Process} : Ages me m.dead dead →
      LeaseEffect runId m (me, .getRun) ((selectRun runId).commit m.store).1
        ⟨m.store, dead, m.used⟩
  | exec {me : Process} {dead : List Process} (op : LeaseOp) : Ages me m.dead dead →
      LeaseEffect runId m (me, .exec op) (op.exec runId m.store).1
        ⟨(op.exec runId m.store).2, dead, m.used⟩
  | processMatches {me : Process} {dead : List Process} (process : Process) :
      Ages me m.dead dead →
      LeaseEffect runId m (me, .processMatches process) (.ok (decide (process ∉ dead)))
        ⟨m.store, dead, m.used⟩
  | processMatchesRaises {me : Process} {dead : List Process} (process : Process)
      (e : StoreError) : Ages me m.dead dead →
      LeaseEffect runId m (me, .processMatches process) (.error e) ⟨m.store, dead, m.used⟩
  | agentContainmentConfirmed {me : Process} {dead : List Process} (run : RunRow)
      (r : Except StoreError Bool) : Ages me m.dead dead →
      LeaseEffect runId m (me, .agentContainmentConfirmed run) r ⟨m.store, dead, m.used⟩

/-! ## The programs -/

section

variable (me : Process)

def awaitLease (action : LeaseAction) : LeaseProg action.Res :=
  Prog.perform (S := leaseSig) (me, action)

/-- The creation identity of a pid that is there. -/
def identityOf (message : Str) : Option Str → LeaseProg Str
  | some identity => pure identity
  | none => .raise (.runtimeError message)

/-- The runner of the row, which must have exited. -/
def staleRunner (run : RunRow) : LeaseProg (Option Process) :=
  match run.pid with
  | none => pure none
  | some pid => do
    let identity ← identityOf (str "runner PID has no creation identity; " ++
      str "refusing PID-only cleanup") run.processIdentity
    let live : Bool ← awaitLease me (.processMatches (pid, identity))
    Prog.ensure (live = false)
      (.runtimeError (str "run already has a live process (" ++ intStr pid ++ str ")"))
    return some (pid, identity)

/-- Clear the agent of the row, which must have exited. -/
def clearStaleAgent (run : RunRow) : LeaseProg Unit :=
  match run.activeAgentPid with
  | none => pure ()
  | some pid => do
    let identity ← identityOf (str "registered agent PID has no creation identity; " ++
      str "refusing PID-only cleanup") run.activeAgentIdentity
    let live : Bool ← awaitLease me (.processMatches (pid, identity))
    Prog.ensure (live = false) (.runtimeError (str "run still has a live agent process (" ++
      intStr pid ++ str "); refusing a duplicate"))
    let confirmed : Bool ← awaitLease me (.agentContainmentConfirmed run)
    Prog.ensure (confirmed = true) (.runtimeError (str "registered launcher exited without " ++
      str "proven descendant containment"))
    let token ← match run.processToken with
      | some token => pure token
      | none => .raise (.runtimeError (str "stale agent process has no " ++
          str "matching runner lease"))
    awaitLease me (.exec (.clearStaleActiveAgent token pid identity))

/-- Clear the lease of the row. -/
def clearStaleLease (run : RunRow) (runner : Option Process) : LeaseProg Unit :=
  match run.processToken, runner with
  | some token, some (pid, identity) =>
    awaitLease me (.exec (.clearStaleProcessLease pid identity token))
  | some _, none => .raise (.runtimeError (str "run has an invalid process lease"))
  | none, some _ => .raise (.runtimeError (str "runner PID exists without a process lease"))
  | none, none => Prog.ensure (run.processIdentity = none)
      (.runtimeError (str "runner process identity exists without a PID"))

/-- `_clear_stale_process_state`. -/
def clearStaleProcessState : LeaseProg Unit := do
  let run : RunRow ← awaitLease me .getRun
  let runner ← staleRunner me run
  clearStaleAgent me run
  clearStaleLease me run runner

end

/-- What a runner process does next, by what it has been told. -/
inductive Script where
  | done
  | acquireProcessLease (next : Except StoreError Unit → Script)
  | setActiveAgent (agent : Agent) (next : Except StoreError Unit → Script)
  | clearActiveAgent (pid : Int) (identity : Str) (next : Except StoreError Unit → Script)
  | releaseProcessLease (next : Except StoreError Unit → Script)
  | clearStaleProcessState (next : Except StoreError Unit → Script)

/-- `_lease_tokens` of the run. -/
def leaseToken (message : Str) : Option Str → LeaseProg Str
  | some token => pure token
  | none => .raise (.runtimeError message)

/-- The lease after a call that takes or gives it back. -/
def leaseAfter (before after : Option Str) : Except StoreError Unit → Option Str
  | .ok _ => after
  | .error _ => before

namespace Script

/-- The program of a process that holds `lease`. -/
def prog (me : Process) : Script → Option Str → LeaseProg Unit
  | done, _ => pure ()
  | acquireProcessLease next, lease => do
    let token : Str ← awaitLease me .uuid4
    let r ← (awaitLease me (.exec (.acquireProcessLease me.1 me.2 token))).attempt
    (next r).prog me (leaseAfter lease (some token) r)
  | setActiveAgent agent next, lease => do
    let r ← Prog.attempt do
      let token ← leaseToken (str "agent process started without a runner lease") lease
      awaitLease me (.exec (.setActiveAgent token agent))
    (next r).prog me lease
  | clearActiveAgent pid identity next, lease => do
    let r ← Prog.attempt do
      let token ← leaseToken (str "agent process finished without a runner lease") lease
      awaitLease me (.exec (.clearActiveAgent token pid identity))
    (next r).prog me lease
  | releaseProcessLease next, some token => do
    let r ← (awaitLease me (.exec (.releaseProcessLease token))).attempt
    (next r).prog me (leaseAfter (some token) none r)
  | releaseProcessLease next, none => (next (.ok ())).prog me none
  | clearStaleProcessState next, lease => do
    let r ← (Orchestrator.clearStaleProcessState me).attempt
    (next r).prog me lease

end Script

/-- A runner process with its script. -/
structure Runner where
  me : Process
  script : Script

/-- **The runner processes of a run.** -/
abbrev leaseSystem (runId : Str) : System leaseSig StoreError where
  Store := Machine
  Call := Runner
  Out := Unit
  body runner := runner.script.prog runner.me none
  eff := LeaseEffect runId

end NyanShopBot.Orchestrator
