import NyanShopBot.Orchestrator.RunnerProcesses

/-!
# The view of a run

A `View` is what of the world the safety of a run is about: its `Core`, which only the
runner that holds the lease moves, its `mark` (the last phase that was no stop), the holder
of the lease and the log. `View.Good` is the invariant, and `View.Steps` what a step of one
process may do to the others: a process that holds the lease is spared (`View.Spares`), and
a run that was handed over or is blocked stays so until it is resumed (`View.Abides`).
-/

namespace NyanShopBot.Orchestrator

open Py Db Conc

/-! ## What happened -/

/-- The last phase, where a stop does not count. -/
def nextMark (mark phase : RunPhase) : RunPhase := if phase = .stopped then mark else phase

/-- Whether the run is with its owner: it is until a writer or a reviewer has it again. -/
def nextHanded (handed : Bool) : RunPhase → Bool
  | .readyForOwner => true
  | .ownerMerged | .completed | .blocked | .stopped => handed
  | _ => false

/-- The phases that a run can be put in once it was handed over. -/
def RunPhase.isGate : RunPhase → Bool
  | readyForOwner | mergePendingConfirmation | ownerMerged | completed => true
  | _ => false

/-- CI has passed for the head. -/
def EventRow.isCiPassed (runId head : Str) (e : EventRow) : Prop :=
  e.runId = runId ∧ e.kind = str "ci.passed" ∧
    ∃ payload, e.payload = .obj payload ∧ Json.get? payload (str "head_sha") = some (.str head)

/-- A reviewer has passed the head. -/
def EventRow.isReviewPass (runId head : Str) (e : EventRow) : Prop :=
  e.runId = runId ∧ e.kind = str "review.result" ∧
    ∃ payload, e.payload = .obj payload ∧
      Json.get? payload (str "verdict") = some (.str ReviewVerdict.pass.value) ∧
      Json.get? payload (str "reviewed_head_sha") = some (.str head)

def CiPassed (runId head : Str) (log : List EventRow) : Prop :=
  ∃ e ∈ log, e.isCiPassed runId head

/-- **The head passed CI, and then its review.** -/
def Vetted (runId head : Str) (log : List EventRow) : Prop :=
  ∃ earlier later, log = earlier ++ later ∧ CiPassed runId head earlier ∧
    ∃ e ∈ later, e.isReviewPass runId head

section

variable {runId head : Str} {log log' : List EventRow}

theorem CiPassed.mono (h : CiPassed runId head log) (hlog : log <+: log') :
    CiPassed runId head log' := by
  obtain ⟨e, he, hpassed⟩ := h
  exact ⟨e, hlog.subset he, hpassed⟩

theorem Vetted.mono (h : Vetted runId head log) (hlog : log <+: log') :
    Vetted runId head log' := by
  obtain ⟨earlier, later, rfl, hci, e, he, hpass⟩ := h
  obtain ⟨more, rfl⟩ := hlog
  exact ⟨earlier, later ++ more, List.append_assoc .., hci, e, List.mem_append_left _ he, hpass⟩

theorem CiPassed.vetted {e : EventRow} (h : CiPassed runId head log)
    (he : e.isReviewPass runId head) : Vetted runId head (log ++ [e]) :=
  ⟨log, [e], rfl, h, e, List.mem_singleton_self e, he⟩

end

/-! ## Views -/

/-- What only the runner that holds the lease moves, and a recovery where the run is
blocked. -/
structure Core where
  task : TaskSpec
  head : Option Str
  reviewed : Option Str
  fixRounds : Int
  invocations : Int
  spent : Role → Option Int
  unaccounted : Bool
  launched : List Launch
  handedOver : Bool

structure View where
  core : Core
  mark : RunPhase
  phase : RunPhase
  holder : Option (Str × Process)
  log : List EventRow

section

variable (t : Tables) (runId : Str) (launched : List Launch) (phases : List RunPhase)

/-- The view of a row of the run. -/
def Tables.viewOf (r : RunRow) : View where
  core := {
    task := r.task
    head := r.headSha
    reviewed := r.reviewedHeadSha
    fixRounds := r.fixRounds
    invocations := r.agentInvocations
    spent := r.enforceableTokens
    unaccounted := t.unaccounted runId
    launched := launched
    handedOver := phases.foldl nextHanded false }
  mark := phases.foldl nextMark .created
  phase := r.phase
  holder := r.holder
  log := t.events

def Tables.view : Option View := (t.run? runId).map (t.viewOf runId launched phases)

end

def World.view (w : World) (runId : Str) : Option View :=
  w.tables.view runId w.launched w.phases

/-! ## The invariant -/

/-- The launch was within the budget. -/
def Launch.Affordable (task : TaskSpec) (l : Launch) : Prop :=
  l.unaccounted = false ∧ ∃ spent, l.spent = some spent ∧ spent < task.budget.tokenCeiling l.role

/-- The launch was by the process that held the lease. -/
def Launch.Held (l : Launch) : Prop := ∃ token, l.holder = some (token, l.me)

/-- The budget of the run is kept. -/
structure Core.Within (c : Core) : Prop where
  invocations : c.invocations ≤ c.task.budget.maxAgentInvocations
  fixRounds : c.fixRounds ≤ c.task.budget.maxFixRounds
  count : (c.launched.length : Int) ≤ c.invocations
  attempts : ∀ l ∈ c.launched, l.attempt ≤ c.invocations
  increasing : c.launched.Pairwise fun l m => l.attempt < m.attempt
  affordable : ∀ l ∈ c.launched, l.Affordable c.task
  held : ∀ l ∈ c.launched, l.Held

theorem Core.Within.congr {c c' : Core} (h : c.Within) (htask : c'.task = c.task)
    (hrounds : c'.fixRounds = c.fixRounds) (hinvocations : c'.invocations = c.invocations)
    (hlaunched : c'.launched = c.launched) : c'.Within where
  invocations := by rw [htask, hinvocations]; exact h.invocations
  fixRounds := by rw [htask, hrounds]; exact h.fixRounds
  count := by rw [hlaunched, hinvocations]; exact h.count
  attempts := by rw [hlaunched, hinvocations]; exact h.attempts
  increasing := by rw [hlaunched]; exact h.increasing
  affordable := by rw [hlaunched, htask]; exact h.affordable
  held := by rw [hlaunched]; exact h.held

/-- **The invariant.** -/
structure View.Good (runId : Str) (task : TaskSpec) (v : View) : Prop where
  task : v.core.task = task
  phase : v.phase = v.mark ∨ v.phase = .stopped
  handed : v.core.handedOver = true → (v.mark.isGate = true ∨ v.mark = .blocked) ∧
    ∃ head, v.core.head = some head ∧ v.core.reviewed = some head ∧ Vetted runId head v.log
  gate : v.mark.isGate = true → v.core.handedOver = true
  review : v.mark = .reviewRunning → CiPassed runId (pyStr v.core.head) v.log
  within : v.core.Within

/-! ## Steps -/

/-- A step beside a process that holds the lease. -/
structure View.Spares (v v' : View) : Prop where
  holder : v'.holder = v.holder
  core : v.mark = .blocked ∨ v'.core = v.core ∧
    (v'.mark = v.mark ∨ v.core.handedOver = true ∧ v'.mark = .ownerMerged)

/-- A step that is no recovery. -/
structure View.Abides (v v' : View) : Prop where
  handed : v.core.handedOver = true → v'.core.handedOver = true
  blocked : v.mark = .blocked → v'.mark = .blocked

/-- **What a step of `me` does**, where the processes in `dead` have exited. -/
structure View.Steps (runId : Str) (task : TaskSpec) (me : Process) (resumes : Bool)
    (dead : List Process) (v v' : View) : Prop where
  log : v.log <+: v'.log
  good : v'.Good runId task
  others : ∀ token q, v.holder = some (token, q) → q ≠ me → q ∉ dead → v.Spares v'
  abides : resumes = false → v.Abides v'

/-- A step that changes nothing that is vital: it may stop the run and add to the log. -/
structure View.Quiet (v v' : View) : Prop where
  core : v'.core = v.core
  mark : v'.mark = v.mark
  phase : v'.phase = v.phase ∨ v'.phase = .stopped
  holder : v'.holder = v.holder
  log : v.log <+: v'.log

section

variable {runId : Str} {task : TaskSpec} {me : Process} {resumes : Bool} {dead : List Process}
  {v v' : View}

/-- The invariant where the core and the mark are as they were. -/
theorem View.Good.keep (h : v.Good runId task) (hcore : v'.core = v.core) (hmark : v'.mark = v.mark)
    (hphase : v'.phase = v.phase ∨ v'.phase = .stopped) (hlog : v.log <+: v'.log) :
    v'.Good runId task where
  task := by rw [hcore]; exact h.task
  phase := by
    rw [hmark]
    rcases hphase with e | e
    · rw [e]; exact h.phase
    · exact .inr e
  handed hh := by
    rw [hcore] at hh ⊢
    rw [hmark]
    obtain ⟨hgate, head, hhead, hreviewed, hvetted⟩ := h.handed hh
    exact ⟨hgate, head, hhead, hreviewed, hvetted.mono hlog⟩
  gate hg := by
    rw [hmark] at hg
    rw [hcore]
    exact h.gate hg
  review hr := by
    rw [hmark] at hr
    rw [hcore]
    exact (h.review hr).mono hlog
  within := by rw [hcore]; exact h.within

theorem View.Good.quiet (h : v.Good runId task) (hq : v.Quiet v') : v'.Good runId task :=
  h.keep hq.core hq.mark hq.phase hq.log

theorem View.Quiet.steps (hq : v.Quiet v') (h : v.Good runId task) :
    v.Steps runId task me resumes dead v' where
  log := hq.log
  good := h.quiet hq
  others _ _ _ _ _ := ⟨hq.holder, .inr ⟨hq.core, .inl hq.mark⟩⟩
  abides _ := ⟨by rw [hq.core]; exact id, by rw [hq.mark]; exact id⟩

/-- A step of the process that holds the lease. -/
theorem View.Steps.of_holder {token : Str} (hh : v.holder = some (token, me))
    (hlog : v.log <+: v'.log) (hgood : v'.Good runId task)
    (habides : resumes = false → v.Abides v') : v.Steps runId task me resumes dead v' where
  log := hlog
  good := hgood
  others token' q hq hne _ := by
    rw [hh] at hq
    cases hq
    exact absurd rfl hne
  abides := habides

end

end NyanShopBot.Orchestrator
