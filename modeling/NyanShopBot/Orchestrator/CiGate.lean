import Mathlib.Data.List.Sort
import NyanShopBot.Conc.Session
import NyanShopBot.Orchestrator.Models
import NyanShopBot.Py.JsonText

/-!
# The CI gate

`wait_for_ci` of the GitHub client as a program over what it awaits. It ends in a
`Verdict`: the evidence that it returns, or the `CiFailed` that it raises. The state of a
run is the list of what GitHub has answered (`Reading`), and every answer is possible.
`ci_gate` says what the readings show where the gate ends: a job list in which a job is
hidden by a later one of its name, or stands with the status `success`, is what the check
of a required name does not see through (`Plain`).
-/

namespace NyanShopBot.Orchestrator.CiGate

open Py Conc

abbrev Fields := List (Str × Json)

/-- The parts of a task that the gate reads. -/
structure CiTask where
  branch : Str
  requiredChecks : List Str
  pollInitialSeconds : Int
  pollMaxSeconds : Int
  required : requiredChecks ≠ []
  initial : Within 1 60 pollInitialSeconds
  most : Within 1 300 pollMaxSeconds
  backoff : pollInitialSeconds ≤ pollMaxSeconds

structure CiEvidence where
  headSha : Str
  runId : Int
  runUrl : Str
  checks : List (Str × Str)
deriving DecidableEq

structure CiFailed where
  headSha : Str
  runId : Int
  runUrl : Str
  failedChecks : List Str
  failedJobs : List Str
  diagnosticExcerpt : Option Str
deriving DecidableEq

/-- How the gate ends, other than by an exception of something it awaits. -/
inductive Verdict where
  | evidence (e : CiEvidence)
  | failed (f : CiFailed)
deriving DecidableEq

inductive CiError where
  | pauseRequested
  | stopRequested
  | timeout (message : Str)
  | key
  | validation
  | exception
deriving DecidableEq

/-- What the gate awaits. The annotations of failed jobs are read for the diagnostics
only, which no decision uses. -/
inductive CiOp where
  | monotonic
  | control
  | runList (branch : Str)
  | runView (runId : Str)
  | failedCiDiagnostics (jobs : List Json) (deadline : PyFloat)
  | sleep

abbrev CiOp.Res : CiOp → Type
  | .monotonic => PyFloat
  | .control => DesiredState
  | .runList _ | .runView _ => Json
  | .failedCiDiagnostics _ _ => Option Str
  | .sleep => Unit

abbrev ciSig : Sig := ⟨CiOp, CiOp.Res⟩

abbrev CiProg (α : Type) := Prog ciSig CiError α

abbrev await (op : CiOp) : CiProg op.Res := Prog.perform (S := ciSig) op

/-! ## What GitHub has answered -/

inductive Reading where
  | runs (value : Json)
  | detail (runId : Str) (value : Json)

def readings : (op : CiOp) → Except CiError op.Res → List Reading
  | .runList _, .ok value => [.runs value]
  | .runView runId, .ok value => [.detail runId value]
  | _, _ => []

/-- Every answer is possible. -/
def ciEffect : Effect ciSig CiError (List Reading) := fun reads op r reads' =>
  reads' = reads ++ readings op r

/-- The program ends in `Q` from what has been read. -/
abbrev Ends {α : Type} (Q : Except CiError α → List Reading → Prop) (p : CiProg α)
    (reads : List Reading) : Prop :=
  Safe ciEffect (fun _ => True) Q p reads

variable {reads : List Reading}

theorem ends_await {op : CiOp} {Q : Except CiError op.Res → List Reading → Prop}
    (h : ∀ r, Q r (reads ++ readings op r)) : Ends Q (await op) reads :=
  safe_perform (by
    rintro r s' rfl
    exact ⟨trivial, h r⟩)

/-- A program that reads nothing from GitHub. -/
abbrev Quiet {α : Type} (p : CiProg α) : Prop :=
  ∀ reads, Ends (fun _ reads' => reads' = reads) p reads

theorem quiet_await {op : CiOp} (h : ∀ r, readings op r = []) : Quiet (await op) := fun reads =>
  ends_await fun r => by rw [h r, List.append_nil]

theorem quiet_bind {α β : Type} {p : CiProg α} {f : α → CiProg β} (hp : Quiet p)
    (hf : ∀ a, Quiet (f a)) : Quiet (p >>= f) := fun reads =>
  safe_bind (R := fun _ reads' => reads' = reads) (fun a _ h => h ▸ hf a reads)
    (fun _ _ h => h) (hp reads)

theorem quiet_ofExcept {α : Type} (r : Except CiError α) : Quiet (.ofExcept r) := fun _ =>
  safe_ofExcept.2 rfl

/-- What follows a quiet program starts from what it started from. -/
theorem ends_bind {α β : Type} {Q : Except CiError β → List Reading → Prop} {p : CiProg α}
    {f : α → CiProg β} (hp : Quiet p) (hf : ∀ a, Ends Q (f a) reads)
    (he : ∀ e, Q (.error e) reads) : Ends Q (p >>= f) reads :=
  safe_bind (R := fun _ reads' => reads' = reads) (fun a _ h => h ▸ hf a)
    (fun e _ h => h ▸ he e) (hp reads)

/-! ## Times -/

/-- `x < y`. -/
def before : PyFloat → PyFloat → Bool
  | .finite x, .finite y => x < y
  | .negInf, .finite _ | .negInf, .inf | .finite _, .inf => true
  | _, _ => false

/-- `int(x)`. -/
def truncate : PyFloat → Except CiError Int
  | .finite q => .ok (if 0 ≤ q then ⌊q⌋ else ⌈q⌉)
  | _ => .error .exception

/-- `x + n`. -/
def addInt (x : PyFloat) (n : Int) : Except CiError PyFloat :=
  match PyFloat.ofInt n with
  | some y => .ok (x.add y)
  | none => .error .exception

/-! ## Waiting -/

/-- `_check_control`. -/
def checkControl : CiProg Unit := do
  match ← await .control with
  | .paused => .raise .pauseRequested
  | .stopped => .raise .stopRequested
  | .running => return ()

theorem checkControl_quiet : Quiet checkControl :=
  quiet_bind (quiet_await fun r => by cases r <;> rfl) fun desired => by
    cases desired <;> exact fun _ => rfl

/-- `_controlled_sleep`. -/
def controlledSleep : Nat → CiProg Unit
  | 0 => return ()
  | seconds + 1 => do
    checkControl
    await .sleep
    controlledSleep seconds

theorem controlledSleep_quiet : ∀ seconds : Nat, Quiet (controlledSleep seconds)
  | 0 => fun _ => rfl
  | seconds + 1 => quiet_bind checkControl_quiet fun _ =>
    quiet_bind (quiet_await fun r => by cases r <;> rfl) fun _ => controlledSleep_quiet seconds

/-- The diagnostics of a failure, read before a deadline of their own. -/
def diagnose (deadline : PyFloat) (failed : List Str) (detail : Fields) :
    CiProg (Option Str) := do
  if failed = [] then return none
  else do
    let now ← await .monotonic
    let until15 ← .ofExcept (addInt now 15)
    await (.failedCiDiagnostics (Json.get detail (str "jobs")).items
      (if before until15 deadline then until15 else deadline))

theorem diagnose_quiet (deadline : PyFloat) (failed : List Str) (detail : Fields) :
    Quiet (diagnose deadline failed detail) := by
  unfold diagnose
  by_cases h : failed = []
  · rw [if_pos h]
    exact fun _ => rfl
  · rw [if_neg h]
    exact quiet_bind (quiet_await fun r => by cases r <;> rfl) fun now =>
      quiet_bind (quiet_ofExcept _) fun _ => quiet_await fun r => by cases r <;> rfl

/-! ## Reading a response -/

section

variable [UnicodeData]

/-- `str(item.get("createdAt", ""))`. -/
def createdAt (run : Fields) : Str :=
  match Json.get? run (str "createdAt") with
  | some value => value.pyStr
  | none => []

/-- The listed runs of a head. -/
def listed (headSha : Str) (runs : Json) : List Fields :=
  (runs.items.filterMap Json.fields?).filter fun run =>
    (Json.get run (str "headSha")).isText headSha

/-- `_exact_sha_runs`, the newest run first; runs of one time keep their order. -/
def matchingRuns (headSha : Str) (runs : Json) : List Fields :=
  (listed headSha runs).insertionSort fun a b => strLe (createdAt b) (createdAt a) = true

def jobsOf (detail : Fields) : List Fields :=
  (Json.get detail (str "jobs")).items.filterMap Json.fields?

def jobName (job : Fields) : Str := (Json.get job (str "name")).pyStr

/-- `str(job.get("conclusion") or job.get("status"))`. -/
def jobCheck (job : Fields) : Str :=
  ((Json.get job (str "conclusion")).orElse (Json.get job (str "status"))).pyStr

/-- `_job_checks`. -/
def jobChecks (detail : Fields) : List (Str × Str) :=
  ofItems ((jobsOf detail).map fun job => (jobName job, jobCheck job))

def success : Str := str "success"

def nonTerminal : List Str :=
  [success, str "queued", str "in_progress", str "waiting", str "pending"]

/-- `_failed_required_checks`. -/
def failedRequiredChecks (task : CiTask) (checks : List (Str × Str)) : List Str :=
  task.requiredChecks.filter fun name => (item? name checks).any fun c => !nonTerminal.contains c

def allSucceeded (task : CiTask) (checks : List (Str × Str)) : Bool :=
  task.requiredChecks.all fun name => item? name checks == some success

def isCompleted (detail : Fields) : Bool :=
  (Json.get detail (str "status")).isText (str "completed")

def concludedSuccess (detail : Fields) : Bool :=
  (Json.get detail (str "conclusion")).isText success

/-- The detail is of the head and of the attempt. -/
def isOf (detail : Fields) (headSha : Str) (attempt : Int) : Bool :=
  (Json.get detail (str "headSha")).isText headSha &&
    (Json.get detail (str "attempt")).eqInt attempt

/-- The jobs that a failure names. -/
def failedJobs (checks : List (Str × Str)) : List Str :=
  ((checks.filter fun c => !([success, str "skipped", str "queued", str "in_progress",
    str "waiting", str "pending"].contains c.2)).map (·.1)).insertionSort fun a b =>
      strLe a b = true

/-- `SHA_PATTERN.fullmatch`. -/
def isSha (s : Str) : Bool :=
  s.length = 40 && s.all fun c => (0x30 ≤ c.val && c.val ≤ 0x39) || (0x61 ≤ c.val && c.val ≤ 0x66)

/-- `CiEvidence(...)`. -/
def CiEvidence.make (headSha : Str) (runId : Int) (runUrl : Str) (checks : List (Str × Str)) :
    Except CiError CiEvidence :=
  if isSha headSha = true ∧ 1 ≤ runId then .ok ⟨headSha, runId, runUrl, checks⟩
  else .error .validation

/-- `{name: checks[name] for name in task.required_checks}`. -/
def requiredOf (task : CiTask) (checks : List (Str × Str)) : List (Str × Str) :=
  ofItems (task.requiredChecks.filterMap fun name => (item? name checks).map fun c => (name, c))

def runUrl (detail : Fields) : Except CiError Str :=
  match Json.get? detail (str "url") with
  | some url => .ok url.pyStr
  | none => .error .key

/-! ## Polling -/

/-- What the refreshed detail of the run decides. -/
def conclude (task : CiTask) (headSha : Str) (runId attempt : Int) (failed : List Str)
    (excerpt : Option Str) (detail : Fields) : Except CiError (Option Verdict) :=
  if isOf detail headSha attempt && isCompleted detail then
    let checks := jobChecks detail
    let refreshedFailed := failedRequiredChecks task checks
    if refreshedFailed ≠ [] then
      if failed = [] then .ok none
      else do
        let url ← runUrl detail
        return some (.failed ⟨headSha, runId, url, refreshedFailed, failedJobs checks, excerpt⟩)
    else if concludedSuccess detail && allSucceeded task checks then do
      let url ← runUrl detail
      let e ← CiEvidence.make headSha runId url (requiredOf task checks)
      return some (.evidence e)
    else .ok none
  else .ok none

def exactShaRuns (task : CiTask) (headSha : Str) : CiProg (List Fields) := do
  return matchingRuns headSha (← await (.runList task.branch))

/-- `_run_detail`. -/
def runDetail (run : Fields) : CiProg (Option Fields) := do
  return (← await (.runView (Json.get run (str "databaseId")).pyStr)).fields?

/-- The part of an iteration after the first reading of the run. -/
def refresh (task : CiTask) (headSha : Str) (run : Fields) (runId attempt : Int)
    (failed : List Str) (excerpt : Option Str) : CiProg (Option Verdict) := do
  checkControl
  match ← exactShaRuns task headSha with
  | [] => return none
  | newest :: _ =>
    if (Json.get newest (str "databaseId")).eqInt runId &&
        (Json.get newest (str "attempt")).eqInt attempt then do
      match ← runDetail run with
      | some detail => .ofExcept (conclude task headSha runId attempt failed excerpt detail)
      | none => return none
    else return none

/-- One look at the newest run. -/
def inspect (task : CiTask) (headSha : Str) (deadline : PyFloat) (run : Fields) :
    CiProg (Option Verdict) :=
  match (Json.get run (str "databaseId")).asInt?, (Json.get run (str "attempt")).asInt? with
  | some runId, some attempt => do
    match ← runDetail run with
    | none => return none
    | some detail =>
      let checks := jobChecks detail
      let failed := failedRequiredChecks task checks
      let succeeded := isCompleted detail && concludedSuccess detail && allSucceeded task checks
      if isOf detail headSha attempt && isCompleted detail && (failed != [] || succeeded) then do
        let excerpt ← diagnose deadline failed detail
        refresh task headSha run runId attempt failed excerpt
      else return none
  | _, _ => return none

def timeoutMessage (headSha : Str) (seenRun : Bool) : Str :=
  str "CI timed out for " ++ headSha ++ str " " ++
    if seenRun then str "after observing a run" else str "before any exact-HEAD run appeared"

/-- The polling loop; none where it has not ended after so many iterations. -/
def poll (task : CiTask) (headSha : Str) (deadline : PyFloat) :
    Nat → Int → Bool → CiProg (Option Verdict)
  | 0, _, _ => return none
  | fuel + 1, delay, seenRun => do
    let now ← await .monotonic
    if before now deadline then do
      checkControl
      let runs ← exactShaRuns task headSha
      match ← (match runs with
        | [] => (return none : CiProg (Option Verdict))
        | run :: _ => inspect task headSha deadline run) with
      | some verdict => return some verdict
      | none => do
        let now ← await .monotonic
        let left ← .ofExcept (truncate (deadline.sub now))
        controlledSleep (min delay (max 1 left)).toNat
        poll task headSha deadline fuel (min task.pollMaxSeconds (delay * 2))
          (seenRun || !runs.isEmpty)
    else .raise (.timeout (timeoutMessage headSha seenRun))

/-- **`wait_for_ci`**, for so many iterations of its loop. -/
def waitForCi (fuel : Nat) (task : CiTask) (headSha : Str) (timeoutSeconds : Int) :
    CiProg (Option Verdict) := do
  let start ← await .monotonic
  let deadline ← .ofExcept (addInt start timeoutSeconds)
  poll task headSha deadline fuel task.pollInitialSeconds false

/-! ## Iterations -/

variable {task : CiTask} {headSha : Str}

theorem exactShaRuns_ends {Q : Except CiError (List Fields) → List Reading → Prop}
    (he : ∀ e reads, Q (.error e) reads)
    (h : ∀ runs, Q (.ok (matchingRuns headSha runs)) (reads ++ [.runs runs])) :
    Ends Q (exactShaRuns task headSha) reads := by
  refine safe_bind (R := fun r reads' => reads' = reads ++ readings (.runList task.branch) r)
    (fun runs _ e => ?_) (fun e _ _ => he e _) (ends_await fun r => rfl)
  rw [e]
  exact h runs

theorem runDetail_ends {run : Fields} {Q : Except CiError (Option Fields) → List Reading → Prop}
    (he : ∀ e reads, Q (.error e) reads)
    (h : ∀ value : Json, Q (.ok value.fields?)
      (reads ++ [.detail (Json.get run (str "databaseId")).pyStr value])) :
    Ends Q (runDetail run) reads := by
  refine safe_bind (R := fun r reads' => reads' =
      reads ++ readings (.runView (Json.get run (str "databaseId")).pyStr) r)
    (fun value _ e => ?_) (fun e _ _ => he e _) (ends_await fun r => rfl)
  rw [e]
  exact h value

/-- What the last answers of a run say: the newest listed run of the head, and a detail of
that run and attempt, which is completed. -/
structure Refreshed (headSha : Str) (runId attempt : Int) (runs : Json) (id : Str)
    (detail : Fields) : Prop where
  newest : ∃ run ∈ listed headSha runs,
    (∀ other ∈ listed headSha runs, strLe (createdAt other) (createdAt run) = true) ∧
    (Json.get run (str "databaseId")).eqInt runId = true ∧
    (Json.get run (str "attempt")).eqInt attempt = true
  asked : ∃ value : Json, value.asInt? = some runId ∧ id = value.pyStr
  isOf : isOf detail headSha attempt = true
  completed : isCompleted detail = true

/-- The run that is listed first is the newest. -/
theorem newest_of_head {runs : Json} {run : Fields} {rest : List Fields}
    (h : matchingRuns headSha runs = run :: rest) : run ∈ listed headSha runs ∧
      ∀ other ∈ listed headSha runs, strLe (createdAt other) (createdAt run) = true := by
  have hmem (other : Fields) : other ∈ listed headSha runs ↔ other ∈ run :: rest := by
    rw [← h]
    exact (List.mem_insertionSort _).symm
  have hsorted : (run :: rest).Pairwise fun a b => strLe (createdAt b) (createdAt a) = true := by
    have : Std.Total fun a b : Fields => strLe (createdAt b) (createdAt a) = true :=
      ⟨fun a b => strLe_total (createdAt b) (createdAt a)⟩
    have : IsTrans Fields fun a b => strLe (createdAt b) (createdAt a) = true :=
      ⟨fun a b c hab hbc => strLe_trans hbc hab⟩
    rw [← h]
    exact List.pairwise_insertionSort _ _
  refine ⟨(hmem run).2 List.mem_cons_self, fun other hother => ?_⟩
  rcases List.mem_cons.1 ((hmem other).1 hother) with rfl | hrest
  · exact (strLe_total _ _).elim id id
  · exact (List.pairwise_cons.1 hsorted).1 other hrest

/-- What stands behind a verdict: the last answers, and the check of the required names. -/
def Decided (task : CiTask) (headSha : Str) (reads : List Reading) : Verdict → Prop
  | .evidence e => ∃ earlier runs id value detail attempt,
      reads = earlier ++ [.runs runs, .detail id value] ∧ value.fields? = some detail ∧
      Refreshed headSha e.runId attempt runs id detail ∧ e.headSha = headSha ∧
      concludedSuccess detail = true ∧ allSucceeded task (jobChecks detail) = true
  | .failed f => ∃ earlier value₀ detail₀ runs id value detail attempt,
      reads = earlier ++ [.detail id value₀, .runs runs, .detail id value] ∧
      value₀.fields? = some detail₀ ∧ value.fields? = some detail ∧
      isOf detail₀ headSha attempt = true ∧
      Refreshed headSha f.runId attempt runs id detail ∧ f.headSha = headSha ∧
      failedRequiredChecks task (jobChecks detail₀) ≠ [] ∧
      failedRequiredChecks task (jobChecks detail) ≠ []

/-- What a detail that decides says. -/
theorem conclude_ok {runId attempt : Int} {failed : List Str} {excerpt : Option Str}
    {detail : Fields} {verdict : Verdict}
    (h : conclude task headSha runId attempt failed excerpt detail = .ok (some verdict)) :
    isOf detail headSha attempt = true ∧ isCompleted detail = true ∧
      ((∃ f, verdict = .failed f ∧ f.headSha = headSha ∧ f.runId = runId ∧ failed ≠ [] ∧
          failedRequiredChecks task (jobChecks detail) ≠ []) ∨
        ∃ e, verdict = .evidence e ∧ e.headSha = headSha ∧ e.runId = runId ∧
          concludedSuccess detail = true ∧ allSucceeded task (jobChecks detail) = true) := by
  unfold conclude at h
  split at h
  · next hof =>
    rw [Bool.and_eq_true] at hof
    refine ⟨hof.1, hof.2, ?_⟩
    dsimp only at h
    by_cases hfailed : failedRequiredChecks task (jobChecks detail) = []
    · rw [if_neg (not_not.2 hfailed)] at h
      split at h
      · next hpass =>
        rw [Bool.and_eq_true] at hpass
        obtain ⟨url, -, h⟩ := except_bind_ok.1 h
        obtain ⟨e, he, h⟩ := except_bind_ok.1 h
        cases h
        unfold CiEvidence.make at he
        split at he
        · cases he
          exact .inr ⟨_, rfl, rfl, rfl, hpass⟩
        · cases he
      · cases h
    · rw [if_pos hfailed] at h
      by_cases hfirst : failed = []
      · rw [if_pos hfirst] at h
        cases h
      · rw [if_neg hfirst] at h
        obtain ⟨url, -, h⟩ := except_bind_ok.1 h
        cases h
        exact .inl ⟨_, rfl, rfl, rfl, hfirst, hfailed⟩
  · cases h

/-- A verdict is backed by what has been read. -/
def Backed (task : CiTask) (headSha : Str) (r : Except CiError (Option Verdict))
    (reads : List Reading) : Prop :=
  ∀ verdict, r = .ok (some verdict) → Decided task headSha reads verdict

variable {reads : List Reading}

theorem Backed.error (e : CiError) : Backed task headSha (.error e) reads := by
  rintro _ ⟨⟩

theorem Backed.none : Backed task headSha (.ok none) reads := by
  rintro _ ⟨⟩

/-- The second reading, after a first one that was of the run and attempt. -/
theorem refresh_backed {run : Fields} {runId attempt : Int} {failed : List Str}
    {excerpt : Option Str} {value₀ : Json} {detail₀ : Fields}
    (hid : (Json.get run (str "databaseId")).asInt? = some runId)
    (hvalue₀ : value₀.fields? = some detail₀) (hof : isOf detail₀ headSha attempt = true)
    (hfailed : failed = failedRequiredChecks task (jobChecks detail₀)) :
    Ends (Backed task headSha) (refresh task headSha run runId attempt failed excerpt)
      (reads ++ [.detail (Json.get run (str "databaseId")).pyStr value₀]) := by
  unfold refresh
  refine ends_bind checkControl_quiet (fun _ => ?_) (fun e => .error e)
  refine safe_bind (R := fun r reads' => ∀ ms, r = .ok ms → ∃ runs,
      ms = matchingRuns headSha runs ∧ reads' = reads ++
        [.detail (Json.get run (str "databaseId")).pyStr value₀] ++ [.runs runs])
    (fun ms reads' hms => ?_) (fun e _ _ => .error e)
    (exactShaRuns_ends (fun e _ => by rintro _ ⟨⟩) fun runs => by
      rintro _ ⟨⟩
      exact ⟨runs, rfl, rfl⟩)
  obtain ⟨runs, hruns, rfl⟩ := hms ms rfl
  cases ms with
  | nil => exact .none
  | cons newest rest =>
    dsimp only
    split
    · next hsame =>
      rw [Bool.and_eq_true] at hsame
      obtain ⟨hmem, hnewest⟩ := newest_of_head hruns.symm
      refine safe_bind (R := fun r reads' => ∀ d, r = .ok d → ∃ value : Json,
          d = value.fields? ∧ reads' = reads ++ [.detail (Json.get run (str "databaseId")).pyStr
            value₀, .runs runs, .detail (Json.get run (str "databaseId")).pyStr value])
        (fun d reads' hd => ?_) (fun e _ _ => .error e)
        (runDetail_ends (fun e _ => by rintro _ ⟨⟩) fun value => by
          rintro _ ⟨⟩
          exact ⟨value, rfl, by simp⟩)
      obtain ⟨value, rfl, rfl⟩ := hd d rfl
      cases hvalue : value.fields? with
      | none => exact .none
      | some detail =>
        refine safe_ofExcept.2 fun verdict hverdict => ?_
        obtain ⟨hof', hcompleted, h⟩ := conclude_ok hverdict
        have hrefreshed : Refreshed headSha runId attempt runs
            (Json.get run (str "databaseId")).pyStr detail :=
          ⟨⟨newest, hmem, hnewest, hsame⟩, ⟨_, hid, rfl⟩, hof', hcompleted⟩
        rcases h with ⟨f, rfl, hhead, rfl, hfirst, hagain⟩ | ⟨e, rfl, hhead, rfl, hpass⟩
        · exact ⟨reads, value₀, detail₀, runs, _, value, detail, attempt, rfl, hvalue₀, hvalue, hof,
            hrefreshed, hhead, hfailed ▸ hfirst, hagain⟩
        · exact ⟨reads ++ [.detail (Json.get run (str "databaseId")).pyStr value₀], runs, _, value,
            detail, attempt, by simp, hvalue, hrefreshed, hhead, hpass⟩
    · exact .none

theorem inspect_backed (deadline : PyFloat) (run : Fields) :
    Ends (Backed task headSha) (inspect task headSha deadline run) reads := by
  unfold inspect
  split
  · next runId attempt hid _ =>
    refine safe_bind (R := fun r reads' => ∀ d, r = .ok d → ∃ value : Json,
        d = value.fields? ∧ reads' = reads ++
          [.detail (Json.get run (str "databaseId")).pyStr value])
      (fun d reads' hd => ?_) (fun e _ _ => .error e)
      (runDetail_ends (fun e _ => by rintro _ ⟨⟩) fun value => by
        rintro _ ⟨⟩
        exact ⟨value, rfl, rfl⟩)
    obtain ⟨value, rfl, rfl⟩ := hd d rfl
    cases hvalue : value.fields? with
    | none => exact .none
    | some detail =>
      dsimp only
      split
      · next hpass =>
        simp only [Bool.and_eq_true] at hpass
        exact ends_bind (diagnose_quiet _ _ _)
          (fun excerpt => refresh_backed hid hvalue hpass.1.1 rfl) (fun e => .error e)
      · exact .none
  · exact .none

/-- **The loop**: an iteration that decides has read what it needs itself. -/
theorem poll_backed (deadline : PyFloat) :
    ∀ (fuel : Nat) (delay : Int) (seenRun : Bool) (reads : List Reading),
      Ends (Backed task headSha) (poll task headSha deadline fuel delay seenRun) reads := by
  intro fuel
  induction fuel with
  | zero => exact fun _ _ _ => .none
  | succ fuel ih =>
    intro delay seenRun reads
    unfold poll
    refine ends_bind (quiet_await fun r => by cases r <;> rfl) (fun now => ?_) (fun e => .error e)
    split
    · refine ends_bind checkControl_quiet (fun _ => ?_) (fun e => .error e)
      refine safe_bind (R := fun _ _ => True) (fun runs reads _ => ?_) (fun e _ _ => .error e)
        (exactShaRuns_ends (fun _ _ => trivial) fun _ => trivial)
      refine safe_bind (R := Backed task headSha) (fun decided reads hdecided => ?_)
        (fun e _ _ => .error e) ?_
      · cases decided with
        | some verdict => exact hdecided
        | none =>
          refine ends_bind (quiet_await fun r => by cases r <;> rfl) (fun now => ?_)
            (fun e => .error e)
          refine ends_bind (quiet_ofExcept _) (fun left => ?_) (fun e => .error e)
          exact ends_bind (controlledSleep_quiet _) (fun _ => ih _ _ _) (fun e => .error e)
      · cases runs with
        | nil => exact .none
        | cons run rest => exact inspect_backed deadline run
    · exact .error _

theorem waitForCi_backed (fuel : Nat) (timeoutSeconds : Int) :
    Ends (Backed task headSha) (waitForCi fuel task headSha timeoutSeconds) reads :=
  ends_bind (quiet_await fun r => by cases r <;> rfl)
    (fun _ => ends_bind (quiet_ofExcept _) (fun deadline => poll_backed deadline _ _ _ _)
      fun e => .error e)
    fun e => .error e

/-! ## Job lists -/

/-- The job concluded with success. -/
def Concluded (job : Fields) : Prop := Json.get job (str "conclusion") = .str success

/-- A job without a conclusion that has the status `success`. -/
def Standing (job : Fields) : Prop :=
  (Json.get job (str "conclusion")).truthy = false ∧ Json.get job (str "status") = .str success

/-- Every required name occurs, and every job that bears one concluded with success. -/
def Green (task : CiTask) (detail : Fields) : Prop :=
  ∀ name ∈ task.requiredChecks, (∃ job ∈ jobsOf detail, jobName job = name) ∧
    ∀ job ∈ jobsOf detail, jobName job = name → Concluded job

/-- A job that bears a required name did not conclude with success. -/
def Red (task : CiTask) (detail : Fields) : Prop :=
  ∃ name ∈ task.requiredChecks, ∃ job ∈ jobsOf detail, jobName job = name ∧ ¬ Concluded job

/-- **A job list that hides nothing**: a job of a required name that did not conclude with
success is the last one of its name, and does not have the status `success`. -/
def Plain (task : CiTask) (detail : Fields) : Prop :=
  ∀ name ∈ task.requiredChecks, ∀ l job m, jobsOf detail = l ++ job :: m → jobName job = name →
    ¬ Concluded job → (∀ later ∈ m, jobName later ≠ name) ∧ ¬ Standing job

theorem jobCheck_success {job : Fields} :
    jobCheck job = success ↔ Concluded job ∨ Standing job := by
  have hstr {value : Json} : value.pyStr = success ↔ value = .str success :=
    ⟨fun h => Json.pyStr_eq_s h, fun h => h ▸ rfl⟩
  unfold jobCheck Json.orElse Concluded Standing
  cases h : (Json.get job (str "conclusion")).truthy with
  | true => simp [hstr]
  | false =>
    have hne : Json.get job (str "conclusion") ≠ .str success := fun e => by
      rw [e] at h
      cases h
    simp [hstr, hne]

/-- The check of a name is that of the last job that bears it. -/
theorem item?_jobChecks {detail : Fields} {name c : Str} :
    item? name (jobChecks detail) = some c ↔ ∃ l job m, jobsOf detail = l ++ job :: m ∧
      jobName job = name ∧ (∀ later ∈ m, jobName later ≠ name) ∧ jobCheck job = c := by
  unfold jobChecks
  rw [item?_ofItems_some]
  constructor
  · rintro ⟨l, m, he, hm⟩
    obtain ⟨l', m', hjobs, rfl, hm'⟩ := List.map_eq_append_iff.1 he
    obtain ⟨job, m'', rfl, hjob, rfl⟩ := List.map_eq_cons_iff.1 hm'
    cases hjob
    exact ⟨l', job, m'', hjobs, rfl,
      fun later hlater => hm _ (List.mem_map_of_mem hlater), rfl⟩
  · rintro ⟨l, job, m, hjobs, rfl, hm, rfl⟩
    refine ⟨l.map fun job => (jobName job, jobCheck job),
      m.map fun job => (jobName job, jobCheck job), ?_, fun x hx => ?_⟩
    · rw [hjobs, List.map_append, List.map_cons]
    · obtain ⟨later, hlater, rfl⟩ := List.mem_map.1 hx
      exact hm later hlater

/-- **Where the checks pass, the jobs did if and only if none is hidden.** -/
theorem green_iff {detail : Fields} (h : allSucceeded task (jobChecks detail) = true) :
    Green task detail ↔ Plain task detail := by
  have hlast {name : Str} (hname : name ∈ task.requiredChecks) :
      item? name (jobChecks detail) = some success :=
    beq_iff_eq.1 (List.all_eq_true.1 h name hname)
  constructor
  · intro hgreen name hname l job m hjobs hbears hnot
    exact absurd ((hgreen name hname).2 job (by simp [hjobs]) hbears) hnot
  · intro hplain name hname
    constructor
    · obtain ⟨l, job, m, hjobs, hbears, -⟩ := item?_jobChecks.1 (hlast hname)
      exact ⟨job, by simp [hjobs], hbears⟩
    · intro job hjob hbears
      by_contra hnot
      obtain ⟨l, m, hjobs⟩ := List.append_of_mem hjob
      obtain ⟨hlater, hstanding⟩ := hplain name hname l job m hjobs hbears hnot
      have hcheck := item?_jobChecks.2 ⟨l, job, m, hjobs, hbears, hlater, rfl⟩
      rw [hlast hname] at hcheck
      exact (jobCheck_success.1 (Option.some.inj hcheck).symm).elim hnot hstanding

/-- A failed check is of a job that did not conclude with success. -/
theorem red_of_failed {detail : Fields} (h : failedRequiredChecks task (jobChecks detail) ≠ []) :
    Red task detail := by
  obtain ⟨name, hname⟩ := List.exists_mem_of_ne_nil _ h
  obtain ⟨hrequired, hfailed⟩ := List.mem_filter.1 hname
  obtain ⟨c, hc, hterminal⟩ := (Option.any_eq_true _ _).1 hfailed
  obtain ⟨l, job, m, hjobs, hbears, -, rfl⟩ := item?_jobChecks.1 hc
  refine ⟨name, hrequired, job, by simp [hjobs], hbears, fun hconcluded => ?_⟩
  rw [jobCheck_success.2 (.inl hconcluded)] at hterminal
  cases hterminal

/-! ## The gate -/

/-- **What a verdict stands for.** -/
def Sound (task : CiTask) (headSha : Str) (reads : List Reading) : Verdict → Prop
  | .evidence e => ∃ earlier runs id value detail attempt,
      reads = earlier ++ [.runs runs, .detail id value] ∧ value.fields? = some detail ∧
      Refreshed headSha e.runId attempt runs id detail ∧ e.headSha = headSha ∧
      concludedSuccess detail = true ∧ Green task detail
  | .failed f => ∃ earlier value₀ detail₀ runs id value detail attempt,
      reads = earlier ++ [.detail id value₀, .runs runs, .detail id value] ∧
      value₀.fields? = some detail₀ ∧ value.fields? = some detail ∧
      isOf detail₀ headSha attempt = true ∧
      Refreshed headSha f.runId attempt runs id detail ∧ f.headSha = headSha ∧
      Red task detail₀ ∧ Red task detail

/-- A failure is sound, and evidence where the last job list hides nothing. -/
theorem Decided.sound {verdict : Verdict} (h : Decided task headSha reads verdict) :
    (∀ f, verdict = .failed f → Sound task headSha reads verdict) ∧
    ∀ e, verdict = .evidence e → ∃ id value detail,
      reads.getLast? = some (.detail id value) ∧ value.fields? = some detail ∧
      (Sound task headSha reads verdict ↔ Plain task detail) := by
  cases verdict with
  | failed f =>
    obtain ⟨earlier, value₀, detail₀, runs, id, value, detail, attempt, hreads, hvalue₀, hvalue,
      hof, hrefreshed, hhead, hfirst, hagain⟩ := h
    refine ⟨fun _ _ => ?_, by rintro _ ⟨⟩⟩
    exact ⟨earlier, value₀, detail₀, runs, id, value, detail, attempt, hreads, hvalue₀, hvalue, hof,
      hrefreshed, hhead, red_of_failed hfirst, red_of_failed hagain⟩
  | evidence e =>
    obtain ⟨earlier, runs, id, value, detail, attempt, rfl, hvalue, hrefreshed, hhead, hsuccess,
      hall⟩ := h
    refine ⟨by rintro _ ⟨⟩, fun _ _ => ⟨id, value, detail, by simp, hvalue, ?_⟩⟩
    rw [← green_iff hall]
    constructor
    · rintro ⟨earlier', runs', id', value', detail', attempt', he, hvalue', -, -, -, hgreen⟩
      obtain ⟨-, he⟩ := List.append_inj' he rfl
      cases he
      rw [hvalue] at hvalue'
      cases hvalue'
      exact hgreen
    · intro hgreen
      exact ⟨earlier, runs, id, value, detail, attempt, rfl, hvalue, hrefreshed, hhead, hsuccess,
        hgreen⟩

/-- **The gate is sound where no job list hides a job.** A failure is always sound; evidence
is exactly where the last job list that was read is plain. -/
theorem ci_gate {fuel : Nat} {timeoutSeconds : Int} {verdict : Verdict}
    (h : Exec ciEffect [] (waitForCi fuel task headSha timeoutSeconds) reads
      (.ret (some verdict))) :
    ((∀ id value detail, .detail id value ∈ reads → value.fields? = some detail →
      Plain task detail) → Sound task headSha reads verdict) ∧
    (∀ f, verdict = .failed f → Sound task headSha reads verdict) ∧
    ∀ e, verdict = .evidence e → ∃ id value detail,
      reads.getLast? = some (.detail id value) ∧ value.fields? = some detail ∧
      (Sound task headSha reads verdict ↔ Plain task detail) := by
  have hdecided : Decided task headSha reads verdict :=
    Safe.returns h trivial (waitForCi_backed fuel timeoutSeconds) verdict rfl
  obtain ⟨hfailed, hevidence⟩ := hdecided.sound
  refine ⟨fun hplain => ?_, hfailed, hevidence⟩
  cases verdict with
  | failed f => exact hfailed f rfl
  | evidence e =>
    obtain ⟨id, value, detail, hlast, hvalue, hiff⟩ := hevidence e rfl
    exact hiff.2 (hplain id value detail (List.mem_of_getLast? hlast) hvalue)

end

/-! ## Sample runs -/

section

abbrev sampleUnicode : UnicodeData := ⟨fun _ => true, fun s => s⟩

attribute [local instance] sampleUnicode

def sampleTask : CiTask where
  branch := str "nyan/task-1"
  requiredChecks := [str "ci-gate"]
  pollInitialSeconds := 5
  pollMaxSeconds := 60
  required := by decide
  initial := by decide
  most := by decide
  backoff := by decide

def sampleHead : Str := List.replicate 40 (chr 'a')

def sampleRuns : Json := .arr [.obj [
  (str "databaseId", .int 7), (str "attempt", .int 1), (str "headSha", .str sampleHead),
  (str "createdAt", .str (str "2026-01-01T00:00:00Z"))]]

/-- A job with the required name. -/
def sampleJob (conclusion : String) : Json := .obj [
  (str "name", .str (str "ci-gate")), (str "status", .str (str "completed")),
  (str "conclusion", .str (str conclusion))]

/-- A run that was a success, with its jobs. -/
def sampleDetail (jobs : List Json) : Json := .obj [
  (str "databaseId", .int 7), (str "attempt", .int 1), (str "headSha", .str sampleHead),
  (str "status", .str (str "completed")), (str "conclusion", .str success),
  (str "url", .str (str "https://ci.invalid/7")), (str "jobs", .arr jobs)]

def sampleReply (jobs : List Json) : (op : CiOp) → Except CiError op.Res
  | .monotonic => .ok (.finite 0)
  | .control => .ok .running
  | .runList _ => .ok sampleRuns
  | .runView _ => .ok (sampleDetail jobs)
  | .failedCiDiagnostics _ _ => .ok none
  | .sleep => .ok ()

def sampleAnswer (jobs : List Json) (reads : List Reading) (op : CiOp) :
    Except CiError op.Res × List Reading :=
  (sampleReply jobs op, reads ++ readings op (sampleReply jobs op))

/-- What is read, where the run is listed and viewed twice. -/
def sampleReads (jobs : List Json) : List Reading :=
  [.runs sampleRuns, .detail (str "7") (sampleDetail jobs), .runs sampleRuns,
    .detail (str "7") (sampleDetail jobs)]

def sampleEvidence : CiEvidence :=
  ⟨sampleHead, 7, str "https://ci.invalid/7", [(str "ci-gate", success)]⟩

theorem sample_deadline : addInt (.finite 0) 60 = .ok (.finite 60) := by decide +kernel

theorem sample_before : before (.finite 0) (.finite 60) = true := by decide +kernel

/-- The gate with these answers, where the first look decides. -/
theorem sample_exec {jobs : List Json} {verdict : Verdict}
    (h : ∀ deadline, before (.finite 0) deadline = true →
      (poll sampleTask sampleHead deadline 1 5 false).run (sampleAnswer jobs) [] =
        (.ok (some verdict), sampleReads jobs)) :
    Exec ciEffect [] (waitForCi 1 sampleTask sampleHead 60) (sampleReads jobs)
      (.ret (some verdict)) := by
  have hanswer (reads : List Reading) (op : CiOp) : ciEffect (id reads) op
      (sampleAnswer jobs reads op).1 (id (sampleAnswer jobs reads op).2) := rfl
  have hexec := Exec.of_run id hanswer (waitForCi 1 sampleTask sampleHead 60) []
  have hrun : (waitForCi 1 sampleTask sampleHead 60).run (sampleAnswer jobs) [] =
      (.ok (some verdict), sampleReads jobs) := by
    show ((Prog.ofExcept (addInt (.finite 0) 60) : CiProg PyFloat) >>= fun deadline =>
      poll sampleTask sampleHead deadline 1 5 false).run (sampleAnswer jobs) [] = _
    rw [sample_deadline]
    show (poll sampleTask sampleHead (.finite 60) 1 5 false).run (sampleAnswer jobs) [] = _
    exact h _ sample_before
  rw [hrun] at hexec
  exact hexec

theorem ci_gate_sample :
    ((∀ id value detail, .detail id value ∈ sampleReads [sampleJob "success"] →
        value.fields? = some detail → Plain sampleTask detail) →
      Sound sampleTask sampleHead (sampleReads [sampleJob "success"]) (.evidence sampleEvidence)) ∧
    (∀ f, Verdict.evidence sampleEvidence = .failed f → Sound sampleTask sampleHead
      (sampleReads [sampleJob "success"]) (.evidence sampleEvidence)) ∧
    ∀ e, Verdict.evidence sampleEvidence = .evidence e → ∃ id value detail,
      (sampleReads [sampleJob "success"]).getLast? = some (.detail id value) ∧
      value.fields? = some detail ∧
      (Sound sampleTask sampleHead (sampleReads [sampleJob "success"])
        (.evidence sampleEvidence) ↔ Plain sampleTask detail) :=
  ci_gate (sample_exec fun deadline hd => by
    show Prog.run _ (if before (.finite 0) deadline then _ else _) _ = _
    rw [if_pos hd]
    rfl)

/-- **Evidence for a head whose required job failed**, since another job has its name. -/
theorem hidden_job_passes :
    Exec ciEffect [] (waitForCi 1 sampleTask sampleHead 60)
        (sampleReads [sampleJob "failure", sampleJob "success"])
        (.ret (some (.evidence sampleEvidence))) ∧
      ¬ Sound sampleTask sampleHead (sampleReads [sampleJob "failure", sampleJob "success"])
        (.evidence sampleEvidence) := by
  refine ⟨sample_exec fun deadline hd => ?_, ?_⟩
  · show Prog.run _ (if before (.finite 0) deadline then _ else _) _ = _
    rw [if_pos hd]
    rfl
  rintro ⟨earlier, runs, id, value, detail, attempt, he, hvalue, -, -, -, hgreen⟩
  have hlast := congrArg List.getLast? he
  rw [List.getLast?_append] at hlast
  cases hlast
  cases hvalue
  have hfailed := (hgreen (str "ci-gate") List.mem_cons_self).2 _ List.mem_cons_self rfl
  exact absurd (Json.str.inj hfailed) (by decide)

end

end NyanShopBot.Orchestrator.CiGate
