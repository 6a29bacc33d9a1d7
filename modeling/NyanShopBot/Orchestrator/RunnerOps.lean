import NyanShopBot.Orchestrator.RunnerView

/-!
# What the calls do to the view

One lemma for each call of the runner that is not quiet says what it leaves of the view of
the run: an update of columns (`view_updateRun`), a phase (`view_transition`), an event
(`view_appendEvent`), an account, a checkpoint of CI, a launch and the moves of the lease.
All other calls are quiet (`ServiceEffect.quiet`).
-/

namespace NyanShopBot.Orchestrator

open Py Db Conc

/-! ## Columns -/

/-- The column is not one of the phase, the lease or the usage. -/
def RunField.isPlain : RunField → Bool
  | phase _ | pid _ | processIdentity _ | workerEnforceableTokens _
  | reviewerEnforceableTokens _ => false
  | _ => true

/-- The column is not vital either. -/
def RunField.isQuiet : RunField → Bool
  | headSha _ | reviewedHeadSha _ | fixRounds _ | agentInvocations _ => false
  | f => f.isPlain

def Core.set (c : Core) : RunField → Core
  | .headSha v => { c with head := v }
  | .reviewedHeadSha v => { c with reviewed := v }
  | .fixRounds v => { c with fixRounds := v }
  | .agentInvocations v => { c with invocations := v }
  | _ => c

def Core.assign (c : Core) (values : List RunField) : Core := values.foldl Core.set c

theorem Core.assign_quiet {values : List RunField} (h : ∀ f ∈ values, f.isQuiet = true)
    (c : Core) : c.assign values = c := by
  induction values generalizing c with
  | nil => rfl
  | cons f values ih =>
    have hset : c.set f = c := by
      have hf := h f List.mem_cons_self
      cases f <;> first | rfl | cases hf
    show Core.assign (c.set f) values = c
    rw [hset]
    exact ih (fun f hf => h f (List.mem_cons_of_mem _ hf)) c

theorem RunField.isPlain_of_isQuiet {f : RunField} (h : f.isQuiet = true) : f.isPlain = true := by
  cases f <;> first | rfl | cases h

theorem RunField.phase?_of_isPlain {f : RunField} (h : f.isPlain = true) : f.phase? = none := by
  cases f <;> first | rfl | cases h

/-! ## Tables -/

section tables

variable {t : Tables} {runId : Str} {launched : List Launch} {phases : List RunPhase} {r : RunRow}
  {v : View}

theorem view_eq_some : t.view runId launched phases = some v ↔
    ∃ r, t.run? runId = some r ∧ t.viewOf runId launched phases r = v :=
  Option.map_eq_some_iff

/-- An update of the row. -/
theorem view_setRun (f : RunRow → RunRow) (hkey : ∀ r, (f r).runId = r.runId)
    (h : t.run? runId = some r) : (t.setRun runId f).view runId launched phases =
      some (t.viewOf runId launched phases (f r)) := by
  unfold Tables.view
  rw [run?_setRun_self hkey h]
  rfl

theorem viewOf_assign {values : List RunField} (h : ∀ f ∈ values, f.isPlain = true)
    (r : RunRow) : t.viewOf runId launched phases (r.assign values) =
      { t.viewOf runId launched phases r with
        core := (t.viewOf runId launched phases r).core.assign values } := by
  induction values generalizing r with
  | nil => rfl
  | cons f values ih =>
    have hset : t.viewOf runId launched phases (f.set r) =
        { t.viewOf runId launched phases r with
          core := (t.viewOf runId launched phases r).core.set f } := by
      have hf := h f List.mem_cons_self
      cases f <;> first | rfl | cases hf
    have hrest := ih (fun f hf => h f (List.mem_cons_of_mem _ hf)) (f.set r)
    rw [hset] at hrest
    exact hrest

theorem view_addEvent (e : EventRow) (h : t.view runId launched phases = some v) :
    (t.addEvent e).view runId launched phases = some { v with log := v.log ++ [e] } := by
  obtain ⟨r, hr, rfl⟩ := view_eq_some.1 h
  exact view_eq_some.2 ⟨r, hr, rfl⟩

/-- A transaction on the lease adds to the log and leaves the ledger alone. -/
structure Tables.Extends (t t' : Tables) : Prop where
  log : t.events <+: t'.events
  usage : t'.invocationUsage = t.invocationUsage

theorem Tables.Extends.refl (t : Tables) : t.Extends t := ⟨List.prefix_refl _, rfl⟩

theorem Tables.Extends.trans {t' t'' : Tables} (h : t.Extends t') (h' : t'.Extends t'') :
    t.Extends t'' :=
  ⟨h.log.trans h'.log, h'.usage.trans h.usage⟩

end tables

/-! ## The lease -/

section lease

variable {s s' : Store} {runId : Str} {u : Unit}

theorem extends_event {kind : Str} {payload : Json}
    (h : appendEventRow runId kind payload s = .ok (u, s')) : s.1.Extends s'.1 := by
  rw [appendEventRow_ok h]
  exact ⟨List.prefix_append _ _, rfl⟩

theorem extends_updateWhere {guard : RunRow → Bool} {f : RunRow → RunRow} {b : Bool}
    (h : updateWhere runId guard f s = .ok (b, s')) : s.1.Extends s'.1 := by
  rcases updateWhere_ok h with ⟨-, -, hs⟩ | ⟨-, -, rfl⟩
  · rw [hs]
    exact ⟨List.prefix_refl _, rfl⟩
  · exact .refl _

theorem extends_leaseOp {op : LeaseOp} (h : op.body runId s = .ok (u, s')) : s.1.Extends s'.1 := by
  cases op with
  | acquireProcessLease pid identity token =>
    unfold LeaseOp.body acquireProcessLease at h
    rw [Tx.ensure_bind_ok] at h
    obtain ⟨row, hrow, h⟩ := selectRun_bind_ok h.2
    obtain ⟨hnone, h⟩ := Tx.ensure_bind_ok.1 h
    obtain ⟨hb, h⟩ := bindAll_bind_ok.1 h
    obtain ⟨found, s₂, hup, hend⟩ := Tx.bind_ok.1 h
    exact (extends_updateWhere hup).trans (extends_event hend)
  | setActiveAgent token agent =>
    unfold LeaseOp.body setActiveAgent at h
    rw [Tx.ensure_bind_ok] at h
    obtain ⟨hb, h⟩ := bindAll_bind_ok.1 h.2
    obtain ⟨found, s₂, hup, hend⟩ := Tx.bind_ok.1 h
    obtain ⟨hfound, hend⟩ := Tx.ensure_bind_ok.1 hend
    exact (extends_updateWhere hup).trans (extends_event hend)
  | clearActiveAgent token pid identity =>
    unfold LeaseOp.body clearActiveAgent noteFound at h
    obtain ⟨-, h⟩ := bindAll_bind_ok.1 h
    obtain ⟨found, s₂, hup, hend⟩ := Tx.bind_ok.1 h
    refine (extends_updateWhere hup).trans ?_
    cases found with
    | true => exact extends_event hend
    | false =>
      obtain ⟨-, rfl⟩ := Tx.pure_ok.1 hend
      exact .refl _
  | clearStaleActiveAgent token pid identity =>
    unfold LeaseOp.body clearStaleActiveAgent at h
    obtain ⟨-, h⟩ := bindAll_bind_ok.1 h
    obtain ⟨found, s₂, hup, hend⟩ := Tx.bind_ok.1 h
    obtain ⟨hfound, hend⟩ := Tx.ensure_bind_ok.1 hend
    exact (extends_updateWhere hup).trans (extends_event hend)
  | releaseProcessLease token =>
    unfold LeaseOp.body releaseProcessLease concludeRelease at h
    obtain ⟨-, h⟩ := bindAll_bind_ok.1 h
    obtain ⟨found, s₂, hup, hend⟩ := Tx.bind_ok.1 h
    refine (extends_updateWhere hup).trans ?_
    cases found with
    | true => exact extends_event hend
    | false =>
      rw [if_neg Bool.false_ne_true, Tx.query_bind] at hend
      obtain ⟨-, rfl⟩ := Tx.ensure_ok.1 hend
      exact .refl _
  | clearStaleProcessLease pid identity token =>
    unfold LeaseOp.body clearStaleProcessLease at h
    obtain ⟨-, h⟩ := bindAll_bind_ok.1 h
    obtain ⟨found, s₂, hup, hend⟩ := Tx.bind_ok.1 h
    obtain ⟨hfound, hend⟩ := Tx.ensure_bind_ok.1 hend
    exact (extends_updateWhere hup).trans (extends_event hend)

/-- The move is one of the agent of the row. -/
def LeaseOp.isAgent : LeaseOp → Bool
  | setActiveAgent _ _ | clearActiveAgent _ _ _ | clearStaleActiveAgent _ _ _ => true
  | _ => false

/-- What a transaction on the lease leaves of the view. -/
theorem view_lease {op : LeaseOp} {launched : List Launch} {phases : List RunPhase} {v : View}
    (h : op.body runId s = .ok (u, s')) (hv : s.1.view runId launched phases = some v) :
    ∃ v' r r', s'.1.view runId launched phases = some v' ∧ LeaseMove op r r' ∧
      r.holder = v.holder ∧ r'.holder = v'.holder ∧ v'.core = v.core ∧ v'.mark = v.mark ∧
      v'.phase = v.phase ∧ v.log <+: v'.log := by
  obtain ⟨r, hr, rfl⟩ := view_eq_some.1 hv
  obtain ⟨r', hr', hmove⟩ := body_ok h hr
  have hext := extends_leaseOp h
  refine ⟨_, r, r', view_eq_some.2 ⟨r', hr', rfl⟩, hmove, rfl, rfl, ?_, rfl, ?_, hext.log⟩
  · have husage : s'.1.unaccounted runId = s.1.unaccounted runId := by
      unfold Tables.unaccounted
      rw [hext.usage]
    unfold Tables.viewOf
    rw [husage]
    cases hmove <;> rfl
  · cases hmove <;> rfl

end lease

/-! ## Transactions -/

/-- The run is put in a phase, which an event notes. -/
def View.enter (v : View) (phase : RunPhase) (e : EventRow) : View where
  core := { v.core with handedOver := nextHanded v.core.handedOver phase }
  mark := nextMark v.mark phase
  phase := phase
  holder := v.holder
  log := v.log ++ [e]

section transactions

variable {s s' : Store} {t : Tables} {runId : Str} {launched : List Launch}
  {phases : List RunPhase} {v : View}

theorem view_updateRun {values : List RunField} {u : Unit}
    (h : updateRun runId values s = .ok (u, s')) (hplain : ∀ f ∈ values, f.isPlain = true)
    (hv : s.1.view runId launched phases = some v) :
    s'.1.view runId launched phases = some { v with core := v.core.assign values } := by
  obtain ⟨r, hr, rfl⟩ := view_eq_some.1 hv
  rw [updateRun_ok h, view_setRun _ (RunRow.assign_runId · values) hr]
  exact congrArg some (viewOf_assign hplain r)

theorem view_transition {phase : RunPhase} {payload : Json} {u : Unit}
    (h : transition runId phase payload s = .ok (u, s'))
    (hv : s.1.view runId launched phases = some v) :
    s'.1.view runId launched (phases ++ [phase]) =
      some (v.enter phase ⟨runId, phase.eventKind, payload, none⟩) := by
  obtain ⟨r, hr, rfl⟩ := view_eq_some.1 hv
  rw [transition_ok h]
  refine (view_addEvent _ (view_setRun _ (RunRow.assign_runId · [.phase phase]) hr)).trans ?_
  unfold Tables.viewOf View.enter
  rw [List.foldl_append, List.foldl_append]
  rfl

theorem view_appendEvent {kind : Str} {payload : Json} {u : Unit}
    (h : appendEventRow runId kind payload s = .ok (u, s'))
    (hv : s.1.view runId launched phases = some v) :
    s'.1.view runId launched phases =
      some { v with log := v.log ++ [⟨runId, kind, payload, none⟩] } := by
  rw [appendEventRow_ok h]
  exact view_addEvent _ hv

/-- An account changes what was spent, and whether all of it is known. -/
theorem view_recordUsage {c : UsageCall} {now : Str} {record : UsageRecord}
    (hid : c.runId = runId) (h : recordInvocationUsage c now s = .ok (record, s'))
    (hv : s.1.view runId launched phases = some v) :
    ∃ spent unaccounted more, s'.1.view runId launched phases = some { v with
      core := { v.core with spent := spent, unaccounted := unaccounted }
      log := v.log ++ more } := by
  subst hid
  obtain ⟨r, hr, rfl⟩ := view_eq_some.1 hv
  obtain ⟨role, -, hrepeat | ⟨run, prior, enforceable, next, hacc⟩⟩ := recordInvocationUsage_ok h
  · obtain ⟨existing, run, -, -, -, -, rfl⟩ := hrepeat
    exact ⟨_, _, [], by rw [List.append_nil]; exact hv⟩
  · have hkey (r : RunRow) : (r.account role (prior + enforceable.getD 0)
        (run.totalTokens + enforceable.getD 0) c.sessionId c.terminalEventsSha256 next).runId =
          r.runId := by cases role <;> rfl
    have hr : (s.1.addUsage (c.row role enforceable now)).run? c.runId = some r := hr
    rw [hacc.writes, view_addEvent _ (view_setRun _ hkey hr)]
    cases role <;> exact ⟨_, _, _, rfl⟩

theorem Reactivates.view {run : RunRow} (h : Reactivates s.1 run t)
    (hv : s.1.view runId launched phases = some v) :
    ∃ more, t.view runId launched phases = some { v with log := v.log ++ more } := by
  rw [h.writes]
  exact ⟨_, view_addEvent _ hv⟩

/-- The writer has the run again. -/
def View.fixed (v : View) (round : Int) (log : List EventRow) : View where
  core := { v.core with reviewed := none, fixRounds := round, handedOver := false }
  mark := .fixRequested
  phase := .fixRequested
  holder := v.holder
  log := log

theorem view_setFix {c : CiFixCall} (h : t.view c.runId launched phases = some v) :
    (t.setRun c.runId (·.fixRequested c)).view c.runId launched (phases ++ [.fixRequested]) =
      some (v.fixed c.nextFixRound v.log) := by
  obtain ⟨r, hr, rfl⟩ := view_eq_some.1 h
  rw [view_setRun (·.fixRequested c) (fun _ => rfl) hr]
  unfold Tables.viewOf View.fixed
  rw [List.foldl_append, List.foldl_append]
  rfl

theorem view_recordCiFix {c : CiFixCall} {u : Unit} (hid : c.runId = runId)
    (h : recordCiFixRequest c s = .ok (u, s')) (hv : s.1.view runId launched phases = some v) :
    v.phase = c.expectedPhase ∧ v.core.fixRounds = c.expectedFixRounds ∧
      c.nextFixRound = c.expectedFixRounds + 1 ∧ ∃ more,
        s'.1.view runId launched (phases ++ [.fixRequested]) =
          some (v.fixed c.nextFixRound (v.log ++ more)) := by
  subst hid
  obtain ⟨run, t, kind, payload, hrun, hnext, hphase, -, hrounds, hclaim, ht⟩ :=
    recordCiFixRequest_ok h
  have hstart : ∃ more, t.view c.runId launched phases = some { v with log := v.log ++ more } := by
    rcases hclaim with ⟨-, rfl⟩ | ⟨-, hre⟩
    · exact ⟨[], by rw [List.append_nil]; exact hv⟩
    · exact hre.view hv
  obtain ⟨more, hmore⟩ := hstart
  obtain ⟨r, hr, rfl⟩ := view_eq_some.1 hv
  obtain rfl := Option.some.inj (hr.symm.trans hrun)
  refine ⟨hphase, hrounds, hnext, more ++ [⟨c.runId, str "ci.failed", .obj c.request, none⟩,
    ⟨c.runId, kind, payload, none⟩], ?_⟩
  rw [ht]
  refine (view_addEvent _ (view_addEvent _ (view_setFix hmore))).trans ?_
  unfold View.fixed
  simp only [List.append_assoc, List.cons_append, List.nil_append]

/-- The reviewer has the run again. -/
def View.recovered (v : View) (log : List EventRow) : View where
  core := { v.core with reviewed := none, handedOver := false }
  mark := .reviewRunning
  phase := .reviewRunning
  holder := v.holder
  log := log

theorem view_setPassed {ciUrl : Str} {ciRunId : Int} (h : t.view runId launched phases = some v) :
    (t.setRun runId (·.ciPassed ciRunId ciUrl)).view runId launched (phases ++ [.reviewRunning]) =
      some (v.recovered v.log) := by
  obtain ⟨r, hr, rfl⟩ := view_eq_some.1 h
  rw [view_setRun (·.ciPassed ciRunId ciUrl) (fun _ => rfl) hr]
  unfold Tables.viewOf View.recovered
  rw [List.foldl_append, List.foldl_append]
  rfl

theorem view_recoverBlocked {head ciUrl : Str} {ciRunId : Int} {u : Unit}
    (h : recoverBlockedCiPass runId head ciRunId ciUrl s = .ok (u, s'))
    (hv : s.1.view runId launched phases = some v) :
    pyStr v.core.head = head ∧ ∃ log, v.log <+: log ∧ CiPassed runId head log ∧
      s'.1.view runId launched (phases ++ [.reviewRunning]) = some (v.recovered log) := by
  obtain ⟨run, t, hrun, -, hhead, hre, ht⟩ := recoverBlockedCiPass_ok h
  obtain ⟨more, hmore⟩ := hre.view hv
  obtain ⟨r, hr, rfl⟩ := view_eq_some.1 hv
  obtain rfl := Option.some.inj (hr.symm.trans hrun)
  rw [ht]
  refine ⟨hhead, _, ?_, ?_, view_addEvent _ (view_addEvent _ (view_setPassed hmore))⟩
  · unfold View.recovered
    rw [List.append_assoc, List.append_assoc]
    exact List.prefix_append _ _
  · refine ⟨_, List.mem_append_left _ (List.mem_append_right _ (List.mem_singleton_self _)),
      rfl, rfl, _, rfl, rfl⟩

end transactions

/-! ## The invariant after a transaction -/

/-- A phase of a run that a writer, CI or a reviewer has. -/
def RunPhase.isWork : RunPhase → Bool
  | stopped | blocked => false
  | p => !p.isGate

section good

variable {runId : Str} {task : TaskSpec} {v : View} {e : EventRow} {log : List EventRow}

theorem View.Good.not_handed (h : v.Good runId task) (hwork : v.mark.isWork = true) :
    v.core.handedOver = false := by
  by_contra hne
  obtain ⟨hmark, -⟩ := h.handed (by simpa using hne)
  unfold RunPhase.isWork at hwork
  rcases hmark with hgate | hblocked
  · split at hwork
    · cases hwork
    · cases hwork
    · rw [hgate] at hwork
      cases hwork
  · rw [hblocked] at hwork
    cases hwork

theorem nextHanded_of_isWork {p : RunPhase} (hwork : p.isWork = true) (handed : Bool) :
    nextHanded handed p = false := by
  cases p <;> first | rfl | cases hwork

theorem nextMark_of_ne {p : RunPhase} (hp : p ≠ .stopped) (mark : RunPhase) :
    nextMark mark p = p := if_neg hp

theorem RunPhase.ne_stopped_of_isWork {p : RunPhase} (hwork : p.isWork = true) : p ≠ .stopped := by
  rintro rfl
  cases hwork

theorem RunPhase.not_isGate_of_isWork {p : RunPhase} (hwork : p.isWork = true) :
    p.isGate = false := by
  cases p <;> first | rfl | cases hwork

/-- A phase of work. -/
theorem View.Good.enter_work {p : RunPhase} (h : v.Good runId task) (hwork : p.isWork = true)
    (hci : p = .reviewRunning → CiPassed runId (pyStr v.core.head) v.log) :
    (v.enter p e).Good runId task where
  task := h.task
  phase := .inl (nextMark_of_ne (RunPhase.ne_stopped_of_isWork hwork) _).symm
  handed hh := by
    have hno : nextHanded v.core.handedOver p = true := hh
    rw [nextHanded_of_isWork hwork] at hno
    cases hno
  gate hg := by
    have hgate : (nextMark v.mark p).isGate = true := hg
    rw [nextMark_of_ne (RunPhase.ne_stopped_of_isWork hwork),
      RunPhase.not_isGate_of_isWork hwork] at hgate
    cases hgate
  review hr := by
    have hp : nextMark v.mark p = .reviewRunning := hr
    rw [nextMark_of_ne (RunPhase.ne_stopped_of_isWork hwork)] at hp
    exact (hci hp).mono (List.prefix_append _ _)
  within := h.within.congr rfl rfl rfl rfl

theorem View.Good.enter_blocked (h : v.Good runId task) : (v.enter .blocked e).Good runId task where
  task := h.task
  phase := .inl rfl
  handed hh := by
    obtain ⟨-, head, hhead, hreviewed, hvetted⟩ := h.handed hh
    exact ⟨.inr rfl, head, hhead, hreviewed, hvetted.mono (List.prefix_append _ _)⟩
  gate := by rintro ⟨⟩
  review := by rintro ⟨⟩
  within := h.within.congr rfl rfl rfl rfl

/-- The run is handed over. -/
theorem View.Good.enter_ready {head : Str} (h : v.Good runId task) (hhead : v.core.head = some head)
    (hreviewed : v.core.reviewed = some head) (hvetted : Vetted runId head v.log) :
    (v.enter .readyForOwner e).Good runId task where
  task := h.task
  phase := .inl rfl
  handed _ := ⟨.inl rfl, head, hhead, hreviewed, hvetted.mono (List.prefix_append _ _)⟩
  gate _ := rfl
  review := by rintro ⟨⟩
  within := h.within.congr rfl rfl rfl rfl

/-- A run that was handed over goes on to its merge, and from there to its end. -/
theorem View.Good.enter_merged {p : RunPhase} (h : v.Good runId task)
    (hp : p = .ownerMerged ∨ p = .completed) (hhanded : v.core.handedOver = true) :
    (v.enter p e).Good runId task := by
  have hmark : nextMark v.mark p = p := by rcases hp with rfl | rfl <;> rfl
  have hkept : nextHanded v.core.handedOver p = v.core.handedOver := by
    rcases hp with rfl | rfl <;> rfl
  obtain ⟨-, head, hhead, hreviewed, hvetted⟩ := h.handed hhanded
  refine ⟨h.task, .inl hmark.symm, fun _ => ⟨.inl ?_, head, hhead, hreviewed,
    hvetted.mono (List.prefix_append _ _)⟩, fun _ => hkept.trans hhanded, fun hr => ?_, ?_⟩
  · show (nextMark v.mark p).isGate = true
    rw [hmark]
    rcases hp with rfl | rfl <;> rfl
  · have hr : nextMark v.mark p = .reviewRunning := hr
    rw [hmark] at hr
    rcases hp with rfl | rfl <;> cases hr
  · exact h.within.congr rfl rfl rfl rfl

theorem View.Good.fixed {round : Int} (h : v.Good runId task)
    (hround : round ≤ task.budget.maxFixRounds) : (v.fixed round log).Good runId task where
  task := h.task
  phase := .inl rfl
  handed := by rintro ⟨⟩
  gate := by rintro ⟨⟩
  review := by rintro ⟨⟩
  within := ⟨h.within.invocations, (h.task.symm ▸ hround : round ≤ v.core.task.budget.maxFixRounds),
    h.within.count, h.within.attempts, h.within.increasing, h.within.affordable, h.within.held⟩

theorem View.Good.recovered (h : v.Good runId task)
    (hci : CiPassed runId (pyStr v.core.head) log) : (v.recovered log).Good runId task where
  task := h.task
  phase := .inl rfl
  handed := by rintro ⟨⟩
  gate := by rintro ⟨⟩
  review _ := hci
  within := h.within.congr rfl rfl rfl rfl

/-- Columns of a run that is worked on. -/
theorem View.Good.recore {c : Core} (h : v.Good runId task) (hwork : v.mark.isWork = true)
    (htask : c.task = v.core.task) (hhanded : c.handedOver = v.core.handedOver)
    (hhead : v.mark = .reviewRunning → c.head = v.core.head) (hwithin : c.Within) :
    View.Good runId task { v with core := c } where
  task := htask.trans h.task
  phase := h.phase
  handed hh := by
    have hno : c.handedOver = true := hh
    rw [hhanded, h.not_handed hwork] at hno
    cases hno
  gate hg := hhanded.trans (h.gate hg)
  review hr := by
    show CiPassed runId (pyStr c.head) v.log
    rw [hhead hr]
    exact h.review hr
  within := hwithin

end good

/-! ## Quiet calls -/

/-- The transaction touches no vital column, and no phase but the stop. -/
def StoreOp.IsQuiet (runId : Str) : StoreOp → Prop
  | .getRun _ | .hasUnenforceableUsage _ | .releaseClaim _ | .appendEvent _ _ _ => True
  | .appendActivityEvent id _ _ _ => id = runId
  | .updateRun id values => id = runId ∧ ∀ f ∈ values, f.isQuiet = true
  | .transition id phase _ => id = runId ∧ phase = .stopped
  | _ => False

def ServiceOp.IsQuiet (runId : Str) : ServiceOp → Prop
  | .store op => op.IsQuiet runId
  | .machine (.exec op) => op.isAgent = true
  | .launch _ _ _ => False
  | _ => True

theorem View.Quiet.log_append {v : View} (more : List EventRow) :
    v.Quiet { v with log := v.log ++ more } :=
  ⟨rfl, rfl, .inl rfl, rfl, List.prefix_append _ _⟩

theorem View.Quiet.refl (v : View) : v.Quiet v :=
  ⟨rfl, rfl, .inl rfl, rfl, List.prefix_refl _⟩

section quiet

variable {s s' : Store} {runId : Str} {launched : List Launch} {phases : List RunPhase} {v : View}

theorem Pinned.view {session : Option (Role × Str)} {t : Tables} (h : Pinned runId s.1 session t)
    (hv : s.1.view runId launched phases = some v) : t.view runId launched phases = some v := by
  cases h with
  | none | same => exact hv
  | @first run role session hrun hnone =>
    obtain ⟨r, hr, rfl⟩ := view_eq_some.1 hv
    rw [view_setRun (·.setSession session role) (fun r => by cases role <;> rfl) hr]
    cases role <;> rfl

theorem StoreOp.quiet {op : StoreOp} {a : op.Res} (hq : op.IsQuiet runId)
    (h : op.body s = .ok (a, s')) (hv : s.1.view runId launched phases = some v) :
    ∃ v', s'.1.view runId launched (phases ++ op.phases (.ok a)) = some v' ∧ v.Quiet v' := by
  cases op with
  | getRun id =>
    obtain ⟨-, rfl⟩ := selectRun_ok h
    exact ⟨v, (List.append_nil phases).symm ▸ hv, .refl v⟩
  | hasUnenforceableUsage id =>
    obtain rfl := hasUnenforceableUsage_ok h
    exact ⟨v, (List.append_nil phases).symm ▸ hv, .refl v⟩
  | releaseClaim id =>
    show ∃ v', s'.1.view runId launched (phases ++ []) = some v' ∧ _
    rw [List.append_nil, releaseClaim_ok h]
    exact ⟨_, view_addEvent _ hv, .log_append _⟩
  | appendEvent id kind payload =>
    show ∃ v', s'.1.view runId launched (phases ++ []) = some v' ∧ _
    rw [List.append_nil, appendEventRow_ok h]
    exact ⟨_, view_addEvent _ hv, .log_append _⟩
  | appendActivityEvent id payload key session =>
    obtain rfl : id = runId := hq
    show ∃ v', s'.1.view id launched (phases ++ []) = some v' ∧ _
    rw [List.append_nil]
    obtain ⟨t, hpin, ⟨-, hs⟩ | ⟨-, hs⟩⟩ := appendActivityEvent_ok h
    · exact ⟨v, hs ▸ hpin.view hv, .refl v⟩
    · exact ⟨_, hs ▸ view_addEvent _ (hpin.view hv), .log_append _⟩
  | updateRun id values =>
    obtain ⟨rfl, hquiet⟩ := hq
    have hnone : StoreOp.phases (.updateRun id values) (.ok a) = [] :=
      List.filterMap_eq_nil_iff.2 fun f hf =>
        RunField.phase?_of_isPlain (RunField.isPlain_of_isQuiet (hquiet f hf))
    rw [hnone, List.append_nil,
      view_updateRun h (fun f hf => RunField.isPlain_of_isQuiet (hquiet f hf)) hv,
      Core.assign_quiet hquiet]
    exact ⟨v, rfl, .refl v⟩
  | transition id phase payload =>
    obtain ⟨rfl, rfl⟩ := hq
    exact ⟨_, view_transition h hv, rfl, rfl, .inr rfl, rfl, List.prefix_append _ _⟩
  | _ => cases hq

end quiet

/-! ## Calls -/

section calls

variable [UnicodeData] {runId : Str} {w w' : World} {me : Process} {v : View}

theorem ServiceEffect.ages {op : Process × ServiceOp} {r : Except RunnerError op.2.Res}
    (h : ServiceEffect runId w op r w') : Ages op.1 w.machine.dead w'.machine.dead := by
  cases h with
  | machine h => cases h <;> assumption
  | store _ h | heartbeat h _ | heartbeatLost h _ | launch _ h | ask h _ => exact h

/-- A transaction raised and left the view, or it ran. -/
theorem ServiceEffect.store_cases {op : StoreOp} {r : Except RunnerError op.Res}
    (h : ServiceEffect runId w (me, .store op) r w') :
    (∃ e, r = .error (.store e) ∧ w'.view runId = w.view runId) ∨
      ∃ a s', op.body w.machine.store = .ok (a, s') ∧ r = .ok a ∧
        w'.view runId = s'.1.view runId w.launched (w.phases ++ op.phases (.ok a)) := by
  cases h with
  | store op hages =>
    rcases Tx.commit_cases op.body w.machine.store with ⟨e, he⟩ | ⟨a, s', he, hbody⟩
    · have hnone : op.phases (.error e) = [] := by cases op <;> rfl
      have he : op.exec w.machine.store = (.error e, w.machine.store) := he
      left
      refine ⟨e, by rw [he]; rfl, ?_⟩
      unfold World.view World.tables
      rw [he, hnone, List.append_nil]
    · have he : op.exec w.machine.store = (.ok a, s') := he
      right
      refine ⟨a, s', hbody, by rw [he]; rfl, ?_⟩
      unfold World.view World.tables
      rw [he]

/-- A transaction on the lease raised and left the view, or it moved it. -/
theorem ServiceEffect.lease_cases {op : LeaseOp} {r : Except RunnerError Unit}
    (h : ServiceEffect runId w (me, .machine (.exec op)) r w') (hv : w.view runId = some v) :
    (∃ e, r = .error (.store e) ∧ w'.view runId = some v) ∨
      r = .ok () ∧ ∃ v' row row', w'.view runId = some v' ∧ LeaseMove op row row' ∧
        row.holder = v.holder ∧ row'.holder = v'.holder ∧ v'.core = v.core ∧ v'.mark = v.mark ∧
        v'.phase = v.phase ∧ v.log <+: v'.log := by
  cases h with
  | machine h =>
    cases h with
    | exec op hages =>
      rcases Tx.commit_cases (op.body runId) w.machine.store with ⟨e, he⟩ | ⟨u, s', he, hbody⟩
      · have he : op.exec runId w.machine.store = (.error e, w.machine.store) := he
        left
        refine ⟨e, by rw [he]; rfl, ?_⟩
        rw [← hv]
        unfold World.view World.tables
        rw [he]
      · have he : op.exec runId w.machine.store = (.ok u, s') := he
        right
        refine ⟨by rw [he]; rfl, ?_⟩
        unfold World.view World.tables
        rw [he]
        exact view_lease hbody hv

/-- **A quiet call is a quiet step.** -/
theorem ServiceEffect.quiet {op : ServiceOp} {r : Except RunnerError op.Res}
    (h : ServiceEffect runId w (me, op) r w') (hq : op.IsQuiet runId)
    (hv : w.view runId = some v) : ∃ v', w'.view runId = some v' ∧ v.Quiet v' := by
  cases op with
  | store op =>
    rcases h.store_cases with ⟨e, -, hsame⟩ | ⟨a, s', hbody, -, hview⟩
    · exact ⟨v, hsame.trans hv, .refl v⟩
    · rw [hview]
      exact StoreOp.quiet hq hbody hv
  | machine action =>
    cases action with
    | exec op =>
      rcases h.lease_cases hv with ⟨e, -, hsame⟩ |
        ⟨-, v', row, row', hv', hmove, hrow, hrow', hrest⟩
      · exact ⟨v, hsame, .refl v⟩
      · obtain ⟨hcore, hmark, hphase, hlog⟩ := hrest
        refine ⟨v', hv', hcore, hmark, .inl hphase, ?_, hlog⟩
        rw [← hrow, ← hrow']
        cases hmove with
        | agentSet | agentCleared | agentKept | staleAgentCleared => rfl
        | _ => cases hq
    | _ =>
      cases h with
      | machine h =>
        cases h
        all_goals exact ⟨v, hv, .refl v⟩
  | launch => cases hq
  | hang => cases h
  | _ =>
    cases h
    all_goals exact ⟨v, hv, .refl v⟩

end calls

end NyanShopBot.Orchestrator
