import NyanShopBot.Db.EventLog
import NyanShopBot.Orchestrator.Lease
import NyanShopBot.Orchestrator.TokenLedger

/-!
# The audit log of a run

The store appends an event in the transaction that changes a run. `Note` is what the kind
of an event says, and `audit` reads a log: from the events of a run alone it rebuilds the
`RunStatus`, which is its phase, its claim, the process and the agent that hold it, and what
each role has used. Every operation explains what it changes (`exec_explains`), if its caller
leaves the columns of the status and the kinds of the store to the store.
-/

namespace NyanShopBot.Orchestrator

open Py Db

/-! ## What events say -/

structure RunStatus where
  phase : RunPhase
  claimed : Bool
  pid : Option Int
  activeAgentPid : Option Int
  workerEnforceableTokens : Option Int
  reviewerEnforceableTokens : Option Int
deriving DecidableEq

/-- The kinds of event that tell of the status. -/
inductive Note where
  | created
  | phase (p : RunPhase)
  | claim (active : Bool)
  | leaseAcquired
  | leaseFreed
  | agentStarted
  | agentGone
  | usage
deriving DecidableEq

def phaseNotes : List (Str × Note) :=
  [RunPhase.created, .claimed, .workerRunning, .workerComplete, .ciWaiting, .reviewRunning,
    .fixRequested, .readyForOwner, .mergePendingConfirmation, .mergeAuthorized, .ownerMerged,
    .paused, .stopped, .blocked, .completed].map fun p => (p.eventKind, .phase p)

def notes : List (Str × Note) := phaseNotes ++ [
  (str "run.created", .created),
  (str "claim.released", .claim false),
  (str "claim.reactivated", .claim true),
  (str "process.lease_acquired", .leaseAcquired),
  (str "process.lease_released", .leaseFreed),
  (str "process.stale_lease_cleared", .leaseFreed),
  (str "agent.process_started", .agentStarted),
  (str "agent.process_finished", .agentGone),
  (str "agent.stale_process_cleared", .agentGone),
  (str "usage.accounted", .usage)]

def noteOf (kind : Str) : Option Note := (notes.find? fun n => n.1 = kind).map (·.2)

theorem notes_nodup : (notes.map (·.1)).Nodup := by decide +kernel

theorem noteOf_of_mem {kind : Str} (note : Note) (h : (kind, note) ∈ notes) :
    noteOf kind = some note := by
  have hfound : notes.find? (fun n => n.1 = kind) = some (kind, note) :=
    @lookup_of_mem _ _ _ _ _ Prod.fst notes_nodup h
  unfold noteOf
  rw [hfound]
  rfl

theorem noteOf_eventKind (p : RunPhase) : noteOf p.eventKind = some (.phase p) := by
  refine noteOf_of_mem _ (List.mem_append_left _ (List.mem_map_of_mem ?_))
  cases p <;> simp

/-- A member of a payload. -/
def Json.member? (payload : Json) (k : Str) : Option Json :=
  match payload with
  | .obj members => Json.get? members k
  | _ => none

def Json.int? : Json → Option Int
  | .int n => some n
  | _ => none

/-- `payload["pid"]`. -/
def payloadPid (payload : Json) : Option Int :=
  (Json.member? payload (str "pid")).bind Json.int?

/-- `payload["role"]`. -/
def payloadRole (payload : Json) : Option Role :=
  match Json.member? payload (str "role") with
  | some (.str s) => Role.ofValue s
  | _ => none

/-- `payload["role_enforceable_total"]`. -/
def payloadTotal (payload : Json) : Option Int :=
  (Json.member? payload (str "role_enforceable_total")).bind Json.int?

namespace RunStatus

/-- A run that was just claimed. -/
def new : RunStatus := ⟨.created, true, none, none, some 0, some 0⟩

/-- What the payload says that the role has used. -/
def use (v : RunStatus) (payload : Json) : RunStatus :=
  match payloadRole payload with
  | some .worker => { v with workerEnforceableTokens := payloadTotal payload }
  | some .reviewer => { v with reviewerEnforceableTokens := payloadTotal payload }
  | none => v

def take (v : RunStatus) (payload : Json) : Note → RunStatus
  | .created => new
  | .phase p => { v with phase := p }
  | .claim active => { v with claimed := active }
  | .leaseAcquired => { v with pid := payloadPid payload }
  | .leaseFreed => { v with pid := none }
  | .agentStarted => { v with activeAgentPid := payloadPid payload }
  | .agentGone => { v with activeAgentPid := none }
  | .usage => v.use payload

end RunStatus

/-- What an event of a run changes of its status; a run begins with its first one. -/
def EventRow.replay (e : EventRow) (status : Option RunStatus) : Option RunStatus :=
  match noteOf e.kind with
  | some .created => some .new
  | some note => status.map (·.take e.payload note)
  | none => status

/-- How the log is read. -/
def audit : Reading EventRow Str (Option RunStatus) := ⟨EventRow.runId, none, EventRow.replay⟩

/-! ## The status in the tables -/

def RunRow.status (r : RunRow) (claimed : Bool) : RunStatus where
  phase := r.phase
  claimed := claimed
  pid := r.pid
  activeAgentPid := r.activeAgentPid
  workerEnforceableTokens := r.workerEnforceableTokens
  reviewerEnforceableTokens := r.reviewerEnforceableTokens

/-- Whether a claim of the run is active. -/
def Tables.claimed (t : Tables) (runId : Str) : Bool :=
  t.claims.any fun c => c.runId = runId && c.active

def Tables.status (t : Tables) (runId : Str) : Option RunStatus :=
  (t.run? runId).map fun r => r.status (t.claimed runId)

/-- The log of `t` grew to that of `t'` by events that tell how the runs changed. -/
def Explained (t t' : Tables) : Prop := audit.Explains t.events t.status t'.events t'.status

/-! ## The steps -/

section

variable {t t' : Tables} {runId kind : Str} {payload : Json} {source : Option Str}
  {f : RunRow → RunRow} {note : Note}

theorem replay_of_note (hkind : noteOf kind = some note) (hnew : note ≠ .created)
    (v : Option RunStatus) :
    EventRow.replay ⟨runId, kind, payload, source⟩ v = v.map (·.take payload note) := by
  unfold EventRow.replay
  rw [hkind]
  cases note <;> first | rfl | exact absurd rfl hnew

theorem replay_of_none (hkind : noteOf kind = none) (v : Option RunStatus) :
    EventRow.replay ⟨runId, kind, payload, source⟩ v = v := by
  unfold EventRow.replay
  rw [hkind]

theorem Explained.trans {t'' : Tables} (h : Explained t t') (h' : Explained t' t'') :
    Explained t t'' :=
  Reading.Explains.trans h h'

/-- An event that tells nothing of the status. -/
theorem Explained.addEvent (hkind : noteOf kind = none) :
    Explained t (t.addEvent ⟨runId, kind, payload, source⟩) :=
  .note _ rfl (replay_of_none hkind) fun _ => rfl

theorem run?_setRun_other {k : Str} (hk : k ≠ runId) (hkey : ∀ r, (f r).runId = r.runId) :
    (t.setRun runId f).run? k = t.run? k :=
  lookup_modify_other hk fun r hr => (hkey r).trans hr

/-- An update of the run that keeps the columns of the status. -/
theorem Explained.setRun (hkey : ∀ r, (f r).runId = r.runId)
    (hstatus : ∀ r claimed, (f r).status claimed = r.status claimed) :
    Explained t (t.setRun runId f) := by
  refine .nothing rfl fun k => ?_
  unfold Tables.status
  by_cases hk : k = runId
  · subst hk
    cases hr : t.run? k with
    | none =>
      have hnone : (t.setRun k f).run? k = none :=
        (lookup_modify_self fun r hr => (hkey r).trans hr).trans (congrArg (Option.map f) hr)
      rw [hnone]
      rfl
    | some r =>
      rw [run?_setRun_self hkey hr]
      exact congrArg some (hstatus r _)
  · rw [run?_setRun_other hk hkey]
    rfl

/-- An update of the run with the event that tells of it. -/
theorem Explained.setRun_addEvent (hkey : ∀ r, (f r).runId = r.runId)
    (hkind : noteOf kind = some note) (hnew : note ≠ .created)
    (hstatus : ∀ r claimed, t.run? runId = some r →
      (f r).status claimed = (r.status claimed).take payload note) :
    Explained t ((t.setRun runId f).addEvent ⟨runId, kind, payload, source⟩) := by
  refine .event ⟨runId, kind, payload, source⟩ rfl ?_ fun k hk => ?_
  · refine Eq.trans ?_ (replay_of_note hkind hnew _).symm
    show (((t.setRun runId f).run? runId).map fun r => r.status (t.claimed runId)) =
      ((t.run? runId).map fun r => r.status (t.claimed runId)).map (·.take payload note)
    cases hr : t.run? runId with
    | none =>
      have hnone : (t.setRun runId f).run? runId = none :=
        (lookup_modify_self fun r hr => (hkey r).trans hr).trans (congrArg (Option.map f) hr)
      rw [hnone]
      rfl
    | some r =>
      rw [run?_setRun_self hkey hr]
      exact congrArg some (hstatus r _ hr)
  · show ((t.setRun runId f).run? k).map _ = (t.run? k).map _
    rw [@run?_setRun_other t runId f k hk hkey]
    rfl

/-- A checkpoint: the update of the run, the event of what was checked, and its phase. -/
theorem Explained.checkpoint {p : RunPhase} {payload' : Json} (hkind : noteOf kind = none)
    (hkey : ∀ r, (f r).runId = r.runId)
    (hstatus : ∀ r claimed, (f r).status claimed = { r.status claimed with phase := p }) :
    Explained t (((t.setRun runId f).addEvent ⟨runId, kind, payload, none⟩).addEvent
      ⟨runId, p.eventKind, payload', none⟩) := by
  have hnote : Explained t (t.addEvent ⟨runId, kind, payload, none⟩) := .addEvent hkind
  have hphase : Explained (t.addEvent ⟨runId, kind, payload, none⟩)
      (((t.addEvent ⟨runId, kind, payload, none⟩).setRun runId f).addEvent
        ⟨runId, p.eventKind, payload', none⟩) :=
    .setRun_addEvent hkey (noteOf_eventKind p) (by rintro ⟨⟩) fun r claimed _ => hstatus r claimed
  exact hnote.trans hphase

theorem claimed_setClaims_self {active : Bool}
    (h : active = true → ∃ c ∈ t.claims, c.runId = runId) :
    (t.setClaims runId active).claimed runId = active := by
  unfold Tables.claimed
  cases active with
  | false =>
    refine List.any_eq_false.2 fun c hc => ?_
    obtain ⟨c₀, -, rfl⟩ := mem_modify.1 hc
    by_cases hid : c₀.runId = runId <;> simp [hid]
  | true =>
    obtain ⟨c, hc, hid⟩ := h rfl
    refine List.any_eq_true.2 ⟨{ c with active := true }, mem_modify.2 ⟨c, hc, ?_⟩, by simp [hid]⟩
    rw [if_pos hid]

theorem claimed_setClaims_other {active : Bool} {k : Str} (hk : k ≠ runId) :
    (t.setClaims runId active).claimed k = t.claimed k := by
  unfold Tables.claimed Tables.setClaims Db.modify
  rw [List.any_map]
  refine congrArg (List.any t.claims) (funext fun c => ?_)
  by_cases hid : c.runId = runId
  · have hne : ¬ runId = k := fun h => hk h.symm
    simp [hid, hne]
  · simp [hid]

/-- The claim of the run changes hands, with the event that tells of it. -/
theorem Explained.setClaims {active : Bool}
    (h : active = true → ∃ c ∈ t.claims, c.runId = runId)
    (hkind : noteOf kind = some (.claim active)) :
    Explained t ((t.setClaims runId active).addEvent ⟨runId, kind, payload, source⟩) := by
  refine .event ⟨runId, kind, payload, source⟩ rfl ?_ fun k hk => ?_
  · refine Eq.trans ?_ (replay_of_note hkind (by rintro ⟨⟩) _).symm
    show (t.run? runId).map (fun r => r.status ((t.setClaims runId active).claimed runId)) =
      ((t.run? runId).map fun r => r.status (t.claimed runId)).map (·.take payload (.claim active))
    rw [claimed_setClaims_self h]
    cases t.run? runId <;> rfl
  · show (t.run? k).map (fun r => r.status ((t.setClaims runId active).claimed k)) = t.status k
    rw [@claimed_setClaims_other t runId active k hk]
    rfl

theorem Reactivates.explained {run : RunRow} (h : Reactivates t run t') : Explained t t' := by
  obtain ⟨c, hc, -⟩ := h.claim
  have hid := @key_of_lookup _ _ _ ClaimRow.runId _ _ _ hc
  have hclaim := @Explained.setClaims t run.runId (str "claim.reactivated") (.obj []) none true
    (fun _ => ⟨c, mem_of_lookup hc, hid⟩) (noteOf_of_mem _ (by simp [notes]))
  rw [h.writes]
  exact hclaim

theorem Pinned.explained {session : Option (Role × Str)} (h : Pinned runId t session t') :
    Explained t t' := by
  cases h with
  | none => exact .nothing rfl fun _ => rfl
  | same => exact .nothing rfl fun _ => rfl
  | @first _ role session _ _ =>
    refine .setRun (fun r => ?_) fun r claimed => ?_ <;> cases role <;> rfl

end

/-! ## The operations -/

/-- The columns of the status. -/
def RunField.audited : RunField → Bool
  | phase _ | pid _ | workerEnforceableTokens _ | reviewerEnforceableTokens _ => true
  | _ => false

/-- The caller leaves the columns of the status, and the kinds of its events, to the store. -/
def StoreOp.Logged : StoreOp → Prop
  | updateRun _ values => ∀ v ∈ values, v.audited = false
  | appendEvent _ kind _ => noteOf kind = none
  | _ => True

theorem RunField.status_set {v : RunField} (h : v.audited = false) (r : RunRow) (claimed : Bool) :
    (v.set r).status claimed = r.status claimed := by
  cases v <;> first | rfl | cases h

section

variable {s s' : Store} {runId : Str} {u : Unit}

theorem createRun_explained {task : TaskSpec} {taskPath baseSha worktreePath : Str}
    {maxWorkers : Int}
    (h : createRun runId task taskPath baseSha worktreePath maxWorkers s = .ok (u, s')) :
    Explained s.1 s'.1 := by
  obtain ⟨-, hw⟩ := createRun_ok h
  -- the run is new, as its key is
  have hfresh : s.1.run? runId = none := by
    have hn := s'.2.1.1
    rw [hw, List.map_append] at hn
    refine lookup_eq_none.2 fun r hr e => ?_
    exact (List.nodup_append.1 hn).2.2 r.runId (List.mem_map_of_mem hr) runId
      (by simp [RunRow.new]) e
  have hrun (k : Str) : s'.1.run? k = (s.1.run? k).or (if runId = k then
      some (.new runId task taskPath baseSha worktreePath maxWorkers) else none) := by
    rw [hw]
    exact lookup_append
  have hclaim (k : Str) : s'.1.claimed k = (s.1.claimed k || decide (runId = k)) := by
    rw [hw]
    simp [Tables.claimed]
  refine .event ⟨runId, str "run.created", .obj [(str "base_sha", .str baseSha)], none⟩
    (by rw [hw]) ?_ fun k hk => ?_
  · show (s'.1.run? runId).map (fun r => r.status (s'.1.claimed runId)) = some RunStatus.new
    rw [hrun, hclaim, hfresh, if_pos rfl, decide_eq_true rfl, Bool.or_true]
    rfl
  · show (s'.1.run? k).map (fun r => r.status (s'.1.claimed k)) = s.1.status k
    have hne : ¬ runId = k := fun e => hk e.symm
    rw [hrun, hclaim, if_neg hne, decide_eq_false hne, Bool.or_false, Option.or_none]
    rfl

theorem reactivateBlocked_explained {phase : RunPhase} {run : RunRow}
    (h : reactivateBlocked phase run s = .ok (u, s')) : Explained s.1 s'.1 := by
  unfold reactivateBlocked at h
  split at h
  · exact (reactivateClaim_ok h).explained
  · obtain ⟨-, rfl⟩ := Tx.pure_ok.1 h
    exact .nothing rfl fun _ => rfl

theorem recordCiFixRequest_explained {c : CiFixCall}
    (h : recordCiFixRequest c s = .ok (u, s')) : Explained s.1 s'.1 := by
  unfold recordCiFixRequest at h
  simp only [Tx.bind_ok, Tx.ensure_ok] at h
  obtain ⟨_, _, ⟨-, rfl⟩, _, _, ⟨-, rfl⟩, run, s₁, hrun, _, _, ⟨-, rfl⟩, _, s₂, hre, _, _, hb, _,
    s₃, h₃, _, s₄, h₄, h⟩ := h
  obtain ⟨hrun, rfl⟩ := selectRun_ok hrun
  obtain ⟨-, rfl⟩ := bindAll_ok hb
  refine (reactivateBlocked_explained hre).trans ?_
  rw [appendEventRow_ok h, appendEventRow_ok h₄, (Schema.execute_ok.1 h₃).1]
  exact Explained.checkpoint (by decide +kernel) (fun _ => rfl) fun _ _ => rfl

theorem recoverBlockedCiPass_explained {expectedHead ciUrl : Str} {ciRunId : Int}
    (h : recoverBlockedCiPass runId expectedHead ciRunId ciUrl s = .ok (u, s')) :
    Explained s.1 s'.1 := by
  obtain ⟨run, t, -, -, -, hre, hw⟩ := recoverBlockedCiPass_ok h
  refine hre.explained.trans ?_
  rw [hw]
  exact Explained.checkpoint (by decide +kernel) (fun _ => rfl) fun _ _ => rfl

theorem UsageCall.payload_tells (c : UsageCall) (role : Role) (enforceable : Option Int)
    (now : Str) (total : Int) :
    payloadRole ((c.row role enforceable now).payload total) = some role ∧
      payloadTotal ((c.row role enforceable now).payload total) = some total := by
  cases role <;> exact ⟨rfl, rfl⟩

theorem Accounts.explained {c : UsageCall} {role : Role} {now : Str} {record : UsageRecord}
    {run : RunRow} {prior : Int} {enforceable next : Option Int}
    (h : Accounts c role now s record s' run prior enforceable next) : Explained s.1 s'.1 := by
  have hrow : Explained s.1 (s.1.addUsage (c.row role enforceable now)) :=
    .nothing rfl fun _ => rfl
  refine hrow.trans ?_
  have hnote : noteOf (str "usage.accounted") = some .usage := noteOf_of_mem _ (by simp [notes])
  rw [h.writes]
  refine Explained.setRun_addEvent (fun r => ?_) hnote (by rintro ⟨⟩) fun r claimed _ => ?_
  · cases role <;> rfl
  · obtain ⟨hrole, htotal⟩ := c.payload_tells role enforceable now (prior + enforceable.getD 0)
    unfold RunStatus.take RunStatus.use
    rw [hrole, htotal]
    cases role <;> rfl

/-- **What an operation changes of the status of a run, its events tell.** -/
theorem exec_explained {op : StoreOp} {a : op.Res} (h : op.body s = .ok (a, s'))
    (hlogged : op.Logged) : Explained s.1 s'.1 := by
  cases op with
  | createRun => exact createRun_explained h
  | getRun runId =>
    obtain ⟨-, rfl⟩ := selectRun_ok h
    exact .nothing rfl fun _ => rfl
  | updateRun runId values =>
    rw [updateRun_ok h]
    refine .setRun (fun r => r.assign_runId values) fun r claimed => ?_
    exact @RunRow.assign_keeps _ (·.status claimed) _
      (fun v hv r => RunField.status_set (hlogged v hv) r claimed) r
  | recordInvocationUsage c now =>
    obtain ⟨role, -, ⟨_, _, -, -, -, -, rfl⟩ | ⟨run, prior, enforceable, next, ha⟩⟩ :=
      recordInvocationUsage_ok h
    · exact .nothing rfl fun _ => rfl
    · exact ha.explained
  | hasUnenforceableUsage runId =>
    obtain rfl := hasUnenforceableUsage_ok h
    exact .nothing rfl fun _ => rfl
  | transition runId phase payload =>
    rw [transition_ok h]
    exact .setRun_addEvent (fun _ => rfl) (noteOf_eventKind phase) (by rintro ⟨⟩) fun _ _ _ => rfl
  | recordCiFixRequest c => exact recordCiFixRequest_explained h
  | recoverBlockedCiPass => exact recoverBlockedCiPass_explained h
  | appendEvent runId kind payload =>
    rw [appendEventRow_ok h]
    exact .addEvent hlogged
  | appendActivityEvent runId payload sourceKey session =>
    obtain ⟨t, hpin, ⟨-, hw⟩ | ⟨-, hw⟩⟩ := appendActivityEvent_ok h
    · rw [hw]
      exact hpin.explained
    · rw [hw]
      have hnote : noteOf (str "agent.activity") = none := by decide +kernel
      exact hpin.explained.trans (Explained.addEvent hnote)
  | releaseClaim runId =>
    rw [releaseClaim_ok h]
    exact .setClaims (by rintro ⟨⟩) (noteOf_of_mem _ (by simp [notes]))

/-- An update that found its row, and the event of it. -/
theorem updateWhere_explained {guard : RunRow → Bool} {f : RunRow → RunRow} {kind : Str}
    {payload : Json} {note : Note} {s₁ : Store}
    (hup : updateWhere runId guard f s = .ok (true, s₁))
    (hev : appendEventRow runId kind payload s₁ = .ok (u, s'))
    (hkey : ∀ r, (f r).runId = r.runId) (hkind : noteOf kind = some note)
    (hnew : note ≠ .created) (hstatus : ∀ r claimed,
      (f r).status claimed = (r.status claimed).take payload note) : Explained s.1 s'.1 := by
  rcases updateWhere_ok hup with ⟨-, -, hs⟩ | ⟨hb, -⟩
  · rw [appendEventRow_ok hev, hs]
    exact .setRun_addEvent hkey hkind hnew fun r claimed _ => hstatus r claimed
  · cases hb

theorem updateWhere_missed {guard : RunRow → Bool} {f : RunRow → RunRow} {s₁ : Store}
    (hup : updateWhere runId guard f s = .ok (false, s₁)) : s₁ = s := by
  rcases updateWhere_ok hup with ⟨hb, -⟩ | ⟨-, -, hs⟩
  · cases hb
  · exact hs

theorem leaseBody_explained {op : LeaseOp} (h : op.body runId s = .ok (u, s')) :
    Explained s.1 s'.1 := by
  cases op with
  | acquireProcessLease pid identity token =>
    unfold LeaseOp.body acquireProcessLease at h
    rw [Tx.ensure_bind_ok] at h
    obtain ⟨row, hrow, h⟩ := selectRun_bind_ok h.2
    obtain ⟨hfree, h⟩ := Tx.ensure_bind_ok.1 h
    obtain ⟨-, h⟩ := bindAll_bind_ok.1 h
    obtain ⟨found, s₁, hup, hev⟩ := Tx.bind_ok.1 h
    cases found with
    | true =>
      exact updateWhere_explained hup hev (fun _ => rfl)
        (noteOf_of_mem .leaseAcquired (by simp [notes])) (by rintro ⟨⟩) fun _ _ => rfl
    | false =>
      -- the row that was read is still the one that is updated
      obtain ⟨hg, -⟩ := not_guard hup hrow
      simp [hfree] at hg
  | setActiveAgent token agent =>
    unfold LeaseOp.body setActiveAgent at h
    rw [Tx.ensure_bind_ok] at h
    obtain ⟨-, h⟩ := bindAll_bind_ok.1 h.2
    obtain ⟨found, s₁, hup, h⟩ := Tx.bind_ok.1 h
    obtain ⟨rfl, hev⟩ := Tx.ensure_bind_ok.1 h
    exact updateWhere_explained hup hev (fun _ => rfl)
      (noteOf_of_mem .agentStarted (by simp [notes])) (by rintro ⟨⟩) fun _ _ => rfl
  | clearActiveAgent token pid identity =>
    unfold LeaseOp.body clearActiveAgent noteFound at h
    obtain ⟨-, h⟩ := bindAll_bind_ok.1 h
    obtain ⟨found, s₁, hup, hev⟩ := Tx.bind_ok.1 h
    cases found with
    | true =>
      exact updateWhere_explained hup hev (fun _ => rfl)
        (noteOf_of_mem .agentGone (by simp [notes])) (by rintro ⟨⟩) fun _ _ => rfl
    | false =>
      obtain rfl := updateWhere_missed hup
      obtain ⟨-, rfl⟩ := Tx.pure_ok.1 hev
      exact .nothing rfl fun _ => rfl
  | clearStaleActiveAgent token pid identity =>
    unfold LeaseOp.body clearStaleActiveAgent at h
    obtain ⟨-, h⟩ := bindAll_bind_ok.1 h
    obtain ⟨found, s₁, hup, h⟩ := Tx.bind_ok.1 h
    obtain ⟨rfl, hev⟩ := Tx.ensure_bind_ok.1 h
    exact updateWhere_explained hup hev (fun _ => rfl)
      (noteOf_of_mem .agentGone (by simp [notes])) (by rintro ⟨⟩) fun _ _ => rfl
  | releaseProcessLease token =>
    unfold LeaseOp.body releaseProcessLease concludeRelease at h
    obtain ⟨-, h⟩ := bindAll_bind_ok.1 h
    obtain ⟨found, s₁, hup, hev⟩ := Tx.bind_ok.1 h
    cases found with
    | true =>
      exact updateWhere_explained hup hev (fun _ => rfl)
        (noteOf_of_mem .leaseFreed (by simp [notes])) (by rintro ⟨⟩) fun _ _ => rfl
    | false =>
      obtain rfl := updateWhere_missed hup
      rw [if_neg Bool.false_ne_true, Tx.query_bind] at hev
      obtain ⟨-, rfl⟩ := Tx.ensure_ok.1 hev
      exact .nothing rfl fun _ => rfl
  | clearStaleProcessLease pid identity token =>
    unfold LeaseOp.body clearStaleProcessLease at h
    obtain ⟨-, h⟩ := bindAll_bind_ok.1 h
    obtain ⟨found, s₁, hup, h⟩ := Tx.bind_ok.1 h
    obtain ⟨rfl, hev⟩ := Tx.ensure_bind_ok.1 h
    exact updateWhere_explained hup hev (fun _ => rfl)
      (noteOf_of_mem .leaseFreed (by simp [notes])) (by rintro ⟨⟩) fun _ _ => rfl

end

/-! ## Runs of the store -/

/-- A transaction that raises leaves everything. -/
theorem commit_explained {α : Type} {m : StoreTx α} {s : Store}
    (h : ∀ a s', m s = .ok (a, s') → Explained s.1 s'.1) : Explained s.1 (m.commit s).2.1 := by
  rcases Tx.commit_cases m s with ⟨e, he⟩ | ⟨a, s', he, hm⟩
  · rw [he]
    exact .nothing rfl fun _ => rfl
  · rw [he]
    exact h a s' hm

/-- A call of the store: one of its operations, or one on the lease of a run. -/
inductive StoreCall where
  | op (op : StoreOp)
  | lease (runId : Str) (op : LeaseOp)

namespace StoreCall

def exec (s : Store) : StoreCall → Store
  | op o => (o.exec s).2
  | lease runId o => (o.exec runId s).2

def Logged : StoreCall → Prop
  | op o => o.Logged
  | lease _ _ => True

theorem exec_explained {c : StoreCall} (h : c.Logged) (s : Store) :
    Explained s.1 (c.exec s).1 := by
  cases c with
  | op o => exact commit_explained fun _ _ hb => Orchestrator.exec_explained hb h
  | lease runId o => exact commit_explained fun _ _ hb => leaseBody_explained hb

end StoreCall

/-- The store after a list of calls. -/
def runCalls (s : Store) (calls : List StoreCall) : Store := calls.foldl StoreCall.exec s

theorem runCalls_explained {calls : List StoreCall} (h : ∀ c ∈ calls, c.Logged) (s : Store) :
    Explained s.1 (runCalls s calls).1 := by
  induction calls generalizing s with
  | nil => exact .nothing rfl fun _ => rfl
  | cons c calls ih =>
    have hrest := ih (fun c' hc' => h c' (List.mem_cons_of_mem _ hc')) (c.exec s)
    exact (StoreCall.exec_explained (h c List.mem_cons_self) s).trans hrest

/-- **The log tells the status of every run.** After any calls on a new store, failed ones
among them, the events of a run alone rebuild its phase, its claim, its lease, its agent and
the enforceable tokens of both roles; they rebuild nothing where there is no run. -/
theorem audit_tells_status {calls : List StoreCall} (h : ∀ c ∈ calls, c.Logged) (runId : Str) :
    audit.told (runCalls Store.empty calls).1.events runId =
      (runCalls Store.empty calls).1.status runId :=
  Reading.Explains.tells (runCalls_explained h Store.empty) (fun _ => rfl) runId

/-- A run that is worked on, stopped and recovered. -/
def sampleCalls : List StoreCall := [
  .op (.createRun (str "run") sampleTask (str "t.json") (str "b") (str "w") 2),
  .lease (str "run") (.acquireProcessLease 7 (str "i") (str "t")),
  .op (.transition (str "run") .workerRunning (.obj [])),
  .lease (str "run") (.setActiveAgent (str "t") ⟨8, str "j", str "c", str "n"⟩),
  .op (.recordInvocationUsage (sampleWorker "worker-initial-attempt-1" 100) (str "n")),
  .lease (str "run") (.releaseProcessLease (str "t")),
  .op (.updateRun (str "run") [.headSha (some (str "h"))]),
  .lease (str "run") (.clearStaleActiveAgent (str "t") 8 (str "j")),
  .op (.transition (str "run") .blocked (.obj [])),
  .op (.releaseClaim (str "run")),
  .op (.recoverBlockedCiPass (str "run") (str "h") 5 (str "u"))]

theorem audit_tells_sample :
    (runCalls Store.empty sampleCalls).1.status (str "run") =
        some ⟨.reviewRunning, true, some 7, none, some 100, some 0⟩ ∧
      ∀ runId, audit.told (runCalls Store.empty sampleCalls).1.events runId =
        (runCalls Store.empty sampleCalls).1.status runId :=
  ⟨by decide +kernel, fun runId => audit_tells_status
    (by simp [sampleCalls, StoreCall.Logged, StoreOp.Logged, RunField.audited]) runId⟩

end NyanShopBot.Orchestrator
