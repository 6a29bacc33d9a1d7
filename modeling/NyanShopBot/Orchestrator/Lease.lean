import NyanShopBot.Orchestrator.Transactions

/-!
# The lease of a run

A runner process holds the lease of its run by a token, and registers the agent that it
has launched under it. `LeaseOp` lists the transactions on these columns, and
`LeaseMove` says what one that commits does to the row of the run.
-/

namespace NyanShopBot.Orchestrator

open Py Db

/-! ## The columns -/

/-- A launched agent: its process, and how its containment is confirmed. -/
structure Agent where
  pid : Int
  identity : Str
  completionPath : Str
  nonce : Str
deriving DecidableEq

def leaseParams (pid : Int) (identity token : Str) : List Param :=
  [.int pid, .text identity, .text token]

def Agent.params (agent : Agent) : List Param :=
  [.int agent.pid, .text agent.identity, .text agent.completionPath, .text agent.nonce]

namespace RunRow

def acquired (r : RunRow) (pid : Int) (identity token : Str) : RunRow :=
  { r with pid := some pid, processIdentity := some identity, processToken := some token }

def released (r : RunRow) : RunRow :=
  { r with pid := none, processIdentity := none, processToken := none }

def agentSet (r : RunRow) (agent : Agent) : RunRow :=
  { r with
    activeAgentPid := some agent.pid
    activeAgentIdentity := some agent.identity
    activeAgentCompletionPath := some agent.completionPath
    activeAgentNonce := some agent.nonce }

def agentCleared (r : RunRow) : RunRow :=
  { r with
    activeAgentPid := none
    activeAgentIdentity := none
    activeAgentCompletionPath := none
    activeAgentNonce := none }

/-- The agent is registered under the token. -/
def hasAgent (r : RunRow) (token : Str) (pid : Int) (identity : Str) : Bool :=
  r.processToken = some token && r.activeAgentPid = some pid &&
    r.activeAgentIdentity = some identity

end RunRow

/-! ## The transactions -/

/-- `UPDATE runs SET … WHERE run_id = ? AND …`: whether its row count is one. -/
def updateWhere (runId : Str) (guard : RunRow → Bool) (f : RunRow → RunRow) : StoreTx Bool := do
  let t ← Tx.query Subtype.val
  if (t.run? runId).any guard then do
    schema.execute .integrityError (·.setRun runId f)
    return true
  else return false

def pidPayload (pid : Int) : Json := .obj [(str "pid", .int pid)]

def acquireProcessLease (runId : Str) (pid : Int) (identity token : Str) : StoreTx Unit := do
  Tx.ensure (identity ≠ []) (.valueError (str "runner process identity is required"))
  let row ← selectRun runId
  Tx.ensure (row.processToken = none)
    (.runtimeError (str "run already has an active process lease"))
  bindAll (leaseParams pid identity token ++ [.text runId])
  let _ ← updateWhere runId (·.processToken.isNone) (·.acquired pid identity token)
  appendEventRow runId (str "process.lease_acquired") (pidPayload pid)

def setActiveAgent (runId token : Str) (agent : Agent) : StoreTx Unit := do
  Tx.ensure (agent.identity ≠ [] ∧ agent.completionPath ≠ [] ∧ agent.nonce ≠ [])
    (.valueError (str "agent identity, containment path, " ++ str "and nonce are required"))
  bindAll (agent.params ++ [.text runId, .text token])
  let found ← updateWhere runId
    (fun r => r.processToken = some token && r.activeAgentPid.isNone) (·.agentSet agent)
  Tx.ensure (found = true)
    (.runtimeError (str "cannot attach agent process " ++ str "to the current runner lease"))
  appendEventRow runId (str "agent.process_started") (pidPayload agent.pid)

/-- The event of an update that found its row. -/
def noteFound (runId kind : Str) (payload : Json) (found : Bool) : StoreTx Unit :=
  if found then appendEventRow runId kind payload else pure ()

def clearActiveAgent (runId token : Str) (pid : Int) (identity : Str) : StoreTx Unit := do
  bindAll [.text runId, .text token, .int pid, .text identity]
  let found ← updateWhere runId (·.hasAgent token pid identity) (·.agentCleared)
  noteFound runId (str "agent.process_finished") (pidPayload pid) found

def clearStaleActiveAgent (runId token : Str) (pid : Int) (identity : Str) : StoreTx Unit := do
  bindAll [.text runId, .text token, .int pid, .text identity]
  let found ← updateWhere runId (·.hasAgent token pid identity) (·.agentCleared)
  Tx.ensure (found = true) (.runtimeError (str "stale agent process changed " ++
    str "before it could be cleared"))
  appendEventRow runId (str "agent.stale_process_cleared") (pidPayload pid)

/-- What a release that finds no free lease of the token reports. -/
def concludeRelease (runId token : Str) (found : Bool) : StoreTx Unit :=
  if found then appendEventRow runId (str "process.lease_released") (.obj [])
  else do
    let t ← Tx.query Subtype.val
    Tx.ensure (¬ (t.run? runId).any
        (fun r => r.processToken = some token && r.activeAgentPid.isSome))
      (.runtimeError (str "cannot release runner lease " ++ str "while an agent is active"))

def releaseProcessLease (runId token : Str) : StoreTx Unit := do
  bindAll [.text runId, .text token]
  let found ← updateWhere runId
    (fun r => r.processToken = some token && r.activeAgentPid.isNone) (·.released)
  concludeRelease runId token found

def clearStaleProcessLease (runId : Str) (pid : Int) (identity token : Str) : StoreTx Unit := do
  bindAll [.text runId, .int pid, .text identity, .text token]
  let found ← updateWhere runId (fun r => r.pid = some pid && r.processIdentity = some identity &&
    r.processToken = some token) (·.released)
  Tx.ensure (found = true) (.runtimeError (str "stale process lease changed " ++
    str "before it could be cleared"))
  appendEventRow runId (str "process.stale_lease_cleared") (pidPayload pid)

inductive LeaseOp where
  | acquireProcessLease (pid : Int) (identity token : Str)
  | setActiveAgent (token : Str) (agent : Agent)
  | clearActiveAgent (token : Str) (pid : Int) (identity : Str)
  | clearStaleActiveAgent (token : Str) (pid : Int) (identity : Str)
  | releaseProcessLease (token : Str)
  | clearStaleProcessLease (pid : Int) (identity token : Str)

namespace LeaseOp

def body (runId : Str) : LeaseOp → StoreTx Unit
  | acquireProcessLease pid identity token =>
    Orchestrator.acquireProcessLease runId pid identity token
  | setActiveAgent token agent => Orchestrator.setActiveAgent runId token agent
  | clearActiveAgent token pid identity =>
    Orchestrator.clearActiveAgent runId token pid identity
  | clearStaleActiveAgent token pid identity =>
    Orchestrator.clearStaleActiveAgent runId token pid identity
  | releaseProcessLease token => Orchestrator.releaseProcessLease runId token
  | clearStaleProcessLease pid identity token =>
    Orchestrator.clearStaleProcessLease runId pid identity token

/-- One transaction: its result, and the store after it. -/
def exec (runId : Str) (op : LeaseOp) (s : Store) : Except StoreError Unit × Store :=
  (op.body runId).commit s

end LeaseOp

/-! ## What they do -/

/-- What a transaction that commits does to the row. -/
inductive LeaseMove : LeaseOp → RunRow → RunRow → Prop
  | acquired {r : RunRow} {pid : Int} {identity token : Str} : r.processToken = none →
      bindParams (leaseParams pid identity token) = .ok () →
      LeaseMove (.acquireProcessLease pid identity token) r (r.acquired pid identity token)
  | agentSet {r : RunRow} {token : Str} {agent : Agent} : r.processToken = some token →
      r.activeAgentPid = none → bindParams (.text r.runId :: agent.params) = .ok () →
      LeaseMove (.setActiveAgent token agent) r (r.agentSet agent)
  | agentCleared {r : RunRow} {token identity : Str} {pid : Int} :
      r.hasAgent token pid identity = true →
      LeaseMove (.clearActiveAgent token pid identity) r r.agentCleared
  | agentKept {r : RunRow} (token : Str) (pid : Int) (identity : Str) :
      LeaseMove (.clearActiveAgent token pid identity) r r
  | staleAgentCleared {r : RunRow} {token identity : Str} {pid : Int} :
      r.hasAgent token pid identity = true →
      LeaseMove (.clearStaleActiveAgent token pid identity) r r.agentCleared
  | released {r : RunRow} {token : Str} : r.processToken = some token →
      r.activeAgentPid = none → LeaseMove (.releaseProcessLease token) r r.released
  | notReleased {r : RunRow} {token : Str} : r.processToken ≠ some token →
      LeaseMove (.releaseProcessLease token) r r
  | staleLeaseCleared {r : RunRow} {pid : Int} {identity token : Str} : r.pid = some pid →
      r.processIdentity = some identity → r.processToken = some token →
      LeaseMove (.clearStaleProcessLease pid identity token) r r.released

/-- The columns of the lease agree with each other, as do those of the agent, and what
they hold can be bound again. -/
structure RunRow.LeaseOk (r : RunRow) : Prop where
  lease : (r.pid = none ∧ r.processIdentity = none ∧ r.processToken = none) ∨
    ∃ pid identity token, r.pid = some pid ∧ r.processIdentity = some identity ∧
      r.processToken = some token ∧ bindParams (leaseParams pid identity token) = .ok ()
  agent : r.activeAgentPid = none ∨ ∃ agent : Agent, r.activeAgentPid = some agent.pid ∧
    r.activeAgentIdentity = some agent.identity ∧
      bindParams (.text r.runId :: agent.params) = .ok ()

theorem LeaseMove.leaseOk {op : LeaseOp} {r r' : RunRow} (h : LeaseMove op r r') (hr : r.LeaseOk) :
    r'.LeaseOk := by
  cases h with
  | @acquired _ pid identity token _ hb =>
    exact ⟨.inr ⟨pid, identity, token, rfl, rfl, rfl, hb⟩, hr.agent⟩
  | @agentSet _ token agent _ _ hb => exact ⟨hr.lease, .inr ⟨agent, rfl, rfl, hb⟩⟩
  | agentCleared | staleAgentCleared => exact ⟨hr.lease, .inl rfl⟩
  | agentKept | notReleased => exact hr
  | released | staleLeaseCleared => exact ⟨.inl ⟨rfl, rfl, rfl⟩, hr.agent⟩

section

variable {s s' : Store} {runId : Str} {guard : RunRow → Bool} {f : RunRow → RunRow}

theorem updateWhere_ok {b : Bool} (h : updateWhere runId guard f s = .ok (b, s')) :
    (b = true ∧ (s.1.run? runId).any guard = true ∧ s'.1 = s.1.setRun runId f) ∨
      (b = false ∧ (s.1.run? runId).any guard = false ∧ s' = s) := by
  unfold updateWhere at h
  rw [Tx.query_bind] at h
  split at h
  · next hg =>
    obtain ⟨_, s₁, hx, h⟩ := Tx.bind_ok.1 h
    obtain ⟨rfl, rfl⟩ := Tx.pure_ok.1 h
    exact .inl ⟨rfl, hg, (Schema.execute_ok.1 hx).1⟩
  · next hg =>
    obtain ⟨rfl, rfl⟩ := Tx.pure_ok.1 h
    exact .inr ⟨rfl, by simpa using hg, rfl⟩

/-- An event does not touch the runs. -/
theorem run?_of_event {kind : Str} {payload : Json} {u : Unit}
    (h : appendEventRow runId kind payload s = .ok (u, s')) (id : Str) :
    s'.1.run? id = s.1.run? id := by
  rw [appendEventRow_ok h]
  rfl

theorem run?_setRun_self {t : Tables} {r : RunRow} (hkey : ∀ r, (f r).runId = r.runId)
    (h : t.run? runId = some r) : (t.setRun runId f).run? runId = some (f r) := by
  have hlook : lookup RunRow.runId (t.setRun runId f).runs runId = (t.run? runId).map f :=
    lookup_modify_self fun r hr => (hkey r).trans hr
  exact hlook.trans (congrArg (Option.map f) h)

theorem bindAll_bind_ok {α : Type} {params : List Param} {g : Unit → StoreTx α} {a : α} :
    (bindAll params >>= g) s = .ok (a, s') ↔ bindParams params = .ok () ∧ g () s = .ok (a, s') := by
  rw [Tx.bind_ok]
  constructor
  · rintro ⟨_, s₁, hb, hg⟩
    obtain ⟨hp, rfl⟩ := bindAll_ok hb
    exact ⟨hp, hg⟩
  · rintro ⟨hb, hg⟩
    exact ⟨(), s, Tx.ofExcept_ok.2 ⟨hb, rfl⟩, hg⟩

theorem selectRun_bind_ok {α : Type} {g : RunRow → StoreTx α} {a : α}
    (h : (selectRun runId >>= g) s = .ok (a, s')) :
    ∃ r, s.1.run? runId = some r ∧ g r s = .ok (a, s') := by
  obtain ⟨r, s₁, hr, hg⟩ := Tx.bind_ok.1 h
  obtain ⟨hr, rfl⟩ := selectRun_ok hr
  exact ⟨r, hr, hg⟩

theorem bindParams_of_mem {params : List Param} (h : ∀ p ∈ params, p.bind = .ok ()) :
    bindParams params = .ok () := by
  induction params with
  | nil => rfl
  | cons p params ih =>
    refine except_bind_ok.2 ⟨(), h p List.mem_cons_self, ih fun q hq => ?_⟩
    exact h q (List.mem_cons_of_mem _ hq)

/-- What an update of the row of the run, with the event that notes it, leaves. -/
theorem run?_updateWhere {r : RunRow} (h : updateWhere runId guard f s = .ok (true, s'))
    (hr : s.1.run? runId = some r) (hkey : ∀ r, (f r).runId = r.runId) :
    guard r = true ∧ s'.1.run? runId = some (f r) := by
  rcases updateWhere_ok h with ⟨-, hg, hs⟩ | ⟨hb, -, -⟩
  · rw [hr] at hg
    exact ⟨hg, by rw [hs]; exact run?_setRun_self hkey hr⟩
  · cases hb

theorem not_guard {r : RunRow} (h : updateWhere runId guard f s = .ok (false, s'))
    (hr : s.1.run? runId = some r) : guard r = false ∧ s' = s := by
  rcases updateWhere_ok h with ⟨hb, -, -⟩ | ⟨-, hg, hs⟩
  · cases hb
  · rw [hr] at hg
    exact ⟨hg, hs⟩

/-- **What a transaction on the lease does to the row of the run.** -/
theorem body_ok {op : LeaseOp} {u : Unit} {r : RunRow} (h : op.body runId s = .ok (u, s'))
    (hr : s.1.run? runId = some r) :
    ∃ r', s'.1.run? runId = some r' ∧ LeaseMove op r r' := by
  cases op with
  | acquireProcessLease pid identity token =>
    unfold LeaseOp.body acquireProcessLease at h
    rw [Tx.ensure_bind_ok] at h
    obtain ⟨row, hrow, h⟩ := selectRun_bind_ok h.2
    obtain rfl := Option.some.inj (hr.symm.trans hrow)
    obtain ⟨hnone, h⟩ := Tx.ensure_bind_ok.1 h
    obtain ⟨hb, h⟩ := bindAll_bind_ok.1 h
    obtain ⟨found, s₂, hup, hend⟩ := Tx.bind_ok.1 h
    cases found with
    | true =>
      obtain ⟨-, hs⟩ := run?_updateWhere hup hr fun _ => rfl
      exact ⟨_, (run?_of_event hend runId).trans hs,
        .acquired hnone
          (bindParams_of_mem fun p hp => bind_of_mem hb p (List.mem_append_left _ hp))⟩
    | false =>
      obtain ⟨hg, -⟩ := not_guard hup hr
      simp [hnone] at hg
  | setActiveAgent token agent =>
    unfold LeaseOp.body setActiveAgent at h
    rw [Tx.ensure_bind_ok] at h
    obtain ⟨hb, h⟩ := bindAll_bind_ok.1 h.2
    obtain ⟨found, s₂, hup, hend⟩ := Tx.bind_ok.1 h
    obtain ⟨hfound, hend⟩ := Tx.ensure_bind_ok.1 hend
    rw [hfound] at hup
    obtain ⟨hg, hs⟩ := run?_updateWhere hup hr fun _ => rfl
    simp only [Bool.and_eq_true, decide_eq_true_eq, Option.isNone_iff_eq_none] at hg
    refine ⟨_, (run?_of_event hend runId).trans hs,
      .agentSet hg.1 hg.2 (bindParams_of_mem fun p hp => ?_)⟩
    have hb := bind_of_mem hb
    rcases List.mem_cons.1 hp with rfl | hp
    · exact run?_runId hr ▸ hb _ (by simp)
    · exact hb p (List.mem_append_left _ hp)
  | clearActiveAgent token pid identity =>
    unfold LeaseOp.body clearActiveAgent noteFound at h
    obtain ⟨-, h⟩ := bindAll_bind_ok.1 h
    obtain ⟨found, s₂, hup, hend⟩ := Tx.bind_ok.1 h
    cases found with
    | true =>
      obtain ⟨hg, hs⟩ := run?_updateWhere hup hr fun _ => rfl
      exact ⟨_, (run?_of_event hend runId).trans hs, .agentCleared hg⟩
    | false =>
      obtain ⟨-, rfl⟩ := not_guard hup hr
      obtain ⟨-, rfl⟩ := Tx.pure_ok.1 hend
      exact ⟨r, hr, .agentKept token pid identity⟩
  | clearStaleActiveAgent token pid identity =>
    unfold LeaseOp.body clearStaleActiveAgent at h
    obtain ⟨-, h⟩ := bindAll_bind_ok.1 h
    obtain ⟨found, s₂, hup, hend⟩ := Tx.bind_ok.1 h
    obtain ⟨hfound, hend⟩ := Tx.ensure_bind_ok.1 hend
    rw [hfound] at hup
    obtain ⟨hg, hs⟩ := run?_updateWhere hup hr fun _ => rfl
    exact ⟨_, (run?_of_event hend runId).trans hs, .staleAgentCleared hg⟩
  | releaseProcessLease token =>
    unfold LeaseOp.body releaseProcessLease concludeRelease at h
    obtain ⟨-, h⟩ := bindAll_bind_ok.1 h
    obtain ⟨found, s₂, hup, hend⟩ := Tx.bind_ok.1 h
    cases found with
    | true =>
      obtain ⟨hg, hs⟩ := run?_updateWhere hup hr fun _ => rfl
      simp only [Bool.and_eq_true, decide_eq_true_eq, Option.isNone_iff_eq_none] at hg
      exact ⟨_, (run?_of_event hend runId).trans hs, .released hg.1 hg.2⟩
    | false =>
      obtain ⟨hg, rfl⟩ := not_guard hup hr
      rw [if_neg Bool.false_ne_true, Tx.query_bind] at hend
      obtain ⟨hfree, rfl⟩ := Tx.ensure_ok.1 hend
      refine ⟨r, hr, .notReleased fun htoken => ?_⟩
      rw [hr] at hfree
      simp only [htoken, Option.any_some, decide_true, Bool.true_and] at hfree hg
      cases hpid : r.activeAgentPid <;> simp [hpid] at hfree hg
  | clearStaleProcessLease pid identity token =>
    unfold LeaseOp.body clearStaleProcessLease at h
    obtain ⟨-, h⟩ := bindAll_bind_ok.1 h
    obtain ⟨found, s₂, hup, hend⟩ := Tx.bind_ok.1 h
    obtain ⟨hfound, hend⟩ := Tx.ensure_bind_ok.1 hend
    rw [hfound] at hup
    obtain ⟨hg, hs⟩ := run?_updateWhere hup hr fun _ => rfl
    simp only [Bool.and_eq_true, decide_eq_true_eq] at hg
    exact ⟨_, (run?_of_event hend runId).trans hs, .staleLeaseCleared hg.1.1 hg.1.2 hg.2⟩

/-- A transaction on the lease raised, or it moved the row. -/
theorem exec_moves {op : LeaseOp} {r : RunRow} (hr : s.1.run? runId = some r) :
    (∃ e, op.exec runId s = (.error e, s)) ∨
      ∃ s' r', op.exec runId s = (.ok (), s') ∧ s'.1.run? runId = some r' ∧ LeaseMove op r r' := by
  rcases Tx.commit_cases (op.body runId) s with ⟨e, he⟩ | ⟨u, s', he, hbody⟩
  · exact .inl ⟨e, he⟩
  · obtain ⟨r', hr', hmove⟩ := body_ok hbody hr
    exact .inr ⟨s', r', he, hr', hmove⟩

/-! ## When they commit -/

theorem runIds_setRun {t : Tables} (hkey : ∀ r, (f r).runId = r.runId) :
    (t.setRun runId f).runs.map (·.runId) = t.runs.map (·.runId) :=
  map_modify fun r _ => hkey r

theorem valid_setRun (s : Store) (hkey : ∀ r, (f r).runId = r.runId)
    (hmax : ∀ r, (f r).maxWorkers = r.maxWorkers) : schema.Valid (s.1.setRun runId f) := by
  obtain ⟨⟨hnd, hlimit⟩, ⟨hcl, hact, hfk⟩, ⟨hsrc, hev⟩, hus, hufk, hcounts⟩ := s.2
  have hids := @runIds_setRun runId f s.1 hkey
  refine ⟨⟨hids ▸ hnd, fun r hr => ?_⟩, ⟨hcl, hact, fun c hc => hids ▸ hfk c hc⟩,
    ⟨hsrc, fun e he => hids ▸ hev e he⟩, hus, fun u hu => hids ▸ hufk u hu, hcounts⟩
  obtain ⟨r₀, hr₀, rfl⟩ := mem_modify.1 hr
  have hlimit₀ := hlimit r₀ hr₀
  split
  · rwa [hmax r₀]
  · exact hlimit₀

theorem appendEventRow_runs {kind : Str} {payload : Json} {r : RunRow}
    (hr : s.1.run? runId = some r) (hb : bindParams [.text runId, .text kind] = .ok ()) :
    ∃ s', appendEventRow runId kind payload s = .ok ((), s') := by
  have hvalid : schema.Valid (s.1.addEvent ⟨runId, kind, payload, none⟩) := by
    obtain ⟨hruns, hclaims, ⟨hsrc, hev⟩, husage⟩ := s.2
    refine ⟨hruns, hclaims, ⟨?_, fun e he => ?_⟩, husage⟩
    · unfold Tables.sources Tables.addEvent
      rw [List.filterMap_append]
      exact (List.append_nil _).symm ▸ hsrc
    · rcases List.mem_append.1 he with he | he
      · exact hev e he
      · obtain rfl := List.mem_singleton.1 he
        exact run?_runId hr ▸ List.mem_map_of_mem (mem_of_run? hr)
  refine ⟨⟨_, hvalid⟩, ?_⟩
  unfold appendEventRow
  exact bindAll_bind_ok.2 ⟨hb, Schema.execute_valid hvalid trivial⟩

theorem updateWhere_runs {r : RunRow} (hr : s.1.run? runId = some r) (hg : guard r = true)
    (hkey : ∀ r, (f r).runId = r.runId) (hmax : ∀ r, (f r).maxWorkers = r.maxWorkers) :
    ∃ s', updateWhere runId guard f s = .ok (true, s') ∧ s'.1.run? runId = some (f r) := by
  refine ⟨⟨_, valid_setRun s hkey hmax⟩, ?_, run?_setRun_self hkey hr⟩
  unfold updateWhere
  rw [Tx.query_bind, if_pos (by rw [hr]; exact hg)]
  exact Tx.bind_eq (Schema.execute_valid (valid_setRun s hkey hmax) trivial)

/-- What of the row is bound to clear it. -/
def RunRow.Bound (r : RunRow) (params : List Param) : Prop :=
  bindParams (.text r.runId :: params) = .ok ()

theorem RunRow.Bound.event {r : RunRow} {params : List Param} (h : r.Bound params) {kind : Str}
    (hkind : (Param.text kind).bind = .ok ()) :
    bindParams [.text r.runId, .text kind] = .ok () := by
  refine bindParams_of_mem fun p hp => ?_
  rcases List.mem_cons.1 hp with rfl | hp
  · exact bind_of_mem h _ List.mem_cons_self
  · rw [List.mem_singleton.1 hp]
    exact hkind

theorem clearStaleActiveAgent_commits {r : RunRow} {token identity : Str} {pid : Int}
    (hr : s.1.run? runId = some r) (hag : r.hasAgent token pid identity = true)
    (hb : r.Bound [.text token, .int pid, .text identity]) :
    ∃ s', (LeaseOp.clearStaleActiveAgent token pid identity).exec runId s = (.ok (), s') ∧
      s'.1.run? runId = some r.agentCleared := by
  have hid := run?_runId hr
  subst hid
  obtain ⟨s₁, hup, hr₁⟩ := @updateWhere_runs s r.runId (·.hasAgent token pid identity)
    (·.agentCleared) r hr hag (fun _ => rfl) fun _ => rfl
  obtain ⟨s₂, hev⟩ : ∃ s₂, appendEventRow r.runId (str "agent.stale_process_cleared")
      (pidPayload pid) s₁ = .ok ((), s₂) := appendEventRow_runs hr₁ (hb.event rfl)
  refine ⟨s₂, Tx.commit_of_ok ?_, (run?_of_event hev _).trans hr₁⟩
  exact bindAll_bind_ok.2 ⟨hb, Tx.bind_ok.2 ⟨true, s₁, hup, Tx.ensure_bind_ok.2 ⟨rfl, hev⟩⟩⟩

theorem clearStaleProcessLease_commits {r : RunRow} {token identity : Str} {pid : Int}
    (hr : s.1.run? runId = some r) (hpid : r.pid = some pid)
    (hidentity : r.processIdentity = some identity) (htoken : r.processToken = some token)
    (hb : r.Bound [.int pid, .text identity, .text token]) :
    ∃ s', (LeaseOp.clearStaleProcessLease pid identity token).exec runId s = (.ok (), s') ∧
      s'.1.run? runId = some r.released := by
  have hid := run?_runId hr
  subst hid
  obtain ⟨s₁, hup, hr₁⟩ := @updateWhere_runs s r.runId (fun r => r.pid = some pid &&
      r.processIdentity = some identity && r.processToken = some token) (·.released) r hr
    (by simp [hpid, hidentity, htoken]) (fun _ => rfl) fun _ => rfl
  obtain ⟨s₂, hev⟩ : ∃ s₂, appendEventRow r.runId (str "process.stale_lease_cleared")
      (pidPayload pid) s₁ = .ok ((), s₂) := appendEventRow_runs hr₁ (hb.event rfl)
  refine ⟨s₂, Tx.commit_of_ok ?_, (run?_of_event hev _).trans hr₁⟩
  exact bindAll_bind_ok.2 ⟨hb, Tx.bind_ok.2 ⟨true, s₁, hup, Tx.ensure_bind_ok.2 ⟨rfl, hev⟩⟩⟩

end

end NyanShopBot.Orchestrator
