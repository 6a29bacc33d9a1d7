import NyanShopBot.Orchestrator.Store

/-!
# What the store transactions do

One lemma for each operation of the store says what held when its transaction
committed, what it returned and what it left stored. `Replays` and `Accounts`
are the two ends of `recordInvocationUsage`. `exec_writes` sums up what an
operation can do to the runs and the ledger.
-/

namespace NyanShopBot.Orchestrator

open Py Db

/-! ## Statements -/

section

variable {s s' : Store} {u : Unit} {runId kind : Str} {payload : Json}

theorem bindAll_ok {params : List Param} (h : bindAll params s = .ok (u, s')) :
    bindParams params = .ok () ∧ s' = s := by
  obtain ⟨hb, rfl⟩ := Tx.ofExcept_ok.1 h
  exact ⟨hb, rfl⟩

theorem bind_of_mem {params : List Param} (h : bindParams params = .ok ()) :
    ∀ p ∈ params, p.bind = .ok () := by
  induction params with
  | nil => exact nofun
  | cons q params ih =>
    obtain ⟨u, hq, h⟩ := except_bind_ok.1 h
    intro p hp
    rcases List.mem_cons.1 hp with rfl | hp
    · exact hq
    · exact ih h p hp

theorem selectRun_ok {r : RunRow} (h : selectRun runId s = .ok (r, s')) :
    s.1.run? runId = some r ∧ s' = s := by
  unfold selectRun at h
  simp only [Tx.bind_ok, Tx.query_ok, Tx.getOrThrow_ok] at h
  obtain ⟨_, _, hb, t, _, ⟨rfl, rfl⟩, hr, rfl⟩ := h
  obtain ⟨-, rfl⟩ := bindAll_ok hb
  exact ⟨hr, rfl⟩

theorem appendEventRow_ok (h : appendEventRow runId kind payload s = .ok (u, s')) :
    s'.1 = s.1.addEvent ⟨runId, kind, payload, none⟩ := by
  unfold appendEventRow at h
  simp only [Tx.bind_ok] at h
  obtain ⟨_, _, hb, h⟩ := h
  obtain ⟨-, rfl⟩ := bindAll_ok hb
  exact (Schema.execute_ok.1 h).1

theorem run?_runId {t : Tables} {r : RunRow} (h : t.run? runId = some r) : r.runId = runId :=
  @key_of_lookup _ _ _ RunRow.runId _ _ _ h

theorem mem_of_run? {t : Tables} {r : RunRow} (h : t.run? runId = some r) : r ∈ t.runs :=
  mem_of_lookup h

end

theorem hasUnenforceableUsage_ok {s s' : Store} {runId : Str} {b : Bool}
    (h : hasUnenforceableUsage runId s = .ok (b, s')) : s' = s := by
  unfold hasUnenforceableUsage at h
  simp only [Tx.bind_ok, Tx.query_ok, Tx.pure_ok] at h
  obtain ⟨_, _, hb, t, _, ⟨rfl, rfl⟩, rfl, rfl⟩ := h
  exact (bindAll_ok hb).2

/-! ## Updates of a run -/

theorem RunField.set_runId (r : RunRow) (v : RunField) : (v.set r).runId = r.runId := by
  cases v <;> rfl

theorem RunRow.assign_runId (r : RunRow) (values : List RunField) :
    (r.assign values).runId = r.runId := by
  induction values generalizing r with
  | nil => rfl
  | cons v values ih => exact (ih (v.set r)).trans (RunField.set_runId r v)

/-- What the assignments of an update keep when each of them keeps it. -/
theorem RunRow.assign_keeps {α : Type} {col : RunRow → α} {values : List RunField}
    (h : ∀ v ∈ values, ∀ r, col (v.set r) = col r) (r : RunRow) :
    col (r.assign values) = col r := by
  induction values generalizing r with
  | nil => rfl
  | cons v values ih =>
    refine (ih (fun v' hv' => h v' (List.mem_cons_of_mem _ hv')) (v.set r)).trans ?_
    exact h v List.mem_cons_self r

section

variable {s s' : Store} {u : Unit} {runId : Str}

theorem updateRun_ok {values : List RunField} (h : updateRun runId values s = .ok (u, s')) :
    s'.1 = s.1.setRun runId (·.assign values) := by
  unfold updateRun at h
  split at h
  · next hv =>
    obtain ⟨-, rfl⟩ := Tx.pure_ok.1 h
    subst hv
    have hid : Db.modify RunRow.runId s'.1.runs runId (·.assign []) = s'.1.runs := by
      unfold Db.modify RunRow.assign
      simp
    unfold Tables.setRun
    rw [hid]
  · simp only [Tx.bind_ok, Tx.query_ok, Tx.getOrThrow_ok] at h
    obtain ⟨_, _, hb, t, _, ⟨rfl, rfl⟩, r, _, ⟨-, rfl⟩, h⟩ := h
    obtain ⟨-, rfl⟩ := bindAll_ok hb
    exact (Schema.execute_ok.1 h).1

theorem transition_ok {phase : RunPhase} {payload : Json}
    (h : transition runId phase payload s = .ok (u, s')) :
    s'.1 = (s.1.setRun runId (·.assign [.phase phase])).addEvent
      ⟨runId, phase.eventKind, payload, none⟩ := by
  unfold transition at h
  simp only [Tx.bind_ok] at h
  obtain ⟨_, s₁, hu, h⟩ := h
  rw [appendEventRow_ok h, updateRun_ok hu]

end

/-! ## Creation, claims and checkpoints -/

section

variable {s s' : Store} {u : Unit} {runId : Str}

theorem createRun_ok {task : TaskSpec} {taskPath baseSha worktreePath : Str} {maxWorkers : Int}
    (h : createRun runId task taskPath baseSha worktreePath maxWorkers s = .ok (u, s')) :
    s.1.activeClaims < maxWorkers ∧ s'.1 = { s.1 with
      runs := s.1.runs ++ [.new runId task taskPath baseSha worktreePath maxWorkers]
      claims := s.1.claims ++ [⟨task.repository, task.issueNumber, runId, true⟩]
      events := s.1.events ++
        [⟨runId, str "run.created", .obj [(str "base_sha", .str baseSha)], none⟩] } := by
  unfold createRun at h
  simp only [Tx.bind_ok, Tx.query_ok, Tx.ensure_ok, Tx.refuse_ok] at h
  obtain ⟨t, _, ⟨rfl, rfl⟩, _, _, ⟨hroom, rfl⟩, _, _, hb, _, _, ⟨-, rfl⟩, h⟩ := h
  obtain ⟨-, rfl⟩ := bindAll_ok hb
  obtain ⟨_, _, hb', _, s₁, h₁, _, _, hb'', _, s₂, h₂, h⟩ := h
  obtain ⟨-, rfl⟩ := bindAll_ok hb'
  obtain ⟨-, rfl⟩ := bindAll_ok hb''
  refine ⟨hroom, ?_⟩
  rw [appendEventRow_ok h, (Schema.execute_ok.1 h₂).1, (Schema.execute_ok.1 h₁).1]
  rfl

theorem releaseClaim_ok (h : releaseClaim runId s = .ok (u, s')) :
    s'.1 = (s.1.setClaims runId false).addEvent ⟨runId, str "claim.released", .obj [], none⟩ := by
  unfold releaseClaim at h
  simp only [Tx.bind_ok] at h
  obtain ⟨_, _, hb, _, s₁, h₁, h⟩ := h
  obtain ⟨-, rfl⟩ := bindAll_ok hb
  rw [appendEventRow_ok h, (Schema.execute_ok.1 h₁).1]

/-- The tables when the claim of a run is active again. -/
def Tables.reactivate (t : Tables) (runId : Str) : Tables :=
  (t.setClaims runId true).addEvent ⟨runId, str "claim.reactivated", .obj [], none⟩

/-- The claim of a run becomes active again: it was not, its issue is free, and there is
room for another writer. -/
structure Reactivates (t : Tables) (run : RunRow) (t' : Tables) : Prop where
  limit : 1 ≤ run.maxWorkers ∧ run.maxWorkers ≤ 2
  claim : ∃ c, lookup ClaimRow.runId t.claims run.runId = some c ∧ c.active = false
  free : ∀ r ∈ t.claims, r.active = true →
    (r.repository, r.issueNumber) ≠ (run.task.repository, run.task.issueNumber)
  room : t.activeClaims < run.maxWorkers
  writes : t' = t.reactivate run.runId

theorem reactivateClaim_ok {run : RunRow} (h : reactivateClaim run s = .ok (u, s')) :
    Reactivates s.1 run s'.1 := by
  unfold reactivateClaim at h
  simp only [Tx.bind_ok, Tx.query_ok, Tx.ensure_ok, Tx.getOrThrow_ok, Tx.refuse_ok] at h
  obtain ⟨_, _, ⟨hlimit, rfl⟩, t, _, ⟨rfl, rfl⟩, c, _, ⟨hc, rfl⟩, _, _, ⟨hact, rfl⟩, _, _,
    ⟨hfree, rfl⟩, _, _, ⟨hroom, rfl⟩, _, s₁, h₁, h⟩ := h
  refine ⟨hlimit, ⟨c, hc, hact⟩, fun r hr ha e => ?_, hroom, ?_⟩
  · obtain ⟨hrepo, hissue⟩ := Prod.mk.inj e
    have hno := List.find?_eq_none.1 (Option.map_eq_none_iff.1 hfree) r hr
    exact hno (by simp [hrepo, hissue, ha])
  · rw [appendEventRow_ok h, (Schema.execute_ok.1 h₁).1]
    rfl

theorem recordCiFixRequest_ok {c : CiFixCall} (h : recordCiFixRequest c s = .ok (u, s')) :
    ∃ run t k e, s.1.run? c.runId = some run ∧
      c.nextFixRound = c.expectedFixRounds + 1 ∧ run.phase = c.expectedPhase ∧
      pyStr run.headSha = c.expectedHead ∧ run.fixRounds = c.expectedFixRounds ∧
      (c.expectedPhase = .ciWaiting ∧ t = s.1 ∨
        c.expectedPhase = .blocked ∧ Reactivates s.1 run t) ∧
      s'.1 = (((t.setRun c.runId (·.fixRequested c)).addEvent
        ⟨c.runId, str "ci.failed", .obj c.request, none⟩).addEvent ⟨c.runId, k, e, none⟩) := by
  unfold recordCiFixRequest at h
  simp only [Tx.bind_ok, Tx.ensure_ok] at h
  obtain ⟨_, _, ⟨hphase, rfl⟩, _, _, ⟨hnext, rfl⟩, run, s₁, hrun, _, _, ⟨hcas, rfl⟩, _, s₂, hre,
    _, _, hb, _, s₃, h₃, _, s₄, h₄, h⟩ := h
  obtain ⟨hrun, rfl⟩ := selectRun_ok hrun
  obtain ⟨-, rfl⟩ := bindAll_ok hb
  refine ⟨run, _, _, _, hrun, hnext, hcas.1, hcas.2.2.1, hcas.2.2.2, ?_,
    (appendEventRow_ok h).trans (by rw [appendEventRow_ok h₄, (Schema.execute_ok.1 h₃).1])⟩
  unfold reactivateBlocked at hre
  split at hre
  · next hblocked => exact .inr ⟨hblocked, reactivateClaim_ok hre⟩
  · next hblocked =>
    exact .inl ⟨hphase.resolve_right hblocked, congrArg Subtype.val (Tx.pure_ok.1 hre).2⟩

theorem recoverBlockedCiPass_ok {expectedHead ciUrl : Str} {ciRunId : Int}
    (h : recoverBlockedCiPass runId expectedHead ciRunId ciUrl s = .ok (u, s')) :
    ∃ run t, s.1.run? runId = some run ∧ run.phase = .blocked ∧
      pyStr run.headSha = expectedHead ∧ Reactivates s.1 run t ∧
      s'.1 = (((t.setRun runId (·.ciPassed ciRunId ciUrl)).addEvent
        ⟨runId, str "ci.passed", .obj [(str "head_sha", .str expectedHead),
          (str "url", .str ciUrl), (str "recovered", .bool true)], none⟩).addEvent
        ⟨runId, RunPhase.reviewRunning.eventKind, .obj [], none⟩) := by
  unfold recoverBlockedCiPass at h
  simp only [Tx.bind_ok, Tx.ensure_ok] at h
  obtain ⟨run, s₁, hrun, _, _, ⟨hcas, rfl⟩, _, s₂, hre, _, _, hb, _, s₃, h₃, _, s₄, h₄, h⟩ := h
  obtain ⟨hrun, rfl⟩ := selectRun_ok hrun
  obtain ⟨-, rfl⟩ := bindAll_ok hb
  refine ⟨run, _, hrun, hcas.1, hcas.2.2, reactivateClaim_ok hre, ?_⟩
  rw [appendEventRow_ok h, appendEventRow_ok h₄, (Schema.execute_ok.1 h₃).1]

/-! ## Activity -/

theorem pinSession_ok {role : Role} {session : Str}
    (h : pinSession runId role session s = .ok (u, s')) :
    ∃ run, s.1.run? runId = some run ∧
      (run.sessionId role = some session ∧ s' = s ∨
        run.sessionId role = none ∧ s'.1 = s.1.setRun runId (·.setSession session role)) := by
  unfold pinSession at h
  simp only [Tx.bind_ok] at h
  obtain ⟨run, s₁, hrun, h⟩ := h
  obtain ⟨hrun, rfl⟩ := selectRun_ok hrun
  refine ⟨run, hrun, ?_⟩
  cases hs : run.sessionId role with
  | some persisted =>
    rw [hs] at h
    obtain ⟨rfl, rfl⟩ := Tx.ensure_ok.1 h
    exact .inl ⟨rfl, rfl⟩
  | none =>
    rw [hs] at h
    simp only [Tx.bind_ok] at h
    obtain ⟨_, _, hb, h⟩ := h
    obtain ⟨-, rfl⟩ := bindAll_ok hb
    exact .inr ⟨rfl, (Schema.execute_ok.1 h).1⟩

/-- The tables when a live session was pinned, if it had to be. -/
inductive Pinned (runId : Str) (t : Tables) : Option (Role × Str) → Tables → Prop where
  | none : Pinned runId t none t
  | same {run : RunRow} {role : Role} {session : Str} : t.run? runId = some run →
      run.sessionId role = some session → Pinned runId t (some (role, session)) t
  | first {run : RunRow} {role : Role} {session : Str} : t.run? runId = some run →
      run.sessionId role = Option.none →
      Pinned runId t (some (role, session)) (t.setRun runId (·.setSession session role))

theorem pinOptional_ok {session : Option (Role × Str)}
    (h : pinOptional runId session s = .ok (u, s')) : Pinned runId s.1 session s'.1 := by
  rcases session with _ | ⟨role, session⟩
  · obtain ⟨-, rfl⟩ := Tx.pure_ok.1 h
    exact .none
  · obtain ⟨run, hrun, ⟨hs, rfl⟩ | ⟨hs, h⟩⟩ := pinSession_ok h
    · exact .same hrun hs
    · rw [h]
      exact .first hrun hs

theorem Pinned.events {t t' : Tables} {session : Option (Role × Str)}
    (h : Pinned runId t session t') : t'.events = t.events := by
  cases h <;> rfl

theorem appendActivityEvent_ok {payload : Json} {sourceKey : Str} {session : Option (Role × Str)}
    {new : Bool} (h : appendActivityEvent runId payload sourceKey session s = .ok (new, s')) :
    ∃ t, Pinned runId s.1 session t ∧ ((runId, sourceKey) ∈ t.sources ∧ s'.1 = t ∨
      (runId, sourceKey) ∉ t.sources ∧
        s'.1 = t.addEvent ⟨runId, str "agent.activity", payload, some sourceKey⟩) := by
  unfold appendActivityEvent at h
  simp only [Tx.bind_ok, Tx.query_ok] at h
  obtain ⟨_, s₁, hpin, _, _, hb, t, _, ⟨rfl, rfl⟩, h⟩ := h
  obtain ⟨-, rfl⟩ := bindAll_ok hb
  refine ⟨_, pinOptional_ok hpin, ?_⟩
  split at h
  · next hold => exact .inl ⟨hold, congrArg Subtype.val (Tx.pure_ok.1 h).2⟩
  · next hnew =>
    simp only [Tx.bind_ok, Tx.pure_ok] at h
    obtain ⟨_, s₃, h₃, -, rfl⟩ := h
    exact .inr ⟨hnew, (Schema.execute_ok.1 h₃).1⟩

end

/-! ## Usage -/

/-- The call repeats what a ledger row holds. -/
def UsageCall.Repeats (c : UsageCall) (role : Role) (existing : UsageRow) : Prop :=
  c.Matches role existing ∧ (c.cumulativeProviderTotal = true ∨
    existing.enforceableTokens = c.accounting.enforceableTokens)

/-- What held when a fresh invocation was accounted, and what it left. -/
structure Accounts (c : UsageCall) (role : Role) (now : Str) (s : Store) (record : UsageRecord)
    (s' : Store) (run : RunRow) (prior : Int) (enforceable next : Option Int) : Prop where
  fresh : s.1.usage? c.runId c.invocationId = none
  found : s.1.run? c.runId = some run
  total : run.enforceableTokens role = some prior
  session : role = .worker → ∀ x ∈ run.workerSessionId, x = c.sessionId
  charge : c.charge run = .ok (enforceable, next)
  bound : (Param.text c.runId).bind = .ok () ∧ (Param.text c.invocationId).bind = .ok ()
  returns : record = ⟨c.row role enforceable now, some (prior + enforceable.getD 0), false⟩
  writes : s'.1 = ((s.1.addUsage (c.row role enforceable now)).setRun c.runId
      (·.account role (prior + enforceable.getD 0) (run.totalTokens + enforceable.getD 0)
        c.sessionId c.terminalEventsSha256 next)).addEvent
    ⟨c.runId, str "usage.accounted",
      (c.row role enforceable now).payload (prior + enforceable.getD 0), none⟩

section

variable {s s' : Store} {c : UsageCall} {role : Role} {now : Str} {record : UsageRecord}

theorem replayUsage_ok {existing : UsageRow}
    (h : replayUsage c role existing s = .ok (record, s')) :
    c.Repeats role existing ∧ s' = s ∧ ∃ run, s.1.run? c.runId = some run ∧
      record = ⟨existing, run.enforceableTokens role, true⟩ := by
  unfold replayUsage at h
  simp only [Tx.bind_ok, Tx.ensure_ok, Tx.pure_ok] at h
  obtain ⟨_, _, ⟨hmatch, rfl⟩, _, _, ⟨hval, rfl⟩, run, _, hrun, rfl, rfl⟩ := h
  obtain ⟨hrun, rfl⟩ := selectRun_ok hrun
  exact ⟨⟨hmatch, hval⟩, rfl, run, hrun, rfl⟩

theorem freshUsage_ok (hnew : s.1.usage? c.runId c.invocationId = none)
    (h : freshUsage c role now s = .ok (record, s')) :
    ∃ run prior enforceable next, Accounts c role now s record s' run prior enforceable next := by
  unfold freshUsage at h
  simp only [Tx.bind_ok, Tx.getOrThrow_ok, Tx.ensure_ok, Tx.ofExcept_ok] at h
  obtain ⟨run, _, hrun, prior, _, ⟨hprior, rfl⟩, _, _, ⟨hsession, rfl⟩, ⟨enforceable, next⟩, _,
    ⟨hcharge, rfl⟩, h⟩ := h
  obtain ⟨hrun, rfl⟩ := selectRun_ok hrun
  simp only [Tx.pure_ok] at h
  obtain ⟨_, _, hb, _, s₁, h₁, _, _, hb', _, s₂, h₂, _, s₃, h₃, rfl, rfl⟩ := h
  obtain ⟨hbs, rfl⟩ := bindAll_ok hb
  obtain ⟨-, rfl⟩ := bindAll_ok hb'
  have hbound := bind_of_mem hbs
  refine ⟨run, prior, enforceable, next, hnew, hrun, hprior, hsession, hcharge,
    ⟨hbound _ (by simp), hbound _ (by simp)⟩, rfl, ?_⟩
  rw [appendEventRow_ok h₃, (Schema.execute_ok.1 h₂).1, (Schema.execute_ok.1 h₁).1]

/-- **An accounted call repeats a row of the ledger, or adds one.** -/
theorem recordInvocationUsage_ok (h : recordInvocationUsage c now s = .ok (record, s')) :
    ∃ role, c.validate = .ok role ∧
      ((∃ existing run, s.1.usage? c.runId c.invocationId = some existing ∧
          c.Repeats role existing ∧ s.1.run? c.runId = some run ∧
          record = ⟨existing, run.enforceableTokens role, true⟩ ∧ s' = s) ∨
        ∃ run prior enforceable next,
          Accounts c role now s record s' run prior enforceable next) := by
  unfold recordInvocationUsage at h
  simp only [Tx.bind_ok, Tx.ofExcept_ok, Tx.query_ok] at h
  obtain ⟨role, s₀, ⟨hrole, h₀⟩, _, s₁, hb, t, s₂, ⟨ht, hs⟩, h⟩ := h
  have h₁ := (bindAll_ok hb).2
  subst t s₂ s₁ s₀
  refine ⟨role, hrole, ?_⟩
  cases hfound : s.1.usage? c.runId c.invocationId with
  | some existing =>
    rw [hfound] at h
    obtain ⟨hrep, rfl, run, hrun, hrec⟩ := replayUsage_ok h
    exact .inl ⟨existing, run, rfl, hrep, hrun, hrec, rfl⟩
  | none =>
    rw [hfound] at h
    exact .inr (freshUsage_ok hfound h)

end

end NyanShopBot.Orchestrator
