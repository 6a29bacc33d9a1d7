import NyanShopBot.Orchestrator.TokenLedger

/-!
# The claim ledger

`ClaimsInv` bounds the active claims: two writers at most, one for an issue, and one
claim for a run. `exec_claimWrite` finds the few ways in which an operation changes a
claim; the two that make one active check that there is room. `claim_ledger` says it
of every sequence of operations, with what each one does to the fix rounds of a run.
-/

namespace NyanShopBot.Orchestrator

open Py Db

/-! ## The invariant -/

structure ClaimsInv (t : Tables) : Prop where
  writers : t.activeClaims ≤ 2
  issues : ((t.claims.filter (·.active)).map fun r => (r.repository, r.issueNumber)).Nodup
  runs : (t.claims.map (·.runId)).Nodup

/-- **What an operation can do to the claims.** -/
inductive ClaimWrite (t t' : Tables) : Prop where
  | keeps (claims : t'.claims = t.claims)
  | claims (task : TaskSpec) (runId : Str) (maxWorkers : Int)
      (room : t.activeClaims < maxWorkers) (limit : maxWorkers = 1 ∨ maxWorkers = 2)
      (fresh : ∀ r ∈ t.runs, r.runId ≠ runId)
      (claims : t'.claims = t.claims ++ [⟨task.repository, task.issueNumber, runId, true⟩])
  | releases (runId : Str) (claims : t'.claims = (t.setClaims runId false).claims)
  | reactivates (runId : Str) (room : t.activeClaims < 2)
      (claims : t'.claims = (t.setClaims runId true).claims)

theorem Reactivates.claimWrite {t t₁ t' : Tables} {run : RunRow} (h : Reactivates t run t₁)
    (hc : t'.claims = t₁.claims) : ClaimWrite t t' := by
  have hroom := h.room
  have hlimit := h.limit
  refine .reactivates run.runId (by omega) ?_
  rw [hc, h.writes]
  rfl

theorem Pinned.claims {runId : Str} {t t' : Tables} {session : Option (Role × Str)}
    (h : Pinned runId t session t') : t'.claims = t.claims := by
  cases h <;> rfl

theorem exec_claimWrite {op : StoreOp} {s s' : Store} {a : op.Res}
    (h : op.body s = .ok (a, s')) : ClaimWrite s.1 s'.1 := by
  cases op with
  | createRun runId task taskPath baseSha worktreePath maxWorkers =>
    obtain ⟨hroom, hw⟩ := createRun_ok h
    have hruns :
        s'.1.runs = s.1.runs ++ [.new runId task taskPath baseSha worktreePath maxWorkers] :=
      by rw [hw]
    have hok : s'.1.RunsOk := s'.2.1
    refine .claims task runId maxWorkers hroom ?_ (fun r hr e => ?_) (by rw [hw])
    · exact hok.2 (.new runId task taskPath baseSha worktreePath maxWorkers) (by simp [hruns])
    · have hn := hok.1
      rw [hruns, List.map_append] at hn
      exact (List.nodup_append.1 hn).2.2 r.runId (List.mem_map.2 ⟨r, hr, rfl⟩) runId
        (by simp [RunRow.new]) e
  | getRun runId =>
    obtain ⟨-, rfl⟩ := selectRun_ok h
    exact .keeps rfl
  | updateRun runId values => exact .keeps (by rw [updateRun_ok h]; rfl)
  | recordInvocationUsage c now =>
    obtain ⟨role, -, ⟨_, _, -, -, -, -, rfl⟩ | ⟨run, prior, enforceable, next, ha⟩⟩ :=
      recordInvocationUsage_ok h
    · exact .keeps rfl
    · exact .keeps (by rw [ha.writes]; rfl)
  | hasUnenforceableUsage runId =>
    obtain rfl := hasUnenforceableUsage_ok h
    exact .keeps rfl
  | transition runId phase payload => exact .keeps (by rw [transition_ok h]; rfl)
  | recordCiFixRequest c =>
    obtain ⟨run, t, k, e, -, -, -, -, -, ⟨-, rfl⟩ | ⟨-, hre⟩, hw⟩ := recordCiFixRequest_ok h
    · exact .keeps (by rw [hw]; rfl)
    · exact hre.claimWrite (by rw [hw]; rfl)
  | recoverBlockedCiPass runId expectedHead ciRunId ciUrl =>
    obtain ⟨run, t, -, -, -, hre, hw⟩ := recoverBlockedCiPass_ok h
    exact hre.claimWrite (by rw [hw]; rfl)
  | appendEvent runId kind payload => exact .keeps (by rw [appendEventRow_ok h]; rfl)
  | appendActivityEvent runId payload sourceKey session =>
    obtain ⟨t, hpin, ⟨-, hw⟩ | ⟨-, hw⟩⟩ := appendActivityEvent_ok h
    · exact .keeps (by rw [hw, hpin.claims])
    · exact .keeps (by rw [hw]; exact hpin.claims)
  | releaseClaim runId => exact .releases runId (by rw [releaseClaim_ok h]; rfl)

theorem setClaims_runIds (t : Tables) (runId : Str) (active : Bool) :
    (t.setClaims runId active).claims.map (·.runId) = t.claims.map (·.runId) :=
  map_modify fun _ _ => rfl

/-- **A step keeps the invariant.** -/
theorem ClaimWrite.claimsInv {s s' : Store} (hw : ClaimWrite s.1 s'.1) (h : ClaimsInv s.1) :
    ClaimsInv s'.1 := by
  have hissues := s'.2.2.1.2.1
  cases hw with
  | keeps claims =>
    refine ⟨?_, hissues, ?_⟩
    · rw [Tables.activeClaims, claims]
      exact h.writers
    · rw [claims]
      exact h.runs
  | claims task runId maxWorkers room limit fresh claims =>
    refine ⟨?_, hissues, ?_⟩
    · have hcount : s'.1.activeClaims = s.1.activeClaims + 1 := by
        simp [Tables.activeClaims, claims]
      omega
    · rw [claims, List.map_append]
      refine List.nodup_append.2 ⟨h.runs, by simp, fun id hid id' hid' e => ?_⟩
      -- a claim is one of a run that is there
      obtain ⟨c, hc, rfl⟩ := List.mem_map.1 hid
      obtain ⟨r, hr, hrun⟩ := List.mem_map.1 (s.2.2.1.2.2 c hc)
      obtain rfl : id' = runId := by simpa using hid'
      exact fresh r hr (hrun.trans e)
  | releases runId claims =>
    refine ⟨?_, hissues, ?_⟩
    · have hsub : (((s.1.setClaims runId false).claims.filter (·.active)).map (·.runId)).Sublist
          ((s.1.claims.filter (·.active)).map (·.runId)) :=
        filter_modify_sublist (fun r _ _ hr => by cases hr) fun _ => rfl
      have hlen := hsub.length_le
      have hwriters := h.writers
      simp only [List.length_map] at hlen
      simp only [Tables.activeClaims, claims] at hwriters ⊢
      omega
    · rw [claims, setClaims_runIds]
      exact h.runs
  | reactivates runId room claims =>
    refine ⟨?_, hissues, ?_⟩
    · have hlen := @length_filter_modify_le _ _ _ ClaimRow.runId s.1.claims runId
        (fun r => { r with active := true }) (·.active) h.runs
      have hcount : (s'.1.claims.filter (·.active)).length ≤
          (s.1.claims.filter (·.active)).length + 1 := by
        rw [claims]
        exact hlen
      simp only [Tables.activeClaims] at room ⊢
      omega
    · rw [claims, setClaims_runIds]
      exact h.runs

theorem exec_claimsInv {s : Store} (h : ClaimsInv s.1) (op : StoreOp) :
    ClaimsInv (op.exec s).2.1 := by
  rcases Tx.commit_cases op.body s with ⟨e, he⟩ | ⟨a, s', he, hb⟩
  · rw [StoreOp.exec, he]
    exact h
  · rw [StoreOp.exec, he]
    exact (exec_claimWrite hb).claimsInv h

theorem runOps_claimsInv {s : Store} (h : ClaimsInv s.1) (ops : List StoreOp) :
    ClaimsInv (runOps s ops).1 := by
  induction ops generalizing s with
  | nil => exact h
  | cons op ops ih => exact ih (exec_claimsInv h op)

theorem ClaimsInv.empty : ClaimsInv Store.empty.1 :=
  ⟨by decide, List.nodup_nil, List.nodup_nil⟩

/-! ## Fix rounds -/

/-- A run after an update of one run. -/
theorem run?_of_setRun {t t' : Tables} {runId runId' : Str} {f : RunRow → RunRow} {r : RunRow}
    (hruns : t'.runs = (t.setRun runId' f).runs) (hkey : ∀ r, (f r).runId = r.runId)
    (h : t.run? runId = some r) : t'.run? runId = some (if runId = runId' then f r else r) := by
  have hlook : t'.run? runId = lookup RunRow.runId (Db.modify RunRow.runId t.runs runId' f) runId :=
    congrArg (lookup RunRow.runId · runId) hruns
  rw [hlook]
  by_cases e : runId = runId'
  · subst e
    rw [if_pos rfl, lookup_modify_self fun r hr => (hkey r).trans hr]
    exact congrArg (Option.map f) h
  · rw [if_neg e, lookup_modify_other e fun r hr => (hkey r).trans hr]
    exact h

/-- The operations that create, move and claim runs. -/
def StoreOp.IsClaimOp : StoreOp → Prop
  | createRun _ _ _ _ _ _ | releaseClaim _ | transition _ _ _ | recordCiFixRequest _
  | recoverBlockedCiPass _ _ _ _ => True
  | _ => False

/-- The operation asks for a fix of the run. -/
def StoreOp.Fixes (runId : Str) (op : StoreOp) : Prop :=
  ∃ c, op = .recordCiFixRequest c ∧ c.runId = runId

section

variable {s s' : Store} {runId : Str} {r : RunRow}

theorem recordCiFixRequest_rounds {c : CiFixCall} {u : Unit}
    (h : recordCiFixRequest c s = .ok (u, s')) :
    ∃ r r', s.1.run? c.runId = some r ∧ s'.1.run? c.runId = some r' ∧
      r'.fixRounds = r.fixRounds + 1 ∧ r'.reviewedHeadSha = none := by
  obtain ⟨run, t, k, e, hrun, hnext, -, -, hrounds, hre, hw⟩ := recordCiFixRequest_ok h
  have hruns : s'.1.runs = (s.1.setRun c.runId (·.fixRequested c)).runs := by
    rcases hre with ⟨-, rfl⟩ | ⟨-, hre⟩
    · rw [hw]
      rfl
    · rw [hw, hre.writes]
      rfl
  refine ⟨run, run.fixRequested c, hrun, ?_, ?_, rfl⟩
  · rw [run?_of_setRun hruns (fun _ => rfl) hrun, if_pos rfl]
  · show c.nextFixRound = run.fixRounds + 1
    omega

/-- An operation that does not ask for a fix of a run keeps its fix rounds. -/
theorem body_fixRounds {op : StoreOp} {a : op.Res} (h : op.body s = .ok (a, s'))
    (hop : op.IsClaimOp) (hfix : ¬ op.Fixes runId) (hr : s.1.run? runId = some r) :
    ∃ r', s'.1.run? runId = some r' ∧ r'.fixRounds = r.fixRounds := by
  have hset {runId' : Str} {f : RunRow → RunRow} (hruns : s'.1.runs = (s.1.setRun runId' f).runs)
      (hkey : ∀ r, (f r).runId = r.runId)
      (hf : runId = runId' → (f r).fixRounds = r.fixRounds) :
      ∃ r', s'.1.run? runId = some r' ∧ r'.fixRounds = r.fixRounds := by
    refine ⟨_, run?_of_setRun hruns hkey hr, ?_⟩
    split
    · next e => exact hf e
    · rfl
  cases op with
  | createRun runId' task taskPath baseSha worktreePath maxWorkers =>
    obtain ⟨-, hw⟩ := createRun_ok h
    refine ⟨r, ?_, rfl⟩
    have hlook : s'.1.run? runId = lookup RunRow.runId
        (s.1.runs ++ [.new runId' task taskPath baseSha worktreePath maxWorkers]) runId := by
      rw [hw]
      rfl
    rw [hlook, lookup_append, show lookup RunRow.runId s.1.runs runId = some r from hr]
    rfl
  | releaseClaim runId' => exact ⟨r, by rw [releaseClaim_ok h]; exact hr, rfl⟩
  | transition runId' phase payload =>
    exact hset (by rw [transition_ok h]; rfl) (fun r => r.assign_runId _) fun _ => rfl
  | recordCiFixRequest c =>
    obtain ⟨run, t, k, e, -, -, -, -, -, hre, hw⟩ := recordCiFixRequest_ok h
    refine @hset c.runId (·.fixRequested c) ?_ (fun _ => rfl) fun e => ?_
    · rcases hre with ⟨-, rfl⟩ | ⟨-, hre⟩
      · rw [hw]
        rfl
      · rw [hw, hre.writes]
        rfl
    · exact absurd ⟨c, rfl, e.symm⟩ hfix
  | recoverBlockedCiPass runId' expectedHead ciRunId ciUrl =>
    obtain ⟨run, t, -, -, -, hre, hw⟩ := recoverBlockedCiPass_ok h
    exact hset (f := (·.ciPassed ciRunId ciUrl)) (by rw [hw, hre.writes]; rfl) (fun _ => rfl)
      fun _ => rfl
  | getRun | updateRun | recordInvocationUsage | hasUnenforceableUsage | appendEvent
  | appendActivityEvent => exact hop.elim

end

/-! ## The ledger -/

/-- **What holds of the claims in a store**, and of the operations on it. -/
structure ClaimLedger (s : Store) : Prop where
  inv : ClaimsInv s.1
  /-- An operation that raises changes nothing. -/
  raises : ∀ (op : StoreOp) e, (op.exec s).1 = .error e → (op.exec s).2 = s
  /-- An accepted fix request advances the run by one round and drops its review. -/
  fixRequest : ∀ c, ((StoreOp.recordCiFixRequest c).exec s).1 = .ok () →
    ∃ r r', s.1.run? c.runId = some r ∧
      ((StoreOp.recordCiFixRequest c).exec s).2.1.run? c.runId = some r' ∧
      r'.fixRounds = r.fixRounds + 1 ∧ r'.reviewedHeadSha = none
  fixRounds : ∀ (op : StoreOp) runId r, op.IsClaimOp → ¬ op.Fixes runId →
    s.1.run? runId = some r →
    ∃ r', (op.exec s).2.1.run? runId = some r' ∧ r'.fixRounds = r.fixRounds

/-- **The claim ledger**: after any sequence of operations. -/
theorem claim_ledger (ops : List StoreOp) : ClaimLedger (runOps Store.empty ops) where
  inv := runOps_claimsInv .empty ops
  raises op e h := Tx.commit_error h
  fixRequest c h := recordCiFixRequest_rounds (Tx.commit_ok.1 h)
  fixRounds op runId r hop hfix hr := by
    rcases Tx.commit_cases op.body (runOps Store.empty ops) with ⟨e, he⟩ | ⟨a, s', he, hb⟩
    · rw [StoreOp.exec, he]
      exact ⟨r, hr, rfl⟩
    · rw [StoreOp.exec, he]
      exact body_fixRounds hb hop hfix hr

end NyanShopBot.Orchestrator
