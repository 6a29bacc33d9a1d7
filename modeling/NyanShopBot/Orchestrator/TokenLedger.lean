import Mathlib.Algebra.BigOperators.Group.List.Basic
import NyanShopBot.Orchestrator.Transactions

/-!
# The token ledger

`Balanced` says that the totals of a run are the sums over its ledger rows, and
`UsageRow.Sound` what every row of the ledger went through. `exec_ledgerWrite`
finds the few ways in which an operation changes either, and
`LedgerWrite.ledgerOk` that each of them keeps the balance. `token_ledger` says
it of every sequence of operations, with what replays and refused calls do.
-/

namespace NyanShopBot.Orchestrator

open Py Db

/-! ## The balance -/

/-- The sum of the counts that are there. -/
def spent (rows : List UsageRow) : Int := (rows.filterMap (·.enforceableTokens)).sum

def ofRole (role : Role) (rows : List UsageRow) : List UsageRow :=
  rows.filter fun u => u.role = role

def cumulativeRows (rows : List UsageRow) : List UsageRow :=
  rows.filter fun u => u.enforcementBasis = .providerCumulative

/-- **The totals of a run are those of its ledger rows.** -/
structure Balanced (r : RunRow) (rows : List UsageRow) : Prop where
  role : ∀ role, r.enforceableTokens role = some (spent (ofRole role rows))
  total : r.totalTokens = spent (ofRole .worker rows) + spent (ofRole .reviewer rows)
  nonneg : ∀ u ∈ rows, ∀ n ∈ u.enforceableTokens, 0 ≤ n
  cumulative : r.workerCumulativeTokens = spent (cumulativeRows rows)
  last : ∀ u, (cumulativeRows rows).getLast? = some u →
    u.rawProviderTotal = some r.workerCumulativeTokens

/-- What every row of the ledger was checked for. -/
structure UsageRow.Sound (u : UsageRow) : Prop where
  invocationId : u.invocationId ≠ [] ∧ u.invocationId.length ≤ 200
  digest : isDigest u.terminalEventsSha256 = true
  sessionId : u.sessionId ≠ []
  worker : u.enforcementBasis = .providerCumulative → u.role = .worker
  bound : (Param.text u.runId).bind = .ok () ∧ (Param.text u.invocationId).bind = .ok ()

/-- The rows of a run, in their order. -/
def Tables.usageOf (t : Tables) (runId : Str) : List UsageRow :=
  t.invocationUsage.filter fun u => u.runId = runId

structure LedgerOk (t : Tables) : Prop where
  balanced : ∀ r ∈ t.runs, Balanced r (t.usageOf r.runId)
  sound : ∀ u ∈ t.invocationUsage, u.Sound

@[simp] theorem spent_nil : spent [] = 0 := rfl

@[simp] theorem spent_append (rows : List UsageRow) (u : UsageRow) :
    spent (rows ++ [u]) = spent rows + u.enforceableTokens.getD 0 := by
  unfold spent
  cases h : u.enforceableTokens <;> simp [List.filterMap_append, h]

theorem ofRole_append (role : Role) (rows : List UsageRow) (u : UsageRow) :
    ofRole role (rows ++ [u]) = if u.role = role then ofRole role rows ++ [u]
      else ofRole role rows := by
  unfold ofRole
  by_cases h : u.role = role <;> simp [h]

theorem cumulativeRows_append (rows : List UsageRow) (u : UsageRow) :
    cumulativeRows (rows ++ [u]) =
      if u.enforcementBasis = .providerCumulative then cumulativeRows rows ++ [u]
      else cumulativeRows rows := by
  unfold cumulativeRows
  by_cases h : u.enforcementBasis = .providerCumulative <;> simp [h]

/-- What the balance depends on. -/
def RunRow.totals (r : RunRow) : Option Int × Option Int × Int × Int :=
  (r.workerEnforceableTokens, r.reviewerEnforceableTokens, r.totalTokens,
    r.workerCumulativeTokens)

theorem Balanced.of_totals {r r' : RunRow} {rows : List UsageRow} (h : Balanced r rows)
    (he : r'.totals = r.totals) : Balanced r' rows := by
  simp only [RunRow.totals, Prod.mk.injEq] at he
  obtain ⟨hw, hr, ht, hc⟩ := he
  have hrole : ∀ role, r'.enforceableTokens role = r.enforceableTokens role := by
    intro role
    cases role with
    | worker => exact hw
    | reviewer => exact hr
  constructor
  · intro role
    rw [hrole role]
    exact h.role role
  · rw [ht]
    exact h.total
  · exact h.nonneg
  · rw [hc]
    exact h.cumulative
  · intro u hu
    rw [hc]
    exact h.last u hu

/-- A new run is balanced. -/
theorem Balanced.new (runId : Str) (task : TaskSpec) (taskPath baseSha worktreePath : Str)
    (maxWorkers : Int) :
    Balanced (.new runId task taskPath baseSha worktreePath maxWorkers) [] := by
  refine ⟨fun role => ?_, ?_, fun u hu => absurd hu List.not_mem_nil, ?_, fun u hu => ?_⟩
  · cases role <;> simp [RunRow.enforceableTokens, RunRow.new, ofRole]
  · simp [RunRow.new, ofRole]
  · simp [RunRow.new, cumulativeRows]
  · simp [cumulativeRows] at hu

/-! ## Accounting keeps the balance -/

section

variable {c : UsageCall} {run : RunRow} {enforceable next : Option Int}

theorem charge_ok (h : c.charge run = .ok (enforceable, next)) :
    (c.cumulativeProviderTotal = true ∧ ∃ total, c.accounting.rawProviderTotal = some total ∧
        run.workerCumulativeTokens ≤ total ∧
        enforceable = some (total - run.workerCumulativeTokens) ∧ next = some total) ∨
      (c.cumulativeProviderTotal = false ∧ enforceable = c.accounting.enforceableTokens ∧
        next = none) := by
  unfold UsageCall.charge at h
  split at h
  · next hc =>
    split at h
    · cases h
    · next total htotal =>
      split at h
      · cases h
      · next hle =>
        cases h
        exact .inl ⟨hc, total, htotal, by omega, rfl, rfl⟩
  · next hc =>
    cases h
    exact .inr ⟨by simpa using hc, rfl, rfl⟩

theorem charge_nonneg (h : c.charge run = .ok (enforceable, next)) : ∀ n ∈ enforceable, 0 ≤ n := by
  rcases charge_ok h with ⟨-, total, -, hle, rfl, -⟩ | ⟨-, rfl, -⟩
  · intro n hn
    obtain rfl : total - run.workerCumulativeTokens = n := Option.some.inj hn
    omega
  · exact c.accounting.valid.nonneg _ (by simp)

theorem basis_cumulative : c.basis = .providerCumulative ↔ c.cumulativeProviderTotal = true := by
  unfold UsageCall.basis
  split_ifs with h₁ h₂ <;> simp [h₁]

theorem cumulativeRows_row (rows : List UsageRow) (role : Role) (now : Str) :
    cumulativeRows (rows ++ [c.row role enforceable now]) =
      if c.cumulativeProviderTotal then cumulativeRows rows ++ [c.row role enforceable now]
      else cumulativeRows rows := by
  rw [cumulativeRows_append]
  exact if_congr basis_cumulative rfl rfl

theorem enforceableTokens_account {role role' : Role} {roleTotal total : Int}
    {session digest : Str} :
    (run.account role roleTotal total session digest next).enforceableTokens
      role' = if role = role' then some roleTotal else run.enforceableTokens role' := by
  cases role <;> cases role' <;> rfl

/-- **An accounted invocation keeps its run balanced.** -/
theorem Balanced.account {role : Role} {rows : List UsageRow} {prior : Int} {now : Str}
    (h : Balanced run rows) (hprior : run.enforceableTokens role = some prior)
    (hcharge : c.charge run = .ok (enforceable, next)) :
    Balanced (run.account role (prior + enforceable.getD 0)
        (run.totalTokens + enforceable.getD 0) c.sessionId c.terminalEventsSha256 next)
      (rows ++ [c.row role enforceable now]) := by
  have hrow : (c.row role enforceable now).enforceableTokens = enforceable := rfl
  have hprior : prior = spent (ofRole role rows) :=
    Option.some.inj (hprior.symm.trans (h.role role))
  constructor
  · intro role'
    rw [enforceableTokens_account, ofRole_append]
    show (if role = role' then _ else _) = some (spent (if role = role' then _ else _))
    by_cases hr : role = role'
    · subst hr
      rw [if_pos rfl, if_pos rfl, spent_append, hrow, hprior]
    · rw [if_neg hr, if_neg hr]
      exact h.role role'
  · show run.totalTokens + enforceable.getD 0 = _
    rw [ofRole_append, ofRole_append, h.total]
    cases role with
    | worker =>
      have he : (c.row .worker enforceable now).role = .worker := rfl
      rw [if_pos he, if_neg (by rw [he]; decide), spent_append, hrow]
      omega
    | reviewer =>
      have he : (c.row .reviewer enforceable now).role = .reviewer := rfl
      rw [if_neg (by rw [he]; decide), if_pos he, spent_append, hrow]
      omega
  · intro u hu
    rcases List.mem_append.1 hu with hu | hu
    · exact h.nonneg u hu
    · obtain rfl := List.mem_singleton.1 hu
      exact charge_nonneg hcharge
  · show next.getD run.workerCumulativeTokens = _
    rw [cumulativeRows_row]
    rcases charge_ok hcharge with ⟨hc, total, -, -, rfl, rfl⟩ | ⟨hc, -, rfl⟩
    · rw [if_pos hc, spent_append, ← h.cumulative]
      show total = run.workerCumulativeTokens + (total - run.workerCumulativeTokens)
      omega
    · rw [if_neg (by simp [hc])]
      exact h.cumulative
  · intro u hu
    rw [cumulativeRows_row] at hu
    rcases charge_ok hcharge with ⟨hc, total, htotal, -, -, rfl⟩ | ⟨hc, -, rfl⟩
    · rw [if_pos hc, List.getLast?_concat] at hu
      obtain rfl := Option.some.inj hu
      exact htotal
    · rw [if_neg (by simp [hc])] at hu
      exact h.last u hu

end

/-! ## Writes -/

/-- The assignment leaves the totals of the run alone. -/
def RunField.KeepsTotals : RunField → Prop
  | workerCumulativeTokens _ | workerEnforceableTokens _ | reviewerEnforceableTokens _
  | totalTokens _ => False
  | _ => True

/-- No update writes the totals by hand. -/
def StoreOp.KeepsTotals : StoreOp → Prop
  | updateRun _ values => ∀ v ∈ values, v.KeepsTotals
  | _ => True

theorem RunField.set_totals {v : RunField} (h : v.KeepsTotals) (r : RunRow) :
    (v.set r).totals = r.totals := by
  cases v <;> first | rfl | exact h.elim

/-- **What an operation can do to the totals and the ledger.** -/
inductive LedgerWrite (t t' : Tables) : Prop where
  | update (runId : Str) (f : RunRow → RunRow) (key : ∀ r, (f r).runId = r.runId)
      (totals : ∀ r, (f r).totals = r.totals) (runs : t'.runs = (t.setRun runId f).runs)
      (usage : t'.invocationUsage = t.invocationUsage)
  | create (runId : Str) (task : TaskSpec) (taskPath baseSha worktreePath : Str)
      (maxWorkers : Int)
      (runs : t'.runs = t.runs ++ [.new runId task taskPath baseSha worktreePath maxWorkers])
      (usage : t'.invocationUsage = t.invocationUsage)
  | account (c : UsageCall) (role : Role) (now : Str) (run : RunRow) (prior : Int)
      (enforceable next : Option Int) (valid : c.validate = .ok role)
      (found : t.run? c.runId = some run) (total : run.enforceableTokens role = some prior)
      (charge : c.charge run = .ok (enforceable, next))
      (bound : (Param.text c.runId).bind = .ok () ∧ (Param.text c.invocationId).bind = .ok ())
      (runs : t'.runs = (t.setRun c.runId (·.account role (prior + enforceable.getD 0)
        (run.totalTokens + enforceable.getD 0) c.sessionId c.terminalEventsSha256 next)).runs)
      (usage : t'.invocationUsage = t.invocationUsage ++ [c.row role enforceable now])

theorem LedgerWrite.refl {t t' : Tables} (hr : t'.runs = t.runs)
    (hu : t'.invocationUsage = t.invocationUsage) : LedgerWrite t t' := by
  refine .update [] id (fun _ => rfl) (fun _ => rfl) ?_ hu
  rw [hr]
  show t.runs = Db.modify RunRow.runId t.runs [] id
  unfold Db.modify
  simp

theorem Pinned.ledgerWrite {runId : Str} {t t' : Tables} {session : Option (Role × Str)}
    (h : Pinned runId t session t') : LedgerWrite t t' := by
  cases h with
  | none => exact .refl rfl rfl
  | same => exact .refl rfl rfl
  | @first run role session =>
    refine .update runId (·.setSession session role) ?_ ?_ rfl rfl
    · intro r
      cases role <;> rfl
    · intro r
      cases role <;> rfl

theorem LedgerWrite.of_rest {t t₁ t' : Tables} (h : LedgerWrite t t₁) (hr : t'.runs = t₁.runs)
    (hu : t'.invocationUsage = t₁.invocationUsage) : LedgerWrite t t' := by
  cases h with
  | update runId f key totals runs usage =>
    exact .update runId f key totals (hr.trans runs) (hu.trans usage)
  | create runId task taskPath baseSha worktreePath maxWorkers runs usage =>
    exact .create runId task taskPath baseSha worktreePath maxWorkers (hr.trans runs)
      (hu.trans usage)
  | account c role now run prior enforceable next valid found total charge bound runs usage =>
    exact .account c role now run prior enforceable next valid found total charge bound
      (hr.trans runs) (hu.trans usage)

theorem exec_ledgerWrite {op : StoreOp} (hop : op.KeepsTotals) {s s' : Store} {a : op.Res}
    (h : op.body s = .ok (a, s')) : LedgerWrite s.1 s'.1 := by
  cases op with
  | createRun runId task taskPath baseSha worktreePath maxWorkers =>
    obtain ⟨-, hw⟩ := createRun_ok h
    exact .create runId task taskPath baseSha worktreePath maxWorkers (by rw [hw]) (by rw [hw])
  | getRun runId =>
    obtain ⟨-, rfl⟩ := selectRun_ok h
    exact .refl rfl rfl
  | updateRun runId values =>
    have hw := updateRun_ok h
    refine .update runId (·.assign values) (fun r => r.assign_runId values) (fun r => ?_)
      (by rw [hw]) (by rw [hw]; rfl)
    exact RunRow.assign_keeps (fun v hv r => RunField.set_totals (hop v hv) r) r
  | recordInvocationUsage c now =>
    obtain ⟨role, hrole, ⟨_, _, -, -, -, -, rfl⟩ | ⟨run, prior, enforceable, next, ha⟩⟩ :=
      recordInvocationUsage_ok h
    · exact .refl rfl rfl
    · exact .account c role now run prior enforceable next hrole ha.found ha.total ha.charge
        ha.bound (by rw [ha.writes]; rfl) (by rw [ha.writes]; rfl)
  | hasUnenforceableUsage runId =>
    obtain rfl := hasUnenforceableUsage_ok h
    exact .refl rfl rfl
  | transition runId phase payload =>
    have hw := transition_ok h
    exact .update runId (·.assign [.phase phase]) (fun _ => rfl) (fun _ => rfl) (by rw [hw]; rfl)
      (by rw [hw]; rfl)
  | recordCiFixRequest c =>
    obtain ⟨run, t, k, e, -, -, -, -, -, ⟨-, rfl⟩ | ⟨-, hre⟩, hw⟩ := recordCiFixRequest_ok h
    · exact .update c.runId (·.fixRequested c) (fun _ => rfl) (fun _ => rfl) (by rw [hw]; rfl)
        (by rw [hw]; rfl)
    · rw [hre.writes] at hw
      exact .update c.runId (·.fixRequested c) (fun _ => rfl) (fun _ => rfl) (by rw [hw]; rfl)
        (by rw [hw]; rfl)
  | recoverBlockedCiPass runId expectedHead ciRunId ciUrl =>
    obtain ⟨run, t, -, -, -, hre, hw⟩ := recoverBlockedCiPass_ok h
    rw [hre.writes] at hw
    exact .update runId (·.ciPassed ciRunId ciUrl) (fun _ => rfl) (fun _ => rfl) (by rw [hw]; rfl)
      (by rw [hw]; rfl)
  | appendEvent runId kind payload =>
    have hw := appendEventRow_ok h
    exact .refl (by rw [hw]; rfl) (by rw [hw]; rfl)
  | appendActivityEvent runId payload sourceKey session =>
    obtain ⟨t, hpin, ⟨-, hw⟩ | ⟨-, hw⟩⟩ := appendActivityEvent_ok h
    · exact hpin.ledgerWrite.of_rest (by rw [hw]) (by rw [hw])
    · exact hpin.ledgerWrite.of_rest (by rw [hw]; rfl) (by rw [hw]; rfl)
  | releaseClaim runId =>
    have hw := releaseClaim_ok h
    exact .refl (by rw [hw]; rfl) (by rw [hw]; rfl)

/-! ## The invariant -/

/-- What the checks of the arguments leave. -/
theorem validate_ok {c : UsageCall} {role : Role} (h : c.validate = .ok role) :
    Role.ofValue c.role = some role ∧ c.invocationId ≠ [] ∧ c.invocationId.length ≤ 200 ∧
      isDigest c.terminalEventsSha256 = true ∧ c.sessionId ≠ [] ∧
      (c.cumulativeProviderTotal = true → role = .worker) := by
  unfold UsageCall.validate at h
  split at h
  · cases h
  · next role' hrole =>
    split_ifs at h with h₁ h₂ h₃ h₄
    cases h
    simp only [not_or, Nat.not_lt, not_not, not_and, ne_eq] at h₁ h₂ h₃ h₄
    exact ⟨hrole, h₁.1, h₁.2, h₂, h₃, h₄⟩

theorem sound_row {c : UsageCall} {role : Role} {enforceable : Option Int} {now : Str}
    (hvalid : c.validate = .ok role)
    (hbound : (Param.text c.runId).bind = .ok () ∧ (Param.text c.invocationId).bind = .ok ()) :
    (c.row role enforceable now).Sound := by
  obtain ⟨-, hne, hlen, hdigest, hsession, hworker⟩ := validate_ok hvalid
  exact ⟨⟨hne, hlen⟩, hdigest, hsession, fun h => hworker (basis_cumulative.1 h), hbound⟩

/-- A run with no row in the table has none in the ledger. -/
theorem usageOf_absent {s : Store} {runId : Str} (h : ∀ r ∈ s.1.runs, r.runId ≠ runId) :
    s.1.usageOf runId = [] := by
  refine List.filter_eq_nil_iff.2 fun u hu he => ?_
  obtain ⟨r, hr, hrun⟩ := List.mem_map.1 (s.2.2.2.2.2.1 u hu)
  exact h r hr (hrun.trans (by simpa using he))

/-- **Every write keeps the ledger in order.** -/
theorem LedgerWrite.ledgerOk {s s' : Store} (hw : LedgerWrite s.1 s'.1) (h : LedgerOk s.1) :
    LedgerOk s'.1 := by
  cases hw with
  | update runId f key totals runs usage =>
    refine ⟨fun r hr => ?_, fun u hu => h.sound u (usage ▸ hu)⟩
    rw [runs] at hr
    obtain ⟨a, ha, rfl⟩ := mem_modify.1 hr
    have hu : ∀ id, s'.1.usageOf id = s.1.usageOf id := fun id => by
      unfold Tables.usageOf
      rw [usage]
    split_ifs with hid
    · rw [key, hu]
      exact (h.balanced a ha).of_totals (totals a)
    · rw [hu]
      exact h.balanced a ha
  | create runId task taskPath baseSha worktreePath maxWorkers runs usage =>
    refine ⟨fun r hr => ?_, fun u hu => h.sound u (usage ▸ hu)⟩
    have hu : s'.1.usageOf r.runId = s.1.usageOf r.runId := by
      unfold Tables.usageOf
      rw [usage]
    rw [hu]
    rw [runs] at hr
    rcases List.mem_append.1 hr with hr | hr
    · exact h.balanced r hr
    · obtain rfl := List.mem_singleton.1 hr
      have hfresh : ∀ a ∈ s.1.runs, a.runId ≠ runId := by
        have hn := s'.2.1.1
        rw [runs, List.map_append, List.nodup_append] at hn
        exact fun a ha => hn.2.2 _ (List.mem_map_of_mem ha) _ (List.mem_singleton_self _)
      have hnone : s.1.usageOf runId = [] := usageOf_absent hfresh
      show Balanced _ (s.1.usageOf runId)
      rw [hnone]
      exact .new runId task taskPath baseSha worktreePath maxWorkers
  | account c role now run prior enforceable next valid found total charge bound runs usage =>
    refine ⟨fun r hr => ?_, fun u hu => ?_⟩
    · rw [runs] at hr
      obtain ⟨a, ha, rfl⟩ := mem_modify.1 hr
      have hu : ∀ id, s'.1.usageOf id = if c.runId = id then
          s.1.usageOf id ++ [c.row role enforceable now] else s.1.usageOf id := fun id => by
        have hid : (c.row role enforceable now).runId = c.runId := rfl
        unfold Tables.usageOf
        rw [usage, List.filter_append]
        split_ifs with he <;> simp [hid, he]
      split_ifs with hid
      · obtain rfl : a = run := by
          have hfound := lookup_of_mem RunRow.runId s.2.1.1 ha
          rw [hid] at hfound
          exact Option.some.inj (hfound.symm.trans found)
        have hkey :
            (a.account role (prior + enforceable.getD 0) (a.totalTokens + enforceable.getD 0)
            c.sessionId c.terminalEventsSha256 next).runId = a.runId := by cases role <;> rfl
        rw [hkey, hu, if_pos hid.symm]
        exact (h.balanced a ha).account total charge
      · rw [hu, if_neg (Ne.symm hid)]
        exact h.balanced a ha
    · rw [usage] at hu
      rcases List.mem_append.1 hu with hu | hu
      · exact h.sound u hu
      · obtain rfl := List.mem_singleton.1 hu
        exact sound_row valid bound

theorem exec_ledgerOk {op : StoreOp} (hop : op.KeepsTotals) {s : Store} (h : LedgerOk s.1) :
    LedgerOk (op.exec s).2.1 := by
  rcases Tx.commit_cases op.body s with ⟨e, he⟩ | ⟨a, s', he, hb⟩
  · unfold StoreOp.exec
    rw [he]
    exact h
  · unfold StoreOp.exec
    rw [he]
    exact (exec_ledgerWrite hop hb).ledgerOk h

theorem runOps_ledgerOk {ops : List StoreOp} (hops : ∀ op ∈ ops, op.KeepsTotals) {s : Store}
    (h : LedgerOk s.1) : LedgerOk (runOps s ops).1 := by
  induction ops generalizing s with
  | nil => exact h
  | cons op ops ih =>
    exact ih (fun o ho => hops o (List.mem_cons_of_mem _ ho))
      (exec_ledgerOk (hops op List.mem_cons_self) h)

theorem LedgerOk.empty : LedgerOk Store.empty.1 :=
  ⟨fun _ h => absurd h List.not_mem_nil, fun _ h => absurd h List.not_mem_nil⟩

/-! ## The ledger over every sequence of operations -/

/-- The call brings the evidence that a ledger row holds. -/
def UsageCall.SameEvidence (c : UsageCall) (u : UsageRow) : Prop :=
  c.role = u.role.value ∧ c.Repeats u.role u

theorem Role.ofValue_value (role : Role) : Role.ofValue role.value = some role := by
  cases role <;> decide

theorem Role.value_of_ofValue {text : Str} {role : Role} (h : Role.ofValue text = some role) :
    text = role.value := by
  unfold Role.ofValue at h
  split_ifs at h with h₁ h₂
  · cases h; exact h₁
  · cases h; exact h₂

/-- A call with the evidence of a row passes the checks of the arguments. -/
theorem validate_same {c : UsageCall} {u : UsageRow} (hu : u.Sound)
    (hid : c.invocationId = u.invocationId) (h : c.SameEvidence u) : c.validate = .ok u.role := by
  obtain ⟨hrole, ⟨-, hsession, hdigest, hbasis, -⟩, -⟩ := h
  unfold UsageCall.validate
  rw [hrole, Role.ofValue_value, hid, ← hsession, ← hdigest]
  dsimp only
  rw [if_neg (by simpa using ⟨hu.invocationId.1, hu.invocationId.2⟩),
    if_neg (by simpa using hu.digest), if_neg hu.sessionId, if_neg]
  rintro ⟨hc, hne⟩
  exact hne (hu.worker (hbasis.trans (basis_cumulative.2 hc)))

theorem bindAll_of_bound {s : Store} {params : List Param} (h : ∀ p ∈ params, p.bind = .ok ()) :
    bindAll params s = .ok ((), s) := by
  refine Tx.ofExcept_ok.2 ⟨?_, rfl⟩
  induction params with
  | nil => rfl
  | cons p params ih =>
    have ih := ih fun q hq => h q (List.mem_cons_of_mem _ hq)
    unfold bindParams
    rw [h p List.mem_cons_self]
    exact ih

theorem usage?_key {t : Tables} {runId invocationId : Str} {u : UsageRow}
    (h : t.usage? runId invocationId = some u) :
    u.runId = runId ∧ u.invocationId = invocationId := by
  have hk := @key_of_lookup _ _ _ UsageRow.key _ _ _ h
  simpa [UsageRow.key] using hk

/-- **Equal evidence gets the stored row back.** -/
theorem recordInvocationUsage_again {s : Store} (hs : LedgerOk s.1) {c : UsageCall} {u : UsageRow}
    (hu : s.1.usage? c.runId c.invocationId = some u) (h : c.SameEvidence u) (now : Str) :
    ∃ run, s.1.run? c.runId = some run ∧ recordInvocationUsage c now s =
      .ok (⟨u, run.enforceableTokens u.role, true⟩, s) := by
  obtain ⟨hrun, hid⟩ := usage?_key hu
  have hmem : u ∈ s.1.invocationUsage := mem_of_lookup hu
  have hsound := hs.sound u hmem
  obtain ⟨r, hr, hrid⟩ := List.mem_map.1 (s.2.2.2.2.2.1 u hmem)
  have hfound : s.1.run? c.runId = some r := by
    have hl := lookup_of_mem RunRow.runId s.2.1.1 hr
    rw [hrid, hrun] at hl
    exact hl
  have hbound := hsound.bound
  rw [hrun, hid] at hbound
  have hselect : selectRun c.runId s = .ok (r, s) := by
    unfold selectRun
    rw [Tx.bind_eq (bindAll_of_bound (by simpa using hbound.1)), Tx.query_bind]
    exact Tx.getOrThrow_ok.2 ⟨hfound, rfl⟩
  refine ⟨r, hfound, ?_⟩
  unfold recordInvocationUsage
  rw [Tx.bind_eq (Tx.ofExcept_ok.2 ⟨validate_same hsound hid.symm h, rfl⟩),
    Tx.bind_eq (bindAll_of_bound (by simpa using hbound)), Tx.query_bind, hu]
  show replayUsage c u.role u s = _
  unfold replayUsage
  rw [Tx.ensure_bind h.2.1, Tx.ensure_bind h.2.2, Tx.bind_eq hselect]
  rfl

/-- How the ledger answers a call. -/
structure LedgerAnswers (s : Store) (c : UsageCall) (now : Str) : Prop where
  refused : ∀ e, ((StoreOp.recordInvocationUsage c now).exec s).1 = .error e →
    ((StoreOp.recordInvocationUsage c now).exec s).2 = s
  replayed : ∀ u, s.1.usage? c.runId c.invocationId = some u → c.SameEvidence u →
    ∃ run, s.1.run? c.runId = some run ∧ (StoreOp.recordInvocationUsage c now).exec s =
      (.ok ⟨u, run.enforceableTokens u.role, true⟩, s)
  different : ∀ u, s.1.usage? c.runId c.invocationId = some u → ¬ c.SameEvidence u →
    ∃ e, ((StoreOp.recordInvocationUsage c now).exec s).1 = .error e
  backwards : ∀ run total, s.1.usage? c.runId c.invocationId = none →
    s.1.run? c.runId = some run → c.cumulativeProviderTotal = true →
    c.accounting.rawProviderTotal = some total → total < run.workerCumulativeTokens →
    ∃ e, ((StoreOp.recordInvocationUsage c now).exec s).1 = .error e
  foreign : ∀ run session, s.1.usage? c.runId c.invocationId = none →
    s.1.run? c.runId = some run → c.role = Role.worker.value →
    run.workerSessionId = some session → session ≠ c.sessionId →
    ∃ e, ((StoreOp.recordInvocationUsage c now).exec s).1 = .error e

/-- What an accounted call cannot be, it raises on. -/
theorem exec_raises {s : Store} {c : UsageCall} {now : Str}
    (h : ∀ record s', recordInvocationUsage c now s ≠ .ok (record, s')) :
    ∃ e, ((StoreOp.recordInvocationUsage c now).exec s).1 = .error e := by
  rcases Tx.commit_cases (recordInvocationUsage c now) s with ⟨e, he⟩ | ⟨a, s', -, hb⟩
  · exact ⟨e, congrArg Prod.fst he⟩
  · exact absurd hb (h a s')

theorem LedgerOk.answers {s : Store} (hs : LedgerOk s.1) (c : UsageCall) (now : Str) :
    LedgerAnswers s c now := by
  refine ⟨fun e he => Tx.commit_error he, fun u hu h => ?_, fun u hu h => exec_raises ?_,
    fun run total hnew hrun hc htotal hlt => exec_raises ?_,
    fun run session hnew hrun hrole hsession hne => exec_raises ?_⟩
  · obtain ⟨run, hrun, hb⟩ := recordInvocationUsage_again hs hu h now
    exact ⟨run, hrun, Tx.commit_of_ok hb⟩
  · intro record s' hb
    obtain ⟨role, hrole, ⟨u', run, hu', hrep, -⟩ | ⟨_, _, _, _, ha⟩⟩ := recordInvocationUsage_ok hb
    · obtain rfl : u = u' := Option.some.inj (hu.symm.trans hu')
      have hur : u.role = role := hrep.1.1
      exact h ⟨hur ▸ Role.value_of_ofValue (validate_ok hrole).1, hur ▸ hrep⟩
    · rw [ha.fresh] at hu
      cases hu
  · intro record s' hb
    obtain ⟨role, hrole, ⟨u', run', hu', -⟩ | ⟨run', _, _, _, ha⟩⟩ := recordInvocationUsage_ok hb
    · rw [hnew] at hu'
      cases hu'
    · obtain rfl : run = run' := Option.some.inj (hrun.symm.trans ha.found)
      rcases charge_ok ha.charge with ⟨-, total', htotal', hle, -⟩ | ⟨hc', -⟩
      · obtain rfl : total = total' := Option.some.inj (htotal.symm.trans htotal')
        omega
      · rw [hc] at hc'
        cases hc'
  · intro record s' hb
    obtain ⟨role, hvalid, ⟨u', run', hu', -⟩ | ⟨run', _, _, _, ha⟩⟩ := recordInvocationUsage_ok hb
    · rw [hnew] at hu'
      cases hu'
    · obtain rfl : run = run' := Option.some.inj (hrun.symm.trans ha.found)
      have hworker : role = .worker := by
        have hr := (validate_ok hvalid).1
        rw [hrole, Role.ofValue_value] at hr
        exact (Option.some.inj hr).symm
      exact hne (ha.session hworker session hsession)

/-- **The token ledger.** After any operations on a new store, of which none
writes the totals by hand, every run is balanced; a call with the evidence of its
row returns the row and changes nothing, and one that raises changes nothing. -/
theorem token_ledger {ops : List StoreOp} (hops : ∀ op ∈ ops, op.KeepsTotals) :
    (∀ r ∈ (runOps Store.empty ops).1.runs,
      Balanced r ((runOps Store.empty ops).1.usageOf r.runId)) ∧
    ∀ c now, LedgerAnswers (runOps Store.empty ops) c now := by
  have hok := runOps_ledgerOk hops LedgerOk.empty
  exact ⟨hok.balanced, hok.answers⟩

/-! ## A sample ledger -/

def sampleBudget : Budget where
  maxAgentInvocations := 5
  maxTotalTokens := 300000
  maxWorkerTokens := none
  maxReviewerTokens := none
  maxFixRounds := 3
  invocations := by decide
  tokens := by decide
  workerTokens := nofun
  reviewerTokens := nofun
  fixRounds := by decide

def sampleTask : TaskSpec where
  taskId := str "NSB-041"
  issueNumber := 41
  repository := str "o/r"
  branch := str "nyan/a"
  baseRef := str "main"
  prBase := str "main"
  worker := .antigravity
  autoMergeEligible := false
  budget := sampleBudget

def sampleTotal (total : Nat) : Usage where
  rawInputTokens := none
  cachedInputTokens := none
  rawOutputTokens := none
  reasoningTokens := none
  rawProviderTotal := some total
  valid := ⟨by simp [UsageFields.rawValues, UsageFields.components], nofun, nofun⟩

def sampleComponents : Usage where
  rawInputTokens := some 30
  cachedInputTokens := some 20
  rawOutputTokens := some 5
  reasoningTokens := some 1
  rawProviderTotal := none
  valid := ⟨by simp [UsageFields.rawValues, UsageFields.components],
    by simp [UsageFields.WithinOf], by simp [UsageFields.WithinOf]⟩

def sampleDigest : Str := List.replicate 64 (chr 'a')

/-- A worker whose provider reports a running total. -/
def sampleWorker (invocation : String) (total : Nat) : UsageCall where
  runId := str "run"
  invocationId := str invocation
  role := str "worker"
  sessionId := str "s"
  terminalEventsSha256 := sampleDigest
  accounting := (sampleTotal total).normalizeCumulativeProvider
  cumulativeProviderTotal := true

def sampleReviewer : UsageCall where
  runId := str "run"
  invocationId := str "review-0-attempt-2"
  role := str "reviewer"
  sessionId := str "t"
  terminalEventsSha256 := sampleDigest
  accounting := sampleComponents.normalizeCodex
  cumulativeProviderTotal := false

/-- Two worker rounds and a review, one of them replayed and a total moved back. -/
def sampleOps : List StoreOp := [
  .createRun (str "run") sampleTask (str "t.json") (str "b") (str "w") 2,
  .recordInvocationUsage (sampleWorker "worker-initial-attempt-1" 100) (str "n"),
  .recordInvocationUsage sampleReviewer (str "n"),
  .recordInvocationUsage (sampleWorker "worker-initial-attempt-1" 100) (str "n"),
  .recordInvocationUsage (sampleWorker "worker-fix-1-attempt-3" 250) (str "n"),
  .recordInvocationUsage (sampleWorker "worker-fix-1-attempt-4" 240) (str "n")]

theorem token_ledger_sample :
    (runOps Store.empty sampleOps).1.runs.map RunRow.totals =
        [(some 250, some 15, 265, 250)] ∧
      (∀ r ∈ (runOps Store.empty sampleOps).1.runs,
        Balanced r ((runOps Store.empty sampleOps).1.usageOf r.runId)) ∧
      ∀ c now, LedgerAnswers (runOps Store.empty sampleOps) c now :=
  ⟨by decide +kernel, token_ledger (by simp [sampleOps, StoreOp.KeepsTotals])⟩

end NyanShopBot.Orchestrator
