import NyanShopBot.VietShare.PgGate

/-!
# What the gate transactions do

One lemma for each operation of the gate: `prepare_ok`, `Claims`, `Finishes`,
`markReconciling_ok` and `updateControl_ok` say what held when the transaction
committed, what it returned and what it left stored. `exec_writes` sums up what
an operation can write.
-/

namespace NyanShopBot.VietShare

open Py Db

theorem mem_of_single {ρ : Type} {rows : List ρ} {r : ρ} (h : single rows = some r) : r ∈ rows := by
  unfold single at h
  split at h
  · cases h; exact .head _
  · cases h

/-! ## Statements -/

theorem insertPrepared_ok {row : JournalRow} {s s' : Store} {u : Unit}
    (h : insertPrepared row s = .ok (u, s')) :
    s' = s ∨ (s'.1 = { s.1 with journal := s.1.journal ++ [row] } ∧
      ∀ r ∈ s.1.journal, r.testId ≠ row.testId) := by
  unfold insertPrepared at h
  simp only [Tx.bind_ok, Tx.ensure_ok, Tx.query_ok] at h
  obtain ⟨_, _, ⟨-, rfl⟩, t, _, ⟨rfl, rfl⟩, h⟩ := h
  split at h
  · exact .inl (Tx.pure_ok.1 h).2
  · next hnew =>
    simp only [List.any_eq_true, Bool.or_eq_true, decide_eq_true_eq, not_exists, not_and] at hnew
    exact .inr ⟨(Schema.execute_ok.1 h).1, fun r hr e => hnew r hr (.inl e)⟩

theorem finishJournal_ok {testId : Str} {c : Completion} {due : Option Int} {s s' : Store}
    {u : Unit}
    (h : finishJournal testId c due s = .ok (u, s')) :
    ∃ row orderCode errorCode, s.1.row? testId = some row ∧ row.state = .dispatching ∧
      varcharOrNull 128 c.orderCode = some orderCode ∧
      varcharOrNull 64 c.errorCode = some errorCode ∧
      s'.1 = s.1.setJournal testId (.finished c.state due orderCode errorCode) := by
  unfold finishJournal at h
  simp only [Tx.bind_ok, Tx.ensure_ok, Tx.query_ok, Tx.getOrThrow_ok] at h
  obtain ⟨_, _, ⟨-, rfl⟩, t, _, ⟨rfl, rfl⟩, row, _, ⟨hrow, rfl⟩, oc, _, ⟨hoc, rfl⟩, ec, _,
    ⟨hec, rfl⟩, h⟩ := h
  obtain ⟨hrow, hst⟩ := Option.filter_eq_some_iff.1 hrow
  exact ⟨row, oc, ec, hrow, by simpa using hst, hoc, hec, (Schema.execute_ok.1 h).1⟩

theorem finishAttempt_ok {testId nonce : Str} {c : Completion} {header : Option Str} {s s' : Store}
    {u : Unit} (h : finishAttempt testId nonce c header s = .ok (u, s')) :
    ∃ a errorCode stored, s.1.attempt? nonce = some a ∧ a.testId = testId ∧
      a.outcomeState = none ∧ varcharOrNull 64 c.errorCode = some errorCode ∧
      varcharOrNull 256 header = some stored ∧
      s'.1 = s.1.setAttempt nonce (.completed c.httpStatus errorCode stored c.state) := by
  unfold finishAttempt at h
  simp only [Tx.bind_ok, Tx.ensure_ok, Tx.query_ok, Tx.getOrThrow_ok] at h
  obtain ⟨_, _, ⟨-, rfl⟩, t, _, ⟨rfl, rfl⟩, a, _, ⟨ha, rfl⟩, ec, _, ⟨hec, rfl⟩, hd, _,
    ⟨hhd, rfl⟩, h⟩ := h
  obtain ⟨ha, hopen⟩ := Option.filter_eq_some_iff.1 ha
  simp only [Bool.and_eq_true, decide_eq_true_eq] at hopen
  exact ⟨a, ec, hd, ha, hopen.1, hopen.2, hec, hhd, (Schema.execute_ok.1 h).1⟩

/-! ## Finishing, reconciling and control -/

/-- The control row with the gate closed. -/
def ControlRow.disabled (c : ControlRow) : ControlRow := { c with enabled := false }

/-- What held when a dispatch was completed, and what it left. -/
structure Finishes (s : Store) (testId nonce : Str) (c : Completion) (now : Int) (s' : Store) :
    Prop where
  state : c.state = .unknown ∨ c.state = .reconciling ∨ c.state = .succeeded
  row : ∃ row, s.1.row? testId = some row ∧ row.state = .dispatching
  attempt : ∃ a, s.1.attempt? nonce = some a ∧ a.testId = testId ∧ a.outcomeState = none
  writes : ∃ delay header orderCode errorCode stored,
    delaySeconds c.retryDelaySeconds = .ok delay ∧ headerEvidence c.retryAfterHeader = .ok header ∧
    varcharOrNull 128 c.orderCode = some orderCode ∧ varcharOrNull 64 c.errorCode = some errorCode ∧
    varcharOrNull 256 header = some stored ∧
    s'.1 = ((s.1.setJournal testId
        (.finished c.state (delay.map fun d => now + interval d) orderCode errorCode)).setAttempt
          nonce (.completed c.httpStatus errorCode stored c.state)).setControl s.1.control.disabled

theorem finish_ok {testId nonce : Str} {c : Completion} {now : Int} {s s' : Store} {u : Unit}
    (h : finish testId nonce c now s = .ok (u, s')) : Finishes s testId nonce c now s' := by
  unfold finish at h
  simp only [Tx.bind_ok, Tx.ensure_ok, Tx.ofExcept_ok] at h
  obtain ⟨_, _, ⟨hst, rfl⟩, delay, _, ⟨hdelay, rfl⟩, header, _, ⟨hheader, rfl⟩, _, s₁, hj, _, s₂,
    ha, h⟩ := h
  obtain ⟨row, oc, ec, hrow, hdisp, hoc, hec, hs₁⟩ := finishJournal_ok hj
  obtain ⟨a, ec', stored, hatt, htest, hopen, hec', hstored, hs₂⟩ := finishAttempt_ok ha
  obtain rfl : ec = ec' := Option.some.inj (hec.symm.trans hec')
  rw [hs₁] at hs₂ hatt
  refine ⟨hst, ⟨row, hrow, hdisp⟩, ⟨a, hatt, htest, hopen⟩,
    delay, header, oc, ec, stored, hdelay, hheader, hoc, hec, hstored, ?_⟩
  rw [(Schema.execute_ok.1 h).1, hs₂]
  rfl

theorem markReconciling_ok {testId : Str} {operatorId : Option Str} {s s' : Store} {u : Unit}
    (h : markReconciling testId operatorId s = .ok (u, s')) :
    ∃ row, s.1.row? testId = some row ∧ row.state = .unknown ∧
      s'.1 = s.1.setJournal testId JournalRow.reconciling := by
  unfold markReconciling at h
  simp only [Tx.bind_ok, Tx.ensure_ok, Tx.query_ok, Tx.getOrThrow_ok] at h
  obtain ⟨t, _, ⟨rfl, rfl⟩, _, _, ⟨-, rfl⟩, _, _, ⟨-, rfl⟩, row, _, ⟨hrow, rfl⟩, h⟩ := h
  obtain ⟨hrow, hst⟩ := Option.filter_eq_some_iff.1 hrow
  simp only [Bool.and_eq_true, decide_eq_true_eq] at hst
  exact ⟨row, hrow, hst.2, (Schema.execute_ok.1 h).1⟩

theorem updateControl_ok {c : ControlRow} {s s' : Store} {u : Unit}
    (h : updateControl c s = .ok (u, s')) : s'.1 = s.1.setControl c := by
  unfold updateControl at h
  simp only [Tx.bind_ok, Tx.ensure_ok] at h
  obtain ⟨_, _, ⟨-, rfl⟩, h⟩ := h
  exact (Schema.execute_ok.1 h).1

theorem getRecord_ok {testId : Str} {s s' : Store} {record : Option GateRecord}
    (h : getRecord testId s = .ok (record, s')) :
    s' = s ∧ record = (s.1.row? testId).map (·.toGateRecord) := by
  unfold getRecord at h
  simp only [Tx.bind_ok, Tx.ensure_ok, Tx.query_ok, Tx.pure_ok] at h
  obtain ⟨_, _, ⟨-, rfl⟩, t, _, ⟨rfl, rfl⟩, rfl, rfl⟩ := h
  exact ⟨rfl, rfl⟩

section

variable [Hashlib]

/-! ## Preparing and claiming -/

/-- What `prepare` read back, and what it inserted. -/
theorem prepare_ok {intent : CappedTestIntent} {s s' : Store} {record : GateRecord}
    (h : prepare intent s = .ok (record, s')) :
    ∃ body row, intent.purchase.rawBody = .ok body ∧ row ∈ s'.1.journal ∧
      row.matchesIntent intent body = true ∧ record = row.toGateRecord ∧
      (s' = s ∨ (s'.1 = { s.1 with journal := s.1.journal ++ [.prepared intent body] } ∧
        ∀ r ∈ s.1.journal, r.testId ≠ intent.testId)) := by
  unfold prepare at h
  simp only [Tx.bind_ok, Tx.ofExcept_ok, Tx.query_ok, Tx.getOrThrow_ok, Tx.ensure_ok,
    Tx.pure_ok] at h
  obtain ⟨body, _, ⟨hbody, rfl⟩, _, s₁, hins, t, _, ⟨rfl, rfl⟩, stored, _, ⟨hone, rfl⟩, _, _,
    ⟨hm, rfl⟩, rfl, rfl⟩ := h
  exact ⟨body, stored, hbody, List.mem_of_mem_filter (mem_of_single hone), hm, rfl,
    insertPrepared_ok hins⟩

theorem reserveAttempt_ok {testId nonce bodySha256 : Str} {timestamp : Int} {s s' : Store}
    {u : Unit} (h : reserveAttempt testId timestamp nonce bodySha256 s = .ok (u, s')) :
    fitsText 128 nonce = true ∧ ∃ canonical, s'.1 =
      { s.1 with attempts := s.1.attempts ++ [⟨nonce, testId, timestamp, str "POST",
        bodySha256, sha256Hex canonical, none, none, none, none⟩] } := by
  unfold reserveAttempt at h
  simp only [Tx.bind_ok, Tx.ofExcept_ok, Tx.ensure_ok] at h
  obtain ⟨canonical, _, ⟨-, rfl⟩, _, _, ⟨hfit, rfl⟩, h⟩ := h
  simp only [Bool.and_eq_true] at hfit
  exact ⟨hfit.1, canonical, (Schema.execute_ok.1 h).1⟩

/-- What held when a claim committed, and what it left. -/
structure Claims (s : Store) (testId : Str) (operatorId : Option Str) (timestamp : Option Int)
    (nonce : Option Str) (now : Int) (record : GateRecord) (s' : Store) : Prop where
  auth : validAuth timestamp nonce = true
  sendable : storable testId = true
  nonceFits : fitsText 128 (nonce.getD []) = true
  row : ∃ row, s.1.row? testId = some row ∧ record = row.toGateRecord
  approves : s.1.control.approves operatorId record = true
  state : record.state = .prepared ∨ record.state = .reconciling
  notFrozen : isFrozenCode record.lastErrorCode = false
  hash : sha256Hex record.rawBody = record.bodySha256
  body : record.expectedBody = .ok record.rawBody
  due : record.retryNotBefore.all (· ≤ now) = true
  alone : ∀ r ∈ s.1.journal, r.source = str "vietshare" → r.testId ≠ testId →
    r.state.isUnresolved = false
  writes : ∃ canonical, s'.1 = ({ s.1 with attempts := s.1.attempts ++
    [⟨nonce.getD [], testId, timestamp.getD 0, str "POST", record.bodySha256,
      sha256Hex canonical, none, none, none, none⟩] } : Tables).setJournal testId
        JournalRow.claimed

theorem claim_ok {testId : Str} {operatorId : Option Str} {timestamp : Option Int}
    {nonce : Option Str} {now : Int} {s s' : Store} {record : GateRecord}
    (h : claim testId operatorId timestamp nonce now s = .ok (record, s')) :
    Claims s testId operatorId timestamp nonce now record s' := by
  unfold claim at h
  simp only [Tx.bind_ok, Tx.ensure_ok, Tx.query_ok, Tx.getOrThrow_ok, Tx.pure_ok] at h
  obtain ⟨_, _, ⟨hauth, rfl⟩, _, _, ⟨hsend, rfl⟩, t, _, ⟨rfl, rfl⟩, row, _, ⟨hrow, rfl⟩,
    _, s₁, hcheck, _, s₂, hres, _, s₃, hupd, rfl, rfl⟩ := h
  unfold checkClaim at hcheck
  simp only [Tx.bind_ok, Tx.ensure_ok, Tx.query_ok, Tx.ofExcept_ok] at hcheck
  obtain ⟨_, _, ⟨rfl, rfl⟩, _, _, ⟨happ, rfl⟩, _, _, ⟨hst, rfl⟩, _, _, ⟨hfr, rfl⟩,
    _, _, ⟨hhash, rfl⟩, body, _, ⟨hbody, rfl⟩, _, _, ⟨heq, rfl⟩, _, _, ⟨hdue, rfl⟩, halone, rfl⟩ :=
    hcheck
  obtain ⟨hfit, canonical, hs₂⟩ := reserveAttempt_ok hres
  have hid := Tables.testId_of_row? hrow
  refine ⟨hauth, hsend, hfit, ⟨row, hrow, rfl⟩, happ, hst, hfr, hhash, heq ▸ hbody, hdue,
    fun r hr hsrc hne => ?_,
    canonical, ?_⟩
  · simp only [List.any_eq_false, Bool.and_eq_true, decide_eq_true_eq, not_and,
      Bool.not_eq_true] at halone
    exact halone r hr ⟨hsrc, fun e => hne (e.trans hid)⟩
  · rw [(Schema.execute_ok.1 hupd).1, hs₂]

end

end NyanShopBot.VietShare
