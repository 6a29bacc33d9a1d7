import NyanShopBot.VietShare.Executor
import NyanShopBot.VietShare.GateInvariant

/-!
# When the outcome of a dispatch is recorded

A claimed test stays `Dispatching` until it is finished, whatever the other
operations do (`GateWrites.dispatching`). `finish_commits` says when a finish then goes
through. `outcome_recorded` puts both together: a submit records the outcome of
its dispatch exactly when the reply is `Recordable`.
-/

namespace NyanShopBot.VietShare

open Py Db Conc

/-! ## The dispatching test -/

/-- The test is dispatching, and the attempt with the nonce is open. -/
structure Dispatching (t : Tables) (testId nonce : Str) : Prop where
  row : ∃ r, t.row? testId = some r ∧ r.state = .dispatching
  attempt : ∃ a, t.attempt? nonce = some a ∧ a.testId = testId ∧ a.outcomeState = none

/-- An update of a journal row keeps the rows of the other tests. -/
theorem row?_setJournal_other {t : Tables} {testId k : Str} {f : JournalRow → JournalRow}
    (hne : testId ≠ k) (hf : ∀ r, (f r).testId = r.testId) :
    (t.setJournal k f).row? testId = t.row? testId :=
  @lookup_modify_other _ _ _ (fun r : JournalRow => r.testId) _ _ _ _ hne
    fun r h => (hf r).trans h

theorem row?_setJournal_self {t : Tables} {testId : Str} {f : JournalRow → JournalRow}
    (hf : ∀ r, (f r).testId = r.testId) :
    (t.setJournal testId f).row? testId = (t.row? testId).map f :=
  @lookup_modify_self _ _ _ (fun r : JournalRow => r.testId) _ _ _ fun r h => (hf r).trans h

theorem attempt?_reserve {t : Tables} {nonce : Str} {a b : AuthAttemptRow}
    (h : t.attempt? nonce = some b) : (t.reserve a).attempt? nonce = some b := by
  show lookup AuthAttemptRow.nonce (t.attempts ++ [a]) nonce = some b
  rw [lookup_append, show lookup AuthAttemptRow.nonce t.attempts nonce = some b from h]
  rfl

section

variable [Hashlib]

theorem Claims.dispatching {s s' : Store} {testId : Str} {operatorId : Option Str}
    {timestamp : Option Int} {nonce : Option Str} {now : Int} {record : GateRecord}
    (h : Claims s testId operatorId timestamp nonce now record s') :
    Dispatching s'.1 testId (nonce.getD []) := by
  obtain ⟨row, hrow, -⟩ := h.row
  obtain ⟨canonical, hs⟩ := h.writes
  refine ⟨⟨row.claimed, ?_, rfl⟩, ?_⟩
  · rw [hs, row?_setJournal_self (f := JournalRow.claimed) fun _ => rfl]
    show (s.1.row? testId).map _ = _
    rw [hrow]
    rfl
  · have hmem : (⟨nonce.getD [], testId, timestamp.getD 0, str "POST", record.bodySha256,
        sha256Hex canonical, none, none, none, none⟩ : AuthAttemptRow) ∈ s'.1.attempts := by
      rw [hs]
      exact List.mem_append_right _ List.mem_cons_self
    exact ⟨_, lookup_of_mem AuthAttemptRow.nonce s'.2.2.2.1 hmem, rfl, rfl⟩

/-- **A dispatching test stays so** until it is finished. -/
theorem GateWrites.dispatching {op : GateOp} {s : Store} {t' : Tables} {testId nonce : Str}
    (hw : GateWrites op s t') (h : Dispatching s.1 testId nonce)
    (hop : ∀ n c, op ≠ .finish testId n c) : Dispatching t' testId nonce := by
  obtain ⟨⟨r, hr, hst⟩, b, hb, htest, hopen⟩ := h
  -- a row in another state is the row of another test
  have hother {row : JournalRow} (hrow : row ∈ s.1.journal) (hne : row.state ≠ .dispatching) :
      testId ≠ row.testId := by
    rintro rfl
    have hlook : s.1.row? row.testId = some row :=
      lookup_of_mem (fun r : JournalRow => r.testId) s.2.2.1.1 hrow
    obtain rfl : r = row := Option.some.inj (hr.symm.trans hlook)
    exact hne hst
  cases hw with
  | nothing ht => rw [ht]; exact ⟨⟨r, hr, hst⟩, b, hb, htest, hopen⟩
  | prepared intent body _ _ hnew ht =>
    rw [ht]
    refine ⟨⟨r, ?_, hst⟩, b, hb, htest, hopen⟩
    show lookup (fun r : JournalRow => r.testId) (s.1.journal ++ _) testId = some r
    rw [lookup_append, show lookup (fun r : JournalRow => r.testId) s.1.journal testId = some r
      from hr]
    rfl
  | claimed row a _ _ _ _ hrow hstate _ _ _ ht =>
    have hne : testId ≠ row.testId := hother hrow fun e => by
      rcases hstate with h | h <;> rw [e] at h <;> cases h
    rw [ht]
    exact ⟨⟨r, (row?_setJournal_other (f := .claimed) hne fun _ => rfl).trans hr, hst⟩, b,
      attempt?_reserve hb, htest, hopen⟩
  | finished row a c due orderCode errorCode header hfin hrow _ ha hatest _ _ ht =>
    have hne : testId ≠ row.testId := fun e => hop a.nonce c (by rw [e, hfin])
    have hnonce : nonce ≠ a.nonce := by
      rintro rfl
      have hlook : s.1.attempt? a.nonce = some a :=
        lookup_of_mem AuthAttemptRow.nonce s.2.2.2.1 ha
      obtain rfl : a = b := Option.some.inj (hlook.symm.trans hb)
      exact hne (htest.symm.trans hatest)
    rw [ht]
    have hattempt : lookup AuthAttemptRow.nonce (modify AuthAttemptRow.nonce s.1.attempts a.nonce
        (.completed c.httpStatus errorCode header c.state)) nonce = some b :=
      (lookup_modify_other (f := .completed c.httpStatus errorCode header c.state) hnonce
        fun _ h => h).trans hb
    exact ⟨⟨r, (row?_setJournal_other (f := .finished _ _ _ _) hne fun _ => rfl).trans hr, hst⟩,
      b, hattempt, htest, hopen⟩
  | reconciling row _ _ hrow hunk ht =>
    have hne : testId ≠ row.testId := hother hrow fun e => by rw [e] at hunk; cases hunk
    rw [ht]
    exact ⟨⟨r, (row?_setJournal_other (f := .reconciling) hne fun _ => rfl).trans hr, hst⟩, b, hb,
      htest, hopen⟩
  | control c _ ht => rw [ht]; exact ⟨⟨r, hr, hst⟩, b, hb, htest, hopen⟩

theorem Dispatching.runGate {testId nonce : Str} (others : List (GateOp × Int)) {s : Store}
    (h : Dispatching s.1 testId nonce)
    (hops : ∀ op ∈ others, ∀ n c, op.1 ≠ .finish testId n c) :
    Dispatching (runGate others s).1 testId nonce := by
  induction others generalizing s with
  | nil => exact h
  | cons op others ih =>
    exact ih ((exec_writes op.2 op.1 s).dispatching h (hops op List.mem_cons_self)) fun op hop =>
      hops op (List.mem_cons_of_mem _ hop)

end

/-! ## When a finish commits -/

/-- The updates of the journal that `finish` makes are valid. -/
theorem valid_setJournal {t : Tables} (h : gateSchema.Valid t) (testId : Str)
    {f : JournalRow → JournalRow} (hid : ∀ r, (f r).identity = r.identity)
    (hun : ∀ r ∈ t.journal, r.testId = testId → (f r).state.isUnresolved = true →
      r.state.isUnresolved = true) :
    gateSchema.Valid (t.setJournal testId f) ∧ t.Trigger (t.setJournal testId f) := by
  obtain ⟨hc, ⟨j1, j2, j3, j4⟩, a1, a2, a3, a4⟩ := h
  have htest (r : JournalRow) : (f r).testId = r.testId := congrArg WriteIdentity.testId (hid r)
  have hkey (r : JournalRow) : (f r).idempotencyKey = r.idempotencyKey :=
    congrArg WriteIdentity.idempotencyKey (hid r)
  have hsrc (r : JournalRow) : (f r).source = r.source := congrArg WriteIdentity.source (hid r)
  have e1 : (t.setJournal testId f).journal.map (·.testId) = t.journal.map (·.testId) :=
    map_modify fun r _ => htest r
  have e2 : (t.setJournal testId f).journal.map (·.idempotencyKey) =
      t.journal.map (·.idempotencyKey) := map_modify fun r _ => hkey r
  have e3 : (t.setJournal testId f).journal.map (·.identity) = t.journal.map (·.identity) :=
    map_modify fun r _ => hid r
  have hcheck {r : JournalRow} (hr : r.Check) : (f r).Check := by
    have hi := hid r
    unfold JournalRow.identity at hi
    injection hi with i1 i2 i3 i4 i5 i6 i7 i8 i9 i10 i11 i12
    unfold JournalRow.Check
    rw [i2, i4, i5, i6, i7, i8, i9, i11]
    exact hr
  refine ⟨⟨hc, ⟨e1 ▸ j1, e2 ▸ j2, ?_, fun r hr => ?_⟩, a1, a2, ?_, a4⟩, ?_, List.prefix_refl _⟩
  · exact j3.sublist (filter_modify_sublist hun hsrc)
  · obtain ⟨q, hq, rfl⟩ := mem_modify.1 hr
    split
    · exact hcheck (j4 q hq)
    · exact j4 q hq
  · rw [e1]; exact a3
  · exact e3 ▸ List.prefix_refl _

/-- A completion that the columns of the gate take. -/
structure Completion.Accepted (c : Completion) : Prop where
  state : c.state = .unknown ∨ c.state = .reconciling ∨ c.state = .succeeded
  delay : ∃ d, delaySeconds c.retryDelaySeconds = .ok d
  header : ∃ h : Option Str, c.retryAfterHeader = h.map some ∧ h.all (fitsText 256) = true
  orderCode : c.orderCode.all (fitsText 128) = true
  errorCode : c.errorCode.all (fitsText 64) = true
  status : (c.httpStatus.all fun n => 100 ≤ n && n ≤ 599) = true

theorem varcharOrNull_of_fits {n : Nat} {value : Option Str} (h : value.all (fitsText n) = true) :
    varcharOrNull n value = some value ∧ sendable value = true := by
  cases value with
  | none => exact ⟨rfl, rfl⟩
  | some s =>
    obtain ⟨hs, hl⟩ := fitsText_iff.1 h
    exact ⟨by simp [varcharOrNull, varchar_of_fits hs hl], hs⟩

theorem headerEvidence_of_fits {header : Option Str} (h : header.all (fitsText 256) = true) :
    headerEvidence (header.map some) = .ok header := by
  cases header with
  | none => rfl
  | some text => exact if_pos (fitsText_iff.1 h).2

/-- **A finish commits** for a dispatching test, where its arguments are accepted. -/
theorem finish_commits {s : Store} {testId nonce : Str} {c : Completion}
    (h : Dispatching s.1 testId nonce) (htest : storable testId = true)
    (hnonce : storable nonce = true) (hc : c.Accepted) (now : Int) :
    ∃ s', finish testId nonce c now s = .ok ((), s') := by
  obtain ⟨⟨r, hr, hst⟩, a, ha, hatest, hopen⟩ := h
  obtain ⟨d, hd⟩ := hc.delay
  obtain ⟨header, hh, hfit⟩ := hc.header
  obtain ⟨hov, hos⟩ := varcharOrNull_of_fits hc.orderCode
  obtain ⟨hev, hes⟩ := varcharOrNull_of_fits hc.errorCode
  obtain ⟨hhv, hhs⟩ := varcharOrNull_of_fits hfit
  have hne : c.state ≠ .dispatching := by
    rcases hc.state with e | e | e <;> rw [e] <;> decide
  -- the journal
  obtain ⟨hv₁, ht₁⟩ := valid_setJournal s.2 testId
    (f := .finished c.state (d.map fun d => now + interval d) c.orderCode c.errorCode)
    (fun _ => rfl) fun q hq e _ => by
      obtain rfl : q = r := Option.some.inj
        ((e ▸ lookup_of_mem (fun r : JournalRow => r.testId) s.2.2.1.1 hq).symm.trans hr)
      rw [hst]
      rfl
  have hj : finishJournal testId c (d.map fun d => now + interval d) s = .ok ((), ⟨_, hv₁⟩) := by
    unfold finishJournal
    refine Tx.bind_ok.2 ⟨(), s, Tx.ensure_ok.2 ⟨by simp [htest, hos, hes], rfl⟩, ?_⟩
    refine Tx.bind_ok.2 ⟨s.1, s, Tx.query_ok.2 ⟨rfl, rfl⟩, ?_⟩
    refine Tx.bind_ok.2 ⟨r, s, Tx.getOrThrow_ok.2 ⟨by simp [hr, hst], rfl⟩, ?_⟩
    refine Tx.bind_ok.2 ⟨c.orderCode, s, Tx.getOrThrow_ok.2 ⟨hov, rfl⟩, ?_⟩
    exact Tx.bind_ok.2 ⟨c.errorCode, s, Tx.getOrThrow_ok.2 ⟨hev, rfl⟩,
      Schema.execute_valid hv₁ ht₁⟩
  -- the attempt
  have hv₂ : gateSchema.Valid ((s.1.setJournal testId (.finished c.state
      (d.map fun d => now + interval d) c.orderCode c.errorCode)).setAttempt nonce
        (.completed c.httpStatus c.errorCode header c.state)) := by
    obtain ⟨vc, vj, a1, a2, a3, a4⟩ := hv₁
    refine ⟨vc, vj, ?_, ?_, fun b hb => ?_, fun b hb => ?_⟩
    · have e :
          (s.1.setAttempt nonce (.completed c.httpStatus c.errorCode header c.state)).attempts.map
        (·.nonce) = s.1.attempts.map (·.nonce) := map_modify fun _ _ => rfl
      exact e ▸ a1
    · have e : ((s.1.setAttempt nonce (.completed c.httpStatus c.errorCode header
        c.state)).attempts.map fun r => (r.testId, r.timestamp)) =
        s.1.attempts.map fun r => (r.testId, r.timestamp) := map_modify fun _ _ => rfl
      exact e ▸ a2
    · obtain ⟨q, hq, rfl⟩ := mem_modify.1 hb
      split
      · exact a3 q hq
      · exact a3 q hq
    · obtain ⟨q, hq, rfl⟩ := mem_modify.1 hb
      split
      · obtain ⟨c1, c2, c3, -, -⟩ := a4 q hq
        refine ⟨c1, c2, c3, hc.status, ?_⟩
        show (Option.all _ (some c.state)) = true
        rcases hc.state with e | e | e <;> rw [e] <;> rfl
      · exact a4 q hq
  have hatt : finishAttempt testId nonce c header ⟨_, hv₁⟩ = .ok ((), ⟨_, hv₂⟩) := by
    have hstatus : c.httpStatus.all isInt4 = true := by
      have := hc.status
      cases hn : c.httpStatus with
      | none => rfl
      | some n =>
        rw [hn] at this
        simp only [Option.all_some, Bool.and_eq_true, decide_eq_true_eq] at this
        simp only [Option.all_some, isInt4, Bool.and_eq_true, decide_eq_true_eq]
        omega
    unfold finishAttempt
    refine Tx.bind_ok.2 ⟨(), _, Tx.ensure_ok.2 ⟨by simp [hnonce, hhs, hstatus], rfl⟩, ?_⟩
    refine Tx.bind_ok.2 ⟨_, _, Tx.query_ok.2 ⟨rfl, rfl⟩, ?_⟩
    refine Tx.bind_ok.2 ⟨a, _, Tx.getOrThrow_ok.2 ⟨?_, rfl⟩, ?_⟩
    · have ha' : (s.1.setJournal testId (.finished c.state (d.map fun d => now + interval d)
          c.orderCode c.errorCode)).attempt? nonce = some a := ha
      simp [ha', hatest, hopen]
    refine Tx.bind_ok.2 ⟨c.errorCode, _, Tx.getOrThrow_ok.2 ⟨hev, rfl⟩, ?_⟩
    refine Tx.bind_ok.2 ⟨header, _, Tx.getOrThrow_ok.2 ⟨hhv, rfl⟩, ?_⟩
    exact Schema.execute_valid hv₂ ⟨List.prefix_refl _, List.prefix_refl _⟩
  -- the control row
  have hv₃ : gateSchema.Valid (((s.1.setJournal testId (.finished c.state
      (d.map fun d => now + interval d) c.orderCode c.errorCode)).setAttempt nonce
        (.completed c.httpStatus c.errorCode header c.state)).setControl s.1.control.disabled) :=
    ⟨⟨s.2.1.1, nofun⟩, hv₂.2⟩
  unfold finish
  refine ⟨⟨_, hv₃⟩, Tx.bind_ok.2 ⟨(), s, Tx.ensure_ok.2 ⟨hc.state, rfl⟩, ?_⟩⟩
  refine Tx.bind_ok.2 ⟨d, s, Tx.ofExcept_ok.2 ⟨hd, rfl⟩, ?_⟩
  refine Tx.bind_ok.2 ⟨header, s, Tx.ofExcept_ok.2 ⟨hh ▸ headerEvidence_of_fits hfit, rfl⟩, ?_⟩
  refine Tx.bind_ok.2 ⟨(), _, hj, Tx.bind_ok.2 ⟨(), _, hatt, ?_⟩⟩
  exact Schema.execute_valid hv₃ ⟨List.prefix_refl _, List.prefix_append _ _⟩

/-- What a finish that committed took of the header. -/
theorem finish_header {s s' : Store} {testId nonce : Str} {c : Completion} {now : Int} {u : Unit}
    (h : finish testId nonce c now s = .ok (u, s')) {text : Str}
    (ht : c.retryAfterHeader = some (some text)) : fitsText 256 text = true := by
  obtain ⟨d, header, oc, ec, stored, -, hh, -, -, hst, -⟩ := (finish_ok h).writes
  rw [ht] at hh
  unfold headerEvidence at hh
  split at hh
  · next he => cases he
  · next text' he =>
    cases he
    split at hh
    · next hl =>
      cases hh
      refine fitsText_iff.2 ⟨?_, hl⟩
      by_contra hns
      simp [varcharOrNull, varchar, hns] at hst
    · cases hh
  · next he => cases he

/-! ## Recording the outcome -/

/-- A submit that runs alone: the timestamp and the nonce it is given, the clock
readings of its transactions, the reply, and what other callers do to the gate
before the reply arrives. -/
structure Solo where
  timestamp : Option Int
  nonce : Option Str
  claimed : Int
  others : List (GateOp × Int)
  reply : Except Exc Reply
  received : Int
  finished : Int

def Solo.answer [Hashlib] (env : Solo) (s : Store) :
    (op : ExecutorOp) → Except Exc op.Res × Store
  | .gate (.claim testId operatorId timestamp nonce) =>
    (GateOp.claim testId operatorId timestamp nonce).exec env.claimed s
  | .gate .serverNowSeconds => GateOp.serverNowSeconds.exec env.received s
  | .gate op => op.exec env.finished s
  | .clock => (.ok env.timestamp, s)
  | .nonceSource => (.ok env.nonce, s)
  | .send _ => (env.reply, runGate env.others s)

/-- The outcome that is returned is the stored state, and the test is not left
dispatching with an open attempt. -/
def Recorded (testId : Str) (r : Except Exc GateOutcome × Store) : Prop :=
  (∃ outcome row, r.1 = .ok outcome ∧ r.2.1.row? testId = some row ∧ row.state = outcome.state) ∧
    ∀ row, r.2.1.row? testId = some row →
      ¬ (row.state = .dispatching ∧ r.2.1.openAttempts testId ≠ [])

/-- The wait that is stored with a response. -/
def wait [Stdlib] (r : VietShareResponse) (received : Int) : PyFloat :=
  (retryAfter r.headers (.float (PyFloat.ofRat (received / 1000000)))).getD (.finite 1)

/-- A response whose body is read without an exception that escapes, whose
`Retry-After` header can be stored, and whose delay, where one is stored, is at
most a thousand million seconds. -/
def VietShareResponse.Recordable [Stdlib] (r : VietShareResponse) (received : Int) : Prop :=
  ∃ code, errorCode r.body = .ok code ∧ r.headers.retryAfter?.all (fitsText 256) = true ∧
    (r.statusCode = 202 ∨ code = some (str "REQUEST_IN_PROGRESS") →
      ∃ q, wait r received = .finite q ∧ q ≤ 1000000000)

/-- The replies whose outcome is recorded. -/
def Recordable [Stdlib] (reply : Except Exc Reply) (received : Int) : Prop :=
  match reply with
  | .error _ | .ok .other => True
  | .ok (.response r) => r.Recordable received

section

variable [Hashlib]

theorem finishWith_run (testId nonce : Str) (c : Completion) (outcome : GateOutcome)
    (env : Solo) (s : Store) :
    (finishWith testId nonce c outcome).run env.answer s =
      match (finish testId nonce c env.finished).commit s with
      | (.ok _, s') => (.ok outcome, s')
      | (.error e, s') => (.error e, s') := by
  have hanswer : env.answer s (.gate (.finish testId nonce c)) =
      (finish testId nonce c env.finished).commit s := rfl
  unfold finishWith awaitGate
  rw [Prog.run_bind, Prog.run_perform, hanswer]
  rcases (finish testId nonce c env.finished).commit s with ⟨r, s'⟩
  cases r <;> rfl

/-- A completion that is accepted is recorded. -/
theorem finishWith_recorded {s : Store} {testId nonce : Str} {c : Completion}
    {outcome : GateOutcome} (h : Dispatching s.1 testId nonce) (htest : storable testId = true)
    (hnonce : storable nonce = true) (hc : c.Accepted) (ho : outcome.state = c.state)
    (env : Solo) :
    Recorded testId ((finishWith testId nonce c outcome).run env.answer s) := by
  obtain ⟨s', hs'⟩ := finish_commits h htest hnonce hc env.finished
  obtain ⟨r, hr, -⟩ := h.row
  have hf := finish_ok hs'
  obtain ⟨d, header, oc, ec, stored, -, -, -, -, -, hs⟩ := hf.writes
  have hrow : s'.1.row? testId = some (r.finished c.state (d.map fun d => env.finished + interval d)
      oc ec) := by
    rw [hs]
    exact (row?_setJournal_self (f := .finished _ _ _ _) fun _ => rfl).trans (by rw [hr]; rfl)
  have hcommit : (finish testId nonce c env.finished).commit s = (.ok (), s') := by
    unfold Tx.commit
    rw [hs']
  rw [finishWith_run, hcommit]
  refine ⟨⟨outcome, _, rfl, hrow, ho.symm⟩, fun row hrow' hdisp => ?_⟩
  obtain rfl := Option.some.inj (hrow.symm.trans hrow')
  have hst : c.state = .dispatching := hdisp.1
  rcases hf.state with e | e | e <;> rw [e] at hst <;> cases hst

/-- What is recorded was finished. -/
theorem finishWith_finished {s : Store} {testId nonce : Str} {c : Completion}
    {outcome : GateOutcome} {env : Solo}
    (h : Recorded testId ((finishWith testId nonce c outcome).run env.answer s)) :
    ∃ s', finish testId nonce c env.finished s = .ok ((), s') := by
  rw [finishWith_run] at h
  rcases Tx.commit_cases (finish testId nonce c env.finished) s with ⟨e, he⟩ | ⟨u, s', -, hs'⟩
  · rw [he] at h
    obtain ⟨⟨o, row, ho, -⟩, -⟩ := h
    cases ho
  · exact ⟨s', hs'⟩

end

/-! ## What a response is completed with -/

theorem fitsText_of_fullmatch {cls : CodePoint → Bool} {lo hi n : Nat} {s : Str}
    (h : fullmatch cls lo hi s = true) (hn : hi ≤ n)
    (hcls : ∀ c, cls c = true → c.val ≠ 0 ∧ isSurrogate c = false) : fitsText n s = true := by
  simp only [fullmatch, Bool.and_eq_true, decide_eq_true_eq, List.all_eq_true] at h
  refine fitsText_iff.2 ⟨?_, by omega⟩
  unfold storable
  rw [List.all_eq_true]
  intro c hc
  simp [hcls c (h.2 c hc)]

theorem lost_accepted {code : Str} (h : fitsText 64 code = true) :
    (Completion.lost code).Accepted :=
  ⟨.inl rfl, ⟨none, rfl⟩, ⟨none, rfl, rfl⟩, rfl, h, rfl⟩

theorem floatOfDigits_nonneg {s : Str} {q : ℚ} (h : floatOfDigits s = some (.finite q)) :
    0 ≤ q := by
  unfold floatOfDigits at h
  split at h
  · unfold PyFloat.ofInt at h
    split at h
    · next r hr =>
      cases h
      exact PyFloat.ofRat_nonneg (by exact_mod_cast Nat.zero_le _) hr
    · cases h
  · cases h

/-- The delays that `finish` takes. -/
theorem delaySeconds_ok {x : PyFloat} (hx : ∀ q, x = .finite q → 0 ≤ q) :
    (∃ d, delaySeconds (some (some (.float x))) = .ok d) ↔
      ∃ q, x = .finite q ∧ q ≤ 1000000000 := by
  cases x with
  | finite q =>
    show (∃ d, (if 0 ≤ q ∧ q ≤ 1000000000 then _ else _) = Except.ok d) ↔ _
    have h0 := hx q rfl
    split_ifs with h
    · exact ⟨fun _ => ⟨q, rfl, h.2⟩, fun _ => ⟨_, rfl⟩⟩
    · refine ⟨nofun, fun ⟨r, hr, hle⟩ => ?_⟩
      cases hr
      exact absurd ⟨h0, hle⟩ h
  | inf => exact ⟨nofun, nofun⟩
  | negInf => exact ⟨nofun, nofun⟩
  | nan => exact ⟨nofun, nofun⟩

section

variable [Stdlib]

theorem errorCode_fits {body : Bytes} {code : Option Str} (h : errorCode body = .ok code) :
    code.all (fitsText 64) = true := by
  unfold errorCode at h
  split at h
  · next document _ =>
    cases h
    unfold detailCode
    cases hm : members document with
    | none => rfl
    | some envelope =>
      cases hd : members (Json.get envelope (str "detail")) with
      | none => simp [hd]
      | some detail =>
        simp only [hd, Option.bind_eq_bind, Option.bind_some]
        cases ht : (text (Json.get detail (str "code"))).filter (isErrorCode ·) with
        | none => rfl
        | some code =>
          refine fitsText_of_fullmatch (Option.filter_eq_some_iff.1 ht).2 (le_refl 64)
            fun c hc => ?_
          simp only [isUpper, isSurrogate, Bool.or_eq_true, Bool.and_eq_true, decide_eq_true_eq,
            beq_iff_eq, Bool.and_eq_false_iff, decide_eq_false_iff_not] at hc ⊢
          omega
  · split at h
    · cases h; rfl
    · cases h

/-- A completed order has an order code of its form. -/
theorem completedOrder_code {document : Json} {key : Str} {purchase : OrderPurchase}
    {order : CompletedOrder} (h : completedOrder document key purchase = some order) :
    isOrderCode order.orderCode = true := by
  simp only [completedOrder, Option.bind_eq_bind, Option.bind_eq_some_iff] at h
  obtain ⟨envelope, -, _, -, fields, -, _, -, _, -, code, -, _, hcode, product, -, id, -, _, -, _,
    -, _, -, quantity, -, _, -, accounts, -, _, -, values, -, prices, -, _, -, breakdown, -, _, -,
    _, -, _, -, total, -, _, -, _, -, _, -, h⟩ := h
  cases h
  by_contra hne
  simp [guard, hne] at hcode

theorem parseOrder_code {record : GateRecord} {response : VietShareResponse}
    {order : CompletedOrder} (h : record.parseOrder response = .ok order) :
    fitsText 128 order.orderCode = true := by
  unfold GateRecord.parseOrder at h
  cases hp : OrderPurchase.make record.productId record.quantity record.maxUnitPriceVnd
    (str "VND") [] none none with
  | error e => rw [hp] at h; cases h
  | ok purchase =>
    rw [hp] at h
    replace h : parseOrderResponse response.body record.idempotencyKey purchase = .ok order := h
    unfold parseOrderResponse at h
    split at h
    · split at h
      · next o ho =>
        cases h
        refine fitsText_of_fullmatch (completedOrder_code ho) (le_refl 128) fun c hc => ?_
        simp only [isUpper, isLower, isDigit, isSurrogate, Bool.or_eq_true, Bool.and_eq_true,
          decide_eq_true_eq, beq_iff_eq, Bool.and_eq_false_iff, decide_eq_false_iff_not] at hc ⊢
        omega
      · cases h
    · cases h

/-- Where the error code could be read, every exception of the parser is caught. -/
theorem parseOrder_error {record : GateRecord} {response : VietShareResponse} {code : Option Str}
    (hcode : errorCode response.body = .ok code) {e : Exc}
    (h : record.parseOrder response = .error e) : e.isValue = true := by
  unfold GateRecord.parseOrder at h
  cases hp : OrderPurchase.make record.productId record.quantity record.maxUnitPriceVnd
    (str "VND") [] none none with
  | error e' =>
    rw [hp] at h
    cases h
    unfold OrderPurchase.make at hp
    split at hp
    · cases hp
    · cases hp; rfl
  | ok purchase =>
    rw [hp] at h
    replace h : parseOrderResponse response.body record.idempotencyKey purchase = .error e := h
    unfold parseOrderResponse at h
    unfold errorCode at hcode
    split at h
    · split at h
      · cases h
      · cases h; rfl
    · next e' he =>
      rw [he] at hcode
      split at hcode
      · next h' => cases h'
      · next h' =>
        cases h'
        split at hcode
        · next hv => rw [if_pos hv] at h; cases h; rfl
        · cases hcode

/-- What a response is completed with: its own header, and a delay only where
the request is still in progress. -/
structure Classified (response : VietShareResponse) (code : Option Str) (retry : Option PyFloat)
    (c : Completion) (outcome : GateOutcome) : Prop where
  outcome : outcome.state = c.state
  state : c.state = .unknown ∨ c.state = .reconciling ∨ c.state = .succeeded
  header : c.retryAfterHeader = response.headers.retryAfter?.map some
  status : c.httpStatus = some response.statusCode
  orderCode : c.orderCode.all (fitsText 128) = true
  errorCode : c.errorCode.all (fitsText 64) = true
  delay : c.retryDelaySeconds =
    if response.statusCode = 202 ∨ code = some (str "REQUEST_IN_PROGRESS") then
      some (some (.float (retry.getD (.finite 1))))
    else none

theorem classify_ok (record : GateRecord) {response : VietShareResponse} {code : Option Str}
    (hcode : VietShare.errorCode response.body = .ok code) (retry : Option PyFloat) :
    ∃ c outcome, classify record response code retry = .ok (c, outcome) ∧
      Classified response code retry c outcome := by
  have hfits := errorCode_fits hcode
  unfold classify
  split_ifs with h₁ h₂ h₃ h₄
  · exact ⟨_, _, rfl, rfl, .inr (.inl rfl), rfl, rfl, rfl, hfits, by rw [if_pos h₁]; rfl⟩
  · exact ⟨_, _, rfl, rfl, .inr (.inl rfl), rfl, rfl, rfl, hfits, by rw [if_neg h₁]; rfl⟩
  · exact ⟨_, _, rfl, rfl, .inr (.inl rfl), rfl, rfl, rfl, hfits, by rw [if_neg h₁]; rfl⟩
  · cases hp : record.parseOrder response with
    | error e =>
      dsimp only
      rw [if_pos (parseOrder_error hcode hp)]
      exact ⟨_, _, rfl, rfl, .inl rfl, rfl, rfl, rfl,
        show fitsText 64 (str "INVALID_RESPONSE") = true by decide, by rw [if_neg h₁]; rfl⟩
    | ok order =>
      have ho := parseOrder_code hp
      dsimp only
      split_ifs
      · exact ⟨_, _, rfl, rfl, .inr (.inl rfl), rfl, rfl, ho,
          show fitsText 64 (str "SPEND_CAP_EXCEEDED") = true by decide, by rw [if_neg h₁]; rfl⟩
      · exact ⟨_, _, rfl, rfl, .inr (.inr rfl), rfl, rfl, ho, rfl, by rw [if_neg h₁]; rfl⟩
  · exact ⟨_, _, rfl, rfl, .inl rfl, rfl, rfl, rfl, hfits, by rw [if_neg h₁]; rfl⟩

theorem wait_nonneg {r : VietShareResponse} {received : Int} {q : ℚ}
    (h : wait r received = .finite q) : 0 ≤ q := by
  unfold wait at h
  cases hr : retryAfter r.headers (.float (PyFloat.ofRat (received / 1000000))) with
  | none =>
    rw [hr] at h
    cases h
    decide
  | some x =>
    rw [hr] at h
    obtain rfl : x = .finite q := h
    unfold retryAfter parseRetryAfter at hr
    obtain ⟨v, -, hr⟩ := Option.bind_eq_some_iff.1 hr
    dsimp only at hr
    split_ifs at hr
    · exact floatOfDigits_nonneg hr
    · obtain ⟨date, -, hr⟩ := Option.bind_eq_some_iff.1 hr
      obtain ⟨now, -, hr⟩ := Option.bind_eq_some_iff.1 hr
      exact PyFloat.max0_nonneg (Option.some.inj hr)

variable [Hashlib]

theorem settle_run (testId nonce : Str) (record : GateRecord) {response : VietShareResponse}
    {code : Option Str} (hcode : VietShare.errorCode response.body = .ok code)
    (env : Solo) (s : Store) :
    ∃ c outcome, Classified response code
        (retryAfter response.headers (.float (PyFloat.ofRat (env.received / 1000000)))) c outcome ∧
      (settle testId nonce record response).run env.answer s =
        (finishWith testId nonce c outcome).run env.answer s := by
  obtain ⟨c, outcome, hc, hclass⟩ := classify_ok record hcode
    (retryAfter response.headers (.float (PyFloat.ofRat (env.received / 1000000))))
  refine ⟨c, outcome, hclass, ?_⟩
  have hnow : (awaitGate .serverNowSeconds).run env.answer s =
      (.ok (PyFloat.ofRat (env.received / 1000000)), s) := rfl
  unfold settle
  simp only [hcode, Prog.ofExcept, Prog.run_bind, Prog.run_ret, hnow, hc]

theorem settle_error {testId nonce : Str} {record : GateRecord} {response : VietShareResponse}
    {e : Exc} (hcode : VietShare.errorCode response.body = .error e) (env : Solo) (s : Store) :
    (settle testId nonce record response).run env.answer s = (.error e, s) := by
  unfold settle
  rw [hcode]
  rfl

/-- **A response is recorded exactly when it is recordable.** -/
theorem settle_recorded {s : Store} {testId nonce : Str} (h : Dispatching s.1 testId nonce)
    (htest : storable testId = true) (hnonce : storable nonce = true) (record : GateRecord)
    (response : VietShareResponse) (env : Solo) :
    Recorded testId ((settle testId nonce record response).run env.answer s) ↔
      response.Recordable env.received := by
  constructor
  · intro hrec
    cases hcode : VietShare.errorCode response.body with
    | error e =>
      rw [settle_error hcode] at hrec
      obtain ⟨⟨o, row, ho, -⟩, -⟩ := hrec
      cases ho
    | ok code =>
      obtain ⟨c, outcome, hc, hrun⟩ := settle_run testId nonce record hcode env s
      rw [hrun] at hrec
      obtain ⟨s', hs'⟩ := finishWith_finished hrec
      refine ⟨code, hcode, ?_, fun hdelay => ?_⟩
      · cases hh : response.headers.retryAfter? with
        | none => rfl
        | some text => exact finish_header hs' (by rw [hc.header, hh]; rfl)
      · obtain ⟨d, _, _, _, _, hd, -⟩ := (finish_ok hs').writes
        rw [hc.delay, if_pos hdelay] at hd
        exact (delaySeconds_ok fun q => wait_nonneg).1 ⟨d, hd⟩
  · rintro ⟨code, hcode, hheader, hdelay⟩
    obtain ⟨c, outcome, hc, hrun⟩ := settle_run testId nonce record hcode env s
    rw [hrun]
    refine finishWith_recorded h htest hnonce ⟨hc.state, ?_, ⟨_, hc.header, hheader⟩, hc.orderCode,
      hc.errorCode, ?_⟩ hc.outcome env
    · rw [hc.delay]
      split_ifs with hd
      · exact (delaySeconds_ok fun q => wait_nonneg).2 (hdelay hd)
      · exact ⟨none, rfl⟩
    · rw [hc.status]
      simpa using response.valid

/-- **What is concluded from a reply.** -/
theorem conclude_recorded {s : Store} {testId nonce : Str} (h : Dispatching s.1 testId nonce)
    (htest : storable testId = true) (hnonce : storable nonce = true) (record : GateRecord)
    (reply : Except Exc Reply) (hreply : ∀ e, reply = .error e → e.isException = true)
    (env : Solo) :
    Recorded testId ((conclude testId nonce record reply).run env.answer s) ↔
      Recordable reply env.received := by
  match reply with
  | .error e =>
    refine iff_of_true ?_ trivial
    have hrun : conclude testId nonce record (.error e) = finishWith testId nonce
        (.lost (str "TRANSPORT_ERROR")) ⟨.unknown, none, none⟩ := if_pos (hreply e rfl)
    rw [hrun]
    exact finishWith_recorded h htest hnonce (lost_accepted (by decide)) rfl env
  | .ok .other =>
    refine iff_of_true ?_ trivial
    exact finishWith_recorded h htest hnonce (lost_accepted (by decide)) rfl env
  | .ok (.response response) => exact settle_recorded h htest hnonce record response env

/-- The request of a claimed test. -/
def claimedRequest (credentials : VietShareCredentials) (record : GateRecord) (env : Solo) :
    Except Exc VietShareRequest :=
  signedRequest credentials (str "POST") ordersPath (env.timestamp.getD 0) (env.nonce.getD [])
    (some record.idempotencyKey) record.rawBody record.bodySha256

/-- A submit that has claimed its test concludes from what the dispatch came to. -/
theorem submit_run (credentials : VietShareCredentials) (testId : Str) (operatorId : Option Str)
    (env : Solo) {record : GateRecord} {s s₁ : Store}
    (h : (GateOp.claim testId operatorId env.timestamp env.nonce).exec env.claimed s =
      (.ok record, s₁)) :
    (submit credentials testId operatorId).run env.answer s =
      match claimedRequest credentials record env with
      | .error e => (conclude testId (env.nonce.getD []) record (.error e)).run env.answer s₁
      | .ok _ => (conclude testId (env.nonce.getD []) record env.reply).run env.answer
          (runGate env.others s₁) := by
  have hclaim : (awaitGate (.claim testId operatorId env.timestamp env.nonce)).run env.answer s =
      (.ok record, s₁) := (Prog.run_perform ..).trans h
  have hclock : (Prog.perform (S := executorSig) (ε := Exc) .clock).run env.answer s =
      (.ok env.timestamp, s) := rfl
  have hnonce : (Prog.perform (S := executorSig) (ε := Exc) .nonceSource).run env.answer s =
      (.ok env.nonce, s) := rfl
  have hdispatch : (dispatch credentials (env.timestamp.getD 0) (env.nonce.getD []) record).run
      env.answer s₁ =
      match claimedRequest credentials record env with
      | .error e => (.error e, s₁)
      | .ok _ => (env.reply, runGate env.others s₁) := by
    unfold dispatch claimedRequest
    rw [Prog.run_bind]
    cases signedRequest credentials (str "POST") ordersPath (env.timestamp.getD 0)
      (env.nonce.getD []) (some record.idempotencyKey) record.rawBody record.bodySha256 with
    | error e => rfl
    | ok request => exact Prog.run_perform ..
  unfold submit
  simp only [Prog.run_bind, hclock, hnonce, hclaim, Prog.run_attempt, hdispatch]
  cases claimedRequest credentials record env <;> rfl

omit [Stdlib] in
/-- A request that cannot be built raises an `Exception`. -/
theorem claimedRequest_error {credentials : VietShareCredentials} {record : GateRecord}
    {env : Solo} {e : Exc} (h : claimedRequest credentials record env = .error e) :
    e.isException = true := by
  have hencode {s : Str} {e : Exc} (h : encode s = .error e) : e.isException = true := by
    unfold encode at h
    split at h
    · cases h
    · cases h; rfl
  have hheaders {values : List (Str × Str)} {e : Exc}
    (h : SensitiveHeaders.make values = .error e) :
      e.isException = true := by
    unfold SensitiveHeaders.make at h
    split at h
    · cases h
    · cases h; rfl
  unfold claimedRequest signedRequest at h
  rcases except_bind_error.1 h with h | ⟨canonical, -, h⟩
  · exact hencode h
  rcases except_bind_error.1 h with h | ⟨secret, -, h⟩
  · unfold VietShareCredentials.secretBytes at h
    split at h
    · exact hencode h
    · cases h
  rcases except_bind_error.1 h with h | ⟨headers, -, h⟩
  · exact hheaders h
  · cases h

/-- **When the outcome is recorded**: for every claimed test, whatever other
callers do to the gate during the dispatch, and for every reply, a submit
returns the stored state and leaves no open attempt exactly when its request
could not be built or the reply is recordable. -/
theorem outcome_recorded (ops : List (GateOp × Int)) (credentials : VietShareCredentials)
    (testId : Str) (operatorId : Option Str) (env : Solo) (record : GateRecord)
    (hclaim : ((GateOp.claim testId operatorId env.timestamp env.nonce).exec env.claimed
      (runGate ops .migrated)).1 = .ok record)
    (hothers : ∀ op ∈ env.others, ∀ n c, op.1 ≠ .finish testId n c)
    (hreply : ∀ e, env.reply = .error e → e.isException = true) :
    Recorded testId ((submit credentials testId operatorId).run env.answer
      (runGate ops .migrated)) ↔
    ∀ request, claimedRequest credentials record env = .ok request →
      Recordable env.reply env.received := by
  have hc := claim_ok (Tx.commit_ok.1 hclaim)
  have hnonce := (fitsText_iff.1 hc.nonceFits).1
  have hd : Dispatching ((GateOp.claim testId operatorId env.timestamp env.nonce).exec env.claimed
      (runGate ops .migrated)).2.1 testId (env.nonce.getD []) := hc.dispatching
  rw [submit_run credentials testId operatorId env (Prod.ext hclaim rfl)]
  cases hreq : claimedRequest credentials record env with
  | error e =>
    refine iff_of_true ?_ nofun
    exact (conclude_recorded hd hc.sendable hnonce record _
      (fun e' he => by cases he; exact claimedRequest_error hreq) env).2 trivial
  | ok request =>
    exact (conclude_recorded (hd.runGate env.others hothers) hc.sendable hnonce record _ hreply
      env).trans ⟨fun h _ _ => h, fun h => h request rfl⟩

end

/-! ## A sample test -/

section

def sampleTest : Str := str "synthetic-test-one"

def sampleOperator : Str := str "synthetic-operator"

attribute [local instance] sampleDigests sampleStdlib

def sampleTestIntent : CappedTestIntent :=
  ⟨sampleTest, str "synthetic-key-one", samplePurchase, 20000, str "synthetic-vnd-wallet",
    sampleOperator, by decide +kernel⟩

/-- The control row that arms the gate for the sample test. -/
def sampleControl : ControlRow where
  enabled := true
  allowedOperatorIds := [some sampleOperator]
  approvedTestId := some sampleTest
  approvedProductId := some 7
  approvedQuantity := some 1
  approvedMaxUnitPriceVnd := some 20000
  approvedSpendCapVnd := some 20000
  approvedWalletId := some (str "synthetic-vnd-wallet")
  approvedCurrency := some (str "VND")
  approvedBy := some (str "synthetic-approver")
  approvalRef := some (str "synthetic-approval")

/-- The sample test, prepared and approved. -/
def sampleOps : List (GateOp × Int) :=
  [(.prepare sampleTestIntent, 0), (.updateControl sampleControl, 0)]

/-- A failing response with a `Retry-After` header of `n` characters. -/
def sampleResponse (n : Nat) : VietShareResponse where
  statusCode := 500
  headers := ⟨[(str "Retry-After", List.replicate n (chr 'x'))], by
    simp only [List.all_cons, List.all_nil, hasLineBreak, List.any_replicate]
    split_ifs <;> decide⟩
  body := [0x7b, 0x7d]
  valid := by decide

def sampleSolo (n : Nat) : Solo where
  timestamp := some 1000
  nonce := some sampleNonce
  claimed := 0
  others := []
  reply := .ok (.response (sampleResponse n))
  received := 0
  finished := 0

/-- The record of the sample test. -/
def sampleRecord : GateRecord := (JournalRow.prepared sampleTestIntent sampleBody).toGateRecord

theorem sample_claimed (n : Nat) :
    ((GateOp.claim sampleTest (some sampleOperator) (sampleSolo n).timestamp
      (sampleSolo n).nonce).exec (sampleSolo n).claimed (runGate sampleOps .migrated)).1 =
      .ok sampleRecord := by
  show ((GateOp.claim sampleTest (some sampleOperator) (some 1000) (some sampleNonce)).exec 0
    (runGate sampleOps .migrated)).1 = .ok sampleRecord
  decide +kernel

/-- **A response whose header is too long strands the test.** -/
theorem outcome_stranded :
    ((GateOp.claim sampleTest (some sampleOperator) (sampleSolo 257).timestamp
      (sampleSolo 257).nonce).exec (sampleSolo 257).claimed (runGate sampleOps .migrated)).1 =
        .ok sampleRecord ∧
    ¬ Recorded sampleTest ((submit sampleCredentials sampleTest (some sampleOperator)).run
      (sampleSolo 257).answer (runGate sampleOps .migrated)) := by
  refine ⟨sample_claimed 257, ?_⟩
  rintro ⟨⟨o, row, ho, -⟩, -⟩
  have h : ((submit sampleCredentials sampleTest (some sampleOperator)).run (sampleSolo 257).answer
      (runGate sampleOps .migrated)).1 = .error (.gate "Invalid Retry-After evidence") := by
    decide +kernel
  rw [h] at ho
  cases ho

theorem outcome_recorded_sample :
    Recorded sampleTest ((submit sampleCredentials sampleTest (some sampleOperator)).run
      (sampleSolo 256).answer (runGate sampleOps .migrated)) :=
  (outcome_recorded sampleOps sampleCredentials sampleTest (some sampleOperator) (sampleSolo 256)
    sampleRecord (sample_claimed 256) (fun _ h => by cases h) (fun _ h => by cases h)).2
    fun _ _ => ⟨none, by decide +kernel, by decide +kernel, by
      rintro (h | h)
      · exact absurd h (by decide)
      · cases h⟩

end

end NyanShopBot.VietShare
