import NyanShopBot.VietShare.GateTransactions

/-!
# The gate invariant

`GateWrites` lists what one operation of the gate can write. `GateInvariant` is
what holds of the tables in every reachable state, and `Follows` what every
later state keeps of an earlier one. `gate_invariant` proves both for any
operations from the migrated gate.
-/

namespace NyanShopBot.VietShare

open Py Db

/-! ## What one operation writes -/

/-- The open attempts of a test: reserved, without an outcome. -/
def Tables.openAttempts (t : Tables) (testId : Str) : List AuthAttemptRow :=
  t.attempts.filter fun a => a.testId = testId && a.outcomeState = none

def Tables.reserve (t : Tables) (a : AuthAttemptRow) : Tables :=
  { t with attempts := t.attempts ++ [a] }

section

variable [Hashlib]

/-- What one operation can write. -/
inductive GateWrites (op : GateOp) (s : Store) (t' : Tables) : Prop where
  | nothing : t' = s.1 → GateWrites op s t'
  | prepared (intent : CappedTestIntent) (body : Bytes) : op = .prepare intent →
      intent.purchase.rawBody = .ok body → (∀ r ∈ s.1.journal, r.testId ≠ intent.testId) →
      t' = { s.1 with journal := s.1.journal ++ [.prepared intent body] } → GateWrites op s t'
  | claimed (row : JournalRow) (a : AuthAttemptRow) (operatorId : Option Str)
      (timestamp : Option Int) (nonce : Option Str) :
      op = .claim row.testId operatorId timestamp nonce → row ∈ s.1.journal →
      row.state = .prepared ∨ row.state = .reconciling → isFrozenCode row.lastErrorCode = false →
      a.testId = row.testId → a.outcomeState = none →
      t' = (s.1.reserve a).setJournal row.testId JournalRow.claimed → GateWrites op s t'
  | finished (row : JournalRow) (a : AuthAttemptRow) (c : Completion) (due : Option Int)
      (orderCode errorCode header : Option Str) : op = .finish row.testId a.nonce c →
      row ∈ s.1.journal → row.state = .dispatching → a ∈ s.1.attempts → a.testId = row.testId →
      a.outcomeState = none → c.state ≠ .dispatching →
      t' = ((s.1.setJournal row.testId (.finished c.state due orderCode errorCode)).setAttempt
        a.nonce (.completed c.httpStatus errorCode header c.state)).setControl
          s.1.control.disabled → GateWrites op s t'
  | reconciling (row : JournalRow) (operatorId : Option Str) :
      op = .markReconciling row.testId operatorId → row ∈ s.1.journal → row.state = .unknown →
      t' = s.1.setJournal row.testId JournalRow.reconciling → GateWrites op s t'
  | control (c : ControlRow) : op = .updateControl c → t' = s.1.setControl c → GateWrites op s t'

theorem Finishes.writes_tables {s s' : Store} {testId nonce : Str} {c : Completion} {now : Int}
    (h : Finishes s testId nonce c now s') : GateWrites (.finish testId nonce c) s s'.1 := by
  obtain ⟨row, hrow, hdisp⟩ := h.row
  obtain ⟨a, ha, htest, hopen⟩ := h.attempt
  obtain ⟨delay, header, oc, ec, stored, -, -, -, -, -, hs⟩ := h.writes
  have hid := Tables.testId_of_row? hrow
  have hnonce : a.nonce = nonce := key_of_lookup ha
  subst hid hnonce
  have hst : c.state ≠ .dispatching := by
    rcases h.state with e | e | e <;> rw [e] <;> decide
  exact .finished row a c _ oc ec stored rfl (Tables.mem_of_row? hrow) hdisp
    (mem_of_lookup ha) htest hopen hst hs

theorem Claims.writes_tables {s s' : Store} {testId : Str} {operatorId : Option Str}
    {timestamp : Option Int} {nonce : Option Str} {now : Int} {record : GateRecord}
    (h : Claims s testId operatorId timestamp nonce now record s') :
    GateWrites (.claim testId operatorId timestamp nonce) s s'.1 := by
  obtain ⟨row, hrow, rfl⟩ := h.row
  obtain ⟨canonical, hs⟩ := h.writes
  have hid := Tables.testId_of_row? hrow
  subst hid
  exact .claimed row _ operatorId timestamp nonce rfl (Tables.mem_of_row? hrow) h.state h.notFrozen
    rfl rfl hs

theorem exec_writes (now : Int) (op : GateOp) (s : Store) :
    GateWrites op s (op.exec now s).2.1 := by
  rcases Tx.commit_cases (op.body now) s with ⟨e, h⟩ | ⟨a, s', h, hbody⟩
  · rw [GateOp.exec, h]; exact .nothing rfl
  rw [GateOp.exec, h]
  cases op with
  | prepare intent =>
    obtain ⟨body, row, hb, -, -, -, rfl | ⟨hs, hnew⟩⟩ := prepare_ok hbody
    · exact .nothing rfl
    · exact .prepared intent body rfl hb hnew hs
  | claim testId operatorId timestamp nonce => exact (claim_ok hbody).writes_tables
  | finish testId nonce c => exact (finish_ok hbody).writes_tables
  | markReconciling testId operatorId =>
    obtain ⟨row, hrow, hst, hs⟩ := markReconciling_ok hbody
    have hid := Tables.testId_of_row? hrow
    subst hid
    exact .reconciling row operatorId rfl (Tables.mem_of_row? hrow) hst hs
  | updateControl c => exact .control c rfl (updateControl_ok hbody)
  | get testId => exact .nothing (by rw [(getRecord_ok hbody).1])
  | serverNowSeconds => exact .nothing (by rw [(Tx.pure_ok.1 hbody).2])

end

/-! ## The invariant -/

/-- What holds of the gate tables in every reachable state. -/
structure GateInvariant (t : Tables) : Prop where
  /-- At most one test is dispatching, unknown or reconciling. -/
  alone : t.unresolved.length ≤ 1
  /-- A test is dispatching iff it has exactly one open attempt. -/
  dispatching : ∀ r ∈ t.journal, r.state = .dispatching ↔ ∃ a, t.openAttempts r.testId = [a]
  /-- A test in any other state has none. -/
  settled : ∀ r ∈ t.journal, r.state ≠ .dispatching → t.openAttempts r.testId = []
  nonces : (t.attempts.map (·.nonce)).Nodup
  timestamps : (t.attempts.map fun a => (a.testId, a.timestamp)).Nodup

/-- The open attempts that a state asks for. -/
def Tables.OpenOk (t : Tables) : Prop :=
  ∀ r ∈ t.journal, (r.state = .dispatching → ∃ a, t.openAttempts r.testId = [a]) ∧
    (r.state ≠ .dispatching → t.openAttempts r.testId = [])

/-- A source has at most one unresolved row. -/
theorem unresolved_le_one (s : Store) : s.1.unresolved.length ≤ 1 := by
  have hsrc : ∀ r ∈ s.1.unresolved, r.source = str "vietshare" := fun r hr =>
    (s.2.2.1.2.2.2 r (List.mem_of_mem_filter hr)).1
  have hn : (s.1.unresolved.map (·.source)).Nodup := s.2.2.1.2.2.1
  match h : s.1.unresolved with
  | [] => simp
  | [r] => simp
  | a :: b :: rest =>
    rw [h] at hsrc hn
    have ha := hsrc a (by simp)
    have hb := hsrc b (by simp)
    simp [ha, hb] at hn

theorem Tables.OpenOk.invariant {s : Store} (h : s.1.OpenOk) : GateInvariant s.1 where
  alone := unresolved_le_one s
  dispatching r hr := by
    refine ⟨(h r hr).1, fun ⟨a, ha⟩ => ?_⟩
    by_contra hne
    rw [(h r hr).2 hne] at ha
    cases ha
  settled r hr := (h r hr).2
  nonces := s.2.2.2.1
  timestamps := s.2.2.2.2.1

/-- A test that has no row has no attempt. -/
theorem openAttempts_of_absent {s : Store} {testId : Str}
    (h : ∀ r ∈ s.1.journal, r.testId ≠ testId) : s.1.openAttempts testId = [] := by
  refine List.filter_eq_nil_iff.2 fun a ha hopen => ?_
  simp only [Bool.and_eq_true, decide_eq_true_eq] at hopen
  obtain ⟨r, hr, e⟩ := List.mem_map.1 (s.2.2.2.2.2.1 a ha)
  exact h r hr (e.trans hopen.1)

/-- With unique test ids the row of a test is the one that was looked up. -/
theorem journal_unique (s : Store) {r q : JournalRow} (hr : r ∈ s.1.journal)
    (hq : q ∈ s.1.journal) (h : r.testId = q.testId) : r = q :=
  List.inj_on_of_nodup_map s.2.2.1.1 hr hq h

theorem mem_setJournal {t : Tables} {testId : Str} {f : JournalRow → JournalRow} {r : JournalRow}
    (h : r ∈ (t.setJournal testId f).journal) :
    ∃ q ∈ t.journal, (q.testId = testId ∧ r = f q) ∨ (q.testId ≠ testId ∧ r = q) := by
  obtain ⟨q, hq, hr⟩ := mem_modify.1 h
  by_cases e : q.testId = testId
  · exact ⟨q, hq, .inl ⟨e, by rw [hr, if_pos e]⟩⟩
  · exact ⟨q, hq, .inr ⟨e, by rw [hr, if_neg e]⟩⟩

/-- The attempt that is completed is the only open one of its test. -/
theorem openAttempts_completed {s : Store} {a : AuthAttemptRow}
    (hone : s.1.openAttempts a.testId = [a]) (status : Option Int) (errorCode header : Option Str)
    (st : GateState) :
    (s.1.setAttempt a.nonce (.completed status errorCode header st)).openAttempts a.testId =
      [] := by
  refine List.filter_eq_nil_iff.2 fun b hb hopen => ?_
  obtain ⟨q, hq, hb⟩ := mem_modify.1 hb
  simp only [Bool.and_eq_true, decide_eq_true_eq] at hopen
  by_cases e : q.nonce = a.nonce
  · rw [hb, if_pos e] at hopen
    cases hopen.2
  · rw [if_neg e] at hb
    subst hb
    have hmem : b ∈ s.1.openAttempts a.testId := List.mem_filter.2 ⟨hq, by simpa using hopen⟩
    rw [hone, List.mem_singleton] at hmem
    exact e (by rw [hmem])

theorem openAttempts_other {s : Store} {a : AuthAttemptRow} (ha : a ∈ s.1.attempts) {testId : Str}
    (hne : testId ≠ a.testId) (status : Option Int) (errorCode header : Option Str)
    (st : GateState) :
    (s.1.setAttempt a.nonce (.completed status errorCode header st)).openAttempts testId =
      s.1.openAttempts testId := by
  have hnonce {q : AuthAttemptRow} (hq : q ∈ s.1.attempts) (e : q.nonce = a.nonce) : q = a :=
    List.inj_on_of_nodup_map s.2.2.2.1 hq ha e
  have hfilter : (s.1.setAttempt a.nonce (.completed status errorCode header st)).openAttempts
      testId = modify AuthAttemptRow.nonce (s.1.openAttempts testId) a.nonce
        (.completed status errorCode header st) := by
    refine filter_modify fun q hq e => ?_
    obtain rfl := hnonce hq e
    simp [AuthAttemptRow.completed, Ne.symm hne]
  rw [hfilter]
  refine modify_of_absent fun q hq e => ?_
  obtain ⟨hmem, hopen⟩ := List.mem_filter.1 hq
  obtain rfl := hnonce hmem e
  simp only [Bool.and_eq_true, decide_eq_true_eq] at hopen
  exact hne hopen.1.symm

/-- **Every operation keeps the open attempts in order.** -/
theorem GateWrites.openOk [Hashlib] {op : GateOp} {s : Store} {t' : Tables} (h : GateWrites op s t')
    (hok : s.1.OpenOk) :
    t'.OpenOk := by
  cases h with
  | nothing ht => rw [ht]; exact hok
  | prepared intent body _ _ hnew ht =>
    subst ht
    intro r hr
    rcases List.mem_append.1 hr with hr | hr
    · exact hok r hr
    · obtain rfl : r = _ := List.mem_singleton.1 hr
      exact ⟨nofun, fun _ => openAttempts_of_absent (s := s) hnew⟩
  | claimed row a _ _ _ _ hrow hst _ htest hopen ht =>
    subst ht
    intro r hr
    have happ (testId : Str) :
        ((s.1.reserve a).setJournal row.testId JournalRow.claimed).openAttempts
        testId = s.1.openAttempts testId ++ (if row.testId = testId then [a] else []) := by
      show List.filter _ (s.1.attempts ++ [a]) = _
      rw [List.filter_append]
      by_cases e : row.testId = testId <;> simp [Tables.openAttempts, htest, hopen, e]
    obtain ⟨q, hq, ⟨e, rfl⟩ | ⟨e, rfl⟩⟩ := mem_setJournal hr
    · obtain rfl := journal_unique s hq hrow e
      have hnone : s.1.openAttempts q.testId = [] := (hok q hq).2 fun h => by
        rcases hst with h' | h' <;> rw [h] at h' <;> cases h'
      refine ⟨fun _ => ⟨a, ?_⟩, fun hne => absurd rfl hne⟩
      show Tables.openAttempts _ q.testId = [a]
      rw [happ, hnone, if_pos rfl, List.nil_append]
    · have := hok r hq
      rwa [happ, if_neg (Ne.symm e), List.append_nil]
  | finished row a c due orderCode errorCode header _ hrow hdisp ha htest hopen hne ht =>
    subst ht
    intro r hr
    have hone : s.1.openAttempts a.testId = [a] := by
      obtain ⟨b, hb⟩ := (hok row hrow).1 hdisp
      have hmem : a ∈ s.1.openAttempts row.testId := List.mem_filter.2 ⟨ha, by simp [htest, hopen]⟩
      rw [hb, List.mem_singleton] at hmem
      rw [htest, hb, hmem]
    obtain ⟨q, hq, ⟨e, rfl⟩ | ⟨e, rfl⟩⟩ := mem_setJournal (t := s.1) hr
    · refine ⟨fun e' => absurd e' hne, fun _ => ?_⟩
      have := openAttempts_completed hone c.httpStatus errorCode header c.state
      rw [htest, ← e] at this
      exact this
    · have := openAttempts_other ha (htest ▸ e) c.httpStatus errorCode header c.state
      have hr := hok r hq
      rwa [← this] at hr
  | reconciling row _ _ hrow hst ht =>
    subst ht
    intro r hr
    obtain ⟨q, hq, ⟨e, rfl⟩ | ⟨e, rfl⟩⟩ := mem_setJournal hr
    · obtain rfl := journal_unique s hq hrow e
      refine ⟨nofun, fun _ => (hok q hq).2 fun h => ?_⟩
      rw [hst] at h
      cases h
    · exact hok r hq
  | control c _ ht => subst ht; exact hok

/-! ## What later states keep -/

/-- What a later state keeps of an earlier one. -/
structure Follows (t t' : Tables) : Prop where
  /-- A test keeps its key, its body and its commercial fields. -/
  identity : ∀ r ∈ t.journal, ∃ r' ∈ t'.journal, r'.identity = r.identity
  /-- A test that has succeeded never changes again. -/
  succeeded : ∀ r ∈ t.journal, r.state = .succeeded → r ∈ t'.journal
  /-- A frozen test keeps its code and is not dispatched. -/
  frozen : ∀ r ∈ t.journal, isFrozenCode r.lastErrorCode = true → r.state ≠ .dispatching →
    ∃ r' ∈ t'.journal, r'.testId = r.testId ∧ r'.lastErrorCode = r.lastErrorCode ∧
      r'.state ≠ .dispatching

theorem Follows.refl (t : Tables) : Follows t t :=
  ⟨fun r hr => ⟨r, hr, rfl⟩, fun _ hr _ => hr, fun r hr _ hne => ⟨r, hr, rfl, rfl, hne⟩⟩

theorem Follows.trans {t₁ t₂ t₃ : Tables} (h : Follows t₁ t₂) (h' : Follows t₂ t₃) :
    Follows t₁ t₃ where
  identity r hr := by
    obtain ⟨r', hr', e⟩ := h.identity r hr
    obtain ⟨r'', hr'', e'⟩ := h'.identity r' hr'
    exact ⟨r'', hr'', e'.trans e⟩
  succeeded r hr hst := h'.succeeded r (h.succeeded r hr hst) hst
  frozen r hr hf hne := by
    obtain ⟨r', hr', e, ec, hne'⟩ := h.frozen r hr hf hne
    obtain ⟨r'', hr'', e', ec', hne''⟩ := h'.frozen r' hr' (ec ▸ hf) hne'
    exact ⟨r'', hr'', e'.trans e, ec'.trans ec, hne''⟩

/-- An update of one test that keeps its identity, away from the states that are final. -/
theorem Follows.setJournal {s : Store} {row : JournalRow} {f : JournalRow → JournalRow}
    (hrow : row ∈ s.1.journal) (hid : (f row).identity = row.identity)
    (hst : row.state ≠ .succeeded)
    (hfr : isFrozenCode row.lastErrorCode = true → row.state ≠ .dispatching →
      (f row).lastErrorCode = row.lastErrorCode ∧ (f row).state ≠ .dispatching) {t' : Tables}
    (ht : t'.journal = (s.1.setJournal row.testId f).journal) : Follows s.1 t' := by
  have hmem {r : JournalRow} (hr : r ∈ s.1.journal) :
      (r = row ∧ f row ∈ t'.journal) ∨ (r.testId ≠ row.testId ∧ r ∈ t'.journal) := by
    rw [ht]
    by_cases e : r.testId = row.testId
    · obtain rfl := journal_unique s hr hrow e
      exact .inl ⟨rfl, mem_modify.2 ⟨r, hr, by rw [if_pos rfl]⟩⟩
    · exact .inr ⟨e, mem_modify.2 ⟨r, hr, by rw [if_neg e]⟩⟩
  refine ⟨fun r hr => ?_, fun r hr h => ?_, fun r hr h hne => ?_⟩
  · rcases hmem hr with ⟨rfl, hr'⟩ | ⟨-, hr'⟩
    · exact ⟨_, hr', hid⟩
    · exact ⟨_, hr', rfl⟩
  · rcases hmem hr with ⟨rfl, -⟩ | ⟨-, hr'⟩
    · exact absurd h hst
    · exact hr'
  · rcases hmem hr with ⟨rfl, hr'⟩ | ⟨-, hr'⟩
    · exact ⟨_, hr', congrArg WriteIdentity.testId hid, (hfr h hne).1, (hfr h hne).2⟩
    · exact ⟨r, hr', rfl, rfl, hne⟩

theorem GateWrites.follows [Hashlib] {op : GateOp} {s : Store} {t' : Tables}
    (h : GateWrites op s t') : Follows s.1 t' := by
  cases h with
  | nothing ht => rw [ht]; exact .refl _
  | prepared intent body _ _ hnew ht =>
    have hmem {r : JournalRow} (hr : r ∈ s.1.journal) : r ∈ t'.journal := by
      rw [ht]; exact List.mem_append_left _ hr
    exact ⟨fun r hr => ⟨r, hmem hr, rfl⟩, fun r hr _ => hmem hr,
      fun r hr _ hne => ⟨r, hmem hr, rfl, rfl, hne⟩⟩
  | claimed row a _ _ _ _ hrow hst hfr htest hopen ht =>
    refine .setJournal hrow rfl (fun e => ?_) (fun h => ?_) (by rw [ht]; rfl)
    · rcases hst with h | h <;> rw [e] at h <;> cases h
    · rw [hfr] at h
      cases h
  | finished row a c due orderCode errorCode header _ hrow hdisp ha htest hopen hne ht =>
    refine .setJournal hrow (f := .finished c.state due orderCode errorCode) rfl (fun e => ?_)
      (fun _ hne' => absurd hdisp hne') (by rw [ht]; rfl)
    rw [hdisp] at e
    cases e
  | reconciling row _ _ hrow hst ht =>
    refine .setJournal hrow rfl (fun e => ?_) (fun _ _ => ⟨rfl, ?_⟩) (by rw [ht])
    · rw [hst] at e
      cases e
    · show GateState.reconciling ≠ .dispatching
      decide
  | control c _ ht =>
    have hj : t'.journal = s.1.journal := by rw [ht]; rfl
    exact ⟨fun r hr => ⟨r, hj ▸ hr, rfl⟩, fun r hr _ => hj ▸ hr,
      fun r hr _ hne => ⟨r, hj ▸ hr, rfl, rfl, hne⟩⟩

/-! ## Runs -/

section

variable [Hashlib]

/-- The store after a sequence of operations, each at its clock reading. -/
def runGate (ops : List (GateOp × Int)) (s : Store) : Store :=
  ops.foldl (fun s op => (op.1.exec op.2 s).2) s

theorem runGate_openOk (ops : List (GateOp × Int)) {s : Store} (h : s.1.OpenOk) :
    (runGate ops s).1.OpenOk := by
  induction ops generalizing s with
  | nil => exact h
  | cons op ops ih => exact ih ((exec_writes op.2 op.1 s).openOk h)

theorem runGate_follows (ops : List (GateOp × Int)) (s : Store) :
    Follows s.1 (runGate ops s).1 := by
  induction ops generalizing s with
  | nil => exact .refl _
  | cons op ops ih => exact (exec_writes op.2 op.1 s).follows.trans (ih _)

/-- A test with a frozen code is not dispatching. -/
theorem runGate_frozen (ops : List (GateOp × Int)) {s : Store}
    (h : ∀ r ∈ s.1.journal, isFrozenCode r.lastErrorCode = true → r.state ≠ .dispatching) :
    ∀ r ∈ (runGate ops s).1.journal, isFrozenCode r.lastErrorCode = true →
      r.state ≠ .dispatching := by
  induction ops generalizing s with
  | nil => exact h
  | cons op ops ih =>
    refine ih fun r hr hf => ?_
    cases exec_writes op.2 op.1 s with
    | nothing ht => rw [ht] at hr; exact h r hr hf
    | prepared intent body _ _ hnew ht =>
      rw [ht] at hr
      rcases List.mem_append.1 hr with hr | hr
      · exact h r hr hf
      · obtain rfl : r = _ := List.mem_singleton.1 hr
        exact nofun
    | claimed row a _ _ _ _ hrow hst hfr htest hopen ht =>
      rw [ht] at hr
      obtain ⟨q, hq, ⟨e, rfl⟩ | ⟨e, rfl⟩⟩ := mem_setJournal hr
      · obtain rfl := journal_unique s hq hrow e
        exact absurd hf
          (by rw [show q.claimed.lastErrorCode = q.lastErrorCode from rfl, hfr]; decide)
      · exact h r hq hf
    | finished row a c due orderCode errorCode header _ hrow hdisp ha htest hopen hne ht =>
      rw [ht] at hr
      obtain ⟨q, hq, ⟨e, rfl⟩ | ⟨e, rfl⟩⟩ := mem_setJournal (t := s.1) hr
      · exact hne
      · exact h r hq hf
    | reconciling row _ _ hrow hst ht =>
      rw [ht] at hr
      obtain ⟨q, hq, ⟨e, rfl⟩ | ⟨e, rfl⟩⟩ := mem_setJournal hr
      · show GateState.reconciling ≠ .dispatching
        decide
      · exact h r hq hf
    | control c _ ht => rw [ht] at hr; exact h r hr hf

/-- **The gate invariant**: after any operations on the migrated gate, at any
clock readings, the invariant holds; whatever comes later keeps what must be
kept and claims no frozen test; an operation that raises changes nothing. -/
theorem gate_invariant (ops : List (GateOp × Int)) :
    GateInvariant (runGate ops .migrated).1 ∧
      (∀ later : List (GateOp × Int),
        Follows (runGate ops .migrated).1 (runGate (ops ++ later) .migrated).1) ∧
      (∀ r ∈ (runGate ops .migrated).1.journal, isFrozenCode r.lastErrorCode = true →
        ∀ (later : List (GateOp × Int)) (now : Int) (operatorId : Option Str)
          (timestamp : Option Int) (nonce : Option Str), ∃ e,
          ((GateOp.claim r.testId operatorId timestamp nonce).exec now
            (runGate (ops ++ later) .migrated)).1 = .error e) ∧
      ∀ (op : GateOp) (now : Int) (e : Exc),
        (op.exec now (runGate ops .migrated)).1 = .error e →
        (op.exec now (runGate ops .migrated)).2 = runGate ops .migrated := by
  have hopen : (runGate ops .migrated).1.OpenOk := runGate_openOk ops fun r hr => by cases hr
  have hlater (later : List (GateOp × Int)) : runGate (ops ++ later) .migrated =
      runGate later (runGate ops .migrated) := List.foldl_append
  refine ⟨hopen.invariant, fun later => ?_, fun r hr hf later now operatorId timestamp nonce => ?_,
    fun op now e h => Tx.commit_error h⟩
  · rw [hlater]
    exact runGate_follows later _
  · have hne := runGate_frozen ops (s := .migrated) (fun r hr => by cases hr) r hr hf
    rw [hlater]
    obtain ⟨r', hr', htest, hcode, -⟩ := (runGate_follows later _).frozen r hr hf hne
    rcases Tx.commit_cases ((GateOp.claim r.testId operatorId timestamp nonce).body now)
      (runGate later (runGate ops .migrated)) with ⟨e, h⟩ | ⟨record, s', h, hbody⟩
    · exact ⟨e, by rw [GateOp.exec, h]⟩
    · have hc := claim_ok hbody
      obtain ⟨row, hrow, rfl⟩ := hc.row
      obtain rfl := journal_unique _ (Tables.mem_of_row? hrow) hr'
        ((Tables.testId_of_row? hrow).trans htest.symm)
      have := hc.notFrozen
      rw [show isFrozenCode row.lastErrorCode = true from hcode ▸ hf] at this
      cases this

end

end NyanShopBot.VietShare
