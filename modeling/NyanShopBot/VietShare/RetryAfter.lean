import NyanShopBot.VietShare.GateRuns
import NyanShopBot.VietShare.JournalWaits

/-!
# Retry-After

`GateWaits` is what holds of the gate after a submit has recorded a response that
asks to wait: no claim of the test commits before the deadline, and until one has
committed nothing but the deadline changed. `retry_after_waits` puts it together
with the journal of the offline adapter.
-/

namespace NyanShopBot.VietShare

open Py Db Conc

/-- Whole seconds are whole microseconds. -/
theorem interval_whole {n : Int} (h : n.natAbs ≤ 1000000000) :
    interval (n : ℚ) = 1000000 * n := by
  have hcast : (1000000 : ℚ) * (n : ℚ) = ((1000000 * n : Int) : ℚ) := by push_cast; rfl
  unfold interval
  rw [hcast, PyFloat.ofRat_intCast (by omega)]
  exact PyFloat.roundHalfEven_intCast _

def waitMessage : String := "Retry-After has not elapsed"

/-- What a request is encoded for raises no such message. -/
theorem encode_error {text : Str} {e : Exc} (h : encode text = .error e) :
    e ≠ .gate waitMessage := by
  unfold encode at h
  split at h <;> cases h
  exact nofun

theorem expectedBody_error {record : GateRecord} {e : Exc} (h : record.expectedBody = .error e) :
    e ≠ .gate waitMessage := by
  unfold GateRecord.expectedBody at h
  rcases except_bind_error.1 h with h | ⟨purchase, -, h⟩
  · unfold OrderPurchase.make at h
    split at h
    · cases h
    · cases h; exact nofun
  · exact encode_error h

section

variable [Hashlib]

theorem checkClaim_raises {operatorId : Option Str} {now : Int} {record : GateRecord}
    (hdue : record.retryNotBefore.all (· ≤ now) = true) :
    (checkClaim operatorId now record).Raises (· ≠ .gate waitMessage) := by
  unfold checkClaim
  refine Tx.raises_query.bind fun t => ?_
  refine (Tx.raises_ensure fun _ => by decide).bind fun _ => ?_
  refine (Tx.raises_ensure fun _ => by decide).bind fun _ => ?_
  refine (Tx.raises_ensure fun _ => by decide).bind fun _ => ?_
  refine (Tx.raises_ensure fun _ => by decide).bind fun _ => ?_
  refine (Tx.raises_ofExcept fun e => expectedBody_error).bind fun body => ?_
  refine (Tx.raises_ensure fun _ => by decide).bind fun _ => ?_
  refine (Tx.raises_ensure fun h => absurd hdue h).bind fun _ => ?_
  exact Tx.raises_ensure fun _ => by decide

/-- **A claim is refused for its deadline only before it.** -/
theorem claim_refused {s : Store} {testId : Str} {operatorId nonce : Option Str}
    {timestamp : Option Int} {now : Int} {row : JournalRow} (hrow : s.1.row? testId = some row)
    (hdue : row.retryNotBefore.all (· ≤ now) = true) :
    claim testId operatorId timestamp nonce now s ≠ .error (.gate waitMessage) := by
  intro h
  unfold claim at h
  rcases Tx.ensure_bind_error.1 h with ⟨-, he⟩ | ⟨-, h⟩
  · exact absurd he (by decide)
  rcases Tx.ensure_bind_error.1 h with ⟨-, he⟩ | ⟨-, h⟩
  · cases he
  rw [Tx.query_bind, Tx.getOrThrow_bind hrow] at h
  have hreserve : (reserveAttempt testId (timestamp.getD 0) (nonce.getD []) row.bodySha256).Raises
      (· ≠ .gate waitMessage) := by
    unfold reserveAttempt
    refine (Tx.raises_ofExcept fun e => encode_error).bind fun canonical => ?_
    exact (Tx.raises_ensure fun _ => nofun).bind fun _ => Schema.raises_execute (by decide)
  exact ((checkClaim_raises hdue).bind fun _ => hreserve.bind fun _ =>
    (Schema.raises_execute nofun).bind fun _ => Tx.raises_pure) _ _ h rfl

/-! ## Waiting in the gate -/

/-- A reconciling row with a deadline stays, or is claimed after it. -/
theorem exec_waits {s : Store} {testId : Str} {row : JournalRow} {due now : Int} (op : GateOp)
    (hrow : s.1.row? testId = some row) (hst : row.state = .reconciling)
    (hd : row.retryNotBefore = some due) :
    (op.exec now s).2.1.row? testId = some row ∨
      ∃ operatorId timestamp nonce record, op = .claim testId operatorId timestamp nonce ∧
        claim testId operatorId timestamp nonce now s = .ok (record, (op.exec now s).2) ∧
        due ≤ now := by
  have hid : row.testId = testId := Tables.testId_of_row? hrow
  have hother {q : JournalRow} (hq : q ∈ s.1.journal) (hne : q.state ≠ .reconciling) :
      testId ≠ q.testId := fun e => by
    have hlook : s.1.row? q.testId = some q :=
      lookup_of_mem (fun r : JournalRow => r.testId) s.2.2.1.1 hq
    obtain rfl : row = q := Option.some.inj (hrow.symm.trans (e ▸ hlook))
    exact hne hst
  rcases Tx.commit_cases (op.body now) s with ⟨e, he⟩ | ⟨record, s', he, hb⟩
  · exact .inl (by rw [GateOp.exec, he]; exact hrow)
  have hw : GateWrites op s s'.1 := by
    have := exec_writes now op s
    rwa [GateOp.exec, he] at this
  rw [GateOp.exec, he]
  cases hw with
  | nothing ht => exact .inl (ht ▸ hrow)
  | prepared intent body _ _ hnew ht =>
    refine .inl ?_
    show s'.1.row? testId = some row
    rw [ht]
    show lookup (fun r : JournalRow => r.testId) (s.1.journal ++ _) testId = some row
    rw [lookup_append, show lookup (fun r : JournalRow => r.testId) s.1.journal testId = some row
      from hrow]
    rfl
  | claimed q a operatorId timestamp nonce hop hq _ _ _ _ ht =>
    by_cases e : testId = q.testId
    · subst hop e
      have hc := claim_ok hb
      obtain ⟨row', hrow', rfl⟩ := hc.row
      obtain rfl := Option.some.inj (hrow.symm.trans hrow')
      have hdue := hc.due
      rw [hd] at hdue
      exact .inr ⟨operatorId, timestamp, nonce, _, rfl, hb, by simpa using hdue⟩
    · refine .inl ?_
      show s'.1.row? testId = some row
      rw [ht]
      exact (row?_setJournal_other (f := .claimed) e fun _ => rfl).trans hrow
  | finished q a c due orderCode errorCode header _ hq hdisp _ _ _ _ ht =>
    have hne := hother hq (by simp [hdisp])
    refine .inl ?_
    show s'.1.row? testId = some row
    rw [ht]
    exact (row?_setJournal_other (f := .finished _ _ _ _) hne fun _ => rfl).trans hrow
  | reconciling q operatorId _ hq hunk ht =>
    have hne := hother hq (by simp [hunk])
    refine .inl ?_
    show s'.1.row? testId = some row
    rw [ht]
    exact (row?_setJournal_other (f := .reconciling) hne fun _ => rfl).trans hrow
  | control c _ ht =>
    refine .inl ?_
    show s'.1.row? testId = some row
    rw [ht]
    exact hrow

variable [Stdlib]
variable {s₀ : GateDb} {tr l m : List GateTrans} {cfg : Cfg gateSystem} {testId : Str} {due : Int}

/-- A claim of the test has committed after `due`. -/
def ClaimedAfter (testId : Str) (due : Int) (m : List GateTrans) : Prop :=
  ∃ t ∈ m, ∃ pid operatorId timestamp nonce r record,
    t.event = .act pid (.gate (.claim testId operatorId timestamp nonce)) r ∧
    claim testId operatorId timestamp nonce t.post.clock t.pre.tables =
      .ok (record, t.post.tables) ∧ due ≤ t.post.clock

theorem gateRow_waits (h : Run gateSystem s₀ (l ++ m) cfg) {row : JournalRow}
    (hrow : (finalStore s₀ l).tables.1.row? testId = some row) (hst : row.state = .reconciling)
    (hd : row.retryNotBefore = some due) :
    cfg.store.tables.1.row? testId = some row ∨ ClaimedAfter testId due m := by
  have hgrow {m : List GateTrans} {t : GateTrans} (h : ClaimedAfter testId due m) :
      ClaimedAfter testId due (m ++ [t]) := by
    obtain ⟨u, hu, hc⟩ := h
    exact ⟨u, List.mem_append_left _ hu, hc⟩
  refine Run.invariant_from (P := gateProtocol) (Q := fun _ _ _ => True) (i := GatePhase.start)
    (J := fun m (s : GateDb) => s.tables.1.row? testId = some row ∨ ClaimedAfter testId due m)
    GateCall.follows (.inl hrow) (fun _ _ hi => hi.imp_right hgrow)
    (fun hi => hi.imp_right hgrow) ?_ h
  intro m cfg pid op r s' g _ hi _ _ he
  rcases hi with hkeep | hc
  · rcases gate_effect he with hs | ⟨gop, rfl, hs⟩
    · exact .inl (hs ▸ hkeep)
    · rcases @exec_waits _ _ _ _ _ s'.clock gop hkeep hst hd with hkeep' |
        ⟨operatorId, timestamp, nonce, record, rfl, hclaim, hdue⟩
      · exact .inl (hs ▸ hkeep')
      · exact .inr ⟨_, List.mem_append_right _ List.mem_cons_self, pid, operatorId, timestamp,
          nonce, r, record, rfl, hs ▸ hclaim, hdue⟩
  · exact .inr (hgrow hc)

abbrev GateForward (tr : List GateTrans) : Prop := Forward GateDb.clock tr

theorem ClaimedAfter.reached (hc : ClaimedAfter testId due m)
    (h : Run gateSystem s₀ (l ++ m) cfg) (hf : GateForward m) : due ≤ cfg.store.clock := by
  obtain ⟨t, ht, pid, operatorId, timestamp, nonce, r, record, -, -, hdue⟩ := hc
  obtain ⟨a, b, rfl⟩ := List.append_of_mem ht
  rw [show l ++ (a ++ t :: b) = (l ++ (a ++ [t])) ++ b by simp] at h
  rw [show a ++ t :: b = (a ++ [t]) ++ b by simp] at hf
  have hle := h.clock_le hf.right
  rw [← List.append_assoc, finalStore_snoc] at hle
  exact hdue.trans hle

/-- **Waiting**: what holds after a response asked to wait until `due`. -/
structure GateWaits (m : List GateTrans) (cfg : Cfg gateSystem) (testId : Str) (due : Int) :
    Prop where
  /-- No claim of the test commits before the deadline. -/
  claims : ∀ {t pid operatorId timestamp nonce record}, t ∈ m →
    t.event = .act pid (.gate (.claim testId operatorId timestamp nonce)) (.ok record) →
      due ≤ t.post.clock
  /-- Until one has committed, none is refused for the deadline from then on. -/
  opens : (∀ operatorId timestamp nonce now, due ≤ now →
      claim testId operatorId timestamp nonce now cfg.store.tables ≠ .error (.gate waitMessage)) ∨
    ClaimedAfter testId due m

theorem gateWaits (h : Run gateSystem s₀ (l ++ m) cfg) (hf : GateForward m) {row : JournalRow}
    (hrow : (finalStore s₀ l).tables.1.row? testId = some row) (hst : row.state = .reconciling)
    (hd : row.retryNotBefore = some due) : GateWaits m cfg testId due := by
  refine ⟨fun {t pid operatorId timestamp nonce record} ht he => ?_, ?_⟩
  · obtain ⟨a, b, rfl⟩ := List.append_of_mem ht
    rw [← List.append_assoc] at h
    obtain ⟨cfg₀, g, hr₀, hpre, -, -, -, heff⟩ := act_gatePhase h rfl he
    rcases gateRow_waits hr₀ hrow hst hd with hkeep | hc
    · have hc := claim_ok (gate_answer heff)
      obtain ⟨row', hrow', rfl⟩ := hc.row
      obtain rfl := Option.some.inj ((hpre ▸ hkeep).symm.trans hrow')
      have hdue := hc.due
      rw [hd] at hdue
      simpa using hdue
    · have hle := hc.reached hr₀ hf.left
      rw [hpre] at hle
      exact hle.trans (hf t (List.mem_append_right _ List.mem_cons_self))
  · refine (gateRow_waits h hrow hst hd).imp_left fun hkeep operatorId timestamp nonce now hn => ?_
    refine claim_refused hkeep ?_
    rw [hd]
    simpa using hn

omit [Stdlib] in
/-- The row that a completed dispatch leaves. -/
theorem gateFinish_effect {s s' : GateDb} {nonce : Str} {c : Completion}
    (h : GateEffect s (.gate (.finish testId nonce c)) (.ok ()) s') :
    ∃ row delay, delaySeconds c.retryDelaySeconds = .ok delay ∧
      s'.tables.1.row? testId = some row ∧ row.state = c.state ∧
      row.retryNotBefore = delay.map fun d => s'.clock + interval d := by
  have hf := finish_ok (gate_answer h)
  obtain ⟨row, hrow, -⟩ := hf.row
  obtain ⟨delay, header, oc, ec, stored, hdelay, -, -, -, -, hs⟩ := hf.writes
  refine ⟨row.finished c.state (delay.map fun d => s'.clock + interval d) oc ec, delay, hdelay, ?_,
    rfl, rfl⟩
  rw [hs]
  exact (row?_setJournal_self (f := .finished _ _ _ _) fun _ => rfl).trans (by rw [hrow]; rfl)

omit [Stdlib] [Hashlib] in
/-- The delay of a `float` that is accepted. -/
theorem delaySeconds_float {x : PyFloat} {delay : Option ℚ}
    (h : delaySeconds (some (some (.float x))) = .ok delay) :
    ∃ q, x = .finite q ∧ delay = some q := by
  cases x with
  | finite q =>
    replace h : (if 0 ≤ q ∧ q ≤ 1000000000 then _ else _) = Except.ok delay := h
    split at h
    · cases h; exact ⟨q, rfl, rfl⟩
    · cases h
  | inf => cases h
  | negInf => cases h
  | nan => cases h

/-- **Retry-After in the gate**: a submit that has recorded a response that asks to wait
has stored its delay, counted from the time of the record, and it is waited for. -/
theorem gate_waits {u t : GateTrans} {l₁ l₂ : List GateTrans} {pid : Nat} {r : VietShareRequest}
    {response : VietShareResponse} {code : Option Str} {nonce : Str} {c : Completion}
    (h : Run gateSystem s₀ (((l₁ ++ u :: l₂) ++ [t]) ++ m) cfg)
    (hf : GateForward (((l₁ ++ u :: l₂) ++ [t]) ++ m))
    (hu : u.event = .act pid (.send r) (.ok (.response response)))
    (hcode : errorCode response.body = .ok code)
    (hwait : response.statusCode = 202 ∨ code = some (str "REQUEST_IN_PROGRESS"))
    (ht : t.event = .act pid (.gate (.finish testId nonce c)) (.ok ())) :
    ∃ v ∈ l₂, ∃ q, v.event = .act pid (.gate .serverNowSeconds)
        (.ok (PyFloat.ofRat (v.post.clock / 1000000))) ∧ v.post.clock ≤ t.post.clock ∧
      delayOf (retryAfter response.headers
        (.float (PyFloat.ofRat (v.post.clock / 1000000)))) = .finite q ∧
      GateWaits m cfg testId (t.post.clock + interval q) := by
  obtain ⟨cfg₀, g, hr₀, hpre, -, hg, hok, heff⟩ := act_gatePhase h (List.append_assoc ..) ht
  obtain ⟨hreply, credentials, testId', operatorId, hc⟩ := gateReply_after hr₀ hu hg
  obtain ⟨-, -, record, -, hdone⟩ := (ok_submit hc).1 hok
  cases hdone with
  | lost code hno => exact absurd hreply (hno response)
  | @read response' code' receivedAt c outcome hreply' hcode' hreceived hcl =>
    rw [hreply] at hreply'
    cases hreply'
    obtain rfl : code = code' := Except.ok.inj (hcode.symm.trans hcode')
    obtain ⟨v, hv, hread, rfl⟩ := received_read hr₀ hu hg hreceived
    unfold classify at hcl
    rw [if_pos hwait] at hcl
    cases hcl
    obtain ⟨row, delay, hdelay, hrow, hst, hd⟩ := gateFinish_effect heff
    obtain ⟨q, hq, rfl⟩ := delaySeconds_float hdelay
    have hlook : (finalStore (A := gateSystem) s₀ ((l₁ ++ u :: l₂) ++ [t])).tables.1.row? testId =
        some row := by
      rw [finalStore_snoc]
      exact hrow
    refine ⟨v, hv, q, hread, ?_, hq, gateWaits h hf.right hlook hst hd⟩
    · -- the clock from the reading to the record
      obtain ⟨a, b, rfl⟩ := List.append_of_mem hv
      rw [show l₁ ++ u :: (a ++ v :: b) = (l₁ ++ u :: (a ++ [v])) ++ b by simp] at hr₀ hf
      have hle := hr₀.clock_le hf.left.left.right
      rw [show l₁ ++ u :: (a ++ [v]) = (l₁ ++ u :: a) ++ [v] by simp, finalStore_snoc, hpre] at hle
      exact hle.trans (hf t (by simp))

/-- **Retry-After is waited for** on both paths: on the journal until the time of the
response and its delay, unless that is zero, on the gate until the time of the record and
the delay. Whole seconds are added without rounding. -/
theorem retry_after_waits :
    (∀ {s₀ : Offline.JournalDb} {l₁ l₂ m : List Offline.AdapterTrans} {u t : Offline.AdapterTrans}
        {cfg : Cfg Offline.adapterSystem} {pid : Nat} {id : Str} {r : VietShareRequest}
        {response : VietShareResponse} {code orderCode : Option Str} {state : Offline.JournalState}
        {stored : Option PyFloat},
      Run Offline.adapterSystem s₀ (((l₁ ++ u :: l₂) ++ [t]) ++ m) cfg →
      Offline.ClockForward (((l₁ ++ u :: l₂) ++ [t]) ++ m) →
      u.event = .act pid (.send id r) (.ok response) → errorCode response.body = .ok code →
      Offline.asksToWait response.statusCode code = true →
      t.event = .act pid (.journal (.finishAttempt id state orderCode stored)) (.ok ()) →
      ∃ receivedAt, (∃ v ∈ l₂, v.event = .act pid .clock (.ok receivedAt)) ∧
        receivedAt ≤ t.pre.clock ∧
        (retryAfter response.headers (.int receivedAt) ≠ some (.finite 0) → ∃ d, stored = some d ∧
          Offline.dueAt receivedAt (delayOf (retryAfter response.headers (.int receivedAt))) =
            some d ∧
          Offline.Waits s₀ ((l₁ ++ u :: l₂) ++ [t]) m cfg id d)) ∧
    (∀ receivedAt n : Int, receivedAt.natAbs < 9007199254740992 →
      (receivedAt + n).natAbs < 9007199254740992 →
      Offline.dueAt receivedAt (.finite n) = some (.finite ((receivedAt + n : Int) : ℚ))) ∧
    (∀ {s₀ : GateDb} {l₁ l₂ m : List GateTrans} {u t : GateTrans} {cfg : Cfg gateSystem}
        {pid : Nat} {r : VietShareRequest} {response : VietShareResponse} {code : Option Str}
        {testId nonce : Str} {c : Completion},
      Run gateSystem s₀ (((l₁ ++ u :: l₂) ++ [t]) ++ m) cfg →
      GateForward (((l₁ ++ u :: l₂) ++ [t]) ++ m) →
      u.event = .act pid (.send r) (.ok (.response response)) →
      errorCode response.body = .ok code →
      response.statusCode = 202 ∨ code = some (str "REQUEST_IN_PROGRESS") →
      t.event = .act pid (.gate (.finish testId nonce c)) (.ok ()) →
      ∃ v ∈ l₂, ∃ q, v.event = .act pid (.gate .serverNowSeconds)
          (.ok (PyFloat.ofRat (v.post.clock / 1000000))) ∧ v.post.clock ≤ t.post.clock ∧
        delayOf (retryAfter response.headers
          (.float (PyFloat.ofRat (v.post.clock / 1000000)))) = .finite q ∧
        GateWaits m cfg testId (t.post.clock + interval q)) ∧
    ∀ n : Int, n.natAbs ≤ 1000000000 → interval (n : ℚ) = 1000000 * n :=
  ⟨fun h hf hu hcode hwait ht => Offline.retry_waits h hf hu hcode hwait ht,
    fun _ _ ht hsum => Offline.dueAt_whole ht hsum,
    fun h hf hu hcode hwait ht => gate_waits h hf hu hcode hwait ht,
    fun _ h => interval_whole h⟩

end

/-! ## Sample runs -/

section

attribute [local instance] Offline.retryDigests sampleStdlib

/-- What a run shows of a response that asks to wait. -/
inductive GateView where
  | replied (pid : Nat) (response : VietShareResponse)
  | read (clock : Int)
  | finished (pid : Nat) (testId : Str) (clock : Int)
  | claimed (testId : Str) (clock : Int)
  | refused (testId : Str) (message : String) (clock : Int)
  | other
deriving DecidableEq

def gateView (t : GateTrans) : GateView :=
  match t.event with
  | .act pid (.send _) (.ok (.response r)) => .replied pid r
  | .act _ (.gate .serverNowSeconds) (.ok _) => .read t.post.clock
  | .act pid (.gate (.finish testId _ _)) (.ok _) => .finished pid testId t.post.clock
  | .act _ (.gate (.claim testId _ _ _)) (.ok _) => .claimed testId t.post.clock
  | .act _ (.gate (.claim testId _ _ _)) (.error (.gate message)) =>
    .refused testId message t.post.clock
  | _ => .other

/-- An update of the control row takes `jump` microseconds, any other operation one. -/
def ticks (jump : Int) : GateOp → Int
  | .updateControl _ => jump
  | _ => 1

/-- A response that asks to wait and names no time. -/
def sampleAccepted : VietShareResponse := { Offline.sampleWait with headers := noHeaders }

def gateAnswer (jump : Int) (s : GateDb) :
    (op : ExecutorOp) → Except Exc op.Res × GateDb
  | .gate op => ((op.exec (s.clock + ticks jump op) s.tables).1,
      ⟨(op.exec (s.clock + ticks jump op) s.tables).2, s.clock + ticks jump op⟩)
  | .clock => (.ok (some 1000), s)
  | .nonceSource => (.ok (some sampleNonce), s)
  | .send _ => (.ok (.response sampleAccepted), s)

theorem gateAnswer_effect (jump : Int) (s : GateDb) (op : ExecutorOp) :
    GateEffect s op (gateAnswer jump s op).1 (gateAnswer jump s op).2 := by
  cases op with
  | gate op => exact .inl rfl
  | clock => rfl
  | nonceSource => rfl
  | send r => rfl

/-- The sample test is prepared, approved and submitted, approved again and claimed again. -/
def sampleMoves : List (Move gateSystem) :=
  [.start 0 (.single (.prepare sampleTestIntent)), .go 0,
    .start 1 (.single (.updateControl sampleControl)), .go 1,
    .start 2 (.submit sampleCredentials sampleTest (some sampleOperator))] ++
  List.replicate 6 (.go 2) ++
  [.start 3 (.single (.updateControl sampleControl)), .go 3,
    .start 4 (.single (.claim sampleTest (some sampleOperator) (some 1001)
      (some (str "synthetic-nonce-2")))), .go 4]

def sampleRetry (jump : Int) : List GateTrans × Cfg gateSystem :=
  (replay gateSystem (gateAnswer jump) ⟨.migrated, 0⟩ sampleMoves).getD
    ([], ⟨⟨.migrated, 0⟩, fun _ => none⟩)

theorem sampleRetry_run (jump : Int) :
    Run gateSystem ⟨.migrated, 0⟩ (sampleRetry jump).1 (sampleRetry jump).2 := by
  unfold sampleRetry
  cases h : replay gateSystem (gateAnswer jump) ⟨.migrated, 0⟩ sampleMoves with
  | none => exact .nil
  | some st => exact replay_run (gateAnswer_effect jump) h

/-- **A claim is refused although the response and its delay have passed**: the delay
is counted from the record, one microsecond later. -/
theorem retry_after_late :
    (∃ tr cfg, Run gateSystem ⟨.migrated, 0⟩ tr cfg ∧ GateForward tr ∧
      (tr.map gateView).filter (· ≠ .other) =
        [.claimed sampleTest 1000000, .replied 2 sampleAccepted, .read 1000001,
          .finished 2 sampleTest 1000002, .refused sampleTest waitMessage 2000001]) ∧
    delayOf (retryAfter sampleAccepted.headers
      (.float (PyFloat.ofRat ((1000001 : Int) / 1000000)))) = .finite 1 ∧
    (1000001 + interval 1 : Int) ≤ 2000001 :=
  ⟨⟨_, _, sampleRetry_run 999998, (by decide +kernel : _ ∧ _)⟩, rfl, by decide +kernel⟩

/-- A list whose image has two marked places. -/
theorem map_split {α β : Type} {f : α → β} {tr : List α} {xs ys zs : List β} {a b : β}
    (h : tr.map f = ((xs ++ a :: ys) ++ [b]) ++ zs) :
    ∃ l₁ u l₂ t m, tr = ((l₁ ++ u :: l₂) ++ [t]) ++ m ∧ f u = a ∧ f t = b := by
  obtain ⟨p, m, rfl, hp, -⟩ := List.map_eq_append_iff.1 h
  obtain ⟨q, w, rfl, hq, hw⟩ := List.map_eq_append_iff.1 hp
  obtain ⟨l₁, v, rfl, -, hv⟩ := List.map_eq_append_iff.1 hq
  obtain ⟨u, l₂, rfl, hu, -⟩ := List.map_eq_cons_iff.1 hv
  obtain ⟨t, w', rfl, ht, hw'⟩ := List.map_eq_cons_iff.1 hw
  obtain rfl := List.map_eq_nil_iff.1 hw'
  exact ⟨l₁, u, l₂, t, m, rfl, hu, ht⟩

theorem replied_event {t : GateTrans} {pid : Nat} {response : VietShareResponse}
    (h : gateView t = .replied pid response) :
    ∃ r, t.event = .act pid (.send r) (.ok (.response response)) := by
  unfold gateView at h
  split at h <;> cases h
  next he => exact ⟨_, he⟩

theorem finished_event {t : GateTrans} {pid : Nat} {testId : Str} {clock : Int}
    (h : gateView t = .finished pid testId clock) :
    ∃ nonce c, t.event = .act pid (.gate (.finish testId nonce c)) (.ok ()) := by
  unfold gateView at h
  split at h <;> cases h
  next he => exact ⟨_, _, he⟩

/-- What a run of the adapter shows of a response that asks to wait. -/
inductive AdapterView where
  | replied (pid : Nat) (operationId : Str) (response : VietShareResponse)
  | finished (pid : Nat) (operationId : Str)
  | other
deriving DecidableEq

def adapterView (t : Offline.AdapterTrans) : AdapterView :=
  match t.event with
  | .act pid (.send id _) (.ok r) => .replied pid id r
  | .act pid (.journal (.finishAttempt id _ _ _)) (.ok _) => .finished pid id
  | _ => .other

theorem adapterReplied_event {t : Offline.AdapterTrans} {pid : Nat} {id : Str}
    {response : VietShareResponse} (h : adapterView t = .replied pid id response) :
    ∃ r, t.event = .act pid (.send id r) (.ok response) := by
  unfold adapterView at h
  split at h <;> cases h
  next he => exact ⟨_, he⟩

theorem adapterFinished_event {t : Offline.AdapterTrans} {pid : Nat} {id : Str}
    (h : adapterView t = .finished pid id) :
    ∃ state orderCode stored,
      t.event = .act pid (.journal (.finishAttempt id state orderCode stored)) (.ok ()) := by
  unfold adapterView at h
  split at h <;> cases h
  next he => exact ⟨_, _, _, he⟩

theorem sampleWait_retryAfter (n : PyNum) :
    retryAfter Offline.sampleWait.headers n = some (.finite 7) := by
  have hheader : Offline.sampleWait.headers.retryAfter? = some (str "7") := by decide +kernel
  have hdigits : isDecimal (strip (str "7")) = true := by decide +kernel
  unfold retryAfter parseRetryAfter
  rw [hheader, Option.bind_eq_bind, Option.bind_some, if_pos hdigits]
  decide +kernel

theorem retry_after_waits_sample :
    (∃ l m d, Offline.sampleSubmits.1 = l ++ m ∧
      Offline.Waits (Offline.sampleStart 0) l m Offline.sampleSubmits.2 Offline.sampleOperation d) ∧
    ∃ l m due, (sampleRetry 1000000).1 = l ++ m ∧
      GateWaits m (sampleRetry 1000000).2 sampleTest due := by
  constructor
  · have hrun : Offline.sampleSubmits.1.map adapterView =
        ((List.replicate 7 .other ++
          .replied 1 Offline.sampleOperation Offline.sampleWait :: [.other]) ++
          [.finished 1 Offline.sampleOperation]) ++ List.replicate 4 .other ∧
        Offline.ClockForward Offline.sampleSubmits.1 := by decide +kernel
    obtain ⟨hview, hforward⟩ := hrun
    obtain ⟨l₁, u, l₂, t, m, htr, hu, ht⟩ := map_split hview
    obtain ⟨r, hu⟩ := adapterReplied_event hu
    obtain ⟨state, orderCode, stored, ht⟩ := adapterFinished_event ht
    have hrun := Offline.adapterRun_run 0 (fun _ => .ok Offline.sampleWait)
      (Offline.samplePrepare ++
        Offline.callMoves 1 (.submit sampleCredentials Offline.sampleOperation) 7 ++
        Offline.callMoves 2 (.submit sampleCredentials Offline.sampleOperation) 3)
    have hrun' : Run Offline.adapterSystem (Offline.sampleStart 0) Offline.sampleSubmits.1
        Offline.sampleSubmits.2 := hrun
    rw [htr] at hrun' hforward
    have hcode : errorCode Offline.sampleWait.body = .ok none := by decide +kernel
    obtain ⟨receivedAt, -, -, hwaits⟩ := retry_after_waits.1 hrun' hforward hu hcode
      (by decide) ht
    obtain ⟨d, -, -, hw⟩ := hwaits (by rw [sampleWait_retryAfter]; decide)
    exact ⟨_, m, d, htr, hw⟩
  · have hrun : (sampleRetry 1000000).1.map gateView =
        (([.other, .other, .other, .other, .other, .other, .other, .claimed sampleTest 1000002] ++
          .replied 2 sampleAccepted :: [.read 1000003]) ++ [.finished 2 sampleTest 1000004]) ++
          [.other, .other, .other, .claimed sampleTest 2000005] ∧
        GateForward (sampleRetry 1000000).1 := by decide +kernel
    obtain ⟨hview, hforward⟩ := hrun
    obtain ⟨l₁, u, l₂, t, m, htr, hu, ht⟩ := map_split hview
    obtain ⟨r, hu⟩ := replied_event hu
    obtain ⟨nonce, c, ht⟩ := finished_event ht
    have hrun := sampleRetry_run 1000000
    rw [htr] at hrun hforward
    have hcode : errorCode sampleAccepted.body = .ok none := by decide +kernel
    obtain ⟨v, -, q, -, -, -, hw⟩ := retry_after_waits.2.2.1 hrun hforward hu hcode (.inl rfl) ht
    exact ⟨_, m, _, htr, hw⟩

end

end NyanShopBot.VietShare
