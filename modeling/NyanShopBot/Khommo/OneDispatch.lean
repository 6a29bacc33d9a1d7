import NyanShopBot.Khommo.WriteContract

/-!
# One dispatch of an order

`effect_row` inverts the steps of the journal: a row is prepared, dispatched and
observed, once each. `adapterProtocol` follows a call through its `Progress`; the
process that dispatches a row holds the order (`Ghost.Holds`), and `OrderInv`
says that one process holds it, that it sends at most one request and that this
request carries the body of the row. `sends_once` collects what follows for runs.
-/

namespace NyanShopBot.Khommo

open Py Db Conc

abbrev AdapterTrans := Trans adapterSystem

/-! ## Steps of the journal -/

/-- How an operation moves the row of an order. -/
inductive RowStep (id : Str) : JournalOp → Option OrderRow → Option OrderRow → Prop where
  | prepared (body : Bytes) : id ≠ [] → isUtf8 id = true →
      RowStep id (.prepare id body) none (some (.new id body))
  | dispatched (row : OrderRow) : row.state = .prepared →
      RowStep id (.dispatchOnce id) (some row) (some row.dispatched)
  | observed (row : OrderRow) (status : Option Int) : row.state = .dispatched →
      RowStep id (.observe id status) (some row) (some (row.observed status))

namespace Tables

theorem row?_setRow_self {t : Tables} {id : Str} {f : OrderRow → OrderRow}
    (hf : ∀ r, (f r).operationId = r.operationId) :
    (t.setRow id f).row? id = (t.row? id).map f :=
  lookup_modify_self fun r hr => (hf r).trans hr

theorem row?_setRow_other {t : Tables} {id id' : Str} {f : OrderRow → OrderRow} (h : id' ≠ id)
    (hf : ∀ r, (f r).operationId = r.operationId) : (t.setRow id f).row? id' = t.row? id' :=
  lookup_modify_other h fun r hr => (hf r).trans hr

end Tables

theorem OrderRow.observed_operationId (status : Option Int) (r : OrderRow) :
    (r.observed status).operationId = r.operationId := by
  unfold observed
  split <;> rfl

theorem OrderRow.observed_body (status : Option Int) (r : OrderRow) :
    (r.observed status).body = r.body := by
  unfold observed
  split <;> rfl

theorem RowStep.body {id : Str} {op : JournalOp} {row : OrderRow} {o : Option OrderRow}
    (h : RowStep id op (some row) o) : ∃ row', o = some row' ∧ row'.body = row.body := by
  cases h with
  | dispatched _ hs => exact ⟨_, rfl, rfl⟩
  | observed _ status hs => exact ⟨_, rfl, row.observed_body status⟩

/-- A transaction that commits moves a row by a step or keeps it. -/
theorem body_row {op : JournalOp} {s s' : Store} {a : op.Res} (h : op.body s = .ok (a, s'))
    (id : Str) : s'.1.row? id = s.1.row? id ∨ RowStep id op (s.1.row? id) (s'.1.row? id) := by
  cases op with
  | prepare operationId body =>
    obtain ⟨hid, h⟩ := Tx.ensure_bind_ok.1 h
    obtain ⟨hutf, h⟩ := Tx.ensure_bind_ok.1 h
    rw [Tx.query_bind] at h
    cases hrow : s.1.row? operationId with
    | some row =>
      rw [hrow] at h
      obtain ⟨-, rfl⟩ := Tx.ensure_ok.1 h
      exact .inl rfl
    | none =>
      rw [hrow] at h
      unfold prepareRow at h
      obtain ⟨hs, -⟩ := Schema.execute_ok.1 h
      have hnew : s'.1.row? id = (s.1.row? id).or
          (if (OrderRow.new operationId body).operationId = id then some (.new operationId body)
            else none) := by
        rw [hs]
        exact @lookup_append _ _ _ OrderRow.operationId s.1.orders id _
      by_cases e : operationId = id
      · subst e
        rw [hrow] at hnew
        rw [hrow, hnew]
        exact .inr (by simpa [OrderRow.new] using .prepared body hid hutf)
      · rw [if_neg (show ¬ (OrderRow.new operationId body).operationId = id from e),
          Option.or_none] at hnew
        exact .inl hnew
  | dispatchOnce operationId =>
    obtain ⟨-, h⟩ := Tx.ensure_bind_ok.1 h
    rw [Tx.query_bind] at h
    cases hrow : (s.1.row? operationId).filter (·.state = .prepared) with
    | none =>
      rw [hrow] at h
      obtain ⟨-, rfl⟩ := Tx.pure_ok.1 h
      exact .inl rfl
    | some row =>
      rw [hrow] at h
      obtain ⟨hrow, hst⟩ := Option.filter_eq_some_iff.1 hrow
      obtain ⟨_, s₁, h₁, h⟩ := Tx.bind_ok.1 h
      obtain ⟨-, rfl⟩ := Tx.pure_ok.1 h
      obtain ⟨hs, -⟩ := Schema.execute_ok.1 h₁
      by_cases e : id = operationId
      · subst e
        have hself : s'.1.row? id = (s.1.row? id).map .dispatched := by
          rw [hs]
          exact Tables.row?_setRow_self fun _ => rfl
        rw [hself, hrow]
        exact .inr (.dispatched row (by simpa using hst))
      · rw [hs]
        exact .inl (Tables.row?_setRow_other e fun _ => rfl)
  | observe operationId status =>
    obtain ⟨-, h⟩ := Tx.ensure_bind_ok.1 h
    obtain ⟨-, h⟩ := Tx.ensure_bind_ok.1 h
    obtain ⟨hs, -⟩ := Schema.execute_ok.1 h
    by_cases e : id = operationId
    · subst e
      have hself : s'.1.row? id = (s.1.row? id).map (.observed status) := by
        rw [hs]
        exact Tables.row?_setRow_self (OrderRow.observed_operationId status)
      rw [hself]
      cases hrow : s.1.row? id with
      | none => exact .inl rfl
      | some row =>
        by_cases hst : row.state = .dispatched
        · exact .inr (.observed row status hst)
        · exact .inl (by simp [OrderRow.observed, hst])
    · rw [hs]
      exact .inl (Tables.row?_setRow_other e (OrderRow.observed_operationId status))
  | state operationId =>
    obtain ⟨-, h⟩ := Tx.ensure_bind_ok.1 h
    rw [Tx.query_bind] at h
    obtain ⟨-, rfl⟩ := Tx.pure_ok.1 h
    exact .inl rfl

/-- A step of the system moves a row by a step of the journal or keeps it. -/
theorem effect_row {s s' : Store} {op : AdapterOp} {r : Except Exc op.Res}
    (he : AdapterEffect s op r s') (id : Str) :
    s'.1.row? id = s.1.row? id ∨
      ∃ jop, op = .journal jop ∧ RowStep id jop (s.1.row? id) (s'.1.row? id) := by
  cases op with
  | send o req => rw [he.2]; exact .inl rfl
  | receive => rw [show s' = s from he]; exact .inl rfl
  | journal jop =>
    have hexec : (jop.exec s).2.1.row? id = s.1.row? id ∨
        RowStep id jop (s.1.row? id) ((jop.exec s).2.1.row? id) := by
      rcases Tx.commit_cases jop.body s with ⟨e, hc⟩ | ⟨a, s₁, hc, hb⟩
      · exact .inl (by rw [JournalOp.exec, hc])
      · rw [JournalOp.exec, hc]
        exact body_row hb id
    rcases he with he | ⟨e, -, -, rfl | rfl⟩
    · rw [show s' = (jop.exec s).2 from congrArg Prod.snd he]
      exact hexec.imp_right fun h => ⟨jop, rfl, h⟩
    · exact .inl rfl
    · exact hexec.imp_right fun h => ⟨jop, rfl, h⟩

/-- Where an operation returned, its transaction has committed. -/
theorem effect_ok {s s' : Store} {op : JournalOp} {a : op.Res}
    (he : AdapterEffect s (.journal op) (.ok a) s') : op.body s = .ok (a, s') := by
  rcases he with he | ⟨e, he, -⟩
  · have hb := Tx.commit_ok.1 (congrArg Prod.fst he).symm
    rwa [show (op.body.commit s).2 = s' from (congrArg Prod.snd he).symm] at hb
  · cases he

/-- A body that is dispatched is the one of a prepared row. -/
theorem dispatchOnce_ok {s s' : Store} {id : Str} {body : Bytes}
    (h : (JournalOp.dispatchOnce id).body s = .ok (some body, s')) :
    ∃ row, s.1.row? id = some row ∧ row.state = .prepared ∧ row.body = body ∧
      s'.1.row? id = some row.dispatched := by
  obtain ⟨-, h⟩ := Tx.ensure_bind_ok.1 h
  rw [Tx.query_bind] at h
  cases hrow : (s.1.row? id).filter (·.state = .prepared) with
  | none =>
    rw [hrow] at h
    cases (Tx.pure_ok.1 h).1
  | some row =>
    rw [hrow] at h
    obtain ⟨hrow, hst⟩ := Option.filter_eq_some_iff.1 hrow
    obtain ⟨_, s₁, h₁, h⟩ := Tx.bind_ok.1 h
    obtain ⟨hbody, rfl⟩ := Tx.pure_ok.1 h
    obtain ⟨hs, -⟩ := Schema.execute_ok.1 h₁
    refine ⟨row, hrow, by simpa using hst, (Option.some.inj hbody).symm, ?_⟩
    have hself : s'.1.row? id = (s.1.row? id).map .dispatched := by
      rw [hs]
      exact Tables.row?_setRow_self fun _ => rfl
    rw [hself, hrow]
    rfl

theorem state_ok {s s' : Store} {id : Str} {o : OrderObservation}
    (h : (JournalOp.state id).body s = .ok (o, s')) : o = observation (s.1.row? id) := by
  obtain ⟨-, h⟩ := Tx.ensure_bind_ok.1 h
  rw [Tx.query_bind] at h
  exact (Tx.pure_ok.1 h).1

/-- **Other bytes for an order are refused.** -/
theorem prepare_refused {s s' : Store} {id : Str} {row : OrderRow} {body : Bytes}
    {r : Except Exc Unit} (he : AdapterEffect s (.journal (.prepare id body)) r s')
    (hid : id ≠ []) (hutf : isUtf8 id = true) (hrow : s.1.row? id = some row)
    (hne : row.body ≠ body) :
    (r = .error (.contract "Operation already has different order bytes") ∨
      ∃ e, r = .error e ∧ isFailure e = true) ∧ s' = s := by
  have hexec : (JournalOp.prepare id body).exec s =
      (.error (.contract "Operation already has different order bytes"), s) := by
    refine Tx.commit_of_error ((Tx.ensure_bind hid).trans ((Tx.ensure_bind hutf).trans ?_))
    rw [Tx.query_bind, hrow]
    exact Tx.ensure_error.2 ⟨hne, rfl⟩
  rcases he with he | ⟨e, rfl, hf, hs⟩
  · rw [hexec] at he
    obtain ⟨rfl, rfl⟩ := Prod.mk.inj he
    exact ⟨.inl rfl, rfl⟩
  · rw [hexec, or_self] at hs
    exact ⟨.inr ⟨e, rfl, hf⟩, hs⟩

/-! ## What a call does in order -/

/-- How far a call has come. -/
inductive Progress where
  | start
  | won (body : Bytes)
  | sent
  | replied (reply : Except Exc KhoMmoResponse)
  | told (observation : OrderObservation)
deriving DecidableEq

structure Ghost where
  call : AdapterCall
  progress : Progress

/-- The order that a call reports on. -/
def AdapterCall.subject : AdapterCall → Option Str
  | .createOnce _ id | .state id => some id
  | _ => none

/-- The status that a reply leaves. -/
def replyStatus (reply : Except Exc KhoMmoResponse) : Option Int :=
  reply.toOption.map KhoMmoResponse.statusCode

def postRequest (token : KhoMmoToken) (body : Bytes) : OfflineOrderRequest :=
  request token (str "POST") ordersPath body

namespace Ghost

/-- The operations that are in order. -/
def ok (g : Ghost) : AdapterOp → Prop
  | .journal (.prepare _ _) => g.progress = .start
  | .journal (.dispatchOnce id) => g.progress = .start ∧ ∃ token, g.call = .createOnce token id
  | .journal (.observe id status) =>
    (∃ token, g.call = .createOnce token id) ∧
      ∃ reply, g.progress = .replied reply ∧ status = replyStatus reply
  | .journal (.state id) => g.progress = .start ∧ g.call.subject = some id
  | .send (some id) r =>
    ∃ token body, g.call = .createOnce token id ∧ g.progress = .won body ∧
      r = postRequest token body
  | .send none r =>
    g.progress = .start ∧ ∃ token orderNo, g.call = .getKnownOrderStatus token orderNo ∧
      r = request token (str "GET") (ordersPath ++ str "/" ++ orderNo) []
  | .receive => g.progress = .sent

/-- The ghost state after an operation. -/
def next (g : Ghost) : (op : AdapterOp) → Except Exc op.Res → Ghost
  | .journal (.dispatchOnce _), .ok (some body) => { g with progress := .won body }
  | .journal (.state _), .ok o => { g with progress := .told o }
  | .send _ _, _ => { g with progress := .sent }
  | .receive, r => { g with progress := .replied r }
  | _, _ => g

/-- How an operation moves a ghost state. -/
inductive Moves (g : Ghost) : (op : AdapterOp) → Except Exc op.Res → Ghost → Prop where
  | stays (op : JournalOp) (r : Except Exc op.Res) : Moves g (.journal op) r g
  | wins (id : Str) (body : Bytes) :
      Moves g (.journal (.dispatchOnce id)) (.ok (some body)) { g with progress := .won body }
  | tells (id : Str) (o : OrderObservation) :
      Moves g (.journal (.state id)) (.ok o) { g with progress := .told o }
  | sends (o : Option Str) (req : OfflineOrderRequest) (r : Except Exc Unit) :
      Moves g (.send o req) r { g with progress := .sent }
  | receives (r : Except Exc KhoMmoResponse) :
      Moves g .receive r { g with progress := .replied r }

theorem moves (g : Ghost) (op : AdapterOp) (r : Except Exc op.Res) :
    g.Moves op r (g.next op r) := by
  cases op with
  | send o req => exact .sends o req r
  | receive => exact .receives r
  | journal jop =>
    cases jop with
    | prepare id body => cases r <;> exact .stays _ _
    | observe id status => cases r <;> exact .stays _ _
    | state id =>
      cases r with
      | error e => exact .stays _ _
      | ok o => exact .tells id o
    | dispatchOnce id =>
      rcases r with e | _ | body
      · exact .stays _ _
      · exact .stays _ _
      · exact .wins id body

@[simp] theorem next_call (g : Ghost) (op : AdapterOp) (r : Except Exc op.Res) :
    (g.next op r).call = g.call := by
  have hm := g.moves op r
  generalize g.next op r = g' at hm
  cases hm <;> rfl

end Ghost

abbrev adapterProtocol : Protocol adapterSig Exc := ⟨Ghost, Ghost.ok, Ghost.next⟩

/-- What a call that ends reports: nothing of an order, that its request was sent,
or what the journal told. -/
def Reports (_ : AdapterCall) (g : Ghost) : Except Exc (Option OrderObservation) → Prop
  | .ok (some o) => o.state = .unknownReconciling ∨ g.progress = .told o
  | _ => True

/-- What is returned does not say that nothing was dispatched. -/
def SaysUnknown (r : Except Exc OrderObservation) : Prop :=
  ∀ o, r = .ok o → o.state = .unknownReconciling

theorem conclude_follows {token : KhoMmoToken} {id : Str} {reply : Except Exc KhoMmoResponse} :
    wp adapterProtocol (fun _ r => SaysUnknown r) ⟨.createOnce token id, .replied reply⟩
      (conclude id reply) := by
  have hobserve {status : Option Int} (h : status = replyStatus reply) :
      wp adapterProtocol (fun _ r => SaysUnknown r) ⟨.createOnce token id, .replied reply⟩
        (awaitJournal (.observe id status) >>= fun _ => pure ⟨.unknownReconciling, status⟩) := by
    refine wp_bind.2 (wp_perform.2 ⟨⟨⟨token, rfl⟩, reply, rfl, h⟩, fun r => ?_⟩)
    cases r with
    | error e => exact fun o h => by cases h
    | ok u => exact fun o h => by cases h; rfl
  cases reply with
  | ok response => exact hobserve rfl
  | error e =>
    simp only [conclude]
    refine wp_ite.2 ⟨fun _ => hobserve rfl, fun _ => ?_⟩
    exact fun o h => by cases h

theorem createOnce_follows (token : KhoMmoToken) (id : Str) :
    wp adapterProtocol (fun g r => ∀ o, r = .ok o → o.state = .unknownReconciling ∨
      g.progress = .told o) ⟨.createOnce token id, .start⟩ (createOnce token id) := by
  refine wp_bind.2 (wp_perform.2 ⟨⟨rfl, token, rfl⟩, fun r => ?_⟩)
  rcases r with e | _ | body
  · exact fun o h => by cases h
  · refine wp_perform.2 ⟨⟨rfl, rfl⟩, fun r => ?_⟩
    cases r with
    | error e => exact fun o h => by cases h
    | ok o => exact fun o' h => by cases h; exact .inr rfl
  · refine wp_bind.2 (wp_perform.2 ⟨⟨token, body, rfl, rfl, rfl⟩, fun r => ?_⟩)
    cases r with
    | error e => exact fun o h => by cases h
    | ok u =>
      refine wp_bind.2 (wp_attempt.2 (wp_perform.2 ⟨rfl, fun reply => ?_⟩))
      exact wp_mono (fun _ r h o ho => .inl (h o ho)) conclude_follows

theorem prepare_follows {call : AdapterCall} (id : Str) (body : Bytes) :
    wp adapterProtocol (Reports call) ⟨call, .start⟩
      (awaitJournal (.prepare id body) >>= fun _ => pure none) := by
  refine wp_bind.2 (wp_perform.2 ⟨rfl, fun r => ?_⟩)
  cases r <;> trivial

/-- **Every call follows the protocol.** -/
theorem body_follows (c : AdapterCall) :
    wp adapterProtocol (Reports c) ⟨c, .start⟩ c.body := by
  cases c with
  | prepare id order =>
    refine wp_bind.2 (wp_ofExcept.2 ?_)
    cases order.rawBody with
    | error e => trivial
    | ok body => exact prepare_follows id body
  | prepareBody id body => exact prepare_follows id body
  | createOnce token id =>
    refine wp_bind.2 (wp_mono (fun g r h => ?_) (createOnce_follows token id))
    cases r with
    | error e => trivial
    | ok o => exact h o rfl
  | state id =>
    refine wp_bind.2 (wp_perform.2 ⟨⟨rfl, rfl⟩, fun r => ?_⟩)
    cases r with
    | error e => trivial
    | ok o => exact .inr rfl
  | getKnownOrderStatus token orderNo =>
    refine wp_bind.2 (wp_bind.2 (wp_ensure.2 ⟨fun _ => ?_, fun _ => trivial⟩))
    refine wp_bind.2 (wp_perform.2 ⟨⟨rfl, token, orderNo, rfl, rfl⟩, fun r => ?_⟩)
    cases r with
    | error e => trivial
    | ok u =>
      refine wp_bind.2 (wp_attempt.2 (wp_perform.2 ⟨rfl, fun reply => wp_ofExcept.2 ?_⟩))
      cases reply with
      | ok response => exact .inl rfl
      | error e =>
        simp only [knownStatus]
        by_cases h : e.isException
        · rw [if_pos h]
          exact .inl rfl
        · rw [if_neg h]
          trivial

end NyanShopBot.Khommo
