import NyanShopBot.VietShare.Executor

/-!
# What a submit to the gate does in order

`gateProtocol` follows a call through its `GatePhase`: the timestamp and the nonce it
was given, the record of its claim, the reply and the database clock after it. A
submit claims with what it was given, sends the body and the key of the record it
claimed, and completes the dispatch as `Completes` says. `GateCall.follows`: every
call follows it.
-/

namespace NyanShopBot.VietShare

open Py Db Conc

/-- How far a call has come. -/
structure GatePhase where
  call : GateCall
  timestamp : Option Int
  nonce : Option Str
  record : Option GateRecord
  reply : Option (Except Exc Reply)
  received : Option PyFloat

def GatePhase.start (call : GateCall) : GatePhase := ⟨call, none, none, none, none, none⟩

/-- The request carries the key and the body of a record. -/
def CarriesRecord (r : VietShareRequest) (record : GateRecord) : Prop :=
  r.headers.get? (str "Idempotency-Key") = some record.idempotencyKey ∧ r.body = record.rawBody

section

variable [Stdlib]

/-- What a dispatch is completed with: without a response, or with one. -/
inductive Completes (record : GateRecord) (g : GatePhase) : Completion → Prop where
  | lost (code : Str) : (∀ response, g.reply ≠ some (.ok (.response response))) →
      Completes record g (.lost code)
  | read {response : VietShareResponse} {code : Option Str} {receivedAt : PyFloat}
      {c : Completion} {outcome : GateOutcome} : g.reply = some (.ok (.response response)) →
      errorCode response.body = .ok code → g.received = some receivedAt →
      classify record response code (retryAfter response.headers (.float receivedAt)) =
        .ok (c, outcome) →
      Completes record g c

/-- The operations of a submit that are in order in a phase. -/
def GatePhase.okSubmit (g : GatePhase) (testId : Str) (operatorId : Option Str) :
    ExecutorOp → Prop
  | .gate (.claim id operator timestamp nonce) =>
    id = testId ∧ operator = operatorId ∧ timestamp = g.timestamp ∧ nonce = g.nonce ∧
      g.record = none ∧ g.reply = none
  | .gate (.finish id nonce c) =>
    id = testId ∧ nonce = g.nonce.getD [] ∧ ∃ record, g.record = some record ∧ Completes record g c
  | .gate .serverNowSeconds => g.reply.isSome = true
  | .gate _ => False
  | .clock | .nonceSource => g.record = none
  | .send r =>
    g.reply = none ∧ Signs r (g.timestamp.getD 0) (g.nonce.getD []) ∧ r.method = str "POST" ∧
      ∃ record, g.record = some record ∧ CarriesRecord r record

/-- The operations that are in order in a phase. -/
def GatePhase.ok (g : GatePhase) (op : ExecutorOp) : Prop :=
  match g.call with
  | .submit _ testId operatorId => g.okSubmit testId operatorId op
  | .single o => op = .gate o

/-- The phase after an operation. -/
def GatePhase.next (g : GatePhase) : (op : ExecutorOp) → Except Exc op.Res → GatePhase
  | .clock, .ok timestamp => { g with timestamp := timestamp }
  | .nonceSource, .ok nonce => { g with nonce := nonce }
  | .gate (.claim _ _ _ _), .ok record => { g with record := some record }
  | .gate .serverNowSeconds, .ok t => { g with received := some t }
  | .send _, r => { g with reply := some r }
  | _, _ => g

/-- How an operation moves a phase. -/
inductive GatePhase.Moves (g : GatePhase) :
    (op : ExecutorOp) → Except Exc op.Res → GatePhase → Prop where
  | stays (op : ExecutorOp) (r : Except Exc op.Res) : Moves g op r g
  | stamps (timestamp : Option Int) :
      Moves g .clock (.ok timestamp) { g with timestamp := timestamp }
  | nonces (nonce : Option Str) : Moves g .nonceSource (.ok nonce) { g with nonce := nonce }
  | claims (testId : Str) (operatorId : Option Str) (timestamp : Option Int) (nonce : Option Str)
      (record : GateRecord) : Moves g (.gate (.claim testId operatorId timestamp nonce))
      (.ok record)
        { g with record := some record }
  | reads (x : PyFloat) : Moves g (.gate .serverNowSeconds) (.ok x) { g with received := some x }
  | sends (r : VietShareRequest) (reply : Except Exc Reply) :
      Moves g (.send r) reply { g with reply := some reply }

omit [Stdlib] in
theorem GatePhase.moves (g : GatePhase) (op : ExecutorOp) (r : Except Exc op.Res) :
    g.Moves op r (g.next op r) := by
  cases op with
  | clock =>
    cases r with
    | error e => exact .stays _ _
    | ok timestamp => exact .stamps timestamp
  | nonceSource =>
    cases r with
    | error e => exact .stays _ _
    | ok nonce => exact .nonces nonce
  | send r' => exact .sends r' r
  | gate gop =>
    cases gop with
    | claim testId operatorId timestamp nonce =>
      cases r with
      | error e => exact .stays _ _
      | ok record => exact .claims testId operatorId timestamp nonce record
    | serverNowSeconds =>
      cases r with
      | error e => exact .stays _ _
      | ok x => exact .reads x
    | prepare intent => cases r <;> exact .stays _ _
    | finish testId nonce c => cases r <;> exact .stays _ _
    | markReconciling testId operatorId => cases r <;> exact .stays _ _
    | updateControl c => cases r <;> exact .stays _ _
    | get testId => cases r <;> exact .stays _ _

abbrev gateProtocol : Protocol executorSig Exc := ⟨GatePhase, GatePhase.ok, GatePhase.next⟩

/-! ## The calls -/

variable {g : GatePhase} {credentials : VietShareCredentials} {testId : Str}
  {operatorId : Option Str} {record : GateRecord}

theorem ok_submit {op : ExecutorOp} (hc : g.call = .submit credentials testId operatorId) :
    g.ok op ↔ g.okSubmit testId operatorId op := by
  unfold GatePhase.ok
  rw [hc]

theorem finishWith_follows {c : Completion} {outcome : GateOutcome} {nonce : Str}
    (hc : g.call = .submit credentials testId operatorId) (hr : g.record = some record)
    (hn : nonce = g.nonce.getD []) (h : Completes record g c) :
    wp gateProtocol (fun _ _ => True) g (finishWith testId nonce c outcome) := by
  unfold finishWith
  refine wp_bind.2 (wp_perform.2 ⟨(ok_submit hc).2 ⟨rfl, hn, record, hr, h⟩, fun r => ?_⟩)
  cases r <;> trivial

theorem settle_follows {response : VietShareResponse} {nonce : Str}
    (hc : g.call = .submit credentials testId operatorId) (hr : g.record = some record)
    (hn : nonce = g.nonce.getD []) (hreply : g.reply = some (.ok (.response response))) :
    wp gateProtocol (fun _ _ => True) g (settle testId nonce record response) := by
  unfold settle
  refine wp_bind.2 (wp_ofExcept.2 ?_)
  cases hcode : errorCode response.body with
  | error e => trivial
  | ok code =>
    have hok : g.ok (.gate .serverNowSeconds) :=
      (ok_submit hc).2 (show g.reply.isSome = true by rw [hreply]; rfl)
    refine wp_bind.2 (wp_perform.2 ⟨hok, fun r => ?_⟩)
    cases r with
    | error e => trivial
    | ok receivedAt =>
      refine wp_bind.2 (wp_ofExcept.2 ?_)
      cases hcl : classify record response code
        (retryAfter response.headers (.float receivedAt)) with
      | error e => trivial
      | ok p =>
        have hdone : Completes record { g with received := some receivedAt } p.1 :=
          .read hreply hcode rfl hcl
        exact @finishWith_follows _ { g with received := some receivedAt } credentials testId
          operatorId record p.1 p.2 nonce hc hr hn hdone

theorem conclude_follows {nonce : Str} {reply : Except Exc Reply}
    (hc : g.call = .submit credentials testId operatorId) (hr : g.record = some record)
    (hn : nonce = g.nonce.getD [])
    (hreply : g.reply = some reply ∨ g.reply = none ∧ ∃ e, reply = .error e) :
    wp gateProtocol (fun _ _ => True) g (conclude testId nonce record reply) := by
  match reply with
  | .error e =>
    have hlost (response : VietShareResponse) : g.reply ≠ some (.ok (.response response)) := by
      rcases hreply with h | ⟨h, -⟩ <;> rw [h] <;> exact nofun
    show wp _ _ _ (if e.isException = true then _ else _)
    split
    · exact finishWith_follows hc hr hn (.lost _ hlost)
    · trivial
  | .ok .other =>
    have hreply' : g.reply = some (.ok .other) := by
      rcases hreply with h | ⟨-, e, h⟩
      · exact h
      · cases h
    exact finishWith_follows hc hr hn (.lost _ fun response => by rw [hreply']; exact nofun)
  | .ok (.response response) =>
    have hreply' : g.reply = some (.ok (.response response)) := by
      rcases hreply with h | ⟨-, e, h⟩
      · exact h
      · cases h
    exact settle_follows hc hr hn hreply'

variable [Hashlib]

/-- After the dispatch the phase has its reply, or the request could not be signed. -/
theorem dispatch_follows (hc : g.call = .submit credentials testId operatorId)
    (hr : g.record = some record) (hreply : g.reply = none) :
    wp gateProtocol (fun g' r => (g' = g ∧ ∃ e, r = .error e) ∨ g' = { g with reply := some r })
      g (dispatch credentials (g.timestamp.getD 0) (g.nonce.getD []) record) := by
  unfold dispatch
  refine wp_bind.2 (wp_ofExcept.2 ?_)
  cases hreq : signedRequest credentials (str "POST") ordersPath (g.timestamp.getD 0)
    (g.nonce.getD []) (some record.idempotencyKey) record.rawBody record.bodySha256 with
  | error e => exact .inl ⟨rfl, e, rfl⟩
  | ok request =>
    obtain ⟨hmethod, hbody, hsigns, hkey⟩ := signedRequest_ok hreq
    exact wp_perform.2 ⟨(ok_submit hc).2 ⟨hreply, hsigns, hmethod, record, hr, hkey _ rfl, hbody⟩,
      fun r => .inr rfl⟩

theorem submit_follows (credentials : VietShareCredentials) (testId : Str)
    (operatorId : Option Str) :
    wp gateProtocol (fun _ _ => True) (.start (.submit credentials testId operatorId))
      (submit credentials testId operatorId) := by
  unfold submit
  refine wp_bind.2 (wp_perform.2 ⟨rfl, fun r => ?_⟩)
  cases r with
  | error e => trivial
  | ok timestamp =>
    refine wp_bind.2 (wp_perform.2 ⟨rfl, fun r => ?_⟩)
    cases r with
    | error e => trivial
    | ok nonce =>
      refine wp_bind.2 (wp_perform.2 ⟨⟨rfl, rfl, rfl, rfl, rfl, rfl⟩, fun r => ?_⟩)
      cases r with
      | error e => trivial
      | ok record =>
        let g : GatePhase := ⟨.submit credentials testId operatorId, timestamp, nonce, some record,
          none, none⟩
        refine wp_bind.2 (wp_attempt.2 (wp_mono ?_ (dispatch_follows (g := g) rfl rfl rfl)))
        rintro g' r (⟨rfl, e, rfl⟩ | rfl)
        · exact conclude_follows (g := g) rfl rfl rfl (.inr ⟨rfl, e, rfl⟩)
        · exact @conclude_follows _ { g with reply := some r } credentials testId operatorId
            record (nonce.getD []) r rfl rfl rfl (.inl rfl)

/-- **Every call follows the protocol.** -/
theorem GateCall.follows (c : GateCall) :
    wp gateProtocol (fun _ _ => True) (.start c) c.body := by
  cases c with
  | submit credentials testId operatorId =>
    refine wp_bind.2 (wp_mono (fun g r _ => ?_) (submit_follows credentials testId operatorId))
    cases r <;> trivial
  | single op =>
    refine wp_bind.2 (wp_perform.2 ⟨rfl, fun r => ?_⟩)
    cases r <;> trivial

end

end NyanShopBot.VietShare
