import NyanShopBot.VietShare.Adapter

/-!
# What the calls of the adapter do in order

`adapterProtocol` follows a call through its `Phase`: the clock it has read, the
record of its attempt, the timestamp and nonce it has reserved, the reply and the
clock after it. A
request carries what was reserved, a `POST` the key and the body of the attempt,
and an attempt ends as `Ends` says. `body_follows`: every call follows it.
-/

namespace NyanShopBot.VietShare.Offline

open Py Db Conc

section

variable [Stdlib]

/-- How far a call has come. -/
structure Phase where
  operationId : Str
  now : Option Int
  begun : Option PreparedWrite
  auth : Option (Int × Str)
  reply : Option (Except Exc VietShareResponse)
  receipt : Option Int

def Phase.start (operationId : Str) : Phase := ⟨operationId, none, none, none, none, none⟩

/-- How an attempt ends: without a reading of a response, or with one. -/
inductive Ends (record : PreparedWrite) (g : Phase) :
    JournalState → Option Str → Option PyFloat → Prop where
  | lost : (∀ response, g.reply ≠ some (.ok response)) → Ends record g .unknown none none
  | read {response : VietShareResponse} {code : Option Str} {receivedAt : Int} {e : Ending} :
      g.reply = some (.ok response) → errorCode response.body = .ok code →
      (asksToWait response.statusCode code = true → g.receipt = some receivedAt) →
      classify record response code receivedAt = .ok e →
      Ends record g e.state e.orderCode e.retryNotBefore

end

/-- The phase after a reading of the clock: before the reply or after it. -/
def Phase.read (g : Phase) (t : Int) : Phase :=
  if g.reply.isSome then { g with receipt := some t } else { g with now := some t }

@[simp] theorem Phase.read_operationId (g : Phase) (t : Int) :
    (g.read t).operationId = g.operationId := by unfold read; split <;> rfl

@[simp] theorem Phase.read_begun (g : Phase) (t : Int) : (g.read t).begun = g.begun := by
  unfold read; split <;> rfl

@[simp] theorem Phase.read_auth (g : Phase) (t : Int) : (g.read t).auth = g.auth := by
  unfold read; split <;> rfl

@[simp] theorem Phase.read_reply (g : Phase) (t : Int) : (g.read t).reply = g.reply := by
  unfold read; split <;> rfl

/-- The request carries the key and the body of a row. -/
def Carries (r : VietShareRequest) (row : PreparedWrite) : Prop :=
  r.headers.get? (str "Idempotency-Key") = some row.idempotencyKey ∧ r.body = row.body

def isPost (r : VietShareRequest) : Bool := r.method = str "POST"

section

variable [Stdlib]

/-- The operations that are in order in a phase. -/
def Phase.ok (g : Phase) : AdapterOp → Prop
  | .journal (.prepare id _ _) => id = g.operationId
  | .journal (.beginAttempt id now) =>
    id = g.operationId ∧ g.begun = none ∧ g.auth = none ∧ g.reply = none ∧ g.now = some now
  | .journal (.finishAttempt id state orderCode retryNotBefore) =>
    id = g.operationId ∧
      ∃ record, g.begun = some record ∧ Ends record g state orderCode retryNotBefore
  | .journal (.markInterruptedUnknown id) => id = g.operationId ∧ g.begun = none
  | .journal (.reserveAuth id _ _) => id = g.operationId ∧ g.auth = none
  | .send id r =>
    id = g.operationId ∧ g.reply = none ∧
      (∃ timestamp nonce, g.auth = some (timestamp, nonce) ∧ Signs r timestamp nonce) ∧
      (isPost r = true → ∃ record, g.begun = some record ∧ Carries r record)
  | _ => True

/-- The phase after an operation. -/
def Phase.next (g : Phase) : (op : AdapterOp) → Except Exc op.Res → Phase
  | .journal (.beginAttempt _ _), .ok (some record) => { g with begun := some record }
  | .journal (.finishAttempt _ _ _ _), _ => { g with begun := none }
  | .journal (.reserveAuth _ timestamp nonce), .ok _ => { g with auth := some (timestamp, nonce) }
  | .send _ _, r => { g with reply := some r }
  | .clock, .ok t => g.read t
  | _, _ => g

/-- How an operation moves a phase. -/
inductive Phase.Moves (g : Phase) : (op : AdapterOp) → Except Exc op.Res → Phase → Prop where
  | stays (op : AdapterOp) (r : Except Exc op.Res) : Moves g op r g
  | begins (id : Str) (now : Int) (record : PreparedWrite) :
      Moves g (.journal (.beginAttempt id now)) (.ok (some record)) { g with begun := some record }
  | finishes (id : Str) (state : JournalState) (code : Option Str) (d : Option PyFloat)
      (r : Except Exc Unit) :
      Moves g (.journal (.finishAttempt id state code d)) r { g with begun := none }
  | reserves (id : Str) (timestamp : Int) (nonce : Str) :
      Moves g (.journal (.reserveAuth id timestamp nonce)) (.ok ())
        { g with auth := some (timestamp, nonce) }
  | sends (id : Str) (r : VietShareRequest) (reply : Except Exc VietShareResponse) :
      Moves g (.send id r) reply { g with reply := some reply }
  | reads (t : Int) : Moves g .clock (.ok t) (g.read t)

omit [Stdlib] in
theorem Phase.moves (g : Phase) (op : AdapterOp) (r : Except Exc op.Res) :
    g.Moves op r (g.next op r) := by
  cases op with
  | clock =>
    cases r with
    | error e => exact .stays _ _
    | ok t => exact .reads t
  | nonceSource => cases r <;> exact .stays _ _
  | send id r' => exact .sends id r' r
  | journal jop =>
    cases jop with
    | prepare id key body => cases r <;> exact .stays _ _
    | get id => cases r <;> exact .stays _ _
    | markInterruptedUnknown id => cases r <;> exact .stays _ _
    | finishAttempt id state code d => exact .finishes id state code d r
    | reserveAuth id timestamp nonce =>
      cases r with
      | error e => exact .stays _ _
      | ok u => exact .reserves id timestamp nonce
    | beginAttempt id now =>
      match r with
      | .error e => exact .stays _ _
      | .ok none => exact .stays _ _
      | .ok (some record) => exact .begins id now record

abbrev adapterProtocol : Protocol adapterSig Exc := ⟨Phase, Phase.ok, Phase.next⟩

end

/-! ## The calls -/

section

variable [Stdlib]

theorem reserve_wp {g : Phase} {now : Int} {nonce : Str} (h : g.auth = none) :
    wp adapterProtocol
      (fun g' r => (r = .ok () → g' = { g with auth := some (now, nonce) }) ∧
        ∃ auth, g' = { g with auth := auth }) g (reserve g.operationId now nonce) := by
  unfold reserve
  refine wp_bind.2 (wp_attempt.2 (wp_perform.2 ⟨⟨rfl, h⟩, fun r => ?_⟩))
  cases r with
  | ok u => exact ⟨fun _ => rfl, _, rfl⟩
  | error e =>
    have hraise : ∀ e' : Exc, ((.error e' : Except Exc Unit) = .ok () →
        g = { g with auth := some (now, nonce) }) ∧ ∃ auth, g = { g with auth := auth } :=
      fun e' => ⟨nofun, g.auth, rfl⟩
    cases e <;> exact hraise _

variable [Hashlib]

theorem request_wp {credentials : VietShareCredentials} {method path : Str} {body : Bytes}
    {now : Int} {key : Option Str} {g : Phase} (h : g.auth = none) :
    wp adapterProtocol
      (fun g' r => (∃ auth, g' = { g with auth := auth }) ∧ ∀ q, r = .ok q →
        (∃ nonce, g'.auth = some (now, nonce) ∧ Signs q now nonce) ∧ q.method = method ∧
          q.body = body ∧ ∀ k ∈ key, q.headers.get? (str "Idempotency-Key") = some k)
      g (request credentials g.operationId method path body now key) := by
  unfold request
  refine wp_bind.2 (wp_perform.2 ⟨trivial, fun r => ?_⟩)
  have hg : adapterProtocol.next g .nonceSource r = g := by cases r <;> rfl
  rw [hg]
  cases r with
  | error e => exact ⟨⟨g.auth, rfl⟩, nofun⟩
  | ok nonce =>
    refine wp_bind.2 (wp_ensure.2 ⟨fun _ => ?_, fun _ => ⟨⟨g.auth, rfl⟩, nofun⟩⟩)
    refine wp_bind.2 (wp_mono ?_ (reserve_wp h))
    rintro g' r ⟨hok, hauth⟩
    cases r with
    | error e => exact ⟨hauth, nofun⟩
    | ok u =>
      obtain rfl := hok rfl
      refine wp_ofExcept.2 ⟨hauth, fun q hq => ?_⟩
      obtain ⟨hmethod, hbody, hsigns, hkey⟩ := signedRequest_ok hq
      exact ⟨⟨nonce, rfl, hsigns⟩, hmethod, hbody, hkey⟩

omit [Hashlib] in
theorem finishWith_wp {g : Phase} {record : PreparedWrite} {e : Ending}
    (hg : g.begun = some record)
    (h : Ends record g e.state e.orderCode e.retryNotBefore) :
    wp adapterProtocol (fun _ _ => True) g (finishWith g.operationId e) := by
  unfold finishWith
  refine wp_bind.2 (wp_perform.2 ⟨⟨rfl, record, hg, h⟩, fun r => ?_⟩)
  cases r <;> trivial

omit [Hashlib] in
theorem conclude_wp {g : Phase} {record : PreparedWrite} {now : Int}
    {reply : Except Exc VietShareResponse} (hg : g.begun = some record)
    (hr : g.reply = some reply) :
    wp adapterProtocol (fun _ _ => True) g (conclude g.operationId record now reply) := by
  cases reply with
  | error e =>
    show wp _ _ _ (if e.isException = true then _ else _)
    by_cases he : e.isException = true
    · have hlost : Ends record g .unknown none none :=
        .lost fun response h => by rw [hr] at h; cases h
      rw [if_pos he]
      exact finishWith_wp (e := .lost) hg hlost
    · rw [if_neg he]
      trivial
  | ok response =>
    unfold conclude
    refine wp_bind.2 (wp_ofExcept.2 ?_)
    cases hc : errorCode response.body with
    | error e => trivial
    | ok code =>
      refine wp_bind.2 ?_
      have hend {g' : Phase} (hop : g'.operationId = g.operationId)
        (hbegun : g'.begun = some record)
          (hreply : g'.reply = some (.ok response)) {receivedAt : Int}
          (hreceipt : asksToWait response.statusCode code = true → g'.receipt = some receivedAt) :
          wp adapterProtocol (fun _ _ => True) g' (do
            let e ← .ofExcept (classify record response code receivedAt)
            finishWith g.operationId e) := by
        refine wp_bind.2 (wp_ofExcept.2 ?_)
        cases he : classify record response code receivedAt with
        | error e => trivial
        | ok e =>
          show wp adapterProtocol _ g' (finishWith g.operationId e)
          rw [← hop]
          exact finishWith_wp hbegun (.read hreply hc hreceipt he)
      unfold receiptTime
      split
      · refine wp_perform.2 ⟨trivial, fun r => ?_⟩
        cases r with
        | error e => trivial
        | ok t =>
          have hnext : g.next .clock (.ok t) = { g with receipt := some t } := by
            show g.read t = _
            rw [Phase.read, hr]
            rfl
          show wp adapterProtocol (fun _ _ => True) (g.next .clock (.ok t)) _
          rw [hnext]
          exact @hend { g with receipt := some t } rfl hg hr t fun _ => rfl
      · next hn => exact @hend g rfl hg hr now fun hw => absurd (.inl hw) hn

theorem signed_wp {credentials : VietShareCredentials} {g : Phase} {record : PreparedWrite}
    {now : Int} (hg : g.begun = some record) (ha : g.auth = none) (hr : g.reply = none) :
    wp adapterProtocol (fun g' r => ∀ q, r = .ok q → g'.operationId = g.operationId ∧
        g'.begun = some record ∧ adapterProtocol.ok g' (.send g.operationId q))
      g (signed credentials g.operationId record now) := by
  unfold signed
  refine wp_bind.2 (wp_attempt.2 (wp_mono ?_ (request_wp ha)))
  rintro g' r ⟨⟨auth, rfl⟩, hok⟩
  cases r with
  | ok q =>
    obtain ⟨⟨nonce, hauth, hsigns⟩, hmethod, hbody, hkey⟩ := hok q rfl
    intro q' hq'
    cases hq'
    exact ⟨rfl, hg, rfl, hr, ⟨now, nonce, hauth, hsigns⟩,
      fun _ => ⟨record, hg, hkey _ rfl, hbody⟩⟩
  | error e =>
    show wp _ _ _ (if isContract e = true then _ else _)
    split
    · refine wp_bind.2 (wp_perform.2 ⟨⟨rfl, record, hg, .lost fun response h => ?_⟩, fun r => ?_⟩)
      · replace h : g.reply = _ := h
        rw [hr] at h
        cases h
      · cases r <;> exact nofun
    · exact nofun

theorem submit_follows (credentials : VietShareCredentials) (operationId : Str) :
    wp adapterProtocol (fun _ _ => True) (.start operationId)
      (submit credentials operationId) := by
  unfold submit
  refine wp_bind.2 (wp_perform.2 ⟨trivial, fun r => ?_⟩)
  cases r with
  | error e => trivial
  | ok now =>
    refine wp_bind.2 (wp_ensure.2 ⟨fun _ => ?_, fun _ => trivial⟩)
    refine wp_bind.2 (wp_perform.2 ⟨⟨rfl, rfl, rfl, rfl, rfl⟩, fun r => ?_⟩)
    cases r with
    | error e => trivial
    | ok record =>
      cases record with
      | none =>
        refine wp_bind.2 (wp_perform.2 ⟨trivial, fun r => ?_⟩)
        cases r with
        | error e => trivial
        | ok previous => exact wp_ofExcept.2 trivial
      | some record =>
        refine wp_bind.2 (wp_mono ?_ (signed_wp (g := { Phase.start operationId with
          now := some now
          begun := some record }) rfl rfl rfl))
        rintro g' r hok
        cases r with
        | error e => trivial
        | ok q =>
          obtain ⟨hop, hbegun, hsend⟩ := hok q rfl
          refine wp_bind.2 (wp_attempt.2 (wp_perform.2 ⟨hsend, fun r => ?_⟩))
          show wp _ _ _ (conclude operationId record now r)
          rw [← show g'.operationId = operationId from hop]
          exact conclude_wp (g := adapterProtocol.next g' _ r) hbegun rfl

theorem getDeliveredOrder_follows (credentials : VietShareCredentials) (operationId : Str) :
    wp adapterProtocol (fun _ _ => True) (.start operationId)
      (getDeliveredOrder credentials operationId) := by
  unfold getDeliveredOrder
  refine wp_bind.2 (wp_perform.2 ⟨trivial, fun r => ?_⟩)
  have hg : adapterProtocol.next (.start operationId) (.journal (.get operationId)) r =
      .start operationId := by cases r <;> rfl
  rw [hg]
  cases r with
  | error e => trivial
  | ok stored =>
    refine wp_bind.2 (wp_ofExcept.2 ?_)
    cases completedRecord stored with
    | error e => trivial
    | ok rc =>
      refine wp_bind.2 (wp_perform.2 ⟨trivial, fun r => ?_⟩)
      cases r with
      | error e => trivial
      | ok now =>
        refine wp_bind.2 (wp_mono ?_ (request_wp (g := (Phase.start operationId).read now) rfl))
        rintro g' r ⟨⟨auth, rfl⟩, hok⟩
        cases r with
        | error e => trivial
        | ok q =>
          obtain ⟨⟨nonce, hauth, hsigns⟩, hmethod, -⟩ := hok q rfl
          refine wp_bind.2 (wp_attempt.2 (wp_perform.2 ⟨⟨rfl, rfl, ⟨now, nonce, hauth, hsigns⟩,
            fun h => ?_⟩, fun r => wp_ofExcept.2 trivial⟩))
          rw [isPost, hmethod] at h
          exact absurd h (by decide)

/-- The operation that a call is for. -/
def AdapterCall.operationId : AdapterCall → Str
  | .prepare operationId _ _ | .submit _ operationId | .markInterruptedUnknown operationId
  | .getDeliveredOrder _ operationId => operationId

/-- **Every call follows the protocol.** -/
theorem body_follows (c : AdapterCall) :
    wp adapterProtocol (fun _ _ => True) (.start c.operationId) c.body := by
  cases c with
  | prepare operationId key purchase =>
    unfold AdapterCall.body prepareOrder
    refine wp_bind.2 (wp_bind.2 (wp_ensure.2 ⟨fun _ => ?_, fun _ => trivial⟩))
    refine wp_bind.2 (wp_ofExcept.2 ?_)
    cases purchase.rawBody with
    | error e => trivial
    | ok body =>
      refine wp_bind.2 (wp_perform.2 ⟨rfl, fun r => ?_⟩)
      cases r <;> trivial
  | submit credentials operationId =>
    refine wp_bind.2 (wp_mono (fun g r _ => ?_) (submit_follows credentials operationId))
    cases r <;> trivial
  | markInterruptedUnknown operationId =>
    refine wp_bind.2 (wp_perform.2 ⟨⟨rfl, rfl⟩, fun r => ?_⟩)
    cases r <;> trivial
  | getDeliveredOrder credentials operationId =>
    refine wp_bind.2 (wp_mono (fun g r _ => ?_)
      (getDeliveredOrder_follows credentials operationId))
    cases r <;> trivial

end

end NyanShopBot.VietShare.Offline
