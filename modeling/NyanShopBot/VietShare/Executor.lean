import NyanShopBot.Conc.System
import NyanShopBot.VietShare.PgGate

/-!
# The executor of the PostgreSQL gate

`submit` of `VietSharePgOfflineExecutor` as a program over what it awaits: a gate
transaction, the signing clock, the nonce source and the transport. `conclude`
is its part after the transport, `classify` what each kind of response is
completed with. `gateSystem` runs any number of submits and of single gate
operations over one database.
-/

namespace NyanShopBot.VietShare

open Py Db Conc

/-- What the transport hands back. -/
inductive Reply where
  | response (r : VietShareResponse)
  | other
deriving DecidableEq

structure GateOutcome where
  state : GateState
  retryAfterSeconds : Option PyFloat
  errorCode : Option Str
deriving DecidableEq

/-- What a submit awaits. -/
inductive ExecutorOp where
  | gate (op : GateOp)
  | clock
  | nonceSource
  | send (request : VietShareRequest)

abbrev ExecutorOp.Res : ExecutorOp → Type
  | .gate op => op.Res
  | .clock => Option Int
  | .nonceSource => Option Str
  | .send _ => Reply

abbrev executorSig : Sig := ⟨ExecutorOp, ExecutorOp.Res⟩

abbrev Executor (α : Type) := Prog executorSig Exc α

abbrev awaitGate (op : GateOp) : Executor op.Res := Prog.perform (S := executorSig) (.gate op)

/-- `finish`, and the outcome that is returned after it. -/
def finishWith (testId nonce : Str) (c : Completion) (outcome : GateOutcome) :
    Executor GateOutcome := do
  awaitGate (.finish testId nonce c)
  return outcome

/-- A completion that keeps the status and the header of the response. -/
def VietShareResponse.completion (r : VietShareResponse) (state : GateState)
    (delay : Option PyFloat) (orderCode errorCode : Option Str) : Completion where
  state := state
  retryDelaySeconds := delay.map fun d => some (.float d)
  httpStatus := some r.statusCode
  retryAfterHeader := r.headers.retryAfter?.map some
  orderCode := orderCode
  errorCode := errorCode

/-- A completion without a response. -/
def Completion.lost (errorCode : Str) : Completion :=
  ⟨.unknown, none, none, none, none, some errorCode⟩

section

variable [Stdlib]

/-- The order of a 200 response. -/
def GateRecord.parseOrder (record : GateRecord) (response : VietShareResponse) :
    Except Exc CompletedOrder := do
  let purchase ← OrderPurchase.make record.productId record.quantity record.maxUnitPriceVnd
    (str "VND") [] none none
  parseOrderResponse response.body record.idempotencyKey purchase

/-- What a response is completed with, and what is returned. -/
def classify (record : GateRecord) (response : VietShareResponse) (code : Option Str)
    (retry : Option PyFloat) : Except Exc (Completion × GateOutcome) :=
  if response.statusCode = 202 ∨ code = some (str "REQUEST_IN_PROGRESS") then
    .ok (response.completion .reconciling (some (retry.getD (.finite 1))) none code,
      ⟨.reconciling, retry, code⟩)
  else if code = some (str "REPLAYED_REQUEST") then
    .ok (response.completion .reconciling none none code, ⟨.reconciling, none, code⟩)
  else if code = some (str "IDEMPOTENCY_MISMATCH") then
    .ok (response.completion .reconciling none none code, ⟨.reconciling, none, code⟩)
  else if response.statusCode = 200 then
    match record.parseOrder response with
    | .error e =>
      if e.isValue then
        .ok (response.completion .unknown none none (some (str "INVALID_RESPONSE")),
          ⟨.unknown, none, none⟩)
      else .error e
    | .ok order =>
      if record.absoluteSpendCapVnd < order.supplierReportedTotal then
        .ok (response.completion .reconciling none (some order.orderCode)
            (some (str "SPEND_CAP_EXCEEDED")),
          ⟨.reconciling, none, some (str "SPEND_CAP_EXCEEDED")⟩)
      else
        .ok (response.completion .succeeded none (some order.orderCode) none,
          ⟨.succeeded, none, none⟩)
  else .ok (response.completion .unknown none none code, ⟨.unknown, none, code⟩)

/-- A response, read at the database clock. -/
def settle (testId nonce : Str) (record : GateRecord) (response : VietShareResponse) :
    Executor GateOutcome := do
  let code ← .ofExcept (errorCode response.body)
  let receivedAt ← awaitGate .serverNowSeconds
  let retry := retryAfter response.headers (.float receivedAt)
  let (c, outcome) ← .ofExcept (classify record response code retry)
  finishWith testId nonce c outcome

/-- The part of `submit` after the transport. -/
def conclude (testId nonce : Str) (record : GateRecord) :
    Except Exc Reply → Executor GateOutcome
  | .error e =>
    if e.isException then
      finishWith testId nonce (.lost (str "TRANSPORT_ERROR")) ⟨.unknown, none, none⟩
    else .raise e
  | .ok .other => finishWith testId nonce (.lost (str "INVALID_RESPONSE")) ⟨.unknown, none, none⟩
  | .ok (.response response) => settle testId nonce record response

variable [Hashlib]

/-- Sign the claimed test and hand it to the transport. -/
def dispatch (credentials : VietShareCredentials) (timestamp : Int) (nonce : Str)
    (record : GateRecord) : Executor Reply := do
  let request ← .ofExcept (signedRequest credentials (str "POST") ordersPath timestamp nonce
    (some record.idempotencyKey) record.rawBody record.bodySha256)
  .perform (S := executorSig) (.send request)

/-- The claim has checked that the timestamp is an `int` and the nonce a `str`. -/
def submit (credentials : VietShareCredentials) (testId : Str) (operatorId : Option Str) :
    Executor GateOutcome := do
  let timestamp ← .perform (S := executorSig) .clock
  let nonce ← .perform (S := executorSig) .nonceSource
  let record ← awaitGate (.claim testId operatorId timestamp nonce)
  let reply ← (dispatch credentials (timestamp.getD 0) (nonce.getD []) record).attempt
  conclude testId (nonce.getD []) record reply

/-! ## The system -/

/-- A submit, or one operation of the gate on its own. -/
inductive GateCall where
  | submit (credentials : VietShareCredentials) (testId : Str) (operatorId : Option Str)
  | single (op : GateOp)

/-- A single operation returns no outcome. -/
def GateCall.body : GateCall → Executor (Option GateOutcome)
  | .submit credentials testId operatorId => do
    return some (← VietShare.submit credentials testId operatorId)
  | .single op => do
    let _ ← awaitGate op
    return none

/-- The database of the gate, with the last reading of its clock. -/
structure GateDb where
  tables : Store
  clock : Int

/-- What one awaited operation can return and leave stored: a transaction runs
at a reading of the clock and commits, or its caller sees an exception and it is
rolled back or committed all the same; the rest returns or raises what it likes. -/
def GateEffect (s : GateDb) : (op : ExecutorOp) → Except Exc op.Res → GateDb → Prop
  | .gate op, r, s' => (r, s'.tables) = op.exec s'.clock s.tables ∨
      ∃ e, r = .error e ∧ (s'.tables = s.tables ∨ s'.tables = (op.exec s'.clock s.tables).2)
  | _, _, s' => s' = s

/-- **Any number of submits and gate operations over one database.** -/
abbrev gateSystem : System executorSig Exc where
  Store := GateDb
  Call := GateCall
  Out := Option GateOutcome
  body := GateCall.body
  eff := GateEffect

end

end NyanShopBot.VietShare
