import NyanShopBot.Conc.System
import NyanShopBot.VietShare.Journal

/-!
# The offline write adapter

`submit` and `get_delivered_order` of `VietShareOfflineWriteAdapter` as programs
over what they await: a journal transaction, the clock, the nonce source and the
transport. `classify` is what each kind of response ends an attempt with.
`adapterSystem` runs any number of calls over one journal.
-/

namespace NyanShopBot.VietShare.Offline

open Py Db Conc

inductive WriteState where
  | completed | inProgress | unknown | mismatch | replayedRequest | rejected
deriving DecidableEq

structure WriteOutcome where
  state : WriteState
  order : Option CompletedOrder
  retryAfterSeconds : Option PyFloat
  errorCode : Option Str
deriving DecidableEq

def WriteOutcome.of (state : WriteState) : WriteOutcome := ⟨state, none, none, none⟩

/-- What a call awaits. The transport gets the request; the operation it is sent
for goes along. -/
inductive AdapterOp where
  | journal (op : JournalOp)
  | clock
  | nonceSource
  | send (operationId : Str) (request : VietShareRequest)

abbrev AdapterOp.Res : AdapterOp → Type
  | .journal op => op.Res
  | .clock => Int
  | .nonceSource => Str
  | .send _ _ => VietShareResponse

abbrev adapterSig : Sig := ⟨AdapterOp, AdapterOp.Res⟩

abbrev Adapter (α : Type) := Prog adapterSig Exc α

abbrev awaitJournal (op : JournalOp) : Adapter op.Res :=
  Prog.perform (S := adapterSig) (.journal op)

/-! ## Requests -/

/-- `reserve_auth`, whose conflict is an error of the contract. -/
def reserve (operationId : Str) (now : Int) (nonce : Str) : Adapter Unit := do
  match ← (awaitJournal (.reserveAuth operationId now nonce)).attempt with
  | .ok () => return ()
  | .error (.journal _) => .raise (.contract "Signing timestamp or nonce was previously used")
  | .error e => .raise e

/-- `_request`. -/
def request [Hashlib] (credentials : VietShareCredentials) (operationId method path : Str)
    (rawBody : Bytes) (now : Int) (key : Option Str) : Adapter VietShareRequest := do
  let nonce ← .perform (S := adapterSig) .nonceSource
  .ensure (0 ≤ now ∧ 12 ≤ nonce.length ∧ nonce.length ≤ 128 ∧ hasLineBreak nonce = false)
    (.contract "Invalid or reused signing timestamp/nonce")
  reserve operationId now nonce
  .ofExcept (signedRequest credentials method path now nonce key rawBody (sha256Hex rawBody))

/-! ## Completed orders -/

/-- `tuple(value)`, none where it raises `TypeError`. -/
def tupleOf : Json → Option (List Json)
  | .arr items => some items
  | .str s => some (s.map fun c => .str [c])
  | .obj members => some (members.map fun m => .str m.1)
  | _ => none

def intOf : Json → Option Int
  | .int n => some n
  | _ => none

/-- A field that can be missing or `None`. -/
def optional {α : Type} (of : Json → Option α) : Json → Option (Option α)
  | .null => some none
  | value => (of value).map some

/-- The purchase of a stored body; none stands for the errors of the constructor
and of a body that lacks a field. -/
def purchaseOf (document : Json) : Option OrderPurchase := do
  let data ← members document
  let productId ← intOf (← Json.get? data (str "product_id"))
  let quantity ← intOf (← Json.get? data (str "quantity"))
  let maxUnitPrice ← intOf (← Json.get? data (str "max_unit_price"))
  let currency ← text (← Json.get? data (str "currency"))
  let emails ← tupleOf ((Json.get? data (str "supplier_emails")).getD (.arr []))
  let supplierEmails ← emails.mapM text
  let couponCode ← optional text (Json.get data (str "coupon_code"))
  let flashSaleId ← optional intOf (Json.get data (str "flash_sale_id"))
  (OrderPurchase.make productId quantity maxUnitPrice currency supplierEmails couponCode
    flashSaleId).toOption

section

variable [Stdlib]

/-- The order of a 200 response, none where its error is caught. -/
def readOrder (record : PreparedWrite) (response : VietShareResponse) :
    Except Exc (Option CompletedOrder) :=
  match Stdlib.jsonLoads record.body with
  | .error e => if e.isValue then .ok none else .error e
  | .ok document =>
    match purchaseOf document with
    | none => .ok none
    | some purchase =>
      match parseOrderResponse response.body record.idempotencyKey purchase with
      | .ok order => .ok (some order)
      | .error e => if e.isValue then .ok none else .error e

/-! ## Submitting -/

/-- How an attempt ends, and what is returned. -/
structure Ending where
  state : JournalState
  orderCode : Option Str
  retryNotBefore : Option PyFloat
  outcome : WriteOutcome

/-- `x or 1.0`. -/
def waitSeconds : Option PyFloat → PyFloat
  | none => .finite 1
  | some x => if x = .finite 0 then .finite 1 else x

/-- `received_at + (retry_after or 1.0)`. -/
def deadline (receivedAt : Int) (retryAfter : Option PyFloat) : Except Exc PyFloat :=
  match PyFloat.ofInt receivedAt with
  | none => .error .exception
  | some t => .ok (t.add (waitSeconds retryAfter))

/-- The statuses of a rejection. -/
def isRejection (status : Int) : Bool := [400, 401, 402, 403, 404, 409, 422].contains status

/-- The response asks to wait. -/
def asksToWait (status : Int) (code : Option Str) : Bool :=
  status = 202 || code = some (str "REQUEST_IN_PROGRESS")

def classify (record : PreparedWrite) (response : VietShareResponse) (code : Option Str)
    (receivedAt : Int) : Except Exc Ending := do
  let retry := retryAfter response.headers (.int receivedAt)
  if asksToWait response.statusCode code then
    let notBefore ← deadline receivedAt retry
    .ok ⟨.inProgress, none, some notBefore, ⟨.inProgress, none, retry, none⟩⟩
  else if code = some (str "REPLAYED_REQUEST") then
    .ok ⟨.replayedRequest, none, none, ⟨.replayedRequest, none, none, code⟩⟩
  else if code = some (str "IDEMPOTENCY_MISMATCH") then
    .ok ⟨.mismatch, none, none, ⟨.mismatch, none, none, code⟩⟩
  else if response.statusCode = 200 then
    match ← readOrder record response with
    | none => .ok ⟨.unknown, none, none, .of .unknown⟩
    | some order =>
      .ok ⟨.completed, some order.orderCode, none, ⟨.completed, some order, none, none⟩⟩
  else if isRejection response.statusCode ∧ code.isSome then
    .ok ⟨.rejected, none, none, ⟨.rejected, none, none, code⟩⟩
  else .ok ⟨.unknown, none, none, ⟨.unknown, none, retry, code⟩⟩

def finishWith (operationId : Str) (e : Ending) : Adapter WriteOutcome := do
  awaitJournal (.finishAttempt operationId e.state e.orderCode e.retryNotBefore)
  return e.outcome

/-- An attempt that ends without a reading of a response. -/
def Ending.lost : Ending := ⟨.unknown, none, none, .of .unknown⟩

/-- The clock, where the response makes it matter. -/
def receiptTime (response : VietShareResponse) (code : Option Str) (now : Int) : Adapter Int :=
  if asksToWait response.statusCode code ∨ response.headers.retryAfter?.isSome then
    .perform (S := adapterSig) .clock
  else .ret now

/-- The part of `submit` after the transport. -/
def conclude (operationId : Str) (record : PreparedWrite) (now : Int) :
    Except Exc VietShareResponse → Adapter WriteOutcome
  | .error e => if e.isException then finishWith operationId .lost else .raise e
  | .ok response => do
    let code ← .ofExcept (errorCode response.body)
    let receivedAt ← receiptTime response code now
    let e ← .ofExcept (classify record response code receivedAt)
    finishWith operationId e

/-- What is returned where no attempt can begin. -/
def refused (now : Int) : Option PreparedWrite → Except Exc WriteOutcome
  | none => .error (.contract "Order must be durably prepared before dispatch")
  | some previous =>
    match previous.state with
    | .completed => .ok (.of .completed)
    | .mismatch => .ok (.of .mismatch)
    | .rejected => .ok (.of .rejected)
    | _ =>
      match previous.retryNotBefore, PyFloat.ofInt now with
      | none, _ => .ok (.of .inProgress)
      | some x, some n => .ok ⟨.inProgress, none, some (x.sub n).max0, none⟩
      | some _, none => .error .exception

def isContract : Exc → Bool
  | .contract _ => true
  | _ => false

variable [Hashlib]

/-- The request of a begun attempt. An error of the contract ends the attempt. -/
def signed (credentials : VietShareCredentials) (operationId : Str) (record : PreparedWrite)
    (now : Int) : Adapter VietShareRequest := do
  match ← (request credentials operationId (str "POST") ordersPath record.body now
      (some record.idempotencyKey)).attempt with
  | .ok r => return r
  | .error e => do
    if isContract e then
      awaitJournal (.finishAttempt operationId .unknown none none)
      .raise e
    else .raise e

def submit (credentials : VietShareCredentials) (operationId : Str) : Adapter WriteOutcome := do
  let now ← .perform (S := adapterSig) .clock
  .ensure (0 ≤ now) (.contract "Invalid signing timestamp")
  match ← awaitJournal (.beginAttempt operationId now) with
  | none => do
    let previous ← awaitJournal (.get operationId)
    .ofExcept (refused now previous)
  | some record => do
    let r ← signed credentials operationId record now
    let reply ← (Prog.perform (S := adapterSig) (.send operationId r)).attempt
    conclude operationId record now reply

/-! ## Reading back -/

/-- The completed record of an operation, with its order code. -/
def completedRecord : Option PreparedWrite → Except Exc (PreparedWrite × Str)
  | some record =>
    match record.state, record.orderCode with
    | .completed, some code =>
      if isOrderCode code then .ok (record, code)
      else .error (.contract "Invalid stored order code")
    | _, _ => .error (.contract "A completed order code is required for delivery lookup")
  | none => .error (.contract "A completed order code is required for delivery lookup")

/-- What a delivery lookup makes of the reply. -/
def readBack (record : PreparedWrite) (code : Str) (now : Int) :
    Except Exc VietShareResponse → Except Exc WriteOutcome
  | .error e => if e.isException then .ok (.of .unknown) else .error e
  | .ok response => do
    if response.statusCode ≠ 200 then
      .ok ⟨.unknown, none, retryAfter response.headers (.int now), none⟩
    else
      match ← readOrder record response with
      | some order =>
        if order.orderCode = code then .ok ⟨.completed, some order, none, none⟩
        else .ok (.of .unknown)
      | none => .ok (.of .unknown)

def getDeliveredOrder (credentials : VietShareCredentials) (operationId : Str) :
    Adapter WriteOutcome := do
  let stored ← awaitJournal (.get operationId)
  let (record, code) ← .ofExcept (completedRecord stored)
  let now ← .perform (S := adapterSig) .clock
  let r ← request credentials operationId (str "GET") (ordersPath ++ str "/" ++ code) [] now none
  let reply ← (Prog.perform (S := adapterSig) (.send operationId r)).attempt
  .ofExcept (readBack record code now reply)

/-- `prepare`, with the purchase that makes the body. -/
def prepareOrder (operationId key : Str) (purchase : OrderPurchase) : Adapter Unit := do
  .ensure (isKey key) (.contract "Invalid Idempotency-Key")
  let body ← .ofExcept purchase.rawBody
  let _ ← awaitJournal (.prepare operationId key body)

/-! ## The system -/

inductive AdapterCall where
  | prepare (operationId key : Str) (purchase : OrderPurchase)
  | submit (credentials : VietShareCredentials) (operationId : Str)
  | markInterruptedUnknown (operationId : Str)
  | getDeliveredOrder (credentials : VietShareCredentials) (operationId : Str)

/-- Only a submit and a lookup return an outcome. -/
def AdapterCall.body : AdapterCall → Adapter (Option WriteOutcome)
  | .prepare operationId key purchase => do
    prepareOrder operationId key purchase
    return none
  | .submit credentials operationId => do
    return some (← Offline.submit credentials operationId)
  | .markInterruptedUnknown operationId => do
    awaitJournal (.markInterruptedUnknown operationId)
    return none
  | .getDeliveredOrder credentials operationId => do
    return some (← Offline.getDeliveredOrder credentials operationId)

/-- The journal, with the last reading of the clock. -/
structure JournalDb where
  tables : Store
  clock : Int

/-- What a database can fail with. -/
def isFailure : Exc → Bool
  | .database | .exception | .fatal => true
  | _ => false

/-- What one awaited operation can return and leave stored: a transaction runs
and commits, or its caller sees an exception and it is rolled back or committed
all the same; the rest returns or raises what it likes. -/
def AdapterEffect (s : JournalDb) :
    (op : AdapterOp) → Except Exc op.Res → JournalDb → Prop
  | .journal op, r, s' => s'.clock = s.clock ∧ ((r, s'.tables) = op.exec s.tables ∨
      ∃ e, r = .error e ∧ isFailure e = true ∧
        (s'.tables = s.tables ∨ s'.tables = (op.exec s.tables).2))
  | .clock, r, s' => s'.tables = s.tables ∧ ∀ t, r = .ok t → s'.clock = t
  | .nonceSource, _, s' => s' = s
  | .send _ _, _, s' => s' = s

/-- **Any number of calls over one journal.** -/
abbrev adapterSystem : System adapterSig Exc where
  Store := JournalDb
  Call := AdapterCall
  Out := Option WriteOutcome
  body := AdapterCall.body
  eff := AdapterEffect

end

end NyanShopBot.VietShare.Offline
