import NyanShopBot.Conc.System
import NyanShopBot.Db.Table
import NyanShopBot.Py.Json

/-!
# The KhoMMO write contract

The supplier documents no idempotency key, so `OfflineOrderJournal` is what keeps
an order from being sent twice. Its operations are SQLite transactions,
`JournalOp.exec`; the calls of `KhoMmoOfflineOrderAdapter` are programs over them
and the transport. `adapterSystem` runs any number of calls over one journal.
-/

namespace NyanShopBot.Khommo

open Py Db Conc

/-- What a call can raise: an `OrderContractError`, another `ValueError`, a database
error, any other `Exception`, and the `BaseException`s that `except Exception`
lets through. -/
inductive Exc where
  | contract (message : String)
  | value
  | database
  | exception
  | cancelled
  | fatal
deriving DecidableEq

/-- `isinstance(e, Exception)`. -/
def Exc.isException : Exc → Bool
  | cancelled | fatal => false
  | _ => true

/-! ## Requests -/

/-- `"\r" in s or "\n" in s`. -/
def hasLineBreak (s : Str) : Bool := s.any fun c => c.val == 0x0d || c.val == 0x0a

/-- A bearer token; `valid` is what `__post_init__` checks. -/
structure KhoMmoToken where
  value : Str
  valid : value ≠ [] ∧ hasLineBreak value = false

/-- An order; `valid` is what `__post_init__` checks. -/
structure CreateOrder where
  productId : Str
  quantity : Int
  paymentMode : Str
  valid : productId ≠ [] ∧ hasLineBreak productId = false ∧ 0 < quantity ∧
    (paymentMode = str "CREDIT" ∨ paymentMode = str "VND")

namespace CreateOrder

def make (productId : Str) (quantity : Int) (paymentMode : Str) : Except Exc CreateOrder :=
  if h : productId ≠ [] ∧ hasLineBreak productId = false ∧ 0 < quantity ∧
      (paymentMode = str "CREDIT" ∨ paymentMode = str "VND") then
    .ok ⟨productId, quantity, paymentMode, h⟩
  else .error (.contract "Invalid documented KhoMMO order fields")

/-- A number of more than 4300 digits is not written. -/
def rawBody (order : CreateOrder) : Except Exc Bytes :=
  if 4300 < (intStr order.quantity).length then .error .value
  else match encodeUtf8 (Json.compact (.obj [(str "productId", .str order.productId),
      (str "quantity", .int order.quantity), (str "paymentMode", .str order.paymentMode)])) with
    | some body => .ok body
    | none => .error .value

end CreateOrder

structure OfflineOrderRequest where
  method : Str
  url : Str
  headers : List (Str × Str)
  body : Bytes
deriving DecidableEq

structure KhoMmoResponse where
  statusCode : Int
  body : Bytes
deriving DecidableEq

def productionBaseUrl : Str := str "https://api.khommo.vn/api/partner/v1"

def ordersPath : Str := str "/orders"

/-- `_request`. -/
def request (token : KhoMmoToken) (method path : Str) (body : Bytes) : OfflineOrderRequest where
  method := method
  url := productionBaseUrl ++ path
  headers := (str "Authorization", str "Bearer " ++ token.value) ::
    if method = str "POST" then [(str "Content-Type", str "application/json")] else []
  body := body

/-! ## Tables -/

inductive OrderState where
  | prepared | dispatched | unknownReconciling
deriving DecidableEq

/-- A row of `khommo_offline_orders`. -/
structure OrderRow where
  operationId : Str
  body : Bytes
  state : OrderState
  httpStatus : Option Int
deriving DecidableEq

def OrderRow.new (operationId : Str) (body : Bytes) : OrderRow :=
  ⟨operationId, body, .prepared, none⟩

def OrderRow.dispatched (r : OrderRow) : OrderRow := { r with state := .dispatched }

/-- The update of a row that is `DISPATCHED`. -/
def OrderRow.observed (httpStatus : Option Int) (r : OrderRow) : OrderRow :=
  if r.state = .dispatched then
    { r with state := .unknownReconciling, httpStatus := httpStatus }
  else r

structure Tables where
  orders : List OrderRow

namespace Tables

def OrdersOk (t : Tables) : Prop := (t.orders.map (·.operationId)).Nodup

instance (t : Tables) : Decidable t.OrdersOk := inferInstanceAs (Decidable (List.Nodup _))

def row? (t : Tables) (operationId : Str) : Option OrderRow :=
  lookup OrderRow.operationId t.orders operationId

def setRow (t : Tables) (operationId : Str) (f : OrderRow → OrderRow) : Tables :=
  { t with orders := modify OrderRow.operationId t.orders operationId f }

end Tables

/-- The primary key of the table; there are no triggers. -/
def orderSchema : Schema Tables where
  Valid t := t.OrdersOk
  Trigger _ _ := True
  decValid _ := inferInstanceAs (Decidable (List.Nodup _))
  decTrigger _ _ := inferInstanceAs (Decidable True)

abbrev Store := orderSchema.Store

def Store.empty : Store := ⟨⟨[]⟩, by decide⟩

abbrev OrderTx := Tx Store Exc

/-! ## The journal -/

inductive UnknownOrderState where
  | unknownReconciling | notDispatched
deriving DecidableEq

structure OrderObservation where
  state : UnknownOrderState
  httpStatus : Option Int
deriving DecidableEq

/-- A text parameter that can be bound. -/
def isUtf8 (s : Str) : Bool := !s.any isSurrogate

/-- An integer parameter that can be bound. -/
def isInt64 (n : Int) : Bool := -0x8000000000000000 ≤ n && n ≤ 0x7fffffffffffffff

/-- The row that is there already, or a new one. -/
def prepareRow (operationId : Str) (body : Bytes) : Option OrderRow → OrderTx Unit
  | some row =>
    Tx.ensure (row.body = body) (.contract "Operation already has different order bytes")
  | none => orderSchema.execute .database fun t =>
      { t with orders := t.orders ++ [.new operationId body] }

def prepare (operationId : Str) (body : Bytes) : OrderTx Unit := do
  Tx.ensure (operationId ≠ []) (.contract "Invalid offline order identity")
  Tx.ensure (isUtf8 operationId) .value
  let t ← Tx.query Subtype.val
  prepareRow operationId body (t.row? operationId)

/-- What is dispatched: the body of the row that was updated. -/
def dispatchRow (operationId : Str) : Option OrderRow → OrderTx (Option Bytes)
  | none => pure none
  | some row => do
    orderSchema.execute .database (·.setRow operationId .dispatched)
    return some row.body

def dispatchOnce (operationId : Str) : OrderTx (Option Bytes) := do
  Tx.ensure (isUtf8 operationId) .value
  let t ← Tx.query Subtype.val
  dispatchRow operationId ((t.row? operationId).filter (·.state = .prepared))

def observe (operationId : Str) (httpStatus : Option Int) : OrderTx Unit := do
  Tx.ensure (httpStatus.all isInt64) .exception
  Tx.ensure (isUtf8 operationId) .value
  orderSchema.execute .database (·.setRow operationId (.observed httpStatus))

/-- What a row says about its order. -/
def observation : Option OrderRow → OrderObservation
  | none => ⟨.notDispatched, none⟩
  | some row =>
    if row.state = .prepared then ⟨.notDispatched, none⟩
    else ⟨.unknownReconciling, row.httpStatus⟩

def state (operationId : Str) : OrderTx OrderObservation := do
  Tx.ensure (isUtf8 operationId) .value
  let t ← Tx.query Subtype.val
  return observation (t.row? operationId)

inductive JournalOp where
  | prepare (operationId : Str) (body : Bytes)
  | dispatchOnce (operationId : Str)
  | observe (operationId : Str) (httpStatus : Option Int)
  | state (operationId : Str)

namespace JournalOp

abbrev Res : JournalOp → Type
  | prepare _ _ | observe _ _ => Unit
  | dispatchOnce _ => Option Bytes
  | state _ => OrderObservation

def body : (op : JournalOp) → OrderTx op.Res
  | prepare operationId body => Khommo.prepare operationId body
  | dispatchOnce operationId => Khommo.dispatchOnce operationId
  | observe operationId httpStatus => Khommo.observe operationId httpStatus
  | state operationId => Khommo.state operationId

/-- One operation: its result, and the store after it. -/
def exec (op : JournalOp) (s : Store) : Except Exc op.Res × Store := op.body.commit s

end JournalOp

/-! ## The adapter -/

/-- What a call does outside itself: a journal transaction, and handing a request to
the transport and waiting for its response. The operation a request is sent for
goes along, none for the status of a known order. -/
inductive AdapterOp where
  | journal (op : JournalOp)
  | send (operationId : Option Str) (request : OfflineOrderRequest)
  | receive

abbrev AdapterOp.Res : AdapterOp → Type
  | .journal op => op.Res
  | .send _ _ => Unit
  | .receive => KhoMmoResponse

abbrev adapterSig : Sig := ⟨AdapterOp, AdapterOp.Res⟩

abbrev Adapter (α : Type) := Prog adapterSig Exc α

abbrev awaitJournal (op : JournalOp) : Adapter op.Res :=
  Prog.perform (S := adapterSig) (.journal op)

/-- The part of `create_once` after the transport. -/
def conclude (operationId : Str) : Except Exc KhoMmoResponse → Adapter OrderObservation
  | .error e =>
    if e.isException then do
      awaitJournal (.observe operationId none)
      return ⟨.unknownReconciling, none⟩
    else .raise e
  | .ok response => do
    awaitJournal (.observe operationId (some response.statusCode))
    return ⟨.unknownReconciling, some response.statusCode⟩

def createOnce (token : KhoMmoToken) (operationId : Str) : Adapter OrderObservation := do
  match ← awaitJournal (.dispatchOnce operationId) with
  | none => awaitJournal (.state operationId)
  | some body => do
    .perform (S := adapterSig) (.send (some operationId)
      (request token (str "POST") ordersPath body))
    let reply ← (Prog.perform (S := adapterSig) .receive).attempt
    conclude operationId reply

/-- `[A-Za-z0-9_-]{1,128}`, which `quote` leaves as it is. -/
def isOrderNo (s : Str) : Bool :=
  1 ≤ s.length && s.length ≤ 128 && s.all fun c =>
    (0x41 ≤ c.val && c.val ≤ 0x5a) || (0x61 ≤ c.val && c.val ≤ 0x7a) ||
      (0x30 ≤ c.val && c.val ≤ 0x39) || c.val == 0x5f || c.val == 0x2d

/-- What a status lookup makes of the reply. -/
def knownStatus : Except Exc KhoMmoResponse → Except Exc OrderObservation
  | .error e => if e.isException then .ok ⟨.unknownReconciling, none⟩ else .error e
  | .ok response => .ok ⟨.unknownReconciling, some response.statusCode⟩

def getKnownOrderStatus (token : KhoMmoToken) (orderNo : Str) : Adapter OrderObservation := do
  .ensure (isOrderNo orderNo) (.contract "A path-safe known order number is required")
  .perform (S := adapterSig) (.send none
    (request token (str "GET") (ordersPath ++ str "/" ++ orderNo) []))
  let reply ← (Prog.perform (S := adapterSig) .receive).attempt
  .ofExcept (knownStatus reply)

/-! ## The system -/

/-- The calls of the adapter, and of its journal from outside. -/
inductive AdapterCall where
  | prepare (operationId : Str) (order : CreateOrder)
  | prepareBody (operationId : Str) (body : Bytes)
  | createOnce (token : KhoMmoToken) (operationId : Str)
  | state (operationId : Str)
  | getKnownOrderStatus (token : KhoMmoToken) (orderNo : Str)

/-- Preparing returns nothing. -/
def AdapterCall.body : AdapterCall → Adapter (Option OrderObservation)
  | .prepare operationId order => do
    let body ← .ofExcept order.rawBody
    awaitJournal (.prepare operationId body)
    return none
  | .prepareBody operationId body => do
    awaitJournal (.prepare operationId body)
    return none
  | .createOnce token operationId => do
    return some (← Khommo.createOnce token operationId)
  | .state operationId => do
    return some (← awaitJournal (.state operationId))
  | .getKnownOrderStatus token orderNo => do
    return some (← Khommo.getKnownOrderStatus token orderNo)

/-- What a database can fail with. -/
def isFailure : Exc → Bool
  | .database | .exception | .fatal => true
  | _ => false

/-- What one operation can return and leave stored: a transaction runs and commits,
or its caller sees an exception and it is rolled back or committed all the same;
the transport answers or raises what it likes. -/
def AdapterEffect (s : Store) : (op : AdapterOp) → Except Exc op.Res → Store → Prop
  | .journal op, r, s' => (r, s') = op.exec s ∨
      ∃ e, r = .error e ∧ isFailure e = true ∧ (s' = s ∨ s' = (op.exec s).2)
  | .send _ _, r, s' => r = .ok () ∧ s' = s
  | .receive, _, s' => s' = s

/-- **Any number of calls over one journal.** -/
abbrev adapterSystem : System adapterSig Exc where
  Store := Store
  Call := AdapterCall
  Out := Option OrderObservation
  body := AdapterCall.body
  eff := AdapterEffect

end NyanShopBot.Khommo
