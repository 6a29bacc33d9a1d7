import NyanShopBot.Db.Table
import NyanShopBot.Orders.Models

/-!
# The PostgreSQL order repository

The three order tables with the constraints of their migration, and the
operations of `PostgresOrderRepository`: `exec` runs one as a transaction. The
timestamps are left out. `RepoOp` has a constructor for each operation;
an argument whose type the code checks at run time is an `Option`, where `none`
stands for an object of another type.
-/

namespace NyanShopBot.Orders

open Py Db

/-! ## Tables -/

structure IntentRow where
  id : Str
  idempotencyKey : Str
  customerReference : Str
  productId : Str
  variantId : Str
  quantity : Int
  unitPriceMinor : Int
  maxUnitPriceMinor : Int
  currency : Str
  moneyUnit : Str
  purchaseState : PurchaseState

structure AttemptRow where
  id : Str
  orderIntentId : Str
  supplierCode : Str
  requestKey : Str
  requestFingerprint : Str
  requestPayload : Json
  status : PurchaseState
  supplierOrderReference : Option Str
  failureCode : Option Str

structure DeliveryRow where
  id : Str
  orderIntentId : Str
  attemptNumber : Int
  deliveryKey : Str
  status : DeliveryState
  failureCode : Option Str

structure Tables where
  orderIntents : List IntentRow
  supplierAttempts : List AttemptRow
  deliveryAttempts : List DeliveryRow

/-- The CHECK constraints of `order_intents`; the one on `purchase_state` is its type. -/
def IntentRow.Check (r : IntentRow) : Prop :=
  0 < r.quantity ∧ 0 ≤ r.unitPriceMinor ∧ 0 ≤ r.maxUnitPriceMinor ∧
    r.unitPriceMinor ≤ r.maxUnitPriceMinor ∧ isCurrency r.currency = true ∧
    r.moneyUnit = str "minor"

instance (r : IntentRow) : Decidable r.Check :=
  inferInstanceAs (Decidable (_ ∧ _ ∧ _ ∧ _ ∧ _ ∧ _))

namespace Tables

def OrderIntentsOk (t : Tables) : Prop :=
  (t.orderIntents.map (·.id)).Nodup ∧ (t.orderIntents.map (·.idempotencyKey)).Nodup ∧
    ∀ r ∈ t.orderIntents, r.Check

def SupplierAttemptsOk (t : Tables) : Prop :=
  (t.supplierAttempts.map (·.id)).Nodup ∧ (t.supplierAttempts.map (·.orderIntentId)).Nodup ∧
    (t.supplierAttempts.map (·.requestKey)).Nodup ∧
    (∀ r ∈ t.supplierAttempts, r.orderIntentId ∈ t.orderIntents.map (·.id)) ∧
    ∀ r ∈ t.supplierAttempts, r.requestFingerprint.length = 64

def DeliveryAttemptsOk (t : Tables) : Prop :=
  (t.deliveryAttempts.map (·.id)).Nodup ∧
    (t.deliveryAttempts.map fun r => (r.orderIntentId, r.attemptNumber)).Nodup ∧
    (t.deliveryAttempts.map (·.deliveryKey)).Nodup ∧
    (∀ r ∈ t.deliveryAttempts, r.orderIntentId ∈ t.orderIntents.map (·.id)) ∧
    ∀ r ∈ t.deliveryAttempts, 0 < r.attemptNumber

instance (t : Tables) : Decidable t.OrderIntentsOk :=
  inferInstanceAs (Decidable (_ ∧ _ ∧ _))

instance (t : Tables) : Decidable t.SupplierAttemptsOk :=
  inferInstanceAs (Decidable (_ ∧ _ ∧ _ ∧ _ ∧ _))

instance (t : Tables) : Decidable t.DeliveryAttemptsOk :=
  inferInstanceAs (Decidable (_ ∧ _ ∧ _ ∧ _ ∧ _))

end Tables

/-- The constraints of the migration; these tables have no triggers. -/
def schema : Schema Tables where
  Valid t := t.OrderIntentsOk ∧ t.SupplierAttemptsOk ∧ t.DeliveryAttemptsOk
  Trigger _ _ := True
  decValid _ := inferInstanceAs (Decidable (_ ∧ _ ∧ _))
  decTrigger _ _ := inferInstanceAs (Decidable True)

abbrev Store := schema.Store

def Store.empty : Store := ⟨⟨[], [], []⟩, by decide⟩

abbrev OrderTx := Tx Store Exc

def ofOrder {α : Type} (r : Except OrderError α) : OrderTx α := Tx.ofExcept (r.mapError .order)

/-! ## Rows as records -/

section

variable [UnicodeData]

def intentFromRow (r : IntentRow) : Except OrderError OrderIntentRecord := do
  let unitPrice ← MinorMoney.make r.unitPriceMinor r.currency r.moneyUnit
  let maxUnitPrice ← MinorMoney.make r.maxUnitPriceMinor r.currency r.moneyUnit
  return {
    id := r.id
    idempotencyKey := r.idempotencyKey
    customerReference := r.customerReference
    productId := r.productId
    variantId := r.variantId
    quantity := r.quantity
    unitPrice := unitPrice
    maxUnitPrice := maxUnitPrice
    purchaseState := r.purchaseState }

/-- The stored failure code, an error where its text names none. -/
def failureCodeFromRow : Option Str → Except OrderError (Option SafeFailureCode)
  | none => .ok none
  | some text =>
    match SafeFailureCode.ofValue text with
    | some c => .ok (some c)
    | none => .error .persistenceInvariantError

def attemptFromRow (r : AttemptRow) : Except OrderError SupplierAttemptRecord := do
  let failureCode ← failureCodeFromRow r.failureCode
  let payload ← CanonicalPurchasePayload.fromMapping r.requestPayload
  return {
    id := r.id
    orderIntentId := r.orderIntentId
    supplierCode := r.supplierCode
    requestKey := r.requestKey
    requestFingerprint := r.requestFingerprint
    requestPayload := payload
    status := r.status
    supplierOrderReference := r.supplierOrderReference
    failureCode := failureCode }

end

def deliveryFromRow (r : DeliveryRow) : DeliveryAttemptRecord :=
  ⟨r.id, r.orderIntentId, r.attemptNumber, r.deliveryKey, r.status, r.failureCode⟩

/-- The delivery rows of an intent, `ORDER BY attempt_number`. -/
def Tables.deliveriesOf (t : Tables) (intentId : Str) : List DeliveryRow :=
  (t.deliveryAttempts.filter fun r => r.orderIntentId = intentId).insertionSort
    fun a b => a.attemptNumber ≤ b.attemptNumber

/-! ## Operations -/

section

variable [UnicodeData] [Hashlib]

def load (intentId : Str) : OrderTx OrderAggregate := do
  Tx.ensure (storable intentId) .database
  let t ← Tx.query Subtype.val
  let intentRow ← Tx.getOrThrow (lookup IntentRow.id t.orderIntents intentId)
    (.order .orderNotFound)
  let attemptRow ← Tx.getOrThrow (lookup AttemptRow.orderIntentId t.supplierAttempts intentId)
    (.order .persistenceInvariantError)
  let intent ← ofOrder (intentFromRow intentRow)
  let supplierAttempt ← ofOrder (attemptFromRow attemptRow)
  let aggregate : OrderAggregate :=
    ⟨intent, supplierAttempt, (t.deliveriesOf intentId).map deliveryFromRow⟩
  ofOrder (assertAggregateInvariants aggregate)
  return aggregate

def loadByKey (idempotencyKey : Str) : OrderTx OrderAggregate := do
  Tx.ensure (storable idempotencyKey) .database
  let t ← Tx.query Subtype.val
  let row ← Tx.getOrThrow (lookup IntentRow.idempotencyKey t.orderIntents idempotencyKey)
    (.order .persistenceInvariantError)
  load row.id

/-- The values of `order_intents` as its columns take them. -/
def IntentRow.ofRecord (i : OrderIntentRecord) : Option IntentRow := do
  return {
    id := ← varchar 36 i.id
    idempotencyKey := ← varchar 128 i.idempotencyKey
    customerReference := ← varchar 128 i.customerReference
    productId := ← varchar 128 i.productId
    variantId := ← varchar 128 i.variantId
    quantity := i.quantity
    unitPriceMinor := i.unitPrice.amountMinor
    maxUnitPriceMinor := i.maxUnitPrice.amountMinor
    currency := ← varchar 8 i.unitPrice.currency
    moneyUnit := ← varchar 32 i.unitPrice.unit
    purchaseState := .prepared }

/-- `INSERT … ON CONFLICT (idempotency_key) DO NOTHING RETURNING id`; the CHECK
constraints come before the conflict. -/
def insertIntent (intent : OrderIntentRecord) : OrderTx (Option Str) := do
  let row ← Tx.getOrThrow (IntentRow.ofRecord intent) .database
  Tx.ensure row.Check .database
  let t ← Tx.query Subtype.val
  if (lookup IntentRow.idempotencyKey t.orderIntents row.idempotencyKey).isSome then
    return none
  schema.execute .database fun t => { t with orderIntents := t.orderIntents ++ [row] }
  return some row.id

/-- The values of `supplier_order_attempts` as its columns take them. -/
def AttemptRow.ofRecord (a : SupplierAttemptRecord) : Option AttemptRow := do
  return {
    id := ← varchar 36 a.id
    orderIntentId := ← varchar 36 a.orderIntentId
    supplierCode := ← varchar 64 a.supplierCode
    requestKey := ← varchar 128 a.requestKey
    requestFingerprint := ← varchar 64 a.requestFingerprint
    requestPayload := a.requestPayload.asDict
    status := .prepared
    supplierOrderReference := none
    failureCode := none }

def insertAttempt (attempt : SupplierAttemptRecord) : OrderTx Unit := do
  let row ← Tx.getOrThrow (AttemptRow.ofRecord attempt) .database
  schema.execute .database fun t => { t with supplierAttempts := t.supplierAttempts ++ [row] }

def prepare (candidate : OrderAggregate) : OrderTx PrepareResult := do
  ofOrder (assertAggregateInvariants candidate)
  match ← insertIntent candidate.intent with
  | some _ =>
    insertAttempt candidate.supplierAttempt
    return ⟨candidate, true⟩
  | none =>
    let existing ← loadByKey candidate.intent.idempotencyKey
    let same ← ofOrder (sameCanonicalRequest existing candidate)
    Tx.ensure same (.order .idempotencyConflict)
    return ⟨existing, false⟩

/-- `_replace_purchase`. -/
def OrderAggregate.replacePurchase (a : OrderAggregate) (state : PurchaseState)
    (supplierReference : Option Str) (failureCode : Option SafeFailureCode) : OrderAggregate :=
  { a with
    intent := { a.intent with purchaseState := state }
    supplierAttempt := { a.supplierAttempt with
      status := state
      supplierOrderReference := supplierReference
      failureCode := failureCode } }

def Tables.setIntentState (t : Tables) (intentId : Str) (state : PurchaseState) : Tables :=
  { t with orderIntents :=
      modify IntentRow.id t.orderIntents intentId fun r => { r with purchaseState := state } }

def Tables.setAttempt (t : Tables) (intentId : Str) (f : AttemptRow → AttemptRow) : Tables :=
  { t with supplierAttempts := modify AttemptRow.orderIntentId t.supplierAttempts intentId f }

/-- The claim writes the status of the attempt only. -/
def claimPrepared (intentId : Str) : OrderTx (Option OrderAggregate) := do
  let aggregate ← load intentId
  if aggregate.intent.purchaseState ≠ .prepared then
    return none
  schema.execute .database fun t => t.setIntentState intentId .dispatching
  schema.execute .database fun t =>
    t.setAttempt intentId fun r => { r with status := .dispatching }
  return some (aggregate.replacePurchase .dispatching none none)

def setPurchaseState (intentId : Str) (state : PurchaseState) (supplierReference : Option Str)
    (failureCode : Option SafeFailureCode) : OrderTx Unit := do
  schema.execute .database fun t => t.setIntentState intentId state
  let reference ← Tx.getOrThrow (varcharOrNull 128 supplierReference) .database
  schema.execute .database fun t => t.setAttempt intentId fun r =>
    { r with
      status := state
      supplierOrderReference := reference
      failureCode := failureCode.map (·.value) }

def recordTerminal (intentId : Str) (state : PurchaseState) (supplierReference : Option Str)
    (failureCode : Option SafeFailureCode) : OrderTx OrderAggregate := do
  let aggregate ← load intentId
  let current := aggregate.intent.purchaseState
  if current = state then
    Tx.ensure (aggregate.supplierAttempt.supplierOrderReference = supplierReference ∧
      aggregate.supplierAttempt.failureCode = failureCode) (.order .orderStateConflict)
    return aggregate
  Tx.ensure (current = .dispatching ∨ current = .reconciling) (.order .orderStateConflict)
  setPurchaseState intentId state supplierReference failureCode
  return aggregate.replacePurchase state supplierReference failureCode

def validateSafeText (value : Option Str) (maximum : Nat) : Except OrderError Str :=
  match value with
  | some text => if isSafeText text maximum then .ok text else .error .invalidOrderInput
  | none => .error .invalidOrderInput

def recordSuccess (intentId : Str) (supplierReference : Option Str) : OrderTx OrderAggregate := do
  let reference ← ofOrder (validateSafeText supplierReference 128)
  recordTerminal intentId .succeeded (some reference) none

def recordSafeFailure (intentId : Str) (failureCode : Option SafeFailureCode) :
    OrderTx OrderAggregate := do
  let code ← Tx.getOrThrow failureCode (.order .invalidOrderInput)
  recordTerminal intentId .failedSafe none (some code)

def recordUnknown (intentId : Str) : OrderTx OrderAggregate := do
  let aggregate ← load intentId
  let current := aggregate.intent.purchaseState
  if current = .unknown ∨ current = .reconciling then
    return aggregate
  Tx.ensure (current = .dispatching) (.order .orderStateConflict)
  setPurchaseState intentId .unknown none none
  return aggregate.replacePurchase .unknown none none

def beginReconciliation (intentId : Str) : OrderTx ReconciliationStart := do
  let aggregate ← load intentId
  match aggregate.intent.purchaseState with
  | .unknown =>
    setPurchaseState intentId .reconciling none none
    return ⟨aggregate.replacePurchase .reconciling none none, true⟩
  | .reconciling => return ⟨aggregate, true⟩
  | .succeeded | .failedSafe => return ⟨aggregate, false⟩
  | .prepared | .dispatching => throw (.order .orderStateConflict)

/-- `max(…, default=0) + 1`. -/
def nextAttemptNumber (attempts : List DeliveryAttemptRecord) : Int :=
  (attempts.map (·.attemptNumber)).foldl max 0 + 1

def createDeliveryAttempt (intentId : Str) : OrderTx DeliveryAttemptRecord := do
  let aggregate ← load intentId
  Tx.ensure (aggregate.intent.purchaseState = .succeeded) (.order .deliveryNotAllowed)
  let number := nextAttemptNumber aggregate.deliveryAttempts
  let id ← ofOrder (deliveryAttemptIdFor intentId number)
  let deliveryKey ← ofOrder (deliveryKeyFor intentId number)
  let rowId ← Tx.getOrThrow (varchar 36 id) .database
  let rowKey ← Tx.getOrThrow (varchar 128 deliveryKey) .database
  schema.execute .database fun t => { t with
    deliveryAttempts := t.deliveryAttempts ++ [⟨rowId, intentId, number, rowKey, .pending, none⟩] }
  return ⟨id, intentId, number, deliveryKey, .pending, none⟩

/-- The transaction of `finish_delivery`. -/
def closeDelivery (deliveryId : Str) (target : DeliveryState) (expectedFailure : Option Str) :
    OrderTx DeliveryAttemptRecord := do
  Tx.ensure (storable deliveryId) .database
  let t ← Tx.query Subtype.val
  let row ← Tx.getOrThrow (lookup DeliveryRow.id t.deliveryAttempts deliveryId)
    (.order .orderNotFound)
  if row.status ≠ .pending then
    Tx.ensure (row.status = target ∧ row.failureCode = expectedFailure)
      (.order .orderStateConflict)
    return deliveryFromRow row
  schema.execute .database fun t => { t with
    deliveryAttempts := modify DeliveryRow.id t.deliveryAttempts deliveryId fun r =>
      { r with status := target, failureCode := expectedFailure } }
  return { deliveryFromRow row with status := target, failureCode := expectedFailure }

def finishDelivery (deliveryId : Str) (succeeded : Bool) (failureCode : Option Str) :
    OrderTx DeliveryAttemptRecord := do
  if succeeded then
    closeDelivery deliveryId .succeeded none
  else
    let _ ← ofOrder (validateSafeText failureCode 64)
    closeDelivery deliveryId .failed failureCode

end

/-! ## The interface -/

inductive RepoOp [UnicodeData] where
  | prepare (candidate : OrderAggregate)
  | get (intentId : Str)
  | claimPrepared (intentId : Str)
  | recordSuccess (intentId : Str) (supplierReference : Option Str)
  | recordSafeFailure (intentId : Str) (failureCode : Option SafeFailureCode)
  | recordUnknown (intentId : Str)
  | beginReconciliation (intentId : Str)
  | createDeliveryAttempt (intentId : Str)
  | finishDelivery (deliveryId : Str) (succeeded : Bool) (failureCode : Option Str)

section

variable [UnicodeData]

abbrev RepoOp.Res : RepoOp → Type
  | .prepare _ => PrepareResult
  | .claimPrepared _ => Option OrderAggregate
  | .get _ | .recordSuccess _ _ | .recordSafeFailure _ _ | .recordUnknown _ => OrderAggregate
  | .beginReconciliation _ => ReconciliationStart
  | .createDeliveryAttempt _ | .finishDelivery _ _ _ => DeliveryAttemptRecord

variable [Hashlib]

def RepoOp.body : (op : RepoOp) → OrderTx op.Res
  | .prepare candidate => Orders.prepare candidate
  | .get intentId => load intentId
  | .claimPrepared intentId => Orders.claimPrepared intentId
  | .recordSuccess intentId reference => Orders.recordSuccess intentId reference
  | .recordSafeFailure intentId code => Orders.recordSafeFailure intentId code
  | .recordUnknown intentId => Orders.recordUnknown intentId
  | .beginReconciliation intentId => Orders.beginReconciliation intentId
  | .createDeliveryAttempt intentId => Orders.createDeliveryAttempt intentId
  | .finishDelivery deliveryId succeeded code => Orders.finishDelivery deliveryId succeeded code

/-- One repository call: its result, and the store after it. -/
def RepoOp.exec (op : RepoOp) (s : Store) : Except Exc op.Res × Store := op.body.commit s

end

end NyanShopBot.Orders
