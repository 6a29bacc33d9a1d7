import NyanShopBot.Orders.Repository
import NyanShopBot.Py.JsonText

/-!
# The in-memory order repository

`InMemoryOrderRepository` keeps the aggregates themselves, in two dictionaries.
A call writes after its last check, so one that raises leaves the dictionaries as
they were and a call is a `Tx` over `Memory`. `RepoOp.onMemory` is the interface of
the PostgreSQL repository over it. A failure code that is no `SafeFailureCode` it
stores, where PostgreSQL refuses it.
-/

namespace NyanShopBot.Orders

open Py Db

section

variable [UnicodeData]

/-- `_by_id` and `_id_by_key`. -/
structure Memory where
  byId : List (Str × OrderAggregate)
  idByKey : List (Str × Str)

def Memory.empty : Memory := ⟨[], []⟩

abbrev MemoryTx := Tx Memory Exc

namespace Memory

def ofOrder {α : Type} (r : Except OrderError α) : MemoryTx α := Tx.ofExcept (r.mapError .order)

/-- `self._by_id[intent_id] = aggregate`. -/
def put (intentId : Str) (aggregate : OrderAggregate) : MemoryTx Unit := fun m =>
  .ok ((), { m with byId := setItem intentId aggregate m.byId })

/-- `self._id_by_key[key] = intent_id`. -/
def putKey (idempotencyKey intentId : Str) : MemoryTx Unit := fun m =>
  .ok ((), { m with idByKey := setItem idempotencyKey intentId m.idByKey })

/-- `_require`. -/
def require (intentId : Str) : MemoryTx OrderAggregate := do
  let byId ← Tx.query Memory.byId
  Tx.getOrThrow (item? intentId byId) (.order .orderNotFound)

def get (intentId : Str) : MemoryTx OrderAggregate := require intentId

def claimPrepared (intentId : Str) : MemoryTx (Option OrderAggregate) := do
  let aggregate ← require intentId
  if aggregate.intent.purchaseState ≠ .prepared then
    return none
  let updated := aggregate.replacePurchase .dispatching none none
  put intentId updated
  return some updated

/-- The part that `record_success` and `record_safe_failure` share: `same` compares the
evidence of a purchase that has this end already. -/
def recordEnd (intentId : Str) (state : PurchaseState) (same : OrderAggregate → Bool)
    (supplierReference : Option Str) (failureCode : Option SafeFailureCode) :
    MemoryTx OrderAggregate := do
  let aggregate ← require intentId
  let current := aggregate.intent.purchaseState
  if current = state then
    Tx.ensure (same aggregate) (.order .orderStateConflict)
    return aggregate
  Tx.ensure (current = .dispatching ∨ current = .reconciling) (.order .orderStateConflict)
  let updated := aggregate.replacePurchase state supplierReference failureCode
  put intentId updated
  return updated

def recordSuccess (intentId : Str) (supplierReference : Option Str) : MemoryTx OrderAggregate := do
  let reference ← ofOrder (validateSafeText supplierReference 128)
  recordEnd intentId .succeeded
    (fun a => a.supplierAttempt.supplierOrderReference = some reference) (some reference) none

def recordSafeFailure (intentId : Str) (failureCode : SafeFailureCode) :
    MemoryTx OrderAggregate :=
  recordEnd intentId .failedSafe (fun a => a.supplierAttempt.failureCode = some failureCode) none
    (some failureCode)

/-- `record_safe_failure` of a code of another type, which is not checked. It is stored as no
code; `same` is what `is` tells of it and a stored one. -/
def recordOtherFailure (intentId : Str) (same : Bool) : MemoryTx OrderAggregate :=
  recordEnd intentId .failedSafe (fun a => a.supplierAttempt.failureCode.isNone && same) none none

def recordUnknown (intentId : Str) : MemoryTx OrderAggregate := do
  let aggregate ← require intentId
  let current := aggregate.intent.purchaseState
  if current = .unknown ∨ current = .reconciling then
    return aggregate
  Tx.ensure (current = .dispatching) (.order .orderStateConflict)
  let updated := aggregate.replacePurchase .unknown none none
  put intentId updated
  return updated

def beginReconciliation (intentId : Str) : MemoryTx ReconciliationStart := do
  let aggregate ← require intentId
  match aggregate.intent.purchaseState with
  | .unknown =>
    let updated := aggregate.replacePurchase .reconciling none none
    put intentId updated
    return ⟨updated, true⟩
  | .reconciling => return ⟨aggregate, true⟩
  | .succeeded | .failedSafe => return ⟨aggregate, false⟩
  | .prepared | .dispatching => throw (.order .orderStateConflict)

variable [Hashlib]

/-- Another intent of the same id is overwritten. -/
def prepare (candidate : OrderAggregate) : MemoryTx PrepareResult := do
  ofOrder (assertAggregateInvariants candidate)
  let idByKey ← Tx.query Memory.idByKey
  match item? candidate.intent.idempotencyKey idByKey with
  | some existingId =>
    let byId ← Tx.query Memory.byId
    -- a key without its intent is a `KeyError`
    let existing ← Tx.getOrThrow (item? existingId byId) .exception
    let same ← ofOrder (sameCanonicalRequest existing candidate)
    Tx.ensure same (.order .idempotencyConflict)
    return ⟨existing, false⟩
  | none =>
    put candidate.intent.id candidate
    putKey candidate.intent.idempotencyKey candidate.intent.id
    return ⟨candidate, true⟩

def createDeliveryAttempt (intentId : Str) : MemoryTx DeliveryAttemptRecord := do
  let aggregate ← require intentId
  Tx.ensure (aggregate.intent.purchaseState = .succeeded) (.order .deliveryNotAllowed)
  let number := nextAttemptNumber aggregate.deliveryAttempts
  let id ← ofOrder (deliveryAttemptIdFor intentId number)
  let deliveryKey ← ofOrder (deliveryKeyFor intentId number)
  let attempt : DeliveryAttemptRecord := ⟨id, intentId, number, deliveryKey, .pending, none⟩
  put intentId { aggregate with deliveryAttempts := aggregate.deliveryAttempts ++ [attempt] }
  return attempt

/-- `_find_delivery`: the first attempt of this id, the intents in the order of their
insertion. -/
def findDelivery (deliveryId : Str) :
    List (Str × OrderAggregate) → Option (Str × Nat × DeliveryAttemptRecord)
  | [] => none
  | (intentId, aggregate) :: rest =>
    match aggregate.deliveryAttempts.zipIdx.find? fun p => p.1.id = deliveryId with
    | some (attempt, index) => some (intentId, index, attempt)
    | none => findDelivery deliveryId rest

/-- Close the attempt that `_find_delivery` found, if it is open. -/
def closeFound (intentId : Str) (index : Nat) (attempt : DeliveryAttemptRecord)
    (target : DeliveryState) (expectedFailure : Option Str) : MemoryTx DeliveryAttemptRecord := do
  if attempt.status ≠ .pending then
    Tx.ensure (attempt.status = target ∧ attempt.failureCode = expectedFailure)
      (.order .orderStateConflict)
    return attempt
  let updated := { attempt with status := target, failureCode := expectedFailure }
  let byId ← Tx.query Memory.byId
  let aggregate ← Tx.getOrThrow (item? intentId byId) .exception
  put intentId
    { aggregate with deliveryAttempts := aggregate.deliveryAttempts.set index updated }
  return updated

/-- Only a failure has a code to check. -/
def checkFailure (succeeded : Bool) (failureCode : Option Str) : Except OrderError Unit :=
  if succeeded then .ok () else (validateSafeText failureCode 64).map fun _ => ()

/-- The attempt is looked for before the failure code is checked. -/
def finishDelivery (deliveryId : Str) (succeeded : Bool) (failureCode : Option Str) :
    MemoryTx DeliveryAttemptRecord := do
  let byId ← Tx.query Memory.byId
  let (intentId, index, attempt) ← Tx.getOrThrow (findDelivery deliveryId byId)
    (.order .orderNotFound)
  ofOrder (checkFailure succeeded failureCode)
  closeFound intentId index attempt (if succeeded then .succeeded else .failed)
    (if succeeded then none else failureCode)

end Memory

/-! ## The interface -/

/-- The calls of the interface on the in-memory repository. -/
def RepoOp.onMemory [Hashlib] (same : Bool) : (op : RepoOp) → MemoryTx op.Res
  | .prepare candidate => Memory.prepare candidate
  | .get intentId => Memory.get intentId
  | .claimPrepared intentId => Memory.claimPrepared intentId
  | .recordSuccess intentId reference => Memory.recordSuccess intentId reference
  | .recordSafeFailure intentId (some code) => Memory.recordSafeFailure intentId code
  | .recordSafeFailure intentId none => Memory.recordOtherFailure intentId same
  | .recordUnknown intentId => Memory.recordUnknown intentId
  | .beginReconciliation intentId => Memory.beginReconciliation intentId
  | .createDeliveryAttempt intentId => Memory.createDeliveryAttempt intentId
  | .finishDelivery deliveryId succeeded code =>
    Memory.finishDelivery deliveryId succeeded code

end

end NyanShopBot.Orders
