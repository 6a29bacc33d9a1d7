import NyanShopBot.Conc.System
import NyanShopBot.Orders.Repository

/-!
# The order service

The calls of `OrderService` as programs over the operations they await: a
repository transaction, a read of the runtime settings, the catalog or the
supplier's properties, a supplier call, a delivery. `ordersSystem` runs any
number of them over one store. A repository transaction may commit, be rolled
back, or commit while its caller only sees an exception; anything outside the
repository may return or raise what it likes.
-/

namespace NyanShopBot.Orders

open Py Db Conc

/-! ## The catalog -/

structure Money where
  amountMinor : Int
  currency : Str
  unit : Str
deriving DecidableEq

structure SupplierProductIdentity where
  supplierId : Str
  supplierProductId : Str
deriving DecidableEq

structure SupplierVariantIdentity where
  supplierId : Str
  supplierVariantId : Str
deriving DecidableEq

inductive MappingApproval where
  | pending
  | approved (approvedByAdminId : Str) (approvedAt : Int)
deriving DecidableEq

structure SupplierMapping where
  supplierProduct : SupplierProductIdentity
  supplierVariant : SupplierVariantIdentity
  approval : MappingApproval
deriving DecidableEq

def SupplierMapping.isApproved (m : SupplierMapping) : Bool :=
  match m.approval with
  | .pending => false
  | .approved _ _ => true

structure CatalogVariant where
  id : Str
  name : Str
  mapping : SupplierMapping
  price : Money
  availableQuantity : Int
deriving DecidableEq

structure CatalogProduct where
  id : Str
  name : Str
  description : Str
  supplier : Str
  mode : Str
  price : Money
  availableQuantity : Int
  variants : List CatalogVariant
deriving DecidableEq

inductive CatalogState where
  | fresh | stale | empty | error
deriving DecidableEq

structure CatalogResponse where
  state : CatalogState
  items : List CatalogProduct

inductive CatalogDetail where
  | found (item : CatalogProduct)
  | notFound
  | unsupported

def MinorMoney.fromCatalog (m : Money) : Except OrderError MinorMoney :=
  MinorMoney.make m.amountMinor m.currency m.unit

/-! ## The ports -/

/-- A value whose type the code checks. -/
inductive PyValue where
  | str (s : Str)
  | bool (b : Bool)
  | other
deriving DecidableEq

structure RuntimeSafetySettings where
  supplierMode : PyValue
  paymentMode : PyValue
  allowRealPurchases : PyValue

structure PurchaseCapabilities where
  idempotentPurchase : PyValue
  reconciliation : PyValue

inductive PurchaseResult where
  | succeeded (supplierReference : Option Str)
  | failedSafe (failureCode : Option SafeFailureCode)
  | accepted
  | other
deriving DecidableEq

inductive ReconciliationResult where
  | succeeded (supplierReference : Option Str)
  | failedSafe (failureCode : Option SafeFailureCode)
  | unresolved
  | other
deriving DecidableEq

structure DeliveryRequest where
  orderIntentId : Str
  attemptNumber : Int
  deliveryKey : Str

inductive DeliveryResult where
  | succeeded
  | failed (failureCode : Str)
  | other

section

variable [UnicodeData]

structure SupplierPurchaseRequest where
  requestKey : Str
  payload : CanonicalPurchasePayload

/-- What a call of the service awaits. -/
inductive ServiceOp where
  | repo (op : RepoOp)
  | runtime
  | readCatalog
  | getProduct (productId : Str)
  | supplierCode
  | capabilities
  | purchase (request : SupplierPurchaseRequest)
  | reconcile (request : SupplierPurchaseRequest)
  | deliver (request : DeliveryRequest)

abbrev ServiceOp.Res : ServiceOp → Type
  | .repo op => op.Res
  | .runtime => RuntimeSafetySettings
  | .readCatalog => CatalogResponse
  | .getProduct _ => CatalogDetail
  | .supplierCode => Str
  | .capabilities => PurchaseCapabilities
  | .purchase _ => PurchaseResult
  | .reconcile _ => ReconciliationResult
  | .deliver _ => DeliveryResult

abbrev serviceSig : Sig := ⟨ServiceOp, ServiceOp.Res⟩

abbrev Service (α : Type) := Prog serviceSig Exc α

/-- `await` an operation. -/
abbrev await (op : ServiceOp) : Service op.Res := Prog.perform (S := serviceSig) op

abbrev awaitRepo (op : RepoOp) : Service op.Res := await (.repo op)

/-- Raise `e` unless `c` holds. -/
abbrev require (c : Prop) [Decidable c] (e : OrderError) : Service Unit := .ensure c (.order e)

def ofResult {α : Type} (r : Except OrderError α) : Service α := .ofExcept (r.mapError .order)

/-- `try: p except Exception: raise e`. -/
def guarded {α : Type} (p : Service α) (e : OrderError) : Service α := do
  match ← p.attempt with
  | .ok a => return a
  | .error x => .raise (if x.isException then .order e else x)

/-! ## Checks -/

def RuntimeSafetySettings.safe (r : RuntimeSafetySettings) : Bool :=
  r.supplierMode = .str (str "mock") && r.paymentMode = .str (str "disabled") &&
    r.allowRealPurchases = .bool false

def assertSafeExecution : Service Unit := do
  let runtime ← guarded (await .runtime) .unsafeOrderExecution
  require runtime.safe .unsafeOrderExecution

def PyValue.isBool : PyValue → Bool
  | .bool _ => true
  | _ => false

def requirePurchaseCapability : Service Unit := do
  let capabilities ← guarded (await .capabilities) .supplierCapabilityRejected
  require (capabilities.idempotentPurchase = .bool true ∧ capabilities.reconciliation.isBool = true)
    .supplierCapabilityRejected

def reconciliationSupported : Service Bool := do
  let capabilities ← guarded (await .capabilities) .supplierCapabilityRejected
  match capabilities.reconciliation with
  | .bool b => return b
  | _ => .raise (.order .supplierCapabilityRejected)

def requireMatchingPersistedSupplier (a : OrderAggregate) : Service Unit := do
  let supplierCode ← guarded (await .supplierCode) .supplierMappingMismatch
  require (a.supplierAttempt.supplierCode = supplierCode ∧
    a.supplierAttempt.requestPayload.supplierCode = supplierCode) .supplierMappingMismatch

def supplierRequest (a : OrderAggregate) : SupplierPurchaseRequest :=
  ⟨a.supplierAttempt.requestKey, a.supplierAttempt.requestPayload⟩

def authoritativeSelection (request : OrderRequest) :
    Service (CatalogProduct × CatalogVariant) := do
  let response ← guarded (await .readCatalog) .catalogReadRejected
  require (response.state = .fresh) .catalogNotFresh
  match response.items.find? fun p => p.id = request.productId with
  | none => .raise (.order .productUnavailable)
  | some product =>
    match product.variants.find? fun v => v.id = request.variantId with
    | none => .raise (.order .variantUnavailable)
    | some _ =>
      match ← guarded (await (.getProduct request.productId)) .catalogDetailRejected with
      | .found item =>
        require (item = product) .catalogSnapshotMismatch
        match item.variants.find? fun v => v.id = request.variantId with
        | none => .raise (.order .catalogSnapshotMismatch)
        | some variant => return (item, variant)
      | _ => .raise (.order .catalogDetailRejected)

/-! ## Calls -/

variable [Hashlib]

/-- What `_dispatch_once` records of the outcome of the purchase. -/
def recordOutcome (intentId : Str) : Except Exc PurchaseResult → Service OrderAggregate
  | .error .cancelled => do
    let _ ← awaitRepo (.recordUnknown intentId)
    .raise .cancelled
  | .error .fatal => .raise .fatal
  | .error _ => awaitRepo (.recordUnknown intentId)
  | .ok (.succeeded reference) => awaitRepo (.recordSuccess intentId reference)
  | .ok (.failedSafe code) => awaitRepo (.recordSafeFailure intentId code)
  | .ok .accepted => awaitRepo (.recordUnknown intentId)
  | .ok .other => awaitRepo (.recordUnknown intentId)

def dispatchOnce (intentId : Str) : Service OrderAggregate := do
  assertSafeExecution
  requirePurchaseCapability
  match ← awaitRepo (.claimPrepared intentId) with
  | none => awaitRepo (.get intentId)
  | some claimed =>
    requireMatchingPersistedSupplier claimed
    assertSafeExecution
    let outcome ← (await (.purchase (supplierRequest claimed))).attempt
    recordOutcome intentId outcome

/-- The part of `place_order` that checks the request and builds the candidate. -/
def buildCandidate (customerReference : Str) (request : OrderRequest) : Service OrderAggregate := do
  assertSafeExecution
  require (isSafeText customerReference 128) .invalidOrderInput
  requirePurchaseCapability
  let (product, variant) ← authoritativeSelection request
  let serverPrice ← ofResult (MinorMoney.fromCatalog variant.price)
  require (serverPrice.currency = request.maxUnitPrice.currency ∧
    serverPrice.unit = request.maxUnitPrice.unit) .moneyMismatch
  require (serverPrice.amountMinor ≤ request.maxUnitPrice.amountMinor) .priceCapExceeded
  require (request.quantity ≤ variant.availableQuantity) .quantityUnavailable
  require variant.mapping.isApproved .mappingNotApproved
  let supplierCode ← guarded (await .supplierCode) .supplierMappingMismatch
  require (variant.mapping.supplierProduct.supplierId = supplierCode ∧
    variant.mapping.supplierVariant.supplierId = supplierCode) .supplierMappingMismatch
  match CanonicalPurchasePayload.make customerReference product.id variant.id request.quantity
      serverPrice request.maxUnitPrice supplierCode
      variant.mapping.supplierProduct.supplierProductId
      variant.mapping.supplierVariant.supplierVariantId (.int 1) with
  | .error _ => .raise (.order .supplierMappingMismatch)
  | .ok payload => ofResult (buildPreparedOrder customerReference request payload)

def placeOrder (customerReference : Str) (request : OrderRequest) : Service OrderSnapshot := do
  let candidate ← buildCandidate customerReference request
  assertSafeExecution
  let prepared ← awaitRepo (.prepare candidate)
  if prepared.aggregate.intent.purchaseState = .prepared then
    let aggregate ← dispatchOnce prepared.aggregate.intent.id
    return .fromAggregate aggregate
  else
    return .fromAggregate prepared.aggregate

/-- What `recover` records of the result of the reconciliation. -/
def recordReconciliation (intentId : Str) (started : OrderAggregate) :
    Except Exc ReconciliationResult → Service OrderAggregate
  | .error e => if e.isException then return started else .raise e
  | .ok (.succeeded reference) => awaitRepo (.recordSuccess intentId reference)
  | .ok (.failedSafe code) => awaitRepo (.recordSafeFailure intentId code)
  | .ok .unresolved => return started
  | .ok .other => return started

/-- `recover` from `begin_reconciliation` on. -/
def reconcileIntent (intentId : Str) : Service OrderAggregate := do
  let started ← awaitRepo (.beginReconciliation intentId)
  if ¬ started.shouldReconcile then
    return started.aggregate
  if ¬ (← reconciliationSupported) then
    return started.aggregate
  requireMatchingPersistedSupplier started.aggregate
  assertSafeExecution
  let result ← (await (.reconcile (supplierRequest started.aggregate))).attempt
  recordReconciliation intentId started.aggregate result

/-- The rest of `recover`, for an aggregate that it did not leave dispatching. -/
def recoverFrom (intentId : Str) (aggregate : OrderAggregate) : Service OrderSnapshot :=
  match aggregate.intent.purchaseState with
  | .succeeded | .failedSafe => return .fromAggregate aggregate
  | .prepared | .dispatching => .raise (.order .orderStateConflict)
  | .unknown | .reconciling => return .fromAggregate (← reconcileIntent intentId)

def recover (intentId : Str) : Service OrderSnapshot := do
  assertSafeExecution
  let found ← awaitRepo (.get intentId)
  let aggregate ←
    if found.intent.purchaseState = .dispatching then awaitRepo (.recordUnknown intentId)
    else pure found
  recoverFrom intentId aggregate

/-- How `deliver` finishes an attempt, and whether it then raises. -/
def finishAttempt (deliveryId : Str) : Except Exc DeliveryResult → Service Unit
  | .error .cancelled => do
    let _ ← awaitRepo (.finishDelivery deliveryId false (some (str "DELIVERY_CANCELLED")))
    .raise .cancelled
  | .error .fatal => .raise .fatal
  | .error _ => do
    let _ ← awaitRepo (.finishDelivery deliveryId false (some (str "DELIVERY_SINK_ERROR")))
  | .ok .succeeded => do
    let _ ← awaitRepo (.finishDelivery deliveryId true none)
  | .ok (.failed _) => do
    let _ ← awaitRepo (.finishDelivery deliveryId false (some (str "DELIVERY_FAILED")))
  | .ok .other => do
    let _ ← awaitRepo (.finishDelivery deliveryId false (some (str "DELIVERY_SINK_ERROR")))

def deliver (intentId : Str) : Service OrderSnapshot := do
  assertSafeExecution
  let attempt ← awaitRepo (.createDeliveryAttempt intentId)
  assertSafeExecution
  let result ← (await (.deliver ⟨intentId, attempt.attemptNumber, attempt.deliveryKey⟩)).attempt
  finishAttempt attempt.id result
  return .fromAggregate (← awaitRepo (.get intentId))

def getOrder (intentId : Str) : Service OrderSnapshot := do
  assertSafeExecution
  return .fromAggregate (← awaitRepo (.get intentId))

/-! ## The system -/

inductive ServiceCall where
  | placeOrder (customerReference : Str) (request : OrderRequest)
  | recover (intentId : Str)
  | deliver (intentId : Str)
  | getOrder (intentId : Str)

def ServiceCall.body : ServiceCall → Service OrderSnapshot
  | .placeOrder customerReference request => Orders.placeOrder customerReference request
  | .recover intentId => Orders.recover intentId
  | .deliver intentId => Orders.deliver intentId
  | .getOrder intentId => Orders.getOrder intentId

/-- What one awaited operation can return and leave stored: a transaction
commits, or its caller sees an exception and it is rolled back or committed all
the same; anything outside the repository returns or raises what it likes. -/
def Effect (s : Store) : (op : ServiceOp) → Except Exc op.Res → Store → Prop
  | .repo op, r, s' => (r, s') = op.exec s ∨ ∃ e, r = .error e ∧ (s' = s ∨ s' = (op.exec s).2)
  | _, _, s' => s' = s

/-- **Any number of service calls over one repository.** -/
abbrev ordersSystem : System serviceSig Exc where
  Store := Store
  Call := ServiceCall
  Out := OrderSnapshot
  body := ServiceCall.body
  eff := Effect

end

end NyanShopBot.Orders
