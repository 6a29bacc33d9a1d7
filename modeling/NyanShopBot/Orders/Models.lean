import NyanShopBot.Py.Json

/-!
# Order models

The domain types of an order and their checks. A `MinorMoney` and a
`CanonicalPurchasePayload` carry the checks of their constructors as a field, so
an invalid one cannot be built; the records of an `OrderAggregate` are plain
data that `assertAggregateInvariants` compares. `fromMapping_asDict` is the
round trip of a payload through its stored JSON.
-/

namespace NyanShopBot.Orders

open Py

/-! ## Errors -/

inductive OrderError where
  | invalidOrderInput | unsafeOrderExecution | catalogReadRejected | catalogNotFresh
  | productUnavailable | variantUnavailable | catalogDetailRejected | catalogSnapshotMismatch
  | mappingNotApproved | supplierMappingMismatch | supplierCapabilityRejected | moneyMismatch
  | priceCapExceeded | quantityUnavailable | idempotencyConflict | orderNotFound
  | orderStateConflict | persistenceInvariantError | deliveryNotAllowed
deriving DecidableEq

/-- What a call can raise: an `OrderError`, a database error, any other
`Exception`, and the `BaseException`s that `except Exception` lets through. -/
inductive Exc where
  | order (e : OrderError)
  | database
  | exception
  | cancelled
  | fatal
deriving DecidableEq

/-- `isinstance(e, Exception)`. -/
def Exc.isException : Exc → Bool
  | order _ | database | exception => true
  | cancelled | fatal => false

/-! ## Checked values -/

/-- `2**63 - 1`. -/
def maxDatabaseInteger : Int := 0x7fffffffffffffff

/-- `2**31 - 1`. -/
def maxQuantity : Int := 0x7fffffff

section

variable [UnicodeData]

def isIdentity (value : Str) (maximum : Nat) : Bool :=
  value ≠ [] && value.length ≤ maximum && value = strip value && isprintable value &&
    normalizeNFC value = value

def validateIdentity (value : Str) (maximum : Nat) : Except OrderError Str :=
  if isIdentity value maximum then .ok value else .error .invalidOrderInput

/-- `_validate_safe_text`: no normal form is asked for. -/
def isSafeText (value : Str) (maximum : Nat) : Bool :=
  value ≠ [] && value.length ≤ maximum && value = strip value && isprintable value

end

def isInteger (value minimum maximum : Int) : Bool := minimum ≤ value && value ≤ maximum

/-- `[A-Z]{3}`, the whole text. -/
def isCurrency (s : Str) : Bool := s.length = 3 && s.all fun c => 0x41 ≤ c.val && c.val ≤ 0x5a

/-- Minor-unit money; `valid` is what `__post_init__` checks. -/
structure MinorMoney where
  amountMinor : Int
  currency : Str
  unit : Str
  valid : isInteger amountMinor 0 maxDatabaseInteger && isCurrency currency && unit = str "minor"
deriving DecidableEq

def MinorMoney.make (amountMinor : Int) (currency unit : Str) : Except OrderError MinorMoney :=
  if h : isInteger amountMinor 0 maxDatabaseInteger && isCurrency currency && unit = str "minor"
  then .ok ⟨amountMinor, currency, unit, h⟩
  else .error .invalidOrderInput

def MinorMoney.asDict (m : MinorMoney) : Json :=
  .obj [(str "amount_minor", .int m.amountMinor), (str "currency", .str m.currency),
    (str "unit", .str m.unit)]

theorem MinorMoney.make_self (m : MinorMoney) : make m.amountMinor m.currency m.unit = .ok m := by
  unfold make
  rw [dif_pos m.valid]

/-! ## Reading JSON -/

/-- A value that `_validate_identity` or a type check accepts as `str`. -/
def asStr : Json → Except OrderError Str
  | .str s => .ok s
  | _ => .error .invalidOrderInput

def asInt : Json → Except OrderError Int
  | .int n => .ok n
  | _ => .error .invalidOrderInput

def moneyFromMapping : Json → Except OrderError MinorMoney
  | .obj raw => do
    if Json.hasKeys raw [str "amount_minor", str "currency", str "unit"] then
      MinorMoney.make (← asInt (Json.get raw (str "amount_minor")))
        (← asStr (Json.get raw (str "currency"))) (← asStr (Json.get raw (str "unit")))
    else throw .persistenceInvariantError
  | _ => throw .persistenceInvariantError

theorem moneyFromMapping_asDict (m : MinorMoney) : moneyFromMapping m.asDict = .ok m :=
  m.make_self

/-! ## States -/

inductive PurchaseState where
  | prepared | dispatching | succeeded | failedSafe | unknown | reconciling
deriving DecidableEq

inductive DeliveryState where
  | pending | succeeded | failed
deriving DecidableEq

inductive SafeFailureCode where
  | priceChanged | outOfStock | insufficientBalance
deriving DecidableEq

namespace SafeFailureCode

def value : SafeFailureCode → Str
  | priceChanged => str "PRICE_CHANGED"
  | outOfStock => str "OUT_OF_STOCK"
  | insufficientBalance => str "INSUFFICIENT_BALANCE"

/-- `SafeFailureCode(text)`. -/
def ofValue (text : Str) : Option SafeFailureCode :=
  [priceChanged, outOfStock, insufficientBalance].find? fun c => c.value = text

@[simp] theorem ofValue_value (c : SafeFailureCode) : ofValue c.value = some c := by
  cases c <;> decide

theorem value_injective : Function.Injective value :=
  Function.LeftInverse.injective (g := fun text => (ofValue text).getD priceChanged)
    fun c => by simp

end SafeFailureCode

/-! ## The purchase payload -/

section

variable [UnicodeData]

/-- Versioned payload of a purchase; `valid` is what `__post_init__` checks. -/
structure CanonicalPurchasePayload where
  customerReference : Str
  productId : Str
  variantId : Str
  quantity : Int
  unitPrice : MinorMoney
  maxUnitPrice : MinorMoney
  supplierCode : Str
  supplierProductId : Str
  supplierVariantId : Str
  schemaVersion : Json
  valid :
    isIdentity customerReference 128 && isIdentity productId 128 && isIdentity variantId 128 &&
    isInteger quantity 1 maxQuantity && isIdentity supplierCode 64 &&
    isIdentity supplierProductId 128 && isIdentity supplierVariantId 128 && schemaVersion.isOne

namespace CanonicalPurchasePayload

def make (customerReference productId variantId : Str) (quantity : Int)
    (unitPrice maxUnitPrice : MinorMoney) (supplierCode supplierProductId supplierVariantId : Str)
    (schemaVersion : Json) : Except OrderError CanonicalPurchasePayload :=
  if h : isIdentity customerReference 128 && isIdentity productId 128 && isIdentity variantId 128 &&
      isInteger quantity 1 maxQuantity && isIdentity supplierCode 64 &&
      isIdentity supplierProductId 128 && isIdentity supplierVariantId 128 && schemaVersion.isOne
  then .ok ⟨customerReference, productId, variantId, quantity, unitPrice, maxUnitPrice,
    supplierCode, supplierProductId, supplierVariantId, schemaVersion, h⟩
  else .error .invalidOrderInput

theorem make_self (p : CanonicalPurchasePayload) :
    make p.customerReference p.productId p.variantId p.quantity p.unitPrice p.maxUnitPrice
      p.supplierCode p.supplierProductId p.supplierVariantId p.schemaVersion = .ok p := by
  unfold make
  rw [dif_pos p.valid]

def asDict (p : CanonicalPurchasePayload) : Json :=
  .obj [(str "customer_reference", .str p.customerReference),
    (str "max_unit_price", p.maxUnitPrice.asDict),
    (str "product_id", .str p.productId),
    (str "quantity", .int p.quantity),
    (str "schema_version", p.schemaVersion),
    (str "supplier", .obj [(str "code", .str p.supplierCode),
      (str "product_id", .str p.supplierProductId),
      (str "variant_id", .str p.supplierVariantId)]),
    (str "unit_price", p.unitPrice.asDict),
    (str "variant_id", .str p.variantId)]

def canonicalJson (p : CanonicalPurchasePayload) : Str := p.asDict.canonical

/-- The canonical JSON is ASCII, so it always encodes. -/
def fingerprint [Hashlib] (p : CanonicalPurchasePayload) : Str :=
  sha256Hex ((encodeUtf8 p.canonicalJson).getD [])

/-- `from_mapping` before it turns its exceptions into one. -/
def fromMembers (raw supplier : List (Str × Json)) :
    Except OrderError CanonicalPurchasePayload := do
  make (← asStr (Json.get raw (str "customer_reference")))
    (← asStr (Json.get raw (str "product_id")))
    (← asStr (Json.get raw (str "variant_id"))) (← asInt (Json.get raw (str "quantity")))
    (← moneyFromMapping (Json.get raw (str "unit_price")))
    (← moneyFromMapping (Json.get raw (str "max_unit_price")))
    (← asStr (Json.get supplier (str "code"))) (← asStr (Json.get supplier (str "product_id")))
    (← asStr (Json.get supplier (str "variant_id"))) (Json.get raw (str "schema_version"))

def fromMapping : Json → Except OrderError CanonicalPurchasePayload
  | .obj raw =>
    if Json.hasKeys raw [str "customer_reference", str "max_unit_price", str "product_id",
        str "quantity", str "schema_version", str "supplier", str "unit_price",
        str "variant_id"] then
      match Json.get raw (str "supplier") with
      | .obj supplier =>
        if Json.hasKeys supplier [str "code", str "product_id", str "variant_id"] then
          match fromMembers raw supplier with
          | .ok p => .ok p
          | .error _ => .error .persistenceInvariantError
        else .error .persistenceInvariantError
      | _ => .error .persistenceInvariantError
    else .error .persistenceInvariantError
  | _ => .error .persistenceInvariantError

/-- **A payload survives its stored form.** -/
theorem fromMapping_asDict (p : CanonicalPurchasePayload) : fromMapping p.asDict = .ok p := by
  have h : fromMapping p.asDict = match (do
      make p.customerReference p.productId p.variantId p.quantity
        (← moneyFromMapping p.unitPrice.asDict) (← moneyFromMapping p.maxUnitPrice.asDict)
        p.supplierCode p.supplierProductId p.supplierVariantId p.schemaVersion) with
      | .ok p => .ok p
      | .error _ => .error .persistenceInvariantError := rfl
  rw [h, moneyFromMapping_asDict, moneyFromMapping_asDict]
  simp only [bind, Except.bind, make_self]

end CanonicalPurchasePayload

/-! ## Derived identifiers -/

/-- The sixteen bytes of `ORDER_NAMESPACE`. -/
def orderNamespace : Bytes :=
  [0xa4, 0x26, 0xf6, 0x60, 0xf2, 0x3b, 0x5d, 0x5d, 0x80, 0xef, 0xd9, 0xa8, 0x63, 0x80, 0xe4, 0xfd]

/-- `str(uuid5(ORDER_NAMESPACE, name))`; the names are printable, so they encode. -/
def orderUuid [Hashlib] (name : Str) : Str :=
  uuidStr (uuid5 orderNamespace ((encodeUtf8 name).getD []))

def intentIdFor [Hashlib] (idempotencyKey : Str) : Except OrderError Str := do
  let _ ← validateIdentity idempotencyKey 128
  return orderUuid (str "intent:" ++ idempotencyKey)

def supplierAttemptIdFor [Hashlib] (intentId : Str) : Except OrderError Str := do
  let _ ← validateIdentity intentId 36
  return orderUuid (str "supplier-attempt:" ++ intentId)

def supplierRequestKeyFor (intentId : Str) : Except OrderError Str := do
  let _ ← validateIdentity intentId 36
  return str "purchase:" ++ intentId

def deliveryName (intentId : Str) (attemptNumber : Int) : Str :=
  str "delivery:" ++ intentId ++ str ":" ++ intStr attemptNumber

def validateInteger (value minimum maximum : Int) : Except OrderError Int :=
  if isInteger value minimum maximum then .ok value else .error .invalidOrderInput

def deliveryAttemptIdFor [Hashlib] (intentId : Str) (attemptNumber : Int) :
    Except OrderError Str := do
  let _ ← validateIdentity intentId 36
  let _ ← validateInteger attemptNumber 1 maxQuantity
  return orderUuid (deliveryName intentId attemptNumber)

def deliveryKeyFor (intentId : Str) (attemptNumber : Int) : Except OrderError Str := do
  let _ ← validateIdentity intentId 36
  let _ ← validateInteger attemptNumber 1 maxQuantity
  return deliveryName intentId attemptNumber

/-! ## Records -/

/-- The caller's part of an order; `valid` is what `__post_init__` checks. -/
structure OrderRequest where
  productId : Str
  variantId : Str
  quantity : Int
  idempotencyKey : Str
  maxUnitPrice : MinorMoney
  valid : isIdentity productId 128 && isIdentity variantId 128 && isIdentity idempotencyKey 128 &&
    isInteger quantity 1 maxQuantity

structure OrderIntentRecord where
  id : Str
  idempotencyKey : Str
  customerReference : Str
  productId : Str
  variantId : Str
  quantity : Int
  unitPrice : MinorMoney
  maxUnitPrice : MinorMoney
  purchaseState : PurchaseState

structure SupplierAttemptRecord where
  id : Str
  orderIntentId : Str
  supplierCode : Str
  requestKey : Str
  requestFingerprint : Str
  requestPayload : CanonicalPurchasePayload
  status : PurchaseState
  supplierOrderReference : Option Str
  failureCode : Option SafeFailureCode

structure DeliveryAttemptRecord where
  id : Str
  orderIntentId : Str
  attemptNumber : Int
  deliveryKey : Str
  status : DeliveryState
  failureCode : Option Str
deriving DecidableEq

structure OrderAggregate where
  intent : OrderIntentRecord
  supplierAttempt : SupplierAttemptRecord
  deliveryAttempts : List DeliveryAttemptRecord

structure PrepareResult where
  aggregate : OrderAggregate
  created : Bool

structure ReconciliationStart where
  aggregate : OrderAggregate
  shouldReconcile : Bool

structure DeliverySnapshot where
  attemptNumber : Int
  status : DeliveryState
  failureCode : Option Str
deriving DecidableEq

structure OrderSnapshot where
  intentId : Str
  productId : Str
  variantId : Str
  quantity : Int
  unitPrice : MinorMoney
  maxUnitPrice : MinorMoney
  purchaseState : PurchaseState
  failureCode : Option SafeFailureCode
  deliveries : List DeliverySnapshot
deriving DecidableEq

def OrderSnapshot.fromAggregate (a : OrderAggregate) : OrderSnapshot where
  intentId := a.intent.id
  productId := a.intent.productId
  variantId := a.intent.variantId
  quantity := a.intent.quantity
  unitPrice := a.intent.unitPrice
  maxUnitPrice := a.intent.maxUnitPrice
  purchaseState := a.intent.purchaseState
  failureCode := a.supplierAttempt.failureCode
  deliveries := a.deliveryAttempts.map fun d => ⟨d.attemptNumber, d.status, d.failureCode⟩

def buildPreparedOrder [Hashlib] (customerReference : Str) (request : OrderRequest)
    (payload : CanonicalPurchasePayload) : Except OrderError OrderAggregate := do
  let _ ← validateIdentity customerReference 128
  let intentId ← intentIdFor request.idempotencyKey
  let attemptId ← supplierAttemptIdFor intentId
  let requestKey ← supplierRequestKeyFor intentId
  return {
    intent := {
      id := intentId
      idempotencyKey := request.idempotencyKey
      customerReference := customerReference
      productId := request.productId
      variantId := request.variantId
      quantity := request.quantity
      unitPrice := payload.unitPrice
      maxUnitPrice := request.maxUnitPrice
      purchaseState := .prepared }
    supplierAttempt := {
      id := attemptId
      orderIntentId := intentId
      supplierCode := payload.supplierCode
      requestKey := requestKey
      requestFingerprint := payload.fingerprint
      requestPayload := payload
      status := .prepared
      supplierOrderReference := none
      failureCode := none }
    deliveryAttempts := [] }

theorem buildPreparedOrder_key [Hashlib] {customerReference : Str} {request : OrderRequest}
    {payload : CanonicalPurchasePayload} {c : OrderAggregate}
    (h : buildPreparedOrder customerReference request payload = .ok c) :
    c.intent.idempotencyKey = request.idempotencyKey := by
  simp only [buildPreparedOrder, except_bind_ok] at h
  obtain ⟨_, -, _, -, _, -, _, -, h⟩ := h
  cases h
  rfl

/-- What `assert_aggregate_invariants` compares before it derives the request key. -/
def OrderAggregate.linked (a : OrderAggregate) : Bool :=
  a.intent.id = a.supplierAttempt.orderIntentId && a.intent.purchaseState = a.supplierAttempt.status

/-- What `assert_aggregate_invariants` compares after it. -/
def OrderAggregate.consistent [Hashlib] (a : OrderAggregate) : Bool :=
  let payload := a.supplierAttempt.requestPayload
  a.supplierAttempt.requestFingerprint = payload.fingerprint &&
    a.supplierAttempt.supplierCode = payload.supplierCode &&
    a.intent.customerReference = payload.customerReference &&
    a.intent.productId = payload.productId && a.intent.variantId = payload.variantId &&
    a.intent.quantity = payload.quantity && a.intent.unitPrice = payload.unitPrice &&
    a.intent.maxUnitPrice = payload.maxUnitPrice

/-- The comparison is a chain of `and`: an identifier that is none raises only
when the parts before it agree. -/
def assertAggregateInvariants [Hashlib] (a : OrderAggregate) : Except OrderError Unit := do
  if a.linked then
    let key ← supplierRequestKeyFor a.intent.id
    if a.supplierAttempt.requestKey = key && a.consistent then return ()
    else throw .persistenceInvariantError
  else throw .persistenceInvariantError

def sameCanonicalRequest [Hashlib] (left right : OrderAggregate) : Except OrderError Bool := do
  assertAggregateInvariants left
  assertAggregateInvariants right
  return left.supplierAttempt.requestFingerprint = right.supplierAttempt.requestFingerprint &&
    left.supplierAttempt.requestPayload.canonicalJson =
      right.supplierAttempt.requestPayload.canonicalJson

/-- What it means that the checks of `assert_aggregate_invariants` pass. -/
structure OrderAggregate.Invariants [Hashlib] (a : OrderAggregate) : Prop where
  linked : a.linked = true
  identity : isIdentity a.intent.id 36 = true
  requestKey : a.supplierAttempt.requestKey = str "purchase:" ++ a.intent.id
  consistent : a.consistent = true

theorem validateIdentity_ok {value v : Str} {maximum : Nat} :
    validateIdentity value maximum = .ok v ↔ isIdentity value maximum = true ∧ v = value := by
  unfold validateIdentity
  split
  · next h => simp only [Except.ok.injEq, h, true_and]; exact eq_comm
  · next h => simp [h]

theorem supplierRequestKeyFor_ok {intentId key : Str} :
    supplierRequestKeyFor intentId = .ok key ↔
      isIdentity intentId 36 = true ∧ key = str "purchase:" ++ intentId := by
  unfold supplierRequestKeyFor validateIdentity
  split
  · next h =>
    simp only [bind, Except.bind, pure, Except.pure, Except.ok.injEq, h, true_and]
    exact eq_comm
  · next h => simp [bind, Except.bind, h]

theorem assertAggregateInvariants_ok [Hashlib] {a : OrderAggregate} {u : Unit} :
    assertAggregateInvariants a = .ok u ↔ a.Invariants := by
  unfold assertAggregateInvariants
  constructor
  · intro h
    split at h
    · next hl =>
      cases hk : supplierRequestKeyFor a.intent.id with
      | error e => rw [hk] at h; cases h
      | ok key =>
        rw [hk] at h
        obtain ⟨hid, rfl⟩ := supplierRequestKeyFor_ok.1 hk
        simp only [bind, Except.bind] at h
        split at h
        · next hc =>
          simp only [Bool.and_eq_true, decide_eq_true_eq] at hc
          exact ⟨hl, hid, hc.1, hc.2⟩
        · cases h
    · cases h
  · rintro ⟨hl, hid, hr, hc⟩
    rw [if_pos hl, supplierRequestKeyFor_ok.2 ⟨hid, rfl⟩]
    simp [bind, Except.bind, hr, hc, pure, Except.pure]

end

end NyanShopBot.Orders
