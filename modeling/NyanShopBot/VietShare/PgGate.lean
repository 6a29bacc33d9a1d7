import NyanShopBot.Db.Table
import NyanShopBot.VietShare.WriteOrders

/-!
# The PostgreSQL write gate

The tables of the VietShare gate with the constraints and triggers of their
migration, and the operations of `VietSharePgGate`: `exec` runs one as a
transaction at one reading of the database clock, in microseconds. The columns
that no operation reads are left out. An argument whose type the code checks at
run time is an `Option`, where `none` stands for an object of another type.
-/

namespace NyanShopBot.VietShare

open Py Db

inductive GateState where
  | prepared | dispatching | unknown | reconciling | succeeded | failedSafe
deriving DecidableEq

/-- The states of the partial unique index. -/
def GateState.isUnresolved : GateState → Bool
  | dispatching | unknown | reconciling => true
  | prepared | succeeded | failedSafe => false

/-! ## Tables -/

/-- The control row; an element of the array can be NULL. -/
structure ControlRow where
  enabled : Bool
  allowedOperatorIds : List (Option Str)
  approvedTestId : Option Str
  approvedProductId : Option Int
  approvedQuantity : Option Int
  approvedMaxUnitPriceVnd : Option Int
  approvedSpendCapVnd : Option Int
  approvedWalletId : Option Str
  approvedCurrency : Option Str
  approvedBy : Option Str
  approvalRef : Option Str
deriving DecidableEq

structure GateRecord where
  testId : Str
  idempotencyKey : Str
  rawBody : Bytes
  bodySha256 : Str
  productId : Int
  quantity : Int
  maxUnitPriceVnd : Int
  absoluteSpendCapVnd : Int
  walletId : Str
  operatorId : Str
  state : GateState
  retryNotBefore : Option Int
  supplierOrderCode : Option Str
  lastErrorCode : Option Str
deriving DecidableEq

/-- A row of the journal; `toGateRecord` is `_record`. -/
structure JournalRow extends GateRecord where
  source : Str
  currency : Str
deriving DecidableEq

structure AuthAttemptRow where
  nonce : Str
  testId : Str
  timestamp : Int
  method : Str
  bodySha256 : Str
  canonicalSha256 : Str
  httpStatus : Option Int
  responseCode : Option Str
  retryAfterHeader : Option Str
  outcomeState : Option GateState
deriving DecidableEq

structure Tables where
  control : ControlRow
  journal : List JournalRow
  attempts : List AuthAttemptRow
  events : List ControlRow

/-! ## Constraints -/

/-- `ck_vietshare_gate_armed_complete`. -/
def ControlRow.Complete (c : ControlRow) : Prop :=
  c.approvedTestId.isSome ∧ c.approvedProductId.any (0 < ·) ∧
    c.approvedQuantity.any (fun n => 1 ≤ n && n ≤ 100) ∧
    c.approvedMaxUnitPriceVnd.any (0 < ·) ∧ c.approvedSpendCapVnd.any (0 < ·) ∧
    c.approvedQuantity.getD 0 * c.approvedMaxUnitPriceVnd.getD 0 ≤ c.approvedSpendCapVnd.getD 0 ∧
    c.approvedWalletId.isSome ∧ c.approvedCurrency = some (str "VND") ∧
    c.approvedBy.any (· ≠ []) ∧ c.approvalRef.any (· ≠ []) ∧ c.allowedOperatorIds ≠ []

def ControlRow.Check (c : ControlRow) : Prop :=
  (c.approvedCurrency = none ∨ c.approvedCurrency = some (str "VND")) ∧
    (c.enabled = true → c.Complete)

/-- `^[0-9a-f]{64}$`. -/
def isHash (s : Str) : Bool :=
  fullmatch (fun c => isDigit c || (0x61 ≤ c.val && c.val ≤ 0x66)) 64 64 s

/-- The CHECK constraints of the journal; the one on the state is its type. -/
def JournalRow.Check (r : JournalRow) : Prop :=
  r.source = str "vietshare" ∧ r.currency = str "VND" ∧ 0 < r.productId ∧
    (1 ≤ r.quantity ∧ r.quantity ≤ 100) ∧
    (0 < r.maxUnitPriceVnd ∧ 0 < r.absoluteSpendCapVnd ∧
      r.quantity * r.maxUnitPriceVnd ≤ r.absoluteSpendCapVnd) ∧
    isHash r.bodySha256 = true ∧ isKey r.idempotencyKey = true

def AuthAttemptRow.Check (r : AuthAttemptRow) : Prop :=
  r.method = str "POST" ∧ isHash r.bodySha256 = true ∧ isHash r.canonicalSha256 = true ∧
    (r.httpStatus.all fun n => 100 ≤ n && n ≤ 599) = true ∧
    (r.outcomeState.all fun st => st = .unknown || st = .reconciling || st = .succeeded) = true

/-- The columns of a journal row that no update may change. -/
structure WriteIdentity where
  testId : Str
  idempotencyKey : Str
  rawBody : Bytes
  bodySha256 : Str
  source : Str
  productId : Int
  quantity : Int
  maxUnitPriceVnd : Int
  absoluteSpendCapVnd : Int
  walletId : Str
  currency : Str
  operatorId : Str
deriving DecidableEq

def JournalRow.identity (r : JournalRow) : WriteIdentity :=
  ⟨r.testId, r.idempotencyKey, r.rawBody, r.bodySha256, r.source, r.productId, r.quantity,
    r.maxUnitPriceVnd, r.absoluteSpendCapVnd, r.walletId, r.currency, r.operatorId⟩

instance (c : ControlRow) : Decidable c.Complete :=
  inferInstanceAs (Decidable (_ ∧ _ ∧ _ ∧ _ ∧ _ ∧ _ ∧ _ ∧ _ ∧ _ ∧ _ ∧ _))

instance (c : ControlRow) : Decidable c.Check := inferInstanceAs (Decidable (_ ∧ _))

instance (r : JournalRow) : Decidable r.Check :=
  inferInstanceAs (Decidable (_ ∧ _ ∧ _ ∧ _ ∧ _ ∧ _ ∧ _))

instance (r : AuthAttemptRow) : Decidable r.Check :=
  inferInstanceAs (Decidable (_ ∧ _ ∧ _ ∧ _ ∧ _))

namespace Tables

/-- The journal row of a test. -/
def row? (t : Tables) (testId : Str) : Option JournalRow := lookup (·.testId) t.journal testId

/-- The attempt with a nonce. -/
def attempt? (t : Tables) (nonce : Str) : Option AuthAttemptRow :=
  lookup AuthAttemptRow.nonce t.attempts nonce

/-- The unresolved rows, on whose source there is a unique index. -/
def unresolved (t : Tables) : List JournalRow := t.journal.filter (·.state.isUnresolved)

def JournalOk (t : Tables) : Prop :=
  (t.journal.map (·.testId)).Nodup ∧ (t.journal.map (·.idempotencyKey)).Nodup ∧
    (t.unresolved.map (·.source)).Nodup ∧ ∀ r ∈ t.journal, r.Check

def AttemptsOk (t : Tables) : Prop :=
  (t.attempts.map (·.nonce)).Nodup ∧
    (t.attempts.map fun r => (r.testId, r.timestamp)).Nodup ∧
    (∀ r ∈ t.attempts, r.testId ∈ t.journal.map (·.testId)) ∧ ∀ r ∈ t.attempts, r.Check

theorem mem_of_row? {t : Tables} {testId : Str} {r : JournalRow} (h : t.row? testId = some r) :
    r ∈ t.journal := mem_of_lookup h

theorem testId_of_row? {t : Tables} {testId : Str} {r : JournalRow} (h : t.row? testId = some r) :
    r.testId = testId :=
  @key_of_lookup _ _ _ (fun r : JournalRow => r.testId) _ _ _ h

instance (t : Tables) : Decidable t.JournalOk := inferInstanceAs (Decidable (_ ∧ _ ∧ _ ∧ _))

instance (t : Tables) : Decidable t.AttemptsOk := inferInstanceAs (Decidable (_ ∧ _ ∧ _ ∧ _))

/-- The triggers: the identity of a journal row never changes, no row of the
journal is deleted, and audit events are only added. -/
def Trigger (t t' : Tables) : Prop :=
  t.journal.map (·.identity) <+: t'.journal.map (·.identity) ∧ t.events <+: t'.events

instance (t t' : Tables) : Decidable (t.Trigger t') := inferInstanceAs (Decidable (_ ∧ _))

end Tables

def gateSchema : Schema Tables where
  Valid t := t.control.Check ∧ t.JournalOk ∧ t.AttemptsOk
  Trigger := Tables.Trigger
  decValid _ := inferInstanceAs (Decidable (_ ∧ _ ∧ _))
  decTrigger _ _ := inferInstanceAs (Decidable (_ ∧ _))

abbrev Store := gateSchema.Store

/-- The gate as the migration leaves it: disabled, without any test. -/
def Store.migrated : Store :=
  ⟨⟨⟨false, [], none, none, none, none, none, none, none, none, none⟩, [], [], []⟩, by decide⟩

abbrev GateTx := Tx Store Exc

/-- The number fits a `bigint` column. -/
def isBigint (n : Int) : Bool := -0x8000000000000000 ≤ n && n ≤ 0x7fffffffffffffff

/-- The number fits an `integer` column. -/
def isInt4 (n : Int) : Bool := -0x80000000 ≤ n && n ≤ 0x7fffffff

/-- The text can be stored in a `varchar(n)` as it is. -/
def fitsText (n : Nat) (s : Str) : Bool := storable s && s.length ≤ n

theorem fitsText_iff {n : Nat} {s : Str} :
    fitsText n s = true ↔ storable s = true ∧ s.length ≤ n := by
  simp [fitsText]

def ControlRow.fits (c : ControlRow) : Bool :=
  c.allowedOperatorIds.all (·.all (fitsText 128)) && c.approvedTestId.all (fitsText 64) &&
    c.approvedProductId.all isBigint && c.approvedQuantity.all isInt4 &&
    c.approvedMaxUnitPriceVnd.all isBigint &&
    c.approvedSpendCapVnd.all isBigint && c.approvedWalletId.all (fitsText 128) &&
    c.approvedCurrency.all (fitsText 3) && c.approvedBy.all (fitsText 128) &&
    c.approvalRef.all (fitsText 256)

def JournalRow.fits (r : JournalRow) : Bool :=
  fitsText 64 r.testId && fitsText 128 r.idempotencyKey && fitsText 64 r.bodySha256 &&
    isBigint r.productId && isInt4 r.quantity && isBigint r.maxUnitPriceVnd &&
    isBigint r.absoluteSpendCapVnd && fitsText 128 r.walletId && fitsText 128 r.operatorId

/-! ## Intents -/

/-- `[A-Za-z0-9._:-]{1,128}`. -/
def isId (s : Str) : Bool := fullmatch isKeyChar 1 128 s

def maxBigint : Int := 0x7fffffffffffffff

def CappedTestIntent.isValid (testId idempotencyKey : Str) (purchase : OrderPurchase)
    (absoluteSpendCapVnd : Int) (walletId operatorId : Str) : Bool :=
  testId.length ≤ 64 && isId testId && isKey idempotencyKey && purchase.currency = str "VND" &&
    0 < absoluteSpendCapVnd && absoluteSpendCapVnd ≤ maxBigint &&
    purchase.maxUnitPrice ≤ maxBigint &&
    purchase.quantity * purchase.maxUnitPrice ≤ absoluteSpendCapVnd &&
    purchase.supplierEmails = [] && purchase.couponCode = none && purchase.flashSaleId = none &&
    isId walletId && isId operatorId

/-- The intent of one capped test; `valid` is what `__post_init__` checks. -/
structure CappedTestIntent where
  testId : Str
  idempotencyKey : Str
  purchase : OrderPurchase
  absoluteSpendCapVnd : Int
  walletId : Str
  operatorId : Str
  valid : CappedTestIntent.isValid testId idempotencyKey purchase absoluteSpendCapVnd walletId
    operatorId = true

def CappedTestIntent.make (testId idempotencyKey : Str) (purchase : OrderPurchase)
    (absoluteSpendCapVnd : Int) (walletId operatorId : Str) : Except Exc CappedTestIntent :=
  if h : isValid testId idempotencyKey purchase absoluteSpendCapVnd walletId operatorId = true then
    .ok ⟨testId, idempotencyKey, purchase, absoluteSpendCapVnd, walletId, operatorId, h⟩
  else .error (.gate "Invalid capped VietShare test intent")

/-! ## Operations -/

section

variable [Hashlib]

/-- The row that `prepare` inserts. -/
def JournalRow.prepared (intent : CappedTestIntent) (body : Bytes) : JournalRow where
  testId := intent.testId
  idempotencyKey := intent.idempotencyKey
  rawBody := body
  bodySha256 := sha256Hex body
  source := str "vietshare"
  productId := intent.purchase.productId
  quantity := intent.purchase.quantity
  maxUnitPriceVnd := intent.purchase.maxUnitPrice
  absoluteSpendCapVnd := intent.absoluteSpendCapVnd
  walletId := intent.walletId
  currency := str "VND"
  operatorId := intent.operatorId
  state := .prepared
  retryNotBefore := none
  supplierOrderCode := none
  lastErrorCode := none

/-- `INSERT … ON CONFLICT DO NOTHING`; the CHECK constraints come before the conflict. -/
def insertPrepared (row : JournalRow) : GateTx Unit := do
  Tx.ensure (row.fits ∧ row.Check) .database
  let t ← Tx.query Subtype.val
  if t.journal.any fun r => r.testId = row.testId || r.idempotencyKey = row.idempotencyKey then
    return ()
  gateSchema.execute .database fun t => { t with journal := t.journal ++ [row] }

/-- The row of a query that selects exactly one. -/
def single {ρ : Type} : List ρ → Option ρ
  | [r] => some r
  | _ => none

/-- What `prepare` compares of the stored row. -/
def GateRecord.matchesIntent (record : GateRecord) (intent : CappedTestIntent) (body : Bytes) :
    Bool :=
  record.testId = intent.testId && record.idempotencyKey = intent.idempotencyKey &&
    record.rawBody = body && record.bodySha256 = sha256Hex body &&
    record.productId = intent.purchase.productId && record.quantity = intent.purchase.quantity &&
    record.maxUnitPriceVnd = intent.purchase.maxUnitPrice &&
    record.absoluteSpendCapVnd = intent.absoluteSpendCapVnd &&
    record.walletId = intent.walletId && record.operatorId = intent.operatorId

def prepare (intent : CappedTestIntent) : GateTx GateRecord := do
  let body ← Tx.ofExcept intent.purchase.rawBody
  insertPrepared (.prepared intent body)
  let t ← Tx.query Subtype.val
  let stored ← Tx.getOrThrow (single (t.journal.filter fun r =>
      r.testId = intent.testId || r.idempotencyKey = intent.idempotencyKey))
    (.gate "Test identity or Idempotency-Key conflict")
  Tx.ensure (stored.matchesIntent intent body) (.gate "Test identity or Idempotency-Key conflict")
  return stored.toGateRecord

/-- What `claim` checks of its own arguments. -/
def validAuth (timestamp : Option Int) (nonce : Option Str) : Bool :=
  timestamp.any (0 ≤ ·) && nonce.any fun n => 12 ≤ n.length && n.length ≤ 128 && !hasLineBreak n

/-- The gate is enabled and its approval is for this test and operator. -/
def ControlRow.approves (c : ControlRow) (operatorId : Option Str) (record : GateRecord) : Bool :=
  c.enabled && operatorId = some record.operatorId && c.allowedOperatorIds.contains operatorId &&
    c.approvedTestId = some record.testId && c.approvedProductId = some record.productId &&
    c.approvedQuantity = some record.quantity &&
    c.approvedMaxUnitPriceVnd = some record.maxUnitPriceVnd &&
    c.approvedSpendCapVnd = some record.absoluteSpendCapVnd &&
    c.approvedWalletId = some record.walletId && c.approvedCurrency = some (str "VND")

/-- The codes after which a test is only investigated. -/
def isFrozenCode (code : Option Str) : Bool :=
  code = some (str "IDEMPOTENCY_MISMATCH") || code = some (str "SPEND_CAP_EXCEEDED")

/-- The body that the commercial fields of a record ask for. -/
def GateRecord.expectedBody (record : GateRecord) : Except Exc Bytes := do
  let purchase ← OrderPurchase.make record.productId record.quantity record.maxUnitPriceVnd
    (str "VND") [] none none
  purchase.rawBody

/-- `_canonical_bytes`. -/
def canonicalBytes (timestamp : Int) (nonce bodySha256 : Str) : Except Exc Bytes :=
  encode (canonicalString timestamp nonce (str "POST") ordersPath bodySha256)

/-- The checks of `claim` on the stored row, at the clock reading `now`. -/
def checkClaim (operatorId : Option Str) (now : Int) (record : GateRecord) : GateTx Unit := do
  let t ← Tx.query Subtype.val
  Tx.ensure (t.control.approves operatorId record)
    (.gate "VietShare test gate is disabled or approval does not match")
  Tx.ensure (record.state = .prepared ∨ record.state = .reconciling)
    (.gate "Test state does not permit dispatch")
  Tx.ensure (isFrozenCode record.lastErrorCode = false)
    (.gate "Supplier result is frozen for reconciliation")
  Tx.ensure (sha256Hex record.rawBody = record.bodySha256)
    (.gate "Stored request body hash does not match exact bytes")
  let expectedBody ← Tx.ofExcept record.expectedBody
  Tx.ensure (record.rawBody = expectedBody)
    (.gate "Stored request body does not match approved commercial fields")
  Tx.ensure (record.retryNotBefore.all (· ≤ now)) (.gate "Retry-After has not elapsed")
  Tx.ensure ((t.journal.any fun r => r.source = str "vietshare" && r.testId ≠ record.testId &&
    r.state.isUnresolved) = false) (.gate "Another VietShare test is unresolved")

/-- Reserve the nonce and the timestamp of a signature. -/
def reserveAttempt (testId : Str) (timestamp : Int) (nonce bodySha256 : Str) : GateTx Unit := do
  let canonical ← Tx.ofExcept (canonicalBytes timestamp nonce bodySha256)
  Tx.ensure (fitsText 128 nonce && isBigint timestamp) .database
  gateSchema.execute (.gate "Signing timestamp or nonce was previously used") fun t =>
    { t with attempts := t.attempts ++ [⟨nonce, testId, timestamp, str "POST", bodySha256,
      sha256Hex canonical, none, none, none, none⟩] }

def Tables.setJournal (t : Tables) (testId : Str) (f : JournalRow → JournalRow) : Tables :=
  { t with journal := modify (·.testId) t.journal testId f }

def JournalRow.claimed (r : JournalRow) : JournalRow :=
  { r with state := .dispatching, retryNotBefore := none }

/-- The record that is returned is the one before the claim. -/
def claim (testId : Str) (operatorId : Option Str) (timestamp : Option Int) (nonce : Option Str)
    (now : Int) : GateTx GateRecord := do
  Tx.ensure (validAuth timestamp nonce) (.gate "Invalid signing timestamp or nonce")
  Tx.ensure (storable testId) .database
  let t ← Tx.query Subtype.val
  let row ← Tx.getOrThrow (t.row? testId)
    (.gate "Test was not durably prepared")
  checkClaim operatorId now row.toGateRecord
  reserveAttempt testId (timestamp.getD 0) (nonce.getD []) row.bodySha256
  gateSchema.execute .database fun t => t.setJournal testId JournalRow.claimed
  return row.toGateRecord

/-- The delay in seconds as `finish` accepts it. -/
def delaySeconds (delay : Option (Option PyNum)) : Except Exc (Option ℚ) :=
  match delay with
  | none => .ok none
  | some none => .error (.gate "Invalid Retry-After duration")
  | some (some x) =>
    match x.toFloat with
    | none => .error .exception
    | some y =>
      match y.finite? with
      | none => .error (.gate "Invalid Retry-After duration")
      | some q =>
        if 0 ≤ q ∧ q ≤ 1000000000 then .ok (some q)
        else .error (.gate "Invalid Retry-After duration")

/-- `delay * INTERVAL '1 second'`, in microseconds. -/
def interval (delay : ℚ) : Int :=
  match PyFloat.ofRat (1000000 * delay) with
  | .finite q => PyFloat.roundHalfEven q
  | _ => 0

def headerEvidence (header : Option (Option Str)) : Except Exc (Option Str) :=
  match header with
  | none => .ok none
  | some (some text) =>
    if text.length ≤ 256 then .ok (some text) else .error (.gate "Invalid Retry-After evidence")
  | some none => .error (.gate "Invalid Retry-After evidence")

/-- What `finish` is told of a dispatch. -/
structure Completion where
  state : GateState
  retryDelaySeconds : Option (Option PyNum)
  httpStatus : Option Int
  retryAfterHeader : Option (Option Str)
  orderCode : Option Str
  errorCode : Option Str
deriving DecidableEq

def JournalRow.finished (state : GateState) (retryNotBefore : Option Int)
    (orderCode errorCode : Option Str) (r : JournalRow) : JournalRow :=
  { r with
    state := state
    retryNotBefore := retryNotBefore
    supplierOrderCode := orderCode
    lastErrorCode := errorCode }

def AuthAttemptRow.completed (status : Option Int) (errorCode header : Option Str)
    (state : GateState) (r : AuthAttemptRow) : AuthAttemptRow :=
  { r with
    httpStatus := status
    responseCode := errorCode
    retryAfterHeader := header
    outcomeState := some state }

def Tables.setAttempt (t : Tables) (nonce : Str) (f : AuthAttemptRow → AuthAttemptRow) : Tables :=
  { t with attempts := modify AuthAttemptRow.nonce t.attempts nonce f }

/-- An update of the control row, with its audit event. -/
def Tables.setControl (t : Tables) (c : ControlRow) : Tables :=
  { t with control := c, events := t.events ++ [c] }

/-- A nullable text parameter that the driver can send. -/
def sendable (value : Option Str) : Bool := value.all storable

/-- Move the dispatching test of `testId` to the state of the completion. -/
def finishJournal (testId : Str) (c : Completion) (retryNotBefore : Option Int) : GateTx Unit := do
  Tx.ensure (storable testId && sendable c.orderCode && sendable c.errorCode) .database
  let t ← Tx.query Subtype.val
  let _ ← Tx.getOrThrow ((t.row? testId).filter (·.state = .dispatching))
    (.gate "Dispatch state changed before completion")
  let orderCode ← Tx.getOrThrow (varcharOrNull 128 c.orderCode) .database
  let errorCode ← Tx.getOrThrow (varcharOrNull 64 c.errorCode) .database
  gateSchema.execute .database fun t =>
    t.setJournal testId (.finished c.state retryNotBefore orderCode errorCode)

/-- Record the outcome of the reserved attempt. -/
def finishAttempt (testId nonce : Str) (c : Completion) (header : Option Str) : GateTx Unit := do
  Tx.ensure (storable nonce && sendable header && c.httpStatus.all isInt4) .database
  let t ← Tx.query Subtype.val
  let _ ← Tx.getOrThrow ((t.attempt? nonce).filter fun r =>
      r.testId = testId && r.outcomeState = none)
    (.gate "Signing attempt was not reserved before dispatch")
  let errorCode ← Tx.getOrThrow (varcharOrNull 64 c.errorCode) .database
  let header ← Tx.getOrThrow (varcharOrNull 256 header) .database
  gateSchema.execute .database fun t =>
    t.setAttempt nonce (.completed c.httpStatus errorCode header c.state)

def finish (testId nonce : Str) (c : Completion) (now : Int) : GateTx Unit := do
  Tx.ensure (c.state = .unknown ∨ c.state = .reconciling ∨ c.state = .succeeded)
    (.gate "Invalid automatic completion state")
  let delay ← Tx.ofExcept (delaySeconds c.retryDelaySeconds)
  let header ← Tx.ofExcept (headerEvidence c.retryAfterHeader)
  finishJournal testId c (delay.map fun d => now + interval d)
  finishAttempt testId nonce c header
  gateSchema.execute .database fun t => t.setControl { t.control with enabled := false }

def JournalRow.reconciling (r : JournalRow) : JournalRow := { r with state := .reconciling }

/-- Record deliberate investigation; this does not authorize a new POST. -/
def markReconciling (testId : Str) (operatorId : Option Str) : GateTx Unit := do
  let t ← Tx.query Subtype.val
  Tx.ensure (operatorId.isSome && t.control.allowedOperatorIds.contains operatorId)
    (.gate "Operator is not currently allowed to reconcile")
  Tx.ensure (storable testId && sendable operatorId) .database
  let _ ← Tx.getOrThrow ((t.row? testId).filter fun r =>
      some r.operatorId = operatorId && r.state = .unknown)
    (.gate "UNKNOWN test and matching operator are required")
  gateSchema.execute .database fun t => t.setJournal testId JournalRow.reconciling

/-- An update of the control row by an operator, with the row it leaves. -/
def updateControl (c : ControlRow) : GateTx Unit := do
  Tx.ensure c.fits .database
  gateSchema.execute .database fun t => t.setControl c

def getRecord (testId : Str) : GateTx (Option GateRecord) := do
  Tx.ensure (storable testId) .database
  let t ← Tx.query Subtype.val
  return (t.row? testId).map (·.toGateRecord)

/-! ## The interface -/

inductive GateOp where
  | prepare (intent : CappedTestIntent)
  | claim (testId : Str) (operatorId : Option Str) (timestamp : Option Int) (nonce : Option Str)
  | finish (testId nonce : Str) (c : Completion)
  | markReconciling (testId : Str) (operatorId : Option Str)
  | updateControl (c : ControlRow)
  | get (testId : Str)
  | serverNowSeconds

abbrev GateOp.Res : GateOp → Type
  | .prepare _ | .claim _ _ _ _ => GateRecord
  | .finish _ _ _ | .markReconciling _ _ | .updateControl _ => Unit
  | .get _ => Option GateRecord
  | .serverNowSeconds => PyFloat

def GateOp.body (now : Int) : (op : GateOp) → GateTx op.Res
  | .prepare intent => VietShare.prepare intent
  | .claim testId operatorId timestamp nonce =>
    VietShare.claim testId operatorId timestamp nonce now
  | .finish testId nonce c => VietShare.finish testId nonce c now
  | .markReconciling testId operatorId => VietShare.markReconciling testId operatorId
  | .updateControl c => VietShare.updateControl c
  | .get testId => getRecord testId
  | .serverNowSeconds => pure (PyFloat.ofRat (now / 1000000))

/-- One gate operation at a clock reading: its result, and the store after it. -/
def GateOp.exec (now : Int) (op : GateOp) (s : Store) : Except Exc op.Res × Store :=
  (op.body now).commit s

end

end NyanShopBot.VietShare
