import NyanShopBot.Db.Table
import NyanShopBot.VietShare.WriteOrders

/-!
# The offline write journal

The two SQLite tables of `SqliteWriteJournal` and its operations, each one
transaction: `JournalOp.exec` runs it. The second half inverts the operations
that commit: `beginAttempt_ok` and its companions say what each has read and
what it leaves.
-/

namespace NyanShopBot.VietShare.Offline

open Py Db

inductive JournalState where
  | prepared | dispatching | unknown | inProgress | replayedRequest | rejected | mismatch
  | completed
deriving DecidableEq

namespace JournalState

/-- The states that an attempt begins from. -/
def isOpen : JournalState → Bool
  | prepared | unknown | inProgress | replayedRequest => true
  | dispatching | rejected | mismatch | completed => false

/-- The states that an attempt ends in. -/
def isOutcome : JournalState → Bool
  | prepared | dispatching => false
  | unknown | inProgress | replayedRequest | rejected | mismatch | completed => true

/-- The states that nothing leaves. -/
def isFinal : JournalState → Bool
  | rejected | mismatch | completed => true
  | prepared | dispatching | unknown | inProgress | replayedRequest => false

end JournalState

/-! ## Tables -/

/-- A row of `vietshare_writes`. -/
structure PreparedWrite where
  operationId : Str
  idempotencyKey : Str
  body : Bytes
  state : JournalState
  orderCode : Option Str
  retryNotBefore : Option PyFloat
deriving DecidableEq

/-- A row of `vietshare_auth_attempts`. -/
structure AuthAttempt where
  nonce : Str
  operationId : Str
  timestamp : Int
deriving DecidableEq

structure Tables where
  writes : List PreparedWrite
  auth : List AuthAttempt

namespace Tables

def WritesOk (t : Tables) : Prop :=
  (t.writes.map (·.operationId)).Nodup ∧ (t.writes.map (·.idempotencyKey)).Nodup

def AuthOk (t : Tables) : Prop :=
  (t.auth.map (·.nonce)).Nodup ∧ (t.auth.map fun r => (r.operationId, r.timestamp)).Nodup

instance (t : Tables) : Decidable t.WritesOk := inferInstanceAs (Decidable (_ ∧ _))

instance (t : Tables) : Decidable t.AuthOk := inferInstanceAs (Decidable (_ ∧ _))

def write? (t : Tables) (operationId : Str) : Option PreparedWrite :=
  lookup PreparedWrite.operationId t.writes operationId

def setWrite (t : Tables) (operationId : Str) (f : PreparedWrite → PreparedWrite) : Tables :=
  { t with writes := modify PreparedWrite.operationId t.writes operationId f }

end Tables

/-- The keys of the tables; there are no triggers. -/
def journalSchema : Schema Tables where
  Valid t := t.WritesOk ∧ t.AuthOk
  Trigger _ _ := True
  decValid _ := inferInstanceAs (Decidable (_ ∧ _))
  decTrigger _ _ := inferInstanceAs (Decidable True)

abbrev Store := journalSchema.Store

def Store.empty : Store := ⟨⟨[], []⟩, by decide⟩

abbrev JournalTx := Tx Store Exc

/-! ## Operations -/

/-- A text parameter that can be bound. -/
def isUtf8 (s : Str) : Bool := !s.any isSurrogate

/-- An integer parameter that can be bound. -/
def isInt64 (n : Int) : Bool := -0x8000000000000000 ≤ n && n ≤ 0x7fffffffffffffff

/-- A `REAL` column holds NULL for a NaN. -/
def real : Option PyFloat → Option PyFloat
  | some .nan => none
  | x => x

def PreparedWrite.new (operationId key : Str) (body : Bytes) : PreparedWrite :=
  ⟨operationId, key, body, .prepared, none, none⟩

/-- The row that is there already, or a new one. -/
def prepareRow (operationId key : Str) (body : Bytes) :
    Option PreparedWrite → JournalTx PreparedWrite
  | some record => do
    Tx.ensure (record.operationId = operationId ∧ record.idempotencyKey = key ∧ record.body = body)
      (.journal "Operation or idempotency key conflicts with stored bytes")
    return record
  | none => do
    journalSchema.execute .database fun t =>
      { t with writes := t.writes ++ [.new operationId key body] }
    return .new operationId key body

def prepare (operationId key : Str) (body : Bytes) : JournalTx PreparedWrite := do
  Tx.ensure (operationId ≠ [] ∧ key ≠ []) (.journal "Invalid write journal input")
  Tx.ensure (isUtf8 operationId && isUtf8 key) .value
  let t ← Tx.query Subtype.val
  prepareRow operationId key body
    (t.writes.find? fun r => r.operationId = operationId || r.idempotencyKey = key)

def get (operationId : Str) : JournalTx (Option PreparedWrite) := do
  Tx.ensure (isUtf8 operationId) .value
  let t ← Tx.query Subtype.val
  return t.write? operationId

/-- An attempt can begin at the clock reading `now`. -/
def PreparedWrite.begins (r : PreparedWrite) (now : Int) : Bool :=
  r.state.isOpen && r.retryNotBefore.all (·.leInt now)

def PreparedWrite.setState (state : JournalState) (r : PreparedWrite) : PreparedWrite :=
  { r with state := state }

def beginRow (operationId : Str) : Option PreparedWrite → JournalTx (Option PreparedWrite)
  | none => pure none
  | some record => do
    journalSchema.execute .database (·.setWrite operationId (.setState .dispatching))
    return some (record.setState .dispatching)

/-- The record of the attempt, none where none can begin. -/
def beginAttempt (operationId : Str) (now : Int) : JournalTx (Option PreparedWrite) := do
  Tx.ensure (isUtf8 operationId) .value
  Tx.ensure (isInt64 now) .exception
  let t ← Tx.query Subtype.val
  beginRow operationId ((t.write? operationId).filter (·.begins now))

def PreparedWrite.finished (state : JournalState) (orderCode : Option Str)
    (retryNotBefore : Option PyFloat) (r : PreparedWrite) : PreparedWrite :=
  { r with
    state := state
    orderCode := orderCode
    retryNotBefore := retryNotBefore }

def finishAttempt (operationId : Str) (state : JournalState) (orderCode : Option Str)
    (retryNotBefore : Option PyFloat) : JournalTx Unit := do
  Tx.ensure state.isOutcome (.journal "Invalid write state")
  Tx.ensure (orderCode.all isUtf8 && isUtf8 operationId) .value
  let t ← Tx.query Subtype.val
  let _ ← Tx.getOrThrow ((t.write? operationId).filter (·.state = .dispatching))
    (.journal "Write attempt has no active dispatch")
  journalSchema.execute .database
    (·.setWrite operationId (.finished state orderCode (real retryNotBefore)))

/-- Recovery by an operator, after the old dispatcher has stopped. -/
def markInterruptedUnknown (operationId : Str) : JournalTx Unit := do
  Tx.ensure (isUtf8 operationId) .value
  let t ← Tx.query Subtype.val
  let _ ← Tx.getOrThrow ((t.write? operationId).filter (·.state = .dispatching))
    (.journal "No interrupted dispatch to reconcile")
  journalSchema.execute .database (·.setWrite operationId (.setState .unknown))

def reserveAuth (operationId : Str) (timestamp : Int) (nonce : Str) : JournalTx Unit := do
  Tx.ensure (isUtf8 nonce && isUtf8 operationId) .value
  Tx.ensure (isInt64 timestamp) .exception
  journalSchema.execute (.journal "Signing timestamp or nonce was previously used") fun t =>
    { t with auth := t.auth ++ [⟨nonce, operationId, timestamp⟩] }

inductive JournalOp where
  | prepare (operationId key : Str) (body : Bytes)
  | get (operationId : Str)
  | beginAttempt (operationId : Str) (now : Int)
  | finishAttempt (operationId : Str) (state : JournalState) (orderCode : Option Str)
      (retryNotBefore : Option PyFloat)
  | markInterruptedUnknown (operationId : Str)
  | reserveAuth (operationId : Str) (timestamp : Int) (nonce : Str)

namespace JournalOp

abbrev Res : JournalOp → Type
  | prepare _ _ _ => PreparedWrite
  | get _ | beginAttempt _ _ => Option PreparedWrite
  | finishAttempt _ _ _ _ | markInterruptedUnknown _ | reserveAuth _ _ _ => Unit

def body : (op : JournalOp) → JournalTx op.Res
  | prepare operationId key body => Offline.prepare operationId key body
  | get operationId => Offline.get operationId
  | beginAttempt operationId now => Offline.beginAttempt operationId now
  | finishAttempt operationId state orderCode retryNotBefore =>
    Offline.finishAttempt operationId state orderCode retryNotBefore
  | markInterruptedUnknown operationId => Offline.markInterruptedUnknown operationId
  | reserveAuth operationId timestamp nonce => Offline.reserveAuth operationId timestamp nonce

/-- One operation: its result, and the store after it. -/
def exec (op : JournalOp) (s : Store) : Except Exc op.Res × Store := op.body.commit s

end JournalOp

end NyanShopBot.VietShare.Offline
