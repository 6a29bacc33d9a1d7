import NyanShopBot.Orders.Service

/-!
# What the calls of the service do in order

`callProtocol` follows each call through its `Stage`. A placing call prepares
its own key, claims the intent it was given, sends the request of its claim
once and records the outcome of that; a recovering call records only what its
reconciliation answered. `body_follows`: every call follows the protocol, and
`Stage.Ends` is what it has done when it ends.
-/

namespace NyanShopBot.Orders

open Py Db Conc

section

variable [UnicodeData]

/-- How far a call has come. -/
inductive Stage where
  | other
  | recovering (id : Str)
  | started (id : Str) (a : OrderAggregate)
  | reconciled (id : Str) (result : Except Exc ReconciliationResult)
  | idle (key : Str)
  | prepared (key id : Str)
  | claimed (key id : Str) (a : OrderAggregate)
  | sent (key id : Str) (outcome : Except Exc PurchaseResult)
  | recorded (key id : Str) (outcome : Except Exc PurchaseResult) (r : Except Exc OrderAggregate)

/-- An outcome that says nothing certain about the purchase. -/
def uncertain : Except Exc PurchaseResult → Prop
  | .ok (.succeeded _) | .ok (.failedSafe _) | .error .fatal => False
  | _ => True

/-- The operations that are in order at a stage. -/
def Stage.ok (g : Stage) : ServiceOp → Prop
  | .repo (.prepare c) => g = .idle c.intent.idempotencyKey
  | .repo (.claimPrepared id) => ∃ key, g = .prepared key id
  | .purchase request => ∃ key id a, g = .claimed key id a ∧ request = supplierRequest a
  | .repo (.recordSuccess id reference) =>
    (∃ key, g = .sent key id (.ok (.succeeded reference))) ∨
      g = .reconciled id (.ok (.succeeded reference))
  | .repo (.recordSafeFailure id code) =>
    (∃ key, g = .sent key id (.ok (.failedSafe code))) ∨
      g = .reconciled id (.ok (.failedSafe code))
  | .repo (.recordUnknown id) =>
    (∃ key outcome, g = .sent key id outcome ∧ uncertain outcome) ∨ g = .recovering id
  | .repo (.beginReconciliation id) => g = .recovering id
  | .reconcile request => ∃ id a, g = .started id a ∧ request = supplierRequest a
  | _ => True

/-- The stage after the record of an outcome. -/
def Stage.record (g : Stage) (r : Except Exc OrderAggregate) : Stage :=
  match g with
  | .sent key id outcome => .recorded key id outcome r
  | g => g

/-- The stage after an operation. -/
def Stage.next (g : Stage) : (op : ServiceOp) → Except Exc op.Res → Stage
  | .repo (.prepare _), .ok r =>
    match g with
    | .idle key => .prepared key r.aggregate.intent.id
    | g => g
  | .repo (.claimPrepared _), .ok (some a) =>
    match g with
    | .prepared key id => .claimed key id a
    | g => g
  | .purchase _, r =>
    match g with
    | .claimed key id _ => .sent key id r
    | g => g
  | .repo (.beginReconciliation _), .ok r =>
    match g with
    | .recovering id => .started id r.aggregate
    | g => g
  | .reconcile _, r =>
    match g with
    | .started id _ => .reconciled id r
    | g => g
  | .repo (.recordSuccess _ _), r => g.record r
  | .repo (.recordSafeFailure _ _), r => g.record r
  | .repo (.recordUnknown _), r => g.record r
  | _, _ => g

/-- **The operations that move a stage**, with the results that do. -/
inductive Stage.Moves : Stage → (op : ServiceOp) → Except Exc op.Res → Stage → Prop where
  | prepared (key : Str) (c : OrderAggregate) (r : PrepareResult) :
      Moves (.idle key) (.repo (.prepare c)) (.ok r) (.prepared key r.aggregate.intent.id)
  | claimed (key id id' : Str) (a : OrderAggregate) :
      Moves (.prepared key id) (.repo (.claimPrepared id')) (.ok (some a)) (.claimed key id a)
  | sent (key id : Str) (a : OrderAggregate) (request : SupplierPurchaseRequest)
      (r : Except Exc PurchaseResult) :
      Moves (.claimed key id a) (.purchase request) r (.sent key id r)
  | started (id id' : Str) (r : ReconciliationStart) :
      Moves (.recovering id) (.repo (.beginReconciliation id')) (.ok r) (.started id r.aggregate)
  | reconciled (id : Str) (a : OrderAggregate) (request : SupplierPurchaseRequest)
      (r : Except Exc ReconciliationResult) :
      Moves (.started id a) (.reconcile request) r (.reconciled id r)
  | recordSuccess (key id id' : Str) (outcome : Except Exc PurchaseResult) (reference : Option Str)
      (r : Except Exc OrderAggregate) :
      Moves (.sent key id outcome) (.repo (.recordSuccess id' reference)) r
        (.recorded key id outcome r)
  | recordSafeFailure (key id id' : Str) (outcome : Except Exc PurchaseResult)
      (code : Option SafeFailureCode) (r : Except Exc OrderAggregate) :
      Moves (.sent key id outcome) (.repo (.recordSafeFailure id' code)) r
        (.recorded key id outcome r)
  | recordUnknown (key id id' : Str) (outcome : Except Exc PurchaseResult)
      (r : Except Exc OrderAggregate) :
      Moves (.sent key id outcome) (.repo (.recordUnknown id')) r (.recorded key id outcome r)

/-- Every other operation leaves the stage as it is. -/
theorem Stage.next_moves (g : Stage) (op : ServiceOp) (r : Except Exc op.Res) :
    g.next op r = g ∨ Moves g op r (g.next op r) := by
  cases op with
  | repo op =>
    cases op with
    | prepare c =>
      cases r with
      | error e => exact .inl rfl
      | ok r => cases g <;> first | exact .inl rfl | exact .inr (.prepared ..)
    | claimPrepared id' =>
      match r with
      | .error e => exact .inl rfl
      | .ok none => exact .inl rfl
      | .ok (some a) => cases g <;> first | exact .inl rfl | exact .inr (.claimed ..)
    | beginReconciliation id' =>
      cases r with
      | error e => exact .inl rfl
      | ok r => cases g <;> first | exact .inl rfl | exact .inr (.started ..)
    | recordSuccess => cases g <;> first | exact .inl rfl | exact .inr (.recordSuccess ..)
    | recordSafeFailure => cases g <;> first | exact .inl rfl | exact .inr (.recordSafeFailure ..)
    | recordUnknown => cases g <;> first | exact .inl rfl | exact .inr (.recordUnknown ..)
    | get => exact .inl rfl
    | createDeliveryAttempt => exact .inl rfl
    | finishDelivery => exact .inl rfl
  | purchase => cases g <;> first | exact .inl rfl | exact .inr (.sent ..)
  | reconcile => cases g <;> first | exact .inl rfl | exact .inr (.reconciled ..)
  | _ => exact .inl rfl

/-- A stage that was not there before was moved to. -/
theorem Stage.moves_of_ne {g g' : Stage} {op : ServiceOp} {r : Except Exc op.Res}
    (h : g.next op r = g') (hne : g ≠ g') : Moves g op r g' := by
  rcases g.next_moves op r with e | hm
  · exact absurd (e.symm.trans h) hne
  · exact h ▸ hm

abbrev callProtocol : Protocol serviceSig Exc := ⟨Stage, Stage.ok, Stage.next⟩

def ServiceCall.stage : ServiceCall → Stage
  | .placeOrder _ request => .idle request.idempotencyKey
  | .recover id => .recovering id
  | .deliver _ | .getOrder _ => .other

/-- What a call has done when it ends: a purchase that was sent is recorded
unless it raised past `except Exception`, and the record is what is returned. -/
def Stage.Ends {α : Type} (f : OrderAggregate → α) (g : Stage) (r : Except Exc α) : Prop :=
  match g with
  | .sent _ _ outcome => outcome = .error .fatal
  | .recorded _ _ outcome rec => outcome ≠ .error .cancelled → r = rec.map f
  | _ => True

/-- The operations that no stage depends on. -/
def ServiceOp.Neutral : ServiceOp → Prop
  | .repo (.get _) | .repo (.createDeliveryAttempt _) | .repo (.finishDelivery _ _ _) => True
  | .repo _ | .purchase _ | .reconcile _ => False
  | _ => True

theorem neutral_frame (g : Stage) (op : ServiceOp) (h : op.Neutral) :
    callProtocol.ok g op ∧ ∀ r, callProtocol.next g op r = g := by
  cases op with
  | repo op => cases op <;> first | exact h.elim | exact ⟨trivial, fun _ => rfl⟩
  | purchase => exact h.elim
  | reconcile => exact h.elim
  | _ => exact ⟨trivial, fun _ => rfl⟩

/-! ## The operations of the checks -/

/-- The reads that the checks of a call make. -/
def ServiceOp.IsCheck : ServiceOp → Prop
  | .runtime | .readCatalog | .getProduct _ | .supplierCode | .capabilities => True
  | _ => False

/-- Every operation that the program awaits is in `C`. -/
abbrev Awaits {α : Type} (C : ServiceOp → Prop) (p : Service α) : Prop := Calls C (fun _ => True) p

section checks

variable {C : ServiceOp → Prop} {α β : Type}

theorem Awaits.bind {p : Service α} {f : α → Service β} (hp : Awaits C p)
    (hf : ∀ a, Awaits C (f a)) : Awaits C (p >>= f) :=
  calls_bind hp (fun a _ => hf a) fun _ _ => trivial

theorem awaits_await (op : ServiceOp) (h : C op) : Awaits C (await op) := calls_perform h

theorem awaits_require (c : Prop) [Decidable c] (e : OrderError) : Awaits C (require c e) :=
  wp_ensure.2 ⟨fun _ => trivial, fun _ => trivial⟩

theorem awaits_ofResult (r : Except OrderError α) : Awaits C (ofResult r) := wp_ofExcept.2 trivial

theorem awaits_guarded {p : Service α} (hp : Awaits C p) (e : OrderError) :
    Awaits C (guarded p e) :=
  Awaits.bind (wp_attempt.2 hp) fun r => by cases r <;> trivial

theorem awaits_assertSafeExecution (h : C .runtime) : Awaits C assertSafeExecution :=
  .bind (awaits_guarded (awaits_await .runtime h) _) fun _ => awaits_require _ _

theorem awaits_requirePurchaseCapability (h : C .capabilities) :
    Awaits C requirePurchaseCapability :=
  .bind (awaits_guarded (awaits_await .capabilities h) _) fun _ => awaits_require _ _

theorem awaits_reconciliationSupported (h : C .capabilities) : Awaits C reconciliationSupported :=
  .bind (awaits_guarded (awaits_await .capabilities h) _) fun c => by
    cases c.reconciliation <;> trivial

theorem awaits_requireMatchingPersistedSupplier (h : C .supplierCode) (a : OrderAggregate) :
    Awaits C (requireMatchingPersistedSupplier a) :=
  .bind (awaits_guarded (awaits_await .supplierCode h) _) fun _ => awaits_require _ _

theorem awaits_authoritativeSelection (h : C .readCatalog) (request : OrderRequest)
    (h' : C (.getProduct request.productId)) : Awaits C (authoritativeSelection request) := by
  refine .bind (awaits_guarded (awaits_await .readCatalog h) _) fun response => ?_
  refine .bind (awaits_require _ _) fun _ => ?_
  split
  · trivial
  split
  · trivial
  refine .bind (awaits_guarded (awaits_await (.getProduct _) h') _) fun detail => ?_
  split
  · refine .bind (awaits_require _ _) fun _ => ?_
    split <;> trivial
  · trivial

end checks

abbrev NeutralCalls {α : Type} (p : Service α) : Prop := Awaits ServiceOp.Neutral p

/-- The candidate has the key of the request. -/
theorem buildCandidate_key [Hashlib] (customerReference : Str) (request : OrderRequest) :
    Calls ServiceOp.Neutral
      (fun r => ∀ c, r = .ok c → c.intent.idempotencyKey = request.idempotencyKey)
      (buildCandidate customerReference request) := by
  have hb {α : Type} {p : Service α} {f : α → Service OrderAggregate} (hp : NeutralCalls p)
      (hf : ∀ a, Calls ServiceOp.Neutral
        (fun r => ∀ c, r = .ok c → c.intent.idempotencyKey = request.idempotencyKey) (f a)) :
      Calls ServiceOp.Neutral
        (fun r => ∀ c, r = .ok c → c.intent.idempotencyKey = request.idempotencyKey) (p >>= f) :=
    calls_bind hp (fun a _ => hf a) fun _ _ _ h => by cases h
  unfold buildCandidate
  refine hb (awaits_assertSafeExecution trivial) fun _ => hb (awaits_require _ _) fun _ => ?_
  refine hb (awaits_requirePurchaseCapability trivial) fun _ => ?_
  refine hb (awaits_authoritativeSelection trivial _ trivial) fun selection =>
    hb (awaits_ofResult _) fun _ => ?_
  refine hb (awaits_require _ _) fun _ => hb (awaits_require _ _) fun _ => ?_
  refine hb (awaits_require _ _) fun _ => hb (awaits_require _ _) fun _ => ?_
  refine hb (awaits_guarded (awaits_await .supplierCode trivial) _) fun _ =>
    hb (awaits_require _ _) fun _ => ?_
  split
  · intro c h; cases h
  · refine wp_ofExcept.2 fun c h => ?_
    cases hb : buildPreparedOrder customerReference request ‹_› with
    | error e => rw [hb] at h; cases h
    | ok d => rw [hb] at h; cases h; exact buildPreparedOrder_key hb

/-! ## The calls -/

theorem wp_neutral {α : Type} {Q : Stage → Except Exc α → Prop} {g : Stage} {p : Service α}
    (hp : NeutralCalls p) (hQ : ∀ r, Q g r) : wp callProtocol Q g p :=
  wp_frame (neutral_frame g) (fun r _ => hQ r) hp

/-- A neutral part of a call, where the stage allows any exception. -/
theorem wp_neutral_bind {α β : Type} {Q : Stage → Except Exc β → Prop} {g : Stage} {p : Service α}
    {f : α → Service β} (hp : NeutralCalls p) (hf : ∀ a, wp callProtocol Q g (f a))
    (he : ∀ e, Q g (.error e)) : wp callProtocol Q g (p >>= f) :=
  wp_bind.2 <| wp_neutral hp fun r => by
    cases r with
    | ok a => exact hf a
    | error e => exact he e

/-- Every outcome but a fatal one is recorded, and the record is returned. -/
theorem recordOutcome_follows (key id : Str) (outcome : Except Exc PurchaseResult) :
    wp callProtocol (Stage.Ends fun a => a) (.sent key id outcome) (recordOutcome id outcome) := by
  have hret (rec : Except Exc OrderAggregate) :
      Stage.Ends (fun a => a) (.recorded key id outcome rec) rec := by
    intro _
    cases rec <;> rfl
  have hunknown (h : uncertain outcome) :
      wp callProtocol (Stage.Ends fun a => a) (.sent key id outcome)
        (awaitRepo (.recordUnknown id)) :=
    wp_perform.2 ⟨.inl ⟨key, outcome, rfl, h⟩, hret⟩
  match outcome with
  | .error .cancelled =>
    refine wp_bind.2 (wp_perform.2 ⟨.inl ⟨key, _, rfl, trivial⟩, fun r => ?_⟩)
    cases r <;> exact fun h => absurd rfl h
  | .error .fatal => exact rfl
  | .error (.order _) | .error .database | .error .exception => exact hunknown trivial
  | .ok (.succeeded reference) => exact wp_perform.2 ⟨.inl ⟨key, rfl⟩, hret⟩
  | .ok (.failedSafe code) => exact wp_perform.2 ⟨.inl ⟨key, rfl⟩, hret⟩
  | .ok .accepted | .ok .other => exact hunknown trivial

theorem dispatchOnce_follows (key id : Str) :
    wp callProtocol (Stage.Ends fun a => a) (.prepared key id) (dispatchOnce id) := by
  unfold dispatchOnce
  refine wp_neutral_bind (awaits_assertSafeExecution trivial) (fun _ => ?_) fun _ => trivial
  refine wp_neutral_bind (awaits_requirePurchaseCapability trivial) (fun _ => ?_) fun _ => trivial
  refine wp_bind.2 (wp_perform.2 ⟨⟨key, rfl⟩, fun r => ?_⟩)
  match r with
  | .error _ => trivial
  | .ok none => exact wp_neutral (awaits_await (.repo (.get id)) trivial) fun _ => trivial
  | .ok (some a) =>
    refine wp_neutral_bind (awaits_requireMatchingPersistedSupplier trivial a) (fun _ => ?_)
      fun _ => trivial
    refine wp_neutral_bind (awaits_assertSafeExecution trivial) (fun _ => ?_) fun _ => trivial
    refine wp_bind.2 (wp_attempt.2 (wp_perform.2 ⟨⟨key, id, a, rfl, rfl⟩, fun outcome => ?_⟩))
    exact recordOutcome_follows key id outcome

/-- A result is handed on, turned into a snapshot. -/
theorem ends_map {α : Type} {f : OrderAggregate → α} {g : Stage} {r : Except Exc OrderAggregate}
    (h : g.Ends (fun a => a) r) : g.Ends f (r.map f) := by
  cases g with
  | recorded key id outcome rec =>
    intro hne
    rw [h hne]
    cases rec <;> rfl
  | sent => exact h
  | _ => trivial

theorem placeOrder_follows [Hashlib] (customerReference : Str) (request : OrderRequest) :
    wp callProtocol (Stage.Ends .fromAggregate) (.idle request.idempotencyKey)
      (placeOrder customerReference request) := by
  unfold placeOrder
  refine wp_bind.2 (wp_frame (neutral_frame _) (fun r hr => ?_)
    (buildCandidate_key customerReference request))
  cases r with
  | error e => trivial
  | ok candidate =>
    have hkey := hr candidate rfl
    refine wp_neutral_bind (awaits_assertSafeExecution trivial) (fun _ => ?_) fun _ => trivial
    refine wp_bind.2 (wp_perform.2 ⟨congrArg Stage.idle hkey.symm, fun r => ?_⟩)
    cases r with
    | error e => trivial
    | ok prepared =>
      refine wp_ite.2 ⟨fun _ => ?_, fun _ => trivial⟩
      refine wp_bind.2 (wp_mono (fun g r h => ?_) (dispatchOnce_follows _ _))
      have := ends_map (f := OrderSnapshot.fromAggregate) h
      cases r <;> exact this

theorem recordReconciliation_follows (id : Str) (started : OrderAggregate)
    (result : Except Exc ReconciliationResult) :
    wp callProtocol (fun g _ => g = .reconciled id result) (.reconciled id result)
      (recordReconciliation id started result) := by
  match result with
  | .error e =>
    unfold recordReconciliation
    exact wp_ite.2 ⟨fun _ => rfl, fun _ => rfl⟩
  | .ok (.succeeded reference) => exact wp_perform.2 ⟨.inr rfl, fun _ => rfl⟩
  | .ok (.failedSafe code) => exact wp_perform.2 ⟨.inr rfl, fun _ => rfl⟩
  | .ok .unresolved | .ok .other => rfl

/-- A recovering call ends as one. -/
def Stage.Recovers (id : Str) (g : Stage) : Prop :=
  g = .recovering id ∨ (∃ a, g = .started id a) ∨ ∃ result, g = .reconciled id result

theorem reconcileIntent_follows (id : Str) :
    wp callProtocol (fun g _ => g.Recovers id) (.recovering id) (reconcileIntent id) := by
  unfold reconcileIntent
  refine wp_bind.2 (wp_perform.2 ⟨rfl, fun r => ?_⟩)
  cases r with
  | error e => exact .inl rfl
  | ok started =>
    have hend : Stage.Recovers id (.started id started.aggregate) := .inr (.inl ⟨_, rfl⟩)
    refine wp_ite.2 ⟨fun _ => hend, fun _ => ?_⟩
    refine wp_neutral_bind (awaits_reconciliationSupported trivial) (fun supported => ?_)
      fun _ => hend
    refine wp_ite.2 ⟨fun _ => hend, fun _ => ?_⟩
    refine wp_neutral_bind (awaits_requireMatchingPersistedSupplier trivial _) (fun _ => ?_)
      fun _ => hend
    refine wp_neutral_bind (awaits_assertSafeExecution trivial) (fun _ => ?_) fun _ => hend
    refine wp_bind.2 (wp_attempt.2 (wp_perform.2 ⟨⟨id, _, rfl, rfl⟩, fun result => ?_⟩))
    exact wp_mono (fun g _ h => .inr (.inr ⟨result, h⟩)) (recordReconciliation_follows id _ result)

theorem recoverFrom_follows (id : Str) (aggregate : OrderAggregate) :
    wp callProtocol (fun g _ => g.Recovers id) (.recovering id) (recoverFrom id aggregate) := by
  have hrec : wp callProtocol (fun g _ => g.Recovers id) (.recovering id)
      (do return .fromAggregate (← reconcileIntent id) : Service OrderSnapshot) :=
    wp_bind.2 (wp_mono (fun g r h => by cases r <;> exact h) (reconcileIntent_follows id))
  unfold recoverFrom
  split
  · exact .inl rfl
  · exact .inl rfl
  · exact .inl rfl
  · exact .inl rfl
  · exact hrec
  · exact hrec

theorem recover_follows (id : Str) :
    wp callProtocol (fun g _ => g.Recovers id) (.recovering id) (recover id) := by
  unfold recover
  refine wp_neutral_bind (awaits_assertSafeExecution trivial) (fun _ => ?_) fun _ => .inl rfl
  refine wp_neutral_bind (awaits_await (.repo (.get id)) trivial) (fun found => ?_)
    fun _ => .inl rfl
  split
  · refine wp_bind.2 (wp_perform.2 ⟨.inr rfl, fun r => ?_⟩)
    cases r with
    | error e => exact .inl rfl
    | ok aggregate => exact recoverFrom_follows id aggregate
  · exact recoverFrom_follows id found

theorem finishAttempt_neutral (deliveryId : Str) (r : Except Exc DeliveryResult) :
    NeutralCalls (finishAttempt deliveryId r) := by
  have hfin (b : Bool) (code : Option Str) :
      NeutralCalls (awaitRepo (.finishDelivery deliveryId b code)) :=
    awaits_await (.repo (.finishDelivery deliveryId b code)) trivial
  match r with
  | .error .cancelled => exact .bind (hfin _ _) fun _ => trivial
  | .error .fatal => trivial
  | .error (.order _) | .error .database | .error .exception =>
    exact .bind (hfin _ _) fun _ => trivial
  | .ok .succeeded | .ok (.failed _) | .ok .other => exact .bind (hfin _ _) fun _ => trivial

theorem deliver_neutral (id : Str) : NeutralCalls (deliver id) := by
  unfold deliver
  refine .bind (awaits_assertSafeExecution trivial) fun _ => ?_
  refine .bind (awaits_await (.repo (.createDeliveryAttempt id)) trivial) fun attempt => ?_
  refine .bind (awaits_assertSafeExecution trivial) fun _ => ?_
  refine .bind (wp_attempt.2 (awaits_await (.deliver _) trivial)) fun result => ?_
  refine .bind (finishAttempt_neutral _ _) fun _ => ?_
  exact .bind (awaits_await (.repo (.get id)) trivial) fun _ => trivial

theorem getOrder_neutral (id : Str) : NeutralCalls (getOrder id) :=
  .bind (awaits_assertSafeExecution trivial) fun _ =>
    .bind (awaits_await (.repo (.get id)) trivial) fun _ => trivial

/-- **Every call of the service follows the protocol.** -/
theorem body_follows [Hashlib] (c : ServiceCall) :
    wp callProtocol (Stage.Ends .fromAggregate) c.stage c.body := by
  cases c with
  | placeOrder customerReference request => exact placeOrder_follows customerReference request
  | recover id =>
    refine wp_mono (fun g r h => ?_) (recover_follows id)
    rcases h with rfl | ⟨a, rfl⟩ | ⟨result, rfl⟩ <;> trivial
  | deliver id => exact wp_neutral (deliver_neutral id) fun _ => trivial
  | getOrder id => exact wp_neutral (getOrder_neutral id) fun _ => trivial

/-! ## What each call awaits -/

/-- What `_dispatch_once` awaits. -/
def ServiceOp.IsDispatch : ServiceOp → Prop
  | .repo (.claimPrepared _) | .repo (.get _) | .repo (.recordSuccess _ _)
  | .repo (.recordSafeFailure _ _) | .repo (.recordUnknown _) | .purchase _ => True
  | op => op.IsCheck

section

variable {C : ServiceOp → Prop}

theorem recordOutcome_awaits (hC : ∀ op : ServiceOp, op.IsDispatch → C op) (id : Str)
    (outcome : Except Exc PurchaseResult) : Awaits C (recordOutcome id outcome) := by
  have hunknown : Awaits C (awaitRepo (.recordUnknown id)) := calls_perform (hC _ trivial)
  match outcome with
  | .error .cancelled => exact .bind hunknown fun _ => trivial
  | .error .fatal => trivial
  | .error (.order _) | .error .database | .error .exception => exact hunknown
  | .ok (.succeeded reference) => exact calls_perform (hC _ trivial)
  | .ok (.failedSafe code) => exact calls_perform (hC _ trivial)
  | .ok .accepted | .ok .other => exact hunknown

theorem dispatchOnce_awaits (hC : ∀ op : ServiceOp, op.IsDispatch → C op) (id : Str) :
    Awaits C (dispatchOnce id) := by
  unfold dispatchOnce
  refine .bind (awaits_assertSafeExecution (hC _ trivial)) fun _ => ?_
  refine .bind (awaits_requirePurchaseCapability (hC _ trivial)) fun _ => ?_
  refine .bind (awaits_await (.repo (.claimPrepared id)) (hC _ trivial)) fun claimed => ?_
  split
  · exact calls_perform (hC _ trivial)
  · refine .bind (awaits_requireMatchingPersistedSupplier (hC _ trivial) _) fun _ => ?_
    refine .bind (awaits_assertSafeExecution (hC _ trivial)) fun _ => ?_
    refine .bind (wp_attempt.2 (awaits_await (.purchase _) (hC _ trivial))) fun outcome => ?_
    exact recordOutcome_awaits hC id outcome

end

end

end NyanShopBot.Orders
