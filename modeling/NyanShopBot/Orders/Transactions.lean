import NyanShopBot.Orders.Repository

/-!
# What the repository transactions do

One lemma for each operation: `Loads` says what `_load` reads, and each `…_ok`
says when the transaction commits, what it returns and what it leaves stored.
The later modules use these and never unfold an operation.
-/

namespace NyanShopBot.Orders

open Py Db

theorem ofOrder_ok {α : Type} {r : Except OrderError α} {a : α} {s s' : Store} :
    ofOrder r s = .ok (a, s') ↔ r = .ok a ∧ s' = s := by
  unfold ofOrder
  rw [Tx.ofExcept_ok]
  cases r <;> simp [Except.mapError]

theorem ofValue_eq {text : Str} {c : SafeFailureCode} (h : SafeFailureCode.ofValue text = some c) :
    c.value = text := by
  simpa using List.find?_some h

theorem failureCodeFromRow_ok {text : Option Str} {c : Option SafeFailureCode} :
    failureCodeFromRow text = .ok c ↔ text = c.map (·.value) := by
  cases text with
  | none => cases c <;> simp [failureCodeFromRow]
  | some t =>
    simp only [failureCodeFromRow]
    constructor
    · intro h
      split at h
      · next c' hc => cases h; simp [ofValue_eq hc]
      · cases h
    · intro h
      cases c with
      | none => cases h
      | some c =>
        obtain rfl : t = c.value := Option.some.inj h
        simp

/-! ## Rows as records -/

/-- What the repository writes into the intent with a new purchase state. -/
def IntentRow.setState (st : PurchaseState) (r : IntentRow) : IntentRow :=
  { r with purchaseState := st }

theorem intentFromRow_ok {r : IntentRow} {i : OrderIntentRecord} (h : intentFromRow r = .ok i) :
    i.id = r.id ∧ i.idempotencyKey = r.idempotencyKey ∧ i.purchaseState = r.purchaseState := by
  unfold intentFromRow at h
  obtain ⟨u, -, h⟩ := except_bind_ok.1 h
  obtain ⟨m, -, h⟩ := except_bind_ok.1 h
  cases h
  exact ⟨rfl, rfl, rfl⟩

/-- The record of a row whose state was changed. -/
theorem intentFromRow_setState {r : IntentRow} {i : OrderIntentRecord}
    (h : intentFromRow r = .ok i) (st : PurchaseState) :
    intentFromRow (r.setState st) = .ok { i with purchaseState := st } := by
  unfold intentFromRow at h ⊢
  obtain ⟨u, hu, h⟩ := except_bind_ok.1 h
  obtain ⟨m, hm, h⟩ := except_bind_ok.1 h
  cases h
  exact except_bind_ok.2 ⟨u, hu, except_bind_ok.2 ⟨m, hm, rfl⟩⟩

section

variable [UnicodeData]

theorem attemptFromRow_ok {r : AttemptRow} {a : SupplierAttemptRecord} :
    attemptFromRow r = .ok a ↔
      CanonicalPurchasePayload.fromMapping r.requestPayload = .ok a.requestPayload ∧
      r.failureCode = a.failureCode.map (·.value) ∧ a.id = r.id ∧
      a.orderIntentId = r.orderIntentId ∧ a.supplierCode = r.supplierCode ∧
      a.requestKey = r.requestKey ∧ a.requestFingerprint = r.requestFingerprint ∧
      a.status = r.status ∧ a.supplierOrderReference = r.supplierOrderReference := by
  unfold attemptFromRow
  rw [except_bind_ok]
  constructor
  · rintro ⟨c, hc, h⟩
    obtain ⟨p, hp, h⟩ := except_bind_ok.1 h
    cases h
    exact ⟨hp, failureCodeFromRow_ok.1 hc, rfl, rfl, rfl, rfl, rfl, rfl, rfl⟩
  · rintro ⟨hp, hc, h1, h2, h3, h4, h5, h6, h7⟩
    refine ⟨a.failureCode, failureCodeFromRow_ok.2 hc, except_bind_ok.2 ⟨_, hp, ?_⟩⟩
    rw [← h1, ← h2, ← h3, ← h4, ← h5, ← h6, ← h7]
    rfl

theorem varcharOrNull_of_isSafeText {text : Str} {n : Nat} (h : isSafeText text n = true) :
    varcharOrNull n (some text) = some (some text) := by
  simp only [isSafeText, Bool.and_eq_true, decide_eq_true_eq] at h
  simp [varcharOrNull, varchar_of_fits (storable_of_isprintable h.2) h.1.1.2]

theorem validateSafeText_ok {value : Option Str} {n : Nat} {text : Str} :
    validateSafeText value n = .ok text ↔ value = some text ∧ isSafeText text n = true := by
  unfold validateSafeText
  cases value with
  | none => simp
  | some v =>
    simp only [Option.some.injEq]
    split
    · next h =>
      simp only [Except.ok.injEq]
      exact ⟨fun e => ⟨e, e ▸ h⟩, fun e => e.1⟩
    · next h => simp only [reduceCtorEq, false_iff, not_and]; rintro rfl; exact h

variable [Hashlib]

/-! ## Loading -/

/-- `_load` of the intent reads `a`. -/
structure Loads (t : Tables) (id : Str) (a : OrderAggregate) : Prop where
  storable : storable id = true
  intent : ∃ r, lookup IntentRow.id t.orderIntents id = some r ∧ intentFromRow r = .ok a.intent
  attempt : ∃ r, lookup AttemptRow.orderIntentId t.supplierAttempts id = some r ∧
    attemptFromRow r = .ok a.supplierAttempt
  deliveries : a.deliveryAttempts = (t.deliveriesOf id).map deliveryFromRow
  invariants : a.Invariants

theorem load_ok {id : Str} {a : OrderAggregate} {s s' : Store} :
    load id s = .ok (a, s') ↔ s' = s ∧ Loads s.1 id a := by
  unfold load
  simp only [Tx.bind_ok, Tx.ensure_ok, Tx.query_ok, Tx.getOrThrow_ok, ofOrder_ok, Tx.pure_ok]
  constructor
  · rintro ⟨_, _, ⟨hs, rfl⟩, _, _, ⟨rfl, rfl⟩, ir, _, ⟨hi, rfl⟩, ar, _, ⟨ha, rfl⟩, i, _, ⟨hi', rfl⟩,
      sa, _, ⟨ha', rfl⟩, _, _, ⟨hinv, rfl⟩, rfl, rfl⟩
    exact ⟨rfl, hs, ⟨ir, hi, hi'⟩, ⟨ar, ha, ha'⟩, rfl, assertAggregateInvariants_ok.1 hinv⟩
  · rintro ⟨rfl, hs, ⟨ir, hi, hi'⟩, ⟨ar, ha, ha'⟩, hd, hinv⟩
    have ha0 : a = ⟨a.intent, a.supplierAttempt, (s'.1.deliveriesOf id).map deliveryFromRow⟩ := by
      rw [← hd]
    exact ⟨(), _, ⟨hs, rfl⟩, _, _, ⟨rfl, rfl⟩, ir, _, ⟨hi, rfl⟩, ar, _, ⟨ha, rfl⟩, _, _, ⟨hi', rfl⟩,
      _, _, ⟨ha', rfl⟩, (), _, ⟨assertAggregateInvariants_ok.2 (ha0 ▸ hinv), rfl⟩, ha0, rfl⟩

/-- An intent loads as at most one aggregate. -/
theorem Loads.unique {t : Tables} {id : Str} {a b : OrderAggregate} (h : Loads t id a)
    (h' : Loads t id b) : a = b := by
  obtain ⟨r, hr, hi⟩ := h.intent
  obtain ⟨r', hr', hi'⟩ := h'.intent
  obtain ⟨q, hq, ha⟩ := h.attempt
  obtain ⟨q', hq', ha'⟩ := h'.attempt
  obtain rfl : r = r' := Option.some.inj (hr.symm.trans hr')
  obtain rfl : q = q' := Option.some.inj (hq.symm.trans hq')
  have e1 : a.intent = b.intent := Except.ok.inj (hi.symm.trans hi')
  have e2 : a.supplierAttempt = b.supplierAttempt := Except.ok.inj (ha.symm.trans ha')
  have e3 : a.deliveryAttempts = b.deliveryAttempts := h.deliveries.trans h'.deliveries.symm
  cases a; cases b
  simp only at e1 e2 e3
  rw [e1, e2, e3]

theorem Loads.id_eq {t : Tables} {id : Str} {a : OrderAggregate} (h : Loads t id a) :
    a.intent.id = id := by
  obtain ⟨r, hr, hi⟩ := h.intent
  rw [(intentFromRow_ok hi).1, key_of_lookup hr]

end

/-! ## Writing the purchase -/

theorem Tables.valid_setIntentState {t : Tables} (h : schema.Valid t) (id : Str)
    (st : PurchaseState) : schema.Valid (t.setIntentState id st) := by
  obtain ⟨⟨h1, h2, h3⟩, ⟨a1, a2, a3, a4, a5⟩, d1, d2, d3, d4, d5⟩ := h
  have hid : ((t.setIntentState id st).orderIntents.map (·.id)) = t.orderIntents.map (·.id) :=
    map_modify fun _ _ => rfl
  refine ⟨⟨hid ▸ h1, ?_, ?_⟩, ⟨a1, a2, a3, ?_, a5⟩, d1, d2, d3, ?_, d5⟩
  · have : ((t.setIntentState id st).orderIntents.map (·.idempotencyKey)) =
        t.orderIntents.map (·.idempotencyKey) := map_modify fun _ _ => rfl
    exact this ▸ h2
  · intro r hr
    obtain ⟨a, ha, rfl⟩ := mem_modify.1 hr
    split
    · exact h3 a ha
    · exact h3 a ha
  · rw [hid]; exact a4
  · rw [hid]; exact d4

theorem Tables.valid_setAttempt {t : Tables} (h : schema.Valid t) (id : Str)
    {f : AttemptRow → AttemptRow} (hid : ∀ r, (f r).id = r.id)
    (ho : ∀ r, (f r).orderIntentId = r.orderIntentId) (hk : ∀ r, (f r).requestKey = r.requestKey)
    (hp : ∀ r, (f r).requestFingerprint = r.requestFingerprint) :
    schema.Valid (t.setAttempt id f) := by
  obtain ⟨hi, ⟨a1, a2, a3, a4, a5⟩, hd⟩ := h
  have e1 : ((t.setAttempt id f).supplierAttempts.map (·.id)) = t.supplierAttempts.map (·.id) :=
    map_modify fun r _ => hid r
  have e2 : ((t.setAttempt id f).supplierAttempts.map (·.orderIntentId)) =
      t.supplierAttempts.map (·.orderIntentId) := map_modify fun r _ => ho r
  have e3 : ((t.setAttempt id f).supplierAttempts.map (·.requestKey)) =
      t.supplierAttempts.map (·.requestKey) := map_modify fun r _ => hk r
  refine ⟨hi, ⟨e1 ▸ a1, e2 ▸ a2, e3 ▸ a3, ?_, ?_⟩, hd⟩
  · intro r hr
    obtain ⟨a, ha, rfl⟩ := mem_modify.1 hr
    split
    · rw [ho]; exact a4 a ha
    · exact a4 a ha
  · intro r hr
    obtain ⟨a, ha, rfl⟩ := mem_modify.1 hr
    split
    · rw [hp]; exact a5 a ha
    · exact a5 a ha

/-- What the repository writes into the attempt with a new purchase state. -/
def AttemptRow.setPurchase (st : PurchaseState) (reference : Option Str)
    (code : Option SafeFailureCode) (r : AttemptRow) : AttemptRow :=
  { r with status := st, supplierOrderReference := reference, failureCode := code.map (·.value) }

/-- The claim leaves the columns of the evidence alone. -/
def AttemptRow.claim (r : AttemptRow) : AttemptRow := { r with status := .dispatching }

def Store.setPurchase (s : Store) (id : Str) (st : PurchaseState) (reference : Option Str)
    (code : Option SafeFailureCode) : Store :=
  ⟨(s.1.setIntentState id st).setAttempt id (.setPurchase st reference code),
    Tables.valid_setAttempt (Tables.valid_setIntentState s.2 id st) id (fun _ => rfl)
      (fun _ => rfl) (fun _ => rfl) fun _ => rfl⟩

def Store.claim (s : Store) (id : Str) : Store :=
  ⟨(s.1.setIntentState id .dispatching).setAttempt id .claim,
    Tables.valid_setAttempt (Tables.valid_setIntentState s.2 id _) id (fun _ => rfl)
      (fun _ => rfl) (fun _ => rfl) fun _ => rfl⟩

section lookups

variable {s : Store} {id id' : Str} {st : PurchaseState} {reference : Option Str}
variable {code : Option SafeFailureCode}

theorem lookup_intent_setPurchase :
    lookup IntentRow.id (s.setPurchase id st reference code).1.orderIntents id =
      (lookup IntentRow.id s.1.orderIntents id).map (.setState st) :=
  lookup_modify_self (f := IntentRow.setState st) fun _ h => h

theorem lookup_attempt_setPurchase :
    lookup AttemptRow.orderIntentId (s.setPurchase id st reference code).1.supplierAttempts id =
      (lookup AttemptRow.orderIntentId s.1.supplierAttempts id).map
        (.setPurchase st reference code) :=
  lookup_modify_self (f := AttemptRow.setPurchase st reference code) fun _ h => h

theorem lookup_intent_setPurchase_other (hne : id' ≠ id) :
    lookup IntentRow.id (s.setPurchase id st reference code).1.orderIntents id' =
      lookup IntentRow.id s.1.orderIntents id' :=
  lookup_modify_other (f := IntentRow.setState st) hne fun _ h => h

theorem lookup_attempt_setPurchase_other (hne : id' ≠ id) :
    lookup AttemptRow.orderIntentId (s.setPurchase id st reference code).1.supplierAttempts id' =
      lookup AttemptRow.orderIntentId s.1.supplierAttempts id' :=
  lookup_modify_other (f := AttemptRow.setPurchase st reference code) hne fun _ h => h

end lookups

theorem execute_eq {f : Tables → Tables} {s : Store} (h : schema.Valid (f s.1)) :
    schema.execute Exc.database f s = .ok ((), ⟨f s.1, h⟩) :=
  Schema.execute_ok.2 ⟨rfl, trivial⟩

/-- A reference that fits its column is stored as it is. -/
theorem setPurchaseState_ok {id : Str} {st : PurchaseState} {reference : Option Str}
    {code : Option SafeFailureCode} {s s' : Store} {u : Unit}
    (href : varcharOrNull 128 reference = some reference) :
    setPurchaseState id st reference code s = .ok (u, s') ↔
      s' = s.setPurchase id st reference code := by
  have h1 := execute_eq (f := fun t => t.setIntentState id st)
    (Tables.valid_setIntentState s.2 id st)
  have h2 := execute_eq (s := ⟨_, Tables.valid_setIntentState s.2 id st⟩)
    (f := fun t => t.setAttempt id (.setPurchase st reference code))
    (s.setPurchase id st reference code).2
  have hall : setPurchaseState id st reference code s =
      .ok ((), s.setPurchase id st reference code) :=
    Tx.bind_ok.2 ⟨(), _, h1, Tx.bind_ok.2
      ⟨reference, _, Tx.getOrThrow_ok.2 ⟨href, rfl⟩, h2⟩⟩
  rw [hall]
  simp [eq_comm]

/-! ## Deliveries and new intents -/

/-- What finishing a delivery writes into its row. -/
def DeliveryRow.finish (target : DeliveryState) (code : Option Str) (r : DeliveryRow) :
    DeliveryRow := { r with status := target, failureCode := code }

theorem closeDelivery_ok {id : Str} {target : DeliveryState} {code : Option Str} {s s' : Store}
    {d : DeliveryAttemptRecord} (h : closeDelivery id target code s = .ok (d, s')) :
    s' = s ∨ ∃ r, lookup DeliveryRow.id s.1.deliveryAttempts id = some r ∧ r.status = .pending ∧
      s'.1 = { s.1 with
        deliveryAttempts :=
          modify DeliveryRow.id s.1.deliveryAttempts id (.finish target code) } := by
  unfold closeDelivery at h
  simp only [Tx.bind_ok, Tx.ensure_ok, Tx.query_ok, Tx.getOrThrow_ok] at h
  obtain ⟨_, _, ⟨-, rfl⟩, _, _, ⟨rfl, rfl⟩, r, _, ⟨hr, rfl⟩, h⟩ := h
  split at h
  · obtain ⟨_, _, h1, h2⟩ := Tx.bind_ok.1 h
    obtain ⟨-, rfl⟩ := Tx.ensure_ok.1 h1
    exact .inl (Tx.pure_ok.1 h2).2
  · next hst =>
    obtain ⟨_, _, h1, h2⟩ := Tx.bind_ok.1 h
    obtain ⟨-, rfl⟩ := Tx.pure_ok.1 h2
    exact .inr ⟨r, hr, by simpa using hst, (Schema.execute_ok.1 h1).1⟩

theorem Tables.valid_finish {t : Tables} (h : schema.Valid t) (d : Str) (target : DeliveryState)
    (code : Option Str) : schema.Valid { t with
      deliveryAttempts := modify DeliveryRow.id t.deliveryAttempts d (.finish target code) } := by
  obtain ⟨hi, ha, d1, d2, d3, d4, d5⟩ := h
  have hcol {β : Type} (col : DeliveryRow → β) (hc : ∀ r, col (.finish target code r) = col r) :
      (modify DeliveryRow.id t.deliveryAttempts d (.finish target code)).map col =
        t.deliveryAttempts.map col := map_modify fun r _ => hc r
  refine ⟨hi, ha, ?_, ?_, ?_, fun r hr => ?_, fun r hr => ?_⟩
  · rw [hcol DeliveryRow.id fun _ => rfl]
    exact d1
  · rw [hcol (fun r => (r.orderIntentId, r.attemptNumber)) fun _ => rfl]
    exact d2
  · rw [hcol DeliveryRow.deliveryKey fun _ => rfl]
    exact d3
  · obtain ⟨r₀, hr₀, rfl⟩ := mem_modify.1 hr
    split <;> exact d4 r₀ hr₀
  · obtain ⟨r₀, hr₀, rfl⟩ := mem_modify.1 hr
    split <;> exact d5 r₀ hr₀

/-- An open attempt can be closed. -/
theorem closeDelivery_pending {s : Store} {row : DeliveryRow} {target : DeliveryState}
    {code : Option Str}
    (hrow : row ∈ s.1.deliveryAttempts) (hst : row.status = .pending)
    (hid : storable row.id = true) : ∃ d, closeDelivery row.id target code s =
      .ok (d, ⟨_, Tables.valid_finish s.2 row.id target code⟩) := by
  have hl := lookup_of_mem DeliveryRow.id s.2.2.2.1 hrow
  refine ⟨{ deliveryFromRow row with status := target, failureCode := code }, ?_⟩
  unfold closeDelivery
  rw [Tx.ensure_bind hid, Tx.query_bind, Tx.getOrThrow_bind hl]
  simp only [hst, ne_eq, not_true_eq_false, if_false]
  exact Tx.bind_eq (Schema.execute_valid (Tables.valid_finish s.2 row.id target code) trivial)

theorem insertIntent_ok {i : OrderIntentRecord} {s s' : Store} {created : Option Str}
    (h : insertIntent i s = .ok (created, s')) : ∃ row, IntentRow.ofRecord i = some row ∧
      ((created = none ∧ s' = s) ∨
        (created = some row.id ∧
          lookup IntentRow.idempotencyKey s.1.orderIntents row.idempotencyKey = none ∧
          s'.1 = { s.1 with orderIntents := s.1.orderIntents ++ [row] })) := by
  unfold insertIntent at h
  simp only [Tx.bind_ok, Tx.ensure_ok, Tx.query_ok, Tx.getOrThrow_ok] at h
  obtain ⟨row, _, ⟨hrow, rfl⟩, _, _, ⟨-, rfl⟩, _, _, ⟨rfl, rfl⟩, h⟩ := h
  refine ⟨row, hrow, ?_⟩
  split at h
  · exact .inl (Tx.pure_ok.1 h)
  · next hfree =>
    obtain ⟨_, _, h1, h2⟩ := Tx.bind_ok.1 h
    obtain ⟨rfl, rfl⟩ := Tx.pure_ok.1 h2
    exact .inr ⟨rfl, by simpa using hfree, (Schema.execute_ok.1 h1).1⟩

section

variable [UnicodeData]

/-- The two ends of a delivery: without a code it succeeded, with one it failed. -/
theorem finishDelivery_ok {id : Str} {succeeded : Bool} {code : Option Str} {s s' : Store}
    {d : DeliveryAttemptRecord} (h : finishDelivery id succeeded code s = .ok (d, s')) :
    closeDelivery id .succeeded none s = .ok (d, s') ∨
      ∃ text, code = some text ∧ closeDelivery id .failed (some text) s = .ok (d, s') := by
  unfold finishDelivery at h
  split at h
  · exact .inl h
  · obtain ⟨text, s₁, h1, h2⟩ := Tx.bind_ok.1 h
    obtain ⟨hv, rfl⟩ := ofOrder_ok.1 h1
    obtain ⟨rfl, -⟩ := validateSafeText_ok.1 hv
    exact .inr ⟨text, rfl, h2⟩

theorem insertAttempt_ok {a : SupplierAttemptRecord} {s s' : Store} {u : Unit}
    (h : insertAttempt a s = .ok (u, s')) : ∃ row, AttemptRow.ofRecord a = some row ∧
      s'.1 = { s.1 with supplierAttempts := s.1.supplierAttempts ++ [row] } := by
  obtain ⟨row, _, h1, h2⟩ := Tx.bind_ok.1 h
  obtain ⟨hrow, rfl⟩ := Tx.getOrThrow_ok.1 h1
  exact ⟨row, hrow, (Schema.execute_ok.1 h2).1⟩

variable [Hashlib]

/-! ## Loading after a write -/

theorem Loads.setPurchase {s : Store} {id : Str} {a : OrderAggregate} (h : Loads s.1 id a)
    (st : PurchaseState) (reference : Option Str) (code : Option SafeFailureCode) :
    Loads (s.setPurchase id st reference code).1 id (a.replacePurchase st reference code) := by
  obtain ⟨r, hr, hi⟩ := h.intent
  obtain ⟨q, hq, ha⟩ := h.attempt
  obtain ⟨hp, hc, h1, h2, h3, h4, h5, h6, h7⟩ := attemptFromRow_ok.1 ha
  refine ⟨h.storable, ⟨r.setState st, ?_, intentFromRow_setState hi st⟩,
    ⟨q.setPurchase st reference code, ?_, ?_⟩, h.deliveries, ?_⟩
  · rw [lookup_intent_setPurchase, hr]; rfl
  · rw [lookup_attempt_setPurchase, hq]; rfl
  · exact attemptFromRow_ok.2 ⟨hp, rfl, h1, h2, h3, h4, h5, rfl, rfl⟩
  · obtain ⟨hl, hid, hk, hcons⟩ := h.invariants
    refine ⟨?_, hid, hk, hcons⟩
    simp only [OrderAggregate.linked, Bool.and_eq_true, decide_eq_true_eq] at hl
    simp [OrderAggregate.linked, OrderAggregate.replacePurchase, hl.1]

/-! ## The operations -/

theorem claimPrepared_ok {id : Str} {s s' : Store} {r : Option OrderAggregate} :
    claimPrepared id s = .ok (r, s') ↔ ∃ a, Loads s.1 id a ∧
      ((a.intent.purchaseState ≠ .prepared ∧ r = none ∧ s' = s) ∨
        (a.intent.purchaseState = .prepared ∧
          r = some (a.replacePurchase .dispatching none none) ∧ s' = s.claim id)) := by
  have h1 : schema.execute Exc.database (fun t => t.setIntentState id .dispatching) s = _ :=
    execute_eq (Tables.valid_setIntentState s.2 id .dispatching)
  have h2 := execute_eq (s := ⟨_, Tables.valid_setIntentState s.2 id .dispatching⟩)
    (f := fun t => t.setAttempt id .claim) (s.claim id).2
  unfold claimPrepared
  rw [Tx.bind_ok]
  constructor
  · rintro ⟨a, s₁, hl, h⟩
    obtain ⟨rfl, hl⟩ := load_ok.1 hl
    refine ⟨a, hl, ?_⟩
    split at h
    · next hp => exact .inl ⟨hp, Tx.pure_ok.1 h⟩
    · next hp =>
      rw [Tx.bind_ok.2 ⟨(), _, h1, Tx.bind_ok.2 ⟨(), _, h2, rfl⟩⟩] at h
      cases h
      exact .inr ⟨by simpa using hp, rfl, rfl⟩
  · rintro ⟨a, hl, ⟨hp, rfl, rfl⟩ | ⟨hp, rfl, rfl⟩⟩
    · exact ⟨a, s', load_ok.2 ⟨rfl, hl⟩, by rw [if_pos hp]; rfl⟩
    · refine ⟨a, s, load_ok.2 ⟨rfl, hl⟩, ?_⟩
      rw [if_neg (by simpa using hp)]
      exact Tx.bind_ok.2 ⟨(), _, h1, Tx.bind_ok.2 ⟨(), _, h2, rfl⟩⟩

theorem recordTerminal_ok {id : Str} {st : PurchaseState} {reference : Option Str}
    {code : Option SafeFailureCode} {s s' : Store} {r : OrderAggregate}
    (href : varcharOrNull 128 reference = some reference) :
    recordTerminal id st reference code s = .ok (r, s') ↔ ∃ a, Loads s.1 id a ∧
      ((a.intent.purchaseState = st ∧ a.supplierAttempt.supplierOrderReference = reference ∧
          a.supplierAttempt.failureCode = code ∧ r = a ∧ s' = s) ∨
        (a.intent.purchaseState ≠ st ∧
          (a.intent.purchaseState = .dispatching ∨ a.intent.purchaseState = .reconciling) ∧
          r = a.replacePurchase st reference code ∧ s' = s.setPurchase id st reference code)) := by
  unfold recordTerminal
  rw [Tx.bind_ok]
  constructor
  · rintro ⟨a, s₁, hl, h⟩
    obtain ⟨rfl, hl⟩ := load_ok.1 hl
    refine ⟨a, hl, ?_⟩
    split at h
    · next hst =>
      obtain ⟨u, s₂, h1, h2⟩ := Tx.bind_ok.1 h
      obtain ⟨⟨hr, hc⟩, rfl⟩ := Tx.ensure_ok.1 h1
      exact .inl ⟨hst, hr, hc, Tx.pure_ok.1 h2⟩
    · next hst =>
      obtain ⟨u, s₂, h1, h2⟩ := Tx.bind_ok.1 h
      obtain ⟨hopen, rfl⟩ := Tx.ensure_ok.1 h1
      obtain ⟨u, s₂, h1, h2⟩ := Tx.bind_ok.1 h2
      obtain rfl := (setPurchaseState_ok href).1 h1
      exact .inr ⟨hst, hopen, Tx.pure_ok.1 h2⟩
  · rintro ⟨a, hl, ⟨hst, hr, hc, rfl, rfl⟩ | ⟨hst, hopen, rfl, rfl⟩⟩
    · refine ⟨r, s', load_ok.2 ⟨rfl, hl⟩, ?_⟩
      simp only [if_pos hst]
      exact Tx.bind_ok.2 ⟨(), _, Tx.ensure_ok.2 ⟨⟨hr, hc⟩, rfl⟩, rfl⟩
    · refine ⟨a, s, load_ok.2 ⟨rfl, hl⟩, ?_⟩
      simp only [if_neg hst]
      exact Tx.bind_ok.2 ⟨(), _, Tx.ensure_ok.2 ⟨hopen, rfl⟩,
        Tx.bind_ok.2 ⟨(), _, (setPurchaseState_ok href).2 rfl, rfl⟩⟩

theorem recordSuccess_ok {id : Str} {value : Option Str} {s s' : Store} {r : OrderAggregate} :
    recordSuccess id value s = .ok (r, s') ↔ ∃ text, value = some text ∧
      isSafeText text 128 = true ∧
        recordTerminal id .succeeded (some text) none s = .ok (r, s') := by
  unfold recordSuccess
  rw [Tx.bind_ok]
  constructor
  · rintro ⟨text, s₁, h1, h2⟩
    obtain ⟨hv, rfl⟩ := ofOrder_ok.1 h1
    obtain ⟨rfl, hsafe⟩ := validateSafeText_ok.1 hv
    exact ⟨text, rfl, hsafe, h2⟩
  · rintro ⟨text, rfl, h1, h2⟩
    exact ⟨text, s, ofOrder_ok.2 ⟨validateSafeText_ok.2 ⟨rfl, h1⟩, rfl⟩, h2⟩

theorem recordSafeFailure_ok {id : Str} {value : Option SafeFailureCode} {s s' : Store}
    {r : OrderAggregate} :
    recordSafeFailure id value s = .ok (r, s') ↔ ∃ code, value = some code ∧
      recordTerminal id .failedSafe none (some code) s = .ok (r, s') := by
  unfold recordSafeFailure
  rw [Tx.bind_ok]
  constructor
  · rintro ⟨code, s₁, h1, h2⟩
    obtain ⟨hv, rfl⟩ := Tx.getOrThrow_ok.1 h1
    exact ⟨code, hv, h2⟩
  · rintro ⟨code, rfl, h2⟩
    exact ⟨code, s, Tx.getOrThrow_ok.2 ⟨rfl, rfl⟩, h2⟩

theorem recordUnknown_ok {id : Str} {s s' : Store} {r : OrderAggregate} :
    recordUnknown id s = .ok (r, s') ↔ ∃ a, Loads s.1 id a ∧
      (((a.intent.purchaseState = .unknown ∨ a.intent.purchaseState = .reconciling) ∧
          r = a ∧ s' = s) ∨
        (a.intent.purchaseState = .dispatching ∧ r = a.replacePurchase .unknown none none ∧
          s' = s.setPurchase id .unknown none none)) := by
  unfold recordUnknown
  rw [Tx.bind_ok]
  constructor
  · rintro ⟨a, s₁, hl, h⟩
    obtain ⟨rfl, hl⟩ := load_ok.1 hl
    refine ⟨a, hl, ?_⟩
    split at h
    · next hst => exact .inl ⟨hst, Tx.pure_ok.1 h⟩
    · obtain ⟨u, s₂, h1, h2⟩ := Tx.bind_ok.1 h
      obtain ⟨hd, rfl⟩ := Tx.ensure_ok.1 h1
      obtain ⟨u, s₂, h1, h2⟩ := Tx.bind_ok.1 h2
      obtain rfl := (setPurchaseState_ok rfl).1 h1
      exact .inr ⟨hd, Tx.pure_ok.1 h2⟩
  · rintro ⟨a, hl, ⟨hst, rfl, rfl⟩ | ⟨hd, rfl, rfl⟩⟩
    · exact ⟨r, s', load_ok.2 ⟨rfl, hl⟩, by simp only [if_pos hst]; rfl⟩
    · refine ⟨a, s, load_ok.2 ⟨rfl, hl⟩, ?_⟩
      rw [if_neg (by simp [hd])]
      exact Tx.bind_ok.2 ⟨(), _, Tx.ensure_ok.2 ⟨hd, rfl⟩,
        Tx.bind_ok.2 ⟨(), _, (setPurchaseState_ok rfl).2 rfl, rfl⟩⟩

theorem beginReconciliation_ok {id : Str} {s s' : Store} {r : ReconciliationStart} :
    beginReconciliation id s = .ok (r, s') ↔ ∃ a, Loads s.1 id a ∧
      ((a.intent.purchaseState = .unknown ∧ r = ⟨a.replacePurchase .reconciling none none, true⟩ ∧
          s' = s.setPurchase id .reconciling none none) ∨
        (a.intent.purchaseState = .reconciling ∧ r = ⟨a, true⟩ ∧ s' = s) ∨
        ((a.intent.purchaseState = .succeeded ∨ a.intent.purchaseState = .failedSafe) ∧
          r = ⟨a, false⟩ ∧ s' = s)) := by
  unfold beginReconciliation
  rw [Tx.bind_ok]
  constructor
  · rintro ⟨a, s₁, hl, h⟩
    obtain ⟨rfl, hl⟩ := load_ok.1 hl
    refine ⟨a, hl, ?_⟩
    cases hst : a.intent.purchaseState <;> rw [hst] at h
    case unknown =>
      obtain ⟨u, s₂, h1, h2⟩ := Tx.bind_ok.1 h
      obtain rfl := (setPurchaseState_ok rfl).1 h1
      exact .inl ⟨rfl, Tx.pure_ok.1 h2⟩
    case reconciling => exact .inr (.inl ⟨rfl, Tx.pure_ok.1 h⟩)
    case succeeded => exact .inr (.inr ⟨.inl rfl, Tx.pure_ok.1 h⟩)
    case failedSafe => exact .inr (.inr ⟨.inr rfl, Tx.pure_ok.1 h⟩)
    case prepared => cases h
    case dispatching => cases h
  · rintro ⟨a, hl, ⟨hst, rfl, rfl⟩ | ⟨hst, rfl, rfl⟩ | ⟨hst | hst, rfl, rfl⟩⟩
    · refine ⟨a, s, load_ok.2 ⟨rfl, hl⟩, ?_⟩
      simp only [hst]
      exact Tx.bind_ok.2 ⟨(), _, (setPurchaseState_ok rfl).2 rfl, rfl⟩
    all_goals exact ⟨a, s', load_ok.2 ⟨rfl, hl⟩, by simp only [hst]; rfl⟩

theorem createDeliveryAttempt_ok {id : Str} {s s' : Store} {d : DeliveryAttemptRecord}
    (h : createDeliveryAttempt id s = .ok (d, s')) : ∃ a rowId rowKey, Loads s.1 id a ∧
      a.intent.purchaseState = .succeeded ∧
      s'.1 = { s.1 with deliveryAttempts := s.1.deliveryAttempts ++
        [⟨rowId, id, nextAttemptNumber a.deliveryAttempts, rowKey, .pending, none⟩] } := by
  unfold createDeliveryAttempt at h
  simp only [Tx.bind_ok, Tx.ensure_ok, Tx.getOrThrow_ok, ofOrder_ok, Tx.pure_ok,
    Schema.execute_ok] at h
  obtain ⟨a, _, hl, _, _, ⟨hst, rfl⟩, _, _, ⟨-, rfl⟩, _, _, ⟨-, rfl⟩, rowId, _, ⟨-, rfl⟩, rowKey, _,
    ⟨-, rfl⟩, _, s₁, ⟨hs, -⟩, -, rfl⟩ := h
  obtain ⟨rfl, hl⟩ := load_ok.1 hl
  exact ⟨a, rowId, rowKey, hl, hst, hs⟩

/-- A prepare either finds the intent of the key or inserts both rows. -/
theorem prepare_ok {c : OrderAggregate} {s s' : Store} {r : PrepareResult}
    (h : prepare c s = .ok (r, s')) : c.Invariants ∧
      ((r.created = false ∧ s' = s ∧ ∃ id, Loads s.1 id r.aggregate ∧
          ∃ row, lookup IntentRow.idempotencyKey s.1.orderIntents c.intent.idempotencyKey =
            some row ∧ row.id = id) ∨
        (r = ⟨c, true⟩ ∧ ∃ row att, IntentRow.ofRecord c.intent = some row ∧
          AttemptRow.ofRecord c.supplierAttempt = some att ∧
          lookup IntentRow.idempotencyKey s.1.orderIntents row.idempotencyKey = none ∧
          s'.1 = { s.1 with
            orderIntents := s.1.orderIntents ++ [row]
            supplierAttempts := s.1.supplierAttempts ++ [att] })) := by
  obtain ⟨_, s₀, h1, hrest⟩ := Tx.bind_ok.1 h
  obtain ⟨hinv, rfl⟩ := ofOrder_ok.1 h1
  refine ⟨assertAggregateInvariants_ok.1 hinv, ?_⟩
  obtain ⟨created, s₁, h2, hend⟩ := Tx.bind_ok.1 hrest
  obtain ⟨row, hrow, ⟨rfl, rfl⟩ | ⟨rfl, hfree, hs₁⟩⟩ := insertIntent_ok h2
  · obtain ⟨existing, s₂, h3, hcmp⟩ := Tx.bind_ok.1 hend
    obtain ⟨same, s₃, h4, hsame⟩ := Tx.bind_ok.1 hcmp
    obtain ⟨-, rfl⟩ := ofOrder_ok.1 h4
    obtain ⟨_, s₄, h5, hret⟩ := Tx.bind_ok.1 hsame
    obtain ⟨-, rfl⟩ := Tx.ensure_ok.1 h5
    obtain ⟨rfl, rfl⟩ := Tx.pure_ok.1 hret
    unfold loadByKey at h3
    simp only [Tx.bind_ok, Tx.ensure_ok, Tx.query_ok, Tx.getOrThrow_ok] at h3
    obtain ⟨_, _, ⟨-, rfl⟩, _, _, ⟨rfl, rfl⟩, found, _, ⟨hfound, rfl⟩, hl⟩ := h3
    obtain ⟨rfl, hl⟩ := load_ok.1 hl
    exact .inl ⟨rfl, rfl, found.id, hl, found, hfound, rfl⟩
  · obtain ⟨_, s₂, h3, hret⟩ := Tx.bind_ok.1 hend
    obtain ⟨att, hatt, hs₂⟩ := insertAttempt_ok h3
    obtain ⟨rfl, rfl⟩ := Tx.pure_ok.1 hret
    exact .inr ⟨rfl, row, att, hrow, hatt, hfree, by rw [hs₂, hs₁]⟩

end

end NyanShopBot.Orders
