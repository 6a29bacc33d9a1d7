import NyanShopBot.Orders.AtMostOnce

/-!
# Reading back what was prepared

A created intent is stored as two rows, and `get` builds the aggregate again
from them. `HasRows` is what one intent has stored; only the operations on that
intent change it (`HasRows.exec`). `OrderAggregate.FitsRows` says what of a
candidate the rows can hold, and `prepared_reads_back` that this is exactly what
makes `get` return the candidate.
-/

namespace NyanShopBot.Orders

open Py Db

/-! ## The rows of one intent -/

/-- The intent has these two rows and no delivery. -/
structure HasRows (t : Tables) (id : Str) (row : IntentRow) (att : AttemptRow) : Prop where
  intent : lookup IntentRow.id t.orderIntents id = some row
  attempt : lookup AttemptRow.orderIntentId t.supplierAttempts id = some att
  deliveries : ∀ r ∈ t.deliveryAttempts, r.orderIntentId ≠ id

namespace HasRows

variable {t : Tables} {id id' : Str} {row : IntentRow} {att : AttemptRow}

theorem purchase_other (h : HasRows t id row att) (hne : id ≠ id') (st : PurchaseState)
    {f : AttemptRow → AttemptRow} (hf : ∀ r, (f r).orderIntentId = r.orderIntentId) :
    HasRows ((t.setIntentState id' st).setAttempt id' f) id row att where
  intent := by
    refine Eq.trans ?_ h.intent
    exact lookup_modify_other (f := IntentRow.setState st) hne fun _ h => h
  attempt := (lookup_modify_other hne fun r h => (hf r).trans h).trans h.attempt
  deliveries := h.deliveries

theorem insert (h : HasRows t id row att) (r : IntentRow) (a : AttemptRow) :
    HasRows { t with
      orderIntents := t.orderIntents ++ [r]
      supplierAttempts := t.supplierAttempts ++ [a] } id row att where
  intent := by rw [lookup_append, h.intent]; rfl
  attempt := by rw [lookup_append, h.attempt]; rfl
  deliveries := h.deliveries

theorem insertDelivery (h : HasRows t id row att) {r : DeliveryRow} (hr : r.orderIntentId ≠ id) :
    HasRows { t with deliveryAttempts := t.deliveryAttempts ++ [r] } id row att where
  intent := h.intent
  attempt := h.attempt
  deliveries := fun d hd => by
    rcases List.mem_append.1 hd with hd | hd
    · exact h.deliveries d hd
    · rwa [List.mem_singleton.1 hd]

theorem finishDelivery (h : HasRows t id row att) (d : Str) (target : DeliveryState)
    (code : Option Str) :
    HasRows { t with
      deliveryAttempts :=
        modify DeliveryRow.id t.deliveryAttempts d (.finish target code) } id row att where
  intent := h.intent
  attempt := h.attempt
  deliveries := fun r hr => by
    obtain ⟨a, ha, rfl⟩ := mem_modify.1 hr
    split
    · exact h.deliveries a ha
    · exact h.deliveries a ha

theorem deliveriesOf_eq (h : HasRows t id row att) : t.deliveriesOf id = [] := by
  have hnone : (t.deliveryAttempts.filter fun r => r.orderIntentId = id) = [] :=
    List.filter_eq_nil_iff.2 fun r hr => by simpa using h.deliveries r hr
  unfold Tables.deliveriesOf
  rw [hnone]
  rfl

end HasRows

section

variable [UnicodeData]

variable [Hashlib]

/-- **No other operation touches the rows of an intent.** -/
theorem HasRows.exec {s : Store} {id : Str} {row : IntentRow} {att : AttemptRow}
    (h : HasRows s.1 id row att) (op : RepoOp) (hop : ¬ op.On id) :
    HasRows (op.exec s).2.1 id row att := by
  cases op.writes s with
  | nothing op hs => rwa [hs]
  | prepare c r a hs => rw [hs]; exact h.insert r a
  | purchase op i st f hon _ hf hs =>
    rw [hs]
    refine h.purchase_other (fun e => hop (e ▸ hon)) st fun r => ?_
    obtain ⟨_, _, _, hr⟩ := hf r
    rw [hr]
  | create r hs => rw [hs]; exact h.insertDelivery hop
  | finish succeeded text r target code _ _ _ hs => rw [hs]; exact h.finishDelivery r.id target code

theorem HasRows.runOps {s : Store} {id : Str} {row : IntentRow} {att : AttemptRow}
    {ops : List RepoOp} (h : HasRows s.1 id row att) (hops : ∀ op ∈ ops, ¬ op.On id) :
    HasRows (runOps ops s).1 id row att := by
  induction ops generalizing s with
  | nil => exact h
  | cons op ops ih =>
    exact ih (h.exec op (hops op List.mem_cons_self)) fun o ho => hops o (List.mem_cons_of_mem _ ho)

/-! ## Storing a candidate -/

/-- What of a candidate the two rows hold: `prepare` writes `PREPARED` without a
reference or a failure, one currency for both prices, and texts cut to the width
of their column. -/
structure OrderAggregate.FitsRows (c : OrderAggregate) : Prop where
  state : c.intent.purchaseState = .prepared
  reference : c.supplierAttempt.supplierOrderReference = none
  failure : c.supplierAttempt.failureCode = none
  currency : c.intent.maxUnitPrice.currency = c.intent.unitPrice.currency
  key : c.intent.idempotencyKey.length ≤ 128
  attemptId : c.supplierAttempt.id.length ≤ 36

omit [UnicodeData] [Hashlib] in
theorem MinorMoney.make_ok {amountMinor : Int} {currency unit : Str} {m : MinorMoney} :
    MinorMoney.make amountMinor currency unit = .ok m ↔
      m.amountMinor = amountMinor ∧ m.currency = currency ∧ m.unit = unit := by
  constructor
  · intro h
    unfold make at h
    split at h
    · cases h; exact ⟨rfl, rfl, rfl⟩
    · cases h
  · rintro ⟨rfl, rfl, rfl⟩
    exact m.make_self

omit [UnicodeData] [Hashlib] in
/-- A price is short enough for its columns. -/
theorem MinorMoney.fits (m : MinorMoney) :
    m.currency.length ≤ 8 ∧ m.unit = str "minor" ∧ m.unit.length ≤ 32 := by
  have h := m.valid
  simp only [isCurrency, Bool.and_eq_true, decide_eq_true_eq] at h
  refine ⟨by omega, h.2, ?_⟩
  rw [h.2]
  decide

omit [Hashlib] in
theorem length_of_isIdentity {text : Str} {n : Nat} (h : isIdentity text n = true) :
    text.length ≤ n := by
  simp only [isIdentity, Bool.and_eq_true, decide_eq_true_eq] at h
  exact h.1.1.1.2

/-- The intent row gives back the record whose texts it holds. -/
theorem intentFromRow_ofRecord {c : OrderAggregate} {row : IntentRow} (hinv : c.Invariants)
    (hrow : IntentRow.ofRecord c.intent = some row) :
    intentFromRow row = .ok c.intent ↔ c.intent.purchaseState = .prepared ∧
      c.intent.maxUnitPrice.currency = c.intent.unitPrice.currency ∧
      c.intent.idempotencyKey.length ≤ 128 := by
  unfold IntentRow.ofRecord at hrow
  simp only [Option.bind_eq_bind, Option.bind_eq_some_iff, Option.pure_def,
    Option.some.injEq] at hrow
  obtain ⟨i1, h1, i2, h2, i3, h3, i4, h4, i5, h5, i6, h6, i7, h7, rfl⟩ := hrow
  have hc := hinv.consistent
  have hp := c.supplierAttempt.requestPayload.valid
  simp only [OrderAggregate.consistent, Bool.and_eq_true, decide_eq_true_eq] at hc hp
  have e1 := (varchar_eq_iff h1).2 (length_of_isIdentity hinv.identity)
  have e3 := (varchar_eq_iff h3).2 (hc.1.1.1.1.1.2 ▸ length_of_isIdentity hp.1.1.1.1.1.1.1)
  have e4 := (varchar_eq_iff h4).2 (hc.1.1.1.1.2 ▸ length_of_isIdentity hp.1.1.1.1.1.1.2)
  have e5 := (varchar_eq_iff h5).2 (hc.1.1.1.2 ▸ length_of_isIdentity hp.1.1.1.1.1.2)
  have e6 := (varchar_eq_iff h6).2 c.intent.unitPrice.fits.1
  have e7 := (varchar_eq_iff h7).2 c.intent.unitPrice.fits.2.2
  subst e1 e3 e4 e5 e6 e7
  have hunit : c.intent.maxUnitPrice.unit = c.intent.unitPrice.unit :=
    c.intent.maxUnitPrice.fits.2.1.trans c.intent.unitPrice.fits.2.1.symm
  simp only [intentFromRow, MinorMoney.make_self]
  constructor
  · intro h
    obtain ⟨u, hu, h⟩ := except_bind_ok.1 h
    obtain ⟨m, hm, h⟩ := except_bind_ok.1 h
    have hi : c.intent = _ := (Except.ok.inj h).symm
    obtain ⟨-, hcur, -⟩ := MinorMoney.make_ok.1 hm
    have hmax : c.intent.maxUnitPrice = m := congrArg OrderIntentRecord.maxUnitPrice hi
    have hkey : i2 = c.intent.idempotencyKey := (congrArg OrderIntentRecord.idempotencyKey hi).symm
    exact ⟨congrArg OrderIntentRecord.purchaseState hi, hmax ▸ hcur, (varchar_eq_iff h2).1 hkey⟩
  · rintro ⟨hst, hcur, hkey⟩
    obtain rfl := (varchar_eq_iff h2).2 hkey
    have hm : MinorMoney.make c.intent.maxUnitPrice.amountMinor c.intent.unitPrice.currency
        c.intent.unitPrice.unit = .ok c.intent.maxUnitPrice :=
          MinorMoney.make_ok.2 ⟨rfl, hcur, hunit⟩
    refine except_bind_ok.2 ⟨_, rfl, except_bind_ok.2 ⟨_, hm, ?_⟩⟩
    rw [← hst]
    rfl

/-- The attempt row gives back the record whose texts it holds. -/
theorem attemptFromRow_ofRecord {c : OrderAggregate} {att : AttemptRow} (hinv : c.Invariants)
    (hatt : AttemptRow.ofRecord c.supplierAttempt = some att)
    (hst : c.intent.purchaseState = .prepared) :
    attemptFromRow att = .ok c.supplierAttempt ↔
      c.supplierAttempt.supplierOrderReference = none ∧ c.supplierAttempt.failureCode = none ∧
      c.supplierAttempt.id.length ≤ 36 := by
  unfold AttemptRow.ofRecord at hatt
  simp only [Option.bind_eq_bind, Option.bind_eq_some_iff, Option.pure_def,
    Option.some.injEq] at hatt
  obtain ⟨i1, h1, i2, h2, i3, h3, i4, h4, i5, h5, rfl⟩ := hatt
  have hl := hinv.linked
  have hc := hinv.consistent
  have hp := c.supplierAttempt.requestPayload.valid
  simp only [OrderAggregate.linked, OrderAggregate.consistent, Bool.and_eq_true,
    decide_eq_true_eq] at hl hc hp
  have hid := length_of_isIdentity hinv.identity
  have e2 := (varchar_eq_iff h2).2 (hl.1 ▸ hid)
  have e3 := (varchar_eq_iff h3).2 (hc.1.1.1.1.1.1.2 ▸ length_of_isIdentity hp.1.1.1.2)
  have e4 : i4 = c.supplierAttempt.requestKey := by
    rw [varchar_requestKey hinv.identity hinv.requestKey] at h4
    exact (Option.some.inj h4).symm
  have e5 := (varchar_eq_iff h5).2 (by rw [hc.1.1.1.1.1.1.1]; exact (length_sha256Hex _).le)
  rw [attemptFromRow_ok, CanonicalPurchasePayload.fromMapping_asDict]
  constructor
  · rintro ⟨-, hcode, hid, -, -, -, -, -, href⟩
    refine ⟨href, ?_, (varchar_eq_iff h1).1 hid.symm⟩
    simpa using hcode.symm
  · rintro ⟨href, hcode, hid⟩
    refine ⟨rfl, by rw [hcode]; rfl, ((varchar_eq_iff h1).2 hid).symm, e2.symm, e3.symm, e4.symm,
      e5.symm, hl.2.symm.trans hst, href⟩

omit [UnicodeData] in
theorem length_orderUuid (name : Str) : (orderUuid name).length = 36 := by
  simp [orderUuid, uuidStr, join, str]

/-- What `place_order` prepares, after it compared the currencies, fits its rows. -/
theorem buildPreparedOrder_fitsRows {customerReference : Str} {request : OrderRequest}
    {payload : CanonicalPurchasePayload} {c : OrderAggregate}
    (h : buildPreparedOrder customerReference request payload = .ok c)
    (hcur : payload.unitPrice.currency = request.maxUnitPrice.currency) : c.FitsRows := by
  simp only [buildPreparedOrder, except_bind_ok] at h
  obtain ⟨_, -, intentId, -, attemptId, hattempt, _, -, h⟩ := h
  cases h
  have hreq := request.valid
  simp only [Bool.and_eq_true] at hreq
  simp only [supplierAttemptIdFor, except_bind_ok] at hattempt
  obtain ⟨_, -, hattempt⟩ := hattempt
  refine ⟨rfl, rfl, rfl, hcur.symm, length_of_isIdentity hreq.1.2, ?_⟩
  rw [← Except.ok.inj hattempt, length_orderUuid]

theorem get_ok {id : Str} {a : OrderAggregate} {s : Store} :
    ((RepoOp.get id).exec s).1 = .ok a ↔ Loads s.1 id a := by
  refine Tx.commit_ok.trans ⟨fun h => (load_ok.1 h).2, fun h => ?_⟩
  have hload : (RepoOp.get id).body s = .ok (a, s) := load_ok.2 ⟨rfl, h⟩
  rw [Tx.commit_of_ok hload]
  exact hload

/-- The rows that a prepare inserts. -/
theorem HasRows.of_prepare {c : OrderAggregate} {s s' : Store} {row : IntentRow} {att : AttemptRow}
    (hinv : c.Invariants) (hrow : IntentRow.ofRecord c.intent = some row)
    (hatt : AttemptRow.ofRecord c.supplierAttempt = some att)
    (hs : s'.1 = { s.1 with
      orderIntents := s.1.orderIntents ++ [row]
      supplierAttempts := s.1.supplierAttempts ++ [att] }) :
    HasRows s'.1 c.intent.id row att := by
  have hid : row.id = c.intent.id :=
    varchar_of_isIdentity hinv.identity (IntentRow.ofRecord_eq hrow).1
  have hl := hinv.linked
  simp only [OrderAggregate.linked, Bool.and_eq_true, decide_eq_true_eq] at hl
  have hao : att.orderIntentId = c.intent.id :=
    varchar_of_isIdentity hinv.identity (hl.1 ▸ (AttemptRow.ofRecord_eq hatt).1)
  obtain ⟨⟨hn, -, -⟩, ⟨-, han, -⟩, -⟩ := s'.2
  obtain ⟨-, -, -, -, -, hfk, -⟩ := s.2
  refine ⟨?_, ?_, fun r hr hro => ?_⟩
  · rw [← hid]
    exact lookup_of_mem IntentRow.id hn (by rw [hs]; simp)
  · rw [← hao]
    exact lookup_of_mem AttemptRow.orderIntentId han (by rw [hs]; simp)
  · -- a delivery would refer to an intent that was there before
    rw [hs] at hn hr
    rw [List.map_append, List.nodup_append] at hn
    exact hn.2.2 r.orderIntentId (hfk r hr) row.id (by simp) (hro.trans hid.symm)

/-- With the rows of a candidate stored, what loads is the candidate if the rows hold all of it. -/
theorem HasRows.loads_iff {c : OrderAggregate} {t : Tables} {row : IntentRow} {att : AttemptRow}
    (h : HasRows t c.intent.id row att) (hinv : c.Invariants) (hnew : c.deliveryAttempts = [])
    (hrow : IntentRow.ofRecord c.intent = some row)
    (hatt : AttemptRow.ofRecord c.supplierAttempt = some att) :
    Loads t c.intent.id c ↔ c.FitsRows := by
  constructor
  · intro hl
    obtain ⟨r, hr, hi⟩ := hl.intent
    obtain ⟨q, hq, ha⟩ := hl.attempt
    obtain rfl : row = r := Option.some.inj (h.intent.symm.trans hr)
    obtain rfl : att = q := Option.some.inj (h.attempt.symm.trans hq)
    obtain ⟨hst, hcur, hkey⟩ := (intentFromRow_ofRecord hinv hrow).1 hi
    obtain ⟨href, hcode, hid⟩ := (attemptFromRow_ofRecord hinv hatt hst).1 ha
    exact ⟨hst, href, hcode, hcur, hkey, hid⟩
  · intro hf
    refine ⟨?_, ⟨row, h.intent, ?_⟩, ⟨att, h.attempt, ?_⟩, ?_, hinv⟩
    · have hid := hinv.identity
      simp only [isIdentity, Bool.and_eq_true] at hid
      exact storable_of_isprintable hid.1.2
    · exact (intentFromRow_ofRecord hinv hrow).2 ⟨hf.state, hf.currency, hf.key⟩
    · exact (attemptFromRow_ofRecord hinv hatt hf.state).2 ⟨hf.reference, hf.failure, hf.attemptId⟩
    · rw [h.deliveriesOf_eq, hnew]; rfl

theorem reads_back_iff {c : OrderAggregate} {r : PrepareResult} {s : Store}
    {ops : List RepoOp} (hnew : c.deliveryAttempts = [])
    (hprepare : ((RepoOp.prepare c).exec s).1 = .ok r) (hcreated : r.created = true)
    (hops : ∀ op ∈ ops, ¬ op.On c.intent.id) :
    ((RepoOp.get c.intent.id).exec (runOps ops ((RepoOp.prepare c).exec s).2)).1 =
      .ok r.aggregate ↔ c.FitsRows := by
  have hbody := Tx.commit_ok.1 hprepare
  obtain ⟨hinv, ⟨hf, -⟩ | ⟨rfl, row, att, hrow, hatt, -, hs⟩⟩ := prepare_ok hbody
  · rw [hcreated] at hf; cases hf
  have hrows := (HasRows.of_prepare hinv hrow hatt hs).runOps hops
  rw [← hrows.loads_iff hinv hnew hrow hatt]
  exact get_ok

/-- **A created intent reads back as it was prepared exactly when the rows hold
all of it**, whatever happens to other intents in between. They hold all of what
`place_order` prepares. -/
theorem prepared_reads_back :
    (∀ {c : OrderAggregate} {r : PrepareResult} {s : Store} {ops : List RepoOp},
      c.deliveryAttempts = [] → ((RepoOp.prepare c).exec s).1 = .ok r → r.created = true →
      (∀ op ∈ ops, ¬ op.On c.intent.id) →
      (((RepoOp.get c.intent.id).exec (runOps ops ((RepoOp.prepare c).exec s).2)).1 =
        .ok r.aggregate ↔ c.FitsRows)) ∧
    ∀ {customerReference : Str} {request : OrderRequest} {payload : CanonicalPurchasePayload}
        {c : OrderAggregate},
      buildPreparedOrder customerReference request payload = .ok c →
      payload.unitPrice.currency = request.maxUnitPrice.currency → c.FitsRows :=
  ⟨fun hnew hprepare hcreated hops => reads_back_iff hnew hprepare hcreated hops,
    fun h hcur => buildPreparedOrder_fitsRows h hcur⟩

end

/-! ## Samples -/

section

attribute [local instance] sampleUnicode sampleHashlib

/-- The payload of the sample order with a price cap of its own. -/
def samplePayloadOf (maxUnitPrice : MinorMoney) : CanonicalPurchasePayload where
  customerReference := str "cust-1"
  productId := str "p1"
  variantId := str "v1"
  quantity := 1
  unitPrice := samplePrice
  maxUnitPrice := maxUnitPrice
  supplierCode := str "mock"
  supplierProductId := str "sp1"
  supplierVariantId := str "sv1"
  schemaVersion := .int 1
  valid := by decide

/-- The sample order as it is prepared, with a price cap of its own. -/
def sampleCandidate (maxUnitPrice : MinorMoney) : OrderAggregate where
  intent := {
    id := sampleIntent
    idempotencyKey := str "order-1"
    customerReference := str "cust-1"
    productId := str "p1"
    variantId := str "v1"
    quantity := 1
    unitPrice := samplePrice
    maxUnitPrice := maxUnitPrice
    purchaseState := .prepared }
  supplierAttempt := {
    id := str "2a532d03-12bc-5306-a1a7-f26ad135ffe0"
    orderIntentId := sampleIntent
    supplierCode := str "mock"
    requestKey := str "purchase:" ++ sampleIntent
    requestFingerprint := (samplePayloadOf maxUnitPrice).fingerprint
    requestPayload := samplePayloadOf maxUnitPrice
    status := .prepared
    supplierOrderReference := none
    failureCode := none }
  deliveryAttempts := []

/-- A cap in another currency than the price. -/
def sampleForeignCap : MinorMoney := ⟨1000, str "USD", str "minor", by decide⟩

/-- A candidate with prices in two currencies is created and never loads again. -/
theorem prepared_unreadable :
    (assertAggregateInvariants (sampleCandidate sampleForeignCap)).isOk = true ∧
      ((RepoOp.prepare (sampleCandidate sampleForeignCap)).exec Store.empty).1.map (·.created) =
        .ok true ∧
      ((RepoOp.get sampleIntent).exec
          ((RepoOp.prepare (sampleCandidate sampleForeignCap)).exec Store.empty).2).1.map
        (·.intent.id) = .error (.order .persistenceInvariantError) := by
  decide +kernel

theorem prepared_reads_back_sample :
    ∃ r, ((RepoOp.prepare (sampleCandidate samplePrice)).exec Store.empty).1 = .ok r ∧
      ((RepoOp.get sampleIntent).exec
          ((RepoOp.prepare (sampleCandidate samplePrice)).exec Store.empty).2).1 =
        .ok r.aggregate := by
  have hcreated : ((RepoOp.prepare (sampleCandidate samplePrice)).exec Store.empty).1.map
      (·.created) = .ok true := by decide +kernel
  cases hprepare : ((RepoOp.prepare (sampleCandidate samplePrice)).exec Store.empty).1 with
  | error e => rw [hprepare] at hcreated; cases hcreated
  | ok r =>
    rw [hprepare] at hcreated
    have hfits : (sampleCandidate samplePrice).FitsRows :=
      ⟨rfl, rfl, rfl, rfl, by decide, by decide⟩
    have hread := (prepared_reads_back.1 rfl hprepare (Except.ok.inj hcreated)
      (fun op (h : op ∈ []) => absurd h List.not_mem_nil)).2 hfits
    exact ⟨r, rfl, hread⟩

end

end NyanShopBot.Orders
