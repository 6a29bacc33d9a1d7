import NyanShopBot.Orders.Dispatch
import NyanShopBot.Orders.Readback

/-!
# Placing an order again

What `place_order` does when the intent of its key was prepared by an earlier
call with the same customer and an equal request. `Surroundings` is what the call
finds outside the repository, `Surroundings.Lists` that the product is still
listed within the cap. `place_order_again` compares the offer with what was
prepared: the same payload gives the stored intent, another one a conflict, and
too little stock an error, and no purchase is ever sent a second time.
-/

namespace NyanShopBot.Orders

open Py Db Conc

section

variable [UnicodeData] [Hashlib]

/-! ## What was prepared -/

/-- The candidate that `place_order` builds for the request, at some offer. -/
def MadeFor (customerReference : Str) (request : OrderRequest) (c : OrderAggregate) : Prop :=
  ∃ payload, buildPreparedOrder customerReference request payload = .ok c ∧
    payload.unitPrice.currency = request.maxUnitPrice.currency

theorem buildCandidate_made (customerReference : Str) (request : OrderRequest) :
    Calls ServiceOp.Neutral (fun r => ∀ c, r = .ok c → MadeFor customerReference request c)
      (buildCandidate customerReference request) := by
  have hb {α : Type} {p : Service α} {f : α → Service OrderAggregate} (hp : NeutralCalls p)
      (hf : ∀ a, Calls ServiceOp.Neutral
        (fun r => ∀ c, r = .ok c → MadeFor customerReference request c) (f a)) :
      Calls ServiceOp.Neutral
        (fun r => ∀ c, r = .ok c → MadeFor customerReference request c) (p >>= f) :=
    calls_bind hp (fun a _ => hf a) fun _ _ _ h => by cases h
  unfold buildCandidate
  refine hb (awaits_assertSafeExecution trivial) fun _ => hb (awaits_require _ _) fun _ => ?_
  refine hb (awaits_requirePurchaseCapability trivial) fun _ => ?_
  refine hb (awaits_authoritativeSelection trivial _ trivial) fun selection => ?_
  refine hb (awaits_ofResult _) fun serverPrice => ?_
  refine wp_bind.2 (wp_ensure.2 ⟨fun hmoney => ?_, fun _ c h => by cases h⟩)
  refine hb (awaits_require _ _) fun _ => ?_
  refine hb (awaits_require _ _) fun _ => hb (awaits_require _ _) fun _ => ?_
  refine hb (awaits_guarded (awaits_await .supplierCode trivial) _) fun _ =>
    hb (awaits_require _ _) fun _ => ?_
  split
  · intro c h; cases h
  · next payload hpayload =>
    refine wp_ofExcept.2 fun c h => ?_
    have hprice : payload.unitPrice = serverPrice := by
      unfold CanonicalPurchasePayload.make at hpayload
      split at hpayload
      · cases hpayload; rfl
      · cases hpayload
    cases hb : buildPreparedOrder customerReference request payload with
    | error e => rw [hb] at h; cases h
    | ok d => rw [hb] at h; cases h; exact ⟨payload, hb, hprice ▸ hmoney.1⟩

/-- A prepare of `place_order` is of a candidate made for its request. -/
def Makes (call : ServiceCall) (op : ServiceOp) : Prop :=
  ∀ c, op = .repo (.prepare c) → ∀ customerReference request,
    call = .placeOrder customerReference request → MadeFor customerReference request c

abbrev madeProtocol : Protocol serviceSig Exc := ⟨ServiceCall, Makes, fun call _ _ => call⟩

/-- The operations after the prepare. -/
def NoPrepare : ServiceOp → Prop
  | .repo (.prepare _) => False
  | _ => True

omit [Hashlib] in
theorem noPrepare_of_neutral {op : ServiceOp} (h : op.Neutral) : NoPrepare op := by
  cases op with
  | repo op => cases op <;> first | exact h | trivial
  | _ => trivial

omit [Hashlib] in
theorem noPrepare_of_isDispatch (op : ServiceOp) (h : op.IsDispatch) : NoPrepare op := by
  cases op with
  | repo op => cases op <;> first | exact h | trivial
  | _ => trivial

theorem body_made (call : ServiceCall) :
    wp madeProtocol (fun _ _ => True) call call.body := by
  have hother (hc : ∀ customerReference request,
      call ≠ .placeOrder customerReference request) :
      wp madeProtocol (fun _ _ => True) call call.body :=
    wp_always (K := fun g => g = call) (fun g op e c _ customerReference request h =>
      absurd (e ▸ h) (hc customerReference request)) (fun _ _ _ h => h) rfl
  have hframe {op : ServiceOp} (h : NoPrepare op) :
      Makes call op ∧ ∀ r : Except Exc op.Res, call = call :=
    ⟨fun c e => by subst e; exact h.elim, fun _ => rfl⟩
  cases call with
  | placeOrder customerReference request =>
    refine wp_bind.2 (wp_frame (fun _ h => hframe (noPrepare_of_neutral h)) (fun r hr => ?_)
      (buildCandidate_made customerReference request))
    cases r with
    | error e => trivial
    | ok c =>
      refine wp_bind.2 (wp_frame (fun _ h => hframe (noPrepare_of_neutral h)) (fun r _ => ?_)
        (awaits_assertSafeExecution trivial : NeutralCalls _))
      cases r with
      | error e => trivial
      | ok u =>
        refine wp_bind.2 (wp_perform.2 ⟨fun c' e cu rq hcall => ?_, fun r => ?_⟩)
        · cases e; cases hcall; exact hr c rfl
        · cases r with
          | error e => trivial
          | ok prepared =>
            refine wp_ite.2 ⟨fun _ => ?_, fun _ => trivial⟩
            refine wp_bind.2 (wp_frame (fun _ h => hframe h) (fun r _ => ?_)
              (dispatchOnce_awaits noPrepare_of_isDispatch _))
            cases r <;> trivial
  | recover => exact hother nofun
  | deliver => exact hother nofun
  | getOrder => exact hother nofun

/-- The intent of the candidate is stored with its payload, under its key. -/
def StoredAs (c : OrderAggregate) (s : Store) : Prop :=
  ∃ a, Loads s.1 c.intent.id a ∧
    a.supplierAttempt.requestPayload = c.supplierAttempt.requestPayload ∧
    a.intent.idempotencyKey = c.intent.idempotencyKey

/-- A loaded intent has the key of its obligation. -/
theorem Loads.idempotencyKey {t : Tables} {id : Str} {a : OrderAggregate} {o : Obligation}
    (h : Loads t id a) (ho : Encodes t id o) : a.intent.idempotencyKey = o.idempotencyKey := by
  obtain ⟨r, hr, hi⟩ := h.intent
  obtain ⟨r', hr', hk, -⟩ := ho.intent
  obtain rfl : r = r' := Option.some.inj (hr.symm.trans hr')
  exact (intentFromRow_ok hi).2.1.trans hk

theorem StoredAs.later {c : OrderAggregate} {op : ServiceOp} {s s' : Store} {L L' : Ledger}
    (h : StoredAs c s) (hR : Represents s.1 L) (he : EffectLeads op s s' L L') :
    StoredAs c s' := by
  obtain ⟨a, ha, hpay, hkey⟩ := h
  obtain ⟨o, ho, henc⟩ := hR.of_loads ha
  obtain ⟨a', ha'⟩ := ha.later he.writes he.represents
  obtain ⟨o', ho', hl⟩ := he.later ho
  obtain ⟨o₁, ho₁, henc'⟩ := he.represents.of_loads ha'
  obtain rfl : o' = o₁ := Option.some.inj (ho'.symm.trans ho₁)
  refine ⟨a', ha', ?_, ?_⟩
  · rw [(ha'.encodes henc').2.2.2.2, hl.payload, ← (ha.encodes henc).2.2.2.2, hpay]
  · rw [ha'.idempotencyKey henc', hl.idempotencyKey, ← ha.idempotencyKey henc, hkey]

/-- The candidate of a committed prepare was made for the request of its call. -/
theorem prepare_made {tr l m : OrdersTrace} {cfg : Cfg ordersSystem} {u t : Trans ordersSystem}
    {q : Nat} {c : OrderAggregate} {r : Except Exc PrepareResult} {customerReference : Str}
    {request : OrderRequest} (h : Run ordersSystem Store.empty tr cfg) (hu : u ∈ tr)
    (hstart : u.event = .start q (.placeOrder customerReference request)) (htr : tr = l ++ t :: m)
    (ht : t.event = .act q (.repo (.prepare c)) r) : MadeFor customerReference request c := by
  obtain ⟨cfg₀, call, k, h₀, -, hp, -⟩ := h.act_at htr ht
  obtain ⟨g, hg, hok⟩ := h₀.act_ok (P := madeProtocol) (i := fun call => call) body_made hp
  obtain ⟨g', hg', hcall⟩ := h₀.ghost_call (P := madeProtocol) (i := fun call => call)
    (K := fun call g => g = call) body_made (fun _ => rfl) (fun _ _ _ _ h _ => h) hp
  obtain rfl : g = g' := Option.some.inj (hg.symm.trans hg')
  obtain ⟨v, hv, hv'⟩ := h₀.started hp
  obtain ⟨rest, h1⟩ := h.call_of_start hu hstart
  obtain ⟨rest', h2⟩ := h.call_of_start (t := v) (by rw [htr]; exact List.mem_append_left _ hv) hv'
  rw [h1] at h2
  cases h2
  exact hok c rfl _ _ hcall

/-- **What a created intent was prepared with stays stored.** -/
theorem created_stored {tr : OrdersTrace} {cfg : Cfg ordersSystem} {u t : Trans ordersSystem}
    {q : Nat} {c : OrderAggregate} {r : PrepareResult} {customerReference : Str}
    {request : OrderRequest} (h : Run ordersSystem Store.empty tr cfg) (hu : u ∈ tr)
    (hstart : u.event = .start q (.placeOrder customerReference request)) (ht : t ∈ tr)
    (hprepare : t.event = .act q (.repo (.prepare c)) (.ok r)) (hcreated : r.created = true) :
    MadeFor customerReference request c ∧ StoredAs c cfg.store := by
  obtain ⟨l, m, htr⟩ := List.append_of_mem ht
  have hmade := prepare_made h hu hstart htr hprepare
  refine ⟨hmade, ?_⟩
  obtain ⟨cfg₀, call, k, h₀, -, hp, hE⟩ := h.act_at htr hprepare
  have hE : Effect t.pre (.repo (.prepare c)) (.ok r) t.post := hE
  have hnow : StoredAs c t.post := by
    obtain ⟨hinv, ⟨hf, -⟩ | ⟨rfl, row, att, hrow, hatt, -, hs⟩⟩ := prepare_ok hE.body_ok
    · rw [hcreated] at hf; cases hf
    obtain ⟨payload, hb, hcur⟩ := hmade
    have hnew : c.deliveryAttempts = [] := by
      simp only [buildPreparedOrder, except_bind_ok] at hb
      obtain ⟨_, -, _, -, _, -, _, -, hb⟩ := hb
      cases hb; rfl
    have hrows := HasRows.of_prepare hinv hrow hatt hs
    exact ⟨c, (hrows.loads_iff hinv hnew hrow hatt).2 (buildPreparedOrder_fitsRows hb hcur),
      rfl, rfl⟩
  have htr' : tr = (l ++ [t]) ++ m := by rw [htr]; simp
  subst htr'
  refine Run.invariant_from (l := l ++ [t]) (J := fun _ s => StoredAs c s) body_follows
    (by rw [finalStore_snoc]; exact hnow) ?_ ?_ ?_ h
  · intro m cfg pid call _ _ hs
    exact hs
  · intro m s pid hs
    exact hs
  · intro m cfg pid op r s' g hrun hs _ _ hE
    obtain ⟨L, hI⟩ := run_inv hrun
    obtain ⟨L', he⟩ := hE.leads hI.represents
    exact hs.later hI.represents he

/-! ## Preparing again -/

/-- **A prepare under a stored key** compares the canonical payloads. -/
theorem prepare_replay {s : Store} {a c : OrderAggregate} {row : IntentRow}
    (hload : Loads s.1 a.intent.id a) (hinv : c.Invariants)
    (hrow : IntentRow.ofRecord c.intent = some row) (hcheck : row.Check)
    (hkey : c.intent.idempotencyKey = a.intent.idempotencyKey)
    (hid : isIdentity c.intent.idempotencyKey 128 = true) :
    prepare c s =
      if a.supplierAttempt.requestPayload.canonicalJson =
          c.supplierAttempt.requestPayload.canonicalJson then .ok (⟨a, false⟩, s)
      else .error (.order .idempotencyConflict) := by
  obtain ⟨r, hr, hi⟩ := hload.intent
  have hrk : r.idempotencyKey = c.intent.idempotencyKey := (intentFromRow_ok hi).2.1 ▸ hkey.symm
  have hfound : lookup IntentRow.idempotencyKey s.1.orderIntents c.intent.idempotencyKey =
      some r := hrk ▸ lookup_of_mem IntentRow.idempotencyKey s.2.1.2.1 (mem_of_lookup hr)
  have hrowKey : row.idempotencyKey = c.intent.idempotencyKey :=
    varchar_of_isIdentity hid (IntentRow.ofRecord_eq hrow).2.1
  have hinsert : insertIntent c.intent s = .ok (none, s) := by
    unfold insertIntent
    rw [Tx.getOrThrow_bind hrow, Tx.ensure_bind hcheck, Tx.query_bind, hrowKey, hfound]
    rfl
  have hstorable : storable c.intent.idempotencyKey = true := by
    simp only [isIdentity, Bool.and_eq_true] at hid
    exact storable_of_isprintable hid.1.2
  have hexisting : loadByKey c.intent.idempotencyKey s = .ok (a, s) := by
    unfold loadByKey
    rw [Tx.ensure_bind hstorable, Tx.query_bind, Tx.getOrThrow_bind hfound, key_of_lookup hr]
    exact load_ok.2 ⟨rfl, hload⟩
  have hsame : sameCanonicalRequest a c = .ok (decide
      (a.supplierAttempt.requestPayload.canonicalJson =
        c.supplierAttempt.requestPayload.canonicalJson)) := by
    have ha := hload.invariants.consistent
    have hc := hinv.consistent
    simp only [OrderAggregate.consistent, Bool.and_eq_true, decide_eq_true_eq] at ha hc
    unfold sameCanonicalRequest
    rw [(assertAggregateInvariants_ok (u := ())).2 hload.invariants,
      (assertAggregateInvariants_ok (u := ())).2 hinv, ha.1.1.1.1.1.1.1, hc.1.1.1.1.1.1.1]
    refine congrArg Except.ok ?_
    by_cases e : a.supplierAttempt.requestPayload.canonicalJson =
        c.supplierAttempt.requestPayload.canonicalJson
    · simp [e, CanonicalPurchasePayload.fingerprint]
    · simp [e]
  unfold prepare
  rw [Tx.bind_eq (ofOrder_ok.2 ⟨(assertAggregateInvariants_ok (u := ())).2 hinv, rfl⟩),
    Tx.bind_eq hinsert]
  show (loadByKey c.intent.idempotencyKey >>= _) s = _
  rw [Tx.bind_eq hexisting, Tx.bind_eq (ofOrder_ok.2 ⟨hsame, rfl⟩)]
  split
  · next e => rw [Tx.ensure_bind (by simpa using e)]; rfl
  · next e => exact Tx.ensure_bind_not (by simpa using e)

/-- The candidate of the same request at another payload. -/
def OrderAggregate.offered (c : OrderAggregate) (payload : CanonicalPurchasePayload) :
    OrderAggregate :=
  { c with
    intent := { c.intent with unitPrice := payload.unitPrice }
    supplierAttempt := { c.supplierAttempt with
      supplierCode := payload.supplierCode
      requestFingerprint := payload.fingerprint
      requestPayload := payload } }

/-- The payload is one of the request. -/
structure CanonicalPurchasePayload.Of (p : CanonicalPurchasePayload) (customerReference : Str)
    (request : OrderRequest) : Prop where
  customer : p.customerReference = customerReference
  product : p.productId = request.productId
  variant : p.variantId = request.variantId
  quantity : p.quantity = request.quantity
  cap : p.maxUnitPrice = request.maxUnitPrice

theorem buildPreparedOrder_again {customerReference : Str} {request : OrderRequest}
    {p₀ : CanonicalPurchasePayload} {c : OrderAggregate}
    (h : buildPreparedOrder customerReference request p₀ = .ok c)
    (p : CanonicalPurchasePayload) :
    buildPreparedOrder customerReference request p = .ok (c.offered p) ∧
      (p.Of customerReference request → (c.offered p).Invariants) := by
  simp only [buildPreparedOrder, except_bind_ok] at h ⊢
  obtain ⟨u, hu, intentId, hi, attemptId, ha, key, hk, h⟩ := h
  cases h
  obtain ⟨hid, rfl⟩ := supplierRequestKeyFor_ok.1 hk
  refine ⟨⟨u, hu, intentId, hi, attemptId, ha, _, hk, rfl⟩, fun hp => ⟨?_, hid, rfl, ?_⟩⟩
  · simp [OrderAggregate.linked, OrderAggregate.offered]
  · simp [OrderAggregate.consistent, OrderAggregate.offered, hp.customer, hp.product, hp.variant,
      hp.quantity, hp.cap]

omit [Hashlib] in
theorem varchar_isIdentity {text : Str} {n : Nat} (h : isIdentity text n = true) :
    varchar n text = some text := by
  simp only [isIdentity, Bool.and_eq_true, decide_eq_true_eq] at h
  exact varchar_of_fits (storable_of_isprintable h.1.2) h.1.1.1.2

omit [UnicodeData] [Hashlib] in
/-- A price is stored as it is. -/
theorem MinorMoney.varchar (m : MinorMoney) :
    Db.varchar 8 m.currency = some m.currency ∧ Db.varchar 32 m.unit = some m.unit := by
  have h := m.valid
  simp only [isCurrency, Bool.and_eq_true, decide_eq_true_eq, List.all_eq_true] at h
  obtain ⟨hlen, hunit, hlen'⟩ := m.fits
  refine ⟨varchar_of_fits (List.all_eq_true.2 fun c hc => ?_) hlen, ?_⟩
  · have := h.1.2.2 c hc
    simp only [isSurrogate, Bool.and_eq_true, bne_iff_ne, ne_eq, Bool.not_eq_true',
      Bool.and_eq_false_imp, decide_eq_true_eq, decide_eq_false_iff_not]
    omega
  · rw [hunit]; decide

/-- The intent of an offer within the cap can be stored. -/
theorem offered_row {customerReference : Str} {request : OrderRequest}
    {p₀ p : CanonicalPurchasePayload} {c : OrderAggregate}
    (h : buildPreparedOrder customerReference request p₀ = .ok c)
    (hp : p.Of customerReference request)
    (hcap : p.unitPrice.amountMinor ≤ request.maxUnitPrice.amountMinor) :
    ∃ row, IntentRow.ofRecord (c.offered p).intent = some row ∧ row.Check := by
  simp only [buildPreparedOrder, except_bind_ok] at h
  obtain ⟨u, hu, intentId, hi, attemptId, ha, key, hk, h⟩ := h
  cases h
  obtain ⟨hid, rfl⟩ := supplierRequestKeyFor_ok.1 hk
  have hreq := request.valid
  have hpay := p.valid
  have hprice := p.unitPrice.valid
  simp only [Bool.and_eq_true, isInteger, decide_eq_true_eq] at hreq hpay hprice
  refine ⟨⟨intentId, request.idempotencyKey, customerReference, request.productId,
    request.variantId, request.quantity, p.unitPrice.amountMinor, request.maxUnitPrice.amountMinor,
    p.unitPrice.currency, p.unitPrice.unit, .prepared⟩, ?_, ?_⟩
  · simp only [IntentRow.ofRecord, OrderAggregate.offered, varchar_isIdentity hid,
      varchar_isIdentity hreq.1.2, varchar_isIdentity hreq.1.1.1, varchar_isIdentity hreq.1.1.2,
      varchar_isIdentity (hp.customer ▸ hpay.1.1.1.1.1.1.1), p.unitPrice.varchar.1,
      p.unitPrice.varchar.2]
    rfl
  · have hq := hreq.2.1
    exact ⟨by show 0 < request.quantity; omega, hprice.1.1.1, hprice.1.1.1.trans hcap, hcap,
      hprice.1.2, hprice.2⟩

/-! ## A call that runs alone -/

/-- What a `place_order` finds outside the repository. -/
structure Surroundings where
  runtime : RuntimeSafetySettings
  catalog : CatalogResponse
  detail : CatalogDetail
  supplierCode : Str
  capabilities : PurchaseCapabilities
  purchase : Except Exc PurchaseResult

/-- The store, and how many purchases the call has sent; `place_order` neither
reconciles nor delivers. -/
def Surroundings.answer (env : Surroundings) (s : Store × Nat) :
    (op : ServiceOp) → Except Exc op.Res × (Store × Nat)
  | .repo op => ((op.exec s.1).1, ((op.exec s.1).2, s.2))
  | .runtime => (.ok env.runtime, s)
  | .readCatalog => (.ok env.catalog, s)
  | .getProduct _ => (.ok env.detail, s)
  | .supplierCode => (.ok env.supplierCode, s)
  | .capabilities => (.ok env.capabilities, s)
  | .purchase _ => (env.purchase, (s.1, s.2 + 1))
  | .reconcile _ => (.error .exception, s)
  | .deliver _ => (.error .exception, s)

/-- What the catalog offers for a request. -/
structure Offer where
  product : CatalogProduct
  variant : CatalogVariant
  price : MinorMoney
  payload : CanonicalPurchasePayload

/-- The product is listed and approved at a price within the cap, and the
execution is safe; the stock is not looked at. -/
structure Surroundings.Lists (env : Surroundings) (customerReference : Str)
    (request : OrderRequest) (o : Offer) : Prop where
  safe : env.runtime.safe = true
  capabilities : env.capabilities.idempotentPurchase = .bool true ∧
    env.capabilities.reconciliation.isBool = true
  fresh : env.catalog.state = .fresh
  product : (env.catalog.items.find? fun p => p.id = request.productId) = some o.product
  variant : (o.product.variants.find? fun v => v.id = request.variantId) = some o.variant
  detail : env.detail = .found o.product
  price : MinorMoney.fromCatalog o.variant.price = .ok o.price
  currency : o.price.currency = request.maxUnitPrice.currency
  cap : o.price.amountMinor ≤ request.maxUnitPrice.amountMinor
  approved : o.variant.mapping.isApproved = true
  supplier : o.variant.mapping.supplierProduct.supplierId = env.supplierCode ∧
    o.variant.mapping.supplierVariant.supplierId = env.supplierCode
  payload : CanonicalPurchasePayload.make customerReference o.product.id o.variant.id
    request.quantity o.price request.maxUnitPrice env.supplierCode
    o.variant.mapping.supplierProduct.supplierProductId
    o.variant.mapping.supplierVariant.supplierVariantId (.int 1) = .ok o.payload

variable {env : Surroundings} {customerReference : Str} {request : OrderRequest} {o : Offer}

omit [Hashlib] in
theorem run_guarded {σ α : Type} {answer : σ → (op : ServiceOp) → Except Exc op.Res × σ}
    {p : Service α} {s s' : σ} {a : α} (h : p.run answer s = (.ok a, s')) (e : OrderError) :
    (guarded p e).run answer s = (.ok a, s') := by
  refine (Prog.run_bind_ok (a := .ok a) ?_).trans rfl
  rw [Prog.run_attempt, h]

theorem run_await (env : Surroundings) (op : ServiceOp) (s : Store × Nat) :
    (await op).run env.answer s = env.answer s op := Prog.run_perform ..

theorem run_assertSafeExecution (h : env.runtime.safe = true) (s : Store × Nat) :
    assertSafeExecution.run env.answer s = (.ok (), s) :=
  (Prog.run_bind_ok (run_guarded (run_await env .runtime s) _)).trans (Prog.run_ensure h s)

theorem run_requirePurchaseCapability (h : env.capabilities.idempotentPurchase = .bool true ∧
    env.capabilities.reconciliation.isBool = true) (s : Store × Nat) :
    requirePurchaseCapability.run env.answer s = (.ok (), s) :=
  (Prog.run_bind_ok (run_guarded (run_await env .capabilities s) _)).trans (Prog.run_ensure h s)

theorem run_authoritativeSelection (h : env.Lists customerReference request o) (s : Store × Nat) :
    (authoritativeSelection request).run env.answer s = (.ok (o.product, o.variant), s) := by
  unfold authoritativeSelection
  rw [Prog.run_bind_ok (run_guarded (run_await env .readCatalog s) _),
    Prog.run_bind_ok (Prog.run_ensure h.fresh s)]
  simp only [h.product, h.variant]
  rw [Prog.run_bind_ok (run_guarded (run_await env (.getProduct _) s) _), h.detail]
  simp only [h.variant]
  rw [Prog.run_bind_ok (Prog.run_ensure trivial s)]
  rfl

omit [UnicodeData] [Hashlib] in
theorem MinorMoney.unit_eq (m m' : MinorMoney) : m.unit = m'.unit :=
  m.fits.2.1.trans m'.fits.2.1.symm

/-- The candidate of an offer, or an error where the stock does not suffice. -/
theorem run_buildCandidate (h : env.Lists customerReference request o)
    (hcustomer : isSafeText customerReference 128 = true) (s : Store × Nat) :
    (buildCandidate customerReference request).run env.answer s =
      if request.quantity ≤ o.variant.availableQuantity then
        ((buildPreparedOrder customerReference request o.payload).mapError .order, s)
      else (.error (.order .quantityUnavailable), s) := by
  unfold buildCandidate
  rw [Prog.run_bind_ok (run_assertSafeExecution h.safe s),
    Prog.run_bind_ok (Prog.run_ensure hcustomer s),
    Prog.run_bind_ok (run_requirePurchaseCapability h.capabilities s),
    Prog.run_bind_ok (run_authoritativeSelection h s)]
  have hprice : (ofResult (MinorMoney.fromCatalog o.variant.price)).run env.answer s =
      (.ok o.price, s) := by
    rw [h.price]
    rfl
  rw [Prog.run_bind_ok hprice,
    Prog.run_bind_ok (Prog.run_ensure ⟨h.currency, o.price.unit_eq request.maxUnitPrice⟩ s),
    Prog.run_bind_ok (Prog.run_ensure h.cap s)]
  split
  · next hstock =>
    rw [Prog.run_bind_ok (Prog.run_ensure hstock s),
      Prog.run_bind_ok (Prog.run_ensure h.approved s),
      Prog.run_bind_ok (run_guarded (run_await env .supplierCode s) _),
      Prog.run_bind_ok (Prog.run_ensure h.supplier s)]
    simp only [h.payload]
    cases buildPreparedOrder customerReference request o.payload <;> rfl
  · next hstock => exact Prog.run_bind_error (Prog.run_ensure_not hstock s)

/-! ## Dispatching a prepared intent -/

theorem run_repo_ok (env : Surroundings) (op : RepoOp) {s s' : Store} {a : op.Res}
    (h : op.body s = .ok (a, s')) (n : Nat) :
    (awaitRepo op).run env.answer (s, n) = (.ok a, (s', n)) := by
  rw [run_await]
  show ((op.body.commit s).1, ((op.body.commit s).2, n)) = _
  rw [Tx.commit_of_ok h]

theorem run_repo_error (env : Surroundings) (op : RepoOp) {s : Store} {e : Exc}
    (h : op.body s = .error e) (n : Nat) :
    (awaitRepo op).run env.answer (s, n) = (.error e, (s, n)) := by
  rw [run_await]
  show ((op.body.commit s).1, ((op.body.commit s).2, n)) = _
  rw [Tx.commit_of_error h]

/-- Recording an outcome sends no purchase. -/
theorem recordOutcome_sends (env : Surroundings) (id : Str) (outcome : Except Exc PurchaseResult)
    (s : Store × Nat) : ((recordOutcome id outcome).run env.answer s).2.2 = s.2 := by
  have hrepo (op : RepoOp) : ((awaitRepo op).run env.answer s).2.2 = s.2 := by
    rw [run_await]; rfl
  match outcome with
  | .error .cancelled =>
    show (((awaitRepo (.recordUnknown id)) >>= _).run env.answer s).2.2 = s.2
    rw [Prog.run_bind, run_await]
    cases h : env.answer s (.repo (.recordUnknown id)) with
    | mk r s' =>
      have hs : s'.2 = s.2 := (congrArg (fun p => p.2.2) h).symm
      cases r <;> exact hs
  | .error .fatal => rfl
  | .error (.order _) | .error .database | .error .exception => exact hrepo _
  | .ok (.succeeded _) | .ok (.failedSafe _) | .ok .accepted | .ok .other => exact hrepo _

/-- A recordable outcome is recorded, and the stored intent is returned. -/
theorem run_recordOutcome (env : Surroundings) {s : Store} {id : Str} {a : OrderAggregate}
    {outcome : Except Exc PurchaseResult} (hload : Loads s.1 id a)
    (hst : a.intent.purchaseState = .dispatching) (hrec : Recordable outcome)
    (hne : outcome ≠ .error .cancelled) (n : Nat) :
    ∃ b s', (recordOutcome id outcome).run env.answer (s, n) = (.ok b, (s', n)) ∧
      Loads s'.1 id b := by
  have hunknown : ∃ b s', (awaitRepo (.recordUnknown id)).run env.answer (s, n) =
      (.ok b, (s', n)) ∧ Loads s'.1 id b :=
    ⟨_, _, run_repo_ok env (.recordUnknown id)
      (recordUnknown_ok.2 ⟨a, hload, .inr ⟨hst, rfl, rfl⟩⟩) n, hload.setPurchase _ _ _⟩
  match outcome with
  | .error .cancelled => exact absurd rfl hne
  | .error .fatal => exact hrec.elim
  | .error (.order _) | .error .database | .error .exception => exact hunknown
  | .ok .accepted | .ok .other => exact hunknown
  | .ok (.succeeded reference) =>
    obtain ⟨text, rfl, hsafe⟩ := hrec
    refine ⟨_, _, run_repo_ok env (.recordSuccess id (some text)) (recordSuccess_ok.2
      ⟨text, rfl, hsafe, (recordTerminal_ok (varcharOrNull_of_isSafeText hsafe)).2
        ⟨a, hload, .inr ⟨?_, .inl hst, rfl, rfl⟩⟩⟩) n, hload.setPurchase _ _ _⟩
    rw [hst]; decide
  | .ok (.failedSafe none) => cases hrec
  | .ok (.failedSafe (some code)) =>
    refine ⟨_, _, run_repo_ok env (.recordSafeFailure id (some code)) (recordSafeFailure_ok.2
      ⟨code, rfl, (recordTerminal_ok rfl).2 ⟨a, hload, .inr ⟨?_, .inl hst, rfl, rfl⟩⟩⟩) n,
      hload.setPurchase _ _ _⟩
    rw [hst]; decide

theorem Loads.purchase_prepared {t : Tables} {L : Ledger} {id : Str} {a : OrderAggregate}
    {ob : Obligation} (h : Loads t id a) (hR : Represents t L)
    (hst : a.intent.purchaseState = .prepared) (hob : L id = some ob) :
    ob.purchase = .prepared := by
  obtain ⟨o', ho', henc⟩ := hR.of_loads h
  obtain rfl : ob = o' := Option.some.inj (hob.symm.trans ho')
  have hs := (h.encodes henc).1.symm.trans hst
  cases hp : ob.purchase <;> rw [hp] at hs <;> first | rfl | cases hs

/-- **A prepared intent is claimed and its purchase sent**, once; what the
supplier answers is recorded and returned. -/
theorem run_dispatchOnce {s : Store} {L : Ledger} {id : Str} {a : OrderAggregate}
    (h : env.Lists customerReference request o) (hR : Represents s.1 L) (hload : Loads s.1 id a)
    (hst : a.intent.purchaseState = .prepared) (n : Nat) :
    ((dispatchOnce id).run env.answer (s, n)).2.2 ≤ n + 1 ∧
      (a.supplierAttempt.requestPayload.supplierCode = env.supplierCode →
        Recordable env.purchase → env.purchase ≠ .error .cancelled →
        ∃ b s', (dispatchOnce id).run env.answer (s, n) = (.ok b, (s', n + 1)) ∧
          Loads s'.1 id b) := by
  obtain ⟨ob, hob, -⟩ := hR.of_loads hload
  have hprepared := hload.purchase_prepared hR hst hob
  have hclaim : (RepoOp.claimPrepared id).body s =
      .ok (some (a.replacePurchase .dispatching none none), s.claim id) :=
    claimPrepared_ok.2 ⟨a, hload, .inr ⟨hst, rfl, rfl⟩⟩
  have hclaimed : Loads (s.claim id).1 id (a.replacePurchase .dispatching none none) := by
    rw [hR.claim_eq hob hprepared]
    exact hload.setPurchase _ _ _
  have hrun : (dispatchOnce id).run env.answer (s, n) = (do
      requireMatchingPersistedSupplier (a.replacePurchase .dispatching none none)
      assertSafeExecution
      let outcome ← (await (.purchase
        (supplierRequest (a.replacePurchase .dispatching none none)))).attempt
      recordOutcome id outcome).run env.answer (s.claim id, n) := by
    unfold dispatchOnce
    rw [Prog.run_bind_ok (run_assertSafeExecution h.safe _),
      Prog.run_bind_ok (run_requirePurchaseCapability h.capabilities _),
      Prog.run_bind_ok (run_repo_ok env (.claimPrepared id) hclaim n)]
  have hsupplier :=
    run_guarded (run_await env .supplierCode (s.claim id, n)) .supplierMappingMismatch
  have hsend (request : SupplierPurchaseRequest) (s : Store) :
      ((await (.purchase request)).attempt).run env.answer (s, n) =
        (.ok env.purchase, (s, n + 1)) := by
    rw [Prog.run_attempt, run_await]; rfl
  rw [hrun]
  by_cases hcode : a.supplierAttempt.requestPayload.supplierCode = env.supplierCode
  · have hcons := hload.invariants.consistent
    simp only [OrderAggregate.consistent, Bool.and_eq_true, decide_eq_true_eq] at hcons
    have hmatch : (requireMatchingPersistedSupplier
        (a.replacePurchase .dispatching none none)).run env.answer (s.claim id, n) =
          (.ok (), (s.claim id, n)) :=
      (Prog.run_bind_ok hsupplier).trans
        (Prog.run_ensure ⟨hcons.1.1.1.1.1.1.2.trans hcode, hcode⟩ _)
    rw [Prog.run_bind_ok hmatch, Prog.run_bind_ok (run_assertSafeExecution h.safe _),
      Prog.run_bind_ok (hsend _ _)]
    exact ⟨(recordOutcome_sends env id _ _).le, fun _ hrec hne =>
      run_recordOutcome env hclaimed rfl hrec hne (n + 1)⟩
  · have hmatch : (requireMatchingPersistedSupplier
        (a.replacePurchase .dispatching none none)).run env.answer (s.claim id, n) =
          (.error (.order .supplierMappingMismatch), (s.claim id, n)) :=
      (Prog.run_bind_ok hsupplier).trans (Prog.run_ensure_not (fun h => hcode h.2) _)
    rw [Prog.run_bind_error hmatch]
    exact ⟨Nat.le_succ n, fun h => absurd h hcode⟩

/-! ## Placing the order again -/

/-- What `place_order` does again, where the intent was prepared as `c` and is
stored as `a`: by the stock and by the payload of the offer. -/
structure Replayed (env : Surroundings) (customerReference : Str) (request : OrderRequest)
    (o : Offer) (c a : OrderAggregate) (s : Store) : Prop where
  current : request.quantity ≤ o.variant.availableQuantity →
    o.payload = c.supplierAttempt.requestPayload → a.intent.purchaseState ≠ .prepared →
    (placeOrder customerReference request).run env.answer (s, 0) = (.ok (.fromAggregate a), (s, 0))
  dispatched : request.quantity ≤ o.variant.availableQuantity →
    o.payload = c.supplierAttempt.requestPayload → a.intent.purchaseState = .prepared →
    Recordable env.purchase → env.purchase ≠ .error .cancelled →
    ∃ b s', (placeOrder customerReference request).run env.answer (s, 0) =
      (.ok (.fromAggregate b), (s', 1)) ∧ Loads s'.1 c.intent.id b
  changed : request.quantity ≤ o.variant.availableQuantity →
    o.payload.canonicalJson ≠ c.supplierAttempt.requestPayload.canonicalJson →
    (placeOrder customerReference request).run env.answer (s, 0) =
      (.error (.order .idempotencyConflict), (s, 0))
  short : o.variant.availableQuantity < request.quantity →
    (placeOrder customerReference request).run env.answer (s, 0) =
      (.error (.order .quantityUnavailable), (s, 0))

omit [Hashlib] in
/-- The payload of an offer is one of the request. -/
theorem Surroundings.Lists.payload_of (h : env.Lists customerReference request o) :
    o.payload.Of customerReference request ∧ o.payload.unitPrice = o.price ∧
      o.payload.supplierCode = env.supplierCode := by
  have hproduct : o.product.id = request.productId := by simpa using List.find?_some h.product
  have hvariant : o.variant.id = request.variantId := by simpa using List.find?_some h.variant
  have hp := h.payload
  unfold CanonicalPurchasePayload.make at hp
  split at hp
  · rw [← Except.ok.inj hp]
    exact ⟨⟨rfl, hproduct, hvariant, rfl, rfl⟩, rfl, rfl⟩
  · cases hp

/-- Where the payload is the stored one, `place_order` goes on with the stored intent. -/
theorem run_placeOrder_same {s : Store} {a c : OrderAggregate}
    (hbuild : (buildCandidate customerReference request).run env.answer (s, 0) = (.ok c, (s, 0)))
    (hsafe : env.runtime.safe = true) (hprepare : prepare c s = .ok (⟨a, false⟩, s)) :
    (placeOrder customerReference request).run env.answer (s, 0) =
      (if a.intent.purchaseState = .prepared then do
        let aggregate ← dispatchOnce a.intent.id
        return OrderSnapshot.fromAggregate aggregate
      else return .fromAggregate a : Service OrderSnapshot).run env.answer (s, 0) := by
  unfold placeOrder
  rw [Prog.run_bind_ok hbuild, Prog.run_bind_ok (run_assertSafeExecution hsafe _),
    Prog.run_bind_ok (run_repo_ok env (.prepare c) hprepare 0)]

/-- **Placing an order again**, after any run that prepared it: the offer decides
what is returned, and no purchase is sent a second time. -/
theorem place_order_again {tr : OrdersTrace} {cfg : Cfg ordersSystem} {u t : Trans ordersSystem}
    {q : Nat} {c : OrderAggregate} {r : PrepareResult}
    (h : Run ordersSystem Store.empty tr cfg) (hu : u ∈ tr)
    (hstart : u.event = .start q (.placeOrder customerReference request)) (ht : t ∈ tr)
    (hprepare : t.event = .act q (.repo (.prepare c)) (.ok r)) (hcreated : r.created = true)
    (hlists : env.Lists customerReference request o) :
    ∃ a, Loads cfg.store.1 c.intent.id a ∧
      Replayed env customerReference request o c a cfg.store ∧
      purchaseCount c.intent.id tr +
        ((placeOrder customerReference request).run env.answer (cfg.store, 0)).2.2 ≤ 1 := by
  obtain ⟨⟨p₀, hb, -⟩, a, hload, hpay, hkey⟩ := created_stored h hu hstart ht hprepare hcreated
  obtain ⟨L, hI⟩ := run_inv h
  obtain ⟨hof, hprice, hcode⟩ := hlists.payload_of
  have hid := hload.id_eq
  have hcustomer : isSafeText customerReference 128 = true := by
    have hp := o.payload.valid
    simp only [Bool.and_eq_true, isIdentity] at hp
    simp only [isSafeText, Bool.and_eq_true]
    exact hof.customer ▸ hp.1.1.1.1.1.1.1.1
  have hreq := request.valid
  simp only [Bool.and_eq_true] at hreq
  have hck : c.intent.idempotencyKey = request.idempotencyKey := buildPreparedOrder_key hb
  obtain ⟨hagain, hinv⟩ := buildPreparedOrder_again hb o.payload
  obtain ⟨row, hrow, hcheck⟩ := offered_row hb hof (hprice ▸ hlists.cap)
  -- what the prepare of the second call does
  have hreplay := prepare_replay (a := a) (hid.symm ▸ hload) (hinv hof) hrow hcheck hkey.symm
    (show isIdentity c.intent.idempotencyKey 128 = true from hck ▸ hreq.1.2)
  have hbuild (hstock : request.quantity ≤ o.variant.availableQuantity) :
      (buildCandidate customerReference request).run env.answer (cfg.store, 0) =
        (.ok (c.offered o.payload), (cfg.store, 0)) := by
    rw [run_buildCandidate hlists hcustomer, if_pos hstock, hagain]
    rfl
  have hshort (hstock : ¬ request.quantity ≤ o.variant.availableQuantity) :
      (placeOrder customerReference request).run env.answer (cfg.store, 0) =
        (.error (.order .quantityUnavailable), (cfg.store, 0)) := by
    refine Prog.run_bind_error ?_
    rw [run_buildCandidate hlists hcustomer, if_neg hstock]
  have hchanged (hstock : request.quantity ≤ o.variant.availableQuantity)
      (hne : o.payload.canonicalJson ≠ a.supplierAttempt.requestPayload.canonicalJson) :
      (placeOrder customerReference request).run env.answer (cfg.store, 0) =
        (.error (.order .idempotencyConflict), (cfg.store, 0)) := by
    rw [if_neg (fun e => hne e.symm)] at hreplay
    unfold placeOrder
    rw [Prog.run_bind_ok (hbuild hstock), Prog.run_bind_ok (run_assertSafeExecution hlists.safe _)]
    exact Prog.run_bind_error (run_repo_error env (.prepare _) hreplay 0)
  have hsame (hstock : request.quantity ≤ o.variant.availableQuantity)
      (he : a.supplierAttempt.requestPayload.canonicalJson = o.payload.canonicalJson) :=
    run_placeOrder_same (hbuild hstock) hlists.safe (hreplay.trans (if_pos he))
  refine ⟨a, hload, ⟨fun hstock e hst => ?_, fun hstock e hst hrec hne => ?_,
    fun hstock hne => hchanged hstock (hpay ▸ hne), fun hstock => hshort (not_le.2 hstock)⟩, ?_⟩
  · rw [hsame hstock (by rw [hpay, e]), if_neg hst]
    rfl
  · have hdispatch := (run_dispatchOnce hlists hI.represents hload hst 0).2
      (by rw [hpay, ← e, hcode]) hrec hne
    obtain ⟨b, s', hrun, hb'⟩ := hdispatch
    rw [hsame hstock (by rw [hpay, e]), if_pos hst, hid, Prog.run_bind_ok hrun]
    exact ⟨b, s', rfl, hb'⟩
  · have honce := hI.once c.intent.id
    by_cases hstock : request.quantity ≤ o.variant.availableQuantity
    · by_cases he : a.supplierAttempt.requestPayload.canonicalJson = o.payload.canonicalJson
      · rw [hsame hstock he]
        by_cases hst : a.intent.purchaseState = .prepared
        · obtain ⟨h0, -⟩ := hI.unclaimed c.intent.id fun ob hob =>
            hload.purchase_prepared hI.represents hst hob
          rw [if_pos hst, Prog.run_bind_pure_snd, h0, hid]
          simpa using (run_dispatchOnce hlists hI.represents hload hst 0).1
        · rw [if_neg hst]
          exact honce
      · rw [hchanged hstock (Ne.symm he)]
        exact honce
    · rw [hshort hstock]
      exact honce

end

/-! ## Samples -/

section

attribute [local instance] sampleUnicode sampleHashlib

/-- The process that prepared an intent, and whether it created it. -/
def prepare? (t : Trans ordersSystem) : Option (Nat × Bool) :=
  match t.event with
  | .act pid (.repo (.prepare _)) (.ok r) => some (pid, r.created)
  | _ => none

deriving instance DecidableEq for OrderRequest

/-- The process that began to place an order. -/
def placed? (t : Trans ordersSystem) : Option (Nat × Str × OrderRequest) :=
  match t.event with
  | .start pid (.placeOrder customerReference request) => some (pid, customerReference, request)
  | _ => none

theorem exists_placed {tr : OrdersTrace} {n pid : Nat} {customerReference : Str}
    {request : OrderRequest} (h : tr[n]?.bind placed? = some (pid, customerReference, request)) :
    ∃ u ∈ tr, u.event = .start pid (.placeOrder customerReference request) := by
  obtain ⟨u, hu, hp⟩ := Option.bind_eq_some_iff.1 h
  refine ⟨u, List.mem_of_getElem? hu, ?_⟩
  unfold placed? at hp
  split at hp
  · next he =>
    cases hp
    exact he
  · cases hp

theorem exists_prepare {tr : OrdersTrace} {n pid : Nat} {b : Bool}
    (h : tr[n]?.bind prepare? = some (pid, b)) :
    ∃ t ∈ tr, ∃ c r, t.event = .act pid (.repo (.prepare c)) (.ok r) ∧ r.created = b := by
  obtain ⟨t, ht, hp⟩ := Option.bind_eq_some_iff.1 h
  refine ⟨t, List.mem_of_getElem? ht, ?_⟩
  unfold prepare? at hp
  split at hp
  · next he =>
    cases hp
    exact ⟨_, _, he, rfl⟩
  · cases hp

theorem sampleOrder_placed :
    sampleOrder.1[0]?.bind placed? = some (0, str "cust-1", sampleRequest) := by decide +kernel

theorem sampleOrder_prepared : sampleOrder.1[7]?.bind prepare? = some (0, true) := by
  decide +kernel

/-- The sample variant at a price. -/
def sampleVariantAt (amountMinor : Int) : CatalogVariant :=
  { sampleVariant with price := ⟨amountMinor, str "VND", str "minor"⟩ }

def sampleProductAt (amountMinor : Int) : CatalogProduct :=
  { sampleProduct with variants := [sampleVariantAt amountMinor] }

/-- Everything answers, with the sample product at a price. -/
def sampleSurroundings (amountMinor : Int) : Surroundings where
  runtime := ⟨.str (str "mock"), .str (str "disabled"), .bool false⟩
  catalog := ⟨.fresh, [sampleProductAt amountMinor]⟩
  detail := .found (sampleProductAt amountMinor)
  supplierCode := str "mock"
  capabilities := ⟨.bool true, .bool true⟩
  purchase := .ok (.succeeded (some (str "ref-2")))

/-- The offer of the sample product at a price. -/
def sampleOffer (price : MinorMoney) : Offer where
  product := sampleProductAt price.amountMinor
  variant := sampleVariantAt price.amountMinor
  price := price
  payload := { samplePayloadOf samplePrice with unitPrice := price }

/-- A lower price. -/
def sampleLowerPrice : MinorMoney := ⟨900, str "VND", str "minor", by decide⟩

theorem sample_lists (price : MinorMoney) (hcurrency : price.currency = str "VND")
    (hcap : price.amountMinor ≤ 1000) :
    (sampleSurroundings price.amountMinor).Lists (str "cust-1") sampleRequest
      (sampleOffer price) where
  safe := rfl
  capabilities := ⟨rfl, rfl⟩
  fresh := rfl
  product := rfl
  variant := rfl
  detail := rfl
  price := MinorMoney.make_ok.2 ⟨rfl, hcurrency, price.fits.2.1⟩
  currency := hcurrency
  cap := hcap
  approved := rfl
  supplier := ⟨rfl, rfl⟩
  payload := (sampleOffer price).payload.make_self

/-- After a price change within the cap the same request conflicts with itself. -/
theorem replay_refused : ¬ ∀ (tr : OrdersTrace) (cfg : Cfg ordersSystem)
    (u t : Trans ordersSystem) (q : Nat) (c : OrderAggregate) (r : PrepareResult)
    (customerReference : Str) (request : OrderRequest) (env : Surroundings) (o : Offer),
    Run ordersSystem Store.empty tr cfg → u ∈ tr →
      u.event = .start q (.placeOrder customerReference request) → t ∈ tr →
      t.event = .act q (.repo (.prepare c)) (.ok r) → r.created = true →
      env.Lists customerReference request o →
      ∃ snapshot, ((placeOrder customerReference request).run env.answer (cfg.store, 0)).1 =
        .ok snapshot := by
  intro hall
  obtain ⟨u, hu, hstart⟩ := exists_placed sampleOrder_placed
  obtain ⟨t, ht, c, r, hevent, hcreated⟩ := exists_prepare sampleOrder_prepared
  have hrefused : ((placeOrder (str "cust-1") sampleRequest).run (sampleSurroundings 900).answer
      (sampleOrder.2.store, 0)).1 = .error (.order .idempotencyConflict) := by decide +kernel
  obtain ⟨snapshot, hs⟩ := hall sampleOrder.1 sampleOrder.2 u t 0 c r _ _ _
    (sampleOffer sampleLowerPrice) (sampleRun_run _ _ _) hu hstart ht hevent hcreated
    (sample_lists sampleLowerPrice rfl (by decide))
  rw [show sampleLowerPrice.amountMinor = 900 from rfl, hrefused] at hs
  cases hs

theorem place_order_again_sample :
    ((placeOrder (str "cust-1") sampleRequest).run (sampleSurroundings
      sampleLowerPrice.amountMinor).answer (sampleOrder.2.store, 0)).2.2 ≤ 1 := by
  obtain ⟨u, hu, hstart⟩ := exists_placed sampleOrder_placed
  obtain ⟨t, ht, c, r, hevent, hcreated⟩ := exists_prepare sampleOrder_prepared
  have hrun : Run ordersSystem Store.empty sampleOrder.1 sampleOrder.2 := sampleRun_run _ _ _
  have hlists := sample_lists sampleLowerPrice rfl (by decide)
  obtain ⟨a, -, -, honce⟩ := place_order_again hrun hu hstart ht hevent hcreated hlists
  exact (Nat.le_add_left _ _).trans honce

end

end NyanShopBot.Orders
