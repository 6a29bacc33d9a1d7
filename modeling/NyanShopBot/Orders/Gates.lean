import NyanShopBot.Orders.Replay

/-!
# The gates of an order

What `place_order` has read and checked when it prepares. `gateProtocol` follows its reads;
a prepare is in order where they let the payload through (`Gated`). Before it a placing call
only reads (`ServiceOp.IsCheck`). `order_gates` puts this beside the prepare that first stored
a request, which is the one that is sent.
-/

namespace NyanShopBot.Orders

open Py Db Conc

section

variable [UnicodeData]

/-! ## What the gates let through -/

/-- A variant of a product that is in the fresh list and is the one of the detail. -/
structure Selected (request : OrderRequest) (response : CatalogResponse) (detail : CatalogDetail)
    (item : CatalogProduct) (chosen : CatalogVariant) : Prop where
  fresh : response.state = .fresh
  listed : item ∈ response.items
  detail : detail = .found item
  productId : item.id = request.productId
  variant : chosen ∈ item.variants
  variantId : chosen.id = request.variantId

/-- The payload of the request at the variant, and the checks of both. -/
structure Passed (customer : Str) (request : OrderRequest) (item : CatalogProduct)
    (chosen : CatalogVariant) (code : Str) (payload : CanonicalPurchasePayload) : Prop where
  customerReference : payload.customerReference = customer
  productId : payload.productId = item.id
  variantId : payload.variantId = chosen.id
  quantity : payload.quantity = request.quantity
  unitPrice : payload.unitPrice.amountMinor = chosen.price.amountMinor ∧
    payload.unitPrice.currency = chosen.price.currency ∧
    payload.unitPrice.unit = chosen.price.unit
  maxUnitPrice : payload.maxUnitPrice = request.maxUnitPrice
  supplierCode : payload.supplierCode = code
  supplierProductId : payload.supplierProductId = chosen.mapping.supplierProduct.supplierProductId
  supplierVariantId : payload.supplierVariantId = chosen.mapping.supplierVariant.supplierVariantId
  money : payload.unitPrice.currency = request.maxUnitPrice.currency ∧
    payload.unitPrice.unit = request.maxUnitPrice.unit
  cap : payload.unitPrice.amountMinor ≤ request.maxUnitPrice.amountMinor
  positive : 1 ≤ request.quantity
  available : request.quantity ≤ chosen.availableQuantity
  approved : chosen.mapping.isApproved = true
  supplierIds : chosen.mapping.supplierProduct.supplierId = code ∧
    chosen.mapping.supplierVariant.supplierId = code

/-- What a placing call has read last. -/
structure Reads where
  response : Option CatalogResponse
  detail : Option CatalogDetail
  supplierCode : Option Str
  prepared : Bool

def Reads.none : Reads := ⟨Option.none, Option.none, Option.none, false⟩

def Reads.next (g : Reads) : (op : ServiceOp) → Except Exc op.Res → Reads
  | .readCatalog, .ok response => { g with response := some response }
  | .getProduct _, .ok detail => { g with detail := some detail }
  | .supplierCode, .ok code => { g with supplierCode := some code }
  | .repo (.prepare _), _ => { g with prepared := true }
  | _, _ => g

/-- The reads let the payload through. -/
def Gated (customerReference : Str) (request : OrderRequest) (g : Reads)
    (payload : CanonicalPurchasePayload) : Prop :=
  ∃ response detail code item chosen,
    g.response = some response ∧ g.detail = some detail ∧ g.supplierCode = some code ∧
    Selected request response detail item chosen ∧
    Passed customerReference request item chosen code payload

theorem make_payload {customer productId variantId code supplierProductId supplierVariantId : Str}
    {quantity : Int} {unitPrice cap : MinorMoney} {version : Json} {p : CanonicalPurchasePayload}
    (h : CanonicalPurchasePayload.make customer productId variantId quantity unitPrice cap code
      supplierProductId supplierVariantId version = .ok p) :
    p.customerReference = customer ∧ p.productId = productId ∧ p.variantId = variantId ∧
      p.quantity = quantity ∧ p.unitPrice = unitPrice ∧ p.maxUnitPrice = cap ∧
      p.supplierCode = code ∧ p.supplierProductId = supplierProductId ∧
      p.supplierVariantId = supplierVariantId := by
  unfold CanonicalPurchasePayload.make at h
  split at h
  · cases h
    exact ⟨rfl, rfl, rfl, rfl, rfl, rfl, rfl, rfl, rfl⟩
  · cases h

variable [Hashlib]

/-- A candidate with a payload that the reads let through. -/
def Candidate (customerReference : Str) (request : OrderRequest) (g : Reads)
    (c : OrderAggregate) : Prop :=
  g.prepared = false ∧ ∃ payload, buildPreparedOrder customerReference request payload = .ok c ∧
    Gated customerReference request g payload

/-- A placing call reads, prepares a candidate, and only then does more. -/
def ServiceCall.InOrder (call : ServiceCall) (g : Reads) (op : ServiceOp) : Prop :=
  match call with
  | .placeOrder customerReference request =>
    op.IsCheck ∨ (∃ c, op = .repo (.prepare c) ∧ Candidate customerReference request g c) ∨
      g.prepared = true ∧ op.IsDispatch
  | _ => True

abbrev gateProtocol : Protocol serviceSig Exc where
  G := ServiceCall × Reads
  ok g op := g.1.InOrder g.2 op
  next g op r := (g.1, g.2.next op r)

/-! ## The reads of a placing call -/

section

variable {customerReference : Str} {request : OrderRequest} {g : Reads}

/-- A read whose exception is handed on. -/
theorem wp_guarded {α : Type} {Q : ServiceCall × Reads → Except Exc α → Prop} {op : ServiceOp}
    {e : OrderError} {f : op.Res → Service α} (hop : op.IsCheck)
    (hf : ∀ a, wp gateProtocol Q
      (.placeOrder customerReference request, g.next op (.ok a)) (f a))
    (he : ∀ g x, Q g (.error x)) :
    wp gateProtocol Q (.placeOrder customerReference request, g) (guarded (await op) e >>= f) := by
  refine wp_bind.2 (wp_bind.2 (wp_attempt.2 (wp_perform.2 ⟨.inl hop, fun r => ?_⟩)))
  cases r with
  | ok a => exact hf a
  | error x => exact he _ _

theorem wp_require {α : Type} {Q : ServiceCall × Reads → Except Exc α → Prop}
    {s : ServiceCall × Reads} {c : Prop} [Decidable c] {e : OrderError} {f : Unit → Service α}
    (hf : c → wp gateProtocol Q s (f ())) (he : ∀ g x, Q g (.error x)) :
    wp gateProtocol Q s (require c e >>= f) :=
  wp_bind.2 (wp_ensure.2 ⟨hf, fun _ => he _ _⟩)

/-- The reads that no gate remembers. -/
def ServiceOp.Forgotten (op : ServiceOp) : Prop := op = .runtime ∨ op = .capabilities

theorem wp_forgotten {α β : Type} {Q : ServiceCall × Reads → Except Exc β → Prop} {p : Service α}
    {f : α → Service β} (hp : Awaits ServiceOp.Forgotten p)
    (hf : ∀ a, wp gateProtocol Q (.placeOrder customerReference request, g) (f a))
    (he : ∀ s x, Q s (.error x)) :
    wp gateProtocol Q (.placeOrder customerReference request, g) (p >>= f) := by
  refine wp_bind.2 (wp_frame (fun op hop => ?_) (fun r _ => ?_) hp)
  · rcases hop with rfl | rfl
    · exact ⟨.inl trivial, fun r => by cases r <;> rfl⟩
    · exact ⟨.inl trivial, fun r => by cases r <;> rfl⟩
  · cases r with
    | ok a => exact hf a
    | error x => exact he _ x

/-- What the part of the call before the prepare ends in. -/
def Built (customerReference : Str) (request : OrderRequest) (s : ServiceCall × Reads)
    (r : Except Exc OrderAggregate) : Prop :=
  ∀ c, r = .ok c → s.1 = .placeOrder customerReference request ∧
    Candidate customerReference request s.2 c

theorem Built.error {s : ServiceCall × Reads} (x : Exc) :
    Built customerReference request s (.error x) := by
  rintro c ⟨⟩

/-- Where the selection ends, it has read the list and the detail. -/
def Read (customerReference : Str) (request : OrderRequest) (s : ServiceCall × Reads)
    (r : Except Exc (CatalogProduct × CatalogVariant)) : Prop :=
  ∀ item chosen, r = .ok (item, chosen) →
    s.1 = .placeOrder customerReference request ∧ s.2.prepared = false ∧
    ∃ response detail, s.2.response = some response ∧ s.2.detail = some detail ∧
      Selected request response detail item chosen

theorem authoritativeSelection_reads (hg : g.prepared = false) :
    wp gateProtocol (Read customerReference request) (.placeOrder customerReference request, g)
      (authoritativeSelection request) := by
  have he (s : ServiceCall × Reads) (x : Exc) : Read customerReference request s (.error x) := by
    rintro _ _ ⟨⟩
  unfold authoritativeSelection
  refine wp_guarded trivial (fun response => ?_) fun _ => he _
  refine wp_require (fun hfresh => ?_) fun _ => he _
  split
  · exact he _ _
  · next item hitem =>
    split
    · exact he _ _
    · refine wp_guarded trivial (fun detail => ?_) fun _ => he _
      split
      · next item' =>
        refine wp_require (fun hsame => ?_) fun _ => he _
        subst hsame
        split
        · exact he _ _
        · next chosen hchosen =>
          rintro _ _ ⟨⟩
          have hid := List.find?_some hitem
          have hvid := List.find?_some hchosen
          refine ⟨rfl, hg, response, _, rfl, rfl, hfresh, List.mem_of_find?_eq_some hitem, rfl,
            ?_, List.mem_of_find?_eq_some hchosen, ?_⟩
          · simpa using hid
          · simpa using hvid
      · exact he _ _

/-- **The gates**: what they read lets the payload of the candidate through. -/
theorem buildCandidate_gated (hg : g.prepared = false) :
    wp gateProtocol (Built customerReference request) (.placeOrder customerReference request, g)
      (buildCandidate customerReference request) := by
  have he (s : ServiceCall × Reads) (x : Exc) : Built customerReference request s (.error x) :=
    .error x
  unfold buildCandidate
  refine wp_forgotten (awaits_assertSafeExecution (.inl rfl)) (fun _ => ?_) he
  refine wp_require (fun _ => ?_) fun _ => he _
  refine wp_forgotten (awaits_requirePurchaseCapability (.inr rfl)) (fun _ => ?_) he
  refine wp_bind.2 (wp_mono (fun s r hread => ?_) (authoritativeSelection_reads hg))
  cases r with
  | error x => exact he s x
  | ok selection =>
    obtain ⟨item, chosen⟩ := selection
    obtain ⟨hcall, hs, response, detail, hresponse, hdetail, hselected⟩ := hread item chosen rfl
    obtain ⟨call, g'⟩ := s
    obtain rfl : call = _ := hcall
    refine wp_bind.2 (wp_ofExcept.2 ?_)
    cases hprice : MinorMoney.fromCatalog chosen.price with
    | error e => exact he _ _
    | ok serverPrice =>
      have hunit : serverPrice.amountMinor = chosen.price.amountMinor ∧
          serverPrice.currency = chosen.price.currency ∧
          serverPrice.unit = chosen.price.unit := MinorMoney.make_ok.1 hprice
      show wp gateProtocol (Built customerReference request) _ _
      refine wp_require (fun hmoney => ?_) fun _ => he _
      refine wp_require (fun hcap => ?_) fun _ => he _
      refine wp_require (fun hquantity => ?_) fun _ => he _
      refine wp_require (fun happroved => ?_) fun _ => he _
      refine wp_guarded trivial (fun code => ?_) fun _ => he _
      refine wp_require (fun hcode => ?_) fun _ => he _
      split
      · exact he _ _
      · next payload hpayload =>
        refine wp_ofExcept.2 ?_
        cases hc : buildPreparedOrder customerReference request payload with
        | error e => exact he _ _
        | ok c =>
          rintro _ ⟨⟩
          obtain ⟨h1, h2, h3, h4, h5, h6, h7, h8, h9⟩ := make_payload hpayload
          have hone : 1 ≤ request.quantity := by
            have hvalid := payload.valid
            simp only [isInteger, Bool.and_eq_true, decide_eq_true_eq] at hvalid
            obtain ⟨⟨⟨⟨⟨-, hlow, -⟩, -⟩, -⟩, -⟩, -⟩ := hvalid
            rwa [h4] at hlow
          refine ⟨rfl, hs, payload, hc, response, detail, code, item, chosen, hresponse, hdetail,
            rfl, hselected, h1, h2, h3, h4, ?_, h6, h7, h8, h9, ?_, ?_, hone, hquantity,
            happroved, hcode⟩
          · rw [h5]
            exact hunit
          · rw [h5]
            exact hmoney
          · rw [h5]
            exact hcap

theorem placeOrder_gated (customerReference : Str) (request : OrderRequest) :
    wp gateProtocol (fun _ _ => True) (.placeOrder customerReference request, .none)
      (placeOrder customerReference request) := by
  unfold placeOrder
  refine wp_bind.2 (wp_mono (fun s r hbuilt => ?_) (buildCandidate_gated rfl))
  cases r with
  | error x => trivial
  | ok c =>
    obtain ⟨hcall, hc⟩ := hbuilt c rfl
    obtain ⟨call, g⟩ := s
    obtain rfl : call = _ := hcall
    refine wp_forgotten (awaits_assertSafeExecution (.inl rfl)) (fun _ => ?_) fun _ _ => trivial
    refine wp_bind.2 (wp_perform.2 ⟨.inr (.inl ⟨c, rfl, hc⟩), fun r => ?_⟩)
    cases r with
    | error x => trivial
    | ok prepared =>
      refine wp_ite.2 ⟨fun _ => ?_, fun _ => trivial⟩
      -- from here on the call has prepared, and no step takes that back
      have hrest := @wp_keeps _ _ _ gateProtocol _ _
        (fun s => s.1 = .placeOrder customerReference request ∧ s.2.prepared = true)
        (fun s op hs hop => ?_) (fun s op r hs _ => ?_) _
        (.placeOrder customerReference request, { g with prepared := true })
        (dispatchOnce_awaits (C := ServiceOp.IsDispatch) (fun _ h => h)
          prepared.aggregate.intent.id) ⟨rfl, rfl⟩
      · refine wp_bind.2 (wp_mono (fun s r _ => ?_) hrest)
        cases r <;> trivial
      · obtain ⟨hcall, hprepared⟩ := hs
        show s.1.InOrder s.2 op
        rw [hcall]
        exact .inr (.inr ⟨hprepared, hop⟩)
      · refine ⟨hs.1, ?_⟩
        obtain ⟨call, g⟩ := s
        show (g.next op r).prepared = true
        unfold Reads.next
        split <;> first | exact hs.2 | rfl

theorem body_gated (call : ServiceCall) :
    wp gateProtocol (fun _ _ => True) (call, .none) call.body := by
  have hother (hc : ∀ customerReference request,
      call ≠ .placeOrder customerReference request) :
      wp gateProtocol (fun _ _ => True) (call, .none) call.body := by
    refine wp_always (K := fun s : ServiceCall × Reads => s.1 = call) (fun s op hs => ?_)
      (fun _ _ _ hs => hs) rfl
    show s.1.InOrder s.2 op
    rw [hs]
    cases call with
    | placeOrder customerReference request => exact absurd rfl (hc customerReference request)
    | _ => trivial
  cases call with
  | placeOrder customerReference request => exact placeOrder_gated customerReference request
  | _ => exact hother (by rintro _ _ ⟨⟩)

end

/-! ## Runs -/

/-- The reads of the process let the payload through. -/
def GatedBy (l : OrdersTrace) (pid : Nat) (customerReference : Str) (request : OrderRequest)
    (payload : CanonicalPurchasePayload) : Prop :=
  ∃ response productId detail code item chosen,
    (∃ t ∈ l, t.event = .act pid .readCatalog (.ok response)) ∧
    (∃ t ∈ l, t.event = .act pid (.getProduct productId) (.ok detail)) ∧
    (∃ t ∈ l, t.event = .act pid .supplierCode (.ok code)) ∧
    Selected request response detail item chosen ∧
    Passed customerReference request item chosen code payload

/-- What has been read stands in the trace. -/
structure Traced (pid : Nat) (tr : OrdersTrace) (g : Reads) : Prop where
  response : ∀ response, g.response = some response →
    ∃ t ∈ tr, t.event = .act pid .readCatalog (.ok response)
  detail : ∀ detail, g.detail = some detail →
    ∃ productId, ∃ t ∈ tr, t.event = .act pid (.getProduct productId) (.ok detail)
  supplierCode : ∀ code, g.supplierCode = some code →
    ∃ t ∈ tr, t.event = .act pid .supplierCode (.ok code)
  prepared : g.prepared = true → ∃ t ∈ tr, ∃ c r, t.event = .act pid (.repo (.prepare c)) r

abbrev readsOf (pid : Nat) (tr : OrdersTrace) : Option (ServiceCall × Reads) :=
  ghost gateProtocol (fun call => (call, Reads.none)) pid tr

theorem Traced.mono {pid : Nat} {tr : OrdersTrace} {t : Trans ordersSystem} {g : Reads}
    (h : Traced pid tr g) : Traced pid (tr ++ [t]) g := by
  have hmem {u : Trans ordersSystem} (hu : u ∈ tr) : u ∈ tr ++ [t] := List.mem_append_left _ hu
  refine ⟨fun _ hr => ?_, fun _ hr => ?_, fun _ hr => ?_, fun hp => ?_⟩
  · obtain ⟨u, hu, he⟩ := h.response _ hr
    exact ⟨u, hmem hu, he⟩
  · obtain ⟨productId, u, hu, he⟩ := h.detail _ hr
    exact ⟨productId, u, hmem hu, he⟩
  · obtain ⟨u, hu, he⟩ := h.supplierCode _ hr
    exact ⟨u, hmem hu, he⟩
  · obtain ⟨u, hu, he⟩ := h.prepared hp
    exact ⟨u, hmem hu, he⟩

theorem Traced.next {pid : Nat} {tr : OrdersTrace} {g : Reads} {op : ServiceOp}
    {r : Except Exc op.Res} {s s' : Store} (h : Traced pid tr g) :
    Traced pid (tr ++ [⟨s, .act pid op r, s'⟩]) (g.next op r) := by
  have hm := h.mono (t := ⟨s, .act pid op r, s'⟩)
  have hlast : (⟨s, .act pid op r, s'⟩ : Trans ordersSystem) ∈
      tr ++ [⟨s, .act pid op r, s'⟩] := List.mem_append_right _ List.mem_cons_self
  unfold Reads.next
  split
  · refine ⟨?_, hm.detail, hm.supplierCode, hm.prepared⟩
    rintro _ ⟨⟩
    exact ⟨_, hlast, rfl⟩
  · refine ⟨hm.response, ?_, hm.supplierCode, hm.prepared⟩
    rintro _ ⟨⟩
    exact ⟨_, _, hlast, rfl⟩
  · refine ⟨hm.response, hm.detail, ?_, hm.prepared⟩
    rintro _ ⟨⟩
    exact ⟨_, hlast, rfl⟩
  · exact ⟨hm.response, hm.detail, hm.supplierCode, fun _ => ⟨_, hlast, _, _, rfl⟩⟩
  · exact hm

/-- **The ghost state is what the trace says.** -/
theorem readsOf_traced {s₀ : Store} {pid : Nat} {tr : OrdersTrace} {cfg : Cfg ordersSystem}
    (h : Run ordersSystem s₀ tr cfg) {s : ServiceCall × Reads} (hs : readsOf pid tr = some s) :
    Traced pid tr s.2 :=
  h.history (K := fun tr _ (s : ServiceCall × Reads) => Traced pid tr s.2) body_gated
    (fun _ _ _ => ⟨by rintro _ ⟨⟩, by rintro _ ⟨⟩, by rintro _ ⟨⟩, by rintro ⟨⟩⟩)
    (fun ht => ht.mono) (fun ht _ => ht.mono) (fun ht _ _ => ht.next) hs

/-- The process was placing a request, and its gates let the payload through. -/
def PassedGates (l : OrdersTrace) (pid : Nat) (payload : CanonicalPurchasePayload) : Prop :=
  ∃ customerReference request,
    (∃ u ∈ l, u.event = .start pid (.placeOrder customerReference request)) ∧
    GatedBy l pid customerReference request payload

theorem Traced.gatedBy {pid : Nat} {tr : OrdersTrace} {g : Reads} {customerReference : Str}
    {request : OrderRequest} {payload : CanonicalPurchasePayload} (h : Traced pid tr g)
    (hg : Gated customerReference request g payload) :
    GatedBy tr pid customerReference request payload := by
  obtain ⟨response, detail, code, item, chosen, hresponse, hdetail, hcode, hs, hp⟩ := hg
  obtain ⟨productId, hd⟩ := h.detail _ hdetail
  exact ⟨response, productId, detail, code, item, chosen, h.response _ hresponse, hd,
    h.supplierCode _ hcode, hs, hp⟩

section

variable {tr l m : OrdersTrace} {cfg : Cfg ordersSystem} {t : Trans ordersSystem} {pid : Nat}

/-- Every step of a process is in order with what it has read. -/
theorem act_inOrder {op : ServiceOp} {r : Except Exc op.Res}
    (h : Run ordersSystem Store.empty tr cfg) (htr : tr = l ++ t :: m)
    (ht : t.event = .act pid op r) : ∃ call g, (∃ u ∈ l, u.event = .start pid call) ∧
      Traced pid l g ∧ call.InOrder g op ∧ Effect t.pre op r t.post := by
  obtain ⟨cfg₀, call, k, h₀, -, hp, hE⟩ := h.act_at htr ht
  obtain ⟨s, hs, hok⟩ := h₀.act_ok (P := gateProtocol) (i := fun call => (call, Reads.none))
    body_gated hp
  obtain ⟨s', hs', hcall⟩ := h₀.ghost_call (P := gateProtocol)
    (i := fun call => (call, Reads.none))
    (K := fun (call : ServiceCall) (s : ServiceCall × Reads) => s.1 = call) body_gated
    (fun _ => rfl) (fun _ _ _ _ h _ => h) hp
  obtain rfl : s = s' := Option.some.inj (hs.symm.trans hs')
  obtain ⟨call', g⟩ := s
  obtain rfl : call' = call := hcall
  exact ⟨call', g, h₀.started hp, readsOf_traced h₀ hs, hok, hE⟩

/-- A call that prepares is placing an order. -/
theorem prepare_call {c : OrderAggregate} {r : Except Exc PrepareResult}
    (h : Run ordersSystem Store.empty tr cfg) (htr : tr = l ++ t :: m)
    (ht : t.event = .act pid (.repo (.prepare c)) r) :
    ∃ customerReference request u, u ∈ l ∧
      u.event = .start pid (.placeOrder customerReference request) := by
  obtain ⟨cfg₀, call, k, h₀, -, hp, -⟩ := h.act_at htr ht
  obtain ⟨g, hg, rfl⟩ := h₀.act_ok (P := callProtocol) (i := ServiceCall.stage) body_follows hp
  obtain ⟨g', hg', hkey⟩ := stage_key? h₀ hp
  obtain rfl : _ = g' := Option.some.inj (hg.symm.trans hg')
  obtain ⟨u, hu, hstart⟩ := h₀.started hp
  cases call with
  | placeOrder customerReference request => exact ⟨customerReference, request, u, hu, hstart⟩
  | recover => cases hkey
  | deliver => cases hkey
  | getOrder => cases hkey

/-- **The prepare of a placing call is behind the gates.** -/
theorem prepare_gated {c : OrderAggregate} {r : Except Exc PrepareResult}
    (h : Run ordersSystem Store.empty tr cfg) (htr : tr = l ++ t :: m)
    (ht : t.event = .act pid (.repo (.prepare c)) r) :
    PassedGates l pid c.supplierAttempt.requestPayload := by
  have hl {u : Trans ordersSystem} (hu : u ∈ l) : u ∈ tr := htr ▸ List.mem_append_left _ hu
  obtain ⟨customerReference, request, u, hu, hstart⟩ := prepare_call h htr ht
  obtain ⟨call, g, ⟨v, hv, hcall⟩, htraced, hok, -⟩ := act_inOrder h htr ht
  obtain rfl := h.start_unique (hl hu) (hl hv) hstart hcall
  rcases hok with hcheck | ⟨c', hc', -, payload, hb, hgated⟩ | ⟨-, hdispatch⟩
  · exact hcheck.elim
  · cases hc'
    have hpay : c.supplierAttempt.requestPayload = payload := by
      simp only [buildPreparedOrder, except_bind_ok] at hb
      obtain ⟨_, -, _, -, _, -, _, -, hb⟩ := hb
      cases hb
      rfl
    rw [hpay]
    exact ⟨customerReference, request, ⟨u, hu, hstart⟩, htraced.gatedBy hgated⟩
  · exact hdispatch.elim

/-- The rows that a prepare adds hold the payload of its candidate. -/
theorem prepare_stores {c : OrderAggregate} {r : Except Exc PrepareResult} {s s' : Store}
    (hE : Effect s (.repo (.prepare c)) r s') {a : AttemptRow} (ha : a ∈ s'.1.supplierAttempts) :
    a ∈ s.1.supplierAttempts ∨ a.requestPayload = c.supplierAttempt.requestPayload.asDict := by
  have hexec (e : s' = (RepoOp.exec (.prepare c) s).2) :
      a ∈ s.1.supplierAttempts ∨
        a.requestPayload = c.supplierAttempt.requestPayload.asDict := by
    rcases Tx.commit_cases (prepare c) s with ⟨x, hx⟩ | ⟨p, s₁, hx, hok⟩
    · obtain rfl : s' = s := e.trans (congrArg Prod.snd hx)
      exact .inl ha
    · obtain rfl : s' = s₁ := e.trans (congrArg Prod.snd hx)
      obtain ⟨-, ⟨-, hs, -⟩ | ⟨-, row, att, -, hatt, -, hs⟩⟩ := prepare_ok hok
      · rw [hs] at ha
        exact .inl ha
      · rw [hs, List.mem_append, List.mem_singleton] at ha
        refine ha.imp_right fun e => ?_
        rw [e]
        exact (AttemptRow.ofRecord_eq hatt).2.2.1
  rcases hE with h | ⟨e, -, h | h⟩
  · exact hexec (congrArg Prod.snd h)
  · rw [h] at ha
    exact .inl ha
  · exact hexec h

/-- Before it prepares, a placing call only reads. -/
theorem before_prepare {op : ServiceOp} {r : Except Exc op.Res} {customerReference : Str}
    {request : OrderRequest} (h : Run ordersSystem Store.empty tr cfg) (htr : tr = l ++ t :: m)
    (ht : t.event = .act pid op r)
    (hstart : ∃ u ∈ l, u.event = .start pid (.placeOrder customerReference request))
    (hnone : ∀ u ∈ l, ∀ c r, u.event ≠ .act pid (.repo (.prepare c)) r)
    (hop : ∀ c, op ≠ .repo (.prepare c)) : op.IsCheck ∧ t.post = t.pre := by
  have hl {u : Trans ordersSystem} (hu : u ∈ l) : u ∈ tr := htr ▸ List.mem_append_left _ hu
  obtain ⟨u, hu, hstart⟩ := hstart
  obtain ⟨call, g, ⟨v, hv, hcall⟩, htraced, hok, hE⟩ := act_inOrder h htr ht
  obtain rfl := h.start_unique (hl hu) (hl hv) hstart hcall
  rcases hok with hcheck | ⟨c, hc, -⟩ | ⟨hprepared, -⟩
  · refine ⟨hcheck, ?_⟩
    cases op with
    | repo op => exact hcheck.elim
    | _ => exact hE
  · exact absurd hc (hop c)
  · obtain ⟨w, hw, c, r', hw'⟩ := htraced.prepared hprepared
    exact absurd hw' (hnone w hw c r')

/-- A call that created its intent sends the payload that it prepared. -/
theorem created_sends {c : OrderAggregate} {p : PrepareResult} {u : Trans ordersSystem}
    {sent : SupplierPurchaseRequest} {r : Except Exc PurchaseResult}
    (h : Run ordersSystem Store.empty tr cfg) (htr : tr = l ++ t :: m)
    (ht : t.event = .act pid (.repo (.prepare c)) (.ok p)) (hcreated : p.created = true)
    (hu : u ∈ m) (hsent : u.event = .act pid (.purchase sent) r) :
    sent.payload = c.supplierAttempt.requestPayload := by
  obtain ⟨m₁, m₂, rfl⟩ := List.append_of_mem hu
  have hsplit : tr = (l ++ t :: m₁) ++ u :: m₂ := by rw [htr]; simp
  obtain ⟨customerReference, request, v, hv, hstart⟩ := prepare_call h htr ht
  obtain ⟨cfg₀, call, k, h₀, -, hp, -⟩ := h.act_at hsplit hsent
  have hmem : v ∈ l ++ t :: m₁ := List.mem_append_left _ hv
  obtain ⟨hmade, a, ha, hpay, hkey⟩ := created_stored h₀ hmem hstart
    (List.mem_append_right l List.mem_cons_self) ht hcreated
  obtain ⟨L, hI⟩ := run_inv h₀
  obtain ⟨g, hg, hok⟩ := h₀.act_ok (P := callProtocol) (i := ServiceCall.stage) body_follows hp
  obtain ⟨key, id, b, rfl, rfl⟩ := hok
  obtain ⟨g', hg', hkey'⟩ := stage_key? h₀ hp
  obtain rfl : _ = g' := Option.some.inj (hg.symm.trans hg')
  obtain ⟨w, hw, hwstart⟩ := h₀.started hp
  obtain rfl := h₀.start_unique hmem hw hstart hwstart
  obtain rfl : key = request.idempotencyKey := Option.some.inj hkey'
  obtain ⟨⟨⟨o, ho, hok, -⟩, -⟩, o₁, ho₁, hreq⟩ := hI.stage hg
  obtain rfl : o = o₁ := Option.some.inj (ho.symm.trans ho₁)
  -- the intent that is claimed and the one that was prepared have the same key
  obtain ⟨o', ho', henc⟩ := hI.represents.of_loads ha
  obtain ⟨i, hi, hik, -⟩ := (hI.represents.present ho).intent
  obtain ⟨j, hj, hjk, -⟩ := henc.intent
  have hjkey : j.idempotencyKey = i.idempotencyKey := by
    obtain ⟨payload, hb, -⟩ := hmade
    rw [hik, hok, hjk, ← ha.idempotencyKey henc, hkey, buildPreparedOrder_key hb]
  have hsame : j = i :=
    List.inj_on_of_nodup_map cfg₀.store.2.1.2.1 (mem_of_lookup hj) (mem_of_lookup hi) hjkey
  have hid : c.intent.id = id :=
    (key_of_lookup hj).symm.trans ((congrArg IntentRow.id hsame).trans (key_of_lookup hi))
  subst hid
  obtain rfl : o = o' := Option.some.inj (ho.symm.trans ho')
  rw [hreq]
  exact (ha.encodes henc).2.2.2.2.symm.trans hpay

end

/-- **The gates of an order**, over every run: what a placing call prepares, stores and sends
passed its gates, every purchase is of a payload that passed those of the call that prepared it,
and before the prepare nothing but reads happens. -/
theorem order_gates {tr : OrdersTrace} {cfg : Cfg ordersSystem}
    (h : Run ordersSystem Store.empty tr cfg) :
    (∀ l t m pid c r, tr = l ++ t :: m → t.event = .act pid (.repo (.prepare c)) r →
      PassedGates l pid c.supplierAttempt.requestPayload ∧
      (∀ a ∈ t.post.1.supplierAttempts, a ∈ t.pre.1.supplierAttempts ∨
        a.requestPayload = c.supplierAttempt.requestPayload.asDict) ∧
      ∀ p, r = .ok p → p.created = true → ∀ u ∈ m, ∀ sent r',
        u.event = .act pid (.purchase sent) r' →
          sent.payload = c.supplierAttempt.requestPayload) ∧
    (∀ l t m pid sent r, tr = l ++ t :: m → t.event = .act pid (.purchase sent) r →
      ∃ l' u m' q c r', l = l' ++ u :: m' ∧ u.event = .act q (.repo (.prepare c)) r' ∧
        c.supplierAttempt.requestPayload = sent.payload ∧ PassedGates l' q sent.payload) ∧
    ∀ l t m pid op r customerReference request, tr = l ++ t :: m → t.event = .act pid op r →
      (∃ u ∈ l, u.event = .start pid (.placeOrder customerReference request)) →
      (∀ u ∈ l, ∀ c r, u.event ≠ .act pid (.repo (.prepare c)) r) →
      (∀ c, op ≠ .repo (.prepare c)) → op.IsCheck ∧ t.post = t.pre := by
  refine ⟨fun l t m pid c r htr ht => ⟨prepare_gated h htr ht, fun a ha => ?_, ?_⟩,
    fun l t m pid sent r htr ht => ?_, fun l t m pid op r _ _ htr ht => before_prepare h htr ht⟩
  · obtain ⟨call, g, -, -, -, hE⟩ := act_inOrder h htr ht
    exact prepare_stores hE ha
  · rintro p rfl hcreated u hu sent r' hsent
    exact created_sends h htr ht hcreated hu hsent
  · obtain ⟨customerReference, order, id, -, -, -, l', u, m', hl, hfirst⟩ :=
      purchase_authorised h htr ht
    obtain ⟨q, c, r', hu, -, rfl⟩ := hfirst.event
    exact ⟨l', u, m', q, c, r', hl, hu, rfl,
      prepare_gated h (m := m' ++ t :: m) (by rw [htr, hl]; simp) hu⟩

end

section

attribute [local instance] sampleUnicode sampleHashlib

theorem order_gates_sample : ∃ l t m c r, sampleOrder.1 = l ++ t :: m ∧
    t.event = .act 0 (.repo (.prepare c)) (.ok r) ∧ r.created = true ∧
    PassedGates l 0 c.supplierAttempt.requestPayload := by
  obtain ⟨t, ht, c, r, hevent, hcreated⟩ := exists_prepare sampleOrder_prepared
  obtain ⟨l, m, htr⟩ := List.append_of_mem ht
  have hrun : Run ordersSystem Store.empty sampleOrder.1 sampleOrder.2 := sampleRun_run _ _ _
  exact ⟨l, t, m, c, r, htr, hevent, hcreated,
    ((order_gates hrun).1 l t m 0 c (.ok r) htr hevent).1⟩

end

end NyanShopBot.Orders
