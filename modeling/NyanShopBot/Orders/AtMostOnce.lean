import NyanShopBot.Orders.Runs

/-!
# At most one purchase

In every run of the order service a purchase is sent at most once per intent,
by a placing call, after its claim committed, with the request that the first
prepare of the key stored.
-/

namespace NyanShopBot.Orders

open Py Db Conc

section

variable [UnicodeData]

/-- The key of a placing call at a stage. -/
def Stage.key? : Stage → Option Str
  | .idle key | .prepared key _ | .claimed key _ _ | .sent key _ _ | .recorded key _ _ _ => some key
  | _ => none

def ServiceCall.key? : ServiceCall → Option Str
  | .placeOrder _ order => some order.idempotencyKey
  | _ => none

/-- No step changes which key a call places. -/
theorem key?_next {g : Stage} {op : ServiceOp} (r : Except Exc op.Res) :
    (g.next op r).key? = g.key? := by
  rcases g.next_moves op r with e | hm
  · rw [e]
  · generalize g.next op r = g' at hm
    cases hm <;> rfl

variable [Hashlib]

/-- What stands before a purchase in the trace: the start of a `place_order`, the
claim of the intent by it, and the prepare that first stored its key. -/
def Authorised (l : OrdersTrace) (pid : Nat) (request : SupplierPurchaseRequest) : Prop :=
  ∃ customerReference order id,
    (∃ t ∈ l, t.event = .start pid (.placeOrder customerReference order)) ∧
    request.requestKey = str "purchase:" ++ id ∧
    (∃ l' t m, l = l' ++ t :: m ∧ ClaimOf t pid id) ∧
    ∃ l' t m, l = l' ++ t :: m ∧ FirstPrepare t id order.idempotencyKey request

theorem stage_key? {tr : OrdersTrace} {cfg : Cfg ordersSystem}
    (h : Run ordersSystem Store.empty tr cfg) {pid : Nat} {pr : Proc ordersSystem}
    (hp : cfg.procs pid = some pr) : ∃ g, stageOf pid tr = some g ∧ g.key? = pr.call.key? := by
  exact h.ghost_call (P := callProtocol) (i := ServiceCall.stage)
    (K := fun (c : ServiceCall) (g : Stage) => g.key? = c.key?) body_follows
    (fun c => by cases c <;> rfl) (fun c g op r hk _ => (key?_next r).trans hk) hp

/-- **A purchase is authorised** by what stands before it. -/
theorem purchase_authorised {tr l m : OrdersTrace} {t : Trans ordersSystem}
    {cfg : Cfg ordersSystem} {pid : Nat} {request : SupplierPurchaseRequest}
    {r : Except Exc PurchaseResult} (h : Run ordersSystem Store.empty tr cfg)
    (htr : tr = l ++ t :: m) (ht : t.event = .act pid (.purchase request) r) :
    Authorised l pid request := by
  obtain ⟨cfg₀, c, k, h₀, -, hp, -⟩ := h.act_at htr ht
  obtain ⟨L, hI⟩ := run_inv h₀
  obtain ⟨g, hg, hok⟩ := h₀.act_ok (P := callProtocol) (i := ServiceCall.stage) body_follows hp
  obtain ⟨key, id, a, rfl, rfl⟩ := hok
  obtain ⟨g', hg', hkey⟩ := stage_key? h₀ hp
  obtain rfl : _ = g' := Option.some.inj (hg.symm.trans hg')
  obtain ⟨⟨⟨o, ho, hok, -⟩, -⟩, o₁, ho₁, hreq⟩ := hI.stage hg
  obtain rfl : o = o₁ := Option.some.inj (ho.symm.trans ho₁)
  obtain ⟨u, hu, hstart⟩ := h₀.started hp
  cases c with
  | placeOrder customerReference order =>
    obtain rfl : key = order.idempotencyKey := Option.some.inj hkey
    refine ⟨customerReference, order, id, ⟨u, hu, hstart⟩, ?_, hI.claimed hg, ?_⟩
    · rw [hreq]; exact hI.requestKey ho
    · rw [hreq, ← hok]; exact hI.prepared ho
  | recover => cases hkey
  | deliver => cases hkey
  | getOrder => cases hkey

/-- A process that sends a purchase runs `place_order`. -/
theorem purchase_call {tr : OrdersTrace} {cfg : Cfg ordersSystem} {t u : Trans ordersSystem}
    {pid : Nat} {c : ServiceCall} {request : SupplierPurchaseRequest}
    {r : Except Exc PurchaseResult} (h : Run ordersSystem Store.empty tr cfg) (ht : t ∈ tr)
    (hstart : t.event = .start pid c) (hu : u ∈ tr)
    (hact : u.event = .act pid (.purchase request) r) :
    ∃ customerReference order, c = .placeOrder customerReference order := by
  obtain ⟨l, m, htr⟩ := List.append_of_mem hu
  obtain ⟨customerReference, order, -, ⟨v, hv, hv'⟩, -⟩ := purchase_authorised h htr hact
  obtain ⟨rest, hp⟩ := h.call_of_start ht hstart
  obtain ⟨rest', hp'⟩ := h.call_of_start (t := v) (by rw [htr]; exact List.mem_append_left _ hv) hv'
  rw [hp] at hp'
  cases hp'
  exact ⟨_, _, rfl⟩

/-- **At-most-once purchase**, over every interleaving of any number of calls,
with failures and crashes between any two steps: a purchase is sent at most once
per intent, each is authorised by what stands before it, and only `place_order`
sends one. -/
theorem at_most_once_purchase {tr : OrdersTrace} {cfg : Cfg ordersSystem}
    (h : Run ordersSystem Store.empty tr cfg) :
    (∀ id, purchaseCount id tr ≤ 1) ∧
      (∀ l t m pid request r, tr = l ++ t :: m → t.event = .act pid (.purchase request) r →
        Authorised l pid request) ∧
      ∀ pid c t u request r, t ∈ tr → t.event = .start pid c → u ∈ tr →
        u.event = .act pid (.purchase request) r →
        ∃ customerReference order, c = .placeOrder customerReference order := by
  obtain ⟨L, hI⟩ := run_inv h
  exact ⟨hI.once, fun _ _ _ _ _ _ htr ht => purchase_authorised h htr ht,
    fun _ _ _ _ _ _ ht hs hu ha => purchase_call h ht hs hu ha⟩

end

/-! ## A sample run -/

section

/-- Only ASCII text is printable, and it is in normal form. -/
abbrev sampleUnicode : UnicodeData := ⟨fun _ => false, fun s => s⟩

attribute [local instance] sampleUnicode

def sampleIntent : Str := str "ff962894-87c2-5909-9492-4e71ba5c80b0"

def samplePrice : MinorMoney := ⟨1000, str "VND", str "minor", by decide⟩

def samplePriceText : Str :=
  str "\x7b\"amount_minor\":1000" ++ str ",\"currency\":\"VND\"" ++ str ",\"unit\":\"minor\"\x7d"

/-- The canonical text of the sample order, member by member. -/
def samplePayload : Str :=
  str "\x7b\"customer_reference\":\"cust-1\"" ++ str ",\"max_unit_price\":" ++ samplePriceText ++
    str ",\"product_id\":\"p1\"" ++ str ",\"quantity\":1" ++ str ",\"schema_version\":1" ++
    str ",\"supplier\":\x7b\"code\":\"mock\"" ++ str ",\"product_id\":\"sp1\"" ++
    str ",\"variant_id\":\"sv1\"\x7d" ++ str ",\"unit_price\":" ++ samplePriceText ++
    str ",\"variant_id\":\"v1\"\x7d"

/-- The digests that the sample order needs. -/
abbrev sampleHashlib : Hashlib where
  sha1 data :=
    if some data = (encodeUtf8 (str "intent:order-1")).map (orderNamespace ++ ·) then
      0xff96289487c2f90994924e71ba5c80b0edfd3f9e#160
    else if some data = (encodeUtf8 (str "supplier-attempt:" ++ sampleIntent)).map
        (orderNamespace ++ ·) then
      0x2a532d0312bcf306a1a7f26ad135ffe0d4bcff5a#160
    else 0
  sha256 data :=
    if some data = encodeUtf8 samplePayload then
      0x11a9ed35be66f7286966bc3817ff4f6992f65f586c1a4ce08996eb78735b617b#256
    else 0

attribute [local instance] sampleHashlib

def sampleRequest : OrderRequest :=
  ⟨str "p1", str "v1", 1, str "order-1", samplePrice, by decide⟩

def sampleVariant : CatalogVariant where
  id := str "v1"
  name := str "Variant"
  mapping := ⟨⟨str "mock", str "sp1"⟩, ⟨str "mock", str "sv1"⟩, .approved (str "admin") 0⟩
  price := ⟨1000, str "VND", str "minor"⟩
  availableQuantity := 5

def sampleProduct : CatalogProduct where
  id := str "p1"
  name := str "Product"
  description := str "A product"
  supplier := str "mock"
  mode := str "mock"
  price := ⟨1000, str "VND", str "minor"⟩
  availableQuantity := 5
  variants := [sampleVariant]

/-- Every transaction commits, the checks pass, and the supplier answers as given. -/
def sampleAnswer (purchase : Except Exc PurchaseResult)
    (reconcile : Except Exc ReconciliationResult) (s : Store) :
    (op : ServiceOp) → Except Exc op.Res × Store
  | .repo op => op.exec s
  | .runtime => (.ok ⟨.str (str "mock"), .str (str "disabled"), .bool false⟩, s)
  | .readCatalog => (.ok ⟨.fresh, [sampleProduct]⟩, s)
  | .getProduct _ => (.ok (.found sampleProduct), s)
  | .supplierCode => (.ok (str "mock"), s)
  | .capabilities => (.ok ⟨.bool true, .bool true⟩, s)
  | .purchase _ => (purchase, s)
  | .reconcile _ => (reconcile, s)
  | .deliver _ => (.ok .succeeded, s)

theorem sampleAnswer_effect (purchase : Except Exc PurchaseResult)
    (reconcile : Except Exc ReconciliationResult) (s : Store) (op : ServiceOp) :
    Effect s op (sampleAnswer purchase reconcile s op).1
      (sampleAnswer purchase reconcile s op).2 := by
  cases op with
  | repo op => exact .inl rfl
  | _ => rfl

def go (pid n : Nat) : List (Move ordersSystem) := List.replicate n (.go pid)

/-- The run of a schedule, the empty run where the schedule is not possible. -/
def sampleRun (purchase : Except Exc PurchaseResult) (reconcile : Except Exc ReconciliationResult)
    (moves : List (Move ordersSystem)) : OrdersTrace × Cfg ordersSystem :=
  (replay ordersSystem (sampleAnswer purchase reconcile) Store.empty moves).getD
    ([], ⟨Store.empty, fun _ => none⟩)

theorem sampleRun_run (purchase : Except Exc PurchaseResult)
    (reconcile : Except Exc ReconciliationResult) (moves : List (Move ordersSystem)) :
    Run ordersSystem Store.empty (sampleRun purchase reconcile moves).1
      (sampleRun purchase reconcile moves).2 := by
  unfold sampleRun
  cases h : replay ordersSystem (sampleAnswer purchase reconcile) Store.empty moves with
  | none => exact .nil
  | some st => exact replay_run (sampleAnswer_effect purchase reconcile) h

/-- One order, placed and purchased. -/
abbrev sampleOrder : OrdersTrace × Cfg ordersSystem :=
  sampleRun (.ok (.succeeded (some (str "ref-1")))) (.ok .unresolved)
    (.start 0 (.placeOrder (str "cust-1") sampleRequest) :: go 0 14)

theorem at_most_once_purchase_sample :
    purchaseCount sampleIntent sampleOrder.1 = 1 ∧ ∀ id, purchaseCount id sampleOrder.1 ≤ 1 :=
  ⟨by decide +kernel, (at_most_once_purchase (sampleRun_run _ _ _)).1⟩

end

end NyanShopBot.Orders
