import NyanShopBot.Db.Relate
import NyanShopBot.Orders.InMemory
import NyanShopBot.Orders.Readback

/-!
# The in-memory repository mirrors the tables

`Mirrors s m`: the dictionaries `m` hold exactly the aggregates that the tables `s`
load. `Mirrors.exec` is the step lemma: a repository call on both gives the same
answer and leaves them mirrored, unless the database fails. `RepoOp.Plain` is what it
asks of the call.
-/

namespace NyanShopBot.Orders

open Py Db

section

variable [UnicodeData] [Hashlib]

theorem Loads.frame {t t' : Tables} {id : Str} {a : OrderAggregate} (h : Loads t id a)
    (hs : SameRows t t' id) : Loads t' id a where
  storable := h.storable
  intent := hs.intent ▸ h.intent
  attempt := hs.attempt ▸ h.attempt
  deliveries := by
    unfold Tables.deliveriesOf
    rw [hs.deliveries]
    exact h.deliveries
  invariants := h.invariants

/-! ## The mirror -/

/-- **The dictionaries hold what the tables load.** -/
structure Mirrors (s : Store) (m : Memory) : Prop where
  keys : (m.byId.map Prod.fst).Nodup
  loads : ∀ {id a}, item? id m.byId = some a → Loads s.1 id a
  absent : ∀ {id}, item? id m.byId = none → lookup IntentRow.id s.1.orderIntents id = none
  idByKey : ∀ key, item? key m.idByKey =
    (lookup IntentRow.idempotencyKey s.1.orderIntents key).map IntentRow.id

theorem Mirrors.empty : Mirrors Store.empty Memory.empty :=
  ⟨List.nodup_nil, fun h => (by cases h), fun _ => rfl, fun _ => rfl⟩

/-- A change of the rows of one intent is an assignment to its key. -/
theorem Mirrors.put {s s' : Store} {m : Memory} {id : Str} {a : OrderAggregate}
    (h : Mirrors s m) (hid : Loads s'.1 id a) (hother : ∀ id', id' ≠ id → SameRows s.1 s'.1 id')
    (hkeys : ∀ key, (lookup IntentRow.idempotencyKey s'.1.orderIntents key).map IntentRow.id =
      (lookup IntentRow.idempotencyKey s.1.orderIntents key).map IntentRow.id) :
    Mirrors s' { m with byId := setItem id a m.byId } where
  keys := nodup_keys_setItem h.keys id a
  loads {id' b} hb := by
    rw [item?_setItem] at hb
    split at hb
    · next e =>
      subst e
      exact Option.some.inj hb ▸ hid
    · next e => exact (h.loads hb).frame (hother id' (Ne.symm e))
  absent {id'} hb := by
    rw [item?_setItem] at hb
    split at hb
    · cases hb
    · next e =>
      rw [(hother id' (Ne.symm e)).intent]
      exact h.absent hb
  idByKey key := (h.idByKey key).trans (hkeys key).symm

theorem Mirrors.setPurchase {s : Store} {m : Memory} {id : Str} {a : OrderAggregate}
    (h : Mirrors s m) (ha : Loads s.1 id a) (st : PurchaseState) (reference : Option Str)
    (code : Option SafeFailureCode) :
    Mirrors (s.setPurchase id st reference code)
      { m with byId := setItem id (a.replacePurchase st reference code) m.byId } :=
  h.put (ha.setPurchase st reference code) (fun _ hne => sameRows_setPurchase hne st reference code)
    fun key => lookup_modify_map (f := IntentRow.setState st) (fun _ => rfl) (fun _ => rfl) key

/-! ## Calls that read an intent -/

/-- The answers that say nothing: the database failed. -/
abbrev Failed (e : Exc) : Prop := e = .database

abbrev SideBySide {α : Type} (P : α → Store → Memory → Prop) (x : Except Exc (α × Store))
    (y : Except Exc (α × Memory)) : Prop := Tx.Alike Failed P x y

omit [Hashlib] in
theorem Memory.put_eq {id : Str} {a : OrderAggregate} {m : Memory} :
    Memory.put id a m = .ok ((), { m with byId := setItem id a m.byId }) := rfl

variable {s : Store} {m : Memory}

variable {α : Type} {P : α → Store → Memory → Prop} {id : Str}

/-- Both read the same aggregate, or none. -/
theorem Mirrors.onIntent {f : OrderAggregate → OrderTx α} {g : OrderAggregate → MemoryTx α}
    (h : Mirrors s m)
    (hf : ∀ a, Loads s.1 id a → SideBySide P ((load id >>= f) s) (g a m)) :
    SideBySide P ((load id >>= f) s) ((Memory.require id >>= g) m) := by
  cases hid : item? id m.byId with
  | some a =>
    have hm : Memory.require id m = .ok (a, m) :=
      Tx.query_bind.trans (by rw [hid]; rfl)
    rw [Tx.bind_eq hm]
    exact hf a (h.loads hid)
  | none =>
    have hm : Memory.require id m = .error (.order .orderNotFound) :=
      Tx.query_bind.trans (by rw [hid]; rfl)
    rw [Tx.bind_eq_error hm]
    by_cases hs : storable id = true
    · have hl : load id s = .error (.order .orderNotFound) := by
        unfold load
        rw [Tx.ensure_bind hs, Tx.query_bind, h.absent hid]
        rfl
      rw [Tx.bind_eq_error hl]
      exact .error _
    · have hl : load id s = .error .database := by
        unfold load
        rw [Tx.ensure_bind_not hs]
      rw [Tx.bind_eq_error hl]
      exact .lost rfl

/-- Both bodies go on with the aggregate that was read. -/
theorem Mirrors.onLoaded {f : OrderAggregate → OrderTx α} {g : OrderAggregate → MemoryTx α}
    (h : Mirrors s m) (hf : ∀ a, Loads s.1 id a → SideBySide P (f a s) (g a m)) :
    SideBySide P ((load id >>= f) s) ((Memory.require id >>= g) m) :=
  h.onIntent fun a ha => (Tx.bind_eq (load_ok.2 ⟨rfl, ha⟩)).symm ▸ hf a ha

/-! ## Writing the purchase -/

theorem Mirrors.get (h : Mirrors s m) (id : Str) :
    SideBySide (fun _ s' m' => Mirrors s' m') (load id s) (Memory.get id m) := by
  have hboth : SideBySide (fun _ s' m' => Mirrors s' m') ((load id >>= pure) s)
      ((Memory.require id >>= pure) m) := h.onLoaded fun a _ => .ok h
  rw [bind_pure, bind_pure] at hboth
  exact hboth

theorem Mirrors.claimPrepared {L : Ledger} (h : Mirrors s m) (hR : Represents s.1 L) (id : Str) :
    SideBySide (fun _ s' m' => Mirrors s' m') (claimPrepared id s)
      (Memory.claimPrepared id m) := by
  refine h.onIntent fun a ha => ?_
  by_cases hst : a.intent.purchaseState = .prepared
  · obtain ⟨o, ho, he⟩ := hR.of_loads ha
    have hp : o.purchase = .prepared :=
      Purchase.eq_of_state ((ha.encodes he).1.symm.trans hst) (.inl rfl)
    have hclaim := claimPrepared_ok.2 ⟨a, ha, .inr ⟨hst, rfl, rfl⟩⟩
    rw [hR.claim_eq ho hp] at hclaim
    rw [if_neg (not_not.2 hst), Tx.bind_eq Memory.put_eq]
    show SideBySide _ (Orders.claimPrepared id s) _
    rw [hclaim]
    exact .ok (h.setPurchase ha .dispatching none none)
  · rw [if_pos hst]
    show SideBySide _ (Orders.claimPrepared id s) _
    rw [claimPrepared_ok.2 ⟨a, ha, .inl ⟨hst, rfl, rfl⟩⟩]
    exact .ok h

/-- The two ends of a purchase: `same` compares what the tables compare. -/
theorem Mirrors.recordEnd (h : Mirrors s m) (id : Str) {st : PurchaseState}
    {same : OrderAggregate → Bool} {reference : Option Str} {code : Option SafeFailureCode}
    (href : varcharOrNull 128 reference = some reference)
    (hsame : ∀ a, Loads s.1 id a → a.intent.purchaseState = st →
      (same a = true ↔ a.supplierAttempt.supplierOrderReference = reference ∧
        a.supplierAttempt.failureCode = code)) :
    SideBySide (fun _ s' m' => Mirrors s' m') (recordTerminal id st reference code s)
      (Memory.recordEnd id st same reference code m) := by
  refine h.onLoaded fun a ha => ?_
  by_cases hst : a.intent.purchaseState = st
  · simp only [if_pos hst]
    exact .ensure_bind (hsame a ha hst).symm fun _ => .ok h
  · simp only [if_neg hst]
    refine .ensure_bind Iff.rfl fun _ => ?_
    rw [Tx.bind_eq ((setPurchaseState_ok (u := ()) href).2 rfl), Tx.bind_eq Memory.put_eq]
    exact .ok (h.setPurchase ha st reference code)

theorem Mirrors.recordUnknown (h : Mirrors s m) (id : Str) :
    SideBySide (fun _ s' m' => Mirrors s' m') (recordUnknown id s)
      (Memory.recordUnknown id m) := by
  refine h.onLoaded fun a ha => ?_
  by_cases hst : a.intent.purchaseState = .unknown ∨ a.intent.purchaseState = .reconciling
  · simp only [if_pos hst]
    exact .ok h
  · simp only [if_neg hst]
    refine .ensure_bind Iff.rfl fun _ => ?_
    rw [Tx.bind_eq ((setPurchaseState_ok (u := ()) rfl).2 rfl), Tx.bind_eq Memory.put_eq]
    exact .ok (h.setPurchase ha .unknown none none)

theorem Mirrors.beginReconciliation (h : Mirrors s m) (id : Str) :
    SideBySide (fun _ s' m' => Mirrors s' m') (beginReconciliation id s)
      (Memory.beginReconciliation id m) := by
  refine h.onLoaded fun a ha => ?_
  cases hst : a.intent.purchaseState with
  | unknown =>
    simp only
    rw [Tx.bind_eq ((setPurchaseState_ok (u := ()) rfl).2 rfl), Tx.bind_eq Memory.put_eq]
    exact .ok (h.setPurchase ha .reconciling none none)
  | reconciling => exact .ok h
  | succeeded => exact .ok h
  | failedSafe => exact .ok h
  | prepared => exact .error _
  | dispatching => exact .error _

/-! ## Deliveries -/

omit [UnicodeData] [Hashlib] in
theorem execute_error {f : Tables → Tables} {e : Exc}
    (h : schema.execute .database f s = .error e) :
    Failed e :=
  Schema.raises_execute (P := Failed) rfl s e h

omit [Hashlib] in
/-- The deliveries of an intent are numbered from one. -/
theorem Encodes.number {t : Tables} {o : Obligation} (h : Encodes t id o) {n : Nat}
    {r : DeliveryRow}
    (hr : (t.deliveryAttempts.filter fun r => r.orderIntentId = id)[n]? = some r) :
    r.attemptNumber = (n : Int) + 1 ∧ n < o.deliveries.length := by
  have hcode : (deliveryCodes o.deliveries)[n]? = some r.code := by
    rw [← h.deliveries, List.getElem?_map, hr]
    rfl
  rw [getElem?_deliveryCodes, Option.map_eq_some_iff] at hcode
  obtain ⟨d, hn, hd⟩ := hcode
  exact ⟨(congrArg Prod.fst hd).symm, (List.getElem?_eq_some_iff.1 hn).1⟩

omit [Hashlib] in
theorem Encodes.sorted {t : Tables} {o : Obligation} (h : Encodes t id o) :
    (t.deliveryAttempts.filter fun r => r.orderIntentId = id).Pairwise
      fun a b => a.attemptNumber ≤ b.attemptNumber := by
  refine List.pairwise_iff_getElem.2 fun i j hi hj hij => ?_
  rw [(h.number (List.getElem?_eq_getElem hi)).1, (h.number (List.getElem?_eq_getElem hj)).1]
  omega

omit [Hashlib] in
theorem Encodes.deliveriesOf_eq {t : Tables} {o : Obligation} (h : Encodes t id o) :
    t.deliveriesOf id = t.deliveryAttempts.filter fun r => r.orderIntentId = id :=
  h.sorted.insertionSort_eq

omit [Hashlib] in
/-- A delivery with the next number comes last. -/
theorem Encodes.deliveriesOf_append {t : Tables} {o : Obligation} (h : Encodes t id o)
    {row : DeliveryRow} (hrow : row.orderIntentId = id)
    (hnumber : row.attemptNumber = (o.deliveries.length : Int) + 1) :
    Tables.deliveriesOf { t with deliveryAttempts := t.deliveryAttempts ++ [row] } id =
      t.deliveriesOf id ++ [row] := by
  have hfilter : ((t.deliveryAttempts ++ [row]).filter fun r => r.orderIntentId = id) =
      (t.deliveryAttempts.filter fun r => r.orderIntentId = id) ++ [row] := by
    simp [List.filter_append, hrow]
  rw [h.deliveriesOf_eq]
  unfold Tables.deliveriesOf
  rw [hfilter]
  refine List.Pairwise.insertionSort_eq (List.pairwise_append.2 ⟨h.sorted, by simp, ?_⟩)
  intro r hr r' hr'
  obtain rfl := List.mem_singleton.1 hr'
  obtain ⟨n, hn⟩ := List.mem_iff_getElem?.1 hr
  have hlt := h.number hn
  omega

omit [UnicodeData] [Hashlib] in
theorem length_intStr_le {n : Int} (h : isInteger n 1 maxQuantity = true) :
    (intStr n).length ≤ 10 := by
  unfold isInteger at h
  rw [Bool.and_eq_true, decide_eq_true_eq, decide_eq_true_eq] at h
  obtain ⟨h0, h1⟩ := h
  unfold maxQuantity at h1
  obtain ⟨k, rfl⟩ := Int.eq_ofNat_of_zero_le (by omega : 0 ≤ n)
  show ((Nat.toDigits 10 k).map chr).length ≤ 10
  rw [List.length_map, Nat.length_toDigits_le_iff (by decide) (by decide)]
  omega

theorem deliveryAttemptIdFor_ok {number : Int} {text : Str}
    (h : deliveryAttemptIdFor id number = .ok text) : text.length = 36 := by
  simp only [deliveryAttemptIdFor, except_bind_ok] at h
  obtain ⟨_, -, _, -, h⟩ := h
  rw [← Except.ok.inj h, length_orderUuid]

omit [Hashlib] in
theorem deliveryKeyFor_ok {number : Int} {text : Str} (h : deliveryKeyFor id number = .ok text) :
    text.length ≤ 128 := by
  simp only [deliveryKeyFor, except_bind_ok] at h
  obtain ⟨_, hid, _, hn, h⟩ := h
  have hid := length_of_isIdentity (validateIdentity_ok.1 hid).1
  have hn : isInteger number 1 maxQuantity = true := by
    unfold validateInteger at hn
    split at hn
    · assumption
    · cases hn
  have hdigits := length_intStr_le hn
  rw [← Except.ok.inj h]
  simp only [deliveryName, List.length_append]
  have h1 : (str "delivery:").length = 9 := by decide
  have h2 : (str ":").length = 1 := by decide
  omega

omit [Hashlib] in
/-- Both raise what the check raises. -/
theorem both_ofOrder {β : Type} {r : Except OrderError β} {f : β → OrderTx α}
    {g : β → MemoryTx α} (h : ∀ b, r = .ok b → SideBySide P (f b s) (g b m)) :
    SideBySide P ((ofOrder r >>= f) s) ((Memory.ofOrder r >>= g) m) := by
  refine .ofExcept_bind fun b hb => ?_
  cases r with
  | ok b' => exact h b (congrArg _ (Except.ok.inj hb))
  | error e => cases hb

/-- The checks of an aggregate do not look at its deliveries. -/
theorem OrderAggregate.Invariants.deliveries {a : OrderAggregate} (h : a.Invariants)
    (ds : List DeliveryAttemptRecord) :
    OrderAggregate.Invariants { a with deliveryAttempts := ds } :=
  ⟨h.linked, h.identity, h.requestKey, h.consistent⟩

/-- Both open the next delivery. -/
theorem Mirrors.createDeliveryAttempt {L : Ledger} (h : Mirrors s m) (hR : Represents s.1 L)
    (id : Str) :
    SideBySide (fun _ s' m' => Mirrors s' m') (createDeliveryAttempt id s)
      (Memory.createDeliveryAttempt id m) := by
  refine h.onLoaded fun a ha => .ensure_bind Iff.rfl fun _ => ?_
  refine both_ofOrder fun deliveryId hid => both_ofOrder fun deliveryKey hkey => ?_
  refine .getOrThrow_left rfl fun rowId hrowId => .getOrThrow_left rfl fun rowKey hrowKey => ?_
  obtain rfl := (varchar_eq_iff hrowId).2 (deliveryAttemptIdFor_ok hid).le
  obtain rfl := (varchar_eq_iff hrowKey).2 (deliveryKeyFor_ok hkey)
  refine .left (fun e => execute_error) fun _ s' hs' => ?_
  have hs' := (Schema.execute_ok.1 hs').1
  obtain ⟨o, -, he⟩ := hR.of_loads ha
  have hnumber := nextAttemptNumber_eq he
  rw [← ha.deliveries] at hnumber
  rw [Tx.bind_eq Memory.put_eq]
  refine .ok
    (h.put ⟨ha.storable, ?_, ?_, ?_, ha.invariants.deliveries _⟩ (fun id' hne => ⟨?_, ?_, ?_⟩) ?_)
  · rw [hs']
    exact ha.intent
  · rw [hs']
    exact ha.attempt
  · rw [hs', he.deliveriesOf_append rfl hnumber, List.map_append, ← ha.deliveries]
    rfl
  · rw [hs']
  · rw [hs']
  · rw [hs']
    simp [List.filter_append, Ne.symm hne]
  · rw [hs']
    exact fun _ => rfl

omit [Hashlib] in
theorem Memory.findDelivery_some {deliveryId intentId : Str} {n : Nat} {d : DeliveryAttemptRecord}
    {items : List (Str × OrderAggregate)}
    (h : Memory.findDelivery deliveryId items = some (intentId, n, d)) :
    ∃ a, (intentId, a) ∈ items ∧ a.deliveryAttempts[n]? = some d ∧ d.id = deliveryId := by
  induction items with
  | nil => cases h
  | cons item items ih =>
    obtain ⟨i, a⟩ := item
    unfold Memory.findDelivery at h
    split at h
    · next x k hx =>
      cases h
      have hmem := List.mem_of_find?_eq_some hx
      rw [List.mem_zipIdx_iff_getElem?] at hmem
      exact ⟨a, List.mem_cons_self, hmem, by simpa using List.find?_some hx⟩
    · obtain ⟨a', ha', hd⟩ := ih h
      exact ⟨a', List.mem_cons_of_mem _ ha', hd⟩

omit [Hashlib] in
theorem Memory.findDelivery_none {deliveryId : Str} {items : List (Str × OrderAggregate)}
    (h : Memory.findDelivery deliveryId items = none) {intentId : Str} {a : OrderAggregate}
    (ha : (intentId, a) ∈ items) {d : DeliveryAttemptRecord} (hd : d ∈ a.deliveryAttempts) :
    d.id ≠ deliveryId := by
  induction items with
  | nil => cases ha
  | cons item items ih =>
    obtain ⟨i, b⟩ := item
    unfold Memory.findDelivery at h
    split at h
    · cases h
    · next hx =>
      rcases List.mem_cons.1 ha with e | ha
      · cases e
        obtain ⟨n, hn⟩ := List.mem_iff_getElem?.1 hd
        have hnone := List.find?_eq_none.1 hx (d, n) (List.mem_zipIdx_iff_getElem?.2 hn)
        simpa using hnone
      · exact ih h ha

/-- The delivery that the tables select is the one that the dictionaries hold. -/
theorem Mirrors.findDelivery {L : Ledger} (h : Mirrors s m) (hR : Represents s.1 L)
    (deliveryId : Str) :
    (lookup DeliveryRow.id s.1.deliveryAttempts deliveryId = none ∧
        Memory.findDelivery deliveryId m.byId = none) ∨
      ∃ row n a, lookup DeliveryRow.id s.1.deliveryAttempts deliveryId = some row ∧
        Memory.findDelivery deliveryId m.byId = some (row.orderIntentId, n, deliveryFromRow row) ∧
        item? row.orderIntentId m.byId = some a ∧ Loads s.1 row.orderIntentId a ∧
        (s.1.deliveryAttempts.filter fun r => r.orderIntentId = row.orderIntentId)[n]? =
          some row := by
  have hnodup : (s.1.deliveryAttempts.map DeliveryRow.id).Nodup := s.2.2.2.1
  cases hfind : Memory.findDelivery deliveryId m.byId with
  | some found =>
    right
    obtain ⟨intentId, n, d⟩ := found
    obtain ⟨a, ha, hn, hd⟩ := Memory.findDelivery_some hfind
    have hitem := item?_of_mem h.keys ha
    have hloads := h.loads hitem
    obtain ⟨o, -, he⟩ := hR.of_loads hloads
    rw [hloads.deliveries, he.deliveriesOf_eq, List.getElem?_map, Option.map_eq_some_iff] at hn
    obtain ⟨row, hrow, rfl⟩ := hn
    obtain ⟨hmem, hown⟩ := List.mem_filter.1 (List.mem_of_getElem? hrow)
    obtain rfl : row.orderIntentId = intentId := by simpa using hown
    have hl := lookup_of_mem DeliveryRow.id hnodup hmem
    rw [show row.id = deliveryId from hd] at hl
    exact ⟨row, n, a, hl, rfl, hitem, hloads, hrow⟩
  | none =>
    left
    cases hl : lookup DeliveryRow.id s.1.deliveryAttempts deliveryId with
    | none => exact ⟨rfl, rfl⟩
    | some row =>
      exfalso
      have hmem := mem_of_lookup hl
      obtain ⟨i, hi, hown⟩ := List.mem_map.1 (s.2.2.2.2.2.2.1 row hmem)
      have hlook := lookup_of_mem IntentRow.id s.2.1.1 hi
      cases hitem : item? i.id m.byId with
      | none =>
        rw [h.absent hitem] at hlook
        cases hlook
      | some a =>
        have hloads := h.loads hitem
        obtain ⟨o, -, he⟩ := hR.of_loads hloads
        have hd : deliveryFromRow row ∈ a.deliveryAttempts := by
          rw [hloads.deliveries, he.deliveriesOf_eq]
          exact List.mem_map.2 ⟨row, List.mem_filter.2 ⟨hmem, by simp [hown]⟩, rfl⟩
        exact Memory.findDelivery_none hfind (mem_of_item? hitem) hd
          (show row.id = deliveryId from key_of_lookup hl)

omit [UnicodeData] [Hashlib] in
/-- Closing a delivery changes its row where it stands. -/
theorem deliveriesOf_finish (t : Tables) (id deliveryId : Str) (target : DeliveryState)
    (code : Option Str) :
    Tables.deliveriesOf { t with
      deliveryAttempts := Db.modify DeliveryRow.id t.deliveryAttempts deliveryId
        (.finish target code) } id =
      Db.modify DeliveryRow.id (t.deliveriesOf id) deliveryId (.finish target code) := by
  have hfilter :
      (Db.modify DeliveryRow.id t.deliveryAttempts deliveryId (.finish target code)).filter
      (fun r => r.orderIntentId = id) =
        Db.modify DeliveryRow.id (t.deliveryAttempts.filter fun r => r.orderIntentId = id)
          deliveryId (.finish target code) :=
    filter_modify (f := DeliveryRow.finish target code) fun _ _ _ => rfl
  have hnumber (r : DeliveryRow) :
      (if r.id = deliveryId then r.finish target code else r).attemptNumber =
      r.attemptNumber := by
    split <;> rfl
  unfold Tables.deliveriesOf
  rw [hfilter]
  refine (List.map_insertionSort _ _ _ _ fun a _ b _ => ?_).symm
  rw [hnumber, hnumber]

/-- Both close the attempt that they found. -/
theorem Mirrors.closeFound {L : Ledger} (h : Mirrors s m) (hR : Represents s.1 L)
    {row : DeliveryRow} {n : Nat} {a : OrderAggregate} (target : DeliveryState) (code : Option Str)
    (hl : lookup DeliveryRow.id s.1.deliveryAttempts row.id = some row)
    (hitem : item? row.orderIntentId m.byId = some a) (ha : Loads s.1 row.orderIntentId a)
    (hn : (s.1.deliveryAttempts.filter fun r => r.orderIntentId = row.orderIntentId)[n]? =
      some row) :
    SideBySide (fun _ s' m' => Mirrors s' m') (closeDelivery row.id target code s)
      (Memory.closeFound row.orderIntentId n (deliveryFromRow row) target code m) := by
  unfold Orders.closeDelivery
  by_cases hs : storable row.id = true
  · rw [Tx.ensure_bind hs, Tx.query_bind, Tx.getOrThrow_bind hl]
    unfold Memory.closeFound
    by_cases hst : row.status = .pending
    · have hst' : (deliveryFromRow row).status = .pending := hst
      rw [if_neg (not_not.2 hst), if_neg (not_not.2 hst')]
      refine .left (fun e => execute_error) fun _ s' hs' => ?_
      have hs' : s'.1 = { s.1 with
          deliveryAttempts := Db.modify DeliveryRow.id s.1.deliveryAttempts row.id
            (DeliveryRow.finish target code) } := (Schema.execute_ok.1 hs').1
      rw [Tx.query_bind, Tx.getOrThrow_bind hitem, Tx.bind_eq Memory.put_eq]
      refine .ok (h.put ⟨ha.storable, ?_, ?_, ?_, ha.invariants.deliveries _⟩
        (fun id' hne => ⟨?_, ?_, ?_⟩) ?_)
      · rw [hs']
        exact ha.intent
      · rw [hs']
        exact ha.attempt
      · obtain ⟨o, -, he⟩ := hR.of_loads ha
        have hsub : ((s.1.deliveryAttempts.filter fun q =>
            q.orderIntentId = row.orderIntentId).map DeliveryRow.id).Nodup :=
          List.Nodup.sublist (List.filter_sublist.map _) s.2.2.2.1
        rw [hs', deliveriesOf_finish, ha.deliveries, he.deliveriesOf_eq, modify_eq_set hsub hn,
          List.map_set]
        rfl
      · rw [hs']
      · rw [hs']
      · rw [hs']
        refine (filter_modify (f := DeliveryRow.finish target code) fun _ _ _ => rfl).trans
          (modify_of_absent fun r hr hid => hne ?_)
        obtain ⟨hr, hown⟩ := List.mem_filter.1 hr
        rw [← List.inj_on_of_nodup_map s.2.2.2.1 hr (mem_of_lookup hl) hid]
        exact (by simpa using hown : r.orderIntentId = id').symm
      · rw [hs']
        exact fun _ => rfl
    · have hst' : (deliveryFromRow row).status ≠ .pending := hst
      rw [if_pos hst, if_pos hst']
      exact .ensure_bind Iff.rfl fun _ => .ok h
  · rw [Tx.ensure_bind_not hs]
    exact .lost rfl

/-- The two ends of a delivery on both sides. -/
theorem Mirrors.finishDelivery {L : Ledger} (h : Mirrors s m) (hR : Represents s.1 L)
    {deliveryId : Str} {succeeded : Bool} {code : Option Str}
    (hcode : Memory.checkFailure succeeded code = .ok ()) :
    SideBySide (fun _ s' m' => Mirrors s' m') (finishDelivery deliveryId succeeded code s)
      (Memory.finishDelivery deliveryId succeeded code m) := by
  have hclose : Orders.finishDelivery deliveryId succeeded code s =
      closeDelivery deliveryId (if succeeded then .succeeded else .failed)
        (if succeeded then none else code) s := by
    cases succeeded with
    | true => rfl
    | false =>
      obtain ⟨text, hv⟩ : ∃ text, validateSafeText code 64 = .ok text := by
        cases hv : validateSafeText code 64 with
        | ok text => exact ⟨text, rfl⟩
        | error e =>
          unfold Memory.checkFailure at hcode
          rw [hv] at hcode
          cases hcode
      exact Tx.bind_eq (ofOrder_ok.2 ⟨hv, rfl⟩)
  rw [hclose]
  unfold Memory.finishDelivery
  rw [Tx.query_bind]
  rcases h.findDelivery hR deliveryId with ⟨hnone, hfind⟩ | ⟨row, n, a, hl, hfind, hitem, ha, hn⟩
  · rw [hfind]
    unfold Orders.closeDelivery
    by_cases hs : storable deliveryId = true
    · rw [Tx.ensure_bind hs, Tx.query_bind, hnone]
      exact .error _
    · rw [Tx.ensure_bind_not hs]
      exact .lost rfl
  · have hcheck : Memory.ofOrder (Memory.checkFailure succeeded code) m = .ok ((), m) := by
      rw [hcode]
      rfl
    obtain rfl := key_of_lookup hl
    rw [Tx.getOrThrow_bind hfind]
    simp only
    rw [Tx.bind_eq hcheck]
    exact h.closeFound hR _ _ hl hitem ha hn

/-! ## Preparing -/

omit [UnicodeData] [Hashlib] in
theorem insertIntent_error {i : OrderIntentRecord} {e : Exc} (h : insertIntent i s = .error e) :
    Failed e := by
  have hraises : (insertIntent i).Raises Failed := by
    refine Tx.Raises.bind (fun s e h => ?_) fun row => ?_
    · cases hr : IntentRow.ofRecord i <;> rw [hr] at h <;> cases h
      rfl
    · refine .bind (Tx.raises_ensure fun _ => rfl) fun _ => .bind Tx.raises_query fun t => ?_
      split
      · exact Tx.raises_pure
      · exact .bind (Schema.raises_execute rfl) fun _ => Tx.raises_pure
  exact hraises s e h

omit [UnicodeData] [Hashlib] in
/-- Without an insert the key is there. -/
theorem insertIntent_none {i : OrderIntentRecord} {s' : Store}
    (h : insertIntent i s = .ok (none, s')) : s' = s ∧ ∃ row found,
      IntentRow.ofRecord i = some row ∧
        lookup IntentRow.idempotencyKey s.1.orderIntents row.idempotencyKey = some found := by
  unfold insertIntent at h
  simp only [Tx.bind_ok, Tx.ensure_ok, Tx.query_ok, Tx.getOrThrow_ok] at h
  obtain ⟨row, _, ⟨hrow, rfl⟩, _, _, ⟨-, rfl⟩, _, _, ⟨rfl, rfl⟩, h⟩ := h
  split at h
  · next hfound =>
    obtain ⟨found, hfound⟩ := Option.isSome_iff_exists.1 hfound
    exact ⟨(Tx.pure_ok.1 h).2, row, found, hrow, hfound⟩
  · obtain ⟨_, _, -, h2⟩ := Tx.bind_ok.1 h
    cases (Tx.pure_ok.1 h2).1

/-- Both read the intent that has the key. -/
theorem Mirrors.onExisting (h : Mirrors s m) {key : Str} {found : IntentRow}
    (hl : lookup IntentRow.idempotencyKey s.1.orderIntents key = some found)
    {f : OrderAggregate → OrderTx α} {g : OrderAggregate → MemoryTx α}
    (hf : ∀ a, SideBySide P (f a s) (g a m)) :
    SideBySide P ((loadByKey key >>= f) s)
      ((Tx.getOrThrow (item? found.id m.byId) .exception >>= g) m) := by
  have hid := lookup_of_mem IntentRow.id s.2.1.1 (mem_of_lookup hl)
  obtain ⟨a, ha⟩ : ∃ a, item? found.id m.byId = some a := by
    cases hitem : item? found.id m.byId with
    | some a => exact ⟨a, rfl⟩
    | none =>
      rw [h.absent hitem] at hid
      cases hid
  rw [Tx.getOrThrow_bind ha]
  by_cases hs : storable key = true
  · have hload : loadByKey key s = .ok (a, s) := by
      unfold loadByKey
      rw [Tx.ensure_bind hs, Tx.query_bind, Tx.getOrThrow_bind hl]
      exact load_ok.2 ⟨rfl, h.loads ha⟩
    rw [Tx.bind_eq hload]
    exact hf a
  · have hload : loadByKey key s = .error .database := by
      unfold loadByKey
      rw [Tx.ensure_bind_not hs]
    rw [Tx.bind_eq_error hload]
    exact .lost rfl

omit [Hashlib] in
theorem insertAttempt_error {a : SupplierAttemptRecord} {e : Exc}
    (h : insertAttempt a s = .error e) : Failed e := by
  have hraises : (insertAttempt a).Raises Failed := by
    refine Tx.Raises.bind (fun s e h => ?_) fun row => Schema.raises_execute rfl
    cases hr : AttemptRow.ofRecord a <;> rw [hr] at h <;> cases h
    rfl
  exact hraises s e h

/-- A new intent is a new key in both dictionaries. -/
theorem Mirrors.insert (h : Mirrors s m) {s' : Store} {c : OrderAggregate} {row : IntentRow}
    {att : AttemptRow} (hinv : c.Invariants) (hfits : c.FitsRows) (hnew : c.deliveryAttempts = [])
    (hrow : IntentRow.ofRecord c.intent = some row)
    (hatt : AttemptRow.ofRecord c.supplierAttempt = some att)
    (hfree : lookup IntentRow.idempotencyKey s.1.orderIntents c.intent.idempotencyKey = none)
    (hs' : s'.1 = { s.1 with
      orderIntents := s.1.orderIntents ++ [row]
      supplierAttempts := s.1.supplierAttempts ++ [att] }) :
    Mirrors s' ⟨setItem c.intent.id c m.byId,
      setItem c.intent.idempotencyKey c.intent.id m.idByKey⟩ := by
  have hid : row.id = c.intent.id :=
    varchar_of_isIdentity hinv.identity (IntentRow.ofRecord_eq hrow).1
  have hl := hinv.linked
  simp only [OrderAggregate.linked, Bool.and_eq_true, decide_eq_true_eq] at hl
  have hown : att.orderIntentId = c.intent.id :=
    varchar_of_isIdentity hinv.identity (hl.1 ▸ (AttemptRow.ofRecord_eq hatt).1)
  have hkey : row.idempotencyKey = c.intent.idempotencyKey :=
    (varchar_eq_iff (IntentRow.ofRecord_eq hrow).2.1).2 hfits.key
  have hloads : Loads s'.1 c.intent.id c :=
    ((HasRows.of_prepare hinv hrow hatt hs').loads_iff hinv hnew hrow hatt).2 hfits
  have hother (id' : Str) (hne : c.intent.id ≠ id') : SameRows s.1 s'.1 id' := by
    rw [hs']
    refine ⟨?_, ?_, rfl⟩
    · rw [lookup_append, if_neg (hid ▸ hne), Option.or_none]
    · rw [lookup_append, if_neg (hown ▸ hne), Option.or_none]
  refine ⟨nodup_keys_setItem h.keys _ _, fun {id' b} hb => ?_, fun {id'} hb => ?_, fun key => ?_⟩
  · rw [item?_setItem] at hb
    split at hb
    · next e =>
      subst e
      exact Option.some.inj hb ▸ hloads
    · next hne => exact (h.loads hb).frame (hother id' hne)
  · rw [item?_setItem] at hb
    split at hb
    · cases hb
    · next hne =>
      rw [(hother id' hne).intent]
      exact h.absent hb
  · rw [item?_setItem, h.idByKey, hs', lookup_append, hkey]
    by_cases e : c.intent.idempotencyKey = key
    · subst e
      rw [if_pos rfl, if_pos rfl, hfree]
      exact congrArg some hid.symm
    · rw [if_neg e, if_neg e, Option.or_none]

theorem Mirrors.prepare (h : Mirrors s m) {c : OrderAggregate} (hfits : c.FitsRows)
    (hnew : c.deliveryAttempts = []) :
    SideBySide (fun _ s' m' => Mirrors s' m') (prepare c s) (Memory.prepare c m) := by
  refine both_ofOrder fun _ hinv => ?_
  have hinv := assertAggregateInvariants_ok.1 hinv
  refine .left (fun e => insertIntent_error) fun created s' hins => ?_
  rw [Tx.query_bind]
  cases created with
  | none =>
    obtain ⟨rfl, row, found, hrow, hl⟩ := insertIntent_none hins
    have hkey : row.idempotencyKey = c.intent.idempotencyKey :=
      (varchar_eq_iff (IntentRow.ofRecord_eq hrow).2.1).2 hfits.key
    rw [hkey] at hl
    have hitem : item? c.intent.idempotencyKey m.idByKey = some found.id := by
      rw [h.idByKey, hl]
      rfl
    simp only [hitem]
    rw [Tx.query_bind]
    exact h.onExisting hl fun a => both_ofOrder fun same _ => .ensure_bind Iff.rfl fun _ => .ok h
  | some newId =>
    obtain ⟨row, hrow, ⟨hcreated, -⟩ | ⟨-, hfree, hs'⟩⟩ := insertIntent_ok hins
    · cases hcreated
    have hkey : row.idempotencyKey = c.intent.idempotencyKey :=
      (varchar_eq_iff (IntentRow.ofRecord_eq hrow).2.1).2 hfits.key
    rw [hkey] at hfree
    have hitem : item? c.intent.idempotencyKey m.idByKey = none := by
      rw [h.idByKey, hfree]
      rfl
    simp only [hitem]
    refine .left (fun e => insertAttempt_error) fun _ s₂ hatt => ?_
    obtain ⟨att, hatt, hs₂⟩ := insertAttempt_ok hatt
    rw [Tx.bind_eq Memory.put_eq]
    exact .ok (h.insert hinv hfits hnew hrow hatt hfree (by rw [hs₂, hs']))

/-! ## One call -/

/-- What the mirror asks of a call: a candidate that its rows can hold, and a failure code that
is one, or that passes its check. -/
def RepoOp.Plain : RepoOp → Prop
  | .prepare c => c.FitsRows ∧ c.deliveryAttempts = []
  | .recordSafeFailure _ code => code.isSome = true
  | .finishDelivery _ succeeded code => Memory.checkFailure succeeded code = .ok ()
  | _ => True

/-- The dictionaries mirror tables that represent a ledger. -/
def InStep (s : Store) (m : Memory) : Prop := Mirrors s m ∧ ∃ L, Represents s.1 L

theorem InStep.empty : InStep Store.empty Memory.empty := ⟨.empty, _, .empty⟩

/-- A stored reference is the whole evidence of a success, a code that of a failure. -/
theorem Loads.evidence {t : Tables} {L : Ledger} {a : OrderAggregate} (h : Loads t id a)
    (hR : Represents t L) :
    (a.intent.purchaseState = .succeeded → a.supplierAttempt.failureCode = none) ∧
      (a.intent.purchaseState = .failedSafe →
        a.supplierAttempt.supplierOrderReference = none) := by
  obtain ⟨o, -, he⟩ := hR.of_loads h
  obtain ⟨h1, h2, h3, -⟩ := h.encodes he
  rw [h1, h2, h3]
  cases o.purchase <;> simp [Purchase.state, Purchase.reference, Purchase.failure]

theorem InStep.body (h : InStep s m) {op : RepoOp} (hop : op.Plain) (same : Bool) :
    SideBySide (fun _ s' m' => Mirrors s' m') (op.body s) (op.onMemory same m) := by
  obtain ⟨hm, L, hR⟩ := h
  cases op with
  | prepare c => exact hm.prepare hop.1 hop.2
  | get id => exact hm.get id
  | claimPrepared id => exact hm.claimPrepared hR id
  | recordSuccess id reference =>
    refine both_ofOrder fun text htext => ?_
    obtain ⟨-, hsafe⟩ := validateSafeText_ok.1 htext
    refine hm.recordEnd id (varcharOrNull_of_isSafeText hsafe) fun a ha hst => ?_
    simp [(ha.evidence hR).1 hst]
  | recordSafeFailure id code =>
    cases code with
    | none => cases hop
    | some code =>
      show SideBySide _ ((Tx.getOrThrow (some code) (.order .invalidOrderInput) >>= fun code =>
        recordTerminal id .failedSafe none (some code)) s) _
      rw [Tx.getOrThrow_bind rfl]
      refine hm.recordEnd id rfl fun a ha hst => ?_
      simp [(ha.evidence hR).2 hst]
  | recordUnknown id => exact hm.recordUnknown id
  | beginReconciliation id => exact hm.beginReconciliation id
  | createDeliveryAttempt id => exact hm.createDeliveryAttempt hR id
  | finishDelivery id succeeded code => exact hm.finishDelivery hR hop

/-- **One call on both repositories**: the same answer, and they stay in step. -/
theorem InStep.exec (h : InStep s m) {op : RepoOp} (hop : op.Plain) (same : Bool)
    (hdb : (op.exec s).1 ≠ .error .database) :
    ((op.onMemory same).commit m).1 = (op.exec s).1 ∧
      InStep (op.exec s).2 ((op.onMemory same).commit m).2 := by
  obtain ⟨L, hR⟩ := h.2
  obtain ⟨L', hR', -⟩ := exec_refines op hR
  obtain ⟨hanswer, hm'⟩ := (h.body hop same).commit h.1 fun e he hfail => hdb (hfail ▸ he)
  exact ⟨hanswer, hm', L', hR'⟩

/-- **A failure code of another type** ends the purchase in the dictionaries, and is refused by
the tables. -/
theorem otherFailure_differs {id : Str} {a : OrderAggregate} (ha : item? id m.byId = some a)
    (hopen : a.intent.purchaseState = .dispatching ∨ a.intent.purchaseState = .reconciling)
    (s : Store) (same : Bool) :
    (((RepoOp.recordSafeFailure id none).onMemory same).commit m).1 =
        .ok (a.replacePurchase .failedSafe none none) ∧
      ((RepoOp.recordSafeFailure id none).exec s).1 = .error (.order .invalidOrderInput) := by
  have hne : a.intent.purchaseState ≠ .failedSafe := by
    rintro e
    rw [e] at hopen
    rcases hopen with h | h <;> cases h
  refine ⟨?_, rfl⟩
  have hrun : Memory.recordOtherFailure id same m =
      .ok (a.replacePurchase .failedSafe none none,
        { m with byId := setItem id (a.replacePurchase .failedSafe none none) m.byId }) := by
    have hrequire : Memory.require id m = .ok (a, m) :=
      Tx.query_bind.trans (Tx.getOrThrow_ok.2 ⟨ha, rfl⟩)
    unfold Memory.recordOtherFailure Memory.recordEnd
    rw [Tx.bind_eq hrequire]
    simp only [if_neg hne]
    rw [Tx.ensure_bind hopen, Tx.bind_eq Memory.put_eq]
    rfl
  exact congrArg Prod.fst (Tx.commit_of_ok hrun)

end

end NyanShopBot.Orders
