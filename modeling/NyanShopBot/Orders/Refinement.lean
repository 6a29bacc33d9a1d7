import Mathlib.Data.List.Induction
import Mathlib.Data.List.Perm.Basic
import NyanShopBot.Orders.Ledger
import NyanShopBot.Orders.Transactions

/-!
# The order tables refine the ledger

`Represents t L`: the tables `t` store the ledger `L`, every intent with its one
attempt and its numbered deliveries. `exec_refines`: a repository operation on
tables that represent a ledger leaves tables that represent the same ledger or
one `Ledger.Step` of it. `claim_refines` and its companions say which step.
-/

namespace NyanShopBot.Orders

open Py Db

/-! ## Encoding an obligation -/

def DeliveryRow.code (r : DeliveryRow) : Int × DeliveryState × Option Str :=
  (r.attemptNumber, r.status, r.failureCode)

/-- The deliveries of an obligation as their rows store them, numbered from one. -/
def deliveryCodes (ds : List Delivery) : List (Int × DeliveryState × Option Str) :=
  ds.mapIdx fun n d => ((n : Int) + 1, d.state, d.failure)

theorem deliveryCodes_append (ds : List Delivery) (d : Delivery) :
    deliveryCodes (ds ++ [d]) = deliveryCodes ds ++
      [((ds.length : Int) + 1, d.state, d.failure)] := by
  simp [deliveryCodes, List.mapIdx_append]

theorem deliveryCodes_set (ds : List Delivery) (n : Nat) (d : Delivery) :
    deliveryCodes (ds.set n d) = (deliveryCodes ds).set n ((n : Int) + 1, d.state, d.failure) := by
  simp [deliveryCodes, List.mapIdx_set]

/-- The greatest number of `n` deliveries is `n`. -/
theorem foldl_max_deliveryCodes (ds : List Delivery) :
    ((deliveryCodes ds).map (·.1)).foldl max 0 = (ds.length : Int) := by
  induction ds using List.reverseRecOn with
  | nil => rfl
  | append_singleton ds d ih =>
    rw [deliveryCodes_append, List.map_append, List.foldl_append, ih]
    simp only [List.map_cons, List.map_nil, List.foldl_cons, List.foldl_nil, List.length_append,
      List.length_cons, List.length_nil]
    omega

theorem getElem?_deliveryCodes {ds : List Delivery} {n : Nat} :
    (deliveryCodes ds)[n]? = ds[n]?.map fun d => ((n : Int) + 1, d.state, d.failure) := by
  simp [deliveryCodes]

section

variable [UnicodeData]

/-- The attempt row of an obligation. -/
structure AttemptRow.Encodes (r : AttemptRow) (o : Obligation) : Prop where
  requestKey : r.requestKey = o.requestKey
  requestFingerprint : r.requestFingerprint = o.requestFingerprint
  requestPayload : r.requestPayload = o.payload.asDict
  status : r.status = o.purchase.state
  reference : r.supplierOrderReference = o.purchase.reference
  failure : r.failureCode = o.purchase.failure.map (·.value)

/-- The rows of the intent `id` store the obligation `o`. -/
structure Encodes (t : Tables) (id : Str) (o : Obligation) : Prop where
  intent : ∃ r, lookup IntentRow.id t.orderIntents id = some r ∧
    r.idempotencyKey = o.idempotencyKey ∧ r.purchaseState = o.purchase.state
  attempt : ∃ r, lookup AttemptRow.orderIntentId t.supplierAttempts id = some r ∧ r.Encodes o
  deliveries : (t.deliveryAttempts.filter fun r => r.orderIntentId = id).map DeliveryRow.code =
    deliveryCodes o.deliveries

/-- **The tables store the ledger.** -/
structure Represents (t : Tables) (L : Ledger) : Prop where
  present : ∀ {id o}, L id = some o → Encodes t id o
  absent : ∀ {id}, L id = none → lookup IntentRow.id t.orderIntents id = none

/-- The rows of the intent `id` are the same in both tables. -/
structure SameRows (t t' : Tables) (id : Str) : Prop where
  intent : lookup IntentRow.id t'.orderIntents id = lookup IntentRow.id t.orderIntents id
  attempt : lookup AttemptRow.orderIntentId t'.supplierAttempts id =
    lookup AttemptRow.orderIntentId t.supplierAttempts id
  deliveries : (t'.deliveryAttempts.filter fun r => r.orderIntentId = id) =
    t.deliveryAttempts.filter fun r => r.orderIntentId = id

theorem Encodes.frame {t t' : Tables} {id : Str} {o : Obligation} (h : Encodes t id o)
    (hs : SameRows t t' id) : Encodes t' id o where
  intent := hs.intent ▸ h.intent
  attempt := hs.attempt ▸ h.attempt
  deliveries := hs.deliveries ▸ h.deliveries

/-- A change of the rows of one intent changes the ledger there. -/
theorem Represents.update {t t' : Tables} {L : Ledger} {id : Str} {o : Obligation}
    (h : Represents t L) (hs : ∀ id', id' ≠ id → SameRows t t' id') (ho : Encodes t' id o) :
    Represents t' (Function.update L id (some o)) where
  present {id' o'} h' := by
    by_cases e : id' = id
    · subst e
      obtain rfl : o = o' := by simpa using h'
      exact ho
    · exact (h.present (by simpa [Function.update_of_ne e] using h')).frame (hs id' e)
  absent {id'} h' := by
    by_cases e : id' = id
    · subst e; simp at h'
    · rw [(hs id' e).intent]
      exact h.absent (by simpa [Function.update_of_ne e] using h')

theorem Represents.empty : Represents Store.empty.1 fun _ => none :=
  ⟨fun h => (by cases h), fun _ => rfl⟩

/-- The tables determine the purchase of an intent. -/
theorem Represents.purchase_eq {t : Tables} {L L' : Ledger} {id : Str} {o o' : Obligation}
    (h : Represents t L) (h' : Represents t L') (ho : L id = some o) (ho' : L' id = some o') :
    o.purchase = o'.purchase := by
  obtain ⟨r, hr, he⟩ := (h.present ho).attempt
  obtain ⟨r', hr', he'⟩ := (h'.present ho').attempt
  obtain rfl : r = r' := Option.some.inj (hr.symm.trans hr')
  exact Purchase.ext_of_columns (he.status.symm.trans he'.status)
    (he.reference.symm.trans he'.reference)
    (Option.map_injective SafeFailureCode.value_injective (he.failure.symm.trans he'.failure))

/-! ## What a loaded aggregate says of its obligation -/

variable [Hashlib]

/-- A loaded aggregate carries the state, the evidence and the request of its obligation. -/
theorem Loads.encodes {t : Tables} {id : Str} {a : OrderAggregate} {o : Obligation}
    (h : Loads t id a) (ho : Encodes t id o) :
    a.intent.purchaseState = o.purchase.state ∧
      a.supplierAttempt.supplierOrderReference = o.purchase.reference ∧
      a.supplierAttempt.failureCode = o.purchase.failure ∧
      a.supplierAttempt.requestKey = o.requestKey ∧
      a.supplierAttempt.requestPayload = o.payload := by
  obtain ⟨r, hr, hi⟩ := h.intent
  obtain ⟨r', hr', -, hst⟩ := ho.intent
  obtain rfl : r = r' := Option.some.inj (hr.symm.trans hr')
  obtain ⟨q, hq, ha⟩ := h.attempt
  obtain ⟨q', hq', he⟩ := ho.attempt
  obtain rfl : q = q' := Option.some.inj (hq.symm.trans hq')
  obtain ⟨hp, hc, -, -, -, hk, -, -, href⟩ := attemptFromRow_ok.1 ha
  refine ⟨(intentFromRow_ok hi).2.2.trans hst, href.trans he.reference, ?_, hk.trans he.requestKey,
    ?_⟩
  · exact Option.map_injective SafeFailureCode.value_injective (hc.symm.trans he.failure)
  · rw [he.requestPayload, CanonicalPurchasePayload.fromMapping_asDict] at hp
    exact (Except.ok.inj hp).symm

/-- What loads is in the ledger. -/
theorem Represents.of_loads {t : Tables} {L : Ledger} {id : Str} {a : OrderAggregate}
    (hR : Represents t L) (h : Loads t id a) : ∃ o, L id = some o ∧ Encodes t id o := by
  cases hL : L id with
  | none =>
    obtain ⟨r, hr, -⟩ := h.intent
    rw [hR.absent hL] at hr
    cases hr
  | some o => exact ⟨o, rfl, hR.present hL⟩

end

/-! ## Moving a purchase -/

theorem sameRows_setPurchase {s : Store} {id id' : Str} (hne : id' ≠ id) (st : PurchaseState)
    (reference : Option Str) (code : Option SafeFailureCode) :
    SameRows s.1 (s.setPurchase id st reference code).1 id' :=
  ⟨lookup_intent_setPurchase_other hne, lookup_attempt_setPurchase_other hne, rfl⟩

theorem IntentRow.ofRecord_eq {i : OrderIntentRecord} {row : IntentRow}
    (h : IntentRow.ofRecord i = some row) :
    varchar 36 i.id = some row.id ∧ varchar 128 i.idempotencyKey = some row.idempotencyKey ∧
      row.purchaseState = .prepared := by
  unfold IntentRow.ofRecord at h
  simp only [Option.bind_eq_bind, Option.bind_eq_some_iff, Option.pure_def, Option.some.injEq] at h
  obtain ⟨i1, h1, i2, h2, _, -, _, -, _, -, _, -, _, -, rfl⟩ := h
  exact ⟨h1, h2, rfl⟩

section

variable [UnicodeData]

/-- **Writing the state of a step moves the obligation by that step.** -/
theorem Represents.setPurchase {s : Store} {L : Ledger} {id : Str} {o : Obligation} {p : Purchase}
    (hR : Represents s.1 L) (ho : L id = some o) (hp : o.purchase.Step p) :
    Represents (s.setPurchase id p.state p.reference p.failure).1
      (Function.update L id (some (o.move p hp))) := by
  obtain ⟨⟨r, hr, hk, -⟩, ⟨q, hq, he⟩, hd⟩ := hR.present ho
  refine hR.update (fun id' hne => sameRows_setPurchase hne _ _ _) ⟨?_, ?_, hd⟩
  · refine ⟨r.setState p.state, ?_, hk, rfl⟩
    rw [lookup_intent_setPurchase, hr]; rfl
  · refine ⟨q.setPurchase p.state p.reference p.failure, ?_, ?_⟩
    · rw [lookup_attempt_setPurchase, hq]; rfl
    · exact ⟨he.requestKey, he.requestFingerprint, he.requestPayload, rfl, rfl, rfl⟩

/-- A prepared attempt has no evidence, so the claim writes what a step would. -/
theorem Represents.claim_eq {s : Store} {L : Ledger} {id : Str} {o : Obligation}
    (hR : Represents s.1 L) (ho : L id = some o) (hp : o.purchase = .prepared) :
    s.claim id = s.setPurchase id .dispatching none none := by
  obtain ⟨-, ⟨q, hq, he⟩, -⟩ := hR.present ho
  have href : q.supplierOrderReference = none := by rw [he.reference, hp]; rfl
  have hcode : q.failureCode = none := by rw [he.failure, hp]; rfl
  have hn : (s.1.supplierAttempts.map (·.orderIntentId)).Nodup := s.2.2.1.2.1
  have hrows : modify AttemptRow.orderIntentId s.1.supplierAttempts id .claim =
      modify AttemptRow.orderIntentId s.1.supplierAttempts id
        (AttemptRow.setPurchase .dispatching none none) := by
    refine modify_congr fun r hr e => ?_
    obtain rfl : q = r :=
      Option.some.inj (hq.symm.trans (e ▸ lookup_of_mem AttemptRow.orderIntentId hn hr))
    unfold AttemptRow.claim AttemptRow.setPurchase
    rw [href, hcode]
    rfl
  refine Subtype.ext ?_
  show (s.1.setIntentState id .dispatching).setAttempt id .claim =
    (s.1.setIntentState id .dispatching).setAttempt id _
  unfold Tables.setAttempt
  exact congrArg (fun rows => { s.1.setIntentState id .dispatching with supplierAttempts := rows })
    hrows

/-! ## Rows of new intents -/

theorem varchar_of_isIdentity {text v : Str} {n : Nat} (h : isIdentity text n = true)
    (hv : varchar n text = some v) : v = text := by
  simp only [isIdentity, Bool.and_eq_true, decide_eq_true_eq] at h
  rw [varchar_of_fits (storable_of_isprintable h.1.2) h.1.1.1.2] at hv
  exact (Option.some.inj hv).symm

theorem AttemptRow.ofRecord_eq {a : SupplierAttemptRecord} {row : AttemptRow}
    (h : AttemptRow.ofRecord a = some row) :
    varchar 36 a.orderIntentId = some row.orderIntentId ∧
      varchar 128 a.requestKey = some row.requestKey ∧
      row.requestPayload = a.requestPayload.asDict ∧ row.status = .prepared ∧
      row.supplierOrderReference = none ∧ row.failureCode = none := by
  unfold AttemptRow.ofRecord at h
  simp only [Option.bind_eq_bind, Option.bind_eq_some_iff, Option.pure_def, Option.some.injEq] at h
  obtain ⟨_, -, i1, h1, _, -, i2, h2, _, -, rfl⟩ := h
  exact ⟨h1, h2, rfl, rfl, rfl, rfl⟩

theorem varchar_requestKey {id key : Str} (hid : isIdentity id 36 = true)
    (hkey : key = str "purchase:" ++ id) : varchar 128 key = some key := by
  simp only [isIdentity, Bool.and_eq_true, decide_eq_true_eq] at hid
  subst hkey
  refine varchar_of_fits ?_ ?_
  · unfold storable
    rw [List.all_append, Bool.and_eq_true]
    exact ⟨by decide, storable_of_isprintable hid.1.2⟩
  · have hlen : (str "purchase:").length = 9 := by decide
    rw [List.length_append, hlen]
    have := hid.1.1.1.2
    omega

/-- The obligation that a prepare opens. -/
def Obligation.prepared (row : IntentRow) (att : AttemptRow) (payload : CanonicalPurchasePayload) :
    Obligation where
  idempotencyKey := row.idempotencyKey
  requestKey := att.requestKey
  requestFingerprint := att.requestFingerprint
  payload := payload
  purchase := .prepared
  deliveries := []
  delivered := fun h => absurd rfl h

/-- The position of a delivery row among those of its intent. -/
theorem Encodes.delivery_at {t : Tables} {id : Str} {o : Obligation} {r : DeliveryRow}
    (h : Encodes t id o) (hr : r ∈ t.deliveryAttempts) (hid : r.orderIntentId = id) :
    ∃ (n : Nat) (d : Delivery),
      (t.deliveryAttempts.filter fun r => r.orderIntentId = id)[n]? = some r ∧
      o.deliveries[n]? = some d ∧ r.code = ((n : Int) + 1, d.state, d.failure) := by
  have hmem : r ∈ t.deliveryAttempts.filter fun r => r.orderIntentId = id :=
    List.mem_filter.2 ⟨hr, by simpa using hid⟩
  obtain ⟨n, hn⟩ := List.mem_iff_getElem?.1 hmem
  have hcode : (deliveryCodes o.deliveries)[n]? = some r.code := by
    rw [← h.deliveries, List.getElem?_map, hn]; rfl
  rw [getElem?_deliveryCodes, Option.map_eq_some_iff] at hcode
  obtain ⟨d, hd, hc⟩ := hcode
  exact ⟨n, d, hn, hd, hc.symm⟩

/-- The next number of an obligation with `n` deliveries is `n + 1`. -/
theorem nextAttemptNumber_eq {t : Tables} {id : Str} {o : Obligation} (h : Encodes t id o) :
    nextAttemptNumber ((t.deliveriesOf id).map deliveryFromRow) =
      (o.deliveries.length : Int) + 1 := by
  unfold nextAttemptNumber
  rw [← foldl_max_deliveryCodes, ← h.deliveries, List.map_map, List.map_map]
  refine congrArg (· + 1) ?_
  have hperm : ((t.deliveriesOf id).map fun r => r.attemptNumber).Perm
      ((t.deliveryAttempts.filter fun r => r.orderIntentId = id).map fun r => r.attemptNumber) :=
    (List.perm_insertionSort _ _).map _
  exact hperm.foldl_eq (f := max) 0

/-! ## What the operations do to the ledger -/

theorem closeDelivery_refines {s s' : Store} {L : Ledger} {id : Str} {e : Delivery}
    {d : DeliveryAttemptRecord} (hR : Represents s.1 L)
    (h : closeDelivery id e.state e.failure s = .ok (d, s')) :
    s' = s ∨ ∃ intentId o n, L intentId = some o ∧ o.deliveries[n]? = some .pending ∧
      Represents s'.1 (Function.update L intentId (some (o.closeDelivery n e))) := by
  rcases closeDelivery_ok h with rfl | ⟨r, hr, hst, hs'⟩
  · exact .inl rfl
  right
  obtain rfl := key_of_lookup hr
  have hmem := mem_of_lookup hr
  obtain ⟨hnodup, -, -, hfk, -⟩ := s.2.2.2
  obtain ⟨o, ho⟩ : ∃ o, L r.orderIntentId = some o := by
    cases hL : L r.orderIntentId with
    | some o => exact ⟨o, rfl⟩
    | none =>
      obtain ⟨i, hi, e⟩ := List.mem_map.1 (hfk r hmem)
      exact absurd e (lookup_eq_none.1 (hR.absent hL) i hi)
  have he := hR.present ho
  obtain ⟨n, d₀, hn, hd₀, hcode⟩ := he.delivery_at hmem rfl
  have hpend : d₀ = .pending := by
    have : d₀.state = .pending := (congrArg (·.2.1) hcode).symm.trans hst
    cases d₀ <;> first | rfl | cases this
  refine ⟨r.orderIntentId, o, n, ho, hpend ▸ hd₀, hR.update (fun id' hne => ⟨?_, ?_, ?_⟩)
    ⟨?_, ?_, ?_⟩⟩
  · rw [hs']
  · rw [hs']
  · rw [hs']
    refine (filter_modify (f := DeliveryRow.finish e.state e.failure) fun _ _ _ => rfl).trans
      (modify_of_absent fun r' hr' hid => hne ?_)
    obtain ⟨hr', ho'⟩ := List.mem_filter.1 hr'
    rw [← List.inj_on_of_nodup_map hnodup hr' hmem hid]
    exact (by simpa using ho' : r'.orderIntentId = id').symm
  · rw [hs']; exact he.intent
  · rw [hs']
    obtain ⟨q, hq, hk⟩ := he.attempt
    exact ⟨q, hq, ⟨hk.requestKey, hk.requestFingerprint, hk.requestPayload, hk.status, hk.reference,
      hk.failure⟩⟩
  · have hsub : ((s.1.deliveryAttempts.filter fun q => q.orderIntentId = r.orderIntentId).map
        DeliveryRow.id).Nodup := hnodup.sublist (List.filter_sublist.map _)
    have hnum : r.attemptNumber = (n : Int) + 1 := congrArg (·.1) hcode
    have hfilter : s'.1.deliveryAttempts.filter (fun q => q.orderIntentId = r.orderIntentId) =
        (s.1.deliveryAttempts.filter fun q => q.orderIntentId = r.orderIntentId).set n
          (r.finish e.state e.failure) := by
      rw [hs', ← modify_eq_set hsub hn]
      exact filter_modify (f := DeliveryRow.finish e.state e.failure) fun _ _ _ => rfl
    rw [hfilter, List.map_set, he.deliveries]
    simp only [Obligation.closeDelivery, deliveryCodes_set]
    rw [show (r.finish e.state e.failure).code = ((n : Int) + 1, e.state, e.failure) by
      simp [DeliveryRow.code, DeliveryRow.finish, hnum]]

variable [Hashlib]

/-- A claim that succeeds takes a prepared obligation and returns its request. -/
theorem claim_refines {s s' : Store} {L : Ledger} {id : Str} {a : OrderAggregate}
    (hR : Represents s.1 L) (h : claimPrepared id s = .ok (some a, s')) :
    ∃ o, ∃ hp : o.purchase = .prepared, L id = some o ∧
      a.supplierAttempt.requestKey = o.requestKey ∧ a.supplierAttempt.requestPayload = o.payload ∧
      Represents s'.1 (Function.update L id (some (o.move .dispatching (hp ▸ .claim)))) := by
  obtain ⟨b, hl, ⟨-, hr, -⟩ | ⟨hst, hr, rfl⟩⟩ := claimPrepared_ok.1 h
  · cases hr
  · obtain rfl := Option.some.inj hr
    obtain ⟨o, ho, he⟩ := hR.of_loads hl
    obtain ⟨h1, -, -, hk, hp⟩ := hl.encodes he
    have hprep : o.purchase = .prepared :=
      Purchase.eq_of_state (h1.symm.trans hst) (.inl rfl)
    refine ⟨o, hprep, ho, hk, hp, ?_⟩
    rw [hR.claim_eq ho hprep]
    exact hR.setPurchase ho (p := .dispatching) (hprep ▸ .claim)

theorem recordTerminal_refines {s s' : Store} {L : Ledger} {id : Str} {a : OrderAggregate}
    {p : Purchase} (hR : Represents s.1 L) (hp : ∀ q : Purchase, q.Open → q.Step p)
    (href : varcharOrNull 128 p.reference = some p.reference)
    (h : recordTerminal id p.state p.reference p.failure s = .ok (a, s')) :
    ∃ o, L id = some o ∧ ((o.purchase = p ∧ s' = s) ∨ ∃ hs : o.purchase.Step p,
      Represents s'.1 (Function.update L id (some (o.move p hs)))) := by
  obtain ⟨b, hl, hcase⟩ := (recordTerminal_ok href).1 h
  obtain ⟨o, ho, he⟩ := hR.of_loads hl
  obtain ⟨h1, h2, h3, -, -⟩ := hl.encodes he
  refine ⟨o, ho, ?_⟩
  rcases hcase with ⟨hst, hr, hc, -, rfl⟩ | ⟨-, hopen, -, rfl⟩
  · exact .inl ⟨Purchase.ext_of_columns (h1.symm.trans hst) (h2.symm.trans hr) (h3.symm.trans hc),
      rfl⟩
  · rw [h1] at hopen
    have hs := hp o.purchase (Purchase.open_iff.2 hopen)
    exact .inr ⟨hs, hR.setPurchase ho hs⟩

theorem recordUnknown_refines {s s' : Store} {L : Ledger} {id : Str} {a : OrderAggregate}
    (hR : Represents s.1 L) (h : recordUnknown id s = .ok (a, s')) :
    ∃ o, L id = some o ∧ (((o.purchase = .unknown ∨ o.purchase = .reconciling) ∧ s' = s) ∨
      ∃ hs : o.purchase.Step .unknown,
        Represents s'.1 (Function.update L id (some (o.move .unknown hs)))) := by
  obtain ⟨b, hl, hcase⟩ := recordUnknown_ok.1 h
  obtain ⟨o, ho, he⟩ := hR.of_loads hl
  have h1 := (hl.encodes he).1
  refine ⟨o, ho, ?_⟩
  rcases hcase with ⟨hst | hst, -, rfl⟩ | ⟨hst, -, rfl⟩
  · exact .inl ⟨.inl (Purchase.eq_of_state (h1.symm.trans hst) (by simp)), rfl⟩
  · exact .inl ⟨.inr (Purchase.eq_of_state (h1.symm.trans hst) (by simp)), rfl⟩
  · have hd : o.purchase = .dispatching := Purchase.eq_of_state (h1.symm.trans hst) (by simp)
    exact .inr ⟨hd ▸ .lose, hR.setPurchase ho (p := .unknown) (hd ▸ .lose)⟩

theorem beginReconciliation_refines {s s' : Store} {L : Ledger} {id : Str}
    {r : ReconciliationStart} (hR : Represents s.1 L) (h : beginReconciliation id s = .ok (r, s')) :
    ∃ o, L id = some o ∧ (s' = s ∨ ∃ hs : o.purchase.Step .reconciling,
      Represents s'.1 (Function.update L id (some (o.move .reconciling hs)))) := by
  obtain ⟨b, hl, hcase⟩ := beginReconciliation_ok.1 h
  obtain ⟨o, ho, he⟩ := hR.of_loads hl
  have h1 := (hl.encodes he).1
  refine ⟨o, ho, ?_⟩
  rcases hcase with ⟨hst, -, rfl⟩ | ⟨-, -, rfl⟩ | ⟨-, -, rfl⟩
  · have hu : o.purchase = .unknown := Purchase.eq_of_state (h1.symm.trans hst) (by simp)
    exact .inr ⟨hu ▸ .reconcile, hR.setPurchase ho (p := .reconciling) (hu ▸ .reconcile)⟩
  · exact .inl rfl
  · exact .inl rfl

/-! ## Deliveries -/

theorem createDeliveryAttempt_refines {s s' : Store} {L : Ledger} {id : Str}
    {d : DeliveryAttemptRecord} (hR : Represents s.1 L)
    (h : createDeliveryAttempt id s = .ok (d, s')) :
    ∃ o, ∃ hs : o.purchase.state = .succeeded, L id = some o ∧
      Represents s'.1 (Function.update L id (some (o.openDelivery hs))) := by
  obtain ⟨a, rowId, rowKey, hl, hst, hs'⟩ := createDeliveryAttempt_ok h
  obtain ⟨o, ho, he⟩ := hR.of_loads hl
  have hsucc : o.purchase.state = .succeeded := (hl.encodes he).1.symm.trans hst
  refine ⟨o, hsucc, ho, hR.update (fun id' hne => ⟨by rw [hs'], by rw [hs'], ?_⟩) ⟨?_, ?_, ?_⟩⟩
  · rw [hs']; simp [List.filter_append, Ne.symm hne]
  · rw [hs']; exact he.intent
  · rw [hs']
    obtain ⟨r, hr, hk⟩ := he.attempt
    exact ⟨r, hr, ⟨hk.requestKey, hk.requestFingerprint, hk.requestPayload, hk.status, hk.reference,
      hk.failure⟩⟩
  · rw [hs', hl.deliveries, nextAttemptNumber_eq he]
    simp only [List.filter_append, List.map_append, he.deliveries, Obligation.openDelivery,
      deliveryCodes_append]
    simp [DeliveryRow.code, Delivery.state, Delivery.failure]

/-! ## New intents -/

/-- A prepare that creates opens an obligation under a new intent and a new key. -/
theorem prepare_refines {c : OrderAggregate} {s s' : Store} {L : Ledger} {r : PrepareResult}
    (hR : Represents s.1 L) (h : prepare c s = .ok (r, s')) (hc : r.created = true) :
    r.aggregate = c ∧ ∃ o : Obligation, L c.intent.id = none ∧
      (∀ id' o', L id' = some o' → o'.idempotencyKey ≠ o.idempotencyKey) ∧
      o.purchase = .prepared ∧ o.deliveries = [] ∧
      varchar 128 c.intent.idempotencyKey = some o.idempotencyKey ∧
      o.requestKey = c.supplierAttempt.requestKey ∧ o.payload = c.supplierAttempt.requestPayload ∧
      Represents s'.1 (Function.update L c.intent.id (some o)) := by
  obtain ⟨hinv, ⟨hf, -⟩ | ⟨rfl, row, att, hrow, hatt, hfree, hs'⟩⟩ := prepare_ok h
  · rw [hf] at hc; cases hc
  obtain ⟨hi1, hi2, hi3⟩ := IntentRow.ofRecord_eq hrow
  obtain ⟨ha1, ha2, ha3, ha4, ha5, ha6⟩ := AttemptRow.ofRecord_eq hatt
  have hid : row.id = c.intent.id := varchar_of_isIdentity hinv.identity hi1
  have hlink : c.supplierAttempt.orderIntentId = c.intent.id := by
    have := hinv.linked
    simp only [OrderAggregate.linked, Bool.and_eq_true, decide_eq_true_eq] at this
    exact this.1.symm
  have haid : att.orderIntentId = c.intent.id := by
    rw [hlink] at ha1
    exact varchar_of_isIdentity hinv.identity ha1
  have hkey : att.requestKey = c.supplierAttempt.requestKey := by
    rw [varchar_requestKey hinv.identity hinv.requestKey] at ha2
    exact (Option.some.inj ha2).symm
  have hfresh : ∀ r ∈ s.1.orderIntents, r.id ≠ row.id := by
    have hn := s'.2.1.1
    rw [hs'] at hn
    simp only [List.map_append, List.map_cons, List.map_nil] at hn
    intro r hr e
    exact (List.nodup_append.1 hn).2.2 _ (List.mem_map_of_mem hr) _ (by simp) e
  rw [hid] at hfresh
  have habsent : L c.intent.id = none := by
    cases hL : L c.intent.id with
    | none => rfl
    | some o =>
      obtain ⟨r, hr, -⟩ := (hR.present hL).intent
      exact absurd (key_of_lookup hr) (hfresh r (mem_of_lookup hr))
  have hnoRow {β : Type} (col : β → Str) (rows : List β)
      (hfk : ∀ r ∈ rows, col r ∈ s.1.orderIntents.map (·.id)) :
      ∀ r ∈ rows, col r ≠ c.intent.id := by
    intro r hr e
    obtain ⟨i, hi, hie⟩ := List.mem_map.1 (hfk r hr)
    exact hfresh i hi (hie.trans e)
  have hatts := lookup_eq_none.2 (hnoRow AttemptRow.orderIntentId _ s.2.2.1.2.2.2.1)
  have hdels := hnoRow DeliveryRow.orderIntentId _ s.2.2.2.2.2.2.1
  refine ⟨rfl, .prepared row att c.supplierAttempt.requestPayload, habsent, ?_, rfl, rfl, hi2, hkey,
    rfl, hR.update (fun id' hne => ⟨?_, ?_, by rw [hs']⟩) ⟨⟨row, ?_, rfl, hi3⟩, ⟨att, ?_, ?_⟩, ?_⟩⟩
  · intro id' o' ho' e
    obtain ⟨r, hr, hk, -⟩ := (hR.present ho').intent
    exact lookup_eq_none.1 hfree r (mem_of_lookup hr) (hk.trans e)
  · rw [hs', lookup_append, if_neg (by rw [hid]; exact Ne.symm hne), Option.or_none]
  · rw [hs', lookup_append, if_neg (by rw [haid]; exact Ne.symm hne), Option.or_none]
  · rw [hs', lookup_append, lookup_eq_none.2 hfresh, if_pos hid]; rfl
  · rw [hs', lookup_append, hatts, if_pos haid]; rfl
  · exact ⟨rfl, rfl, ha3, ha4, ha5, ha6⟩
  · rw [hs', List.filter_eq_nil_iff.2 fun r hr => by simpa using hdels r hr]; rfl

/-! ## The refinement -/

/-- The obligation `o` under the intent `id` is the one that preparing `c` opens. -/
structure Opens (c : OrderAggregate) (id : Str) (o : Obligation) : Prop where
  invariants : c.Invariants
  id : c.intent.id = id
  idempotencyKey : varchar 128 c.intent.idempotencyKey = some o.idempotencyKey
  requestKey : o.requestKey = c.supplierAttempt.requestKey
  payload : o.payload = c.supplierAttempt.requestPayload

/-- The operation that moves the purchase of the intent to `p`. -/
def RepoOp.Causes (op : RepoOp) (id : Str) : Purchase → Prop
  | .prepared => False
  | .dispatching => op = .claimPrepared id
  | .succeeded reference => op = .recordSuccess id (some reference)
  | .failedSafe code => op = .recordSafeFailure id (some code)
  | .unknown => op = .recordUnknown id
  | .reconciling => op = .beginReconciliation id

/-- An operation leads from one ledger to the other: by a step or none, only a
prepare opens an obligation, and each move has its own operation. -/
structure Leads (op : RepoOp) (L L' : Ledger) : Prop where
  step : L' = L ∨ L.Step L'
  opens : ∀ {id o}, L id = none → L' id = some o → ∃ c, op = .prepare c ∧ Opens c id o
  causes : ∀ {id o o'}, L id = some o → L' id = some o' →
    o'.purchase = o.purchase ∨ op.Causes id o'.purchase

theorem Leads.same (op : RepoOp) (L : Ledger) : Leads op L L :=
  ⟨.inl rfl, fun h h' => (by rw [h] at h'; cases h'),
    fun h h' => (by rw [h] at h'; cases h'; exact .inl rfl)⟩

/-- A step of an obligation that is there opens none. -/
theorem Leads.update {op : RepoOp} {L : Ledger} {id : Str} {o o' : Obligation} (ho : L id = some o)
    (hs : L.Step (Function.update L id (some o')))
    (hc : o'.purchase = o.purchase ∨ op.Causes id o'.purchase) :
    Leads op L (Function.update L id (some o')) := by
  refine ⟨.inr hs, fun {id' _} h h' => ?_, fun {id' o₁ o₂} h h' => ?_⟩
  · have e : id' ≠ id := fun e => by rw [e, ho] at h; cases h
    simp [Function.update_of_ne e, h] at h'
  · by_cases e : id' = id
    · subst e
      obtain rfl : o = o₁ := Option.some.inj (ho.symm.trans h)
      obtain rfl : o' = o₂ := by simpa using h'
      exact hc
    · rw [Function.update_of_ne e, h] at h'
      cases h'
      exact .inl rfl

/-- **A repository operation is one step of the ledger or none.** -/
theorem exec_refines (op : RepoOp) {s : Store} {L : Ledger} (hR : Represents s.1 L) :
    ∃ L', Represents (op.exec s).2.1 L' ∧ Leads op L L' := by
  rcases Tx.commit_cases op.body s with ⟨e, h⟩ | ⟨a, s', h, hbody⟩
  · exact ⟨L, by rw [RepoOp.exec, h]; exact hR, .same op L⟩
  rw [RepoOp.exec, h]
  have hsame : s' = s → ∃ L', Represents s'.1 L' ∧ Leads op L L' := by
    rintro rfl; exact ⟨L, hR, .same op L⟩
  cases op with
  | prepare c =>
    by_cases hc : a.created = true
    · obtain ⟨-, o, hnew, hkey, hp, hd, hk, hr, hpay, hR'⟩ := prepare_refines hR hbody hc
      refine ⟨_, hR', .inr (.opened hnew hkey hp hd), fun {id o'} h h' => ⟨c, rfl, ?_⟩,
        fun {id o₁ o₂} h h' => .inl ?_⟩
      · by_cases e : id = c.intent.id
        · subst e
          obtain rfl : o = o' := by simpa using h'
          exact ⟨(prepare_ok hbody).1, rfl, hk, hr, hpay⟩
        · simp [Function.update_of_ne e, h] at h'
      · have e : id ≠ c.intent.id := fun e => by rw [e, hnew] at h; cases h
        rw [Function.update_of_ne e, h] at h'
        cases h'
        rfl
    · obtain ⟨-, ⟨-, hs, -⟩ | ⟨rfl, -⟩⟩ := prepare_ok hbody
      · exact hsame hs
      · exact absurd rfl hc
  | get id => exact hsame (load_ok.1 hbody).1
  | claimPrepared id =>
    cases a with
    | none =>
      obtain ⟨b, -, ⟨-, -, hs⟩ | ⟨-, hr, -⟩⟩ := claimPrepared_ok.1 hbody
      · exact hsame hs
      · cases hr
    | some a =>
      obtain ⟨o, hp, ho, -, -, hR'⟩ := claim_refines hR hbody
      exact ⟨_, hR', .update ho (.moved _ ho) (.inr rfl)⟩
  | recordSuccess id value =>
    obtain ⟨text, rfl, hsafe, hrec⟩ := recordSuccess_ok.1 hbody
    obtain ⟨o, ho, ⟨-, hs⟩ | ⟨hs, hR'⟩⟩ := recordTerminal_refines (p := .succeeded text) hR
      (fun _ hq => .succeed text hq) (varcharOrNull_of_isSafeText hsafe) hrec
    · exact hsame hs
    · exact ⟨_, hR', .update ho (.moved hs ho) (.inr rfl)⟩
  | recordSafeFailure id value =>
    obtain ⟨code, rfl, hrec⟩ := recordSafeFailure_ok.1 hbody
    obtain ⟨o, ho, ⟨-, hs⟩ | ⟨hs, hR'⟩⟩ := recordTerminal_refines (p := .failedSafe code) hR
      (fun _ hq => .fail code hq) rfl hrec
    · exact hsame hs
    · exact ⟨_, hR', .update ho (.moved hs ho) (.inr rfl)⟩
  | recordUnknown id =>
    obtain ⟨o, ho, ⟨-, hs⟩ | ⟨hs, hR'⟩⟩ := recordUnknown_refines hR hbody
    · exact hsame hs
    · exact ⟨_, hR', .update ho (.moved hs ho) (.inr rfl)⟩
  | beginReconciliation id =>
    obtain ⟨o, ho, hs | ⟨hs, hR'⟩⟩ := beginReconciliation_refines hR hbody
    · exact hsame hs
    · exact ⟨_, hR', .update ho (.moved hs ho) (.inr rfl)⟩
  | createDeliveryAttempt id =>
    obtain ⟨o, hs, ho, hR'⟩ := createDeliveryAttempt_refines hR hbody
    exact ⟨_, hR', .update ho (.deliveryOpened hs ho) (.inl rfl)⟩
  | finishDelivery id succeeded code =>
    rcases finishDelivery_ok hbody with hclose | ⟨text, -, hclose⟩
    · rcases closeDelivery_refines (e := .succeeded) hR hclose with hs | ⟨_, o, n, ho, hn, hR'⟩
      · exact hsame hs
      · exact ⟨_, hR', .update ho (.deliveryClosed ho hn (by decide)) (.inl rfl)⟩
    · rcases closeDelivery_refines (e := .failed text) hR hclose with hs | ⟨_, o, n, ho, hn, hR'⟩
      · exact hsame hs
      · exact ⟨_, hR', .update ho (.deliveryClosed ho hn (by simp)) (.inl rfl)⟩

end

end NyanShopBot.Orders
