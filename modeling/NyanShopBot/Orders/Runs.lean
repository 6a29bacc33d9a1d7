import NyanShopBot.Orders.Aggregate
import NyanShopBot.Orders.Calls

/-!
# Runs of the order service

`RunInv` is the invariant of every run of `ordersSystem` from the empty store:
the tables represent a ledger, every call is where its stage says, an intent was
stored by the first prepare of its key, and a claim belongs to one call that has
not yet sent a purchase. `run_inv` proves it by the invariant rule of the runs,
with `RunInv.quiet`, `RunInv.claim` and `RunInv.purchase` for the three kinds of
step.
-/

namespace NyanShopBot.Orders

open Py Db Conc

/-- The stored purchase state of an intent. -/
def Tables.purchaseState (t : Tables) (id : Str) : Option PurchaseState :=
  (lookup IntentRow.id t.orderIntents id).map (·.purchaseState)

section

variable [UnicodeData]

theorem Represents.purchaseState {t : Tables} {L : Ledger} (hR : Represents t L) (id : Str) :
    t.purchaseState id = (L id).map (·.purchase.state) := by
  unfold Tables.purchaseState
  cases hL : L id with
  | none => rw [hR.absent hL]; rfl
  | some o =>
    obtain ⟨r, hr, -, hst⟩ := (hR.present hL).intent
    rw [hr]
    exact congrArg some hst

/-- Every obligation is kept or moved on. -/
def Ledger.Later (L L' : Ledger) : Prop :=
  ∀ {id : Str} {o : Obligation}, L id = some o → ∃ o', L' id = some o' ∧ o.Later o'

variable [Hashlib]

/-! ## Effects -/

theorem Leads.later {op : RepoOp} {L L' : Ledger} (h : Leads op L L') : L.Later L' := by
  intro id o ho
  rcases h.step with rfl | hs
  · exact ⟨o, ho, .refl o⟩
  · exact hs.later ho

/-- What an effect does to the stored ledger. -/
structure EffectLeads (op : ServiceOp) (s s' : Store) (L L' : Ledger) : Prop where
  represents : Represents s'.1 L'
  later : L.Later L'
  opens : ∀ {id o}, L id = none → L' id = some o →
    ∃ c, op = .repo (.prepare c) ∧ o.purchase = .prepared ∧ Opens c id o
  causes : ∀ {id o o'}, L id = some o → L' id = some o' →
    o'.purchase = o.purchase ∨ ∃ rop, op = .repo rop ∧ rop.Causes id o'.purchase
  writes : Writes s s'.1

theorem Effect.leads {s s' : Store} {op : ServiceOp} {r : Except Exc op.Res} {L : Ledger}
    (h : Effect s op r s') (hR : Represents s.1 L) : ∃ L', EffectLeads op s s' L L' := by
  have hsame (e : s' = s) : ∃ L', EffectLeads op s s' L L' := by
    subst e
    exact ⟨L, hR, fun h => ⟨_, h, .refl _⟩, fun h h' => (by rw [h] at h'; cases h'),
      fun h h' => (by rw [h] at h'; cases h'; exact .inl rfl), .nothing rfl⟩
  cases op with
  | repo op =>
    have hexec (e : s' = (op.exec s).2) : ∃ L', EffectLeads (.repo op) s s' L L' := by
      subst e
      obtain ⟨L', hR', hl⟩ := exec_refines op hR
      refine ⟨L', hR', hl.later, fun {id o} hnew ho => ?_,
        fun h h' => (hl.causes h h').imp_right fun hc => ⟨op, rfl, hc⟩, exec_writes op s⟩
      obtain ⟨c, rfl, hopens⟩ := hl.opens hnew ho
      refine ⟨c, rfl, ?_, hopens⟩
      rcases hl.step with rfl | hs
      · rw [hnew] at ho; cases ho
      · exact hs.new hnew ho
    rcases h with h | ⟨e, -, h | h⟩
    · exact hexec (congrArg Prod.snd h)
    · exact hsame h
    · exact hexec h
  | _ => exact hsame h

/-- An operation that returns has committed. -/
theorem Effect.body_ok {s s' : Store} {op : RepoOp} {a : op.Res}
    (h : Effect s (.repo op) (.ok a) s') : op.body s = .ok (a, s') := by
  rcases h with h | ⟨e, h, -⟩
  · have h1 : (op.body.commit s).1 = .ok a := (congrArg Prod.fst h).symm
    rw [Tx.commit_ok.1 h1]
    exact congrArg (fun s => Except.ok (a, s)) (congrArg Prod.snd h).symm
  · cases h

/-- An intent that loads keeps loading. -/
theorem Loads.later {s s' : Store} {L' : Ledger} {id : Str} {a : OrderAggregate}
    (h : Loads s.1 id a) (hw : Writes s s'.1) (hR' : Represents s'.1 L') :
    ∃ a', Loads s'.1 id a' := by
  obtain ⟨r, hr, hi⟩ := h.intent
  obtain ⟨q, hq, ha⟩ := h.attempt
  obtain ⟨hp, -, h1, h2, h3, h4, h5, -, -⟩ := attemptFromRow_ok.1 ha
  obtain ⟨st, hr'⟩ := hw.intent_row (mem_of_lookup hr)
  obtain ⟨st', ref, code, hq'⟩ := hw.attempt_row (mem_of_lookup hq)
  have hlr := lookup_of_mem IntentRow.id s'.2.1.1 hr'
  have hlq := lookup_of_mem AttemptRow.orderIntentId s'.2.2.1.2.1 hq'
  obtain ⟨o, ho, he⟩ := hR'.attempt_row hq'
  obtain ⟨o', ho', -, hst⟩ := hR'.intent_row hr'
  have hrid : r.id = id := key_of_lookup hr
  have hqid : q.orderIntentId = id := key_of_lookup hq
  obtain rfl : o = o' := by
    simp only [hqid, hrid] at ho ho'
    exact Option.some.inj (ho.symm.trans ho')
  have hcode : code = o.purchase.failure.map (·.value) := he.failure
  refine ⟨⟨{ a.intent with purchaseState := st },
    { a.supplierAttempt with
      status := st', supplierOrderReference := ref, failureCode := o.purchase.failure },
    (s'.1.deliveriesOf id).map deliveryFromRow⟩, h.storable,
    ⟨r.setState st, ?_, intentFromRow_setState hi st⟩,
    ⟨{ q with status := st', supplierOrderReference := ref, failureCode := code }, ?_,
      attemptFromRow_ok.2 ⟨hp, hcode, h1, h2, h3, h4, h5, rfl, rfl⟩⟩, rfl, ?_⟩
  · exact hrid ▸ hlr
  · exact hqid ▸ hlq
  · obtain ⟨hl, hid, hk, hc⟩ := h.invariants
    refine ⟨?_, hid, hk, hc⟩
    simp only [OrderAggregate.linked, Bool.and_eq_true, decide_eq_true_eq] at hl
    have hstatus : st = st' := hst.trans he.status.symm
    simp [OrderAggregate.linked, hl.1, hstatus]

/-! ## Stages -/

abbrev OrdersTrace : Type := List (Trans (ordersSystem))

/-- How far process `pid` has come after the trace. -/
abbrev stageOf (pid : Nat) (tr : OrdersTrace) : Option Stage :=
  ghost callProtocol ServiceCall.stage pid tr

/-- The intent is claimed and can be loaded. -/
structure Claimed (s : Store) (L : Ledger) (key id : Str) : Prop where
  obligation : ∃ o, L id = some o ∧ o.idempotencyKey = key ∧ o.purchase ≠ .prepared
  loads : ∃ a, Loads s.1 id a

/-- What the stage of a call says about the store. -/
def StageOk (s : Store) (L : Ledger) : Stage → Prop
  | .idle key => isIdentity key 128 = true
  | .prepared key id => ∃ o, L id = some o ∧ o.idempotencyKey = key
  | .claimed key id a => Claimed s L key id ∧
    ∃ o, L id = some o ∧ supplierRequest a = ⟨o.requestKey, o.payload⟩
  | .sent key id _ | .recorded key id _ _ => Claimed s L key id
  | .started id a => ∃ o, L id = some o ∧ supplierRequest a = ⟨o.requestKey, o.payload⟩
  | .other | .recovering _ | .reconciled _ _ => True

theorem Claimed.later {op : ServiceOp} {s s' : Store} {L L' : Ledger} {key id : Str}
    (h : Claimed s L key id) (he : EffectLeads op s s' L L') : Claimed s' L' key id := by
  obtain ⟨o, ho, hk, hp⟩ := h.obligation
  obtain ⟨a, ha⟩ := h.loads
  obtain ⟨o', ho', hl⟩ := he.later ho
  exact ⟨⟨o', ho', hl.idempotencyKey.trans hk, hl.purchase.not_prepared hp⟩,
    ha.later he.writes he.represents⟩

theorem StageOk.later {op : ServiceOp} {s s' : Store} {L L' : Ledger} {g : Stage}
    (h : StageOk s L g) (he : EffectLeads op s s' L L') : StageOk s' L' g := by
  have hreq {id : Str} {a : OrderAggregate}
      (h : ∃ o, L id = some o ∧ supplierRequest a = ⟨o.requestKey, o.payload⟩) :
      ∃ o, L' id = some o ∧ supplierRequest a = ⟨o.requestKey, o.payload⟩ := by
    obtain ⟨o, ho, hr⟩ := h
    obtain ⟨o', ho', hl⟩ := he.later ho
    exact ⟨o', ho', by rw [hr, hl.requestKey, hl.payload]⟩
  cases g with
  | idle key => exact h
  | prepared key id =>
    obtain ⟨o, ho, hk⟩ := h
    obtain ⟨o', ho', hl⟩ := he.later ho
    exact ⟨o', ho', hl.idempotencyKey.trans hk⟩
  | claimed key id a => exact ⟨h.1.later he, hreq h.2⟩
  | sent key id outcome => exact Claimed.later h he
  | recorded key id outcome r => exact Claimed.later h he
  | started id a => exact hreq h
  | other => trivial
  | recovering => trivial
  | reconciled => trivial

/-- The intent that a prepare returns is stored under its key. -/
theorem prepare_stage {s s' : Store} {L' : Ledger} {c : OrderAggregate} {r : PrepareResult}
    (h : prepare c s = .ok (r, s')) (hR' : Represents s'.1 L')
    (hkey : isIdentity c.intent.idempotencyKey 128 = true) :
    ∃ o, L' r.aggregate.intent.id = some o ∧ o.idempotencyKey = c.intent.idempotencyKey := by
  have hrow {row : IntentRow} (hmem : row ∈ s'.1.orderIntents) {id : Str} (hid : row.id = id)
      (hk : row.idempotencyKey = c.intent.idempotencyKey) :
      ∃ o, L' id = some o ∧ o.idempotencyKey = c.intent.idempotencyKey := by
    subst hid
    obtain ⟨o, ho, he, -⟩ := hR'.intent_row hmem
    obtain ⟨r, hr, hrk, -⟩ := he.intent
    obtain rfl : row = r := Option.some.inj
      ((lookup_of_mem IntentRow.id s'.2.1.1 hmem).symm.trans hr)
    exact ⟨o, ho, hrk.symm.trans hk⟩
  obtain ⟨hinv, ⟨-, rfl, id, hl, row, hrow', hid⟩ | ⟨rfl, row, att, hrow', -, -, hs'⟩⟩ :=
    prepare_ok h
  · rw [hl.id_eq]
    exact hrow (mem_of_lookup hrow') hid (key_of_lookup hrow')
  · obtain ⟨h1, h2, -⟩ := IntentRow.ofRecord_eq hrow'
    refine hrow (by rw [hs']; exact List.mem_append_right _ List.mem_cons_self)
      (varchar_of_isIdentity hinv.identity h1)
      (varchar_of_isIdentity hkey h2)

/-- The stage after a step in order is right again. -/
theorem StageOk.next {s s' : Store} {L L' : Ledger} {g : Stage} {op : ServiceOp}
    {r : Except Exc op.Res} (h : StageOk s L g) (hR : Represents s.1 L) (hok : g.ok op)
    (hE : Effect s op r s') (he : EffectLeads op s s' L L') : StageOk s' L' (g.next op r) := by
  have hl := h.later he
  have hrec {r : Except Exc OrderAggregate} : StageOk s' L' (g.record r) := by
    cases g <;> exact hl
  cases op with
  | repo op =>
    cases op with
    | prepare c =>
      obtain rfl := hok
      cases r with
      | error e => exact hl
      | ok r => exact prepare_stage hE.body_ok he.represents h
    | claimPrepared id =>
      obtain ⟨key, rfl⟩ := hok
      match r with
      | .error e => exact hl
      | .ok none => exact hl
      | .ok (some a) =>
        have hbody := hE.body_ok
        obtain ⟨o, ho, hk⟩ := h
        obtain ⟨o₁, hp, ho₁, hreq, hpay, hR₁⟩ := claim_refines hR hbody
        obtain rfl : o = o₁ := Option.some.inj (ho.symm.trans ho₁)
        obtain ⟨o', ho', hlater⟩ := he.later ho
        have hst : o'.purchase ≠ .prepared := by
          have h1 := hR₁.purchaseState id
          rw [he.represents.purchaseState id, ho'] at h1
          intro e
          simp [e, Obligation.move, Purchase.state] at h1
        obtain ⟨b, hload, -⟩ := claimPrepared_ok.1 hbody
        refine ⟨⟨⟨o', ho', hlater.idempotencyKey.trans hk, hst⟩,
          hload.later he.writes he.represents⟩, o', ho', ?_⟩
        rw [hlater.requestKey, hlater.payload, ← hreq, ← hpay]
        rfl
    | beginReconciliation id =>
      obtain rfl := hok
      cases r with
      | error e => exact hl
      | ok started =>
        obtain ⟨a, hload, hcase⟩ := beginReconciliation_ok.1 hE.body_ok
        obtain ⟨o, ho, henc⟩ := hR.of_loads hload
        obtain ⟨-, -, -, hreq, hpay⟩ := hload.encodes henc
        obtain ⟨o', ho', hlater⟩ := he.later ho
        refine ⟨o', ho', ?_⟩
        rw [hlater.requestKey, hlater.payload, ← hreq, ← hpay]
        rcases hcase with ⟨-, rfl, -⟩ | ⟨-, rfl, -⟩ | ⟨-, rfl, -⟩ <;> rfl
    | recordSuccess => exact hrec
    | recordSafeFailure => exact hrec
    | recordUnknown => exact hrec
    | get => exact hl
    | createDeliveryAttempt => exact hl
    | finishDelivery => exact hl
  | purchase request =>
    obtain ⟨key, id, a, rfl, -⟩ := hok
    exact hl.1
  | reconcile request =>
    obtain ⟨id, a, rfl, -⟩ := hok
    trivial
  | _ => exact hl

/-! ## What is said of a trace -/

/-- The event sends a purchase for the intent. -/
def purchases (id : Str) : Event ordersSystem → Bool
  | .act _ (.purchase request) _ => request.requestKey = str "purchase:" ++ id
  | _ => false

/-- How often a purchase for the intent was sent. -/
def purchaseCount (id : Str) (tr : OrdersTrace) : Nat :=
  (tr.filter fun t => purchases id t.event).length

/-- The transition is the prepare that first stored the key, under the intent
`id` and with the request. -/
structure FirstPrepare (t : Trans ordersSystem) (id key : Str) (request : SupplierPurchaseRequest) :
    Prop where
  event : ∃ pid c r, t.event = .act pid (.repo (.prepare c)) r ∧ c.intent.id = id ∧
    supplierRequest c = request
  absent : ∀ i ∈ t.pre.1.orderIntents, i.idempotencyKey ≠ key
  intent : ∃ i ∈ t.post.1.orderIntents, i.id = id ∧ i.idempotencyKey = key
  attempt : ∃ a ∈ t.post.1.supplierAttempts, a.orderIntentId = id ∧
    a.requestKey = request.requestKey ∧ a.requestPayload = request.payload.asDict

/-- The transition is the claim of the intent by the process. -/
structure ClaimOf (t : Trans ordersSystem) (pid : Nat) (id : Str) : Prop where
  event : ∃ r, t.event = .act pid (.repo (.claimPrepared id)) r
  pre : t.pre.1.purchaseState id = some .prepared
  post : t.post.1.purchaseState id = some .dispatching

/-- **The invariant of every run.** -/
structure RunInv (tr : OrdersTrace) (s : Store) (L : Ledger) : Prop where
  represents : Represents s.1 L
  requestKey : ∀ {id o}, L id = some o → o.requestKey = str "purchase:" ++ id
  stage : ∀ {pid g}, stageOf pid tr = some g → StageOk s L g
  prepared : ∀ {id o}, L id = some o →
    ∃ l t m, tr = l ++ t :: m ∧ FirstPrepare t id o.idempotencyKey ⟨o.requestKey, o.payload⟩
  claimed : ∀ {pid key id a}, stageOf pid tr = some (.claimed key id a) →
    ∃ l t m, tr = l ++ t :: m ∧ ClaimOf t pid id
  once : ∀ id, purchaseCount id tr ≤ 1
  unclaimed : ∀ id, (∀ o, L id = some o → o.purchase = .prepared) →
    purchaseCount id tr = 0 ∧ ∀ pid key a, stageOf pid tr ≠ some (.claimed key id a)
  owner : ∀ {pid key id a}, stageOf pid tr = some (.claimed key id a) →
    purchaseCount id tr = 0 ∧
      ∀ {pid' key' a'}, stageOf pid' tr = some (.claimed key' id a') → pid' = pid

theorem purchaseCount_snoc (id : Str) (tr : OrdersTrace) (t : Trans ordersSystem) :
    purchaseCount id (tr ++ [t]) = purchaseCount id tr + if purchases id t.event then 1 else 0 := by
  unfold purchaseCount
  rw [List.filter_append, List.length_append]
  by_cases h : purchases id t.event = true <;> simp [h]

/-- What a trace contains, a longer one contains. -/
theorem exists_snoc {P : Trans ordersSystem → Prop} {tr : OrdersTrace} {t : Trans ordersSystem}
    (h : ∃ l u m, tr = l ++ u :: m ∧ P u) : ∃ l u m, tr ++ [t] = l ++ u :: m ∧ P u := by
  obtain ⟨l, u, m, rfl, hu⟩ := h
  exact ⟨l, u, m ++ [t], by simp, hu⟩

theorem stageOf_act {pid q : Nat} {tr : OrdersTrace} {s s' : Store} {op : ServiceOp}
    {r : Except Exc op.Res} {g : Stage} (hg : stageOf pid tr = some g) :
    stageOf q (tr ++ [⟨s, .act pid op r, s'⟩]) =
      if pid = q then some (g.next op r) else stageOf q tr := by
  rw [stageOf, ghost_snoc]
  by_cases e : pid = q
  · subst e
    simp only [ghostStep, if_true]
    rw [show ghost callProtocol ServiceCall.stage pid tr = some g from hg]
    rfl
  · simp only [ghostStep, if_neg e]

theorem RunInv.nil : RunInv [] Store.empty fun _ => none where
  represents := .empty
  requestKey h := by cases h
  stage h := by cases h
  prepared h := by cases h
  claimed h := by cases h
  once _ := Nat.zero_le _
  unclaimed _ _ := ⟨rfl, fun _ _ _ h => by cases h⟩
  owner h := by cases h

/-- A new process is at the beginning of its call. -/
theorem RunInv.start {tr : OrdersTrace} {s : Store} {L : Ledger} (h : RunInv tr s L) (pid : Nat)
    (c : ServiceCall) : RunInv (tr ++ [⟨s, .start pid c, s⟩]) s L := by
  have hcount (id : Str) :
      purchaseCount id (tr ++ [⟨s, .start pid c, s⟩]) = purchaseCount id tr := by
    rw [purchaseCount_snoc]; rfl
  have hstage {q : Nat} {g : Stage}
      (hq : stageOf q (tr ++ [⟨s, .start pid c, s⟩]) = some g) :
      g = c.stage ∨ stageOf q tr = some g := by
    rw [stageOf, ghost_snoc] at hq
    by_cases e : pid = q
    · simp only [ghostStep, if_pos e, Option.some.injEq] at hq
      exact .inl hq.symm
    · simp only [ghostStep, if_neg e] at hq
      exact .inr hq
  have hclaimed {q : Nat} {key id : Str} {a : OrderAggregate}
      (hq : stageOf q (tr ++ [⟨s, .start pid c, s⟩]) = some (.claimed key id a)) :
      stageOf q tr = some (.claimed key id a) := by
    rcases hstage hq with e | e
    · cases c <;> cases e
    · exact e
  refine ⟨h.represents, h.requestKey, fun hq => ?_, fun ho => exists_snoc (h.prepared ho),
    fun hq => exists_snoc (h.claimed (hclaimed hq)), fun id => by rw [hcount]; exact h.once id,
    fun id hid => ?_, fun hq => ?_⟩
  · rcases hstage hq with rfl | e
    · cases c with
      | placeOrder customerReference request =>
        have := request.valid
        simp only [Bool.and_eq_true] at this
        exact this.1.2
      | recover => trivial
      | deliver => trivial
      | getOrder => trivial
    · exact h.stage e
  · obtain ⟨h0, hno⟩ := h.unclaimed id hid
    exact ⟨by rw [hcount]; exact h0, fun q key a hq => hno q key a (hclaimed hq)⟩
  · obtain ⟨h0, hown⟩ := h.owner (hclaimed hq)
    exact ⟨by rw [hcount]; exact h0, fun hq' => hown (hclaimed hq')⟩

theorem RunInv.crash {tr : OrdersTrace} {s : Store} {L : Ledger} (h : RunInv tr s L) (pid : Nat) :
    RunInv (tr ++ [⟨s, .crash pid, s⟩]) s L := by
  have hcount (id : Str) : purchaseCount id (tr ++ [⟨s, .crash pid, s⟩]) = purchaseCount id tr := by
    rw [purchaseCount_snoc]; rfl
  have hstage (q : Nat) : stageOf q (tr ++ [⟨s, .crash pid, s⟩]) = stageOf q tr := by
    rw [stageOf, ghost_snoc]; rfl
  refine ⟨h.represents, h.requestKey, fun hq => h.stage (hstage _ ▸ hq),
    fun ho => exists_snoc (h.prepared ho), fun hq => exists_snoc (h.claimed (hstage _ ▸ hq)),
    fun id => hcount id ▸ h.once id, fun id hid => ?_, fun hq => ?_⟩
  · obtain ⟨h0, hno⟩ := h.unclaimed id hid
    exact ⟨by rw [hcount]; exact h0, fun q key a hq => hno q key a (hstage _ ▸ hq)⟩
  · obtain ⟨h0, hown⟩ := h.owner (hstage _ ▸ hq)
    exact ⟨by rw [hcount]; exact h0, fun hq' => hown (hstage _ ▸ hq')⟩

/-- An obligation that is new was stored by the first prepare of its key. -/
theorem EffectLeads.firstPrepare {op : ServiceOp} {s s' : Store} {L L' : Ledger}
    (he : EffectLeads op s s' L L') (hR : Represents s.1 L) {id : Str} {o : Obligation}
    (hnew : L id = none) (ho : L' id = some o) (pid : Nat) (r : Except Exc op.Res) :
    FirstPrepare ⟨s, .act pid op r, s'⟩ id o.idempotencyKey ⟨o.requestKey, o.payload⟩ := by
  obtain ⟨c, rfl, -, hopens⟩ := he.opens hnew ho
  obtain ⟨⟨i, hi, hik, -⟩, ⟨a, ha, hae⟩, -⟩ := he.represents.present ho
  refine ⟨⟨pid, c, r, rfl, hopens.id, ?_⟩, fun j hj hjk => ?_, ⟨i, mem_of_lookup hi,
    key_of_lookup hi, hik⟩, a, mem_of_lookup ha, key_of_lookup ha, hae.requestKey,
    hae.requestPayload⟩
  · rw [hopens.requestKey, hopens.payload]; rfl
  · -- the key is unique, so an earlier row with it would be the intent itself
    obtain ⟨st, hj'⟩ := he.writes.intent_row hj
    have heq := List.inj_on_of_nodup_map s'.2.1.2.1 hj' (mem_of_lookup hi) (hjk.trans hik.symm)
    have hid : j.id = id := (congrArg IntentRow.id heq).trans (key_of_lookup hi)
    obtain ⟨o₀, ho₀, -⟩ := hR.intent_row hj
    rw [hid, hnew] at ho₀
    cases ho₀

section step

variable {tr : OrdersTrace} {s s' : Store} {L L' : Ledger} {pid : Nat} {g : Stage}
variable {op : ServiceOp} {r : Except Exc op.Res}

/-- The parts of the invariant that every step keeps for the same reason. -/
theorem RunInv.common (h : RunInv tr s L) (hg : stageOf pid tr = some g) (hok : g.ok op)
    (hE : Effect s op r s') (he : EffectLeads op s s' L L') :
    (∀ {id o}, L' id = some o → o.requestKey = str "purchase:" ++ id) ∧
    (∀ {q g'}, stageOf q (tr ++ [⟨s, .act pid op r, s'⟩]) = some g' → StageOk s' L' g') ∧
    ∀ {id o}, L' id = some o → ∃ l t m, tr ++ [⟨s, .act pid op r, s'⟩] = l ++ t :: m ∧
      FirstPrepare t id o.idempotencyKey ⟨o.requestKey, o.payload⟩ := by
  refine ⟨fun {id o'} ho' => ?_, fun {q g'} hq => ?_, fun {id o'} ho' => ?_⟩
  · cases hL : L id with
    | none =>
      obtain ⟨c, -, -, hopens⟩ := he.opens hL ho'
      rw [hopens.requestKey, hopens.invariants.requestKey, hopens.id]
    | some o =>
      obtain ⟨o₁, ho₁, hl⟩ := he.later hL
      obtain rfl : o₁ = o' := Option.some.inj (ho₁.symm.trans ho')
      exact hl.requestKey.trans (h.requestKey hL)
  · rw [stageOf_act hg] at hq
    split at hq
    · cases hq; exact (h.stage hg).next h.represents hok hE he
    · exact (h.stage hq).later he
  · cases hL : L id with
    | none => exact ⟨tr, _, [], rfl, he.firstPrepare h.represents hL ho' pid r⟩
    | some o =>
      obtain ⟨o₁, ho₁, hl⟩ := he.later hL
      obtain rfl : o₁ = o' := Option.some.inj (ho₁.symm.trans ho')
      rw [hl.idempotencyKey, hl.requestKey, hl.payload]
      exact exists_snoc (h.prepared hL)

/-- A prepared intent was prepared, or not there. -/
theorem EffectLeads.prepared_before (he : EffectLeads op s s' L L') {id : Str}
    (hid : ∀ o, L' id = some o → o.purchase = .prepared) :
    ∀ o, L id = some o → o.purchase = .prepared := by
  intro o ho
  obtain ⟨o', ho', hl⟩ := he.later ho
  by_contra hne
  exact hl.purchase.not_prepared hne (hid o' ho')

/-- **A step that neither claims nor purchases.** -/
theorem RunInv.quiet (h : RunInv tr s L) (hg : stageOf pid tr = some g) (hok : g.ok op)
    (hE : Effect s op r s') (he : EffectLeads op s s' L L')
    (hclaim : ∀ {key id a}, g.next op r = .claimed key id a → g = .claimed key id a)
    (hpurchase : ∀ id, purchases id (.act pid op r) = false) :
    RunInv (tr ++ [⟨s, .act pid op r, s'⟩]) s' L' := by
  obtain ⟨hkeys, hstages, hprep⟩ := h.common hg hok hE he
  have hcount (id : Str) :
      purchaseCount id (tr ++ [⟨s, .act pid op r, s'⟩]) = purchaseCount id tr := by
    rw [purchaseCount_snoc, hpurchase id]; rfl
  have hclaimed {q : Nat} {key id : Str} {a : OrderAggregate}
      (hq : stageOf q (tr ++ [⟨s, .act pid op r, s'⟩]) = some (.claimed key id a)) :
      stageOf q tr = some (.claimed key id a) := by
    rw [stageOf_act hg] at hq
    split at hq
    · next e => subst e; rw [hg, hclaim (Option.some.inj hq)]
    · exact hq
  refine ⟨he.represents, hkeys, hstages, hprep, fun hq => exists_snoc (h.claimed (hclaimed hq)),
    fun id => hcount id ▸ h.once id, fun id hid => ?_, fun hq => ?_⟩
  · obtain ⟨h0, hno⟩ := h.unclaimed id (he.prepared_before hid)
    exact ⟨by rw [hcount]; exact h0, fun q key a hq => hno q key a (hclaimed hq)⟩
  · obtain ⟨h0, hown⟩ := h.owner (hclaimed hq)
    exact ⟨by rw [hcount]; exact h0, fun hq' => hown (hclaimed hq')⟩

/-- **A claim that succeeds**: the intent was prepared, so nobody had claimed it
and nobody had purchased. -/
theorem RunInv.claim {key id : Str} {a : OrderAggregate} (h : RunInv tr s L)
    (hg : stageOf pid tr = some (.prepared key id))
    (hE : Effect s (.repo (.claimPrepared id)) (.ok (some a)) s')
    (he : EffectLeads (.repo (.claimPrepared id)) s s' L L') :
    RunInv (tr ++ [⟨s, .act pid (.repo (.claimPrepared id)) (.ok (some a)), s'⟩]) s' L' := by
  have hok : (Stage.prepared key id).ok (.repo (.claimPrepared id)) := ⟨key, rfl⟩
  obtain ⟨hkeys, hstages, hprep⟩ := h.common hg hok hE he
  obtain ⟨o, hp, ho, -, -, hR₁⟩ := claim_refines h.represents hE.body_ok
  have hpre : s.1.purchaseState id = some .prepared := by
    rw [h.represents.purchaseState, ho, Option.map_some, hp]; rfl
  have hpost : s'.1.purchaseState id = some .dispatching := by
    rw [hR₁.purchaseState]; simp [Obligation.move, Purchase.state]
  obtain ⟨h0, hno⟩ := h.unclaimed id fun o' ho' => by
    rw [← Option.some.inj (ho.symm.trans ho')]; exact hp
  have hcount (id' : Str) : purchaseCount id'
      (tr ++ [⟨s, .act pid (.repo (.claimPrepared id)) (.ok (some a)), s'⟩]) =
        purchaseCount id' tr := by
    rw [purchaseCount_snoc]; rfl
  have hclaimed {q : Nat} {key' id' : Str} {a' : OrderAggregate}
      (hq : stageOf q (tr ++ [⟨s, .act pid (.repo (.claimPrepared id)) (.ok (some a)), s'⟩]) =
        some (.claimed key' id' a')) :
      (q = pid ∧ id' = id) ∨ (q ≠ pid ∧ stageOf q tr = some (.claimed key' id' a')) := by
    rw [stageOf_act hg] at hq
    split at hq
    · next e => cases hq; exact .inl ⟨e.symm, rfl⟩
    · next e => exact .inr ⟨Ne.symm e, hq⟩
  refine ⟨he.represents, hkeys, hstages, hprep, fun hq => ?_, fun id' => hcount id' ▸ h.once id',
    fun id' hid => ?_, fun {q key' id' a'} hq => ?_⟩
  · rcases hclaimed hq with ⟨rfl, rfl⟩ | ⟨-, hq⟩
    · exact ⟨tr, _, [], rfl, ⟨_, rfl⟩, hpre, hpost⟩
    · exact exists_snoc (h.claimed hq)
  · obtain ⟨h0', hno'⟩ := h.unclaimed id' (he.prepared_before hid)
    refine ⟨by rw [hcount]; exact h0', fun q key' a' hq => ?_⟩
    rcases hclaimed hq with ⟨-, rfl⟩ | ⟨-, hq⟩
    · have hst := he.represents.purchaseState id'
      rw [hpost] at hst
      cases hL : L' id' with
      | none => rw [hL] at hst; cases hst
      | some o' => rw [hL, Option.map_some, hid o' hL] at hst; cases hst
    · exact hno' q key' a' hq
  · rcases hclaimed hq with ⟨rfl, rfl⟩ | ⟨hne, hq⟩
    · refine ⟨by rw [hcount]; exact h0, fun hq' => ?_⟩
      rcases hclaimed hq' with ⟨rfl, -⟩ | ⟨-, hq'⟩
      · rfl
      · exact absurd hq' (hno _ _ _)
    · obtain ⟨h0', hown⟩ := h.owner hq
      refine ⟨by rw [hcount]; exact h0', fun hq' => ?_⟩
      rcases hclaimed hq' with ⟨-, rfl⟩ | ⟨-, hq'⟩
      · exact absurd ‹stageOf q tr = _› (hno _ _ _)
      · exact hown hq'

/-- **A purchase**: it is sent by the one call that holds the claim, and was not
sent before. -/
theorem RunInv.purchase {key id : Str} {a : OrderAggregate} {r : Except Exc PurchaseResult}
    (h : RunInv tr s L) (hg : stageOf pid tr = some (.claimed key id a))
    (hE : Effect s (.purchase (supplierRequest a)) r s')
    (he : EffectLeads (.purchase (supplierRequest a)) s s' L L') :
    RunInv (tr ++ [⟨s, .act pid (.purchase (supplierRequest a)) r, s'⟩]) s' L' := by
  have hok : (Stage.claimed key id a).ok (.purchase (supplierRequest a)) := ⟨key, id, a, rfl, rfl⟩
  obtain ⟨hkeys, hstages, hprep⟩ := h.common hg hok hE he
  obtain ⟨⟨⟨o, ho, -, hp⟩, -⟩, o₁, ho₁, hreq⟩ := h.stage hg
  obtain rfl : o = o₁ := Option.some.inj (ho.symm.trans ho₁)
  have hkey : (supplierRequest a).requestKey = str "purchase:" ++ id := by
    rw [hreq]; exact h.requestKey ho
  have hevent (id' : Str) :
      purchases id' (.act (A := ordersSystem) pid (.purchase (supplierRequest a)) r) = true ↔
        id' = id := by
    simp only [purchases, hkey, decide_eq_true_eq]
    exact ⟨fun e => (List.append_cancel_left e).symm, fun e => by rw [e]⟩
  have hcount (id' : Str) (hne : id' ≠ id) : purchaseCount id'
      (tr ++ [⟨s, .act pid (.purchase (supplierRequest a)) r, s'⟩]) = purchaseCount id' tr := by
    rw [purchaseCount_snoc, if_neg fun e => hne ((hevent id').1 e)]; rfl
  have hclaimed {q : Nat} {key' id' : Str} {a' : OrderAggregate}
      (hq : stageOf q (tr ++ [⟨s, .act pid (.purchase (supplierRequest a)) r, s'⟩]) =
        some (.claimed key' id' a')) :
      q ≠ pid ∧ stageOf q tr = some (.claimed key' id' a') := by
    rw [stageOf_act hg] at hq
    split at hq
    · cases hq
    · next e => exact ⟨Ne.symm e, hq⟩
  obtain ⟨h0, hown⟩ := h.owner hg
  refine ⟨he.represents, hkeys, hstages, hprep, fun hq => exists_snoc (h.claimed (hclaimed hq).2),
    fun id' => ?_, fun id' hid => ?_, fun {q key' id' a'} hq => ?_⟩
  · by_cases e : id' = id
    · subst e
      rw [purchaseCount_snoc, h0, if_pos ((hevent id').2 rfl)]
    · rw [hcount id' e]; exact h.once id'
  · have hid' := he.prepared_before hid
    have e : id' ≠ id := fun e => hp (hid' o (e ▸ ho))
    obtain ⟨h0', hno⟩ := h.unclaimed id' hid'
    exact ⟨by rw [hcount id' e]; exact h0', fun q key' a' hq => hno q key' a' (hclaimed hq).2⟩
  · obtain ⟨hne, hq⟩ := hclaimed hq
    have e : id' ≠ id := fun e => hne (hown (e ▸ hq))
    obtain ⟨h0', hown'⟩ := h.owner hq
    exact ⟨by rw [hcount id' e]; exact h0', fun hq' => hown' (hclaimed hq').2⟩

/-- **Every step in order keeps the invariant.** -/
theorem RunInv.act (h : RunInv tr s L) (hg : stageOf pid tr = some g) (hok : g.ok op)
    (hE : Effect s op r s') : ∃ L', RunInv (tr ++ [⟨s, .act pid op r, s'⟩]) s' L' := by
  obtain ⟨L', he⟩ := hE.leads h.represents
  refine ⟨L', ?_⟩
  have hrecord {r : Except Exc OrderAggregate} {key id : Str} {a : OrderAggregate}
      (e : g.record r = .claimed key id a) : g = .claimed key id a := by
    cases g <;> first | exact e | cases e
  cases op with
  | repo op =>
    cases op with
    | prepare c =>
      obtain rfl := hok
      exact h.quiet hg rfl hE he (fun e => by cases r <;> cases e) fun _ => rfl
    | claimPrepared id =>
      obtain ⟨key, rfl⟩ := hok
      match r with
      | .error e => exact h.quiet hg ⟨key, rfl⟩ hE he (fun e => by cases e) fun _ => rfl
      | .ok none => exact h.quiet hg ⟨key, rfl⟩ hE he (fun e => by cases e) fun _ => rfl
      | .ok (some a) => exact h.claim hg hE he
    | beginReconciliation id =>
      obtain rfl := hok
      exact h.quiet hg rfl hE he (fun e => by cases r <;> cases e) fun _ => rfl
    | recordSuccess id value => exact h.quiet hg hok hE he hrecord fun _ => rfl
    | recordSafeFailure id value => exact h.quiet hg hok hE he hrecord fun _ => rfl
    | recordUnknown id => exact h.quiet hg hok hE he hrecord fun _ => rfl
    | get id => exact h.quiet hg hok hE he (fun e => e) fun _ => rfl
    | createDeliveryAttempt id => exact h.quiet hg hok hE he (fun e => e) fun _ => rfl
    | finishDelivery => exact h.quiet hg hok hE he (fun e => e) fun _ => rfl
  | purchase request =>
    obtain ⟨key, id, a, rfl, rfl⟩ := hok
    exact h.purchase hg hE he
  | reconcile request =>
    obtain ⟨id, a, rfl, rfl⟩ := hok
    exact h.quiet hg ⟨id, a, rfl, rfl⟩ hE he (fun e => by cases e) fun _ => rfl
  | _ => exact h.quiet hg hok hE he (fun e => e) fun _ => rfl

end step

/-- **The invariant holds along every run** from the empty store. -/
theorem run_inv {tr : OrdersTrace} {cfg : Cfg ordersSystem}
    (h : Run ordersSystem Store.empty tr cfg) : ∃ L, RunInv tr cfg.store L := by
  refine h.invariant (J := fun tr s => ∃ L, RunInv tr s L) body_follows ⟨_, .nil⟩ ?_ ?_ ?_
  · rintro tr cfg pid c - - ⟨L, hI⟩
    exact ⟨L, hI.start pid c⟩
  · rintro tr s pid ⟨L, hI⟩
    exact ⟨L, hI.crash pid⟩
  · rintro tr s pid op r s' g ⟨L, hI⟩ hg hok hE
    exact hI.act hg hok hE

end

end NyanShopBot.Orders
