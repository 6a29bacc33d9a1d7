import NyanShopBot.Orders.Dispatch

/-!
# What becomes of a confirmed purchase

The supplier confirmed a purchase while `recover` calls were moving its intent.
`confirmation_recorded`: the record of the confirmation is made in every state
but UNKNOWN, and the reference is then stored for good. In UNKNOWN it is refused,
and the intent waits for a reconciliation. `Confirms` is the invariant: nothing
else than the confirmed reference can be recorded.
-/

namespace NyanShopBot.Orders

open Py Db Conc

/-- The stored reference of an intent. -/
def Tables.supplierReference (t : Tables) (id : Str) : Option Str :=
  (lookup AttemptRow.orderIntentId t.supplierAttempts id).bind (·.supplierOrderReference)

/-- An answer that does not contradict the reference. -/
def Agrees (reference : Str) : Except Exc ReconciliationResult → Prop
  | .ok (.succeeded r) => r = some reference
  | .ok (.failedSafe _) => False
  | _ => True

/-- A purchase that has no other end than the reference. -/
def Purchase.Confirms (reference : Str) : Purchase → Prop
  | succeeded r => r = reference
  | failedSafe _ => False
  | _ => True

/-- The intent is stored as succeeded with the reference. -/
def Holds (s : Store) (id reference : Str) : Prop :=
  s.1.purchaseState id = some .succeeded ∧ s.1.supplierReference id = some reference

/-- Where at most one element has a property, it stands in one place. -/
theorem split_unique {α : Type} {p : α → Bool} {xs l l' m m' : List α} {a b : α}
    (hc : (xs.filter p).length ≤ 1) (h : xs = l ++ a :: m) (h' : xs = l' ++ b :: m')
    (ha : p a = true) (hb : p b = true) : l = l' ∧ a = b ∧ m = m' := by
  subst h
  have htwo {l c m : List α} {a b : α} (ha : p a = true) (hb : p b = true) :
      ¬ ((l ++ a :: (c ++ b :: m)).filter p).length ≤ 1 := by
    simp only [List.filter_append, List.filter_cons_of_pos ha, List.filter_cons_of_pos hb,
      List.length_append, List.length_cons]
    omega
  rcases List.append_eq_append_iff.1 h' with ⟨c, rfl, hm⟩ | ⟨c, rfl, hm⟩
  · cases c with
    | nil => cases hm; exact ⟨(List.append_nil _).symm, rfl, rfl⟩
    | cons d c =>
      rw [List.cons_append] at hm
      cases hm
      exact absurd hc (htwo ha hb)
  · cases c with
    | nil => cases hm; exact ⟨List.append_nil _, rfl, rfl⟩
    | cons d c =>
      rw [List.cons_append] at hm
      cases hm
      rw [List.append_assoc, List.cons_append] at hc
      exact absurd hc (htwo hb ha)

section

variable [UnicodeData]

theorem Represents.supplierReference {t : Tables} {L : Ledger} {id : Str} {o : Obligation}
    (hR : Represents t L) (ho : L id = some o) : t.supplierReference id = o.purchase.reference := by
  obtain ⟨r, hr, he⟩ := (hR.present ho).attempt
  unfold Tables.supplierReference
  rw [hr]
  exact he.reference

theorem Represents.holds {s : Store} {L : Ledger} {id reference : Str} {o : Obligation}
    (hR : Represents s.1 L) (ho : L id = some o) (hp : o.purchase = .succeeded reference) :
    Holds s id reference := by
  refine ⟨?_, ?_⟩
  · rw [hR.purchaseState, ho, Option.map_some, hp]; rfl
  · rw [hR.supplierReference ho, hp]; rfl

/-- A settled intent with no other end than the reference has it or waits for it. -/
theorem confirmed_settled {s : Store} {L : Ledger} {id reference : Str} (hR : Represents s.1 L)
    (hconf : ∀ o, L id = some o → o.purchase.Confirms reference) (hs : Settled s id) :
    s.1.purchaseState id = some .unknown ∨ s.1.purchaseState id = some .reconciling ∨
      Holds s id reference := by
  cases hL : L id with
  | none =>
    obtain ⟨st, hst, -⟩ := hs
    rw [hR.purchaseState, hL] at hst
    cases hst
  | some o =>
    obtain ⟨hprepared, hdispatching⟩ := (hR.settled hL).1 hs
    have hend := hconf o hL
    have hstate : s.1.purchaseState id = some o.purchase.state := by
      rw [hR.purchaseState, hL, Option.map_some]
    cases hp : o.purchase with
    | succeeded r =>
      rw [hp] at hend
      obtain rfl : r = reference := hend
      exact .inr (.inr (hR.holds hL hp))
    | failedSafe code => rw [hp] at hend; exact hend.elim
    | unknown => rw [hp] at hstate; exact .inl hstate
    | reconciling => rw [hp] at hstate; exact .inr (.inl hstate)
    | prepared => exact absurd hp hprepared
    | dispatching => exact absurd hp hdispatching

variable [Hashlib]

/-- Everything the supplier says of the intent is the reference. -/
structure Confirmed (id reference : Str) (tr : OrdersTrace) : Prop where
  purchase : ∀ t ∈ tr, ∀ pid request r, t.event = .act pid (.purchase request) r →
    request.requestKey = str "purchase:" ++ id → r = .ok (.succeeded (some reference))
  reconcile : ∀ t ∈ tr, ∀ pid request r, t.event = .act pid (.reconcile request) r →
    request.requestKey = str "purchase:" ++ id → Agrees reference r

theorem Confirmed.prefix {id reference : Str} {l m : OrdersTrace}
    (h : Confirmed id reference (l ++ m)) : Confirmed id reference l :=
  ⟨fun t ht => h.purchase t (List.mem_append_left _ ht),
    fun t ht => h.reconcile t (List.mem_append_left _ ht)⟩

/-! ## Where an outcome comes from -/

section origin

variable {tr l m : OrdersTrace} {cfg : Cfg ordersSystem} {t : Trans ordersSystem} {pid : Nat}
variable {id key reference : Str}

/-- A stage that has sent a purchase comes from the purchase. -/
theorem sent_step {outcome : Except Exc PurchaseResult} (h : Run ordersSystem Store.empty tr cfg)
    (hg : stageOf pid tr = some (.sent key id outcome)) :
    ∃ l t m request, tr = l ++ t :: m ∧ t.event = .act pid (.purchase request) outcome ∧
      request.requestKey = str "purchase:" ++ id := by
  obtain ⟨l, t, m, op, r, g₀, cfg₀, htr, ht, h₀, -, hg₀, hok, hm⟩ :=
    stage_origin h (fun c => by cases c <;> exact nofun) hg
  obtain ⟨L, hI⟩ := run_inv h₀
  cases hm with
  | sent key id a request r =>
    obtain ⟨key', id', a', he, rfl⟩ := hok
    cases he
    obtain ⟨-, o, ho, hreq⟩ := hI.stage hg₀
    exact ⟨l, t, m, _, htr, ht, by rw [hreq]; exact hI.requestKey ho⟩

/-- A stage that has the result of a reconciliation comes from it. -/
theorem reconciled_step {result : Except Exc ReconciliationResult}
    (h : Run ordersSystem Store.empty tr cfg)
    (hg : stageOf pid tr = some (.reconciled id result)) :
    ∃ l t m request, tr = l ++ t :: m ∧ t.event = .act pid (.reconcile request) result ∧
      request.requestKey = str "purchase:" ++ id := by
  obtain ⟨l, t, m, op, r, g₀, cfg₀, htr, ht, h₀, -, hg₀, hok, hm⟩ :=
    stage_origin h (fun c => by cases c <;> exact nofun) hg
  obtain ⟨L, hI⟩ := run_inv h₀
  cases hm with
  | reconciled id a request r =>
    obtain ⟨id', a', he, rfl⟩ := hok
    cases he
    obtain ⟨o, ho, hreq⟩ := hI.stage hg₀
    exact ⟨l, t, m, _, htr, ht, by rw [hreq]; exact hI.requestKey ho⟩

/-! ## The invariant -/

/-- A record of another end is not in order. -/
theorem causes_confirms {g : Stage} {op : RepoOp} {p : Purchase}
    (h : Run ordersSystem Store.empty tr cfg) (hc : Confirmed id reference tr)
    (hg : stageOf pid tr = some g) (hok : g.ok (.repo op)) (hp : op.Causes id p) :
    p.Confirms reference := by
  have hsent {key : Str} {outcome : Except Exc PurchaseResult} (e : g = .sent key id outcome) :
      outcome = .ok (.succeeded (some reference)) := by
    obtain ⟨l, t, m, request, htr, ht, hk⟩ := sent_step h (e ▸ hg)
    exact hc.purchase t (by simp [htr]) pid request _ ht hk
  have hreconciled {result : Except Exc ReconciliationResult} (e : g = .reconciled id result) :
      Agrees reference result := by
    obtain ⟨l, t, m, request, htr, ht, hk⟩ := reconciled_step h (e ▸ hg)
    exact hc.reconcile t (by simp [htr]) pid request _ ht hk
  cases p with
  | succeeded r =>
    obtain rfl : op = .recordSuccess id (some r) := hp
    rcases hok with ⟨key, e⟩ | e
    · have := hsent e
      cases this
      rfl
    · exact Option.some.inj (hreconciled e)
  | failedSafe code =>
    obtain rfl : op = .recordSafeFailure id (some code) := hp
    rcases hok with ⟨key, e⟩ | e
    · cases hsent e
    · exact (hreconciled e).elim
  | _ => trivial

/-- **Nothing else than the confirmed reference is recorded**, in any run. -/
theorem confirmed_confirms (h : Run ordersSystem Store.empty tr cfg)
    (hc : Confirmed id reference tr) {L : Ledger} {o : Obligation}
    (hR : Represents cfg.store.1 L) (ho : L id = some o) : o.purchase.Confirms reference := by
  suffices hinv : ∃ L, Represents cfg.store.1 L ∧
      ∀ o, L id = some o → o.purchase.Confirms reference by
    obtain ⟨L', hR', hconf⟩ := hinv
    cases ho' : L' id with
    | none =>
      obtain ⟨r, hr, -⟩ := (hR.present ho).intent
      rw [hR'.absent ho'] at hr
      cases hr
    | some o' =>
      rw [hR.purchase_eq hR' ho ho']
      exact hconf o' ho'
  refine Run.invariant_from (l := []) (P := callProtocol) (i := ServiceCall.stage)
    (J := fun tr s => Confirmed id reference tr →
      ∃ L, Represents s.1 L ∧ ∀ o, L id = some o → o.purchase.Confirms reference)
    body_follows ?_ ?_ ?_ ?_ h hc
  · intro _
    exact ⟨_, .empty, fun o ho => by cases ho⟩
  · intro tr cfg pid c _ _ ih hc
    exact ih hc.prefix
  · intro tr s pid ih hc
    exact ih hc.prefix
  · intro tr cfg pid op r s' g h ih hg hok hE hc
    obtain ⟨L, hR, hconf⟩ := ih hc.prefix
    obtain ⟨L', he⟩ := hE.leads hR
    refine ⟨L', he.represents, fun o' ho' => ?_⟩
    cases hL : L id with
    | none =>
      obtain ⟨c, -, hp, -⟩ := he.opens hL ho'
      rw [hp]
      trivial
    | some o =>
      rcases he.causes hL ho' with e | ⟨rop, rfl, hcause⟩
      · rw [e]
        exact hconf o hL
      · exact causes_confirms h hc.prefix hg hok hcause

end origin

/-! ## The record of the confirmation -/

section record

variable {s : Store} {id reference : Str} {a : OrderAggregate}

/-- An open purchase takes the reference. -/
theorem recordSuccess_open (hload : Loads s.1 id a) (hsafe : isSafeText reference 128 = true)
    (hst : a.intent.purchaseState = .dispatching ∨ a.intent.purchaseState = .reconciling) :
    ∃ b, recordSuccess id (some reference) s =
      .ok (b, s.setPurchase id .succeeded (some reference) none) := by
  have hne : a.intent.purchaseState ≠ .succeeded := by
    rcases hst with e | e <;> rw [e] <;> exact nofun
  exact ⟨_, recordSuccess_ok.2 ⟨reference, rfl, hsafe,
    (recordTerminal_ok (varcharOrNull_of_isSafeText hsafe)).2
      ⟨a, hload, .inr ⟨hne, hst, rfl, rfl⟩⟩⟩⟩

/-- A record that is repeated changes nothing. -/
theorem recordSuccess_again (hload : Loads s.1 id a) (hsafe : isSafeText reference 128 = true)
    (hst : a.intent.purchaseState = .succeeded)
    (href : a.supplierAttempt.supplierOrderReference = some reference)
    (hcode : a.supplierAttempt.failureCode = none) :
    recordSuccess id (some reference) s = .ok (a, s) :=
  recordSuccess_ok.2 ⟨reference, rfl, hsafe,
    (recordTerminal_ok (varcharOrNull_of_isSafeText hsafe)).2
      ⟨a, hload, .inl ⟨hst, href, hcode, rfl, rfl⟩⟩⟩

/-- In UNKNOWN the record is refused: a reconciliation has to come first. -/
theorem recordSuccess_unknown (hload : Loads s.1 id a) (hsafe : isSafeText reference 128 = true)
    (hst : a.intent.purchaseState = .unknown) :
    recordSuccess id (some reference) s = .error (.order .orderStateConflict) := by
  unfold recordSuccess
  refine Tx.bind_error.2 (.inr ⟨reference, s, ofOrder_ok.2
    ⟨validateSafeText_ok.2 ⟨rfl, hsafe⟩, rfl⟩, ?_⟩)
  unfold recordTerminal
  refine Tx.bind_error.2 (.inr ⟨a, s, load_ok.2 ⟨rfl, hload⟩, ?_⟩)
  simp only [hst, reduceCtorEq, if_false]
  exact Tx.bind_error.2 (.inl (Tx.ensure_error.2 ⟨by simp [hst], rfl⟩))

/-- **The record of a confirmation**, by the state it meets: refused in UNKNOWN,
made or repeated in every other state that a confirmed intent can have. -/
theorem recordSuccess_confirmed {L : Ledger} {key : Str} (hR : Represents s.1 L)
    (hc : Claimed s L key id) (hconf : ∀ o, L id = some o → o.purchase.Confirms reference)
    (hsafe : isSafeText reference 128 = true) :
    (s.1.purchaseState id = some .unknown ∧
      (RepoOp.recordSuccess id (some reference)).exec s =
        (.error (.order .orderStateConflict), s)) ∨
    (s.1.purchaseState id ≠ some .unknown ∧ ∃ b s',
      (RepoOp.recordSuccess id (some reference)).exec s = (.ok b, s') ∧
        Stored (· = .succeeded reference) id s') := by
  obtain ⟨o, ho, -, hp⟩ := hc.obligation
  obtain ⟨a, ha⟩ := hc.loads
  obtain ⟨o₁, ho₁, he⟩ := hR.of_loads ha
  obtain rfl : o = o₁ := Option.some.inj (ho.symm.trans ho₁)
  obtain ⟨hst, href, hcode, -, -⟩ := ha.encodes he
  have hstate : s.1.purchaseState id = some o.purchase.state := by
    rw [hR.purchaseState, ho, Option.map_some]
  have hopen (hop : o.purchase.Open) : ∃ b s',
      (RepoOp.recordSuccess id (some reference)).exec s = (.ok b, s') ∧
        Stored (· = .succeeded reference) id s' := by
    obtain ⟨b, hb⟩ := recordSuccess_open ha hsafe (by rw [hst]; exact Purchase.open_iff.1 hop)
    exact ⟨b, _, exec_of_body (.recordSuccess id (some reference)) hb, _, _,
      hR.setPurchase ho (p := .succeeded reference) (.succeed _ hop), Function.update_self .., rfl⟩
  have hconf := hconf o ho
  rw [hstate]
  cases hcase : o.purchase with
  | prepared => exact absurd hcase hp
  | unknown =>
    refine .inl ⟨rfl, ?_⟩
    have herr := recordSuccess_unknown ha hsafe (hst.trans (by rw [hcase]; rfl))
    unfold RepoOp.exec Tx.commit
    rw [show RepoOp.body (.recordSuccess id (some reference)) s =
      .error (.order .orderStateConflict) from herr]
  | dispatching => exact .inr ⟨nofun, hopen (.inl hcase)⟩
  | reconciling => exact .inr ⟨nofun, hopen (.inr hcase)⟩
  | succeeded r =>
    rw [hcase] at hst href hcode hconf
    obtain rfl : r = reference := hconf
    refine .inr ⟨nofun, a, s, exec_of_body (.recordSuccess id (some r))
      (recordSuccess_again ha hsafe hst href hcode), L, o, hR, ho, hcase⟩
  | failedSafe code =>
    rw [hcase] at hconf
    exact hconf.elim

end record

/-! ## The confirmed dispatch -/

section run

variable {tr l m : OrdersTrace} {cfg : Cfg ordersSystem} {t : Trans ordersSystem} {pid : Nat}
variable {id reference : Str} {request : SupplierPurchaseRequest}

theorem purchases_act {q : Nat} {request : SupplierPurchaseRequest}
    {r : Except Exc PurchaseResult} {u : Trans ordersSystem}
    (hu : u.event = .act q (.purchase request) r)
    (hk : request.requestKey = str "purchase:" ++ id) : purchases id u.event = true := by
  rw [hu]
  exact decide_eq_true hk

/-- **The record of a confirmed purchase**, whatever runs beside its call: made
and kept, unless the intent is UNKNOWN when it comes. Then it is refused, the call
raises, and the intent waits in UNKNOWN or RECONCILING or was given the reference
by a reconciliation. -/
theorem confirmation_recorded {out : Except Exc OrderSnapshot}
    (h : Run ordersSystem Store.empty tr cfg) (ha : Available tr) (htr : tr = l ++ t :: m)
    (ht : t.event = .act pid (.purchase request) (.ok (.succeeded (some reference))))
    (hkey : request.requestKey = str "purchase:" ++ id) (hsafe : isSafeText reference 128 = true)
    (hagree : ∀ u ∈ tr, ∀ q request' result, u.event = .act q (.reconcile request') result →
      request'.requestKey = request.requestKey → Agrees reference result)
    (hend : cfg.result? pid = some out) :
    ∃ m₁ u m₂ r, m = m₁ ++ u :: m₂ ∧
      u.event = .act pid (.repo (.recordSuccess id (some reference))) r ∧
      ((u.pre.1.purchaseState id ≠ some .unknown ∧ (∃ snapshot, out = .ok snapshot) ∧
          Holds cfg.store id reference) ∨
        (u.pre.1.purchaseState id = some .unknown ∧ out = .error (.order .orderStateConflict) ∧
          u.post = u.pre ∧ (cfg.store.1.purchaseState id = some .unknown ∨
            cfg.store.1.purchaseState id = some .reconciling ∨ Holds cfg.store id reference))) := by
  obtain ⟨L, hI⟩ := run_inv h
  have hpt := purchases_act ht hkey
  have hc : Confirmed id reference tr := by
    refine ⟨fun v hv q request' r hve hk => ?_, fun v hv q request' r hve hk => ?_⟩
    · obtain ⟨l', m', htr'⟩ := List.append_of_mem hv
      obtain ⟨-, rfl, -⟩ := split_unique (hI.once id) htr htr' hpt (purchases_act hve hk)
      rw [ht] at hve
      cases hve
      rfl
    · exact hagree v hv q request' r hve (hk.trans hkey.symm)
  obtain ⟨key, hsent⟩ := purchase_stage h htr ht hkey
  have h' := h
  rw [htr, List.append_cons] at h'
  obtain ⟨g, hg, hhas⟩ := h'.ghost_keeps (K := Stage.Has key id (.ok (.succeeded (some reference))))
    body_follows (fun r hK hok => hK.next r hok) ⟨_, hsent, .inl rfl⟩
  rw [← List.append_cons, ← htr] at hg
  obtain ⟨c, g', hg', hends⟩ := h.ended (P := callProtocol) (i := ServiceCall.stage)
    body_follows hend
  obtain rfl : g = g' := Option.some.inj (hg.symm.trans hg')
  rcases hhas with rfl | ⟨rec, rfl⟩
  · cases hends
  obtain ⟨l₁, u, m₂, rop, r, cfg₁, htr₁, hu, hrop, h₁, hs₁, hl₁, hm⟩ := record_step h hg
  cases hrop
  obtain rfl : rec = r := by cases hm; rfl
  obtain rfl : out = rec.map .fromAggregate := hends nofun
  -- the record stands after the purchase
  obtain ⟨l₂, t', m₁, request', rfl, ht', hk'⟩ := sent_step h₁ hl₁
  obtain ⟨rfl, rfl, rfl⟩ := split_unique (hI.once id) htr
    (htr₁.trans (List.append_assoc ..)) hpt (purchases_act ht' hk')
  refine ⟨m₁, u, m₂, rec, rfl, hu, ?_⟩
  obtain ⟨L₁, hI₁⟩ := run_inv h₁
  have hconf {o : Obligation} (ho : L id = some o) := confirmed_confirms h hc hI.represents ho
  have hrecord := recordSuccess_confirmed hI₁.represents (hI₁.stage hl₁)
    (fun o ho =>
      confirmed_confirms h₁ (by rw [htr₁] at hc; exact hc.prefix) hI₁.represents ho) hsafe
  have hexec := ha u (by simp [htr₁]) pid (.recordSuccess id (some reference)) rec hu
  rw [htr₁, List.append_cons] at h
  rw [hs₁] at hrecord
  rcases hrecord with ⟨hpre, hr⟩ | ⟨hpre, b, s', hr, hst⟩
  · obtain ⟨rfl, hpost⟩ := Prod.mk.inj (hexec.trans hr)
    refine .inr ⟨hpre, rfl, hpost, ?_⟩
    -- a settled intent stays settled, and nothing but the reference can be its end
    obtain ⟨o₁, ho₁, -, hp₁⟩ := (hI₁.stage hl₁).obligation
    have hstored : Stored (fun p => p ≠ .prepared ∧ p ≠ .dispatching) id u.post := by
      refine ⟨L₁, o₁, hpost ▸ hs₁ ▸ hI₁.represents, ho₁, hp₁, fun hd => ?_⟩
      rw [← hs₁, hI₁.represents.purchaseState, ho₁, Option.map_some, hd] at hpre
      cases hpre
    exact confirmed_settled hI.represents (fun o ho => hconf ho)
      (settled_keeps h (by rw [finalStore_snoc]; exact hstored))
  · obtain ⟨rfl, hpost⟩ := Prod.mk.inj (hexec.trans hr)
    refine .inl ⟨hpre, ⟨_, rfl⟩, ?_⟩
    obtain ⟨L₂, o, hR, ho, hp⟩ := stored_keeps (P := (· = .succeeded reference))
      (fun {p q} hp hs => absurd hs.not_ended.1 (by rw [hp]; simp [Purchase.state])) h
      (by rw [finalStore_snoc, hpost]; exact hst)
    exact hR.holds ho hp

end run

end

/-! ## A confirmation that is refused -/

section

attribute [local instance] sampleUnicode sampleHashlib

theorem sampleRun_reconcile {purchase : Except Exc PurchaseResult}
    {reconcile : Except Exc ReconciliationResult} {moves : List (Move ordersSystem)}
    {u : Trans ordersSystem} (hu : u ∈ (sampleRun purchase reconcile moves).1) {q : Nat}
    {request : SupplierPurchaseRequest} {result : Except Exc ReconciliationResult}
    (he : u.event = .act q (.reconcile request) result) : result = reconcile := by
  unfold sampleRun at hu
  cases h : replay ordersSystem (sampleAnswer purchase reconcile) Store.empty moves with
  | none => rw [h] at hu; cases hu
  | some st =>
    rw [h] at hu
    exact congrArg Prod.fst (replay_answers h u hu q (.reconcile request) result he)

/-- A `recover` declares the purchase unknown while it is under way, and begins a
reconciliation after its confirmation was refused. -/
def sampleOverlap : OrdersTrace × Cfg ordersSystem :=
  sampleRun (.ok (.succeeded (some (str "ref-1")))) (.ok .unresolved)
    (.start 0 (.placeOrder (str "cust-1") sampleRequest) :: go 0 12 ++
      .start 1 (.recover sampleIntent) :: go 1 3 ++ go 0 2 ++ go 1 5)

theorem sampleOverlap_run : Run ordersSystem Store.empty sampleOverlap.1 sampleOverlap.2 :=
  sampleRun_run _ _ _

theorem sampleOverlap_available : Available sampleOverlap.1 := sampleRun_available _ _ _

theorem sampleOverlap_agrees (u : Trans ordersSystem) (hu : u ∈ sampleOverlap.1) (q : Nat)
    (request : SupplierPurchaseRequest) (result : Except Exc ReconciliationResult)
    (he : u.event = .act q (.reconcile request) result) : Agrees (str "ref-1") result := by
  obtain rfl : result = .ok .unresolved := sampleRun_reconcile hu he
  trivial

/-- Every call that was started has ended. -/
def allEnded (tr : OrdersTrace) (cfg : Cfg ordersSystem) : Bool :=
  tr.all fun t =>
    match t.event with
    | .start pid _ => (cfg.result? pid).isSome
    | _ => true

theorem confirmation_refused : ¬ ∀ (tr l m : OrdersTrace) (t : Trans ordersSystem)
    (cfg : Cfg ordersSystem) (pid : Nat) (id reference : Str) (request : SupplierPurchaseRequest)
    (out : Except Exc OrderSnapshot),
    Run ordersSystem Store.empty tr cfg → Available tr → tr = l ++ t :: m →
      t.event = .act pid (.purchase request) (.ok (.succeeded (some reference))) →
      request.requestKey = str "purchase:" ++ id → isSafeText reference 128 = true →
      (∀ u ∈ tr, ∀ q request' result, u.event = .act q (.reconcile request') result →
        request'.requestKey = request.requestKey → Agrees reference result) →
      allEnded tr cfg = true → cfg.result? pid = some out →
      (∃ snapshot, out = .ok snapshot) ∧ Holds cfg.store id reference := by
  intro hall
  obtain ⟨hp, hended, hout, hst⟩ : sampleOverlap.1[17]?.bind purchase? =
        some (0, str "purchase:" ++ sampleIntent, .ok (.succeeded (some (str "ref-1")))) ∧
      allEnded sampleOverlap.1 sampleOverlap.2 = true ∧
      sampleOverlap.2.result? 0 = some (.error (.order .orderStateConflict)) ∧
      sampleOverlap.2.store.1.purchaseState sampleIntent = some .reconciling := by decide +kernel
  obtain ⟨l, t, m, request, htr, hkey, ht⟩ := split_purchase hp
  obtain ⟨-, h, -⟩ := hall _ l m t _ 0 sampleIntent (str "ref-1") request _
    sampleOverlap_run sampleOverlap_available htr ht hkey (by decide)
    (fun u hu q request' result he _ => sampleOverlap_agrees u hu q request' result he) hended hout
  rw [hst] at h
  cases h

/-- A `recover` moves the intent between the purchase and its record, which is refused. -/
theorem confirmation_recorded_sample :
    ∃ u ∈ sampleOverlap.1, ∃ r,
      u.event = .act 0 (.repo (.recordSuccess sampleIntent (some (str "ref-1")))) r ∧
      u.pre.1.purchaseState sampleIntent = some .unknown ∧ u.post = u.pre := by
  obtain ⟨hp, hout⟩ : sampleOverlap.1[17]?.bind purchase? =
        some (0, str "purchase:" ++ sampleIntent, .ok (.succeeded (some (str "ref-1")))) ∧
      sampleOverlap.2.result? 0 = some (.error (.order .orderStateConflict)) := by decide +kernel
  obtain ⟨l, t, m, request, htr, hkey, ht⟩ := split_purchase hp
  obtain ⟨m₁, u, m₂, r, rfl, hu, hrecorded⟩ := confirmation_recorded sampleOverlap_run
    sampleOverlap_available htr ht hkey (by decide)
    (fun u hu q request' result he _ => sampleOverlap_agrees u hu q request' result he) hout
  refine ⟨u, by rw [htr]; simp, r, hu, ?_⟩
  rcases hrecorded with ⟨-, ⟨snapshot, hok⟩, -⟩ | ⟨hunknown, -, hsame, -⟩
  · cases hok
  · exact ⟨hunknown, hsame⟩

end

end NyanShopBot.Orders
