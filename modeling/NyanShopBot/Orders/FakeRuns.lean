import NyanShopBot.Conc.Simulation
import NyanShopBot.Orders.Delivery
import NyanShopBot.Orders.Mirror
import NyanShopBot.Orders.Replay

/-!
# The order service over the in-memory repository

`fakeOrdersSystem` runs the programs of `OrderService` over the dictionaries. Every
repository call that they make is plain (`repo_plain`), so `fake_repeats_postgres`
carries any run over PostgreSQL over: as long as the database answers every
transaction and every safe failure has a code of its type, the same calls get the same
answers in the same order from the fake.
-/

namespace NyanShopBot.Orders

open Py Db Conc

section

variable [UnicodeData] [Hashlib]

/-- What an awaited operation answers over the dictionaries. -/
def MemoryEffect (m : Memory) : (op : ServiceOp) → Except Exc op.Res → Memory → Prop
  | .repo op, r, m' => ∃ same, (r, m') = (op.onMemory same).commit m
  | _, _, m' => m' = m

/-- **The service over the in-memory repository.** -/
abbrev fakeOrdersSystem : System serviceSig Exc := ordersSystem.over Memory MemoryEffect

/-! ## The calls of the service are plain -/

/-- A prepare is of a candidate that its rows can hold. -/
def ServiceOp.Fits (op : ServiceOp) : Prop :=
  ∀ c, op = .repo (.prepare c) → c.FitsRows ∧ c.deliveryAttempts = []

/-- The end of a delivery has a code that passes its check. -/
def ServiceOp.Closes (op : ServiceOp) : Prop :=
  ∀ d succeeded code, op = .repo (.finishDelivery d succeeded code) →
    Memory.checkFailure succeeded code = .ok ()

theorem MadeFor.fits {customerReference : Str} {request : OrderRequest} {c : OrderAggregate}
    (h : MadeFor customerReference request c) : c.FitsRows ∧ c.deliveryAttempts = [] := by
  obtain ⟨payload, hb, hcur⟩ := h
  refine ⟨buildPreparedOrder_fitsRows hb hcur, ?_⟩
  simp only [buildPreparedOrder, except_bind_ok] at hb
  obtain ⟨_, -, _, -, _, -, _, -, hb⟩ := hb
  cases hb
  rfl

omit [Hashlib] in
/-- No step leads back to the stage before the prepare. -/
theorem Stage.next_not_idle {g : Stage} {op : ServiceOp} {r : Except Exc op.Res}
    (h : ∀ key, g ≠ .idle key) (key : Str) : g.next op r ≠ .idle key := by
  rcases g.next_moves op r with e | hm
  · rw [e]
    exact h key
  · intro e
    rw [e] at hm
    cases hm

theorem body_fits (call : ServiceCall) : Awaits ServiceOp.Fits call.body := by
  have hother (hstage : ∀ key, call.stage ≠ .idle key) : Awaits ServiceOp.Fits call.body := by
    refine calls_of_wp (P := callProtocol) (K := fun g => ∀ key, g ≠ .idle key) ?_ ?_
      (body_follows call) hstage
    · rintro g op hg hok c rfl
      exact absurd hok (hg _)
    · intro g op r hg _
      exact Stage.next_not_idle hg
  cases call with
  | placeOrder customerReference request =>
    refine calls_of_wp (P := madeProtocol) (K := fun g => g = .placeOrder customerReference request)
      ?_ (fun _ _ _ h _ => h) (body_made _) rfl
    intro g op hg hok c e
    exact (hok c e customerReference request hg).fits
  | recover id => exact hother (by rintro key ⟨⟩)
  | deliver id => exact hother (by rintro key ⟨⟩)
  | getOrder id => exact hother (by rintro key ⟨⟩)

omit [Hashlib] in
theorem finishAttempt_closes (deliveryId : Str) (r : Except Exc DeliveryResult) :
    Awaits ServiceOp.Closes (finishAttempt deliveryId r) := by
  have hfin {b : Bool} {code : Option Str} (h : Memory.checkFailure b code = .ok ()) :
      Awaits ServiceOp.Closes (awaitRepo (.finishDelivery deliveryId b code)) := by
    refine awaits_await (.repo (.finishDelivery deliveryId b code)) ?_
    rintro _ _ _ ⟨⟩
    exact h
  match r with
  | .error .cancelled => exact .bind (hfin rfl) fun _ => trivial
  | .error .fatal => trivial
  | .error (.order _) | .error .database | .error .exception =>
    exact .bind (hfin rfl) fun _ => trivial
  | .ok .succeeded | .ok (.failed _) | .ok .other => exact .bind (hfin rfl) fun _ => trivial

omit [Hashlib] in
theorem closes_of_noDelivery (op : ServiceOp) (h : op.NoDelivery) : op.Closes := by
  rintro d succeeded code rfl
  exact h.elim

theorem body_closes (call : ServiceCall) : Awaits ServiceOp.Closes call.body := by
  have hsimple {op : ServiceOp}
    (h : ∀ d succeeded code, op ≠ .repo (.finishDelivery d succeeded code)) :
      op.Closes := fun d succeeded code e => absurd e (h d succeeded code)
  cases call with
  | placeOrder customerReference request => exact placeOrder_awaits closes_of_noDelivery _ _
  | recover id => exact recover_awaits closes_of_noDelivery id
  | deliver id =>
    show Awaits _ (deliver id)
    unfold deliver
    refine .bind (awaits_assertSafeExecution (closes_of_noDelivery _ trivial)) fun _ => ?_
    refine .bind (awaits_await (.repo (.createDeliveryAttempt id)) (hsimple (by rintro _ _ _ ⟨⟩)))
      fun attempt => ?_
    refine .bind (awaits_assertSafeExecution (closes_of_noDelivery _ trivial)) fun _ => ?_
    refine .bind (wp_attempt.2 (awaits_await (.deliver _) (hsimple (by rintro _ _ _ ⟨⟩))))
      fun result => ?_
    refine .bind (finishAttempt_closes _ _) fun _ => ?_
    exact .bind (awaits_await (.repo (.get id)) (closes_of_noDelivery _ trivial)) fun _ => trivial
  | getOrder id =>
    refine Awaits.bind (awaits_assertSafeExecution (closes_of_noDelivery _ trivial)) fun _ => ?_
    exact .bind (awaits_await (.repo (.get id)) (closes_of_noDelivery _ trivial)) fun _ => trivial

/-- What every program awaits is all that a run does. -/
theorem awaited {C : ServiceOp → Prop} (hbody : ∀ call : ServiceCall, Awaits C call.body)
    {tr : OrdersTrace} {cfg : Cfg ordersSystem} (h : Run ordersSystem Store.empty tr cfg)
    {t : Trans ordersSystem} (ht : t ∈ tr) {pid : Nat} {op : ServiceOp} {r : Except Exc op.Res}
    (he : t.event = .act pid op r) : C op := by
  obtain ⟨l, m, htr⟩ := List.append_of_mem ht
  obtain ⟨cfg₀, call, k, h₀, -, hp, -⟩ := h.act_at htr he
  obtain ⟨_, -, hok⟩ := h₀.act_ok (P := Protocol.free serviceSig Exc C) (i := fun _ => ())
    (Q := fun _ _ _ => True) hbody hp
  exact hok

/-- A safe failure that is recorded has a code of its type. -/
def Coded (t : Trans ordersSystem) : Prop :=
  ∀ pid id r, t.event ≠ .act pid (.repo (.recordSafeFailure id none)) r

theorem repo_plain {tr : OrdersTrace} {cfg : Cfg ordersSystem}
    (h : Run ordersSystem Store.empty tr cfg) {t : Trans ordersSystem} (ht : t ∈ tr)
    (hcoded : Coded t) {pid : Nat} {op : RepoOp} {r : Except Exc op.Res}
    (he : t.event = .act pid (.repo op) r) : op.Plain := by
  cases op with
  | prepare c => exact awaited body_fits h ht he c rfl
  | recordSafeFailure id code =>
    cases code with
    | none => exact absurd he (hcoded pid id r)
    | some code => rfl
  | finishDelivery d succeeded code => exact awaited body_closes h ht he d succeeded code rfl
  | _ => trivial

/-! ## Runs -/

/-- The database answered: the transaction was neither lost on its way nor failed. -/
def Answered (t : Trans ordersSystem) : Prop :=
  ∀ pid op r, t.event = .act pid (.repo op) r → (r, t.post) = op.exec t.pre ∧ r ≠ .error .database

/-- One step over the tables is one over the dictionaries. -/
theorem InStep.act {s s' : Store} {m : Memory} {op : ServiceOp} {r : Except Exc op.Res} {pid : Nat}
    (h : InStep s m) (he : Effect s op r s')
    (hplain : ∀ rop r', Event.act (A := ordersSystem) pid op r = .act pid (.repo rop) r' →
      rop.Plain)
    (ha : Answered ⟨s, .act pid op r, s'⟩) : ∃ m', MemoryEffect m op r m' ∧ InStep s' m' := by
  cases op with
  | repo op =>
    obtain ⟨hexec, hdb⟩ := ha pid op r rfl
    obtain ⟨rfl, rfl⟩ : r = (op.exec s).1 ∧ s' = (op.exec s).2 :=
      ⟨congrArg Prod.fst hexec, congrArg Prod.snd hexec⟩
    obtain ⟨hanswer, hstep⟩ := h.exec (hplain op _ rfl) true hdb
    exact ⟨_, ⟨true, Prod.ext hanswer.symm rfl⟩, hstep⟩
  | _ =>
    obtain rfl : s' = s := he
    exact ⟨m, rfl, h⟩

/-- The dictionaries hold an aggregate exactly when the tables load it. -/
theorem Mirrors.item_iff {s : Store} {m : Memory} (h : Mirrors s m) {id : Str}
    {a : OrderAggregate} : item? id m.byId = some a ↔ ((RepoOp.get id).exec s).1 = .ok a := by
  rw [get_ok]
  refine ⟨h.loads, fun ha => ?_⟩
  cases hid : item? id m.byId with
  | some b => rw [(h.loads hid).unique ha]
  | none =>
    obtain ⟨r, hr, -⟩ := ha.intent
    rw [h.absent hid] at hr
    cases hr

/-- **The in-memory repository repeats PostgreSQL**: whatever calls of the service run side
by side over a database that answers every transaction, with codes of their type for safe
failures, the same calls get the same answers in the same order over the dictionaries, every
call ends as it did, and the dictionaries hold the aggregates that the database loads. -/
theorem fake_repeats_postgres {tr : OrdersTrace} {cfg : Cfg ordersSystem}
    (h : Run ordersSystem Store.empty tr cfg) (hall : ∀ t ∈ tr, Answered t)
    (hcoded : ∀ t ∈ tr, Coded t) :
    ∃ (tr' : List (Trans fakeOrdersSystem)) (cfg' : Cfg fakeOrdersSystem),
      Run fakeOrdersSystem Memory.empty tr' cfg' ∧
      tr'.map (·.event) = tr.map (·.event.over) ∧
      (∀ pid, cfg'.result? pid = cfg.result? pid) ∧
      ∀ id a, item? id cfg'.store.byId = some a ↔ ((RepoOp.get id).exec cfg.store).1 = .ok a := by
  have hok (t : Trans ordersSystem) (ht : t ∈ tr) : Answered t ∧
      ∀ pid rop r, t.event = .act pid (.repo rop) r → rop.Plain :=
    ⟨hall t ht, fun pid rop r he => repo_plain h ht (hcoded t ht) he⟩
  have hstep {s s' : Store} {m : Memory} {pid : Nat} {op : ServiceOp} {r : Except Exc op.Res}
      (hR : InStep s m) (he : Effect s op r s') (ht : Answered ⟨s, .act pid op r, s'⟩ ∧
        ∀ q rop r', Event.act (A := ordersSystem) pid op r = .act q (.repo rop) r' → rop.Plain) :
      ∃ m', MemoryEffect m op r m' ∧ InStep s' m' :=
    hR.act he (fun rop r e => ht.2 _ rop r e) ht.1
  have hempty : InStep Store.empty Memory.empty := .empty
  obtain ⟨tr', cfg', hm⟩ :=
    @Run.simulates _ _ _ ordersSystem MemoryEffect InStep _ _ _ _ _ hempty hstep h hok
  exact ⟨tr', cfg', hm.run, hm.events, hm.places.result?, fun id a => hm.store.1.item_iff⟩

end

/-! ## A sample -/

section

attribute [local instance] sampleUnicode sampleHashlib

/-- An order that is placed, read by a second call in between, and delivered. -/
abbrev sampleServed : OrdersTrace × Cfg ordersSystem :=
  sampleRun (.ok (.succeeded (some (str "ref-1")))) (.ok .unresolved)
    (.start 0 (.placeOrder (str "cust-1") sampleRequest) :: go 0 10 ++
      .start 1 (.getOrder sampleIntent) :: go 1 2 ++ go 0 4 ++
      .start 2 (.deliver sampleIntent) :: go 2 6)

/-- The event is no failure of the database, and no failure code of another type. -/
def databaseHeld : Event ordersSystem → Bool
  | .act _ (.repo _) (.error .database) => false
  | .act _ (.repo (.recordSafeFailure _ none)) _ => false
  | _ => true

theorem sampleRun_answers (purchase : Except Exc PurchaseResult)
    (reconcile : Except Exc ReconciliationResult) (moves : List (Move ordersSystem)) :
    ∀ t ∈ (sampleRun purchase reconcile moves).1, ∀ pid op r, t.event = .act pid op r →
      (r, t.post) = sampleAnswer purchase reconcile t.pre op := by
  unfold sampleRun
  cases h : replay ordersSystem (sampleAnswer purchase reconcile) Store.empty moves with
  | none => exact fun t ht => absurd ht List.not_mem_nil
  | some st => exact replay_answers h

theorem sampleServed_evaluates :
    sampleServed.1.all (fun t => databaseHeld t.event) = true ∧ sampleServed.1.length = 25 ∧
      (sampleServed.2.result? 2).map (fun r => r.map fun o => (o.purchaseState, o.deliveries)) =
        some (.ok (.succeeded, [⟨1, .succeeded, none⟩])) := by
  decide +kernel

theorem sampleServed_answered : ∀ t ∈ sampleServed.1, Answered t := by
  intro t ht pid op r he
  refine ⟨sampleRun_answers _ _ _ t ht pid (.repo op) r he, ?_⟩
  rintro rfl
  have := List.all_eq_true.1 sampleServed_evaluates.1 t ht
  rw [he] at this
  cases this

theorem sampleServed_coded : ∀ t ∈ sampleServed.1, Coded t := by
  intro t ht pid id r he
  have := List.all_eq_true.1 sampleServed_evaluates.1 t ht
  rw [he] at this
  cases r with
  | ok a => cases this
  | error e => cases e <;> cases this

/-- The fake places, reads and delivers the sample order as the database does. -/
theorem fake_repeats_postgres_sample :
    ∃ (tr' : List (Trans fakeOrdersSystem)) (cfg' : Cfg fakeOrdersSystem),
      Run fakeOrdersSystem Memory.empty tr' cfg' ∧ tr'.length = 25 ∧
      (cfg'.result? 2).map (fun r => r.map fun o => (o.purchaseState, o.deliveries)) =
        some (.ok (.succeeded, [⟨1, .succeeded, none⟩])) := by
  obtain ⟨tr', cfg', hrun, hevents, hresults, -⟩ :=
    fake_repeats_postgres (sampleRun_run _ _ _) sampleServed_answered sampleServed_coded
  obtain ⟨-, hlen, hout⟩ := sampleServed_evaluates
  refine ⟨tr', cfg', hrun, ?_, ?_⟩
  · have h := congrArg List.length hevents
    rw [List.length_map, List.length_map] at h
    exact h.trans hlen
  · rw [hresults]
    exact hout

end

end NyanShopBot.Orders
