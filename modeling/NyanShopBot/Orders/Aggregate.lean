import NyanShopBot.Orders.Refinement

/-!
# The order aggregate invariant

`AggregateInvariant` is what holds of the tables after any sequence of
repository operations, `StepInvariant` what one operation may change. Both come
from the refinement (`exec_refines`) and from the rows an operation writes
(`exec_writes`).
-/

namespace NyanShopBot.Orders

open Py Db

/-! ## What one operation writes -/

/-- The rows that one operation can write. -/
inductive Writes (s : Store) (t' : Tables) : Prop where
  | nothing : t' = s.1 → Writes s t'
  | intent (row : IntentRow) (att : AttemptRow) :
      t' = { s.1 with
        orderIntents := s.1.orderIntents ++ [row]
        supplierAttempts := s.1.supplierAttempts ++ [att] } → Writes s t'
  | purchase (id : Str) (st : PurchaseState) (f : AttemptRow → AttemptRow) :
      (∀ r, ∃ st ref code, f r =
        { r with status := st, supplierOrderReference := ref, failureCode := code }) →
      t' = (s.1.setIntentState id st).setAttempt id f → Writes s t'
  | delivery (row : DeliveryRow) :
      t' = { s.1 with deliveryAttempts := s.1.deliveryAttempts ++ [row] } → Writes s t'
  | deliveryEnd (row : DeliveryRow) (target : DeliveryState) (code : Option Str) :
      row ∈ s.1.deliveryAttempts → row.status = .pending →
      t' = { s.1 with
        deliveryAttempts := modify DeliveryRow.id s.1.deliveryAttempts row.id
          (DeliveryRow.finish target code) } → Writes s t'

section

variable [UnicodeData]

/-- The operation is one on the intent `id` that can write. -/
def RepoOp.On (id : Str) : RepoOp → Prop
  | .claimPrepared i | .recordSuccess i _ | .recordSafeFailure i _ | .recordUnknown i
  | .beginReconciliation i | .createDeliveryAttempt i => i = id
  | .prepare _ | .get _ | .finishDelivery _ _ _ => False

/-- The rows that the operation can write. -/
inductive RepoOp.Writes (s : Store) (t' : Tables) : RepoOp → Prop where
  | nothing (op : RepoOp) : t' = s.1 → RepoOp.Writes s t' op
  | prepare (c : OrderAggregate) (row : IntentRow) (att : AttemptRow) :
      t' = { s.1 with
        orderIntents := s.1.orderIntents ++ [row]
        supplierAttempts := s.1.supplierAttempts ++ [att] } → RepoOp.Writes s t' (.prepare c)
  | purchase (op : RepoOp) (id : Str) (st : PurchaseState) (f : AttemptRow → AttemptRow) :
      op.On id → (∀ j, op ≠ .createDeliveryAttempt j) → (∀ r, ∃ st ref code, f r =
        { r with status := st, supplierOrderReference := ref, failureCode := code }) →
      t' = (s.1.setIntentState id st).setAttempt id f → RepoOp.Writes s t' op
  | create (row : DeliveryRow) :
      t' = { s.1 with deliveryAttempts := s.1.deliveryAttempts ++ [row] } →
      RepoOp.Writes s t' (.createDeliveryAttempt row.orderIntentId)
  | finish (succeeded : Bool) (text : Option Str) (row : DeliveryRow) (target : DeliveryState)
      (code : Option Str) : row ∈ s.1.deliveryAttempts → row.status = .pending →
      target ≠ .pending →
      t' = { s.1 with
        deliveryAttempts := modify DeliveryRow.id s.1.deliveryAttempts row.id
          (DeliveryRow.finish target code) } →
      RepoOp.Writes s t' (.finishDelivery row.id succeeded text)

variable [Hashlib]

theorem RepoOp.writes (op : RepoOp) (s : Store) : op.Writes s (op.exec s).2.1 := by
  rcases Tx.commit_cases op.body s with ⟨e, h⟩ | ⟨a, s', h, hbody⟩
  · rw [RepoOp.exec, h]; exact .nothing op rfl
  rw [RepoOp.exec, h]
  have hsame : s' = s → op.Writes s s'.1 := by rintro rfl; exact .nothing op rfl
  have hset {id : Str} (hop : op.On id) (hno : ∀ j, op ≠ .createDeliveryAttempt j)
      (st : PurchaseState) (reference : Option Str) (code : Option SafeFailureCode) :
      op.Writes s (s.setPurchase id st reference code).1 :=
    .purchase op id st (.setPurchase st reference code) hop hno (fun _ => ⟨_, _, _, rfl⟩) rfl
  have hterm {id : Str} {p : Purchase} {r : OrderAggregate} (hop : op.On id)
      (hno : ∀ j, op ≠ .createDeliveryAttempt j)
      (href : varcharOrNull 128 p.reference = some p.reference)
      (h : recordTerminal id p.state p.reference p.failure s = .ok (r, s')) :
      op.Writes s s'.1 := by
    obtain ⟨b, -, ⟨-, -, -, -, hs⟩ | ⟨-, -, -, rfl⟩⟩ := (recordTerminal_ok href).1 h
    · exact hsame hs
    · exact hset hop hno _ _ _
  cases op with
  | prepare c =>
    obtain ⟨-, ⟨-, hs, -⟩ | ⟨-, row, att, -, -, -, hs⟩⟩ := prepare_ok hbody
    · exact hsame hs
    · exact .prepare c row att hs
  | get id => exact hsame (load_ok.1 hbody).1
  | claimPrepared id =>
    obtain ⟨b, -, ⟨-, -, hs⟩ | ⟨-, -, rfl⟩⟩ := claimPrepared_ok.1 hbody
    · exact hsame hs
    · exact .purchase _ id .dispatching .claim rfl (by rintro _ ⟨⟩) (fun _ => ⟨_, _, _, rfl⟩) rfl
  | recordSuccess id value =>
    obtain ⟨text, -, hsafe, hrec⟩ := recordSuccess_ok.1 hbody
    exact hterm (p := .succeeded text) rfl (by rintro _ ⟨⟩)
      (varcharOrNull_of_isSafeText hsafe) hrec
  | recordSafeFailure id value =>
    obtain ⟨code, -, hrec⟩ := recordSafeFailure_ok.1 hbody
    exact hterm (p := .failedSafe code) rfl (by rintro _ ⟨⟩) rfl hrec
  | recordUnknown id =>
    obtain ⟨b, -, ⟨-, -, hs⟩ | ⟨-, -, rfl⟩⟩ := recordUnknown_ok.1 hbody
    · exact hsame hs
    · exact hset rfl (by rintro _ ⟨⟩) _ _ _
  | beginReconciliation id =>
    obtain ⟨b, -, ⟨-, -, rfl⟩ | ⟨-, -, hs⟩ | ⟨-, -, hs⟩⟩ := beginReconciliation_ok.1 hbody
    · exact hset rfl (by rintro _ ⟨⟩) _ _ _
    · exact hsame hs
    · exact hsame hs
  | createDeliveryAttempt id =>
    obtain ⟨b, rowId, rowKey, -, -, hs⟩ := createDeliveryAttempt_ok hbody
    exact .create _ hs
  | finishDelivery id succeeded text =>
    have hclose {target : DeliveryState} {code : Option Str} (ht : target ≠ .pending)
        (h : closeDelivery id target code s = .ok (a, s')) :
        (RepoOp.finishDelivery id succeeded text).Writes s s'.1 := by
      rcases closeDelivery_ok h with hs | ⟨r, hr, hst, hs⟩
      · exact hsame hs
      · obtain rfl := key_of_lookup hr
        exact .finish succeeded text r target code (mem_of_lookup hr) hst ht hs
    rcases finishDelivery_ok hbody with h | ⟨text, -, h⟩
    · exact hclose (by decide) h
    · exact hclose (by decide) h

theorem exec_writes (op : RepoOp) (s : Store) : Writes s (op.exec s).2.1 := by
  cases op.writes s with
  | nothing op h => exact .nothing h
  | prepare c row att h => exact .intent row att h
  | purchase op id st f _ _ hf h => exact .purchase id st f hf h
  | create row h => exact .delivery row h
  | finish succeeded text row target code hrow hst _ h =>
    exact .deliveryEnd row target code hrow hst h

end

/-! ## Row frames -/

/-- An intent row keeps everything but its state. -/
theorem Writes.intent_row {s : Store} {t' : Tables} (h : Writes s t') {i : IntentRow}
    (hi : i ∈ s.1.orderIntents) :
    ∃ st, { i with purchaseState := st } ∈ t'.orderIntents := by
  cases h with
  | nothing ht => exact ⟨i.purchaseState, by rw [ht]; exact hi⟩
  | intent row att ht => exact ⟨i.purchaseState, by rw [ht]; exact List.mem_append_left _ hi⟩
  | purchase id st f _ ht =>
    rw [ht]
    by_cases e : i.id = id
    · exact ⟨st, mem_modify.2 ⟨i, hi, by rw [if_pos e]⟩⟩
    · exact ⟨i.purchaseState, mem_modify.2 ⟨i, hi, by rw [if_neg e]⟩⟩
  | delivery row ht => exact ⟨i.purchaseState, by rw [ht]; exact hi⟩
  | deliveryEnd row target code _ _ ht => exact ⟨i.purchaseState, by rw [ht]; exact hi⟩

/-- An attempt row keeps everything but its status and its evidence. -/
theorem Writes.attempt_row {s : Store} {t' : Tables} (h : Writes s t') {a : AttemptRow}
    (ha : a ∈ s.1.supplierAttempts) : ∃ st ref code,
      { a with status := st, supplierOrderReference := ref, failureCode := code } ∈
        t'.supplierAttempts := by
  have hkeep (ht : a ∈ t'.supplierAttempts) : ∃ st ref code,
      { a with status := st, supplierOrderReference := ref, failureCode := code } ∈
        t'.supplierAttempts := ⟨_, _, _, ht⟩
  cases h with
  | nothing ht => exact hkeep (by rw [ht]; exact ha)
  | intent row att ht => exact hkeep (by rw [ht]; exact List.mem_append_left _ ha)
  | purchase id st f hf ht =>
    by_cases e : a.orderIntentId = id
    · obtain ⟨st, ref, code, hfa⟩ := hf a
      exact ⟨st, ref, code, by rw [ht, ← hfa]; exact mem_modify.2 ⟨a, ha, by rw [if_pos e]⟩⟩
    · exact hkeep (by rw [ht]; exact mem_modify.2 ⟨a, ha, by rw [if_neg e]⟩)
  | delivery row ht => exact hkeep (by rw [ht]; exact ha)
  | deliveryEnd row target code _ _ ht => exact hkeep (by rw [ht]; exact ha)

/-- A delivery that has ended keeps its row. -/
theorem Writes.delivery_row {s : Store} {t' : Tables} (h : Writes s t') {d : DeliveryRow}
    (hd : d ∈ s.1.deliveryAttempts) (hst : d.status ≠ .pending) : d ∈ t'.deliveryAttempts := by
  cases h with
  | nothing ht => rw [ht]; exact hd
  | intent row att ht => rw [ht]; exact hd
  | purchase id st f hf ht => rw [ht]; exact hd
  | delivery row ht => rw [ht]; exact List.mem_append_left _ hd
  | deliveryEnd row target code hrow hpend ht =>
    rw [ht]
    refine mem_modify.2 ⟨d, hd, ?_⟩
    rw [if_neg fun e => hst ?_]
    rw [List.inj_on_of_nodup_map s.2.2.2.1 hd hrow e, hpend]

/-! ## The invariant -/

/-- The state changes that are ever made. -/
def purchaseEdges : List (PurchaseState × PurchaseState) :=
  [(.prepared, .dispatching), (.dispatching, .succeeded), (.dispatching, .failedSafe),
    (.dispatching, .unknown), (.unknown, .reconciling), (.reconciling, .succeeded),
    (.reconciling, .failedSafe)]

theorem Purchase.Step.edge {p q : Purchase} (h : p.Step q) :
    (p.state, q.state) ∈ purchaseEdges := by
  cases h with
  | claim => decide
  | succeed r h => rcases h with rfl | rfl <;> simp [purchaseEdges, state]
  | fail c h => rcases h with rfl | rfl <;> simp [purchaseEdges, state]
  | lose => decide
  | reconcile => decide

/-- What holds of the order tables in every reachable state. -/
structure AggregateInvariant (t : Tables) : Prop where
  /-- An intent has one supplier attempt, in its state and with the evidence of it. -/
  attempt : ∀ i ∈ t.orderIntents, ∃ a,
    (t.supplierAttempts.filter fun a => a.orderIntentId = i.id) = [a] ∧
    a.status = i.purchaseState ∧
    (a.supplierOrderReference.isSome = true ↔ i.purchaseState = .succeeded) ∧
    (a.failureCode.isSome = true ↔ i.purchaseState = .failedSafe)
  attemptIntent : ∀ a ∈ t.supplierAttempts, ∃ i ∈ t.orderIntents, i.id = a.orderIntentId
  deliveryIntent : ∀ d ∈ t.deliveryAttempts, ∃ i ∈ t.orderIntents, i.id = d.orderIntentId ∧
    i.purchaseState = .succeeded
  /-- The deliveries of an intent are numbered from one in the order of their creation. -/
  numbered : ∀ i ∈ t.orderIntents,
    (t.deliveryAttempts.filter fun d => d.orderIntentId = i.id).map (·.attemptNumber) =
      (List.range (t.deliveryAttempts.filter fun d => d.orderIntentId = i.id).length).map
        fun n : Nat => (n : Int) + 1

/-- What one operation may change in the order tables. -/
structure StepInvariant (t t' : Tables) : Prop where
  /-- An intent keeps its row up to the state, which stays or takes one edge. -/
  intent : ∀ i ∈ t.orderIntents, ∃ st, { i with purchaseState := st } ∈ t'.orderIntents ∧
    (st = i.purchaseState ∨ (i.purchaseState, st) ∈ purchaseEdges)
  /-- A new intent is prepared. -/
  newIntent : ∀ i' ∈ t'.orderIntents, (∃ i ∈ t.orderIntents, i.id = i'.id) ∨
    i'.purchaseState = .prepared
  /-- The request of an attempt never changes. -/
  attempt : ∀ a ∈ t.supplierAttempts, ∃ st ref code,
    { a with status := st, supplierOrderReference := ref, failureCode := code } ∈
      t'.supplierAttempts
  /-- An attempt that has ended never changes. -/
  ended : ∀ a ∈ t.supplierAttempts, a.status = .succeeded ∨ a.status = .failedSafe →
    a ∈ t'.supplierAttempts
  /-- A delivery that has ended never changes. -/
  delivery : ∀ d ∈ t.deliveryAttempts, d.status = .succeeded ∨ d.status = .failed →
    d ∈ t'.deliveryAttempts

section

variable [UnicodeData]

/-- The rows of one intent, read off its obligation. -/
theorem Represents.intent_row {s : Store} {L : Ledger} (hR : Represents s.1 L) {i : IntentRow}
    (hi : i ∈ s.1.orderIntents) : ∃ o, L i.id = some o ∧ Encodes s.1 i.id o ∧
      i.purchaseState = o.purchase.state := by
  have hl := lookup_of_mem IntentRow.id s.2.1.1 hi
  cases hL : L i.id with
  | none => rw [hR.absent hL] at hl; cases hl
  | some o =>
    have he := hR.present hL
    obtain ⟨r, hr, -, hst⟩ := he.intent
    obtain rfl : i = r := Option.some.inj (hl.symm.trans hr)
    exact ⟨o, rfl, he, hst⟩

theorem Represents.attempt_row {s : Store} {L : Ledger} (hR : Represents s.1 L) {a : AttemptRow}
    (ha : a ∈ s.1.supplierAttempts) : ∃ o, L a.orderIntentId = some o ∧ a.Encodes o := by
  obtain ⟨i, hi, e⟩ := List.mem_map.1 (s.2.2.1.2.2.2.1 a ha)
  obtain ⟨o, ho, he, -⟩ := hR.intent_row hi
  rw [e] at ho he
  obtain ⟨q, hq, hk⟩ := he.attempt
  obtain rfl : a = q := Option.some.inj
    ((lookup_of_mem AttemptRow.orderIntentId s.2.2.1.2.1 ha).symm.trans hq)
  exact ⟨o, ho, hk⟩

/-- Tables that represent a ledger meet the invariant. -/
theorem Represents.aggregate {s : Store} {L : Ledger} (hR : Represents s.1 L) :
    AggregateInvariant s.1 where
  attempt i hi := by
    obtain ⟨o, ho, he, hst⟩ := hR.intent_row hi
    obtain ⟨a, ha, hk⟩ := he.attempt
    refine ⟨a, filter_key_eq s.2.2.1.2.1 ha, hk.status.trans hst.symm, ?_, ?_⟩
    · rw [hk.reference, hst]; exact o.purchase.reference_isSome
    · rw [hk.failure, hst, Option.isSome_map]; exact o.purchase.failure_isSome
  attemptIntent a ha := by
    obtain ⟨i, hi, e⟩ := List.mem_map.1 (s.2.2.1.2.2.2.1 a ha)
    exact ⟨i, hi, e⟩
  deliveryIntent d hd := by
    obtain ⟨i, hi, e⟩ := List.mem_map.1 (s.2.2.2.2.2.2.1 d hd)
    obtain ⟨o, ho, he, hst⟩ := hR.intent_row hi
    refine ⟨i, hi, e, hst.trans (o.delivered fun h => ?_)⟩
    obtain ⟨n, d₀, -, hn, -⟩ := he.delivery_at hd e.symm
    rw [h] at hn
    cases hn
  numbered i hi := by
    obtain ⟨o, ho, he, -⟩ := hR.intent_row hi
    have hnum : (s.1.deliveryAttempts.filter fun d => d.orderIntentId = i.id).map
        (·.attemptNumber) = (deliveryCodes o.deliveries).map (·.1) := by
      rw [← he.deliveries, List.map_map]; rfl
    have hlen : (s.1.deliveryAttempts.filter fun d => d.orderIntentId = i.id).length =
        o.deliveries.length := by
      have := congrArg List.length he.deliveries
      simpa [deliveryCodes] using this
    rw [hnum, hlen]
    refine List.ext_getElem (by simp [deliveryCodes]) fun n _ _ => ?_
    simp [deliveryCodes]

variable [Hashlib]

/-- **What one operation changes**, from tables that represent a ledger. -/
theorem exec_step (op : RepoOp) {s : Store} {L : Ledger} (hR : Represents s.1 L) :
    StepInvariant s.1 (op.exec s).2.1 := by
  obtain ⟨L', hR', hstep, -⟩ := exec_refines op hR
  have hw := exec_writes op s
  generalize (op.exec s).2 = s' at hR' hw
  have hpurchase {id : Str} {o o' : Obligation} (ho : L id = some o) (ho' : L' id = some o') :
      o'.purchase = o.purchase ∨ o.purchase.Step o'.purchase := by
    rcases hstep with rfl | hstep
    · exact .inl (congrArg Obligation.purchase (Option.some.inj (ho'.symm.trans ho)))
    · exact hstep.purchase ho ho'
  refine ⟨fun i hi => ?_, fun i' hi' => ?_, fun a ha => hw.attempt_row ha, fun a ha hend => ?_,
    fun d hd hend => hw.delivery_row hd ?_⟩
  · obtain ⟨st, hmem⟩ := hw.intent_row hi
    refine ⟨st, hmem, ?_⟩
    obtain ⟨o, ho, -, hst⟩ := hR.intent_row hi
    obtain ⟨o', ho', -, hst'⟩ := hR'.intent_row hmem
    rw [hst, show st = o'.purchase.state from hst']
    rcases hpurchase ho ho' with e | hs
    · exact .inl (by rw [e])
    · exact .inr hs.edge
  · obtain ⟨o', ho', -, hst'⟩ := hR'.intent_row hi'
    cases hL : L i'.id with
    | some o =>
      obtain ⟨r, hr, -⟩ := (hR.present hL).intent
      exact .inl ⟨r, mem_of_lookup hr, key_of_lookup hr⟩
    | none =>
      right
      rcases hstep with rfl | hstep
      · rw [hL] at ho'; cases ho'
      · rw [hst', hstep.new hL ho']; rfl
  · obtain ⟨st, ref, code, hmem⟩ := hw.attempt_row ha
    obtain ⟨o, ho, hk⟩ := hR.attempt_row ha
    obtain ⟨o', ho', hk'⟩ := hR'.attempt_row hmem
    have hsame : o'.purchase = o.purchase := by
      rcases hpurchase ho ho' with e | hs
      · exact e
      · rw [hk.status] at hend
        exact absurd hend (not_or.2 hs.not_ended)
    have e1 : st = a.status := by rw [hk.status, ← hsame]; exact hk'.status
    have e2 : ref = a.supplierOrderReference := by rw [hk.reference, ← hsame]; exact hk'.reference
    have e3 : code = a.failureCode := by rw [hk.failure, ← hsame]; exact hk'.failure
    rwa [e1, e2, e3] at hmem
  · rcases hend with h | h <;> rw [h] <;> decide

/-! ## Runs -/

/-- The store after a sequence of operations. -/
def runOps (ops : List RepoOp) (s : Store) : Store := ops.foldl (fun s op => (op.exec s).2) s

theorem runOps_represents (ops : List RepoOp) {s : Store} {L : Ledger} (hR : Represents s.1 L) :
    ∃ L', Represents (runOps ops s).1 L' := by
  induction ops generalizing s L with
  | nil => exact ⟨L, hR⟩
  | cons op ops ih =>
    obtain ⟨L', hR', -⟩ := exec_refines op hR
    exact ih hR'

/-- **The order aggregate invariant**: after any operations on the empty store
the invariant holds, and the next operation keeps what must be kept; when it
raises, it leaves the store as it was. -/
theorem order_aggregate_invariant (ops : List RepoOp) :
    AggregateInvariant (runOps ops Store.empty).1 ∧
      ∀ op : RepoOp, StepInvariant (runOps ops Store.empty).1
          (op.exec (runOps ops Store.empty)).2.1 ∧
        ∀ e, (op.exec (runOps ops Store.empty)).1 = .error e →
          (op.exec (runOps ops Store.empty)).2 = runOps ops Store.empty := by
  obtain ⟨L, hR⟩ := runOps_represents ops Represents.empty
  exact ⟨hR.aggregate, fun op => ⟨exec_step op hR, fun e he => Tx.commit_error he⟩⟩

end

end NyanShopBot.Orders
