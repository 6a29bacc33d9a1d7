import NyanShopBot.Orders.Gates

/-!
# Deliveries

`deliver` creates an attempt, calls the sink once and closes the attempt.
`deliveryProtocol` is the order of its steps: it leaves an attempt open where the
settings turn unsafe between the create and the sink, or where the sink raises what
is neither an `Exception` nor a cancellation (`Delivering.abandoned`).
`deliveries_closed` says this of every run, beside what holds without a condition:
attempt numbers are distinct, the sink gets each of them once, and no delivery
writes a purchase.
-/

namespace NyanShopBot.Orders

open Py Db Conc

/-! ## The protocol -/

/-- The end that `deliver` gives an attempt: whether it succeeded, and the code. -/
def closing : Except Exc DeliveryResult → Option (Bool × Option Str)
  | .error .fatal => none
  | .error .cancelled => some (false, some (str "DELIVERY_CANCELLED"))
  | .error _ => some (false, some (str "DELIVERY_SINK_ERROR"))
  | .ok .succeeded => some (true, none)
  | .ok (.failed _) => some (false, some (str "DELIVERY_FAILED"))
  | .ok .other => some (false, some (str "DELIVERY_SINK_ERROR"))

theorem closing_eq_none {r : Except Exc DeliveryResult} :
    closing r = none ↔ r = .error .fatal := by
  refine ⟨fun h => ?_, fun h => by rw [h]; rfl⟩
  unfold closing at h
  split at h <;> first | rfl | cases h

/-- How far a call has come with a delivery. -/
inductive Delivering where
  | other
  | begun (id : Str)
  | ready (id : Str)
  | created (id : Str) (a : DeliveryAttemptRecord)
  | checked (id : Str) (a : DeliveryAttemptRecord)
  | served (id : Str) (a : DeliveryAttemptRecord) (succeeded : Bool) (code : Option Str)
  | closed (id : Str) (a : DeliveryAttemptRecord)
  | stopped
  | abandoned (id : Str) (a : DeliveryAttemptRecord)

/-- The settings could be read and are safe. -/
def safeRead : Except Exc RuntimeSafetySettings → Bool
  | .ok settings => settings.safe
  | .error _ => false

namespace Delivering

/-- Where a delivery can end. -/
def Ended : Delivering → Prop
  | .begun _ | .created _ _ | .checked _ _ | .served _ _ _ _ => False
  | _ => True

/-- The attempt that the call has created. -/
def attempt? : Delivering → Option (Str × DeliveryAttemptRecord)
  | .created id a | .checked id a | .served id a _ _ | .closed id a | .abandoned id a =>
    some (id, a)
  | _ => none

/-- Nothing has kept the call from closing its attempt. -/
def Calm : Delivering → Prop
  | .stopped | .abandoned _ _ => False
  | _ => True

end Delivering

/-! ## Rows -/

/-- The row of the attempt `a` of an intent. -/
structure DeliveryRow.IsOf (row : DeliveryRow) (id : Str) (a : DeliveryAttemptRecord) : Prop where
  rowId : row.id = a.id
  intent : row.orderIntentId = id
  number : row.attemptNumber = a.attemptNumber

/-- The attempt has a row, which is still open. -/
def Open (s : Store) (id : Str) (a : DeliveryAttemptRecord) : Prop :=
  storable a.id = true ∧ ∃ row ∈ s.1.deliveryAttempts, row.IsOf id a ∧ row.status = .pending

/-- What the stage of a delivery says about its row. -/
def Delivering.Row (committed : Prop) (s : Store) : Delivering → Prop
  | .created id a | .checked id a | .abandoned id a => Open s id a
  | .served id a succeeded code => Open s id a ∧ ∃ r, closing r = some (succeeded, code)
  | .closed id a => ∃ row ∈ s.1.deliveryAttempts, row.IsOf id a ∧
      (committed → row.status ≠ .pending)
  | .other | .begun _ | .ready _ | .stopped => True

theorem Open.mono {s s' : Store} {id : Str} {a : DeliveryAttemptRecord} (h : Open s id a)
    (hk : ∀ row ∈ s.1.deliveryAttempts, row.id = a.id → row ∈ s'.1.deliveryAttempts) :
    Open s' id a := by
  obtain ⟨hst, row, hrow, hof, hpend⟩ := h
  exact ⟨hst, row, hk row hrow hof.rowId, hof, hpend⟩

theorem Delivering.Row.mono {g : Delivering} {K K' : Prop} {s s' : Store} (h : g.Row K s)
    (hK : K' → K) (hk : ∀ id a, g.attempt? = some (id, a) →
      ∀ row ∈ s.1.deliveryAttempts, row.id = a.id → row ∈ s'.1.deliveryAttempts) :
    g.Row K' s' := by
  cases g with
  | created id a => exact Open.mono h (hk id a rfl)
  | checked id a => exact Open.mono h (hk id a rfl)
  | abandoned id a => exact Open.mono h (hk id a rfl)
  | served id a succeeded code => exact ⟨Open.mono h.1 (hk id a rfl), h.2⟩
  | closed id a =>
    obtain ⟨row, hrow, hof, hst⟩ := h
    exact ⟨row, hk id a rfl row hrow hof.rowId, hof, fun hK' => hst (hK hK')⟩
  | _ => trivial

/-- The call with an attempt has its row. -/
theorem Delivering.Row.has {g : Delivering} {K : Prop} {s : Store} {id : Str}
    {a : DeliveryAttemptRecord} (h : g.Row K s) (hg : g.attempt? = some (id, a)) :
    ∃ row ∈ s.1.deliveryAttempts, row.IsOf id a := by
  have hopen (ho : Open s id a) : ∃ row ∈ s.1.deliveryAttempts, row.IsOf id a := by
    obtain ⟨-, row, hrow, hof, -⟩ := ho
    exact ⟨row, hrow, hof⟩
  cases g with
  | created | checked | abandoned =>
    cases hg
    exact hopen h
  | served =>
    cases hg
    exact hopen h.1
  | closed =>
    cases hg
    obtain ⟨row, hrow, hof, -⟩ := h
    exact ⟨row, hrow, hof⟩
  | _ => cases hg

section

variable [UnicodeData]

/-- An operation that is about no delivery. -/
def ServiceOp.NoDelivery : ServiceOp → Prop
  | .repo (.createDeliveryAttempt _) | .repo (.finishDelivery _ _ _) | .deliver _ => False
  | _ => True

namespace Delivering

def ok (g : Delivering) : ServiceOp → Prop
  | .runtime => g = .other ∨ (∃ id, g = .begun id) ∨ ∃ id a, g = .created id a
  | .repo (.createDeliveryAttempt id) => g = .ready id
  | .repo (.finishDelivery d succeeded code) => ∃ id a, g = .served id a succeeded code ∧ d = a.id
  | .deliver request => ∃ id a, g = .checked id a ∧ request = ⟨id, a.attemptNumber, a.deliveryKey⟩
  | .repo (.get _) => True
  | _ => g = .other

def next (g : Delivering) : (op : ServiceOp) → Except Exc op.Res → Delivering
  | .runtime, r =>
    match g with
    | .begun id => if safeRead r then .ready id else .stopped
    | .created id a => if safeRead r then .checked id a else .abandoned id a
    | g => g
  | .repo (.createDeliveryAttempt _), .ok a =>
    match g with
    | .ready id => .created id a
    | g => g
  | .deliver _, r =>
    match g with
    | .checked id a =>
      match closing r with
      | some (succeeded, code) => .served id a succeeded code
      | none => .abandoned id a
    | g => g
  | .repo (.finishDelivery _ _ _), _ =>
    match g with
    | .served id a _ _ => .closed id a
    | g => g
  | _, _ => g

end Delivering

abbrev deliveryProtocol : Protocol serviceSig Exc := ⟨Delivering, Delivering.ok, Delivering.next⟩

def ServiceCall.delivering : ServiceCall → Delivering
  | .deliver id => .begun id
  | _ => .other

theorem ServiceCall.attempt?_delivering (c : ServiceCall) : c.delivering.attempt? = none := by
  cases c <;> rfl

/-- **What a step in order does** to a delivery. -/
inductive Delivering.Moves : Delivering → (op : ServiceOp) → Except Exc op.Res → Delivering → Prop
  | idle (op : ServiceOp) (r : Except Exc op.Res) : op.NoDelivery → Moves .other op r .other
  | get (g : Delivering) (id : Str) (r : Except Exc OrderAggregate) :
      Moves g (.repo (.get id)) r g
  | ready (id : Str) (r : Except Exc RuntimeSafetySettings) :
      safeRead r = true → Moves (.begun id) .runtime r (.ready id)
  | stop (id : Str) (r : Except Exc RuntimeSafetySettings) :
      safeRead r = false → Moves (.begun id) .runtime r .stopped
  | create (id : Str) (a : DeliveryAttemptRecord) :
      Moves (.ready id) (.repo (.createDeliveryAttempt id)) (.ok a) (.created id a)
  | refuse (id : Str) (e : Exc) :
      Moves (.ready id) (.repo (.createDeliveryAttempt id)) (.error e) (.ready id)
  | check (id : Str) (a : DeliveryAttemptRecord) (r : Except Exc RuntimeSafetySettings) :
      safeRead r = true → Moves (.created id a) .runtime r (.checked id a)
  | disable (id : Str) (a : DeliveryAttemptRecord) (r : Except Exc RuntimeSafetySettings) :
      safeRead r = false → Moves (.created id a) .runtime r (.abandoned id a)
  | serve (id : Str) (a : DeliveryAttemptRecord) (r : Except Exc DeliveryResult)
      (succeeded : Bool) (code : Option Str) : closing r = some (succeeded, code) →
      Moves (.checked id a) (.deliver ⟨id, a.attemptNumber, a.deliveryKey⟩) r
        (.served id a succeeded code)
  | interrupt (id : Str) (a : DeliveryAttemptRecord) (r : Except Exc DeliveryResult) :
      closing r = none →
      Moves (.checked id a) (.deliver ⟨id, a.attemptNumber, a.deliveryKey⟩) r (.abandoned id a)
  | close (id : Str) (a : DeliveryAttemptRecord) (succeeded : Bool) (code : Option Str)
      (r : Except Exc DeliveryAttemptRecord) :
      Moves (.served id a succeeded code) (.repo (.finishDelivery a.id succeeded code)) r
        (.closed id a)

theorem Delivering.moves_of_ok {g : Delivering} {op : ServiceOp} (r : Except Exc op.Res)
    (h : g.ok op) : Moves g op r (g.next op r) := by
  cases op with
  | repo op =>
    cases op with
    | get id => exact .get g id r
    | createDeliveryAttempt id =>
      obtain rfl := h
      cases r with
      | ok a => exact .create id a
      | error e => exact .refuse id e
    | finishDelivery d succeeded code =>
      obtain ⟨id, a, rfl, rfl⟩ := h
      exact .close id a succeeded code r
    | prepare c =>
      obtain rfl : g = .other := h
      exact .idle _ r trivial
    | claimPrepared id =>
      obtain rfl : g = .other := h
      exact .idle _ r trivial
    | recordSuccess id reference =>
      obtain rfl : g = .other := h
      exact .idle _ r trivial
    | recordSafeFailure id code =>
      obtain rfl : g = .other := h
      exact .idle _ r trivial
    | recordUnknown id =>
      obtain rfl : g = .other := h
      exact .idle _ r trivial
    | beginReconciliation id =>
      obtain rfl : g = .other := h
      exact .idle _ r trivial
  | runtime =>
    rcases h with rfl | ⟨id, rfl⟩ | ⟨id, a, rfl⟩
    · exact .idle _ r trivial
    · show Moves _ _ _ (if safeRead r then .ready id else .stopped)
      split
      · next hr => exact .ready id r hr
      · next hr => exact .stop id r (Bool.eq_false_iff.2 hr)
    · show Moves _ _ _ (if safeRead r then .checked id a else .abandoned id a)
      split
      · next hr => exact .check id a r hr
      · next hr => exact .disable id a r (Bool.eq_false_iff.2 hr)
  | deliver request =>
    obtain ⟨id, a, rfl, rfl⟩ := h
    cases hr : closing r with
    | none =>
      simp only [Delivering.next, hr]
      exact .interrupt id a r hr
    | some c =>
      simp only [Delivering.next, hr]
      exact .serve id a r c.1 c.2 hr
  | readCatalog | getProduct | supplierCode | capabilities | purchase | reconcile =>
    obtain rfl : g = .other := h
    exact .idle _ r trivial

theorem Delivering.Moves.ne_other {g g' : Delivering} {op : ServiceOp} {r : Except Exc op.Res}
    (h : g.Moves op r g') (hne : g' ≠ .other) : g ≠ .other := by
  rintro rfl
  cases h with
  | idle => exact hne rfl
  | get => exact hne rfl

theorem Delivering.Moves.other_ne {g g' : Delivering} {op : ServiceOp} {r : Except Exc op.Res}
    (h : g.Moves op r g') (hne : g ≠ .other) : g' ≠ .other := by
  cases h with
  | idle => exact absurd rfl hne
  | get => exact hne
  | _ => rintro ⟨⟩

/-! ## The calls follow it -/

/-- How a delivery ends: a call of another kind stays out of it. -/
def Delivering.Ends {α : Type} (g : Delivering) (_ : Except Exc α) : Prop := g.Ended

theorem Delivering.other_frame (op : ServiceOp) (h : op.NoDelivery) :
    deliveryProtocol.ok .other op ∧ ∀ r, deliveryProtocol.next .other op r = .other := by
  cases op with
  | repo op => cases op <;> first | exact h.elim | exact ⟨rfl, fun r => by cases r <;> rfl⟩ |
      exact ⟨trivial, fun r => by cases r <;> rfl⟩
  | deliver => exact h.elim
  | runtime => exact ⟨.inl rfl, fun _ => rfl⟩
  | _ => exact ⟨rfl, fun _ => rfl⟩

section wp

variable {α β : Type} {g : Delivering} {Q : Delivering → Except Exc α → Prop}

/-- Both checks of the settings. -/
theorem wp_assertSafe {f : Unit → Service α} (hok : g.ok .runtime)
    (hf : ∀ r, safeRead r = true → wp deliveryProtocol Q (g.next .runtime r) (f ()))
    (he : ∀ r e, safeRead r = false → Q (g.next .runtime r) (.error e)) :
    wp deliveryProtocol Q g (assertSafeExecution >>= f) := by
  refine wp_bind.2 (wp_bind.2 (wp_bind.2 (wp_attempt.2 (wp_perform.2 ⟨hok, fun r => ?_⟩))))
  cases r with
  | error e => exact he (.error e) _ rfl
  | ok settings =>
    refine wp_ensure.2 ⟨fun h => hf (.ok settings) h, fun h => he (.ok settings) _ ?_⟩
    exact Bool.eq_false_iff.2 h

theorem finishAttempt_delivers {id : Str} {a : DeliveryAttemptRecord}
    (r : Except Exc DeliveryResult) :
    wp deliveryProtocol (fun g (_ : Except Exc Unit) => g.Ended)
      ((Delivering.checked id a).next (.deliver ⟨id, a.attemptNumber, a.deliveryKey⟩) r)
      (finishAttempt a.id r) := by
  have hfin {succeeded : Bool} {code : Option Str} {f : DeliveryAttemptRecord → Service Unit}
      (hf : ∀ d, wp deliveryProtocol (fun g (_ : Except Exc Unit) => g.Ended)
        (.closed id a) (f d)) :
      wp deliveryProtocol (fun g (_ : Except Exc Unit) => g.Ended) (.served id a succeeded code)
        (awaitRepo (.finishDelivery a.id succeeded code) >>= f) := by
    refine wp_bind.2 (wp_perform.2 ⟨⟨id, a, rfl, rfl⟩, fun r => ?_⟩)
    cases r with
    | error e => trivial
    | ok d => exact hf d
  match r with
  | .error .cancelled => exact hfin fun _ => trivial
  | .error .fatal => trivial
  | .error (.order _) | .error .database | .error .exception => exact hfin fun _ => trivial
  | .ok .succeeded | .ok (.failed _) | .ok .other => exact hfin fun _ => trivial

end wp

theorem deliver_delivers (id : Str) :
    wp deliveryProtocol Delivering.Ends (.begun id) (deliver id) := by
  unfold deliver
  refine wp_assertSafe (.inr (.inl ⟨id, rfl⟩)) (fun r hr => ?_) fun r e hr => ?_
  · rw [Delivering.next, hr]
    refine wp_bind.2 (wp_perform.2 ⟨rfl, fun r => ?_⟩)
    cases r with
    | error e => trivial
    | ok a =>
      refine wp_assertSafe (g := .created id a) (.inr (.inr ⟨id, a, rfl⟩)) (fun r hr => ?_)
        fun r e hr => ?_
      · rw [Delivering.next, hr]
        refine wp_bind.2 (wp_attempt.2 (wp_perform.2 ⟨⟨id, a, rfl, rfl⟩, fun r => ?_⟩))
        refine wp_bind.2 (wp_mono (fun g r' hended => ?_) (finishAttempt_delivers r))
        cases r' with
        | error e => exact hended
        | ok u =>
          refine wp_bind.2 (wp_perform.2 ⟨trivial, fun r => ?_⟩)
          cases r <;> exact hended
      · rw [Delivering.next, hr]
        trivial
  · rw [Delivering.next, hr]
    trivial

section awaits

variable {C : ServiceOp → Prop}

theorem recordReconciliation_awaits (hC : ∀ op : ServiceOp, op.NoDelivery → C op) (id : Str)
    (started : OrderAggregate) (r : Except Exc ReconciliationResult) :
    Awaits C (recordReconciliation id started r) := by
  match r with
  | .error e =>
    exact wp_ite.2 ⟨fun _ => trivial, fun _ => trivial⟩
  | .ok (.succeeded reference) => exact calls_perform (hC _ trivial)
  | .ok (.failedSafe code) => exact calls_perform (hC _ trivial)
  | .ok .unresolved | .ok .other => trivial

theorem reconcileIntent_awaits (hC : ∀ op : ServiceOp, op.NoDelivery → C op) (id : Str) :
    Awaits C (reconcileIntent id) := by
  refine .bind (awaits_await (.repo (.beginReconciliation id)) (hC _ trivial)) fun started => ?_
  refine wp_ite.2 ⟨fun _ => trivial, fun _ => ?_⟩
  refine Awaits.bind (awaits_reconciliationSupported (hC _ trivial)) fun supported => ?_
  refine wp_ite.2 ⟨fun _ => trivial, fun _ => ?_⟩
  refine Awaits.bind (awaits_requireMatchingPersistedSupplier (hC _ trivial) _) fun _ => ?_
  refine .bind (awaits_assertSafeExecution (hC _ trivial)) fun _ => ?_
  refine .bind (wp_attempt.2 (awaits_await (.reconcile _) (hC _ trivial))) fun result => ?_
  exact recordReconciliation_awaits hC id _ result

theorem recover_awaits (hC : ∀ op : ServiceOp, op.NoDelivery → C op) (id : Str) :
    Awaits C (recover id) := by
  have hfrom (aggregate : OrderAggregate) : Awaits C (recoverFrom id aggregate) := by
    unfold recoverFrom
    split
    · trivial
    · trivial
    · trivial
    · trivial
    · exact .bind (reconcileIntent_awaits hC id) fun _ => trivial
    · exact .bind (reconcileIntent_awaits hC id) fun _ => trivial
  unfold recover
  refine .bind (awaits_assertSafeExecution (hC _ trivial)) fun _ => ?_
  refine .bind (awaits_await (.repo (.get id)) (hC _ trivial)) fun found => ?_
  split
  · refine .bind (awaits_await (.repo (.recordUnknown id)) (hC _ trivial)) fun aggregate => ?_
    exact hfrom aggregate
  · exact hfrom found

variable [Hashlib]

theorem placeOrder_awaits (hC : ∀ op : ServiceOp, op.NoDelivery → C op) (customerReference : Str)
    (request : OrderRequest) : Awaits C (placeOrder customerReference request) := by
  refine calls_of_wp (P := gateProtocol)
    (K := fun s : ServiceCall × Reads => s.1 = .placeOrder customerReference request)
    (fun s op hs hop => hC op ?_) (fun _ _ _ hs _ => hs)
    (placeOrder_gated customerReference request) rfl
  have hop : s.1.InOrder s.2 op := hop
  rw [hs] at hop
  rcases hop with hcheck | ⟨c, rfl, -⟩ | ⟨-, hdispatch⟩
  · cases op <;> first | exact hcheck.elim | trivial
  · trivial
  · cases op with
    | repo op => cases op <;> first | exact hdispatch.elim | trivial
    | deliver => exact hdispatch.elim
    | _ => trivial

end awaits

/-- **Every call follows the protocol of deliveries.** -/
theorem body_delivers [Hashlib] (call : ServiceCall) :
    wp deliveryProtocol Delivering.Ends call.delivering call.body := by
  have hother {p : Service OrderSnapshot} (hp : Awaits ServiceOp.NoDelivery p) :
      wp deliveryProtocol Delivering.Ends .other p :=
    wp_frame Delivering.other_frame (fun _ _ => trivial) hp
  cases call with
  | placeOrder customerReference request =>
    exact hother (placeOrder_awaits (fun _ h => h) customerReference request)
  | recover id => exact hother (recover_awaits (fun _ h => h) id)
  | deliver id => exact deliver_delivers id
  | getOrder id =>
    refine hother (.bind (awaits_assertSafeExecution trivial) fun _ => ?_)
    exact .bind (awaits_await (.repo (.get id)) trivial) fun _ => trivial

/-! ## What is written -/

/-- The operation does not finish the attempt with this id. -/
def ServiceOp.Spares (op : ServiceOp) (d : Str) : Prop :=
  ∀ succeeded code, op ≠ .repo (.finishDelivery d succeeded code)

theorem ServiceOp.NoDelivery.spares {op : ServiceOp} (h : op.NoDelivery) (d : Str) :
    op.Spares d := by
  rintro succeeded code rfl
  exact h

section

variable [Hashlib] {s s' : Store} {row : DeliveryRow}

theorem Effect.writes {op : RepoOp} {r : Except Exc op.Res} (h : Effect s (.repo op) r s') :
    op.Writes s s'.1 := by
  rcases h with h | ⟨e, -, rfl | h⟩
  · rw [show s' = (op.exec s).2 from congrArg Prod.snd h]
    exact op.writes s
  · exact .nothing op rfl
  · rw [h]
    exact op.writes s

/-- Only its finish touches the row of an attempt. -/
theorem Effect.spares {op : ServiceOp} {r : Except Exc op.Res} (h : Effect s op r s')
    (hrow : row ∈ s.1.deliveryAttempts) (hop : op.Spares row.id) :
    row ∈ s'.1.deliveryAttempts := by
  cases op with
  | repo op =>
    cases Effect.writes h with
    | nothing op hs => rwa [hs]
    | prepare c row' att hs => rwa [hs]
    | purchase op id st f _ _ _ hs => rwa [hs]
    | create row' hs =>
      rw [hs]
      exact List.mem_append_left _ hrow
    | finish succeeded text row' target code _ _ _ hs =>
      rw [hs]
      refine mem_modify.2 ⟨row, hrow, ?_⟩
      rw [if_neg fun e => hop succeeded text (by rw [e])]
  | _ =>
    obtain rfl : s' = s := h
    exact hrow

/-- Every attempt keeps its row. -/
theorem Effect.keeps_row {op : ServiceOp} {r : Except Exc op.Res} {id : Str}
    {a : DeliveryAttemptRecord} (h : Effect s op r s') (hrow : row ∈ s.1.deliveryAttempts)
    (hof : row.IsOf id a) : ∃ row' ∈ s'.1.deliveryAttempts, row'.IsOf id a := by
  by_cases hop : op.Spares row.id
  · exact ⟨row, h.spares hrow hop, hof⟩
  · simp only [ServiceOp.Spares, not_forall, not_not] at hop
    obtain ⟨succeeded, code, rfl⟩ := hop
    generalize hd : row.id = d at h
    cases Effect.writes h with
    | nothing op hs => exact ⟨row, by rwa [hs], hof⟩
    | purchase op id st f _ _ _ hs => exact ⟨row, by rwa [hs], hof⟩
    | finish succeeded text row' target code _ _ _ hs =>
      rw [hs]
      exact ⟨_, mem_modify.2 ⟨row, hrow, rfl⟩, by
        split <;> exact ⟨hof.rowId, hof.intent, hof.number⟩⟩

theorem createDeliveryAttempt_row {id : Str} {d : DeliveryAttemptRecord}
    (h : createDeliveryAttempt id s = .ok (d, s')) : storable d.id = true ∧
      ∃ row : DeliveryRow, row.IsOf id d ∧ row.status = .pending ∧
        s'.1 = { s.1 with deliveryAttempts := s.1.deliveryAttempts ++ [row] } := by
  unfold createDeliveryAttempt at h
  simp only [Tx.bind_ok, Tx.ensure_ok, Tx.getOrThrow_ok, ofOrder_ok, Tx.pure_ok,
    Schema.execute_ok] at h
  obtain ⟨a, _, hl, _, _, ⟨-, rfl⟩, d', _, ⟨hd, rfl⟩, _, _, ⟨-, rfl⟩, rowId, _, ⟨hrow, rfl⟩, rowKey,
    _, ⟨-, rfl⟩, _, s₁, ⟨hs, -⟩, rfl, rfl⟩ := h
  obtain ⟨rfl, -⟩ := load_ok.1 hl
  simp only [deliveryAttemptIdFor, except_bind_ok] at hd
  obtain ⟨_, -, _, -, hd⟩ := hd
  have hlen : d'.length ≤ 36 := by
    rw [← Except.ok.inj hd]
    exact (length_orderUuid _).le
  refine ⟨?_, _, ⟨(varchar_eq_iff hrow).2 hlen, rfl, rfl⟩, rfl, hs⟩
  by_contra hst
  rw [varchar, if_pos (by simpa using hst)] at hrow
  cases hrow

/-- **The end of a delivery commits.** -/
theorem finishDelivery_closes {outcome : Except Exc DeliveryResult} {succeeded : Bool}
    {code : Option Str} (hc : closing outcome = some (succeeded, code))
    (hrow : row ∈ s.1.deliveryAttempts) (hst : row.status = .pending)
    (hid : storable row.id = true) :
    ∃ row' ∈ ((RepoOp.finishDelivery row.id succeeded code).exec s).2.1.deliveryAttempts,
      row' = row.finish (if succeeded then .succeeded else .failed) code := by
  have hclose {target : DeliveryState}
      (hfin : finishDelivery row.id succeeded code = closeDelivery row.id target code)
      (ht : target = if succeeded then .succeeded else .failed) :
      ∃ row' ∈ ((RepoOp.finishDelivery row.id succeeded code).exec s).2.1.deliveryAttempts,
        row' = row.finish (if succeeded then .succeeded else .failed) code := by
    obtain ⟨d, hd⟩ := @closeDelivery_pending s row target code hrow hst hid
    have hexec : (RepoOp.finishDelivery row.id succeeded code).exec s = _ :=
      Tx.commit_of_ok (by rw [RepoOp.body, hfin]; exact hd)
    rw [hexec]
    refine ⟨_, mem_modify.2 ⟨row, hrow, rfl⟩, ?_⟩
    rw [if_pos rfl, ht]
  have hfailed {text : Str} (hsafe : isSafeText text 64 = true) :
      finishDelivery row.id false (some text) = closeDelivery row.id .failed (some text) := by
    funext s₀
    unfold finishDelivery
    exact Tx.bind_eq (ofOrder_ok.2 ⟨by rw [validateSafeText, if_pos hsafe], rfl⟩)
  match outcome with
  | .ok .succeeded =>
    cases hc
    exact hclose rfl rfl
  | .ok (.failed _) | .ok .other | .error .cancelled | .error (.order _) | .error .database
  | .error .exception =>
    cases hc
    exact hclose (hfailed rfl) rfl

end

/-! ## The invariant of the attempts -/

section

variable [Hashlib]

abbrev deliveringOf (pid : Nat) (tr : OrdersTrace) : Option Delivering :=
  ghost deliveryProtocol ServiceCall.delivering pid tr

/-- The intent and the number of the attempt that the event creates. -/
def created? : Event ordersSystem → Option (Str × Int)
  | .act _ (.repo (.createDeliveryAttempt id)) (.ok d) => some (id, d.attemptNumber)
  | _ => none

/-- The intent and the number of the attempt that the sink gets. -/
def sent? : Event ordersSystem → Option (Str × Int)
  | .act _ (.deliver request) _ => some (request.orderIntentId, request.attemptNumber)
  | _ => none

def createdIn (tr : OrdersTrace) : List (Str × Int) := tr.filterMap fun t => created? t.event

def sentIn (tr : OrdersTrace) : List (Str × Int) := tr.filterMap fun t => sent? t.event

/-- Every transaction of the process was able to commit. -/
def Committed (pid : Nat) (tr : OrdersTrace) : Prop :=
  ∀ t ∈ tr, ∀ (op : RepoOp) (r : Except Exc op.Res),
    t.event = .act pid (.repo op) r → (r, t.post) = op.exec t.pre

/-- **The invariant of every run.** -/
structure DeliveryInv (tr : OrdersTrace) (s : Store) : Prop where
  row : ∀ {pid g}, deliveringOf pid tr = some g → g.Row (Committed pid tr) s
  apart : ∀ {pid q g g' id id' a a'}, pid ≠ q → deliveringOf pid tr = some g →
    deliveringOf q tr = some g' → g.attempt? = some (id, a) → g'.attempt? = some (id', a') →
    a.id ≠ a'.id
  created : ∀ p ∈ createdIn tr, ∃ row ∈ s.1.deliveryAttempts,
    (row.orderIntentId, row.attemptNumber) = p
  createdOnce : (createdIn tr).Nodup
  mine : ∀ {pid g id a}, deliveringOf pid tr = some g → g.attempt? = some (id, a) →
    (id, a.attemptNumber) ∈ createdIn tr
  sent : ∀ p ∈ sentIn tr, p ∈ createdIn tr
  sentOnce : (sentIn tr).Nodup
  unsent : ∀ {pid g id a}, deliveringOf pid tr = some g → g = .created id a ∨ g = .checked id a →
    (id, a.attemptNumber) ∉ sentIn tr

theorem Committed.left {pid : Nat} {tr : OrdersTrace} {t : Trans ordersSystem}
    (h : Committed pid (tr ++ [t])) : Committed pid tr :=
  fun u hu => h u (List.mem_append_left _ hu)

theorem createdIn_snoc (tr : OrdersTrace) (t : Trans ordersSystem) :
    createdIn (tr ++ [t]) = createdIn tr ++ (created? t.event).toList := by
  unfold createdIn
  rw [List.filterMap_append]
  cases h : created? t.event <;> simp [h]

theorem sentIn_snoc (tr : OrdersTrace) (t : Trans ordersSystem) :
    sentIn (tr ++ [t]) = sentIn tr ++ (sent? t.event).toList := by
  unfold sentIn
  rw [List.filterMap_append]
  cases h : sent? t.event <;> simp [h]

theorem DeliveryInv.nil : DeliveryInv [] Store.empty where
  row h := by cases h
  apart _ h := by cases h
  created _ h := by cases h
  createdOnce := .nil
  mine h := by cases h
  sent _ h := by cases h
  sentOnce := .nil
  unsent h := by cases h

theorem DeliveryInv.start {tr : OrdersTrace} {s : Store} (h : DeliveryInv tr s) (pid : Nat)
    (c : ServiceCall) : DeliveryInv (tr ++ [⟨s, .start pid c, s⟩]) s := by
  have hstage {q : Nat} {g : Delivering}
      (hq : deliveringOf q (tr ++ [⟨s, .start pid c, s⟩]) = some g) :
      g = c.delivering ∨ deliveringOf q tr = some g := by
    by_cases e : pid = q
    · subst e
      rw [deliveringOf, ghost_start_self] at hq
      exact .inl (Option.some.inj hq).symm
    · rw [deliveringOf, ghost_start_other (Ne.symm e)] at hq
      exact .inr hq
  have hold {q : Nat} {g : Delivering} {id : Str} {a : DeliveryAttemptRecord}
      (hq : deliveringOf q (tr ++ [⟨s, .start pid c, s⟩]) = some g)
      (ha : g.attempt? = some (id, a)) : deliveringOf q tr = some g := by
    rcases hstage hq with rfl | hq
    · rw [c.attempt?_delivering] at ha
      cases ha
    · exact hq
  have hcreated : createdIn (tr ++ [⟨s, .start pid c, s⟩]) = createdIn tr := by
    rw [createdIn_snoc]
    exact List.append_nil _
  have hsent : sentIn (tr ++ [⟨s, .start pid c, s⟩]) = sentIn tr := by
    rw [sentIn_snoc]
    exact List.append_nil _
  refine ⟨fun hq => ?_, fun hne hq hq' ha ha' => h.apart hne (hold hq ha) (hold hq' ha') ha ha',
    hcreated ▸ h.created, hcreated ▸ h.createdOnce, fun hq ha => hcreated ▸ h.mine (hold hq ha) ha,
    hcreated ▸ hsent ▸ h.sent, hsent ▸ h.sentOnce, fun {q g id a} hq hg => ?_⟩
  · rcases hstage hq with rfl | hq
    · cases c <;> trivial
    · exact (h.row hq).mono Committed.left fun _ _ _ _ hrow _ => hrow
  · have ha : g.attempt? = some (id, a) := by rcases hg with rfl | rfl <;> rfl
    exact hsent ▸ h.unsent (hold hq ha) hg

theorem DeliveryInv.crash {tr : OrdersTrace} {s : Store} (h : DeliveryInv tr s) (pid : Nat) :
    DeliveryInv (tr ++ [⟨s, .crash pid, s⟩]) s := by
  have hstage (q : Nat) : deliveringOf q (tr ++ [⟨s, .crash pid, s⟩]) = deliveringOf q tr :=
    ghost_crash
  have hcreated : createdIn (tr ++ [⟨s, .crash pid, s⟩]) = createdIn tr := by
    rw [createdIn_snoc]
    exact List.append_nil _
  have hsent : sentIn (tr ++ [⟨s, .crash pid, s⟩]) = sentIn tr := by
    rw [sentIn_snoc]
    exact List.append_nil _
  refine ⟨fun hq => ?_, fun hne hq hq' => h.apart hne (hstage _ ▸ hq) (hstage _ ▸ hq'),
    hcreated ▸ h.created, hcreated ▸ h.createdOnce, fun hq => hcreated ▸ h.mine (hstage _ ▸ hq),
    hcreated ▸ hsent ▸ h.sent, hsent ▸ h.sentOnce, fun hq => hsent ▸ h.unsent (hstage _ ▸ hq)⟩
  exact (h.row (hstage _ ▸ hq)).mono Committed.left fun _ _ _ _ hrow _ => hrow

section act

variable {tr : OrdersTrace} {s s' : Store} {pid : Nat} {g g' : Delivering} {op : ServiceOp}
variable {r : Except Exc op.Res}

theorem deliveringOf_act (hg : deliveringOf pid tr = some g) (hnext : g.next op r = g') {q : Nat}
    {g₁ : Delivering} (hq : deliveringOf q (tr ++ [⟨s, .act pid op r, s'⟩]) = some g₁) :
    q = pid ∧ g₁ = g' ∨ q ≠ pid ∧ deliveringOf q tr = some g₁ := by
  by_cases e : q = pid
  · subst e
    rw [deliveringOf, ghost_act_self hg] at hq
    exact .inl ⟨rfl, (Option.some.inj hq).symm.trans hnext⟩
  · rw [deliveringOf, ghost_act_other e] at hq
    exact .inr ⟨e, hq⟩

/-- Two attempts of one intent with one number are one attempt. -/
theorem DeliveryInv.number_ne (h : DeliveryInv tr s) {q : Nat} {g₁ : Delivering} {id id₁ : Str}
    {a a₁ : DeliveryAttemptRecord} (hne : q ≠ pid) (hg : deliveringOf pid tr = some g)
    (hq : deliveringOf q tr = some g₁) (ha : g.attempt? = some (id, a))
    (ha₁ : g₁.attempt? = some (id₁, a₁)) :
    (id₁, a₁.attemptNumber) ≠ (id, a.attemptNumber) := by
  intro e
  obtain ⟨row, hrow, hof⟩ := (h.row hg).has ha
  obtain ⟨row₁, hrow₁, hof₁⟩ := (h.row hq).has ha₁
  have hpair : (row₁.orderIntentId, row₁.attemptNumber) =
      (row.orderIntentId, row.attemptNumber) := by
    rw [hof.intent, hof.number, hof₁.intent, hof₁.number, e]
  have hsame : row₁ = row := List.inj_on_of_nodup_map s.2.2.2.2.1 hrow₁ hrow hpair
  refine h.apart hne hq hg ha₁ ha ?_
  rw [← hof₁.rowId, ← hof.rowId, hsame]

/-- A step that creates nothing. -/
theorem DeliveryInv.step (h : DeliveryInv tr s) (hg : deliveringOf pid tr = some g)
    (hnext : g.next op r = g') (hE : Effect s op r s')
    (hcreated : created? (.act pid op r) = none) (hatt : g'.attempt? = g.attempt?)
    (hspare : ∀ {q g₁ id a}, q ≠ pid → deliveringOf q tr = some g₁ → g₁.attempt? = some (id, a) →
      op.Spares a.id)
    (hrow : g'.Row (Committed pid (tr ++ [⟨s, .act pid op r, s'⟩])) s')
    (hsent : ∀ p, sent? (.act pid op r) = some p → ∃ id a, g = .checked id a ∧
      (∀ id' a', g' ≠ .checked id' a' ∧ g' ≠ .created id' a') ∧ p = (id, a.attemptNumber))
    (hopen : ∀ id a, g' = .created id a ∨ g' = .checked id a →
      g = .created id a ∨ g = .checked id a) :
    DeliveryInv (tr ++ [⟨s, .act pid op r, s'⟩]) s' := by
  have hc : createdIn (tr ++ [⟨s, .act pid op r, s'⟩]) = createdIn tr := by
    rw [createdIn_snoc]
    simp only [hcreated]
    exact List.append_nil _
  have hattempt {q : Nat} {g₁ : Delivering} {id : Str} {a : DeliveryAttemptRecord}
      (hq : deliveringOf q (tr ++ [⟨s, .act pid op r, s'⟩]) = some g₁)
      (ha : g₁.attempt? = some (id, a)) :
      ∃ g₀, deliveringOf q tr = some g₀ ∧ g₀.attempt? = some (id, a) := by
    rcases deliveringOf_act hg hnext hq with ⟨rfl, rfl⟩ | ⟨-, hq⟩
    · exact ⟨g, hg, hatt ▸ ha⟩
    · exact ⟨g₁, hq, ha⟩
  have hnew {p : Str × Int} (hp : sent? (.act pid op r) = some p) :
      p ∈ createdIn tr ∧ p ∉ sentIn tr := by
    obtain ⟨id, a, rfl, -, rfl⟩ := hsent p hp
    exact ⟨h.mine hg rfl, h.unsent hg (.inr rfl)⟩
  refine ⟨fun {q g₁} hq => ?_, fun hne hq hq' ha ha' => ?_, fun p hp => ?_, hc ▸ h.createdOnce,
    fun hq ha => ?_, fun p hp => ?_, ?_, fun {q g₁ id a} hq hg₁ hmem => ?_⟩
  · rcases deliveringOf_act hg hnext hq with ⟨rfl, rfl⟩ | ⟨hne, hq⟩
    · exact hrow
    · refine (h.row hq).mono Committed.left fun id a ha row hr hid => ?_
      exact hE.spares hr (hid ▸ hspare hne hq ha)
  · obtain ⟨g₀, hq, ha⟩ := hattempt hq ha
    obtain ⟨g₀', hq', ha'⟩ := hattempt hq' ha'
    exact h.apart hne hq hq' ha ha'
  · obtain ⟨row, hr, rfl⟩ := h.created p (hc ▸ hp)
    have hself : row.IsOf row.orderIntentId (deliveryFromRow row) := ⟨rfl, rfl, rfl⟩
    obtain ⟨row', hr', hof⟩ := hE.keeps_row hr hself
    exact ⟨row', hr', by rw [hof.intent, hof.number]; rfl⟩
  · obtain ⟨g₀, hq, ha⟩ := hattempt hq ha
    exact hc ▸ h.mine hq ha
  · rw [hc]
    rw [sentIn_snoc, List.mem_append, Option.mem_toList] at hp
    rcases hp with hp | hp
    · exact h.sent p hp
    · exact (hnew hp).1
  · rw [sentIn_snoc]
    refine List.nodup_append'.2 ⟨h.sentOnce, ?_, ?_⟩
    · cases sent? (.act pid op r) <;> simp
    · intro p hp hp'
      exact (hnew (Option.mem_toList.1 hp')).2 hp
  · rw [sentIn_snoc, List.mem_append, Option.mem_toList] at hmem
    rcases deliveringOf_act hg hnext hq with ⟨rfl, rfl⟩ | ⟨hne, hq⟩
    · rcases hmem with hmem | hmem
      · exact h.unsent hg (hopen id a hg₁) hmem
      · obtain ⟨_, _, -, hno, -⟩ := hsent _ hmem
        rcases hg₁ with e | e
        · exact (hno id a).2 e
        · exact (hno id a).1 e
    · rcases hmem with hmem | hmem
      · exact h.unsent hq hg₁ hmem
      · obtain ⟨id', a', rfl, -, e⟩ := hsent _ hmem
        have ha₁ : g₁.attempt? = some (id, a) := by rcases hg₁ with rfl | rfl <;> rfl
        exact h.number_ne hne hg hq rfl ha₁ e

/-- A new attempt has an id and a number of its own. -/
theorem DeliveryInv.create {id : Str} {a : DeliveryAttemptRecord} (h : DeliveryInv tr s)
    (hg : deliveringOf pid tr = some (.ready id))
    (hE : Effect s (.repo (.createDeliveryAttempt id)) (.ok a) s') :
    DeliveryInv (tr ++ [⟨s, .act pid (.repo (.createDeliveryAttempt id)) (.ok a), s'⟩]) s' := by
  obtain ⟨hid, row, hof, hpend, hs⟩ := createDeliveryAttempt_row hE.body_ok
  have hrows : s'.1.deliveryAttempts = s.1.deliveryAttempts ++ [row] := by rw [hs]
  have hmem : row ∈ s'.1.deliveryAttempts := by
    rw [hrows]
    exact List.mem_append_right _ List.mem_cons_self
  have hkeep {d : DeliveryRow} (hd : d ∈ s.1.deliveryAttempts) : d ∈ s'.1.deliveryAttempts := by
    rw [hrows]
    exact List.mem_append_left _ hd
  have hfresh {β : Type} {col : DeliveryRow → β} (hn : (s'.1.deliveryAttempts.map col).Nodup)
      {d : DeliveryRow} (hd : d ∈ s.1.deliveryAttempts) : col d ≠ col row := by
    rw [hrows, List.map_append] at hn
    intro e
    exact (List.nodup_append'.1 hn).2.2 (List.mem_map_of_mem hd) (by simp [e])
  have hpair : (id, a.attemptNumber) ∉ createdIn tr := by
    intro hp
    obtain ⟨d, hd, e⟩ := h.created _ hp
    refine hfresh s'.2.2.2.2.1 hd ?_
    rw [e, hof.intent, hof.number]
  have hc : createdIn (tr ++ [⟨s, .act pid (.repo (.createDeliveryAttempt id)) (.ok a), s'⟩]) =
      createdIn tr ++ [(id, a.attemptNumber)] := createdIn_snoc _ _
  have hsent : sentIn (tr ++ [⟨s, .act pid (.repo (.createDeliveryAttempt id)) (.ok a), s'⟩]) =
      sentIn tr := by
    rw [sentIn_snoc]
    exact List.append_nil _
  have hother {q : Nat} {g₁ : Delivering} {id₁ : Str} {a₁ : DeliveryAttemptRecord}
      (hq : deliveringOf q tr = some g₁) (ha : g₁.attempt? = some (id₁, a₁)) : a₁.id ≠ a.id := by
    obtain ⟨d, hd, hofd⟩ := (h.row hq).has ha
    rw [← hofd.rowId, ← hof.rowId]
    exact hfresh s'.2.2.2.1 hd
  refine ⟨fun {q g₁} hq => ?_, fun {p q g₁ g₂ i₁ i₂ a₁ a₂} hne hp hq ha₁ ha₂ => ?_, fun p hp => ?_,
    ?_, fun {q g₁ i₁ a₁} hq ha₁ => ?_, fun p hp => ?_, hsent ▸ h.sentOnce,
    fun {q g₁ i₁ a₁} hq hg₁ => ?_⟩
  · rcases deliveringOf_act hg rfl hq with ⟨rfl, rfl⟩ | ⟨hne, hq⟩
    · exact ⟨hid, row, hmem, hof, hpend⟩
    · exact (h.row hq).mono Committed.left fun _ _ _ _ hr _ => hkeep hr
  · rcases deliveringOf_act hg rfl hp with ⟨rfl, rfl⟩ | ⟨-, hp₀⟩
    · rcases deliveringOf_act hg rfl hq with ⟨rfl, -⟩ | ⟨-, hq₀⟩
      · exact absurd rfl hne
      · cases ha₁
        exact (hother hq₀ ha₂).symm
    · rcases deliveringOf_act hg rfl hq with ⟨rfl, rfl⟩ | ⟨-, hq₀⟩
      · cases ha₂
        exact hother hp₀ ha₁
      · exact h.apart hne hp₀ hq₀ ha₁ ha₂
  · rw [hc, List.mem_append, List.mem_singleton] at hp
    rcases hp with hp | rfl
    · obtain ⟨d, hd, rfl⟩ := h.created p hp
      exact ⟨d, hkeep hd, rfl⟩
    · exact ⟨row, hmem, by rw [hof.intent, hof.number]⟩
  · rw [hc]
    refine List.nodup_append'.2 ⟨h.createdOnce, List.nodup_singleton _, fun p hp hp' => ?_⟩
    rw [List.mem_singleton.1 hp'] at hp
    exact hpair hp
  · rw [hc]
    rcases deliveringOf_act hg rfl hq with ⟨rfl, rfl⟩ | ⟨-, hq⟩
    · cases ha₁
      exact List.mem_append_right _ (List.mem_singleton.2 rfl)
    · exact List.mem_append_left _ (h.mine hq ha₁)
  · rw [hc]
    exact List.mem_append_left _ (h.sent p (hsent ▸ hp))
  · rw [hsent]
    rcases deliveringOf_act hg rfl hq with ⟨rfl, rfl⟩ | ⟨-, hq⟩
    · rcases hg₁ with e | e
      · cases e
        exact fun hp => hpair (h.sent _ hp)
      · cases e
    · exact h.unsent hq hg₁

theorem ServiceOp.NoDelivery.events (h : op.NoDelivery) :
    created? (.act pid op r) = none ∧ sent? (.act pid op r) = none := by
  cases op with
  | repo op => cases op <;> first | exact h.elim | exact ⟨rfl, rfl⟩
  | deliver => exact h.elim
  | _ => exact ⟨rfl, rfl⟩

/-- A step that touches no attempt. -/
theorem DeliveryInv.quiet (h : DeliveryInv tr s) (hg : deliveringOf pid tr = some g)
    (hnext : g.next op r = g') (hE : Effect s op r s') (hspare : ∀ d, op.Spares d)
    (hevents : created? (.act pid op r) = none ∧ sent? (.act pid op r) = none)
    (hatt : g'.attempt? = g.attempt?) (hrow : ∀ {K}, g.Row K s' → g'.Row K s')
    (hopen : ∀ id a, g' = .created id a ∨ g' = .checked id a →
      g = .created id a ∨ g = .checked id a) :
    DeliveryInv (tr ++ [⟨s, .act pid op r, s'⟩]) s' := by
  refine h.step hg hnext hE hevents.1 hatt (fun _ _ _ => hspare _) (hrow ?_) (fun p hp => ?_) hopen
  · exact (h.row hg).mono Committed.left fun _ _ _ row hr _ => hE.spares hr (hspare row.id)
  · rw [hevents.2] at hp
    cases hp

/-- The finish of an attempt closes its row where it commits, and no other one. -/
theorem DeliveryInv.close {id : Str} {a : DeliveryAttemptRecord} {succeeded : Bool}
    {code : Option Str} {r : Except Exc DeliveryAttemptRecord} (h : DeliveryInv tr s)
    (hg : deliveringOf pid tr = some (.served id a succeeded code))
    (hE : Effect s (.repo (.finishDelivery a.id succeeded code)) r s') :
    DeliveryInv
      (tr ++ [⟨s, .act pid (.repo (.finishDelivery a.id succeeded code)) r, s'⟩]) s' := by
  obtain ⟨⟨hid, row, hr, hof, hpend⟩, outcome, hc⟩ := h.row hg
  refine h.step hg rfl hE rfl rfl (fun {q g₁ id₁ a₁} hne hq ha => ?_) ?_ (fun p hp => by cases hp)
    fun _ _ e => by rcases e with e | e <;> cases e
  · intro _ _ e
    exact h.apart hne.symm hg hq rfl ha (RepoOp.finishDelivery.inj (ServiceOp.repo.inj e)).1
  · obtain ⟨row', hr', hof'⟩ := hE.keeps_row hr hof
    by_cases hcommit : Committed pid
        (tr ++ [⟨s, .act pid (.repo (.finishDelivery a.id succeeded code)) r, s'⟩])
    · have hexec := hcommit _ (List.mem_append_right _ List.mem_cons_self)
        (.finishDelivery a.id succeeded code) r rfl
      have hs' : s' = ((RepoOp.finishDelivery a.id succeeded code).exec s).2 :=
        congrArg Prod.snd hexec
      obtain ⟨_, hfin, rfl⟩ := finishDelivery_closes hc hr hpend (hof.rowId ▸ hid)
      rw [hof.rowId, ← hs'] at hfin
      refine ⟨_, hfin, ⟨hof.rowId, hof.intent, hof.number⟩, fun _ => ?_⟩
      show (if succeeded then DeliveryState.succeeded else .failed) ≠ .pending
      cases succeeded <;> decide
    · exact ⟨row', hr', hof', fun hK => absurd hK hcommit⟩

/-- **Every step in order keeps the invariant.** -/
theorem DeliveryInv.act (h : DeliveryInv tr s) (hg : deliveringOf pid tr = some g) (hok : g.ok op)
    (hE : Effect s op r s') : DeliveryInv (tr ++ [⟨s, .act pid op r, s'⟩]) s' := by
  have hm := Delivering.moves_of_ok r hok
  generalize hnext : g.next op r = g' at hm
  cases hm with
  | idle op r hop =>
    exact h.quiet hg hnext hE hop.spares hop.events rfl (fun h => h) fun _ _ e => e
  | get g id r =>
    exact h.quiet hg hnext hE (by rintro d _ _ ⟨⟩) ⟨rfl, rfl⟩ rfl (fun h => h) fun _ _ e => e
  | ready id r hr =>
    refine h.quiet hg hnext hE (by rintro d _ _ ⟨⟩) ⟨rfl, rfl⟩ rfl (fun h => h) fun _ _ e => ?_
    rcases e with e | e <;> cases e
  | stop id r hr =>
    refine h.quiet hg hnext hE (by rintro d _ _ ⟨⟩) ⟨rfl, rfl⟩ rfl (fun h => h) fun _ _ e => ?_
    rcases e with e | e <;> cases e
  | create id a => exact h.create hg hE
  | refuse id e =>
    exact h.quiet hg hnext hE (by rintro d _ _ ⟨⟩) ⟨rfl, rfl⟩ rfl (fun h => h) fun _ _ e => e
  | check id a r hr =>
    refine h.quiet hg hnext hE (by rintro d _ _ ⟨⟩) ⟨rfl, rfl⟩ rfl (fun h => h) fun _ _ e => ?_
    rcases e with e | e
    · cases e
    · cases e
      exact .inl rfl
  | disable id a r hr =>
    refine h.quiet hg hnext hE (by rintro d _ _ ⟨⟩) ⟨rfl, rfl⟩ rfl (fun h => h) fun _ _ e => ?_
    rcases e with e | e <;> cases e
  | serve id a r succeeded code hc =>
    obtain rfl : s' = s := hE
    refine h.step hg hnext rfl rfl rfl (fun {q g₁ i₁ a₁} _ _ _ => by rintro _ _ ⟨⟩)
      ⟨h.row hg, r, hc⟩ (fun p hp => ?_)
      fun _ _ e => by rcases e with e | e <;> cases e
    cases hp
    exact ⟨id, a, rfl, fun _ _ => ⟨(by rintro ⟨⟩), (by rintro ⟨⟩)⟩, rfl⟩
  | interrupt id a r hc =>
    obtain rfl : s' = s := hE
    refine h.step hg hnext rfl rfl rfl (fun {q g₁ i₁ a₁} _ _ _ => by rintro _ _ ⟨⟩)
      (h.row hg : Open s' id a) (fun p hp => ?_)
      fun _ _ e => by rcases e with e | e <;> cases e
    cases hp
    exact ⟨id, a, rfl, fun _ _ => ⟨(by rintro ⟨⟩), (by rintro ⟨⟩)⟩, rfl⟩
  | close id a succeeded code r => exact h.close hg hE

end act

theorem delivery_inv {tr : OrdersTrace} {cfg : Cfg ordersSystem}
    (h : Run ordersSystem Store.empty tr cfg) : DeliveryInv tr cfg.store :=
  h.invariant (J := DeliveryInv) body_delivers .nil (fun _ _ hI => hI.start _ _)
    (fun hI => hI.crash _) fun hI hg hok hE => hI.act hg hok hE

/-! ## What keeps an attempt open -/

/-- Nothing in the event keeps the process from closing its attempt: the settings are
safe, and the sink raises nothing but exceptions and cancellations. -/
def Undisturbed (pid : Nat) (e : Event ordersSystem) : Prop :=
  (∀ r, e = .act pid .runtime r → safeRead r = true) ∧
    ∀ request r, e = .act pid (.deliver request) r → r ≠ .error .fatal

/-- An event that is no step of the process does not disturb it. -/
theorem undisturbed_of_ne {pid : Nat} {e : Event ordersSystem} (h : ∀ op r, e ≠ .act pid op r) :
    Undisturbed pid e :=
  ⟨fun _ he => absurd he (h _ _), fun _ _ he => absurd he (h _ _)⟩

/-- What the stage of a delivery says about its part of the trace. -/
structure Told (pid : Nat) (tr : OrdersTrace) (g : Delivering) : Prop where
  attempt : ∀ t ∈ tr, ∀ id d,
    t.event = .act pid (.repo (.createDeliveryAttempt id)) (.ok d) → g.attempt? = some (id, d)
  calm : g ≠ .other → (g.Calm ↔ ∀ t ∈ tr, Undisturbed pid t.event)

section told

variable {tr : OrdersTrace} {pid : Nat} {g g' : Delivering}

theorem Told.snoc {t : Trans ordersSystem} (h : Told pid tr g) (hne : g' ≠ .other → g ≠ .other)
    (hold : ∀ id d, g.attempt? = some (id, d) → g'.attempt? = some (id, d))
    (hnew : ∀ id d, t.event = .act pid (.repo (.createDeliveryAttempt id)) (.ok d) →
      g'.attempt? = some (id, d))
    (hcalm : g' ≠ .other → (g'.Calm ↔ g.Calm ∧ Undisturbed pid t.event)) :
    Told pid (tr ++ [t]) g' := by
  refine ⟨fun u hu id d he => ?_, fun hg => ?_⟩
  · rcases List.mem_append.1 hu with hu | hu
    · exact hold id d (h.attempt u hu id d he)
    · rw [List.mem_singleton.1 hu] at he
      exact hnew id d he
  · rw [hcalm hg, h.calm (hne hg), List.forall_mem_append, List.forall_mem_singleton]

/-- An event that is no step of the process. -/
theorem Told.other {t : Trans ordersSystem} (h : Told pid tr g)
    (ht : ∀ op r, t.event ≠ .act pid op r) : Told pid (tr ++ [t]) g :=
  h.snoc (fun hg => hg) (fun _ _ ha => ha) (fun _ _ he => absurd he (ht _ _))
    fun _ => ⟨fun hg => ⟨hg, undisturbed_of_ne ht⟩, And.left⟩

theorem undisturbed_runtime {r : Except Exc RuntimeSafetySettings} :
    Undisturbed pid (.act pid .runtime r) ↔ safeRead r = true :=
  ⟨fun h => h.1 r rfl, fun h => ⟨fun _ e => (by cases e; exact h), fun _ _ e => (by cases e)⟩⟩

theorem undisturbed_deliver {request : DeliveryRequest} {r : Except Exc DeliveryResult} :
    Undisturbed pid (.act pid (.deliver request) r) ↔ closing r ≠ none := by
  rw [ne_eq, closing_eq_none]
  exact ⟨fun h => h.2 request r rfl,
    fun h => ⟨fun _ e => (by cases e), fun _ _ e => (by cases e; exact h)⟩⟩

theorem undisturbed_repo {op : RepoOp} {r : Except Exc op.Res} :
    Undisturbed pid (.act pid (.repo op) r) :=
  ⟨fun _ e => (by cases e), fun _ _ e => (by cases e)⟩

theorem Told.next {op : ServiceOp} {r : Except Exc op.Res} {s s' : Store} (h : Told pid tr g)
    (hm : g.Moves op r g') : Told pid (tr ++ [⟨s, .act pid op r, s'⟩]) g' := by
  have hne := hm.ne_other
  cases hm with
  | idle op r hop =>
    refine h.snoc hne (fun _ _ ha => ha) (fun _ _ e => ?_) fun hg => absurd rfl hg
    cases e
    exact hop.elim
  | get g id r =>
    exact h.snoc hne (fun _ _ ha => ha) (fun _ _ e => by cases e)
      fun _ => ⟨fun hg => ⟨hg, undisturbed_repo⟩, And.left⟩
  | ready id r hr =>
    exact h.snoc hne (fun _ _ ha => by cases ha) (fun _ _ e => by cases e)
      fun _ => ⟨fun _ => ⟨trivial, undisturbed_runtime.2 hr⟩, fun _ => trivial⟩
  | stop id r hr =>
    refine h.snoc hne (fun _ _ ha => by cases ha) (fun _ _ e => by cases e)
      fun _ => ⟨False.elim, fun hu => ?_⟩
    rw [undisturbed_runtime, hr] at hu
    cases hu.2
  | create id a =>
    exact h.snoc hne (fun _ _ ha => by cases ha) (fun _ _ e => by cases e; rfl)
      fun _ => ⟨fun _ => ⟨trivial, undisturbed_repo⟩, fun _ => trivial⟩
  | refuse id e =>
    exact h.snoc hne (fun _ _ ha => by cases ha) (fun _ _ e => by cases e)
      fun _ => ⟨fun _ => ⟨trivial, undisturbed_repo⟩, fun _ => trivial⟩
  | check id a r hr =>
    exact h.snoc hne (fun _ _ ha => ha) (fun _ _ e => by cases e)
      fun _ => ⟨fun _ => ⟨trivial, undisturbed_runtime.2 hr⟩, fun _ => trivial⟩
  | disable id a r hr =>
    refine h.snoc hne (fun _ _ ha => ha) (fun _ _ e => by cases e)
      fun _ => ⟨False.elim, fun hu => ?_⟩
    rw [undisturbed_runtime, hr] at hu
    cases hu.2
  | serve id a r succeeded code hc =>
    refine h.snoc hne (fun _ _ ha => ha) (fun _ _ e => by cases e)
      fun _ => ⟨fun _ => ⟨trivial, undisturbed_deliver.2 ?_⟩, fun _ => trivial⟩
    rw [hc]
    exact Option.some_ne_none _
  | interrupt id a r hc =>
    exact h.snoc hne (fun _ _ ha => ha) (fun _ _ e => by cases e)
      fun _ => ⟨False.elim, fun hu => undisturbed_deliver.1 hu.2 hc⟩
  | close id a succeeded code r =>
    exact h.snoc hne (fun _ _ ha => ha) (fun _ _ e => by cases e)
      fun _ => ⟨fun _ => ⟨trivial, undisturbed_repo⟩, fun _ => trivial⟩

end told

/-- The stage of every process is what the trace tells. -/
theorem delivering_told {tr : OrdersTrace} {cfg : Cfg ordersSystem}
    (h : Run ordersSystem Store.empty tr cfg) (pid : Nat) :
    (deliveringOf pid tr = none → ∀ t ∈ tr, ∀ op r, t.event ≠ .act pid op r) ∧
      ∀ g, deliveringOf pid tr = some g → Told pid tr g := by
  have hother {tr : OrdersTrace} {t : Trans ordersSystem}
      (ht : ∀ op r, t.event ≠ .act pid op r)
      (hstage : deliveringOf pid (tr ++ [t]) = deliveringOf pid tr)
      (hJ : (deliveringOf pid tr = none → ∀ t ∈ tr, ∀ op r, t.event ≠ .act pid op r) ∧
        ∀ g, deliveringOf pid tr = some g → Told pid tr g) :
      (deliveringOf pid (tr ++ [t]) = none → ∀ u ∈ tr ++ [t], ∀ op r, u.event ≠ .act pid op r) ∧
        ∀ g, deliveringOf pid (tr ++ [t]) = some g → Told pid (tr ++ [t]) g := by
    rw [hstage]
    refine ⟨fun hnone => ?_, fun g hg => (hJ.2 g hg).other ht⟩
    rw [List.forall_mem_append, List.forall_mem_singleton]
    exact ⟨hJ.1 hnone, ht⟩
  refine h.invariant (P := deliveryProtocol) (i := ServiceCall.delivering)
    (J := fun tr _ => (deliveringOf pid tr = none → ∀ t ∈ tr, ∀ op r, t.event ≠ .act pid op r) ∧
      ∀ g, deliveringOf pid tr = some g → Told pid tr g)
    body_delivers ⟨fun _ _ ht => (by cases ht), fun _ hg => (by cases hg)⟩ ?_ ?_ ?_
  · intro tr cfg q c hrun hq hJ
    by_cases e : pid = q
    · subst e
      have hno : ∀ t ∈ tr ++ [⟨cfg.store, .start pid c, cfg.store⟩],
          ∀ op r, t.event ≠ .act pid op r := by
        rw [List.forall_mem_append, List.forall_mem_singleton]
        exact ⟨hJ.1 (hrun.ghost_none hq), by rintro _ _ ⟨⟩⟩
      refine ⟨fun _ => hno, fun g hg => ?_⟩
      rw [deliveringOf, ghost_start_self] at hg
      cases hg
      refine ⟨fun t ht id d he => absurd he (hno t ht _ _),
        fun _ => ⟨fun _ t ht => ?_, fun _ => ?_⟩⟩
      · exact undisturbed_of_ne (hno t ht)
      · cases c <;> trivial
    · exact hother (by rintro _ _ ⟨⟩) (ghost_start_other e) hJ
  · intro tr s q hJ
    exact hother (by rintro _ _ ⟨⟩) ghost_crash hJ
  · intro tr s q op r s' g hJ hg hok hE
    by_cases e : pid = q
    · subst e
      have hact : deliveringOf pid (tr ++ [⟨s, .act pid op r, s'⟩]) = some (g.next op r) :=
        ghost_act_self hg
      refine ⟨fun hnone => (by rw [hact] at hnone; cases hnone), fun g' hg' => ?_⟩
      rw [hact] at hg'
      cases hg'
      exact (hJ.2 g hg).next (Delivering.moves_of_ok r hok)
    · refine hother (fun op' r' he => e ?_) (ghost_act_other e) hJ
      cases he
      rfl

/-! ## Every run -/

/-- A step of a delivery writes no purchase. -/
theorem Delivering.Moves.keeps_purchase {g g' : Delivering} {op : ServiceOp}
    {r : Except Exc op.Res} {s s' : Store} (hm : g.Moves op r g') (hne : g ≠ .other)
    (hE : Effect s op r s') : s'.1.orderIntents = s.1.orderIntents ∧
      s'.1.supplierAttempts = s.1.supplierAttempts := by
  have hcreate {id : Str} (hw : (RepoOp.createDeliveryAttempt id).Writes s s'.1) :
      s'.1.orderIntents = s.1.orderIntents ∧ s'.1.supplierAttempts = s.1.supplierAttempts := by
    generalize hop : RepoOp.createDeliveryAttempt id = op at hw
    cases hw with
    | nothing op hs => exact ⟨by rw [hs], by rw [hs]⟩
    | purchase op i st f _ hno _ hs => exact absurd hop.symm (hno id)
    | create row hs => exact ⟨by rw [hs], by rw [hs]⟩
    | prepare | finish => cases hop
  cases hm with
  | idle => exact absurd rfl hne
  | get g id r =>
    cases Effect.writes hE with
    | nothing op hs => exact ⟨by rw [hs], by rw [hs]⟩
    | purchase op i st f hon _ _ hs => exact hon.elim
  | create id a => exact hcreate hE.writes
  | refuse id e => exact hcreate hE.writes
  | close id a succeeded code r =>
    have hw := Effect.writes hE
    generalize hop : RepoOp.finishDelivery a.id succeeded code = op at hw
    cases hw with
    | nothing op hs => exact ⟨by rw [hs], by rw [hs]⟩
    | purchase op i st f hon _ _ hs =>
      rw [← hop] at hon
      exact hon.elim
    | finish _ _ row target code _ _ _ hs => exact ⟨by rw [hs], by rw [hs]⟩
    | prepare | create => cases hop
  | _ =>
    obtain rfl : s' = s := hE
    exact ⟨rfl, rfl⟩

/-- **A delivery writes no purchase.** -/
theorem delivery_keeps_purchase {tr : OrdersTrace} {cfg : Cfg ordersSystem}
    {t : Trans ordersSystem} {pid : Nat} {id : Str} {op : ServiceOp} {r : Except Exc op.Res}
    (h : Run ordersSystem Store.empty tr cfg) (ht : t ∈ tr) (hact : t.event = .act pid op r)
    (hstart : ∃ u ∈ tr, u.event = .start pid (.deliver id)) :
    t.post.1.orderIntents = t.pre.1.orderIntents ∧
      t.post.1.supplierAttempts = t.pre.1.supplierAttempts := by
  obtain ⟨l, m, htr⟩ := List.append_of_mem ht
  obtain ⟨u, hu, hstart⟩ := hstart
  obtain ⟨cfg₀, c, k, h₀, -, hp, hE⟩ := h.act_at htr hact
  obtain ⟨v, hv, hv'⟩ := h₀.started hp
  obtain rfl := h.start_unique hu (htr ▸ List.mem_append_left _ hv) hstart hv'
  obtain ⟨g, hg, hok⟩ := h₀.act_ok (P := deliveryProtocol) (i := ServiceCall.delivering)
    body_delivers hp
  obtain ⟨g', hg', hne⟩ := h₀.ghost_call (P := deliveryProtocol) (i := ServiceCall.delivering)
    (K := fun (c : ServiceCall) (g : Delivering) => c = .deliver id → g ≠ .other) body_delivers
    (by rintro c rfl ⟨⟩)
    (fun c g op r hne hok e => (Delivering.moves_of_ok r hok).other_ne (hne e)) hp
  obtain rfl : g = g' := Option.some.inj (hg.symm.trans hg')
  exact (Delivering.moves_of_ok r hok).keeps_purchase (hne rfl) hE

/-- **Every delivery attempt is closed**, where the settings stay safe and the sink raises
nothing but exceptions and cancellations; and in every run the attempts of an intent are
numbered apart, the sink gets each of them once, and no delivery writes a purchase. -/
theorem deliveries_closed {tr : OrdersTrace} {cfg : Cfg ordersSystem}
    (h : Run ordersSystem Store.empty tr cfg) :
    (createdIn tr).Nodup ∧ (sentIn tr).Nodup ∧ (∀ p ∈ sentIn tr, p ∈ createdIn tr) ∧
    (∀ t ∈ tr, ∀ pid op r id, t.event = .act pid op r →
      (∃ u ∈ tr, u.event = .start pid (.deliver id)) →
      t.post.1.orderIntents = t.pre.1.orderIntents ∧
        t.post.1.supplierAttempts = t.pre.1.supplierAttempts) ∧
    ∀ pid id d out, (∃ t ∈ tr, t.event = .act pid (.repo (.createDeliveryAttempt id)) (.ok d)) →
      cfg.result? pid = some out → Committed pid tr →
      ((∃ row ∈ cfg.store.1.deliveryAttempts, row.IsOf id d ∧ row.status ≠ .pending) ↔
        ∀ t ∈ tr, Undisturbed pid t.event) := by
  have hI := delivery_inv h
  refine ⟨hI.createdOnce, hI.sentOnce, hI.sent,
    fun t ht pid op r id hact hstart => delivery_keeps_purchase h ht hact hstart, ?_⟩
  rintro pid id d out ⟨t, ht, hcreate⟩ hout hcommit
  obtain ⟨c, g, hg, hended⟩ := h.ended (P := deliveryProtocol) (i := ServiceCall.delivering)
    body_delivers hout
  have hended : g.Ended := hended
  have htold := (delivering_told h pid).2 g hg
  have hattempt := htold.attempt t ht id d hcreate
  have hrow := hI.row hg
  -- the call has created its attempt and ended: it has closed it, or left it open
  cases g with
  | created | checked | served => exact hended.elim
  | closed =>
    cases hattempt
    obtain ⟨row, hr, hof, hst⟩ := hrow
    have hcalm := (htold.calm (by rintro ⟨⟩)).1 trivial
    exact ⟨fun _ => hcalm, fun _ => ⟨row, hr, hof, hst hcommit⟩⟩
  | abandoned =>
    cases hattempt
    obtain ⟨-, row, hr, hof, hpend⟩ := hrow
    refine ⟨fun hclosed => ?_, fun hcalm => ((htold.calm (by rintro ⟨⟩)).2 hcalm).elim⟩
    obtain ⟨row', hr', hof', hst⟩ := hclosed
    have hsame : row' = row :=
      List.inj_on_of_nodup_map cfg.store.2.2.2.1 hr' hr (hof'.rowId.trans hof.rowId.symm)
    exact absurd (hsame ▸ hpend) hst
  | other | begun | ready | stopped => cases hattempt

end

end

/-! ## A sample delivery -/

section

attribute [local instance] sampleUnicode sampleHashlib

/-- Safe settings, and settings with which purchases are real. -/
def safeSettings : RuntimeSafetySettings := ⟨.str (str "mock"), .str (str "disabled"), .bool false⟩

def realPurchases : RuntimeSafetySettings := ⟨.str (str "mock"), .str (str "disabled"), .bool true⟩

/-- The sample answers, with settings that turn to `late` once there is an attempt. -/
def deliveryAnswer (late : RuntimeSafetySettings) (s : Store) :
    (op : ServiceOp) → Except Exc op.Res × Store
  | .runtime =>
    if s.1.deliveryAttempts.isEmpty then (.ok safeSettings, s) else (.ok late, s)
  | op => sampleAnswer (.ok (.succeeded (some (str "ref-1")))) (.ok .unresolved) s op

theorem deliveryAnswer_effect (late : RuntimeSafetySettings) (s : Store) (op : ServiceOp) :
    Effect s op (deliveryAnswer late s op).1 (deliveryAnswer late s op).2 := by
  cases op with
  | runtime =>
    unfold deliveryAnswer
    split <;> rfl
  | _ => exact sampleAnswer_effect (.ok (.succeeded (some (str "ref-1")))) (.ok .unresolved) s _

/-- The sample order, and then `n` steps of its delivery. -/
def sampleDelivery (late : RuntimeSafetySettings) (n : Nat) : OrdersTrace × Cfg ordersSystem :=
  (replay ordersSystem (deliveryAnswer late) Store.empty
    (.start 0 (.placeOrder (str "cust-1") sampleRequest) :: go 0 14 ++
      .start 1 (.deliver sampleIntent) :: go 1 n)).getD ([], ⟨Store.empty, fun _ => none⟩)

theorem sampleDelivery_run (late : RuntimeSafetySettings) (n : Nat) :
    Run ordersSystem Store.empty (sampleDelivery late n).1 (sampleDelivery late n).2 := by
  unfold sampleDelivery
  cases h : replay ordersSystem (deliveryAnswer late) Store.empty _ with
  | none => exact .nil
  | some st => exact replay_run (deliveryAnswer_effect late) h

theorem sampleDelivery_committed (late : RuntimeSafetySettings) (n pid : Nat) :
    Committed pid (sampleDelivery late n).1 := by
  unfold sampleDelivery
  cases h : replay ordersSystem (deliveryAnswer late) Store.empty _ with
  | none => exact fun t ht => by cases ht
  | some st => exact fun t ht op r he => replay_answers h t ht pid (.repo op) r he

/-- The process that creates an attempt, and the intent. -/
def creates? (t : Trans ordersSystem) : Option (Nat × Str) :=
  match t.event with
  | .act pid (.repo (.createDeliveryAttempt id)) (.ok _) => some (pid, id)
  | _ => none

theorem exists_creates {tr : OrdersTrace} {n pid : Nat} {id : Str}
    (h : tr[n]?.bind creates? = some (pid, id)) :
    ∃ d, ∃ t ∈ tr, t.event = .act pid (.repo (.createDeliveryAttempt id)) (.ok d) := by
  obtain ⟨t, ht, hc⟩ := Option.bind_eq_some_iff.1 h
  unfold creates? at hc
  split at hc
  · next d he =>
    cases hc
    exact ⟨_, t, List.mem_of_getElem? ht, he⟩
  · cases hc

theorem sampleDelivery_undisturbed {late : RuntimeSafetySettings} (hlate : late.safe = true)
    (n pid : Nat) : ∀ t ∈ (sampleDelivery late n).1, Undisturbed pid t.event := by
  unfold sampleDelivery
  cases h : replay ordersSystem (deliveryAnswer late) Store.empty _ with
  | none => exact fun t ht => by cases ht
  | some st =>
    refine fun t ht => ⟨fun r he => ?_, fun request r he => ?_⟩
    · have hr : r = (deliveryAnswer late t.pre .runtime).1 :=
        congrArg Prod.fst (replay_answers h t ht pid .runtime r he)
      rw [hr]
      unfold deliveryAnswer
      split
      · exact (by decide : safeSettings.safe = true)
      · exact hlate
    · have hr : r = (deliveryAnswer late t.pre (.deliver request)).1 :=
        congrArg Prod.fst (replay_answers h t ht pid (.deliver request) r he)
      rw [hr]
      rintro ⟨⟩

/-- Real purchases are allowed while an attempt is open: the delivery raises, and leaves it. -/
theorem delivery_left_open : ¬ ∀ (tr : OrdersTrace) (cfg : Cfg ordersSystem) (pid : Nat)
    (id : Str) (d : DeliveryAttemptRecord) (out : Except Exc OrderSnapshot),
    Run ordersSystem Store.empty tr cfg →
      (∃ t ∈ tr, t.event = .act pid (.repo (.createDeliveryAttempt id)) (.ok d)) →
      cfg.result? pid = some out → Committed pid tr →
      ∃ row ∈ cfg.store.1.deliveryAttempts, row.IsOf id d ∧ row.status ≠ .pending := by
  intro h
  obtain ⟨hcreates, hend, hopen⟩ :
      (sampleDelivery realPurchases 3).1[17]?.bind creates? = some (1, sampleIntent) ∧
        ((sampleDelivery realPurchases 3).2.result? 1).isSome = true ∧
        ∀ row ∈ (sampleDelivery realPurchases 3).2.store.1.deliveryAttempts,
          row.status = .pending := by decide +kernel
  obtain ⟨d, hd⟩ := exists_creates hcreates
  obtain ⟨out, hout⟩ := Option.isSome_iff_exists.1 hend
  obtain ⟨row, hrow, -, hst⟩ := h _ _ 1 sampleIntent d out (sampleDelivery_run realPurchases 3) hd
    hout (sampleDelivery_committed _ _ _)
  exact hst (hopen row hrow)

theorem deliveries_closed_sample : ∃ row ∈
    (sampleDelivery safeSettings 6).2.store.1.deliveryAttempts, row.status ≠ .pending := by
  obtain ⟨hcreates, hend⟩ :
      (sampleDelivery safeSettings 6).1[17]?.bind creates? = some (1, sampleIntent) ∧
        ((sampleDelivery safeSettings 6).2.result? 1).isSome = true := by decide +kernel
  obtain ⟨d, hd⟩ := exists_creates hcreates
  obtain ⟨out, hout⟩ := Option.isSome_iff_exists.1 hend
  obtain ⟨-, -, -, -, hclosed⟩ := deliveries_closed (sampleDelivery_run safeSettings 6)
  obtain ⟨row, hrow, -, hst⟩ := (hclosed 1 sampleIntent d out hd hout
    (sampleDelivery_committed _ _ _)).2 (sampleDelivery_undisturbed (by decide) 6 1)
  exact ⟨row, hrow, hst⟩

end

end NyanShopBot.Orders
