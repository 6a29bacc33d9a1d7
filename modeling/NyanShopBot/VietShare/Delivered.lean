import Mathlib.Data.Option.Basic
import NyanShopBot.VietShare.JournalSafety

/-!
# Delivered orders

A completed order and the operation that it is of. `IsOrderOf` is what a body must
say for its order to be that of a stored operation; `readOrder_ok` is that the two
callers ask for it. `boundProtocol` follows what a call has read, and
`delivered_bound` is that over every run, from any journal, a delivered order, a
completed row and its order code are those of the stored operation.
-/

namespace NyanShopBot.VietShare.Offline

open Py Db Conc

/-! ## Orders of an operation -/

/-- The fields of a completed order. -/
structure IsOrder (fields : List (Str × Json)) (key : Str) (purchase : OrderPurchase)
    (order : CompletedOrder) : Prop where
  status : text (Json.get fields (str "status")) = some (str "completed")
  orderCode : text (Json.get fields (str "order_code")) = some order.orderCode
  codeForm : isOrderCode order.orderCode = true
  key : text (Json.get fields (str "idempotency_key")) = some key
  product : ∃ product, members (Json.get fields (str "product")) = some product ∧
    Json.get product (str "id") = .int purchase.productId
  quantity : Json.get fields (str "quantity") = .int purchase.quantity
  accounts : Json.get fields (str "accounts") = .arr (order.accounts.map .str) ∧
    order.accounts.length = purchase.quantity
  unitPrices : ∃ prices, Json.get fields (str "unit_prices") = .arr prices ∧
    prices.length = purchase.quantity
  same : order.productId = purchase.productId ∧ order.quantity = purchase.quantity

theorem integer_ok {value : Json} {positive : Bool} {n : Int}
    (h : integer value positive = some n) : value = .int n := by
  unfold integer at h
  split at h
  · next k =>
    by_cases hk : k < if positive then 1 else 0
    · rw [if_pos hk] at h
      cases h
    · rw [if_neg hk] at h
      cases h
      rfl
  · cases h

theorem items_ok {value : Json} {l : List Json} (h : items value = some l) : value = .arr l := by
  unfold items at h
  split at h
  · cases h
    rfl
  · cases h

theorem nonEmpty_ok {value : Json} {s : Str} (h : nonEmpty value = some s) : value = .str s := by
  obtain ⟨h, -⟩ := Option.filter_eq_some_iff.1 h
  unfold text at h
  split at h
  · cases h
    rfl
  · cases h

theorem mapM_nonEmpty {l : List Json} {values : List Str} (h : l.mapM nonEmpty = some values) :
    l = values.map .str := by
  induction l generalizing values with
  | nil =>
    cases h
    rfl
  | cons value l ih =>
    rw [List.mapM_cons] at h
    obtain ⟨s, hs, h⟩ := Option.bind_eq_some_iff.1 h
    obtain ⟨rest, hrest, h⟩ := Option.bind_eq_some_iff.1 h
    cases h
    rw [nonEmpty_ok hs, ih hrest]
    rfl

/-- An attempt that cannot begin returns no order. -/
theorem refused_ok {now : Int} {previous : Option PreparedWrite} {outcome : WriteOutcome}
    (h : refused now previous = .ok outcome) : outcome.order = none ∧
      (outcome.state = .completed → ∃ row, previous = some row ∧ row.state = .completed) := by
  unfold refused at h
  split at h
  · cases h
  · next row =>
    split at h
    · next hstate =>
      cases h
      exact ⟨rfl, fun _ => ⟨row, rfl, hstate⟩⟩
    · cases h
      exact ⟨rfl, by rintro ⟨⟩⟩
    · cases h
      exact ⟨rfl, by rintro ⟨⟩⟩
    · split at h
      · cases h
        exact ⟨rfl, by rintro ⟨⟩⟩
      · cases h
        exact ⟨rfl, by rintro ⟨⟩⟩
      · cases h

theorem completedRecord_ok {stored : Option PreparedWrite} {record : PreparedWrite} {code : Str} :
    completedRecord stored = .ok (record, code) ↔ stored = some record ∧
      record.state = .completed ∧ record.orderCode = some code ∧ isOrderCode code = true := by
  constructor
  · intro h
    unfold completedRecord at h
    split at h
    · next row =>
      split at h
      · next hstate hcode =>
        split at h
        · next hform =>
          cases h
          exact ⟨rfl, hstate, hcode, hform⟩
        · cases h
      · cases h
    · cases h
  · rintro ⟨rfl, hstate, hcode, hform⟩
    simp only [completedRecord, hstate, hcode, hform, if_true]

/-- A step keeps the key and body of a row. -/
theorem effect_keeps {s s' : JournalDb} {op : AdapterOp} {r : Except Exc op.Res} {id : Str}
    {row : PreparedWrite} (h : AdapterEffect s op r s') (hrow : s.tables.1.write? id = some row) :
    ∃ row', s'.tables.1.write? id = some row' ∧
      row'.idempotencyKey = row.idempotencyKey ∧ row'.body = row.body := by
  rcases effect_row h hrow with hrow' | ⟨jop, row', -, hrow', hstep⟩
  · exact ⟨row, hrow', rfl, rfl⟩
  · exact ⟨row', hrow', hstep.fixed.2⟩

section

variable [Stdlib]

/-- **The body is a completed order of the stored operation**, whose key and body are given. -/
def IsOrderOf (key : Str) (stored body : Bytes) (order : CompletedOrder) : Prop :=
  ∃ data purchase document envelope fields,
    Stdlib.jsonLoads stored = .ok data ∧ purchaseOf data = some purchase ∧
    Stdlib.jsonLoads body = .ok document ∧ members document = some envelope ∧
    isTrue (Json.get envelope (str "success")) = true ∧
    members (Json.get envelope (str "order")) = some fields ∧ IsOrder fields key purchase order

/-- Its code is one that a lookup accepts. -/
theorem IsOrderOf.codeForm {key : Str} {stored body : Bytes} {order : CompletedOrder}
    (h : IsOrderOf key stored body order) : isOrderCode order.orderCode = true := by
  obtain ⟨_, _, _, _, _, -, -, -, -, -, -, hfields⟩ := h
  exact hfields.codeForm

/-- What the parser accepts. -/
theorem completedOrder_ok {document : Json} {key : Str} {purchase : OrderPurchase}
    {order : CompletedOrder} (h : completedOrder document key purchase = some order) :
    ∃ envelope fields, members document = some envelope ∧
      isTrue (Json.get envelope (str "success")) = true ∧
      members (Json.get envelope (str "order")) = some fields ∧
      IsOrder fields key purchase order := by
  unfold completedOrder at h
  simp only [Option.bind_eq_bind, Option.bind_eq_some_iff, Option.guard_eq_some',
    Option.pure_def, Option.some.injEq] at h
  obtain ⟨envelope, henvelope, _, hsuccess, fields, hfields, _, hstatus, _, -, code, hcode, _,
    hform, product, hproduct, _, hid, _, rfl, _, -, _, hkey, _, hquantity, _, rfl, accounts,
    haccounts, _, hcount, values, hvalues, prices, hprices, _, hlength, _, -, _, -, _, -, _, -,
    total, -, _, -, _, -, _, -, rfl⟩ := h
  obtain rfl := mapM_nonEmpty hvalues
  refine ⟨envelope, fields, henvelope, hsuccess, hfields, hstatus, hcode, hform, hkey,
    ⟨product, hproduct, integer_ok hid⟩, integer_ok hquantity, ⟨items_ok haccounts, ?_⟩,
    ⟨prices, items_ok hprices, hlength⟩, rfl, rfl⟩
  rwa [List.length_map] at hcount

/-- **Both callers ask for it.** -/
theorem readOrder_ok {record : PreparedWrite} {response : VietShareResponse}
    {order : CompletedOrder} (h : readOrder record response = .ok (some order)) :
    IsOrderOf record.idempotencyKey record.body response.body order := by
  unfold readOrder parseOrderResponse at h
  split at h
  · split at h <;> cases h
  · next data hdata =>
    split at h
    · cases h
    · next purchase hpurchase =>
      split at h
      · next order' hparse =>
        cases h
        split at hparse
        · next document hdocument =>
          split at hparse
          · next horder =>
            cases hparse
            obtain ⟨envelope, fields, henvelope, hsuccess, hfields, hok⟩ := completedOrder_ok horder
            exact ⟨data, purchase, document, envelope, fields, hdata, hpurchase, hdocument,
              henvelope, hsuccess, hfields, hok⟩
          · cases hparse
        · cases hparse
      · split at h <;> cases h

/-- Where an attempt completes, its 200 response is the order of the operation. -/
theorem classify_completed {record : PreparedWrite} {response : VietShareResponse}
    {code : Option Str} {receivedAt : Int} {e : Ending}
    (h : classify record response code receivedAt = .ok e)
    (hc : e.state = .completed ∨ e.outcome.state = .completed ∨ e.outcome.order.isSome = true) :
    ∃ order, response.statusCode = 200 ∧
      IsOrderOf record.idempotencyKey record.body response.body order ∧
      e.orderCode = some order.orderCode ∧ e.outcome = ⟨.completed, some order, none, none⟩ := by
  unfold classify at h
  dsimp only at h
  split at h
  · obtain ⟨notBefore, -, h⟩ := except_bind_ok.1 h
    cases h
    rcases hc with hc | hc | hc <;> cases hc
  split at h
  · cases h
    rcases hc with hc | hc | hc <;> cases hc
  split at h
  · cases h
    rcases hc with hc | hc | hc <;> cases hc
  split at h
  · next hstatus =>
    obtain ⟨order, horder, h⟩ := except_bind_ok.1 h
    cases order with
    | none =>
      cases h
      rcases hc with hc | hc | hc <;> cases hc
    | some order =>
      cases h
      exact ⟨order, hstatus, readOrder_ok horder, rfl, rfl⟩
  split at h <;> (cases h; rcases hc with hc | hc | hc <;> cases hc)

/-- A lookup that delivers has read the order of its record. -/
theorem readBack_ok {record : PreparedWrite} {code : Str} {now : Int}
    {reply : Except Exc VietShareResponse} {outcome : WriteOutcome}
    (h : readBack record code now reply = .ok outcome)
    (hc : outcome.state = .completed ∨ outcome.order.isSome = true) :
    ∃ response order, reply = .ok response ∧ response.statusCode = 200 ∧
      IsOrderOf record.idempotencyKey record.body response.body order ∧
      order.orderCode = code ∧ outcome = ⟨.completed, some order, none, none⟩ := by
  unfold readBack at h
  split at h
  · split at h
    · cases h
      rcases hc with hc | hc <;> cases hc
    · cases h
  · next response =>
    split at h
    · cases h
      rcases hc with hc | hc <;> cases hc
    · next hstatus =>
      obtain ⟨order, horder, h⟩ := except_bind_ok.1 h
      cases order with
      | none =>
        cases h
        rcases hc with hc | hc <;> cases hc
      | some order =>
        dsimp only at h
        split at h
        · next hcode =>
          cases h
          exact ⟨response, order, rfl, not_not.1 hstatus, readOrder_ok horder, hcode, rfl⟩
        · cases h
          rcases hc with hc | hc <;> cases hc

/-! ## What a call has read -/

/-- The rows and the response that a call has read last. -/
structure Seen where
  got : Option PreparedWrite
  begun : Option PreparedWrite
  reply : Option VietShareResponse

def Seen.nothing : Seen := ⟨none, none, none⟩

def Seen.next (g : Seen) : (op : AdapterOp) → Except Exc op.Res → Seen
  | .journal (.get _), .ok row => { g with got := row }
  | .journal (.beginAttempt _ _), .ok record => { g with begun := record }
  | .send _ _, .ok response => { g with reply := some response }
  | _, _ => g

/-- The response of the call is a delivered order of the operation of a row. -/
def Seen.Delivers (g : Seen) (row : Option PreparedWrite) (order : CompletedOrder) : Prop :=
  ∃ record response, row = some record ∧ g.reply = some response ∧ response.statusCode = 200 ∧
    IsOrderOf record.idempotencyKey record.body response.body order

/-- Only a `submit` ends an attempt, and it completes one with the order it was given. -/
def AdapterCall.InOrder (call : AdapterCall) (g : Seen) : AdapterOp → Prop
  | .journal (.finishAttempt id state code _) =>
    (∃ credentials, call = .submit credentials id) ∧
      (state = .completed → ∃ order, code = some order.orderCode ∧ g.Delivers g.begun order)
  | .journal (.beginAttempt id _) => ∃ credentials, call = .submit credentials id
  | .journal (.prepare id _ _) => ∃ key purchase, call = .prepare id key purchase
  | .journal (.markInterruptedUnknown id) => call = .markInterruptedUnknown id
  | .journal (.get id) | .send id _ => id = call.operationId
  | _ => True

/-- What stands behind the outcome of a call. -/
def AdapterCall.Returns (call : AdapterCall) (g : Seen) (outcome : WriteOutcome) : Prop :=
  match call with
  | .getDeliveredOrder _ _ => outcome.state = .completed ∨ outcome.order.isSome = true →
    ∃ record code order, g.got = some record ∧ completedRecord (some record) = .ok (record, code) ∧
      outcome = ⟨.completed, some order, none, none⟩ ∧ order.orderCode = code ∧
      g.Delivers g.got order
  | .submit _ _ =>
    (∀ order, outcome.order = some order → outcome.state = .completed ∧
      g.Delivers g.begun order) ∧
    (outcome.state = .completed → outcome.order = none →
      ∃ previous, g.got = some previous ∧ previous.state = .completed)
  | .prepare _ _ _ | .markInterruptedUnknown _ => True

abbrev boundProtocol : Protocol adapterSig Exc where
  G := AdapterCall × Seen
  ok g op := g.1.InOrder g.2 op
  next g op r := (g.1, g.2.next op r)

/-- What a call ends in. -/
def Returned (s : AdapterCall × Seen) (r : Except Exc WriteOutcome) : Prop :=
  ∀ outcome, r = .ok outcome → s.1.Returns s.2 outcome

theorem Returned.error {s : AdapterCall × Seen} (e : Exc) : Returned s (.error e) := by
  rintro outcome ⟨⟩

/-- What signing a request awaits. -/
def IsSigning : AdapterOp → Prop
  | .nonceSource | .journal (.reserveAuth _ _ _) => True
  | _ => False

/-- Signing a request changes nothing that is remembered. -/
theorem wp_request {α : Type} {s : AdapterCall × Seen}
    {Q : AdapterCall × Seen → Except Exc α → Prop} {p : Adapter α}
    (hp : Calls IsSigning (fun _ => True) p) (hQ : ∀ r, Q s r) : wp boundProtocol Q s p := by
  refine wp_frame (fun op hop => ?_) (fun r _ => hQ r) hp
  cases op with
  | nonceSource => exact ⟨trivial, fun r => by cases r <;> rfl⟩
  | journal jop =>
    cases jop with
    | reserveAuth => exact ⟨trivial, fun r => by cases r <;> rfl⟩
    | _ => exact hop.elim
  | _ => exact hop.elim

variable [Hashlib]

omit [Stdlib] in
theorem request_calls (credentials : VietShareCredentials) (id method path : Str) (body : Bytes)
    (now : Int) (key : Option Str) :
    Calls IsSigning (fun _ => True) (request credentials id method path body now key) := by
  unfold request
  refine calls_bind (calls_perform trivial) (fun nonce _ => ?_) fun _ _ => trivial
  refine calls_bind (R := fun _ => True) (wp_ensure.2 ⟨fun _ => trivial, fun _ => trivial⟩)
    (fun _ _ => ?_) fun _ _ => trivial
  refine calls_bind (R := fun _ => True) ?_ (fun _ _ => wp_ofExcept.2 trivial) fun _ _ => trivial
  unfold reserve
  refine calls_bind (R := fun _ => True) (wp_attempt.2 (calls_perform trivial)) (fun r _ => ?_)
    fun _ _ => trivial
  match r with
  | .ok () => trivial
  | .error (.journal _) => trivial
  | .error (.gate _) | .error (.contract _) | .error (.configuration _) | .error .value
  | .error .database | .error .exception | .error .cancelled | .error .fatal => trivial

section

variable {credentials : VietShareCredentials} {id : Str} {g : Seen}

omit [Hashlib] in
theorem finishWith_bound {record : PreparedWrite} {e : Ending} (hg : g.begun = some record)
    (he : (e.state = .completed ∨ e.outcome.state = .completed ∨
      e.outcome.order.isSome = true) → ∃ order, e.orderCode = some order.orderCode ∧
        e.outcome = ⟨.completed, some order, none, none⟩ ∧ g.Delivers (some record) order) :
    wp boundProtocol Returned (.submit credentials id, g) (finishWith id e) := by
  unfold finishWith
  refine wp_bind.2 (wp_perform.2 ⟨⟨⟨credentials, rfl⟩, fun hstate => ?_⟩, fun r => ?_⟩)
  · obtain ⟨order, hcode, -, hd⟩ := he (.inl hstate)
    exact ⟨order, hcode, by rw [hg]; exact hd⟩
  · cases r with
    | error x => exact .error x
    | ok u =>
      rintro outcome ⟨⟩
      refine ⟨fun order horder => ?_, fun hstate hnone => ?_⟩
      · obtain ⟨order', -, hout, hd⟩ := he (.inr (.inr (by rw [horder]; rfl)))
        rw [hout] at horder
        cases horder
        exact ⟨by rw [hout], by show g.Delivers g.begun order; rw [hg]; exact hd⟩
      · obtain ⟨order, -, hout, -⟩ := he (.inr (.inl hstate))
        rw [hout] at hnone
        cases hnone

omit [Hashlib] in
theorem conclude_bound {record : PreparedWrite} {now : Int} {reply : Except Exc VietShareResponse}
    (hg : g.begun = some record) (hr : ∀ response, reply = .ok response → g.reply = some response) :
    wp boundProtocol Returned (.submit credentials id, g) (conclude id record now reply) := by
  cases reply with
  | error e =>
    refine wp_ite.2 ⟨fun _ => finishWith_bound hg fun h => ?_, fun _ => .error e⟩
    rcases h with h | h | h <;> cases h
  | ok response =>
    unfold conclude
    refine wp_bind.2 (wp_ofExcept.2 ?_)
    cases errorCode response.body with
    | error e => exact .error e
    | ok code =>
      have hend (receivedAt : Int) :
          wp boundProtocol Returned (.submit credentials id, g) (do
            let e ← .ofExcept (classify record response code receivedAt)
            finishWith id e) := by
        refine wp_bind.2 (wp_ofExcept.2 ?_)
        cases he : classify record response code receivedAt with
        | error e => exact .error e
        | ok e =>
          refine finishWith_bound hg fun hc => ?_
          obtain ⟨order, hstatus, hof, hcode, hout⟩ := classify_completed he hc
          exact ⟨order, hcode, hout, record, response, rfl, hr response rfl, hstatus, hof⟩
      refine wp_bind.2 ?_
      unfold receiptTime
      split
      · refine wp_perform.2 ⟨trivial, fun r => ?_⟩
        cases r with
        | error e => exact .error e
        | ok t => exact hend t
      · exact hend now

theorem submit_bound (credentials : VietShareCredentials) (id : Str) :
    wp boundProtocol Returned (.submit credentials id, .nothing) (submit credentials id) := by
  unfold submit
  refine wp_bind.2 (wp_perform.2 ⟨trivial, fun r => ?_⟩)
  cases r with
  | error e => exact .error e
  | ok now =>
    refine wp_bind.2 (wp_ensure.2 ⟨fun _ => ?_, fun _ => .error _⟩)
    refine wp_bind.2 (wp_perform.2 ⟨⟨credentials, rfl⟩, fun r => ?_⟩)
    cases r with
    | error e => exact .error e
    | ok record =>
      cases record with
      | none =>
        refine wp_bind.2 (wp_perform.2 ⟨rfl, fun r => ?_⟩)
        cases r with
        | error e => exact .error e
        | ok previous =>
          refine wp_ofExcept.2 fun outcome hout => ?_
          obtain ⟨hnone, hcompleted⟩ := refused_ok hout
          refine ⟨fun order horder => ?_, fun hstate _ => hcompleted hstate⟩
          rw [hnone] at horder
          cases horder
      | some record =>
        refine wp_bind.2 ?_
        unfold signed
        refine wp_bind.2 (wp_attempt.2 (wp_request (request_calls _ _ _ _ _ _ _) fun r => ?_))
        cases r with
        | error e =>
          refine wp_ite.2 ⟨fun _ => ?_, fun _ => .error e⟩
          refine wp_bind.2 (wp_perform.2 ⟨⟨⟨credentials, rfl⟩, fun h => by cases h⟩, fun r => ?_⟩)
          cases r <;> exact .error _
        | ok q =>
          refine wp_bind.2 (wp_attempt.2 (wp_perform.2 ⟨rfl, fun r => ?_⟩))
          refine conclude_bound ?_ ?_
          · cases r <;> rfl
          · rintro response rfl
            rfl

theorem getDeliveredOrder_bound (credentials : VietShareCredentials) (id : Str) :
    wp boundProtocol Returned (.getDeliveredOrder credentials id, .nothing)
      (getDeliveredOrder credentials id) := by
  unfold getDeliveredOrder
  refine wp_bind.2 (wp_perform.2 ⟨rfl, fun r => ?_⟩)
  cases r with
  | error e => exact .error e
  | ok stored =>
    refine wp_bind.2 (wp_ofExcept.2 ?_)
    cases hstored : completedRecord stored with
    | error e => exact .error e
    | ok rc =>
      obtain ⟨record, code⟩ := rc
      obtain ⟨rfl, -⟩ := completedRecord_ok.1 hstored
      refine wp_bind.2 (wp_perform.2 ⟨trivial, fun r => ?_⟩)
      cases r with
      | error e => exact .error e
      | ok now =>
        refine wp_bind.2 (wp_request (request_calls _ _ _ _ _ _ _) fun r => ?_)
        cases r with
        | error e => exact .error e
        | ok q =>
          refine wp_bind.2 (wp_attempt.2 (wp_perform.2 ⟨rfl, fun reply => ?_⟩))
          refine wp_ofExcept.2 fun outcome hout hc => ?_
          obtain ⟨response, order, rfl, hstatus, hof, hcode, rfl⟩ := readBack_ok hout hc
          exact ⟨record, code, order, rfl, hstored, rfl, hcode, record, response, rfl, rfl, hstatus,
            hof⟩

end

/-- **Every call keeps to what it has read.** -/
theorem body_bound (call : AdapterCall) :
    wp boundProtocol (fun s r => ∀ outcome, r = .ok (some outcome) → s.1.Returns s.2 outcome)
      (call, .nothing) call.body := by
  cases call with
  | prepare id key purchase =>
    show wp _ _ _ (prepareOrder id key purchase >>= fun _ => pure none)
    unfold prepareOrder
    refine wp_bind.2 (wp_bind.2 (wp_ensure.2 ⟨fun _ => ?_, fun _ => by rintro _ ⟨⟩⟩))
    refine wp_bind.2 (wp_ofExcept.2 ?_)
    cases purchase.rawBody with
    | error e => rintro _ ⟨⟩
    | ok body =>
      refine wp_bind.2 (wp_perform.2 ⟨⟨key, purchase, rfl⟩, fun r => ?_⟩)
      cases r <;> rintro _ ⟨⟩
  | markInterruptedUnknown id =>
    refine wp_bind.2 (wp_perform.2 ⟨rfl, fun r => ?_⟩)
    cases r <;> rintro _ ⟨⟩
  | submit credentials id =>
    refine wp_bind.2 (wp_mono (fun s r hr => ?_) (submit_bound credentials id))
    cases r with
    | error e => rintro _ ⟨⟩
    | ok outcome =>
      rintro _ ⟨⟩
      exact hr outcome rfl
  | getDeliveredOrder credentials id =>
    refine wp_bind.2 (wp_mono (fun s r hr => ?_) (getDeliveredOrder_bound credentials id))
    cases r with
    | error e => rintro _ ⟨⟩
    | ok outcome =>
      rintro _ ⟨⟩
      exact hr outcome rfl

/-! ## Over a run -/

/-- What a call has read stands in the trace; the row of its attempt has kept its key and
body. -/
structure Seen.Traced (pid : Nat) (tr : List AdapterTrans) (s : JournalDb)
    (g : AdapterCall × Seen) : Prop where
  got : ∀ row, g.2.got = some row →
    ∃ t ∈ tr, t.event = .act pid (.journal (.get g.1.operationId)) (.ok (some row))
  begun : ∀ record, g.2.begun = some record →
    (∃ t ∈ tr, ∃ now,
      t.event = .act pid (.journal (.beginAttempt g.1.operationId now)) (.ok (some record))) ∧
    ∃ row, s.tables.1.write? g.1.operationId = some row ∧
      row.idempotencyKey = record.idempotencyKey ∧ row.body = record.body
  reply : ∀ response, g.2.reply = some response →
    ∃ t ∈ tr, ∃ request, t.event = .act pid (.send g.1.operationId request) (.ok response)

variable {s₀ : JournalDb} {tr : List AdapterTrans} {cfg : Cfg adapterSystem}

/-- Nothing is taken away by a step that keeps the key and body of the row. -/
theorem Seen.Traced.mono {pid : Nat} {t : AdapterTrans} {s s' : JournalDb}
    {g : AdapterCall × Seen} (h : Seen.Traced pid tr s g)
    (hs : ∀ row, s.tables.1.write? g.1.operationId = some row →
      ∃ row', s'.tables.1.write? g.1.operationId = some row' ∧
        row'.idempotencyKey = row.idempotencyKey ∧ row'.body = row.body) :
    Seen.Traced pid (tr ++ [t]) s' g := by
  have hmem {u : AdapterTrans} (hu : u ∈ tr) : u ∈ tr ++ [t] := List.mem_append_left _ hu
  refine ⟨fun row hrow => ?_, fun record hrecord => ?_, fun response hresponse => ?_⟩
  · obtain ⟨u, hu, he⟩ := h.got row hrow
    exact ⟨u, hmem hu, he⟩
  · obtain ⟨⟨u, hu, he⟩, row, hrow, hkey, hbody⟩ := h.begun record hrecord
    obtain ⟨row', hrow', hkey', hbody'⟩ := hs row hrow
    exact ⟨⟨u, hmem hu, he⟩, row', hrow', hkey'.trans hkey, hbody'.trans hbody⟩
  · obtain ⟨u, hu, he⟩ := h.reply response hresponse
    exact ⟨u, hmem hu, he⟩

theorem Seen.Traced.next {pid : Nat} {op : AdapterOp} {r : Except Exc op.Res} {s s' : JournalDb}
    {g : AdapterCall × Seen} (h : Seen.Traced pid tr s g) (hok : g.1.InOrder g.2 op)
    (he : AdapterEffect s op r s') :
    Seen.Traced pid (tr ++ [⟨s, .act pid op r, s'⟩]) s' (g.1, g.2.next op r) := by
  have hm : Seen.Traced pid (tr ++ [⟨s, .act pid op r, s'⟩]) s' g :=
    h.mono fun row hrow => effect_keeps he hrow
  have hlast : (⟨s, .act pid op r, s'⟩ : AdapterTrans) ∈ tr ++ [⟨s, .act pid op r, s'⟩] :=
    List.mem_append_right _ List.mem_cons_self
  obtain ⟨call, g⟩ := g
  unfold Seen.next
  split
  · obtain rfl := hok
    refine ⟨?_, hm.begun, hm.reply⟩
    rintro row rfl
    exact ⟨_, hlast, rfl⟩
  · obtain ⟨credentials, rfl⟩ := hok
    refine ⟨hm.got, ?_, hm.reply⟩
    rintro record rfl
    obtain ⟨-, -, -, -, hrow⟩ := begin_effect he
    exact ⟨⟨_, hlast, _, rfl⟩, record, hrow, rfl, rfl⟩
  · obtain rfl := hok
    refine ⟨hm.got, hm.begun, ?_⟩
    rintro response ⟨⟩
    exact ⟨_, hlast, _, rfl⟩
  · exact hm

abbrev seenOf (pid : Nat) (tr : List AdapterTrans) : Option (AdapterCall × Seen) :=
  ghost (A := adapterSystem) boundProtocol (fun call => (call, Seen.nothing)) pid tr

/-- **The ghost state is what the trace says.** -/
theorem seen_traced (h : Run adapterSystem s₀ tr cfg) {pid : Nat} {g : AdapterCall × Seen}
    (hg : seenOf pid tr = some g) : Seen.Traced pid tr cfg.store g :=
  h.history (K := fun tr s g => Seen.Traced pid tr s g) body_bound
    (fun _ _ _ => ⟨by rintro _ ⟨⟩, by rintro _ ⟨⟩, by rintro _ ⟨⟩⟩)
    (fun ht => ht.mono fun row hrow => ⟨row, hrow, rfl, rfl⟩)
    (fun ht he => ht.mono fun row hrow => effect_keeps he hrow)
    (fun ht hok he => ht.next hok he) hg

/-- A process has a 200 response to its request, which is an order of the operation of
the row. -/
def GivenOrder (tr : List AdapterTrans) (pid : Nat) (id : Str) (row : PreparedWrite)
    (order : CompletedOrder) : Prop :=
  ∃ t ∈ tr, ∃ request response, t.event = .act pid (.send id request) (.ok response) ∧
    response.statusCode = 200 ∧ IsOrderOf row.idempotencyKey row.body response.body order

theorem Seen.Traced.given {pid : Nat} {s : JournalDb} {call : AdapterCall} {g : Seen}
    {record : PreparedWrite} {order : CompletedOrder} (h : Seen.Traced pid tr s (call, g))
    (hd : g.Delivers (some record) order) : GivenOrder tr pid call.operationId record order := by
  obtain ⟨_, response, hrecord, hresponse, hstatus, hof⟩ := hd
  cases hrecord
  obtain ⟨t, ht, request, he⟩ := h.reply response hresponse
  exact ⟨t, ht, request, response, he, hstatus, hof⟩

/-- What a call that has ended has read, and what it returned. -/
theorem ended_returns (h : Run adapterSystem s₀ tr cfg) {u : AdapterTrans} {pid : Nat}
    {call : AdapterCall} {outcome : WriteOutcome} (hu : u ∈ tr)
    (hstart : u.event = .start pid call) (hout : cfg.result? pid = some (.ok (some outcome))) :
    ∃ g, Seen.Traced pid tr cfg.store (call, g) ∧ call.Returns g outcome := by
  obtain ⟨rest, hp⟩ := h.call_of_start hu hstart
  obtain ⟨_, g, hg, hr⟩ := h.ended (P := boundProtocol) (i := fun call => (call, Seen.nothing))
    body_bound hout
  obtain ⟨g', hg', hcall⟩ := h.ghost_call (P := boundProtocol)
    (i := fun call => (call, Seen.nothing))
    (K := fun (call : AdapterCall) (s : AdapterCall × Seen) => s.1 = call) body_bound
    (fun _ => rfl) (fun _ _ _ _ h _ => h) hp
  obtain rfl : g = g' := Option.some.inj (hg.symm.trans hg')
  obtain ⟨call', g⟩ := g
  obtain rfl : call' = call := hcall
  exact ⟨g, seen_traced h hg, hr outcome rfl⟩

variable {l m : List AdapterTrans} {t : AdapterTrans} {pid : Nat}

/-- Every step of a process is in order with what it has read. -/
theorem act_bound {op : AdapterOp} {r : Except Exc op.Res} (h : Run adapterSystem s₀ tr cfg)
    (htr : tr = l ++ t :: m) (ht : t.event = .act pid op r) :
    ∃ call g, (∃ u ∈ l, u.event = .start pid call) ∧ Seen.Traced pid l t.pre (call, g) ∧
      call.InOrder g op ∧ AdapterEffect t.pre op r t.post := by
  obtain ⟨cfg₀, call, k, h₀, hpre, hp, he⟩ := h.act_at htr ht
  obtain ⟨g, hg, hok⟩ := h₀.act_ok (P := boundProtocol) (i := fun call => (call, Seen.nothing))
    body_bound hp
  obtain ⟨g', hg', hcall⟩ := h₀.ghost_call (P := boundProtocol)
    (i := fun call => (call, Seen.nothing))
    (K := fun (call : AdapterCall) (s : AdapterCall × Seen) => s.1 = call) body_bound
    (fun _ => rfl) (fun _ _ _ _ h _ => h) hp
  obtain rfl : g = g' := Option.some.inj (hg.symm.trans hg')
  obtain ⟨call', g⟩ := g
  obtain rfl : call' = call := hcall
  exact ⟨call', g, h₀.started hp, hpre ▸ seen_traced h₀ hg, hok, he⟩

/-- **A row completes only with an order of its operation**, and with a code that a lookup
accepts. -/
theorem completes_bound {id : Str} {row : PreparedWrite} (h : Run adapterSystem s₀ tr cfg)
    (htr : tr = l ++ t :: m) (hrow : t.post.tables.1.write? id = some row)
    (hc : row.state = .completed) :
    t.pre.tables.1.write? id = some row ∨ ∃ pid credentials order,
      (∃ u ∈ l, u.event = .start pid (.submit credentials id)) ∧ GivenOrder l pid id row order ∧
      completedRecord (some row) = .ok (row, order.orderCode) := by
  rcases h.act_or_still (htr ▸ List.mem_append_right _ List.mem_cons_self) with
    ⟨pid, op, r, ht⟩ | hstill
  · obtain ⟨call, g, hstart, htraced, hok, he⟩ := act_bound h htr ht
    rcases effect_row_origin he hrow with ⟨row₀, hrow₀⟩ | ⟨key, body, -, rfl⟩
    · rcases effect_row he hrow₀ with hkeep | ⟨jop, row', rfl, hrow', hstep⟩
      · exact .inl (hrow₀.trans (hkeep.symm.trans hrow))
      · obtain rfl := Option.some.inj (hrow'.symm.trans hrow)
        obtain rfl := operationId_of_write? hrow₀
        cases hstep with
        | begins => cases hc
        | interrupted => cases hc
        | finishes state code retryNotBefore _ _ =>
          obtain ⟨⟨credentials, rfl⟩, hdelivers⟩ := hok
          obtain ⟨order, rfl, hd⟩ := hdelivers hc
          obtain ⟨record, response, hbegun, hrest⟩ := hd
          have hgiven := htraced.given ⟨record, response, rfl, hrest⟩
          obtain ⟨-, row₁, hrow₁, hkey, hbody⟩ := htraced.begun record hbegun
          obtain rfl := Option.some.inj (hrow₀.symm.trans hrow₁)
          obtain ⟨v, hv, request, response, hev, hstatus, hof⟩ := hgiven
          rw [← hkey, ← hbody] at hof
          exact .inr ⟨pid, credentials, order, hstart,
            ⟨v, hv, request, response, hev, hstatus, hof⟩,
            completedRecord_ok.2 ⟨rfl, hc, rfl, hof.codeForm⟩⟩
    · cases hc
  · exact .inl (hstill ▸ hrow)

/-- Only a prepare adds a row. -/
theorem creates_bound {id : Str} {row : PreparedWrite} (h : Run adapterSystem s₀ tr cfg)
    (htr : tr = l ++ t :: m) (hrow : t.post.tables.1.write? id = some row)
    (hnone : t.pre.tables.1.write? id = none) :
    ∃ pid key purchase, (∃ u ∈ l, u.event = .start pid (.prepare id key purchase)) ∧
      row = .new id row.idempotencyKey row.body := by
  rcases h.act_or_still (htr ▸ List.mem_append_right _ List.mem_cons_self) with
    ⟨pid, op, r, ht⟩ | hstill
  · obtain ⟨call, g, hstart, -, hok, he⟩ := act_bound h htr ht
    rcases effect_row_origin he hrow with ⟨row₀, hrow₀⟩ | ⟨key, body, rfl, rfl⟩
    · rw [hnone] at hrow₀
      cases hrow₀
    · obtain ⟨key', purchase, rfl⟩ := hok
      exact ⟨pid, key', purchase, hstart, rfl⟩
  · rw [hstill, hnone] at hrow
    cases hrow

/-- **A lookup changes no row.** -/
theorem lookup_keeps {op : AdapterOp} {r : Except Exc op.Res} {u : AdapterTrans}
    {credentials : VietShareCredentials} {id : Str} (h : Run adapterSystem s₀ tr cfg)
    (htr : tr = l ++ t :: m) (ht : t.event = .act pid op r) (hu : u ∈ tr)
    (hstart : u.event = .start pid (.getDeliveredOrder credentials id)) (id' : Str) :
    t.post.tables.1.write? id' = t.pre.tables.1.write? id' := by
  obtain ⟨call, g, ⟨v, hv, hcall⟩, -, hok, he⟩ := act_bound h htr ht
  obtain rfl := h.start_unique hu (htr ▸ List.mem_append_left _ hv) hstart hcall
  cases hpre : t.pre.tables.1.write? id' with
  | some row =>
    rcases effect_row he hpre with hkeep | ⟨jop, row', rfl, -, hstep⟩
    · exact hkeep
    · cases hstep with
      | begins => obtain ⟨_, ⟨⟩⟩ := hok
      | finishes => obtain ⟨⟨_, ⟨⟩⟩, -⟩ := hok
      | interrupted => cases hok
  | none =>
    cases hpost : t.post.tables.1.write? id' with
    | none => rfl
    | some row =>
      rcases effect_row_origin he hpost with ⟨row₀, hrow₀⟩ | ⟨key, body, rfl, -⟩
      · rw [hpre] at hrow₀
        cases hrow₀
      · obtain ⟨_, _, ⟨⟩⟩ := hok

/-- A completed row was so from the start, or a lookup accepts it. -/
theorem stored_code (h : Run adapterSystem s₀ tr cfg) {id : Str} {row : PreparedWrite}
    (hrow : cfg.store.tables.1.write? id = some row) (hc : row.state = .completed) :
    s₀.tables.1.write? id = some row ∨ ∃ code, completedRecord (some row) = .ok (row, code) := by
  induction tr using List.reverseRecOn generalizing cfg with
  | nil =>
    rw [h.store_eq] at hrow
    exact .inl hrow
  | append_singleton tr t ih =>
    obtain ⟨cfg₀, cfg₁, h₀, hpre, -⟩ := h.split (m := []) rfl
    rw [h.store_eq, finalStore_snoc] at hrow
    rcases completes_bound h rfl hrow hc with hkeep | ⟨-, -, order, -, -, hok⟩
    · exact ih h₀ (hpre ▸ hkeep)
    · exact .inr ⟨order.orderCode, hok⟩

/-- **What a delivered order is bound to**, over a run. -/
structure DeliveredBound (s₀ : JournalDb) (tr : List AdapterTrans) (cfg : Cfg adapterSystem) :
    Prop where
  /-- A lookup delivers the order of its completed row, with the code of the row. -/
  lookups : ∀ {u pid credentials id outcome}, u ∈ tr →
    u.event = .start pid (.getDeliveredOrder credentials id) →
    cfg.result? pid = some (.ok (some outcome)) →
    outcome.state = .completed ∨ outcome.order.isSome = true →
      ∃ record code order,
        (∃ t ∈ tr, t.event = .act pid (.journal (.get id)) (.ok (some record))) ∧
        completedRecord (some record) = .ok (record, code) ∧ order.orderCode = code ∧
        outcome = ⟨.completed, some order, none, none⟩ ∧ GivenOrder tr pid id record order
  /-- A submit delivers the order of the row that it began with. -/
  submits : ∀ {u pid credentials id outcome order}, u ∈ tr →
    u.event = .start pid (.submit credentials id) →
    cfg.result? pid = some (.ok (some outcome)) → outcome.order = some order →
      outcome.state = .completed ∧ ∃ record, (∃ t ∈ tr, ∃ now,
        t.event = .act pid (.journal (.beginAttempt id now)) (.ok (some record))) ∧
        GivenOrder tr pid id record order
  /-- One that reports a completed order without content has found it completed. -/
  repeats : ∀ {u pid credentials id outcome}, u ∈ tr →
    u.event = .start pid (.submit credentials id) →
    cfg.result? pid = some (.ok (some outcome)) → outcome.state = .completed →
    outcome.order = none → ∃ t ∈ tr, ∃ previous, previous.state = .completed ∧
      t.event = .act pid (.journal (.get id)) (.ok (some previous))
  /-- A row is completed by a submit that has been given its order. -/
  completes : ∀ {l t m id row}, tr = l ++ t :: m → t.post.tables.1.write? id = some row →
    row.state = .completed → t.pre.tables.1.write? id = some row ∨ ∃ pid credentials order,
      (∃ u ∈ l, u.event = .start pid (.submit credentials id)) ∧ GivenOrder l pid id row order ∧
      completedRecord (some row) = .ok (row, order.orderCode)
  creates : ∀ {l t m id row}, tr = l ++ t :: m → t.post.tables.1.write? id = some row →
    t.pre.tables.1.write? id = none → ∃ pid key purchase,
      (∃ u ∈ l, u.event = .start pid (.prepare id key purchase)) ∧
      row = .new id row.idempotencyKey row.body
  lookupKeeps : ∀ {u t pid credentials id op r}, u ∈ tr → t ∈ tr →
    u.event = .start pid (.getDeliveredOrder credentials id) → t.event = .act pid op r →
      ∀ id', t.post.tables.1.write? id' = t.pre.tables.1.write? id'
  stored : ∀ {id row}, cfg.store.tables.1.write? id = some row → row.state = .completed →
    s₀.tables.1.write? id = some row ∨ ∃ code, completedRecord (some row) = .ok (row, code)

/-- **A delivered order is that of the stored operation**, in every run from any journal. -/
theorem delivered_bound (h : Run adapterSystem s₀ tr cfg) : DeliveredBound s₀ tr cfg where
  lookups hu hstart hout hc := by
    obtain ⟨g, htraced, hr⟩ := ended_returns h hu hstart hout
    obtain ⟨record, code, order, hgot, hrecord, hoc, hcode, hd⟩ := hr hc
    rw [hgot] at hd
    exact ⟨record, code, order, htraced.got record hgot, hrecord, hcode, hoc, htraced.given hd⟩
  submits hu hstart hout horder := by
    obtain ⟨g, htraced, hr, -⟩ := ended_returns h hu hstart hout
    obtain ⟨hstate, hd⟩ := hr _ horder
    obtain ⟨record, response, hbegun, hrest⟩ := hd
    exact ⟨hstate, record, (htraced.begun record hbegun).1,
      htraced.given ⟨record, response, rfl, hrest⟩⟩
  repeats hu hstart hout hstate hnone := by
    obtain ⟨g, htraced, -, hr⟩ := ended_returns h hu hstart hout
    obtain ⟨previous, hgot, hprevious⟩ := hr hstate hnone
    obtain ⟨t, ht, he⟩ := htraced.got previous hgot
    exact ⟨t, ht, previous, hprevious, he⟩
  completes htr hrow hc := completes_bound h htr hrow hc
  creates htr hrow hnone := creates_bound h htr hrow hnone
  lookupKeeps hu ht hstart he := by
    obtain ⟨l, m, htr⟩ := List.append_of_mem ht
    exact lookup_keeps h htr he hu hstart
  stored hrow hc := stored_code h hrow hc

end

/-! ## A sample order -/

section

def sampleOrderCode : Str := str "ORDER-1"

/-- The response to the sample purchase. -/
def sampleOrder : Json := .obj [(str "success", .bool true), (str "order", .obj [
  (str "status", .str (str "completed")), (str "channel", .str (str "api")),
  (str "order_code", .str sampleOrderCode),
  (str "product", .obj [(str "id", .int 7), (str "name", .str (str "Synthetic"))]),
  (str "idempotency_key", .str (str "synthetic-key-one")), (str "quantity", .int 1),
  (str "accounts", .arr [.str (str "synthetic-account")]), (str "unit_prices", .arr [.int 20000]),
  (str "price_breakdown", .arr []), (str "unit_price", .int 20000),
  (str "total_amount", .int 20000), (str "discount_amount", .int 0),
  (str "created_at", .str (str "2026-01-01T00:00:00+00:00")),
  (str "delivered_at", .str (str "2026-01-01T00:00:01+00:00"))])]

def sampleOrderBody : Bytes := (encodeUtf8 sampleOrder.compact).getD []

def lookupCanonical : Bytes :=
  (encodeUtf8 (str "1001|synthetic-nonce-2|GET|/v1/orders/ORDER-1|" ++ hexDigits 64
    0xe3b0c44298fc1c149afbf4c8996fb92427ae41e4649b934ca495991b7852b855)).getD []

def lookupInner : BitVec 256 :=
  0x2e85637e306e4614c4cf6245b9fc47741680d026e5e27f5813b569c27efbc28f#256

/-- The digests of the sample request and of the lookup of its order. -/
abbrev lookupDigests : Hashlib where
  sha1 _ := 0
  sha256 data :=
    if data = [] then
      0xe3b0c44298fc1c149afbf4c8996fb92427ae41e4649b934ca495991b7852b855#256
    else if data = sampleBlock 0x36 ++ lookupCanonical then lookupInner
    else if data = sampleBlock 0x5c ++ toBytes 32 lookupInner.toNat then
      0x94b21322ff2491988d90b6c3c80bd902ed18227b756475892801d1375ac34858#256
    else sampleDigests.sha256 data

/-- The two bodies are read as what they were written from; both dates have a zone. -/
abbrev orderStdlib : Stdlib where
  jsonLoads data :=
    if data = sampleBody then .ok samplePurchase.asDict
    else if data = sampleOrderBody then .ok sampleOrder
    else .error .value
  httpDate _ := none
  isoAware date := if date.length = 25 then some true else none

attribute [local instance] lookupDigests orderStdlib

/-- An order that is prepared, submitted and looked up. -/
def sampleDelivery : List AdapterTrans × Cfg adapterSystem :=
  (replay adapterSystem (adapterAnswer 1 fun _ => .ok ⟨200, noHeaders, sampleOrderBody,
    ok_isStatus⟩) (sampleStart 1)
    ([.start 0 (.prepare sampleOperation (str "synthetic-key-one") samplePurchase), .go 0,
      .start 1 (.submit sampleCredentials sampleOperation)] ++ List.replicate 6 (.go 1) ++
      [.start 2 (.getDeliveredOrder sampleCredentials sampleOperation)] ++
      List.replicate 5 (.go 2))).getD ([], ⟨sampleStart 1, fun _ => none⟩)

theorem sampleDelivery_run :
    Run adapterSystem (sampleStart 1) sampleDelivery.1 sampleDelivery.2 := by
  unfold sampleDelivery
  cases h : replay adapterSystem _ (sampleStart 1) _ with
  | none => exact .nil
  | some st => exact replay_run (adapterAnswer_effect 1 _) h

theorem delivered_bound_sample :
    (sampleDelivery.2.result? 2 = some (.ok (some ⟨.completed,
        some ⟨sampleOrderCode, 7, 1, str "VND", 20000, [str "synthetic-account"]⟩, none, none⟩))) ∧
      DeliveredBound (sampleStart 1) sampleDelivery.1 sampleDelivery.2 :=
  ⟨by decide +kernel, delivered_bound sampleDelivery_run⟩

end

end NyanShopBot.VietShare.Offline
