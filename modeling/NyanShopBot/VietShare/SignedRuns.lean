import NyanShopBot.VietShare.Delivered
import NyanShopBot.VietShare.Dispatches
import NyanShopBot.VietShare.Signing

/-!
# Every request is signed

The requests of the read adapter, of the offline write adapter and of the gate's executor
are all of them signed for what they send (`order_isSigned`, `dispatch_isSigned`), so that
none of them can stand for another one: `signatures_unambiguous`.
-/

namespace NyanShopBot.VietShare.Offline

open Py Db Conc

section

variable [Stdlib] [Hashlib] [HostChecks]

/-! ## The offline adapter -/

/-- What is sent is signed. -/
def SendsSigned : AdapterOp → Prop
  | .send _ r => ∃ timestamp nonce, IsSigned r timestamp nonce
  | _ => True

omit [Stdlib] in
theorem reserve_sends (operationId : Str) (now : Int) (nonce : Str) :
    Calls SendsSigned (fun _ => True) (reserve operationId now nonce) := by
  unfold reserve
  refine wp_bind.2 (wp_attempt.2 (wp_perform.2 ⟨trivial, fun r => ?_⟩))
  rcases r with e | u
  · cases e <;> trivial
  · trivial

omit [Stdlib] in
theorem request_sends {credentials : VietShareCredentials} {operationId method path : Str}
    {body : Bytes} {now : Int} {key : Option Str} (hmethod : chr '|' ∉ method)
    (hpath : IsOrderPath path) :
    Calls SendsSigned (fun r => ∀ q, r = .ok q → ∃ timestamp nonce, IsSigned q timestamp nonce)
      (request credentials operationId method path body now key) := by
  unfold request
  refine wp_bind.2 (wp_perform.2 ⟨trivial, fun r => ?_⟩)
  have hraise : ∀ e : Exc, ∀ q, (.error e : Except Exc VietShareRequest) = .ok q →
      ∃ timestamp nonce, IsSigned q timestamp nonce := by
    intro e q h
    cases h
  cases r with
  | error e => exact hraise e
  | ok nonce =>
    refine wp_bind.2 (wp_ensure.2 ⟨fun _ => ?_, fun _ => hraise _⟩)
    refine wp_bind.2 (wp_mono (fun g r _ => ?_) (reserve_sends operationId now nonce))
    cases r with
    | error e => exact hraise e
    | ok u =>
      exact wp_ofExcept.2 fun q hq => ⟨now, nonce, signedRequest_isSigned hmethod hpath hq⟩

omit [Stdlib] in
theorem signed_sends (credentials : VietShareCredentials) (operationId : Str)
    (record : PreparedWrite) (now : Int) :
    Calls SendsSigned (fun r => ∀ q, r = .ok q → ∃ timestamp nonce, IsSigned q timestamp nonce)
      (signed credentials operationId record now) := by
  unfold signed
  refine wp_bind.2 (wp_attempt.2 (wp_mono ?_ (request_sends (by decide) (.inl rfl))))
  intro g r h
  cases r with
  | ok q => exact h
  | error e =>
    have hraise : ∀ e' : Exc, ∀ q, (.error e' : Except Exc VietShareRequest) = .ok q →
        ∃ timestamp nonce, IsSigned q timestamp nonce := by
      intro e' q h
      cases h
    refine wp_ite.2 ⟨fun _ => ?_, fun _ => hraise e⟩
    refine wp_bind.2 (wp_perform.2 ⟨trivial, fun r => ?_⟩)
    cases r with
    | ok u => exact hraise e
    | error e' => exact hraise e'

omit [Hashlib] in
/-- After the reply nothing is sent. -/
theorem conclude_sends [Hashlib] (operationId : Str) (record : PreparedWrite) (now : Int)
    (reply : Except Exc VietShareResponse) :
    Calls SendsSigned (fun _ => True) (conclude operationId record now reply) := by
  let g : Phase := ⟨operationId, none, some record, none, some reply, none⟩
  refine calls_of_wp (P := adapterProtocol) (K := fun g : Phase => g.reply.isSome = true)
    (fun g op hg hok => ?_) (fun g op r hg _ => ?_) (conclude_wp (g := g) rfl rfl) rfl
  · cases op with
    | send id r =>
      have hnone : g.reply = none := hok.2.1
      rw [hnone] at hg
      cases hg
    | _ => trivial
  · have hmoves := g.moves op r
    show (g.next op r).reply.isSome = true
    generalize g.next op r = g' at hmoves
    cases hmoves <;> simp [hg]

theorem submit_sends (credentials : VietShareCredentials) (operationId : Str) :
    Calls SendsSigned (fun _ => True) (Offline.submit credentials operationId) := by
  unfold Offline.submit
  refine wp_bind.2 (wp_perform.2 ⟨trivial, fun r => ?_⟩)
  cases r with
  | error e => trivial
  | ok now =>
    refine wp_bind.2 (wp_ensure.2 ⟨fun _ => ?_, fun _ => trivial⟩)
    refine wp_bind.2 (wp_perform.2 ⟨trivial, fun r => ?_⟩)
    match r with
    | .error e => trivial
    | .ok none =>
      refine wp_bind.2 (wp_perform.2 ⟨trivial, fun r => ?_⟩)
      cases r with
      | error e => trivial
      | ok previous => exact wp_ofExcept.2 trivial
    | .ok (some record) =>
      refine wp_bind.2 (wp_mono ?_ (signed_sends credentials operationId record now))
      intro g r h
      cases r with
      | error e => trivial
      | ok q =>
        refine wp_bind.2 (wp_attempt.2 (wp_perform.2 ⟨h q rfl, fun reply => ?_⟩))
        exact conclude_sends operationId record now reply

theorem getDeliveredOrder_sends (credentials : VietShareCredentials) (operationId : Str) :
    Calls SendsSigned (fun _ => True) (Offline.getDeliveredOrder credentials operationId) := by
  unfold Offline.getDeliveredOrder
  refine wp_bind.2 (wp_perform.2 ⟨trivial, fun r => ?_⟩)
  cases r with
  | error e => trivial
  | ok stored =>
    refine wp_bind.2 (wp_ofExcept.2 ?_)
    cases hr : completedRecord stored with
    | error e => trivial
    | ok found =>
      obtain ⟨record, code⟩ := found
      refine wp_bind.2 (wp_perform.2 ⟨trivial, fun r => ?_⟩)
      cases r with
      | error e => trivial
      | ok now =>
        refine wp_bind.2 (wp_mono ?_ (request_sends (by decide)
          (.inr ⟨code, (completedRecord_ok.1 hr).2.2.2, rfl⟩)))
        intro g r h
        cases r with
        | error e => trivial
        | ok q =>
          refine wp_bind.2 (wp_attempt.2 (wp_perform.2 ⟨h q rfl, fun reply => ?_⟩))
          exact wp_ofExcept.2 trivial

theorem body_sends (c : AdapterCall) : Calls SendsSigned (fun _ => True) c.body := by
  cases c with
  | prepare operationId key purchase =>
    refine wp_bind.2 (wp_bind.2 (wp_ensure.2 ⟨fun _ => ?_, fun _ => trivial⟩))
    refine wp_bind.2 (wp_ofExcept.2 ?_)
    cases purchase.rawBody with
    | error e => trivial
    | ok body =>
      refine wp_bind.2 (wp_perform.2 ⟨trivial, fun r => ?_⟩)
      cases r <;> trivial
  | submit credentials operationId =>
    exact calls_bind (submit_sends credentials operationId) (fun _ _ => trivial) fun _ _ => trivial
  | markInterruptedUnknown operationId =>
    refine wp_bind.2 (wp_perform.2 ⟨trivial, fun r => ?_⟩)
    cases r <;> trivial
  | getDeliveredOrder credentials operationId =>
    exact calls_bind (getDeliveredOrder_sends credentials operationId) (fun _ _ => trivial)
      fun _ _ => trivial

/-- **Every request of the offline adapter is signed**, over any run of calls. -/
theorem order_isSigned {s₀ : JournalDb} {tr : List AdapterTrans} {cfg : Cfg adapterSystem}
    (h : Run adapterSystem s₀ tr cfg) {t : AdapterTrans} (ht : t ∈ tr) {pid : Nat} {id : Str}
    {r : VietShareRequest} {reply : Except Exc VietShareResponse}
    (hsend : t.event = .act pid (.send id r) reply) :
    ∃ timestamp nonce, IsSigned r timestamp nonce := by
  obtain ⟨l, m, htr⟩ := List.append_of_mem ht
  obtain ⟨cfg₀, c, k, hr, -, hp, -⟩ := h.act_at htr hsend
  obtain ⟨g, -, hok⟩ := hr.act_ok (P := .free adapterSig Exc SendsSigned)
    (Q := fun _ _ _ => True) (i := fun _ => ()) body_sends hp
  exact hok

end

end NyanShopBot.VietShare.Offline

namespace NyanShopBot.VietShare

open Py Db Conc

section

variable [Stdlib] [Hashlib] [HostChecks]

/-! ## The executor -/

/-- A request is made from the record of the last claim. -/
def Claimed.ok (claimed : Option GateRecord) : ExecutorOp → Prop
  | .send r => ∃ record credentials timestamp nonce, claimed = some record ∧
      signedRequest credentials (str "POST") ordersPath timestamp nonce
        (some record.idempotencyKey) record.rawBody record.bodySha256 = .ok r
  | _ => True

/-- The record of the last claim. -/
def Claimed.next (claimed : Option GateRecord) :
    (op : ExecutorOp) → Except Exc op.Res → Option GateRecord
  | .gate (.claim _ _ _ _), .ok record => some record
  | _, _ => claimed

abbrev claimedProtocol : Protocol executorSig Exc := ⟨Option GateRecord, Claimed.ok, Claimed.next⟩

/-- An operation that neither claims nor sends. -/
def isQuiet : ExecutorOp → Prop
  | .gate (.claim _ _ _ _) | .send _ => False
  | _ => True

omit [Stdlib] [HostChecks] in
theorem isQuiet_ok {op : ExecutorOp} (h : isQuiet op) (claimed : Option GateRecord) :
    Claimed.ok claimed op ∧ ∀ r, Claimed.next claimed op r = claimed := by
  cases op with
  | send r => exact absurd h id
  | clock => exact ⟨trivial, fun _ => rfl⟩
  | nonceSource => exact ⟨trivial, fun _ => rfl⟩
  | gate op =>
    cases op with
    | claim => exact absurd h id
    | _ => exact ⟨trivial, fun _ => rfl⟩

omit [Stdlib] [Hashlib] [HostChecks] in
theorem finishWith_quiet (testId nonce : Str) (c : Completion) (outcome : GateOutcome) :
    Calls isQuiet (fun _ => True) (finishWith testId nonce c outcome) := by
  unfold finishWith
  refine wp_bind.2 (wp_perform.2 ⟨trivial, fun r => ?_⟩)
  cases r <;> trivial

omit [Hashlib] [HostChecks] in
theorem conclude_quiet (testId nonce : Str) (record : GateRecord) (reply : Except Exc Reply) :
    Calls isQuiet (fun _ => True) (conclude testId nonce record reply) := by
  match reply with
  | .error e =>
    exact wp_ite.2 ⟨fun _ => finishWith_quiet _ _ _ _, fun _ => trivial⟩
  | .ok .other => exact finishWith_quiet _ _ _ _
  | .ok (.response response) =>
    show Calls isQuiet (fun _ => True) (settle testId nonce record response)
    unfold settle
    refine wp_bind.2 (wp_ofExcept.2 ?_)
    cases errorCode response.body with
    | error e => trivial
    | ok code =>
      refine wp_bind.2 (wp_perform.2 ⟨trivial, fun r => ?_⟩)
      cases r with
      | error e => trivial
      | ok receivedAt =>
        refine wp_bind.2 (wp_ofExcept.2 ?_)
        cases classify record response code (retryAfter response.headers (.float receivedAt)) with
        | error e => trivial
        | ok p => exact finishWith_quiet _ _ _ _

omit [HostChecks] in
theorem executor_submit_claimed (credentials : VietShareCredentials) (testId : Str)
    (operatorId : Option Str) :
    wp claimedProtocol (fun _ _ => True) none (submit credentials testId operatorId) := by
  unfold submit
  refine wp_bind.2 (wp_perform.2 ⟨trivial, fun r => ?_⟩)
  cases r with
  | error e => trivial
  | ok timestamp =>
    refine wp_bind.2 (wp_perform.2 ⟨trivial, fun r => ?_⟩)
    cases r with
    | error e => trivial
    | ok nonce =>
      refine wp_bind.2 (wp_perform.2 ⟨trivial, fun r => ?_⟩)
      cases r with
      | error e => trivial
      | ok record =>
        have hconclude : ∀ (claimed : Option GateRecord) (reply : Except Exc Reply),
            wp claimedProtocol (fun _ _ => True) claimed
              (conclude testId (nonce.getD []) record reply) := fun claimed reply =>
          wp_frame (fun op hop => isQuiet_ok hop claimed) (fun _ _ => trivial)
            (conclude_quiet testId (nonce.getD []) record reply)
        refine wp_bind.2 (wp_attempt.2 (wp_bind.2 (wp_ofExcept.2 ?_)))
        cases hreq : signedRequest credentials (str "POST") ordersPath (timestamp.getD 0)
          (nonce.getD []) (some record.idempotencyKey) record.rawBody record.bodySha256 with
        | error e => exact hconclude _ _
        | ok q =>
          exact wp_perform.2 ⟨⟨record, credentials, _, _, rfl, hreq⟩, fun reply => hconclude _ _⟩

omit [HostChecks] in
theorem GateCall.claimed (c : GateCall) :
    wp claimedProtocol (fun _ _ => True) none c.body := by
  cases c with
  | submit credentials testId operatorId =>
    refine wp_bind.2 (wp_mono (fun g r _ => ?_)
      (executor_submit_claimed credentials testId operatorId))
    cases r <;> trivial
  | single op =>
    refine wp_bind.2 (wp_perform.2 ⟨trivial, fun r => ?_⟩)
    cases r <;> trivial

variable {s₀ : GateDb} {tr : List GateTrans} {cfg : Cfg gateSystem}

omit [HostChecks] in
/-- The digest of a claimed record is that of its body. -/
theorem claimed_digest (h : Run gateSystem s₀ tr cfg) {pid : Nat} {claimed : Option GateRecord}
    (hg : ghost (A := gateSystem) claimedProtocol (fun _ => none) pid tr = some claimed) :
    ∀ record ∈ claimed, sha256Hex record.rawBody = record.bodySha256 := by
  refine Run.history (P := claimedProtocol) (i := fun _ => none) (Q := fun _ _ _ => True)
    (K := fun _ _ (claimed : Option GateRecord) => ∀ record ∈ claimed,
      sha256Hex record.rawBody = record.bodySha256) GateCall.claimed
    (fun _ _ _ record hr => ?_) (fun hk => hk) (fun hk _ => hk) ?_ h hg
  · cases hr
  · intro tr s op r s' claimed hk hok he
    cases op with
    | gate op =>
      cases op with
      | claim testId operatorId timestamp nonce =>
        cases r with
        | error e => exact hk
        | ok found =>
          intro record hrecord
          obtain rfl : found = record := Option.some.inj hrecord
          have he : GateEffect s (.gate (.claim testId operatorId timestamp nonce)) (.ok found)
              s' := he
          have hanswer := gate_answer he
          exact (claim_ok hanswer).hash
      | _ => exact hk
    | _ => exact hk

/-- **Every request of the executor is signed**, over any run of calls. -/
theorem dispatch_isSigned (h : Run gateSystem s₀ tr cfg) {t : GateTrans} (ht : t ∈ tr) {pid : Nat}
    {r : VietShareRequest} {reply : Except Exc Reply} (hsend : t.event = .act pid (.send r) reply) :
    ∃ timestamp nonce, IsSigned r timestamp nonce := by
  obtain ⟨l, m, htr⟩ := List.append_of_mem ht
  obtain ⟨cfg₀, c, k, hr, -, hp, -⟩ := h.act_at htr hsend
  obtain ⟨claimed, hg, record, credentials, timestamp, nonce, rfl, hreq⟩ :=
    hr.act_ok (P := claimedProtocol) (Q := fun _ _ _ => True) (i := fun _ => none)
      GateCall.claimed hp
  rw [← claimed_digest hr hg record rfl] at hreq
  exact ⟨timestamp, nonce, signedRequest_isSigned (by decide) (.inl rfl) hreq⟩

/-! ## The system -/

/-- A request that is sent to VietShare. -/
inductive Sent : VietShareRequest → Prop where
  | read {credentials : VietShareCredentials} {baseUrl endpoint : Str} {timestamp : Int}
      {nonce : Str} {query : List (Str × Str)} {rawBody : Bytes} {r : VietShareRequest} :
      buildSignedReadRequest credentials baseUrl endpoint timestamp nonce query rawBody = .ok r →
      Sent r
  | order {s₀ : Offline.JournalDb} {tr : List Offline.AdapterTrans}
      {cfg : Cfg Offline.adapterSystem} {t : Offline.AdapterTrans} {pid : Nat} {id : Str}
      {r : VietShareRequest} {reply : Except Exc VietShareResponse} :
      Run Offline.adapterSystem s₀ tr cfg → t ∈ tr → t.event = .act pid (.send id r) reply →
      Sent r
  | dispatch {s₀ : GateDb} {tr : List GateTrans} {cfg : Cfg gateSystem} {t : GateTrans}
      {pid : Nat} {r : VietShareRequest} {reply : Except Exc Reply} :
      Run gateSystem s₀ tr cfg → t ∈ tr → t.event = .act pid (.send r) reply → Sent r

theorem Sent.isSigned {r : VietShareRequest} (h : Sent r) :
    ∃ timestamp nonce, IsSigned r timestamp nonce := by
  cases h with
  | read h => exact ⟨_, _, (buildSignedReadRequest_ok h).2.2⟩
  | order h ht hsend => exact Offline.order_isSigned h ht hsend
  | dispatch h ht hsend => exact dispatch_isSigned h ht hsend

/-- **Signatures are unambiguous**: whatever is sent is signed for the timestamp and the
nonce of its headers and for the path and the query of its URL, and two requests that
sign the same text have the same timestamp, nonce, method, target and body digest. -/
theorem signatures_unambiguous :
    (∀ (credentials : VietShareCredentials) (baseUrl endpoint : Str) (timestamp : Int)
        (nonce : Str) (query : List (Str × Str)) (rawBody : Bytes) (r : VietShareRequest),
      buildSignedReadRequest credentials baseUrl endpoint timestamp nonce query rawBody = .ok r →
      r.body = rawBody ∧ IsSigned r timestamp nonce) ∧
    (∀ r, Sent r → ∃ timestamp nonce, IsSigned r timestamp nonce) ∧
    ∀ (r r' : VietShareRequest) (timestamp timestamp' : Int) (nonce nonce' : Str),
      Sent r → Sent r' → IsSigned r timestamp nonce → IsSigned r' timestamp' nonce' →
      canonicalString timestamp nonce r.method r.pathWithQuery (sha256Hex r.body) =
        canonicalString timestamp' nonce' r'.method r'.pathWithQuery (sha256Hex r'.body) →
      timestamp = timestamp' ∧ nonce = nonce' ∧ r.method = r'.method ∧
        r.pathWithQuery = r'.pathWithQuery ∧ sha256Hex r.body = sha256Hex r'.body ∧
        ((Hashlib.sha256 r.body = Hashlib.sha256 r'.body → r.body = r'.body) →
          r.body = r'.body) := by
  refine ⟨fun _ _ _ _ _ _ _ r h => ?_, fun r h => h.isSigned, fun r r' _ _ _ _ _ _ h h' heq => ?_⟩
  · obtain ⟨-, hbody, hsigned⟩ := buildSignedReadRequest_ok h
    exact ⟨hbody, hsigned⟩
  · exact h.unambiguous h' heq

end

end NyanShopBot.VietShare
