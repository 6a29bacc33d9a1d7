import NyanShopBot.Conc.Log
import NyanShopBot.VietShare.ReadAdapter

/-!
# Read retries

What the reads of one adapter send, over any run of them. `InOrder` says what a read may
await after what it has done; from it follow the bound of the sends, what stands between
two of them (`between_sends`) and the `attempts` of an outcome. A nonce is reserved before
it is sent, and only once (`sentNonces_nodup`).
-/

namespace NyanShopBot.VietShare

open Py Conc

abbrev ReadAct := Act readSig ReadExc

def ReadOp.isSend : ReadOp → Bool
  | .send _ _ => true
  | _ => false

/-- The operation is one of `_request`. -/
def ReadOp.isBuilding : ReadOp → Bool
  | .clock | .nonceSource | .reserve _ => true
  | _ => false

/-- How many requests were sent. -/
def sends (l : List ReadAct) : Nat := l.countP (·.op.isSend)

/-- The last thing done was to build a request. -/
def endsBuilding (l : List ReadAct) : Bool := l.getLast?.any (·.op.isBuilding)

/-- Nothing was done yet, or the last thing was to wait. -/
def Fresh (l : List ReadAct) : Prop := l = [] ∨ ∃ l₀ d, l = l₀ ++ [⟨.sleep d, .ok ()⟩]

section

variable [Stdlib]

/-- The reply to a request is retried, after a delay. -/
def Retried (adapter : VietShareReadAdapter) (r : VietShareRequest)
    (reply : Except ReadExc (Option VietShareResponse)) (delay : PyFloat) : Prop :=
  match reply with
  | .error .timeout => delay = adapter.retryDelaySeconds
  | .ok (some response) => response.statusCode = 429 ∧ ∃ timestamp nonce,
      Signs r timestamp nonce ∧
        delay = (parseRetryAfter response.headers.retryAfter? (.int timestamp)).getD
          adapter.retryDelaySeconds
  | _ => False

variable [Hashlib] [HostChecks]

/-- The request was made of a reading of the clock and a reserved nonce. -/
def BuiltFrom (adapter : VietShareReadAdapter) (l : List ReadAct) (r : VietShareRequest)
    (timestamp : Int) : Prop :=
  ∃ l₀ reading nonce endpoint, Fresh l₀ ∧ timestampOf reading = .ok timestamp ∧
    buildSignedReadRequest adapter.credentials productionBaseUrl endpoint timestamp nonce [] [] =
      .ok r ∧
    l = l₀ ++ [⟨.clock, .ok reading⟩, ⟨.nonceSource, .ok (some nonce)⟩, ⟨.reserve nonce, .ok ()⟩]

/-- What a read may await after what it has done. -/
def InOrder (adapter : VietShareReadAdapter) (l : List ReadAct) (op : ReadOp) : Prop :=
  sends l ≤ adapter.maxRetries ∧
    match op with
    | .clock => Fresh l
    | .nonceSource => ∃ l₀ reading, Fresh l₀ ∧ l = l₀ ++ [⟨.clock, .ok reading⟩]
    | .reserve nonce => ∃ l₀ reading, Fresh l₀ ∧
        l = l₀ ++ [⟨.clock, .ok reading⟩, ⟨.nonceSource, .ok (some nonce)⟩]
    | .send r timeout => timeout = adapter.timeoutSeconds ∧
        ∃ timestamp, BuiltFrom adapter l r timestamp
    | .sleep delay => ∃ l₀ r timeout reply, l = l₀ ++ [⟨.send r timeout, reply⟩] ∧
        Retried adapter r reply delay

end

/-! ## The nonces of a run -/

section

variable [Stdlib] [Hashlib] [HostChecks] [JsonBytes] {adapter : VietShareReadAdapter}

/-- The nonce of a request that is sent. -/
def sentNonce? : Event (readSystem adapter) → Option Str
  | .act _ (.send r _) _ => r.headers.get? (str "X-Nonce")
  | _ => none

/-- The nonces that were sent, in their order. -/
def sentNonces (tr : List (Trans (readSystem adapter))) : List Str :=
  tr.filterMap fun t => sentNonce? t.event

end

/-! ## The program -/

/-- An outcome with the `attempts` of what was done. -/
def Counts (l : List ReadAct) (attempts : Nat) (unbuilt : Bool) : Prop :=
  attempts = sends l + (if endsBuilding l then 1 else 0) ∧ unbuilt = endsBuilding l

def RawReadOutcome.isUnbuilt : RawReadOutcome → Bool
  | failure (.error .configurationError ..) => true
  | _ => false

def RawEnded (l : List ReadAct) : Except ReadExc RawReadOutcome → Prop
  | .ok raw => Counts l raw.attempts raw.isUnbuilt
  | .error _ => True

theorem sends_append (l m : List ReadAct) : sends (l ++ m) = sends l + sends m :=
  List.countP_append

theorem endsBuilding_snoc (l : List ReadAct) (a : ReadAct) :
    endsBuilding (l ++ [a]) = a.op.isBuilding := by
  simp [endsBuilding]

theorem counts_sent {l : List ReadAct} {a : ReadAct} {attempts : Nat}
    (ha : a.op.isBuilding = false) (h : attempts = sends (l ++ [a])) :
    Counts (l ++ [a]) attempts false := by
  refine ⟨?_, ?_⟩
  · rw [endsBuilding_snoc, ha, h]
    rfl
  · rw [endsBuilding_snoc, ha]

theorem wp_raised {P : Protocol readSig ReadExc} {α : Type} {Q : P.G → Except ReadExc α → Prop}
    {g : P.G} {r : Except Exc α} (hok : ∀ a, r = .ok a → Q g (.ok a))
    (herr : ∀ e, Q g (.error e)) : wp P Q g (raised r) := by
  cases r with
  | ok a => exact hok a rfl
  | error e => exact herr _

theorem nonceOf_ok {nonce : Option Str} {n : Str} (h : nonceOf nonce = .ok n) : nonce = some n := by
  unfold nonceOf at h
  split at h
  · cases h
  · split at h
    · cases h
    · split at h
      · cases h
      · cases h
        rfl

theorem productListOutcome_counts [JsonBytes] (raw : RawReadOutcome) :
    (ReadOutcome.list (productListOutcome raw)).attempts = raw.attempts ∧
      (ReadOutcome.list (productListOutcome raw)).isUnbuilt = raw.isUnbuilt := by
  unfold productListOutcome
  split
  · rename_i f
    cases f with
    | error code => cases code <;> exact ⟨rfl, rfl⟩
    | _ => exact ⟨rfl, rfl⟩
  · split
    · exact ⟨rfl, rfl⟩
    · split <;> exact ⟨rfl, rfl⟩

theorem productDetailOutcome_counts [JsonBytes] (productId : Int) (raw : RawReadOutcome) :
    (ReadOutcome.detail (productDetailOutcome productId raw)).attempts = raw.attempts ∧
      (ReadOutcome.detail (productDetailOutcome productId raw)).isUnbuilt = raw.isUnbuilt := by
  unfold productDetailOutcome
  split
  · rename_i f
    cases f with
    | error code => cases code <;> exact ⟨rfl, rfl⟩
    | _ => exact ⟨rfl, rfl⟩
  · split
    · exact ⟨rfl, rfl⟩
    · split
      · exact ⟨rfl, rfl⟩
      · split
        · split <;> exact ⟨rfl, rfl⟩
        · exact ⟨rfl, rfl⟩

section

variable [Stdlib] [Hashlib] [HostChecks] {adapter : VietShareReadAdapter}

abbrev logProtocol (adapter : VietShareReadAdapter) : Protocol readSig ReadExc :=
  Protocol.log (InOrder adapter)

/-- A request is built from a reading of the clock and a nonce, or the read ends there. -/
theorem request_wp {l : List ReadAct} (hl : Fresh l) (hn : sends l ≤ adapter.maxRetries)
    (endpoint : Str) :
    wp (logProtocol adapter) (fun l' r => sends l' = sends l ∧ match r with
      | .ok (r, timestamp) => BuiltFrom adapter l' r timestamp
      | .error _ => endsBuilding l' = true) l (adapter.request endpoint) := by
  unfold VietShareReadAdapter.request
  refine wp_bind.2 (wp_perform.2 ⟨⟨hn, hl⟩, fun reading => ?_⟩)
  have hone : sends (l ++ [⟨.clock, reading⟩]) = sends l := sends_append l _
  cases reading with
  | error e => exact ⟨hone, endsBuilding_snoc _ _⟩
  | ok reading =>
    refine wp_bind.2 (wp_raised (fun timestamp ht => ?_) fun e => ⟨hone, endsBuilding_snoc _ _⟩)
    refine wp_bind.2 (wp_perform.2 ⟨⟨hone.trans_le hn, l, reading, hl, rfl⟩, fun nonce => ?_⟩)
    have htwo : sends (l ++ [⟨.clock, .ok reading⟩] ++ [⟨.nonceSource, nonce⟩]) = sends l :=
      (sends_append _ _).trans hone
    cases nonce with
    | error e => exact ⟨htwo, endsBuilding_snoc _ _⟩
    | ok nonce =>
      refine wp_bind.2 (wp_raised (fun n hnonce => ?_) fun e => ⟨htwo, endsBuilding_snoc _ _⟩)
      obtain rfl := nonceOf_ok hnonce
      refine wp_bind.2 (wp_perform.2 ⟨⟨htwo.trans_le hn, l, reading, hl, by simp⟩, fun r => ?_⟩)
      have hthree : sends (l ++ [⟨.clock, .ok reading⟩] ++ [⟨.nonceSource, .ok (some n)⟩] ++
          [⟨.reserve n, r⟩]) = sends l := (sends_append _ _).trans htwo
      cases r with
      | error e => exact ⟨hthree, endsBuilding_snoc _ _⟩
      | ok =>
        refine wp_bind.2 (wp_raised (fun r hr => ?_) fun e => ⟨hthree, endsBuilding_snoc _ _⟩)
        exact ⟨hthree, l, reading, n, endpoint, hl, ht, hr, by simp⟩

/-- What follows a request of which the reply is retried. -/
theorem sleepForRetry_wp {l : List ReadAct} {r : VietShareRequest} {timeout delay : PyFloat}
    {reply : Except ReadExc (Option VietShareResponse)} {attempt : Nat}
    {next : Retrieval RawReadOutcome} (hn : attempt = sends (l ++ [⟨.send r timeout, reply⟩]))
    (hmax : attempt ≤ adapter.maxRetries) (hretry : Retried adapter r reply delay)
    (hnext : ∀ l', Fresh l' → sends l' = attempt →
      wp (logProtocol adapter) RawEnded l' next) :
    wp (logProtocol adapter) RawEnded (l ++ [⟨.send r timeout, reply⟩])
      (VietShareReadAdapter.sleepForRetry delay attempt next) := by
  unfold VietShareReadAdapter.sleepForRetry
  refine wp_bind.2 (wp_attempt.2 (wp_perform.2 ⟨⟨hn ▸ hmax, l, r, timeout, reply, rfl, hretry⟩,
    fun slept => ?_⟩))
  have hsends : sends (l ++ [⟨.send r timeout, reply⟩] ++ [⟨.sleep delay, slept⟩]) = attempt :=
    (sends_append _ _).trans hn.symm
  cases slept with
  | ok => exact hnext _ (.inr ⟨_, delay, rfl⟩) hsends
  | error e => exact wp_ite.2 ⟨fun _ => counts_sent rfl hsends.symm, fun _ => trivial⟩

theorem handle_wp {l : List ReadAct} {r : VietShareRequest} {timeout : PyFloat} {attempt : Nat}
    {timestamp : Int} {nonce : Str} {next : Retrieval RawReadOutcome}
    (reply : Except ReadExc (Option VietShareResponse)) (hsigned : Signs r timestamp nonce)
    (hn : attempt = sends (l ++ [⟨.send r timeout, reply⟩]))
    (hmax : attempt ≤ adapter.maxRetries + 1)
    (hnext : ∀ l', Fresh l' → sends l' = attempt → attempt ≤ adapter.maxRetries →
      wp (logProtocol adapter) RawEnded l' next) :
    wp (logProtocol adapter) RawEnded (l ++ [⟨.send r timeout, reply⟩])
      (adapter.handle attempt timestamp next reply) := by
  match reply with
  | .error .timeout =>
    refine wp_ite.2 ⟨fun _ => counts_sent rfl hn, fun hlast => ?_⟩
    have hleft : attempt ≤ adapter.maxRetries := by omega
    exact sleepForRetry_wp hn hleft rfl fun l' hl' hs => hnext l' hl' hs hleft
  | .error (.other e) => exact wp_ite.2 ⟨fun _ => counts_sent rfl hn, fun _ => trivial⟩
  | .ok none => exact counts_sent rfl hn
  | .ok (some response) =>
    refine wp_ite.2 ⟨fun hstatus => wp_ite.2 ⟨fun _ => counts_sent rfl hn, fun hlast => ?_⟩,
      fun _ => counts_sent rfl hn⟩
    have hleft : attempt ≤ adapter.maxRetries := by omega
    exact sleepForRetry_wp hn hleft ⟨hstatus, timestamp, nonce, hsigned, rfl⟩ fun l' hl' hs =>
      hnext l' hl' hs hleft

/-- The attempts that are left, of which each is a request. -/
theorem readFrom_wp (endpoint : Str) (left : Nat) :
    ∀ {l : List ReadAct} {attempt : Nat}, Fresh l → attempt = sends l + 1 →
      attempt + left = adapter.maxRetries + 2 →
      wp (logProtocol adapter) RawEnded l (adapter.readFrom endpoint attempt left) := by
  induction left with
  | zero =>
    intro l attempt _ _ _
    trivial
  | succ left ih =>
    intro l attempt hl hn hleft
    have hmax : sends l ≤ adapter.maxRetries := by omega
    unfold VietShareReadAdapter.readFrom
    refine wp_bind.2 (wp_attempt.2 (wp_mono (fun l' r hr => ?_) (request_wp hl hmax endpoint)))
    cases r with
    | error e =>
      obtain ⟨hs, hends⟩ := hr
      refine wp_ite.2 ⟨fun _ => ⟨?_, hends.symm⟩, fun _ => trivial⟩
      rw [hends, hs]
      exact hn
    | ok p =>
      obtain ⟨r, timestamp⟩ := p
      obtain ⟨hs, hbuilt⟩ := hr
      refine wp_bind.2 (wp_attempt.2 (wp_perform.2
        ⟨⟨hs.trans_le hmax, rfl, timestamp, hbuilt⟩, fun reply => ?_⟩))
      obtain ⟨_, _, nonce, _, _, _, hmade, _⟩ := hbuilt
      have hsent : attempt = sends (l' ++ [⟨.send r adapter.timeoutSeconds, reply⟩]) := by
        rw [sends_append, hs]
        exact hn
      refine handle_wp reply (buildSignedReadRequest_ok hmade).2.2.headers hsent (by omega) ?_
      intro l'' hl'' hs'' _
      exact ih hl'' (by omega) (by omega)

theorem readResponse_wp (endpoint : Str) :
    wp (logProtocol adapter) RawEnded [] (adapter.readResponse endpoint) :=
  readFrom_wp endpoint _ (.inl rfl) rfl (by omega)

/-- What a read has done where it ends. -/
def ReadEnded (l : List ReadAct) : Except ReadExc ReadOutcome → Prop
  | .ok out => Counts l out.attempts out.isUnbuilt
  | .error _ => True

theorem read_wp (endpoint : Str) {f : RawReadOutcome → ReadOutcome}
    (hf : ∀ raw, (f raw).attempts = raw.attempts ∧ (f raw).isUnbuilt = raw.isUnbuilt) :
    wp (logProtocol adapter) ReadEnded [] (do
      let raw ← adapter.readResponse endpoint
      return f raw) := by
  refine wp_bind.2 (wp_mono (fun l r hr => ?_) (readResponse_wp endpoint))
  cases r with
  | error e => trivial
  | ok raw =>
    show Counts l (f raw).attempts (f raw).isUnbuilt
    rw [(hf raw).1, (hf raw).2]
    exact hr

/-- **Every read is in order** all along. -/
theorem ReadCall.follows [JsonBytes] (c : ReadCall) :
    wp (logProtocol adapter) ReadEnded [] (c.body adapter) := by
  cases c with
  | getProduct productId =>
    exact wp_ite.2 ⟨fun _ => trivial, fun _ => wp_ite.2 ⟨fun _ => trivial, fun _ =>
      read_wp _ (productDetailOutcome_counts productId)⟩⟩
  | listProducts => exact read_wp _ productListOutcome_counts
  | listCatalog => exact read_wp _ productListOutcome_counts

/-! ## Between two requests -/

variable [JsonBytes] {tr : List (Trans (readSystem adapter))} {cfg : Cfg (readSystem adapter)}
  {used : List Str}

/-- A read makes at most so many requests. -/
theorem sends_le (h : Run (readSystem adapter) used tr cfg) (pid : Nat) :
    sends (acts pid tr) ≤ adapter.maxRetries + 1 := by
  rcases List.eq_nil_or_concat (acts pid tr) with hnil | ⟨l, a, hl⟩
  · rw [hnil]
    exact Nat.zero_le _
  · rw [List.concat_eq_append] at hl
    have hok := (h.log_ok (Q := fun _ => ReadEnded) ReadCall.follows hl).1
    have hone : sends [a] ≤ 1 := List.countP_le_length
    rw [hl, sends_append]
    omega

omit [Stdlib] [Hashlib] [HostChecks] [JsonBytes] in
/-- What is at the end of a log stands after a request where it is none itself. -/
theorem after_send {l l₁ m : List ReadAct} {a u : ReadAct} (h : l₁ ++ [u] = l ++ a :: m)
    (ha : a.op.isSend = true) (hu : u.op.isSend = false) :
    ∃ m', m = m' ++ [u] ∧ l₁ = l ++ a :: m' := by
  rcases List.eq_nil_or_concat m with rfl | ⟨m', v, rfl⟩
  · obtain ⟨-, hua⟩ := List.append_inj' h rfl
    obtain rfl : u = a := List.singleton_inj.1 hua
    rw [ha] at hu
    cases hu
  · rw [List.concat_eq_append, ← List.cons_append, ← List.append_assoc] at h
    obtain ⟨hl, huv⟩ := List.append_inj' h rfl
    obtain rfl : u = v := List.singleton_inj.1 huv
    exact ⟨m', List.concat_eq_append, hl⟩

/-- **Between two requests** the first one was to be retried, and the read has slept once. -/
theorem between_sends (h : Run (readSystem adapter) used tr cfg) {pid : Nat}
    {l m n : List ReadAct} {r : VietShareRequest} {timeout : PyFloat}
    {reply : Except ReadExc (Option VietShareResponse)} {b : ReadAct}
    (hacts : acts pid tr = l ++ ⟨.send r timeout, reply⟩ :: (m ++ b :: n))
    (hb : b.op.isSend = true) (hm : ∀ a ∈ m, a.op.isSend = false) :
    ∃ delay building, m = ⟨.sleep delay, .ok ()⟩ :: building ∧ Retried adapter r reply delay ∧
      ∀ a ∈ building, a.op.isBuilding = true := by
  have hok := h.log_ok (Q := fun _ => ReadEnded) ReadCall.follows
    (l := l ++ ⟨.send r timeout, reply⟩ :: m) (a := b) (m := n) (by rw [hacts]; simp)
  cases hop : b.op with
  | send r' timeout' =>
    rw [hop] at hok
    obtain ⟨-, -, -, l₀, reading, nonce, -, hfresh, -, -, hbuilt⟩ := hok
    -- the request is built after the first one, and after a sleep
    have hbuilt : l₀ ++ [⟨.clock, .ok reading⟩] ++ [⟨.nonceSource, .ok (some nonce)⟩] ++
        [⟨.reserve nonce, .ok ()⟩] = l ++ ⟨.send r timeout, reply⟩ :: m := by
      rw [hbuilt]
      simp
    obtain ⟨m₃, rfl, hnonce⟩ := after_send hbuilt rfl rfl
    obtain ⟨m₂, rfl, hclock⟩ := after_send hnonce rfl rfl
    obtain ⟨m₁, rfl, hl⟩ := after_send hclock rfl rfl
    rcases hfresh with rfl | ⟨l₁, delay, rfl⟩
    · exact absurd hl (by simp)
    · obtain ⟨m₀, rfl, rfl⟩ := after_send hl rfl rfl
      have hslept := h.log_ok (Q := fun _ => ReadEnded) ReadCall.follows
        (l := l ++ ⟨.send r timeout, reply⟩ :: m₀) (a := ⟨.sleep delay, .ok ()⟩)
        (by rw [hacts]; simp; rfl)
      obtain ⟨-, l₂, r₂, timeout₂, reply₂, hl₂, hretry⟩ := hslept
      -- no request stands between, so the sleep is for the first one
      rcases List.eq_nil_or_concat m₀ with rfl | ⟨m', v, rfl⟩
      · obtain ⟨-, hsame⟩ := List.append_inj' hl₂ rfl
        cases List.singleton_inj.1 hsame
        exact ⟨delay, _, rfl, hretry, by simp [ReadOp.isBuilding]⟩
      · rw [List.concat_eq_append, ← List.cons_append, ← List.append_assoc] at hl₂
        obtain ⟨-, hsame⟩ := List.append_inj' hl₂ rfl
        have hv := hm v (by simp)
        rw [List.singleton_inj.1 hsame] at hv
        cases hv
  | _ =>
    rw [hop] at hb
    cases hb

/-! ## Nonces -/

theorem sentNonces_snoc (tr : List (Trans (readSystem adapter)))
    (t : Trans (readSystem adapter)) :
    sentNonces (tr ++ [t]) = sentNonces tr ++ (sentNonce? t.event).toList := by
  unfold sentNonces
  rw [List.filterMap_append, List.filterMap_cons, List.filterMap_nil]
  cases sentNonce? t.event <;> rfl

/-- The read has reserved the nonce for its next request. -/
def Pending (pid : Nat) (tr : List (Trans (readSystem adapter))) (nonce : Str) : Prop :=
  ∃ l, acts pid tr = l ++ [⟨.reserve nonce, .ok ()⟩]

/-- What holds of the nonces at any time. -/
structure NoncesKept (tr : List (Trans (readSystem adapter))) (used : List Str) : Prop where
  nodup : (sentNonces tr).Nodup
  sent : ∀ nonce ∈ sentNonces tr, nonce ∈ used
  reserved : ∀ {pid nonce}, Pending pid tr nonce → nonce ∈ used ∧ nonce ∉ sentNonces tr
  alone : ∀ {pid pid' nonce}, Pending pid tr nonce → Pending pid' tr nonce → pid = pid'

theorem pending_other {pid q : Nat} {op : ReadOp} {r : Except ReadExc op.Res}
    {s s' : List Str} {nonce : Str} (h : q ≠ pid) :
    Pending q (tr ++ [(⟨s, .act pid op r, s'⟩ : Trans (readSystem adapter))]) nonce ↔
      Pending q tr nonce := by
  unfold Pending
  rw [acts_act_other h]

theorem pending_self {pid : Nat} {op : ReadOp} {r : Except ReadExc op.Res} {s s' : List Str}
    {nonce : Str} (h : Pending pid (tr ++ [(⟨s, .act pid op r, s'⟩ : Trans (readSystem adapter))])
      nonce) : (⟨op, r⟩ : ReadAct) = ⟨.reserve nonce, .ok ()⟩ := by
  obtain ⟨l, hl⟩ := h
  rw [acts_act_self] at hl
  exact List.singleton_inj.1 (List.append_inj' hl rfl).2

/-- Nothing was sent and nothing reserved. -/
theorem NoncesKept.of_eq {tr' : List (Trans (readSystem adapter))} {s : List Str}
    (h : NoncesKept tr s) (hsent : sentNonces tr' = sentNonces tr)
    (hpending : ∀ {q nonce}, Pending q tr' nonce → Pending q tr nonce) : NoncesKept tr' s :=
  ⟨hsent ▸ h.nodup, hsent ▸ h.sent, fun hq => hsent ▸ h.reserved (hpending hq),
    fun hq hq' => h.alone (hpending hq) (hpending hq')⟩

theorem NoncesKept.still {pid : Nat} {op : ReadOp} {r : Except ReadExc op.Res} {s : List Str}
    (h : NoncesKept tr s) (hsend : op.isSend = false)
    (hreserve : ∀ nonce, (⟨op, r⟩ : ReadAct) ≠ ⟨.reserve nonce, .ok ()⟩) :
    NoncesKept (tr ++ [(⟨s, .act pid op r, s⟩ : Trans (readSystem adapter))]) s := by
  refine h.of_eq ?_ fun {q nonce} hq => ?_
  · rw [sentNonces_snoc]
    cases op with
    | send => cases hsend
    | _ => exact List.append_nil _
  · by_cases e : q = pid
    · subst e
      exact absurd (pending_self hq) (hreserve nonce)
    · exact (pending_other e).1 hq

/-- A reservation of a nonce that was not used. -/
theorem NoncesKept.reserve {pid : Nat} {nonce : Str} {s : List Str} (h : NoncesKept tr s)
    (hnew : nonce ∉ s) :
    NoncesKept (tr ++ [(⟨s, .act pid (.reserve nonce) (.ok ()), nonce :: s⟩ :
      Trans (readSystem adapter))]) (nonce :: s) := by
  have hsent : sentNonces (tr ++ [(⟨s, .act pid (.reserve nonce) (.ok ()), nonce :: s⟩ :
      Trans (readSystem adapter))]) = sentNonces tr := by
    rw [sentNonces_snoc]
    exact List.append_nil _
  have hpending {q : Nat} {n : Str}
      (hq : Pending q (tr ++ [(⟨s, .act pid (.reserve nonce) (.ok ()), nonce :: s⟩ :
        Trans (readSystem adapter))]) n) : (q = pid ∧ n = nonce) ∨ Pending q tr n := by
    by_cases e : q = pid
    · subst e
      cases congrArg Act.op (pending_self hq)
      exact .inl ⟨rfl, rfl⟩
    · exact .inr ((pending_other e).1 hq)
  refine ⟨hsent ▸ h.nodup, fun n hn => ?_, fun {q n} hq => ?_, fun {q q' n} hq hq' => ?_⟩
  · rw [hsent] at hn
    exact List.mem_cons_of_mem _ (h.sent n hn)
  · rw [hsent]
    rcases hpending hq with ⟨-, rfl⟩ | hold
    · exact ⟨List.mem_cons_self, fun hn => hnew (h.sent n hn)⟩
    · exact ⟨List.mem_cons_of_mem _ (h.reserved hold).1, (h.reserved hold).2⟩
  · rcases hpending hq with ⟨rfl, rfl⟩ | hold
    · rcases hpending hq' with ⟨rfl, -⟩ | hold'
      · rfl
      · exact absurd (h.reserved hold').1 hnew
    · rcases hpending hq' with ⟨-, rfl⟩ | hold'
      · exact absurd (h.reserved hold).1 hnew
      · exact h.alone hold hold'

/-- A request with the nonce that its read has reserved. -/
theorem NoncesKept.send {pid : Nat} {nonce : Str} {s : List Str} {r : VietShareRequest}
    {timeout : PyFloat} {reply : Except ReadExc (Option VietShareResponse)}
    (h : NoncesKept tr s) (hp : Pending pid tr nonce)
    (hr : r.headers.get? (str "X-Nonce") = some nonce) :
    NoncesKept (tr ++ [(⟨s, .act pid (.send r timeout) reply, s⟩ :
      Trans (readSystem adapter))]) s := by
  have hsent : sentNonces (tr ++ [(⟨s, .act pid (.send r timeout) reply, s⟩ :
      Trans (readSystem adapter))]) = sentNonces tr ++ [nonce] := by
    rw [sentNonces_snoc]
    show sentNonces tr ++ (r.headers.get? (str "X-Nonce")).toList = _
    rw [hr]
    rfl
  have hpending {q : Nat} {n : Str}
      (hq : Pending q (tr ++ [(⟨s, .act pid (.send r timeout) reply, s⟩ :
        Trans (readSystem adapter))]) n) : q ≠ pid ∧ Pending q tr n := by
    by_cases e : q = pid
    · subst e
      cases congrArg Act.op (pending_self hq)
    · exact ⟨e, (pending_other e).1 hq⟩
  obtain ⟨hused, hfresh⟩ := h.reserved hp
  refine ⟨?_, fun n hn => ?_, fun {q n} hq => ?_, fun hq hq' => ?_⟩
  · rw [hsent, List.nodup_append]
    refine ⟨h.nodup, List.nodup_singleton _, fun n hn m hm e => ?_⟩
    rw [e, List.mem_singleton.1 hm] at hn
    exact hfresh hn
  · rw [hsent, List.mem_append, List.mem_singleton] at hn
    rcases hn with hn | rfl
    · exact h.sent n hn
    · exact hused
  · obtain ⟨hne, hq⟩ := hpending hq
    refine ⟨(h.reserved hq).1, fun hn => ?_⟩
    rw [hsent, List.mem_append, List.mem_singleton] at hn
    rcases hn with hn | rfl
    · exact (h.reserved hq).2 hn
    · exact hne (h.alone hq hp)
  · exact h.alone (hpending hq).2 (hpending hq').2

/-- What a step in order keeps. -/
theorem NoncesKept.act {pid : Nat} {op : ReadOp} {r : Except ReadExc op.Res} {s s' : List Str}
    (h : NoncesKept tr s) (hok : InOrder adapter (acts pid tr) op) (he : ReadEffect s op r s') :
    NoncesKept (tr ++ [(⟨s, .act pid op r, s'⟩ : Trans (readSystem adapter))]) s' := by
  cases op with
  | reserve nonce =>
    have he : if nonce ∈ s then
        r = .error (.other (.configuration "Nonce source reused a nonce")) ∧ s' = s
      else r = .ok () ∧ s' = nonce :: s := he
    split at he
    · obtain ⟨rfl, rfl⟩ := he
      exact h.still rfl fun _ e => by cases e
    · rename_i hnew
      obtain ⟨rfl, rfl⟩ := he
      exact h.reserve hnew
  | send request timeout =>
    obtain rfl : s' = s := he
    obtain ⟨-, -, timestamp, l₀, reading, nonce, endpoint, -, -, hmade, hl⟩ := hok
    exact h.send ⟨l₀ ++ [⟨.clock, .ok reading⟩, ⟨.nonceSource, .ok (some nonce)⟩], by
      rw [hl]; simp⟩ (buildSignedReadRequest_ok hmade).2.2.headers.2
  | _ =>
    obtain rfl : s' = s := he
    exact h.still rfl fun _ e => by cases e

/-- **No nonce is sent twice**, by whichever reads. -/
theorem sentNonces_nodup (h : Run (readSystem adapter) [] tr cfg) : (sentNonces tr).Nodup := by
  have hbody : ∀ c : ReadCall, wp (logProtocol adapter) ReadEnded [] (c.body adapter) :=
    ReadCall.follows
  refine (Run.invariant_from (l := []) (P := logProtocol adapter) (i := fun _ => [])
    (Q := fun _ => ReadEnded) (J := NoncesKept) hbody ?_ ?_ ?_ ?_ h).nodup
  · have hnone {pid : Nat} {nonce : Str} :
        ¬ Pending pid ([] : List (Trans (readSystem adapter))) nonce := by
      rintro ⟨l, hl⟩
      simp at hl
    exact ⟨List.nodup_nil, fun _ hn => absurd hn List.not_mem_nil,
      fun hq => absurd hq hnone, fun hq => absurd hq hnone⟩
  · intro m cfg pid c _ _ hk
    refine hk.of_eq ?_ fun hq => ?_
    · rw [sentNonces_snoc]
      exact List.append_nil _
    · rwa [Pending, acts_start] at hq
  · intro m s pid hk
    refine hk.of_eq ?_ fun hq => ?_
    · rw [sentNonces_snoc]
      exact List.append_nil _
    · rwa [Pending, acts_crash] at hq
  · intro m cfg pid op r s' g hrun hk hg hok he
    obtain rfl := hrun.ghost_log hg
    exact hk.act hok he

/-- A request that is sent carries its nonce. -/
theorem sent_signs (h : Run (readSystem adapter) used tr cfg) {t : Trans (readSystem adapter)}
    (ht : t ∈ tr) {pid : Nat} {r : VietShareRequest} {timeout : PyFloat}
    {reply : Except ReadExc (Option VietShareResponse)}
    (hsend : t.event = .act pid (.send r timeout) reply) :
    ∃ timestamp nonce, Signs r timestamp nonce := by
  obtain ⟨l, m, htr⟩ := List.append_of_mem ht
  obtain ⟨cfg₀, c, k, hr, -, hp, -⟩ := h.act_at htr hsend
  obtain ⟨g, -, -, -, timestamp, l₀, reading, nonce, endpoint, -, -, hmade, -⟩ :=
    hr.act_ok (P := logProtocol adapter) (Q := fun _ => ReadEnded) (i := fun _ => [])
      ReadCall.follows hp
  exact ⟨timestamp, nonce, (buildSignedReadRequest_ok hmade).2.2.headers⟩

end

/-- **Reads are retried as they should be**, over any run of the reads of one adapter: a
read sends at most `maxRetries + 1` requests, again only after a `TimeoutError` or a 429 and
after one sleep of the right length, no nonce is sent twice, and `attempts` counts the
requests, with the one that could not be built where the read ended with it. -/
theorem read_retries [Stdlib] [Hashlib] [HostChecks] [JsonBytes] :
    (∀ (adapter : VietShareReadAdapter) (used : List Str)
        (tr : List (Trans (readSystem adapter))) (cfg : Cfg (readSystem adapter)) (pid : Nat),
      Run (readSystem adapter) used tr cfg → sends (acts pid tr) ≤ adapter.maxRetries + 1) ∧
    (∀ (adapter : VietShareReadAdapter) (used : List Str)
        (tr : List (Trans (readSystem adapter))) (cfg : Cfg (readSystem adapter)) (pid : Nat)
        (l m n : List ReadAct) (r : VietShareRequest) (timeout : PyFloat)
        (reply : Except ReadExc (Option VietShareResponse)) (b : ReadAct),
      Run (readSystem adapter) used tr cfg →
      acts pid tr = l ++ ⟨.send r timeout, reply⟩ :: (m ++ b :: n) →
      b.op.isSend = true → (∀ a ∈ m, a.op.isSend = false) →
      ∃ delay building, m = ⟨.sleep delay, .ok ()⟩ :: building ∧
        Retried adapter r reply delay ∧ ∀ a ∈ building, a.op.isBuilding = true) ∧
    (∀ (adapter : VietShareReadAdapter) (tr : List (Trans (readSystem adapter)))
        (cfg : Cfg (readSystem adapter)), Run (readSystem adapter) [] tr cfg →
      (sentNonces tr).Nodup ∧ ∀ t ∈ tr, ∀ pid r timeout reply,
        t.event = .act pid (.send r timeout) reply → ∃ timestamp nonce, Signs r timestamp nonce) ∧
    ∀ (adapter : VietShareReadAdapter) (used : List Str)
        (tr : List (Trans (readSystem adapter))) (cfg : Cfg (readSystem adapter)) (pid : Nat)
        (out : ReadOutcome),
      Run (readSystem adapter) used tr cfg → cfg.result? pid = some (.ok out) →
      out.attempts = sends (acts pid tr) + (if endsBuilding (acts pid tr) then 1 else 0) ∧
        out.isUnbuilt = endsBuilding (acts pid tr) := by
  refine ⟨fun _ _ _ _ pid h => sends_le h pid, ?_, ?_, ?_⟩
  · intro adapter used tr cfg pid l m n r timeout reply b h hacts hb hm
    exact between_sends h hacts hb hm
  · intro adapter tr cfg h
    exact ⟨sentNonces_nodup h, fun t ht pid r timeout reply hsend => sent_signs h ht hsend⟩
  · intro adapter used tr cfg pid out h hout
    obtain ⟨-, hended⟩ := h.log_ended (Q := fun _ => ReadEnded) ReadCall.follows hout
    exact hended

/-! ## A read that is limited once -/

section

attribute [local instance] sampleDigests sampleStdlib utf8Documents

/-- No host of the sample has brackets or a character outside ASCII. -/
@[reducible] def asciiHosts : HostChecks := ⟨fun _ => false⟩

attribute [local instance] asciiHosts

def retryingAdapter : VietShareReadAdapter where
  credentials := sampleCredentials
  timeoutSeconds := .finite 10
  maxRetries := 1
  retryDelaySeconds := .finite 1
  validTimeout := by decide
  validDelay := by decide

theorem limited_isStatus : (100 : Int) ≤ 429 ∧ (429 : Int) ≤ 599 := by decide

theorem sevenSeconds_noBreak : ([(str "Retry-After", str "7")].all fun h =>
    !hasLineBreak h.1 && !hasLineBreak h.2) = true := by decide

/-- A response that asks for seven seconds. -/
def limitedResponse : VietShareResponse where
  statusCode := 429
  headers := ⟨[(str "Retry-After", str "7")], sevenSeconds_noBreak⟩
  body := []
  valid := limited_isStatus

def listResponse : VietShareResponse where
  statusCode := 200
  headers := noHeaders
  body := (encodeUtf8 (str "\x7b\"count\":0,\"products\":[]\x7d")).getD []
  valid := ok_isStatus

/-- The first request is limited, and each nonce is new. -/
def limitingAnswer (used : List Str) : (op : ReadOp) → Except ReadExc op.Res × List Str
  | .clock => (.ok (some (.int 1000)), used)
  | .nonceSource => (.ok (some (str "synthetic-nonce-" ++ natStr used.length)), used)
  | .reserve nonce =>
    if nonce ∈ used then
      (.error (.other (.configuration "Nonce source reused a nonce")), used)
    else (.ok (), nonce :: used)
  | .send _ _ => (.ok (some (if used.length = 1 then limitedResponse else listResponse)), used)
  | .sleep _ => (.ok (), used)

theorem limitingAnswer_effect (used : List Str) (op : ReadOp) :
    ReadEffect used op (limitingAnswer used op).1 (limitingAnswer used op).2 := by
  cases op with
  | reserve nonce =>
    by_cases h : nonce ∈ used <;> simp [ReadEffect, limitingAnswer, h]
  | _ => rfl

/-- A read of the catalog: a request, its retry after the wait, and the list. -/
def limitedRead : List (Trans (readSystem retryingAdapter)) × Cfg (readSystem retryingAdapter) :=
  (replay (readSystem retryingAdapter) limitingAnswer []
    (.start 0 .listCatalog :: List.replicate 9 (.go 0))).getD ([], ⟨[], fun _ => none⟩)

theorem limitedRead_run : Run (readSystem retryingAdapter) [] limitedRead.1 limitedRead.2 := by
  unfold limitedRead
  cases h : replay (readSystem retryingAdapter) limitingAnswer [] _ with
  | none => exact .nil
  | some st => exact replay_run limitingAnswer_effect h

theorem exists_first_send {l : List ReadAct} (h : 0 < sends l) :
    ∃ m b n, l = m ++ b :: n ∧ b.op.isSend = true ∧ ∀ a ∈ m, a.op.isSend = false := by
  obtain ⟨a, ha, hsend⟩ := List.countP_pos_iff.1 h
  obtain ⟨b, m, n, hm, hb, hl, -⟩ :=
    List.exists_of_eraseP (p := fun a : ReadAct => a.op.isSend) ha hsend
  exact ⟨m, b, n, hl, hb, fun a ha => Bool.eq_false_iff.2 (hm a ha)⟩

/-- The premises are met by a read whose first request is limited. -/
theorem read_retries_sample :
    sends (acts 0 limitedRead.1) = 2 ∧ sends (acts 0 limitedRead.1) ≤ 2 ∧
    (∃ l r timeout reply delay building b n,
      acts 0 limitedRead.1 =
        l ++ ⟨.send r timeout, reply⟩ :: ⟨.sleep delay, .ok ()⟩ :: (building ++ b :: n) ∧
      b.op.isSend = true ∧ Retried retryingAdapter r reply delay) ∧
    (sentNonces limitedRead.1).length = 2 ∧ (sentNonces limitedRead.1).Nodup ∧
    ∃ out, limitedRead.2.result? 0 = some (.ok out) ∧ out.attempts = 2 ∧
      out.isUnbuilt = false := by
  obtain ⟨hbound, hbetween, hnonces, hattempts⟩ := read_retries
  have htwo : sends (acts 0 limitedRead.1) = 2 := by decide +kernel
  have hlast : endsBuilding (acts 0 limitedRead.1) = false := by decide +kernel
  have hended : (limitedRead.2.result? 0).any (·.toOption.isSome) = true := by decide +kernel
  refine ⟨htwo, hbound _ _ _ _ 0 limitedRead_run, ?_, by decide +kernel,
    (hnonces _ _ _ limitedRead_run).1, ?_⟩
  · obtain ⟨l, a, rest, hl, ha, hbefore⟩ := exists_first_send (htwo ▸ Nat.two_pos)
    have hrest : 0 < sends rest := by
      have hnone : sends l = 0 := List.countP_eq_zero.2 fun a ha => by simp [hbefore a ha]
      have hone : sends [a] ≤ 1 := List.countP_le_length
      rw [hl, ← List.singleton_append, sends_append, sends_append] at htwo
      omega
    obtain ⟨m, b, n, rfl, hb, hm⟩ := exists_first_send hrest
    obtain ⟨op, reply⟩ := a
    cases op with
    | send r timeout =>
      obtain ⟨delay, building, rfl, hretried, -⟩ :=
        hbetween _ _ _ _ 0 l m n r timeout reply b limitedRead_run hl hb hm
      exact ⟨l, r, timeout, reply, delay, building, b, n, hl, hb, hretried⟩
    | _ => cases ha
  · cases hr : limitedRead.2.result? 0 with
    | none => rw [hr] at hended; cases hended
    | some r =>
      cases r with
      | error e => rw [hr] at hended; cases hended
      | ok out =>
        obtain ⟨hcount, hunbuilt⟩ := hattempts _ _ _ _ 0 out limitedRead_run hr
        rw [htwo, hlast] at hcount
        exact ⟨out, rfl, hcount, hunbuilt.trans hlast⟩

end

end NyanShopBot.VietShare
