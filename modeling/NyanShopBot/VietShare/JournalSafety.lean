import NyanShopBot.VietShare.JournalRuns

/-!
# What the offline journal guarantees

`write_journal_safe`: over every run of any number of calls the rows keep the
key and the bytes of the `prepare` that inserted them, every `POST` carries them
from a row that is dispatching, no two requests share a signature, and a final
row stays and is followed by no `POST`.
-/

namespace NyanShopBot.VietShare.Offline

open Py Db Conc

section

variable [Stdlib]

/-! ## Order codes -/

/-- An attempt ends with an order code where it completes, and only there. -/
theorem classify_code {record : PreparedWrite} {response : VietShareResponse} {code : Option Str}
    {receivedAt : Int} {e : Ending} (h : classify record response code receivedAt = .ok e) :
    e.orderCode.isSome = true ↔ e.state = .completed := by
  unfold classify at h
  dsimp only at h
  split at h
  · obtain ⟨notBefore, -, h⟩ := except_bind_ok.1 h
    cases h
    simp
  split at h
  · cases h; simp
  split at h
  · cases h; simp
  split at h
  · obtain ⟨order, -, h⟩ := except_bind_ok.1 h
    cases order <;> (cases h; simp)
  split at h <;> (cases h; simp)

theorem Ends.code {record : PreparedWrite} {g : Phase} {state : JournalState}
    {orderCode : Option Str} {retryNotBefore : Option PyFloat}
    (h : Ends record g state orderCode retryNotBefore) :
    orderCode.isSome = true ↔ state = .completed := by
  cases h with
  | lost _ => simp
  | read _ _ _ he => exact classify_code he

variable [Hashlib]
variable {s₀ : JournalDb} {tr l m : List AdapterTrans} {cfg : Cfg adapterSystem}

omit [Stdlib] [Hashlib] in
theorem effect_row_origin {s s' : JournalDb} {op : AdapterOp} {r : Except Exc op.Res} {id : Str}
    {row' : PreparedWrite} (h : AdapterEffect s op r s')
    (hrow : s'.tables.1.write? id = some row') :
    (∃ row, s.tables.1.write? id = some row) ∨
      ∃ key body, op = .journal (.prepare id key body) ∧ row' = .new id key body := by
  have hsame (h : s'.tables = s.tables) : ∃ row, s.tables.1.write? id = some row :=
    ⟨row', h ▸ hrow⟩
  cases op with
  | clock => exact .inl (hsame h.1)
  | nonceSource => exact .inl (hsame (congrArg JournalDb.tables h))
  | send id r' => exact .inl (hsame (congrArg JournalDb.tables h))
  | journal jop =>
    have hexec (h : s'.tables = (jop.exec s.tables).2) :
        (∃ row, s.tables.1.write? id = some row) ∨ ∃ key body,
          AdapterOp.journal jop = .journal (.prepare id key body) ∧ row' = .new id key body := by
      rw [h] at hrow
      rcases exec_row_origin hrow with hold | ⟨key, body, rfl, hnew⟩
      · exact .inl hold
      · exact .inr ⟨key, body, rfl, hnew⟩
    rcases h.2 with he | ⟨e, -, -, he | he⟩
    · exact hexec (congrArg Prod.snd he)
    · exact .inl (hsame he)
    · exact hexec he

/-- **Every row has an order code exactly when it is completed.** -/
theorem codes_inv {clock : Int} (h : Run adapterSystem ⟨Store.empty, clock⟩ tr cfg) {id : Str}
    {row : PreparedWrite} (hrow : cfg.store.tables.1.write? id = some row) :
    row.orderCode.isSome = true ↔ row.state = .completed := by
  refine Run.invariant (P := adapterProtocol) (Q := fun _ _ _ => True)
    (J := fun _ (s : JournalDb) => ∀ id row, s.tables.1.write? id = some row →
      (row.orderCode.isSome = true ↔ row.state = .completed)) body_follows
    (fun id row h => by cases h) (fun _ _ hi => hi) (fun hi => hi) ?_ h id row hrow
  intro tr s pid op r s' g hi _ hok he id row' hrow'
  rcases effect_row_origin he hrow' with ⟨row, hrow⟩ | ⟨key, body, -, rfl⟩
  · have hold := hi id row hrow
    rcases effect_row he hrow with hkeep | ⟨jop, row₁, rfl, hrow₁, hstep⟩
    · obtain rfl := Option.some.inj (hkeep.symm.trans hrow')
      exact hold
    · obtain rfl := Option.some.inj (hrow₁.symm.trans hrow')
      cases hstep with
      | begins now hbegin =>
        refine iff_of_false (fun hc => ?_) fun h => by cases h
        rw [PreparedWrite.begins, hold.1 hc] at hbegin
        exact absurd hbegin (by simp [JournalState.isOpen])
      | finishes state code d _ _ =>
        obtain ⟨-, record, -, hends⟩ := hok
        exact hends.code
      | interrupted hd =>
        refine iff_of_false (fun hc => ?_) fun h => by cases h
        simp [hold.1 hc] at hd
  · exact iff_of_false (by simp [PreparedWrite.new]) (by simp [PreparedWrite.new])

/-! ## Rows over a run -/

/-- Every row was inserted by a `prepare` with its key and body. -/
theorem prepared_inv {clock : Int} (h : Run adapterSystem ⟨Store.empty, clock⟩ tr cfg) {id : Str}
    {row : PreparedWrite} (hrow : cfg.store.tables.1.write? id = some row) :
    ∃ t ∈ tr, ∃ pid r,
      t.event = .act pid (.journal (.prepare id row.idempotencyKey row.body)) r := by
  refine Run.invariant (P := adapterProtocol) (Q := fun _ _ _ => True)
    (J := fun tr (s : JournalDb) => ∀ id row, s.tables.1.write? id = some row → ∃ t ∈ tr, ∃ pid r,
      t.event = .act pid (.journal (.prepare id row.idempotencyKey row.body)) r) body_follows
    (fun id row h => by cases h) ?_ ?_ ?_ h id row hrow
  · intro tr cfg pid c _ _ hi id row hrow
    obtain ⟨t, ht, he⟩ := hi id row hrow
    exact ⟨t, List.mem_append_left _ ht, he⟩
  · intro tr s pid hi id row hrow
    obtain ⟨t, ht, he⟩ := hi id row hrow
    exact ⟨t, List.mem_append_left _ ht, he⟩
  · intro tr s pid op r s' g hi _ _ he id row' hrow'
    rcases effect_row_origin he hrow' with ⟨row, hrow⟩ | ⟨key, body, rfl, rfl⟩
    · obtain ⟨t, ht, q, r₀, ht'⟩ := hi id row hrow
      have hfixed : row'.idempotencyKey = row.idempotencyKey ∧ row'.body = row.body := by
        rcases effect_row he hrow with hkeep | ⟨jop, row₁, -, hrow₁, hstep⟩
        · obtain rfl := Option.some.inj (hkeep.symm.trans hrow')
          exact ⟨rfl, rfl⟩
        · obtain rfl := Option.some.inj (hrow₁.symm.trans hrow')
          exact hstep.fixed.2
      rw [hfixed.1, hfixed.2]
      exact ⟨t, List.mem_append_left _ ht, q, r₀, ht'⟩
    · exact ⟨_, List.mem_append_right _ (List.mem_singleton.2 rfl), pid, r, rfl⟩

/-- What a row keeps: its key and body, and everything once it is final. -/
def Keeps (row row' : PreparedWrite) : Prop :=
  row'.operationId = row.operationId ∧ row'.idempotencyKey = row.idempotencyKey ∧
    row'.body = row.body ∧ (row.state.isFinal = true → row' = row)

omit [Stdlib] [Hashlib] in
theorem Keeps.refl (row : PreparedWrite) : Keeps row row := ⟨rfl, rfl, rfl, fun _ => rfl⟩

omit [Stdlib] [Hashlib] in
theorem Keeps.step {row row' row'' : PreparedWrite} {op : JournalOp} (h : Keeps row row')
    (hs : row'.Step op row'') : Keeps row row'' := by
  obtain ⟨hid, hkey, hbody⟩ := hs.fixed
  refine ⟨hid.trans h.1, hkey.trans h.2.1, hbody.trans h.2.2.1, fun hf => ?_⟩
  obtain rfl := h.2.2.2 hf
  exact absurd (hf.symm.trans hs.not_final) nofun

/-- **A row stays from any point of a run on.** -/
theorem row_keeps (h : Run adapterSystem s₀ (l ++ m) cfg) {id : Str} {row : PreparedWrite}
    (hrow : (finalStore s₀ l).tables.1.write? id = some row) :
    ∃ row', cfg.store.tables.1.write? id = some row' ∧ Keeps row row' := by
  refine Run.invariant_from (P := adapterProtocol) (Q := fun _ _ _ => True)
    (J := fun _ (s : JournalDb) => ∃ row', s.tables.1.write? id = some row' ∧
      Keeps row row') body_follows
    ⟨row, hrow, .refl row⟩ (fun _ _ hi => hi) (fun hi => hi) ?_ h
  rintro m cfg pid op r s' g - ⟨row', hrow', hk⟩ - - he
  rcases effect_row he hrow' with hkeep | ⟨jop, row'', -, hrow'', hstep⟩
  · exact ⟨row', hkeep, hk⟩
  · exact ⟨row'', hrow'', hk.step hstep⟩

/-! ## Requests over a run -/

/-- A request is sent by a call that is in order. -/
theorem send_phase {t : AdapterTrans} {pid : Nat} {id : Str} {r : VietShareRequest}
    {reply : Except Exc VietShareResponse} (h : Run adapterSystem s₀ tr cfg)
    (htr : tr = l ++ t :: m)
    (ht : t.event = .act pid (.send id r) reply) :
    ∃ cfg₀ g, Run adapterSystem s₀ l cfg₀ ∧ cfg₀.store = t.pre ∧ cfg₀.Live pid ∧
      phase pid l = some g ∧ g.ok (.send id r) := by
  obtain ⟨cfg₀, c, k, hr, hstore, hp, -⟩ := h.act_at htr ht
  obtain ⟨g, hg, hok⟩ := hr.act_ok (P := adapterProtocol) (Q := fun _ _ _ => True)
    (i := fun c : AdapterCall => Phase.start c.operationId) body_follows hp
  exact ⟨cfg₀, g, hr, hstore, ⟨c, _, k, hp⟩, hg, hok⟩

/-- **A `POST` is sent for a row that is dispatching**, and carries its key and body. -/
theorem post_row {t : AdapterTrans} {pid : Nat} {id : Str} {r : VietShareRequest}
    {reply : Except Exc VietShareResponse} (h : Run adapterSystem s₀ tr cfg)
    (hmark : MarksStopped s₀ tr) (htr : tr = l ++ t :: m)
    (ht : t.event = .act pid (.send id r) reply) (hpost : isPost r = true) :
    ∃ row, t.pre.tables.1.write? id = some row ∧ row.state = .dispatching ∧ Carries r row := by
  obtain ⟨cfg₀, g, hr, hstore, hlive, hg, rfl, -, -, hrecord⟩ := send_phase h htr ht
  obtain ⟨record, hb, hc⟩ := hrecord hpost
  obtain ⟨hrow, hd⟩ := (attempt_inv hr (MarksStopped.left (htr ▸ hmark))).row hlive hg hb
  exact ⟨record, hstore ▸ hrow, hd, hc⟩

/-- What a process has reserved it keeps, and a reply too. -/
theorem phase_keeps {p : Nat} {g : Phase} {a : AuthAttempt}
    (h : Run adapterSystem s₀ (l ++ m) cfg) (hg : phase p l = some g) (ha : g.reserved = some a) :
    ∃ g', phase p (l ++ m) = some g' ∧ g'.reserved = some a := by
  refine Run.ghost_keeps (P := adapterProtocol) (Q := fun _ _ _ => True)
    (i := fun c : AdapterCall => Phase.start c.operationId)
    (K := fun g : Phase => g.reserved = some a) body_follows (fun {g op} r ha hok => ?_) h
    ⟨g, hg, ha⟩
  rcases reserved_next (r := r) hok with hkeep | ⟨timestamp, nonce, rfl, -⟩
  · exact hkeep.trans ha
  · obtain ⟨-, hnone⟩ := hok
    rw [Phase.reserved, hnone] at ha
    cases ha

omit [Stdlib] [Hashlib] in
theorem reply_next {g : Phase} {op : AdapterOp} (r : Except Exc op.Res)
    (h : g.reply.isSome = true) : (g.next op r).reply.isSome = true := by
  have hm := g.moves op r
  generalize g.next op r = g' at hm ⊢
  cases hm with
  | sends id r' reply => rfl
  | reads t => exact g.read_reply t ▸ h
  | _ => exact h

/-- **A process sends one request at most.** -/
theorem sends_once {t : AdapterTrans} {p : Nat} {id id' : Str} {r r' : VietShareRequest}
    {reply : Except Exc VietShareResponse} (h : Run adapterSystem s₀ ((l ++ [t]) ++ m) cfg)
    (ht : t.event = .act p (.send id r) reply) {g : Phase}
    (hg : phase p ((l ++ [t]) ++ m) = some g) : ¬ g.ok (.send id' r') := by
  rintro ⟨-, hnone, -⟩
  have hl : ∃ g, phase p (l ++ [t]) = some g ∧ g.reply.isSome = true := by
    obtain ⟨cfg₀, g₀, hr, -, -, hg₀, -⟩ := send_phase h (List.append_assoc l [t] m) ht
    refine ⟨g₀.next (.send id r) reply, ?_, rfl⟩
    rw [phase_snoc, ht, ghostStep, if_pos rfl, hg₀]
    rfl
  obtain ⟨g', hg', hk⟩ := Run.ghost_keeps (P := adapterProtocol) (Q := fun _ _ _ => True)
    (i := fun c : AdapterCall => Phase.start c.operationId)
    (K := fun g : Phase => g.reply.isSome = true) body_follows (fun r h _ => reply_next r h) h hl
  obtain rfl := Option.some.inj (hg.symm.trans hg')
  rw [hnone] at hk
  cases hk

def nonceOf (r : VietShareRequest) : Option Str := r.headers.get? (str "X-Nonce")

def timestampOf (r : VietShareRequest) : Option Str := r.headers.get? (str "X-Timestamp")

/-- **No two requests share a signature.** -/
theorem signatures_distinct {t u : AdapterTrans} {p q : Nat} {id id' : Str}
    {r r' : VietShareRequest} {reply reply' : Except Exc VietShareResponse}
    (h : Run adapterSystem s₀ tr cfg) (htr : tr = l ++ t :: m) (hu : u ∈ m)
    (ht : t.event = .act p (.send id r) reply) (hu' : u.event = .act q (.send id' r') reply') :
    nonceOf r ≠ nonceOf r' ∧ (id = id' → timestampOf r ≠ timestampOf r') := by
  obtain ⟨m₁, m₂, rfl⟩ := List.append_of_mem hu
  have htr' : tr = ((l ++ [t]) ++ m₁) ++ u :: m₂ := by rw [htr]; simp
  obtain ⟨cfg₁, g, -, -, -, hg, rfl, -, ⟨timestamp, nonce, hauth, hsigns⟩, -⟩ :=
    send_phase h htr ht
  obtain ⟨cfg₂, g', hr, -, -, hg', hok'⟩ := send_phase h htr' hu'
  have hpq : p ≠ q := fun e => by
    subst e
    exact sends_once hr ht hg' hok'
  obtain ⟨rfl, -, ⟨timestamp', nonce', hauth', hsigns'⟩, -⟩ := hok'
  have ha : g.reserved = some ⟨nonce, g.operationId, timestamp⟩ := by
    rw [Phase.reserved, hauth]; rfl
  have ha' : g'.reserved = some ⟨nonce', g'.operationId, timestamp'⟩ := by
    rw [Phase.reserved, hauth']; rfl
  obtain ⟨g₂, hg₂, ha₂⟩ := phase_keeps (l := l) (m := [t] ++ m₁)
    (by rw [← List.append_assoc]; exact hr) hg ha
  rw [← List.append_assoc] at hg₂
  have hi := auth_inv hr
  have hne := fun e => hi.once hpq hg₂ hg' ha₂ (ha'.trans (congrArg some e))
  obtain ⟨hn, hts⟩ := auth_distinct (hi.stored hg₂ ha₂) (hi.stored hg' ha') fun e => hne e.symm
  constructor
  · intro e
    rw [nonceOf, nonceOf, hsigns.2, hsigns'.2] at e
    exact hn (Option.some.inj e)
  · intro hid e
    rw [timestampOf, timestampOf, hsigns.1, hsigns'.1] at e
    exact hts hid (intStr_injective (Option.some.inj e))

/-! ## The guarantees -/

/-- **What the journal guarantees** of a run. -/
structure JournalSafe (s₀ : JournalDb) (tr : List AdapterTrans) (cfg : Cfg adapterSystem) :
    Prop where
  /-- A `POST` is sent for a dispatching row, with its key and body. -/
  posts : ∀ {t pid id r reply}, t ∈ tr → t.event = .act pid (.send id r) reply →
    isPost r = true →
      ∃ row, t.pre.tables.1.write? id = some row ∧ row.state = .dispatching ∧ Carries r row
  /-- It carries what every successful `prepare` of the operation was given. -/
  prepared : ∀ {t u p q id key body record r reply}, t ∈ tr → u ∈ tr →
    t.event = .act p (.journal (.prepare id key body)) (.ok record) →
    u.event = .act q (.send id r) reply → isPost r = true →
      r.headers.get? (str "Idempotency-Key") = some key ∧ r.body = body
  signatures : ∀ {l t m u p q id id' r r' reply reply'}, tr = l ++ t :: m → u ∈ m →
    t.event = .act p (.send id r) reply → u.event = .act q (.send id' r') reply' →
      nonceOf r ≠ nonceOf r' ∧ (id = id' → timestampOf r ≠ timestampOf r')
  single : ∀ {p q id}, cfg.Live p → cfg.Live q → attempting p tr = some id →
    attempting q tr = some id → p = q
  /-- A final row stays as it is and is followed by no `POST`. -/
  final : ∀ {l m id row}, tr = l ++ m → (finalStore s₀ l).tables.1.write? id = some row →
    row.state.isFinal = true →
      cfg.store.tables.1.write? id = some row ∧
        ∀ t ∈ m, ∀ pid r reply, t.event = .act pid (.send id r) reply → isPost r = false
  codes : ∀ {id row}, cfg.store.tables.1.write? id = some row →
    (row.orderCode.isSome = true ↔ row.state = .completed)
  /-- A row has the key and body of a `prepare` before it, and keeps them. -/
  bound : ∀ {l m id row}, tr = l ++ m → (finalStore s₀ l).tables.1.write? id = some row →
    (∃ t ∈ l, ∃ pid r,
      t.event = .act pid (.journal (.prepare id row.idempotencyKey row.body)) r) ∧
    ∃ row', cfg.store.tables.1.write? id = some row' ∧ row'.operationId = row.operationId ∧
      row'.idempotencyKey = row.idempotencyKey ∧ row'.body = row.body
  unique : ∀ {row row'}, row ∈ cfg.store.tables.1.writes → row' ∈ cfg.store.tables.1.writes →
    (row.operationId = row'.operationId ∨ row.idempotencyKey = row'.idempotencyKey) → row = row'

/-- The tables after the first part of a run. -/
theorem run_prefix (h : Run adapterSystem s₀ (l ++ m) cfg) :
    ∃ cfg₀, Run adapterSystem s₀ l cfg₀ ∧ cfg₀.store = finalStore s₀ l := by
  cases m with
  | nil =>
    rw [List.append_nil] at h
    exact ⟨cfg, h, h.store_eq⟩
  | cons t m =>
    obtain ⟨cfg₀, -, hr, -⟩ := h.split rfl
    exact ⟨cfg₀, hr, hr.store_eq⟩

omit [Stdlib] [Hashlib] in
/-- The row that a successful `prepare` leaves. -/
theorem prepare_effect {s s' : JournalDb} {id key : Str} {body : Bytes} {record : PreparedWrite}
    (h : AdapterEffect s (.journal (.prepare id key body)) (.ok record) s') :
    ∃ row, s'.tables.1.write? id = some row ∧ row.idempotencyKey = key ∧ row.body = body := by
  obtain ⟨-, he | ⟨e, he, -⟩⟩ := h
  · have hb := Tx.commit_ok.1 (congrArg Prod.fst he).symm
    rw [show ((JournalOp.prepare id key body).body.commit s.tables).2 = s'.tables from
      (congrArg Prod.snd he).symm] at hb
    rcases prepare_ok hb with ⟨hs, hmem, rfl, rfl, rfl⟩ | ⟨rfl, hnone, hs⟩
    · rw [hs]
      exact ⟨record, write?_of_mem hmem, rfl, rfl⟩
    · refine ⟨.new id key body, ?_, rfl, rfl⟩
      rw [hs]
      show lookup _ (s.tables.1.writes ++ [_]) id = _
      rw [lookup_append, show lookup _ s.tables.1.writes id = none from hnone]
      exact if_pos rfl
  · cases he

/-- **The offline write journal is safe in every run.** -/
theorem write_journal_safe {clock : Int} (h : Run adapterSystem ⟨Store.empty, clock⟩ tr cfg)
    (hmark : MarksStopped ⟨Store.empty, clock⟩ tr) :
    JournalSafe ⟨Store.empty, clock⟩ tr cfg where
  posts ht he hpost := by
    obtain ⟨l, m, htr⟩ := List.append_of_mem ht
    exact post_row h hmark htr he hpost
  prepared {t u p q id key body record r reply} ht hu he he' hpost := by
    -- the row of the request and the row of the prepare are the same at the end
    obtain ⟨l, m, htr⟩ := List.append_of_mem ht
    obtain ⟨l', m', htr'⟩ := List.append_of_mem hu
    obtain ⟨row, hrow, -, hkey, hbody⟩ := post_row h hmark htr' he' hpost
    obtain ⟨-, -, -, -, -, -, heff⟩ := h.act_at htr he
    obtain ⟨row', hrow', hk, hb⟩ := prepare_effect heff
    have hpost' : (finalStore (A := adapterSystem) ⟨Store.empty, clock⟩
        (l ++ [t])).tables.1.write? id = some row' := by
      rw [finalStore_snoc]
      exact hrow'
    obtain ⟨cfg₀, -, hr₀, hpre, -⟩ := h.split htr'
    have hpre' : (finalStore (A := adapterSystem) ⟨Store.empty, clock⟩ l').tables.1.write? id =
        some row := by
      rw [← hr₀.store_eq, hpre]
      exact hrow
    obtain ⟨row₁, h₁, k₁⟩ := row_keeps (l := l ++ [t]) (m := m)
      (by rw [List.append_assoc]; exact htr ▸ h) hpost'
    obtain ⟨row₂, h₂, k₂⟩ := row_keeps (l := l') (m := u :: m') (htr' ▸ h) hpre'
    obtain rfl := Option.some.inj (h₁.symm.trans h₂)
    exact ⟨by rw [hkey, ← k₂.2.1, k₁.2.1, hk], by rw [hbody, ← k₂.2.2.1, k₁.2.2.1, hb]⟩
  signatures htr hu he he' := signatures_distinct h htr hu he he'
  single {p q id} hp hq hpid hqid := by
    rw [attempting_phase h] at hpid hqid
    obtain ⟨g, hg, hb⟩ := Option.bind_eq_some_iff.1 hpid
    obtain ⟨g', hg', hb'⟩ := Option.bind_eq_some_iff.1 hqid
    obtain ⟨record, hrec, hid⟩ := Option.map_eq_some_iff.1 hb
    obtain ⟨record', hrec', hid'⟩ := Option.map_eq_some_iff.1 hb'
    exact (attempt_inv h hmark).single hp hq hg hg' hrec hrec' (hid.trans hid'.symm)
  final {l m id row} htr hrow hfinal := by
    obtain ⟨row', hrow', hk⟩ := row_keeps (htr ▸ h) hrow
    obtain rfl := hk.2.2.2 hfinal
    refine ⟨hrow', fun t ht pid r reply he => ?_⟩
    by_contra hpost
    rw [Bool.not_eq_false] at hpost
    obtain ⟨m₁, m₂, rfl⟩ := List.append_of_mem ht
    have htr' : tr = (l ++ m₁) ++ t :: m₂ := by rw [htr, List.append_assoc]
    obtain ⟨row₁, hrow₁, hd, -⟩ := post_row h hmark htr' he hpost
    obtain ⟨cfg₀, -, hr₀, hpre, -⟩ := h.split htr'
    obtain ⟨row₂, hrow₂, hk₂⟩ := row_keeps hr₀ hrow
    obtain rfl := hk₂.2.2.2 hfinal
    rw [hpre] at hrow₂
    obtain rfl := Option.some.inj (hrow₁.symm.trans hrow₂)
    rw [hd] at hfinal
    cases hfinal
  codes hrow := codes_inv h hrow
  bound {l m id row} htr hrow := by
    obtain ⟨cfg₀, hr₀, hs₀⟩ := run_prefix (htr ▸ h)
    obtain ⟨row', hrow', hid, hkey, hbody, -⟩ := row_keeps (htr ▸ h) hrow
    exact ⟨prepared_inv hr₀ (hs₀ ▸ hrow), row', hrow', hid, hkey, hbody⟩
  unique {row row'} hrow hrow' := by
    rintro (e | e)
    · exact List.inj_on_of_nodup_map cfg.store.tables.2.1.1 hrow hrow' e
    · exact List.inj_on_of_nodup_map cfg.store.tables.2.1.2 hrow hrow' e

end

/-! ## Sample runs -/

section

def sampleOperation : Str := str "local-operation-1"

def retryNonce : Str := str "synthetic-nonce-2"

def retryCanonical : Bytes :=
  (encodeUtf8 (str "1001|synthetic-nonce-2|POST|/v1/orders|" ++ sampleHash)).getD []

def retryInner : BitVec 256 :=
  0x8b43f226ad68c9c51fd9ce31ae648196639c5fbe14b0c71e266beb02a4269a4d#256

/-- The digests of the first request and of one at the next second. -/
abbrev retryDigests : Hashlib where
  sha1 _ := 0
  sha256 data :=
    if data = sampleBlock 0x36 ++ retryCanonical then retryInner
    else if data = sampleBlock 0x5c ++ toBytes 32 retryInner.toNat then
      0x6c5c9a78327efe09354d62c9fc8e9ec3a52bedba94380bb0ca412b45978f0d7e#256
    else sampleDigests.sha256 data

attribute [local instance] retryDigests sampleStdlib

/-- Every transaction commits; the clock advances by `tick` with each reading. -/
def adapterAnswer (tick : Int) (reply : Int → Except Exc VietShareResponse) (s : JournalDb) :
    (op : AdapterOp) → Except Exc op.Res × JournalDb
  | .journal op => ((op.exec s.tables).1, ⟨(op.exec s.tables).2, s.clock⟩)
  | .clock => (.ok (s.clock + tick), ⟨s.tables, s.clock + tick⟩)
  | .nonceSource => (.ok (if s.clock = 1000 then sampleNonce else retryNonce), s)
  | .send _ _ => (reply s.clock, s)

theorem adapterAnswer_effect (tick : Int) (reply : Int → Except Exc VietShareResponse)
    (s : JournalDb) (op : AdapterOp) :
    AdapterEffect s op (adapterAnswer tick reply s op).1 (adapterAnswer tick reply s op).2 := by
  cases op with
  | journal op => exact ⟨rfl, .inl rfl⟩
  | clock => exact ⟨rfl, fun t ht => Except.ok.inj ht⟩
  | nonceSource => rfl
  | send id r => rfl

/-- The journal before the first reading of the clock, which is 1000. -/
abbrev sampleStart (tick : Int) : JournalDb := ⟨Store.empty, 1000 - tick⟩

/-- The run of a schedule, the empty run where the schedule is not possible. -/
def adapterRun (tick : Int) (reply : Int → Except Exc VietShareResponse)
    (moves : List (Move adapterSystem)) : List AdapterTrans × Cfg adapterSystem :=
  (replay adapterSystem (adapterAnswer tick reply) (sampleStart tick) moves).getD
    ([], ⟨sampleStart tick, fun _ => none⟩)

theorem adapterRun_run (tick : Int) (reply : Int → Except Exc VietShareResponse)
    (moves : List (Move adapterSystem)) :
    Run adapterSystem (sampleStart tick) (adapterRun tick reply moves).1
      (adapterRun tick reply moves).2 := by
  unfold adapterRun
  cases h : replay adapterSystem (adapterAnswer tick reply) (sampleStart tick) moves with
  | none => exact .nil
  | some st => exact replay_run (adapterAnswer_effect tick reply) h

def callMoves (pid : Nat) (c : AdapterCall) (n : Nat) : List (Move adapterSystem) :=
  .start pid c :: List.replicate n (.go pid)

def isMark : Event adapterSystem → Bool
  | .act _ (.journal (.markInterruptedUnknown _)) _ => true
  | _ => false

/-- A response that asks to wait for seven seconds. -/
def sampleWait : VietShareResponse where
  statusCode := 202
  headers := ⟨[(str "Retry-After", str "7")], by decide⟩
  body := [0x7b, 0x7d]
  valid := by decide

def samplePrepare : List (Move adapterSystem) :=
  callMoves 0 (.prepare sampleOperation (str "synthetic-key-one") samplePurchase) 1

/-- An order that is prepared, submitted and submitted again. -/
def sampleSubmits : List AdapterTrans × Cfg adapterSystem :=
  adapterRun 0 (fun _ => .ok sampleWait)
    (samplePrepare ++ callMoves 1 (.submit sampleCredentials sampleOperation) 7 ++
      callMoves 2 (.submit sampleCredentials sampleOperation) 3)

def begunBy (t : AdapterTrans) : Option Nat :=
  match t.event with
  | .act q (.journal (.beginAttempt _ _)) _ => some q
  | _ => none

def isCrash (q : Nat) : Event adapterSystem → Bool
  | .crash p => p = q
  | _ => false

theorem begun_of_attempting {q : Nat} {id : Str} (l : List AdapterTrans)
    (h : attempting q l = some id) : q ∈ l.filterMap begunBy := by
  induction l using List.reverseRecOn with
  | nil => cases h
  | append_singleton l t ih =>
    rw [List.filterMap_append, List.mem_append]
    rw [attempting_snoc] at h
    unfold attemptStep at h
    split at h
    · next p id' now record he =>
      split at h
      · next hpq =>
        refine .inr ?_
        rw [List.filterMap_cons, begunBy, he]
        exact List.mem_singleton.2 hpq.symm
      · exact .inl (ih h)
    · split at h
      · cases h
      · exact .inl (ih h)
    · exact .inl (ih h)

/-- Attempts are marked as interrupted where every process that has begun one has crashed. -/
theorem MarksStopped.of_crashed {s₀ : JournalDb} {tr : List AdapterTrans}
    (h : (List.range tr.length).all (fun i => !tr[i]?.any (isMark ·.event) ||
      ((tr.take i).filterMap begunBy).all fun q => (tr.take i).any (isCrash q ·.event)) = true) :
    MarksStopped s₀ tr := by
  intro l t m pid id r htr ht cfg hrun q hlive hatt
  have hmark := List.all_eq_true.1 h l.length (by simp [htr])
  have htake : tr.take l.length = l := by rw [htr, List.take_left]
  have hget : tr[l.length]? = some t := by simp [htr]
  rw [htake, hget, Option.any_some, ht] at hmark
  have hcrash := List.all_eq_true.1 (by simpa [isMark] using hmark) q (begun_of_attempting l hatt)
  obtain ⟨u, hu, hc⟩ := List.any_eq_true.1 hcrash
  refine hrun.not_live_of_crash ⟨u, hu, ?_⟩ hlive
  unfold isCrash at hc
  split at hc
  · next p he =>
    rw [he, of_decide_eq_true hc]
  · cases hc

/-- The first submit crashes after its `POST`, an operator marks the attempt, and two submits
overlap. -/
def sampleCrash : List AdapterTrans × Cfg adapterSystem :=
  adapterRun 1 (fun _ => .ok sampleWait)
    (samplePrepare ++ callMoves 1 (.submit sampleCredentials sampleOperation) 5 ++ [.crash 1] ++
      callMoves 2 (.markInterruptedUnknown sampleOperation) 1 ++
      callMoves 3 (.submit sampleCredentials sampleOperation) 2 ++
      callMoves 4 (.submit sampleCredentials sampleOperation) 3 ++ List.replicate 5 (.go 3))

theorem write_journal_safe_sample :
    (sampleCrash.1.length = 23) ∧ sampleCrash.1.any (isMark ·.event) = true ∧
      JournalSafe (sampleStart 1) sampleCrash.1 sampleCrash.2 :=
  ⟨by decide +kernel, by decide +kernel,
    write_journal_safe (adapterRun_run _ _ _) (.of_crashed (by decide +kernel))⟩

end

end NyanShopBot.VietShare.Offline
