import NyanShopBot.VietShare.RetryAfter

/-!
# Authorised dispatch

Over every run of the gate from its migration, a `POST` was claimed under an
approval that matches the stored test, carries the body and the key that its
`prepare` fixed, and an operator enabled the gate again since the claim before it
(`Rearmed`). `dispatch_authorised` collects this in `DispatchSafe`.
-/

namespace NyanShopBot.VietShare

open Py Db Conc

section

variable [Stdlib] [Hashlib]
variable {s₀ : GateDb} {tr l m : List GateTrans} {cfg : Cfg gateSystem}

/-! ## Rows over a run -/

/-- The tables of a run keep what `Follows` keeps. -/
theorem run_follows (h : Run gateSystem s₀ (l ++ m) cfg) :
    Follows (finalStore s₀ l).tables.1 cfg.store.tables.1 := by
  refine Run.invariant_from (P := gateProtocol) (Q := fun _ _ _ => True) (i := GatePhase.start)
    (J := fun _ (s : GateDb) => Follows (finalStore s₀ l).tables.1 s.tables.1) GateCall.follows
    (.refl _) (fun _ _ hi => hi) (fun hi => hi) ?_ h
  intro m cfg pid op r s' g _ hi _ _ he
  rcases gate_effect he with hs | ⟨gop, rfl, hs⟩
  · rw [hs]; exact hi
  · rw [hs]; exact hi.trans (exec_writes s'.clock gop cfg.store.tables).follows

/-- The row was inserted by a `prepare` of the intent. -/
def PreparedBy (intent : CappedTestIntent) (row : JournalRow) (tr : List GateTrans) : Prop :=
  ∃ body, intent.purchase.rawBody = .ok body ∧
    row.identity = (JournalRow.prepared intent body).identity ∧
    ∃ t ∈ tr, ∃ pid r, t.event = .act pid (.gate (.prepare intent)) r

theorem PreparedBy.mono {intent : CappedTestIntent} {row : JournalRow}
    (h : PreparedBy intent row l) : PreparedBy intent row (l ++ m) := by
  obtain ⟨body, hb, hid, t, ht, he⟩ := h
  exact ⟨body, hb, hid, t, List.mem_append_left _ ht, he⟩

omit [Stdlib] [Hashlib] in
/-- An update of one row that keeps its identity keeps the identities. -/
theorem identity_of_setJournal {t : Tables} {testId : Str} {f : JournalRow → JournalRow}
    (hf : ∀ r, (f r).identity = r.identity) {r : JournalRow}
    (h : r ∈ (t.setJournal testId f).journal) : ∃ q ∈ t.journal, r.identity = q.identity := by
  obtain ⟨q, hq, ⟨-, rfl⟩ | ⟨-, rfl⟩⟩ := mem_setJournal h
  · exact ⟨q, hq, hf q⟩
  · exact ⟨r, hq, rfl⟩

omit [Stdlib] in
/-- Where a row comes from: it was there, or it is being prepared. -/
theorem GateWrites.origin {op : GateOp} {s : Store} {t' : Tables} (h : GateWrites op s t')
    {r : JournalRow} (hr : r ∈ t'.journal) :
    (∃ q ∈ s.1.journal, r.identity = q.identity) ∨
      ∃ intent body, op = .prepare intent ∧ intent.purchase.rawBody = .ok body ∧
        r = .prepared intent body := by
  cases h with
  | nothing ht => exact .inl ⟨r, ht ▸ hr, rfl⟩
  | prepared intent body hop hb _ ht =>
    rw [ht] at hr
    rcases List.mem_append.1 hr with hr | hr
    · exact .inl ⟨r, hr, rfl⟩
    · exact .inr ⟨intent, body, hop, hb, List.mem_singleton.1 hr⟩
  | claimed row a _ _ _ _ _ _ _ _ _ ht =>
    rw [ht] at hr
    exact .inl (identity_of_setJournal (t := s.1) (f := .claimed) (fun _ => rfl) hr)
  | finished row a c due orderCode errorCode header _ _ _ _ _ _ _ ht =>
    rw [ht] at hr
    exact .inl (identity_of_setJournal (t := s.1) (f := .finished c.state due orderCode errorCode)
      (fun _ => rfl) hr)
  | reconciling row _ _ _ _ ht =>
    rw [ht] at hr
    exact .inl (identity_of_setJournal (t := s.1) (f := .reconciling) (fun _ => rfl) hr)
  | control c _ ht =>
    rw [ht] at hr
    exact .inl ⟨r, hr, rfl⟩

/-- **Every row was prepared.** -/
theorem prepared_by {clock : Int} (h : Run gateSystem ⟨.migrated, clock⟩ tr cfg) {row : JournalRow}
    (hrow : row ∈ cfg.store.tables.1.journal) : ∃ intent, PreparedBy intent row tr := by
  refine Run.invariant (P := gateProtocol) (Q := fun _ _ _ => True) (i := GatePhase.start)
    (J := fun tr (s : GateDb) => ∀ row ∈ s.tables.1.journal, ∃ intent, PreparedBy intent row tr)
    GateCall.follows (fun row hr => by cases hr) ?_ ?_ ?_ h row hrow
  · intro tr cfg pid c _ _ hi row hr
    obtain ⟨intent, hp⟩ := hi row hr
    exact ⟨intent, hp.mono⟩
  · intro tr s pid hi row hr
    obtain ⟨intent, hp⟩ := hi row hr
    exact ⟨intent, hp.mono⟩
  · intro tr s pid op r s' g hi _ _ he row hr
    rcases gate_effect he with hs | ⟨gop, rfl, hs⟩
    · obtain ⟨intent, hp⟩ := hi row (hs ▸ hr)
      exact ⟨intent, hp.mono⟩
    · rw [hs] at hr
      rcases (exec_writes s'.clock gop s.tables).origin hr with ⟨q, hq, hid⟩ |
        ⟨intent, body, rfl, hb, rfl⟩
      · obtain ⟨intent, body, hb, hid', t, ht, ht'⟩ := hi q hq
        exact ⟨intent, body, hb, hid.trans hid', t, List.mem_append_left _ ht, ht'⟩
      · exact ⟨intent, body, hb, rfl, _, List.mem_append_right _ List.mem_cons_self, pid, r, rfl⟩

/-! ## Claims -/

/-- A claim of the test by the process, that returned the record. -/
def ClaimedBy (pid : Nat) (testId : Str) (operatorId : Option Str) (record : GateRecord)
    (c : GateTrans) : Prop :=
  ∃ timestamp nonce, c.event = .act pid (.gate (.claim testId operatorId timestamp nonce))
    (.ok record) ∧ Claims c.pre.tables testId operatorId timestamp nonce c.post.clock record
      c.post.tables

/-- **A submit that has a record has claimed it.** -/
theorem claimed_by (h : Run gateSystem s₀ tr cfg) {pid : Nat} {g : GatePhase}
    {credentials : VietShareCredentials} {testId : Str} {operatorId : Option Str}
    {record : GateRecord} (hg : gatePhase pid tr = some g)
    (hc : g.call = .submit credentials testId operatorId) (hr : g.record = some record) :
    ∃ c ∈ tr, ClaimedBy pid testId operatorId record c := by
  obtain ⟨l, t, m, op, r, g₀, htr, ht, hg₀, hk₀, hrec, hcall⟩ := ghost_switch
    (K := fun g : GatePhase => g.record = some record ∧
      g.call = .submit credentials testId operatorId) (fun _ hk => by cases hk.1) hg ⟨hr, hc⟩
  replace hrec : (g₀.next op r).record = some record := hrec
  replace hcall : g₀.call = .submit credentials testId operatorId := (call_next r).symm.trans hcall
  obtain ⟨cfg₀, g₁, -, -, -, hg₁, hok, heff⟩ := act_gatePhase h htr ht
  obtain rfl : g₀ = g₁ := Option.some.inj (hg₀.symm.trans hg₁)
  replace hok := (ok_submit hcall).1 hok
  have hm := g₀.moves op r
  generalize g₀.next op r = g' at hm hrec
  cases hm with
  | claims id operator timestamp nonce record' =>
    obtain ⟨rfl, rfl, -⟩ := hok
    obtain rfl := Option.some.inj hrec
    exact ⟨t, htr ▸ List.mem_append_right _ List.mem_cons_self, timestamp, nonce, ht,
      claim_ok (gate_answer heff)⟩
  | _ => exact absurd ⟨hrec, hcall⟩ hk₀

/-! ## Between two claims -/

/-- A claim of the test that committed, whatever its caller saw. -/
def CommitsClaim (testId : Str) (c : GateTrans) : Prop :=
  ∃ pid operatorId timestamp nonce r record,
    c.event = .act pid (.gate (.claim testId operatorId timestamp nonce)) r ∧
      Claims c.pre.tables testId operatorId timestamp nonce c.post.clock record c.post.tables

theorem ClaimedBy.commits {pid : Nat} {testId : Str} {operatorId : Option Str}
    {record : GateRecord} {c : GateTrans} (h : ClaimedBy pid testId operatorId record c) :
    CommitsClaim testId c := by
  obtain ⟨timestamp, nonce, he, hc⟩ := h
  exact ⟨pid, operatorId, timestamp, nonce, _, record, he, hc⟩

/-- The dispatch of the test was completed, which disabled the gate. -/
def Closes (testId : Str) (f : GateTrans) : Prop :=
  ∃ pid nonce c r, f.event = .act pid (.gate (.finish testId nonce c)) r ∧
    Finishes f.pre.tables testId nonce c f.post.clock f.post.tables ∧
    f.post.tables.1.control.enabled = false

/-- An operator enabled the gate. -/
def Enables (u : GateTrans) : Prop :=
  ∃ pid c r, u.event = .act pid (.gate (.updateControl c)) r ∧ c.enabled = true ∧
    u.pre.tables.1.control.enabled = false ∧ u.post.tables.1 = u.pre.tables.1.setControl c

/-- The test was finished, which disabled the gate, and an operator enabled it again. -/
def Rearmed (testId : Str) (m : List GateTrans) : Prop :=
  ∃ a f b u d, m = (a ++ f :: b) ++ u :: d ∧ Closes testId f ∧ Enables u

/-- What holds after a claim of the test: it is dispatching, or it was finished and the
gate is disabled, or the gate was enabled again. -/
def AfterClaim (testId : Str) (m : List GateTrans) (s : GateDb) : Prop :=
  (∃ nonce, Dispatching s.tables.1 testId nonce) ∨
    ((∃ f ∈ m, Closes testId f) ∧ s.tables.1.control.enabled = false) ∨ Rearmed testId m

theorem Rearmed.mono {testId : Str} (h : Rearmed testId l) : Rearmed testId (l ++ m) := by
  obtain ⟨a, f, b, u, d, rfl, hf, hu⟩ := h
  exact ⟨a, f, b, u, d ++ m, by simp, hf, hu⟩

theorem AfterClaim.mono {testId : Str} {t : GateTrans} {s : GateDb}
    (h : AfterClaim testId l s) : AfterClaim testId (l ++ [t]) s := by
  rcases h with h | ⟨⟨f, hf, hc⟩, h⟩ | h
  · exact .inl h
  · exact .inr (.inl ⟨⟨f, List.mem_append_left _ hf, hc⟩, h⟩)
  · exact .inr (.inr h.mono)

omit [Stdlib] in
/-- The control row changes where a dispatch is completed or an operator updates it. -/
theorem GateWrites.control_row {op : GateOp} {s : Store} {t' : Tables} (h : GateWrites op s t') :
    t'.control = s.1.control ∨ t'.control.enabled = false ∨
      ∃ c, op = .updateControl c ∧ t' = s.1.setControl c := by
  cases h with
  | nothing ht => exact .inl (by rw [ht])
  | prepared intent body _ _ _ ht => exact .inl (by rw [ht])
  | claimed row a _ _ _ _ _ _ _ _ _ ht => exact .inl (by rw [ht]; rfl)
  | finished row a c due orderCode errorCode header _ _ _ _ _ _ _ ht =>
    exact .inr (.inl (by rw [ht]; rfl))
  | reconciling row _ _ _ _ ht => exact .inl (by rw [ht]; rfl)
  | control c hop ht => exact .inr (.inr ⟨c, hop, ht⟩)

/-- One step after a claim. -/
theorem AfterClaim.step {testId : Str} {s s' : GateDb} {pid : Nat} {op : ExecutorOp}
    {r : Except Exc op.Res} (h : AfterClaim testId m s) (he : GateEffect s op r s') :
    AfterClaim testId (m ++ [⟨s, .act pid op r, s'⟩]) s' := by
  have hsame (hs : s'.tables = s.tables) :
      AfterClaim testId (m ++ [⟨s, .act pid op r, s'⟩]) s' := by
    have := h.mono (t := ⟨s, .act pid op r, s'⟩)
    unfold AfterClaim at this ⊢
    rwa [hs]
  rcases gate_effect he with hs | ⟨gop, rfl, hs⟩
  · exact hsame hs
  rcases Tx.commit_cases (gop.body s'.clock) s.tables with ⟨e, hb⟩ | ⟨a, s₁, hb, hbody⟩
  · exact hsame (by rw [hs, GateOp.exec, hb])
  obtain rfl : s'.tables = s₁ := by rw [hs, GateOp.exec, hb]
  have hw : GateWrites gop s.tables s'.tables.1 := by
    rw [hs]
    exact exec_writes s'.clock gop s.tables
  rcases h with ⟨nonce, hd⟩ | ⟨⟨f, hf, hc⟩, hoff⟩ | h
  · by_cases hfin : ∃ n c, gop = .finish testId n c
    · obtain ⟨n, c, rfl⟩ := hfin
      have hfinish := finish_ok hbody
      have hoff : s'.tables.1.control.enabled = false := by
        obtain ⟨_, _, _, _, _, -, -, -, -, -, ht⟩ := hfinish.writes
        rw [ht]
        rfl
      exact .inr (.inl ⟨⟨_, List.mem_append_right _ List.mem_cons_self, pid, n, c, r, rfl, hfinish,
        hoff⟩, hoff⟩)
    · exact .inl ⟨nonce, hw.dispatching hd fun n c e => hfin ⟨n, c, e⟩⟩
  · rcases hw.control_row with hkeep | hoff' | ⟨c, rfl, ht⟩
    · exact .inr (.inl ⟨⟨f, List.mem_append_left _ hf, hc⟩, by rw [hkeep]; exact hoff⟩)
    · exact .inr (.inl ⟨⟨f, List.mem_append_left _ hf, hc⟩, hoff'⟩)
    · cases hen : c.enabled with
      | false =>
        exact .inr (.inl ⟨⟨f, List.mem_append_left _ hf, hc⟩, by rw [ht]; exact hen⟩)
      | true =>
        obtain ⟨a, b, rfl⟩ := List.append_of_mem hf
        exact .inr (.inr ⟨a, f, b, _, [], rfl, hc, pid, c, r, rfl, hen, hoff, ht⟩)
  · exact .inr (.inr h.mono)

theorem after_claim {c : GateTrans} {testId : Str} (h : Run gateSystem s₀ ((l ++ [c]) ++ m) cfg)
    (hc : CommitsClaim testId c) : AfterClaim testId m cfg.store := by
  refine Run.invariant_from (P := gateProtocol) (Q := fun _ _ _ => True) (i := GatePhase.start)
    (J := fun m (s : GateDb) => AfterClaim testId m s) GateCall.follows ?_
    (fun _ _ hi => hi.mono) (fun hi => hi.mono) (fun _ hi _ _ he => hi.step he) h
  obtain ⟨pid, operatorId, timestamp, nonce, r, record, -, hclaims⟩ := hc
  rw [finalStore_snoc]
  exact .inl ⟨_, hclaims.dispatching⟩

omit [Stdlib] in
/-- While a test is dispatching, none is claimed. -/
theorem Claims.none_dispatching {s s' : Store} {testId id nonce' : Str}
    {operatorId nonce : Option Str}
    {timestamp : Option Int} {now : Int} {record : GateRecord}
    (h : Claims s testId operatorId timestamp nonce now record s')
    (hd : Dispatching s.1 id nonce') : False := by
  obtain ⟨⟨r, hr, hst⟩, -⟩ := hd
  obtain ⟨row, hrow, rfl⟩ := h.row
  have hid : r.testId = id := Tables.testId_of_row? hr
  by_cases e : id = testId
  · subst e
    obtain rfl := Option.some.inj (hr.symm.trans hrow)
    rcases h.state with h | h <;> rw [hst] at h <;> cases h
  · have hsrc := (s.2.2.1.2.2.2 r (Tables.mem_of_row? hr)).1
    have := h.alone r (Tables.mem_of_row? hr) hsrc (by rw [hid]; exact e)
    rw [hst] at this
    cases this

/-- **Between two claims an operator has enabled the gate again.** -/
theorem rearmed {c₁ c₂ : GateTrans} {k : List GateTrans} {testId id : Str}
    (h : Run gateSystem s₀ tr cfg) (htr : tr = ((l ++ [c₁]) ++ k) ++ c₂ :: m)
    (h₁ : CommitsClaim testId c₁) (h₂ : CommitsClaim id c₂) : Rearmed testId k := by
  obtain ⟨cfg₀, -, hr₀, hpre, -⟩ := h.split htr
  have hafter := after_claim hr₀ h₁
  rw [hpre] at hafter
  obtain ⟨pid, operatorId, timestamp, nonce, r, record, -, hclaims⟩ := h₂
  rcases hafter with ⟨nonce', hd⟩ | ⟨-, hoff⟩ | hre
  · exact (hclaims.none_dispatching hd).elim
  · have happ := hclaims.approves
    unfold ControlRow.approves at happ
    rw [hoff] at happ
    cases happ
  · exact hre

/-! ## The guarantees -/

/-- What stands behind a `POST` of the process: its claim, and the `prepare` of the row that
was claimed. -/
structure Authorised (l : List GateTrans) (pid : Nat) (r : VietShareRequest) (c : GateTrans)
    (testId : Str) (operatorId : Option Str) (record : GateRecord) : Prop where
  claim : c ∈ l ∧ ClaimedBy pid testId operatorId record c
  approves : c.pre.tables.1.control.approves operatorId record = true
  capped : record.quantity * record.maxUnitPriceVnd ≤ record.absoluteSpendCapVnd
  carries : CarriesRecord r record
  body : record.expectedBody = .ok r.body
  prepared : ∃ intent row, row.toGateRecord = record ∧ c.pre.tables.1.row? testId = some row ∧
    PreparedBy intent row l ∧ intent.idempotencyKey = record.idempotencyKey ∧
    intent.purchase.rawBody = .ok r.body

/-- **What the gate guarantees** of a run. -/
structure DispatchSafe (tr : List GateTrans) : Prop where
  authorised : ∀ {l t m pid r reply}, tr = l ++ t :: m → t.event = .act pid (.send r) reply →
    ∃ c testId operatorId record, Authorised l pid r c testId operatorId record
  /-- All attempts of a test carry the same key and body. -/
  same : ∀ {c c' p q testId operatorId operatorId' record record'}, c ∈ tr → c' ∈ tr →
    ClaimedBy p testId operatorId record c → ClaimedBy q testId operatorId' record' c' →
    record'.idempotencyKey = record.idempotencyKey ∧ record'.rawBody = record.rawBody
  rearmed : ∀ {l c₁ k c₂ m testId id}, tr = ((l ++ [c₁]) ++ k) ++ c₂ :: m →
    CommitsClaim testId c₁ → CommitsClaim id c₂ → Rearmed testId k
  /-- A submit completes a test as succeeded only within its spend cap. -/
  succeeded : ∀ {l t m pid credentials testId operatorId id nonce c r}, tr = l ++ t :: m →
    (∃ u ∈ l, u.event = .start pid (.submit credentials testId operatorId)) →
    t.event = .act pid (.gate (.finish id nonce c)) r → c.state = .succeeded →
    id = testId ∧ ∃ u ∈ l, ∃ cl ∈ l, ∃ q response order record,
      u.event = .act pid (.send q) (.ok (.response response)) ∧
      ClaimedBy pid testId operatorId record cl ∧ record.parseOrder response = .ok order ∧
      order.supplierReportedTotal ≤ record.absoluteSpendCapVnd ∧
      ∀ row, t.pre.tables.1.row? testId = some row →
        row.absoluteSpendCapVnd = record.absoluteSpendCapVnd

/-- The row of a test at a claim, and what is left of it later. -/
theorem claimed_identity {c : GateTrans} {pid : Nat} {testId : Str} {operatorId : Option Str}
    {record : GateRecord} (h : Run gateSystem s₀ (l ++ c :: m) cfg)
    (hc : ClaimedBy pid testId operatorId record c) :
    ∃ row row', row.toGateRecord = record ∧ c.pre.tables.1.row? testId = some row ∧
      cfg.store.tables.1.row? testId = some row' ∧ row'.identity = row.identity := by
  obtain ⟨timestamp, nonce, -, hclaims⟩ := hc
  obtain ⟨row, hrow, rfl⟩ := hclaims.row
  obtain ⟨cfg₀, -, hr₀, hpre, -⟩ := h.split rfl
  obtain ⟨row', hrow', hid⟩ := (run_follows h).identity row (by
    rw [← hr₀.store_eq, hpre]
    exact Tables.mem_of_row? hrow)
  have htest : row'.testId = testId :=
    (congrArg WriteIdentity.testId hid).trans (Tables.testId_of_row? hrow)
  refine ⟨row, row', rfl, hrow, ?_, hid⟩
  rw [← htest]
  exact lookup_of_mem (fun r : JournalRow => r.testId) cfg.store.tables.2.2.1.1 hrow'

/-- A process that has a reply has sent. -/
theorem replied_by {pid : Nat} {g : GatePhase} {reply : Except Exc Reply}
    (hg : gatePhase pid tr = some g) (hr : g.reply = some reply) :
    ∃ u ∈ tr, ∃ q, u.event = .act pid (.send q) reply := by
  obtain ⟨l, t, m, op, r, g₀, htr, ht, hg₀, hk₀, hrep⟩ := ghost_switch
    (K := fun g : GatePhase => g.reply = some reply) (fun _ hk => by cases hk) hg hr
  replace hrep : (g₀.next op r).reply = some reply := hrep
  have hm := g₀.moves op r
  generalize g₀.next op r = g' at hm hrep
  cases hm with
  | sends q reply' =>
    obtain rfl := Option.some.inj hrep
    exact ⟨t, htr ▸ List.mem_append_right _ List.mem_cons_self, q, ht⟩
  | _ => exact absurd hrep hk₀

omit [Hashlib] in
/-- What a dispatch is completed with as succeeded. -/
theorem classify_succeeded {record : GateRecord} {response : VietShareResponse}
    {code : Option Str} {retry : Option PyFloat} {c : Completion} {outcome : GateOutcome}
    (h : classify record response code retry = .ok (c, outcome)) (hc : c.state = .succeeded) :
    ∃ order, record.parseOrder response = .ok order ∧
      order.supplierReportedTotal ≤ record.absoluteSpendCapVnd := by
  unfold classify at h
  split at h
  · cases h; cases hc
  split at h
  · cases h; cases hc
  split at h
  · cases h; cases hc
  split at h
  · cases hp : record.parseOrder response with
    | error e =>
      rw [hp] at h
      dsimp only at h
      split at h
      · cases h; cases hc
      · cases h
    | ok order =>
      rw [hp] at h
      dsimp only at h
      split at h
      · cases h; cases hc
      · next hle => exact ⟨order, rfl, Int.not_lt.1 hle⟩
  · cases h; cases hc

/-- **Every dispatch of the gate is authorised.** -/
theorem dispatch_authorised {clock : Int} (h : Run gateSystem ⟨.migrated, clock⟩ tr cfg) :
    DispatchSafe tr where
  authorised {l t m pid r reply} htr ht := by
    obtain ⟨cfg₀, g, credentials, testId, operatorId, hr₀, -, -, hg, hc, -, -, -, record, hrec,
      hcarries⟩ := send_gatePhase h htr ht
    obtain ⟨c, hcl, hclaim⟩ := claimed_by hr₀ hg hc hrec
    obtain ⟨l₁, l₂, rfl⟩ := List.append_of_mem hcl
    obtain ⟨row, row', hrow, hlook, -⟩ := claimed_identity hr₀ hclaim
    obtain ⟨timestamp, nonce, hevent, hclaims⟩ := hclaim
    obtain ⟨cfg₁, -, hr₁, hpre, -⟩ := hr₀.split rfl
    have hmem : row ∈ cfg₁.store.tables.1.journal := hpre ▸ Tables.mem_of_row? hlook
    obtain ⟨intent, body, hbody, hid, hprepare⟩ := prepared_by hr₁ hmem
    have hcheck := cfg₁.store.tables.2.2.1.2.2.2 row hmem
    have hbytes : row.rawBody = body := congrArg WriteIdentity.rawBody hid
    subst hrow
    refine ⟨c, testId, operatorId, row.toGateRecord, ⟨hcl, ⟨timestamp, nonce, hevent, hclaims⟩⟩,
      hclaims.approves, hcheck.2.2.2.2.1.2.2, hcarries, ?_, intent, row, rfl, hlook,
      (PreparedBy.mono ⟨body, hbody, hid, hprepare⟩), ?_, ?_⟩
    · rw [hcarries.2]
      exact hclaims.body
    · exact (congrArg WriteIdentity.idempotencyKey hid).symm
    · rw [hcarries.2, hbody, hbytes]
  same {c c' p q testId operatorId operatorId' record record'} hc hc' hclaim hclaim' := by
    obtain ⟨l, m, htr⟩ := List.append_of_mem hc
    obtain ⟨l', m', htr'⟩ := List.append_of_mem hc'
    obtain ⟨row₁, row₂, rfl, -, hlook, hid⟩ := claimed_identity (htr ▸ h) hclaim
    obtain ⟨row₃, row₄, rfl, -, hlook', hid'⟩ := claimed_identity (htr' ▸ h) hclaim'
    obtain rfl := Option.some.inj (hlook.symm.trans hlook')
    have he : row₃.identity = row₁.identity := hid'.symm.trans hid
    exact ⟨congrArg WriteIdentity.idempotencyKey he, congrArg WriteIdentity.rawBody he⟩
  rearmed htr h₁ h₂ := VietShare.rearmed h htr h₁ h₂
  succeeded {l t m pid credentials testId operatorId id nonce c r} htr hstart ht hc := by
    obtain ⟨cfg₀, g, hr₀, hpre, hlive, hg, hok, -⟩ := act_gatePhase h htr ht
    have hcall : g.call = .submit credentials testId operatorId := by
      obtain ⟨u, hu, he⟩ := hstart
      obtain ⟨rest, hp⟩ := hr₀.call_of_start hu he
      obtain ⟨g', hg', hk⟩ := hr₀.ghost_call (P := gateProtocol) (Q := fun _ _ _ => True)
        (i := GatePhase.start) (K := fun (c : GateCall) (g : GatePhase) => g.call = c)
        GateCall.follows (fun _ => rfl) (fun c g op r hk _ => (call_next r).trans hk) hp
      obtain rfl := Option.some.inj (hg.symm.trans hg')
      exact hk
    obtain ⟨rfl, -, record, hrec, hdone⟩ := (ok_submit hcall).1 hok
    obtain ⟨cl, hcl, hclaim⟩ := claimed_by hr₀ hg hcall hrec
    cases hdone with
    | lost code _ => cases hc
    | @read response code receivedAt c outcome hreply _ _ hclass =>
      obtain ⟨u, hu, q, hsend⟩ := replied_by hg hreply
      obtain ⟨order, hparse, hle⟩ := classify_succeeded hclass hc
      refine ⟨rfl, u, hu, cl, hcl, q, response, order, record, hsend, hclaim, hparse, hle,
        fun row hrow => ?_⟩
      obtain ⟨l₁, l₂, rfl⟩ := List.append_of_mem hcl
      obtain ⟨row₁, row₂, rfl, -, hlook, hid⟩ := claimed_identity hr₀ hclaim
      obtain rfl := Option.some.inj (hlook.symm.trans (hpre ▸ hrow))
      exact congrArg WriteIdentity.absoluteSpendCapVnd hid

end

section

attribute [local instance] Offline.retryDigests sampleStdlib

theorem dispatch_authorised_sample :
    (sampleRetry 1000000).1.length = 15 ∧ DispatchSafe (sampleRetry 1000000).1 :=
  ⟨by decide +kernel, dispatch_authorised (sampleRetry_run 1000000)⟩

end

end NyanShopBot.VietShare
