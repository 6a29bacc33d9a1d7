import NyanShopBot.VietShare.AdapterCalls
import NyanShopBot.VietShare.JournalTransactions

/-!
# Runs of the offline adapter

`AttemptInv` is the invariant of a run: the row of an attempt that is still
running is the one it began with, and no two run for one operation; it holds
while an operator marks only attempts as interrupted that have stopped
(`MarksStopped`). With it `write_journal_safe` says what the journal guarantees
over every run of any number of calls.
-/

namespace NyanShopBot.VietShare.Offline

open Py Db Conc

section

variable [Stdlib] [Hashlib]

abbrev AdapterTrans := Trans adapterSystem

/-- The operation that an event leaves the process in an attempt of. -/
def attemptStep (pid : Nat) (g : Option Str) : Event adapterSystem → Option Str
  | .act q (.journal (.beginAttempt id _)) (.ok (some _)) => if q = pid then some id else g
  | .act q (.journal (.finishAttempt _ _ _ _)) _ => if q = pid then none else g
  | _ => g

/-- The operation for which a process is between `begin_attempt` and `finish_attempt`. -/
def attempting (pid : Nat) (tr : List AdapterTrans) : Option Str :=
  tr.foldl (fun g t => attemptStep pid g t.event) none

theorem attempting_snoc (pid : Nat) (tr : List AdapterTrans) (t : AdapterTrans) :
    attempting pid (tr ++ [t]) = attemptStep pid (attempting pid tr) t.event := by
  simp [attempting]

/-- An operator marks an attempt as interrupted only when no live call is in it. -/
def MarksStopped (s₀ : JournalDb) (tr : List AdapterTrans) : Prop :=
  ∀ l t m pid id r, tr = l ++ t :: m →
    t.event = .act pid (.journal (.markInterruptedUnknown id)) r →
    ∀ cfg, Run adapterSystem s₀ l cfg → ∀ q, cfg.Live q → attempting q l ≠ some id

theorem MarksStopped.left {s₀ : JournalDb} {l m : List AdapterTrans}
    (h : MarksStopped s₀ (l ++ m)) : MarksStopped s₀ l :=
  fun l' t m' pid id r hl => h l' t (m' ++ m) pid id r (by rw [hl]; simp)

abbrev phase (pid : Nat) (tr : List AdapterTrans) : Option Phase :=
  ghost (A := adapterSystem) adapterProtocol (fun c : AdapterCall => Phase.start c.operationId)
    pid tr

theorem phase_snoc (pid : Nat) (tr : List AdapterTrans) (t : AdapterTrans) :
    phase pid (tr ++ [t]) = ghostStep (A := adapterSystem) adapterProtocol
      (fun c : AdapterCall => Phase.start c.operationId) pid (phase pid tr) t.event :=
  ghost_snoc _ _ pid tr t

variable {s₀ : JournalDb} {tr l m : List AdapterTrans} {cfg : Cfg adapterSystem}

/-- The trace and the phase agree on the attempt of a process. -/
theorem attempting_phase (h : Run adapterSystem s₀ tr cfg) (pid : Nat) :
    attempting pid tr = (phase pid tr).bind fun g => g.begun.map fun _ => g.operationId := by
  refine Run.invariant (P := adapterProtocol) (Q := fun _ _ _ => True)
    (J := fun tr _ => attempting pid tr =
      (phase pid tr).bind fun g => g.begun.map fun _ => g.operationId) body_follows rfl ?_ ?_ ?_ h
  · intro tr cfg q c hr hq ih
    rw [attempting_snoc, phase_snoc]
    show attempting pid tr = Option.bind (if q = pid then _ else _) _
    by_cases e : q = pid
    · subst e
      rw [ih, show phase q tr = none from hr.ghost_none hq, if_pos rfl]
      rfl
    · rw [if_neg e]; exact ih
  · intro tr s q ih
    rw [attempting_snoc, phase_snoc]
    exact ih
  · intro tr s q op r s' g ih hg hok _
    rw [attempting_snoc, phase_snoc]
    by_cases e : q = pid
    · subst e
      rw [ghostStep, if_pos rfl, show phase q tr = some g from hg]
      rw [show phase q tr = some g from hg] at ih
      show attemptStep q _ _ = (Phase.next g op r).begun.map fun _ =>
        (Phase.next g op r).operationId
      rw [ih]
      cases op with
      | clock => cases r <;> simp [Phase.next, attemptStep]
      | nonceSource => cases r <;> rfl
      | send id r' => cases r <;> rfl
      | journal op =>
        cases op with
        | prepare id key body => cases r <;> rfl
        | get id => cases r <;> rfl
        | reserveAuth id ts nonce => cases r <;> rfl
        | markInterruptedUnknown id => cases r <;> rfl
        | finishAttempt id state code d =>
          show (if q = q then _ else _) = _
          rw [if_pos rfl]
          rfl
        | beginAttempt id now =>
          obtain ⟨rfl, -⟩ := hok
          rcases r with e | _ | record
          · rfl
          · rfl
          · show (if q = q then _ else _) = _
            rw [if_pos rfl]
            rfl
    · rw [ghostStep_other _ _ e]
      have hother : attemptStep pid (attempting pid tr) (.act q op r) = attempting pid tr := by
        unfold attemptStep
        split
        · next h => cases h; rw [if_neg e]
        · next h => cases h; rw [if_neg e]
        · rfl
      show attemptStep pid (attempting pid tr) (.act q op r) = _
      rw [hother]
      exact ih

/-! ## Effects -/

omit [Stdlib] [Hashlib] in
/-- A row stays as it is or makes the step of a journal operation. -/
theorem effect_row {s s' : JournalDb} {op : AdapterOp} {r : Except Exc op.Res} {id : Str}
    {row : PreparedWrite} (h : AdapterEffect s op r s') (hrow : s.tables.1.write? id = some row) :
    s'.tables.1.write? id = some row ∨
      ∃ jop row', op = .journal jop ∧ s'.tables.1.write? id = some row' ∧ row.Step jop row' := by
  have hsame (h : s'.tables = s.tables) : s'.tables.1.write? id = some row := by rw [h]; exact hrow
  cases op with
  | clock => exact .inl (hsame h.1)
  | nonceSource => exact .inl (hsame (congrArg JournalDb.tables h))
  | send id r' => exact .inl (hsame (congrArg JournalDb.tables h))
  | journal jop =>
    have hexec (h : s'.tables = (jop.exec s.tables).2) :
        s'.tables.1.write? id = some row ∨ ∃ j row', AdapterOp.journal jop = .journal j ∧
          s'.tables.1.write? id = some row' ∧ row.Step j row' := by
      rw [h]
      rcases @exec_row _ jop _ _ hrow with hkeep | ⟨row', hrow', hstep⟩
      · exact .inl hkeep
      · exact .inr ⟨jop, row', rfl, hrow', hstep⟩
    rcases h.2 with he | ⟨e, -, -, he | he⟩
    · exact hexec (congrArg Prod.snd he)
    · exact .inl (hsame he)
    · exact hexec he

omit [Stdlib] [Hashlib] in
/-- What an attempt that begins has found and leaves. -/
theorem begin_effect {s s' : JournalDb} {id : Str} {now : Int} {record : PreparedWrite}
    (h : AdapterEffect s (.journal (.beginAttempt id now)) (.ok (some record)) s') :
    ∃ row, s.tables.1.write? id = some row ∧ row.begins now = true ∧
      record = row.setState .dispatching ∧ s'.tables.1.write? id = some record := by
  obtain ⟨-, he | ⟨e, he, -⟩⟩ := h
  · have hb := Tx.commit_ok.1 (congrArg Prod.fst he).symm
    rw [show ((JournalOp.beginAttempt id now).body.commit s.tables).2 = s'.tables from
      (congrArg Prod.snd he).symm] at hb
    rcases beginAttempt_ok hb with ⟨hn, -⟩ | ⟨row, hrow, hbegin, hr, hs⟩
    · cases hn
    · cases hr
      refine ⟨row, hrow, hbegin, rfl, ?_⟩
      rw [hs, write?_setWrite_self (f := .setState .dispatching) fun _ => rfl, hrow]
      rfl
  · cases he

/-! ## Attempts -/

/-- **The invariant of a run.** -/
structure AttemptInv (tr : List AdapterTrans) (cfg : Cfg adapterSystem) : Prop where
  row : ∀ {pid g record}, cfg.Live pid → phase pid tr = some g → g.begun = some record →
    cfg.store.tables.1.write? g.operationId = some record ∧ record.state = .dispatching
  single : ∀ {pid q g g' record record'}, cfg.Live pid → cfg.Live q → phase pid tr = some g →
    phase q tr = some g' → g.begun = some record → g'.begun = some record' →
    g.operationId = g'.operationId → pid = q

/-- A step by `pid` that leaves the attempts of the others alone and is in order for
its own. -/
theorem AttemptInv.step {pid : Nat} {c : AdapterCall} {op : AdapterOp}
    {k : Except Exc op.Res → Adapter (Option WriteOutcome)} {r : Except Exc op.Res}
    {s' : JournalDb} {g : Phase} (hi : AttemptInv tr cfg)
    (hp : cfg.procs pid = some ⟨c, some (.call op k)⟩) (hg : phase pid tr = some g)
    (hok : g.ok op) (he : AdapterEffect cfg.store op r s')
    (hmark : ∀ id, op = .journal (.markInterruptedUnknown id) → ∀ q g' record, cfg.Live q →
      phase q tr = some g' → g'.begun = some record → g'.operationId ≠ id) :
    AttemptInv (tr ++ [⟨cfg.store, .act pid op r, s'⟩])
      ⟨s', Function.update cfg.procs pid (some ⟨c, some (k r)⟩)⟩ := by
  have hlive : cfg.Live pid := ⟨c, op, k, hp⟩
  have hself : phase pid (tr ++ [⟨cfg.store, .act pid op r, s'⟩]) = some (g.next op r) := by
    rw [phase_snoc, ghostStep, if_pos rfl, hg]
    rfl
  have hother {q : Nat} (hq : q ≠ pid) :
      phase q (tr ++ [⟨cfg.store, .act pid op r, s'⟩]) = phase q tr := by
    rw [phase_snoc]
    exact ghostStep_other _ _ (Ne.symm hq)
  -- an attempt that was running before goes on, unless this step ends it
  have hkeep {q : Nat} {g' : Phase} {record : PreparedWrite} (hq : cfg.Live q)
      (hg' : phase q tr = some g') (hb : g'.begun = some record)
      (hend : ∀ state code d, op = .journal (.finishAttempt g'.operationId state code d) →
        q ≠ pid) :
      s'.tables.1.write? g'.operationId = some record ∧ record.state = .dispatching := by
    obtain ⟨hrow, hd⟩ := hi.row hq hg' hb
    have hid : record.operationId = g'.operationId := operationId_of_write? hrow
    rcases effect_row he hrow with hrow' | ⟨jop, row', rfl, -, hstep⟩
    · exact ⟨hrow', hd⟩
    · exfalso
      cases hstep with
      | begins now hbegin =>
        rw [PreparedWrite.begins, hd] at hbegin
        exact absurd hbegin (by simp [JournalState.isOpen])
      | finishes state code d _ _ =>
        rw [hid] at hok
        obtain ⟨hop, rec, hrec, -⟩ := hok
        exact hend state code d (by rw [hid])
          (hi.single hq hlive hg' hg hb hrec hop)
      | interrupted _ => exact hmark _ rfl q g' record hq hg' hb hid.symm
  -- the attempt of `pid` after the step began with it or was running before
  have hnew {record : PreparedWrite} (hb : (g.next op r).begun = some record) :
      (g.next op r).operationId = g.operationId ∧
        ((g.begun = some record ∧
            ∀ state code d, op ≠ .journal (.finishAttempt g.operationId state code d)) ∨
          ∃ now, op = .journal (.beginAttempt g.operationId now) ∧ r ≍ (.ok (some record) :
            Except Exc (Option PreparedWrite))) := by
    cases op with
    | clock =>
      cases r with
      | error e => exact ⟨rfl, .inl ⟨hb, by simp⟩⟩
      | ok t => exact ⟨g.read_operationId t, .inl ⟨g.read_begun t ▸ hb, by simp⟩⟩
    | nonceSource => cases r <;> exact ⟨rfl, .inl ⟨hb, by simp⟩⟩
    | send id r' => exact ⟨rfl, .inl ⟨hb, by simp⟩⟩
    | journal jop =>
      cases jop with
      | prepare id key body => cases r <;> exact ⟨rfl, .inl ⟨hb, by simp⟩⟩
      | get id => cases r <;> exact ⟨rfl, .inl ⟨hb, by simp⟩⟩
      | reserveAuth id ts nonce => cases r <;> exact ⟨rfl, .inl ⟨hb, by simp⟩⟩
      | markInterruptedUnknown id => cases r <;> exact ⟨rfl, .inl ⟨hb, by simp⟩⟩
      | finishAttempt id state code d => cases show none = some record from hb
      | beginAttempt id now =>
        obtain ⟨rfl, hnone, -⟩ := hok
        have hbegun (h : g.begun = some record) : False := by simp [hnone] at h
        rcases r with e | _ | record'
        · exact (hbegun hb).elim
        · exact (hbegun hb).elim
        · obtain rfl : record' = record := Option.some.inj hb
          exact ⟨rfl, .inr ⟨now, rfl, HEq.rfl⟩⟩
  have hrow {record : PreparedWrite} (hb : (g.next op r).begun = some record) :
      s'.tables.1.write? (g.next op r).operationId = some record ∧ record.state = .dispatching := by
    obtain ⟨hop, ⟨hold, hno⟩ | ⟨now, rfl, hr⟩⟩ := hnew hb
    · rw [hop]
      exact hkeep hlive hg hold fun state code d e => absurd e (hno state code d)
    · cases hr
      obtain ⟨row, -, -, rfl, hrow⟩ := begin_effect he
      exact ⟨hop ▸ hrow, rfl⟩
  have hsingle {q : Nat} {g' : Phase} {record record' : PreparedWrite} (hqp : q ≠ pid)
      (hq : cfg.Live q) (hg' : phase q tr = some g') (hb : (g.next op r).begun = some record)
      (hb' : g'.begun = some record') (hop : (g.next op r).operationId = g'.operationId) :
      False := by
    obtain ⟨hid, ⟨hold, -⟩ | ⟨now, rfl, hr⟩⟩ := hnew hb
    · exact hqp (hi.single hq hlive hg' hg hb' hold (hop.symm.trans hid))
    · cases hr
      obtain ⟨row, hrow, hbegin, -⟩ := begin_effect he
      obtain ⟨hrow', hd⟩ := hi.row hq hg' hb'
      rw [hid] at hop
      rw [← hop, hrow] at hrow'
      cases hrow'
      rw [PreparedWrite.begins, hd] at hbegin
      exact absurd hbegin (by simp [JournalState.isOpen])
  constructor
  · intro q g' record hq hg' hb
    by_cases e : q = pid
    · subst e
      obtain rfl : g.next op r = g' := Option.some.inj (hself.symm.trans hg')
      exact hrow hb
    · rw [hother e] at hg'
      exact hkeep (hq.of_update e) hg' hb (fun _ _ _ _ => e)
  · intro p q g₁ g₂ record record' hp' hq' h₁ h₂ hb₁ hb₂ hop
    by_cases e₁ : p = pid
    · by_cases e₂ : q = pid
      · rw [e₁, e₂]
      · exfalso
        subst e₁
        obtain rfl : g.next op r = g₁ := Option.some.inj (hself.symm.trans h₁)
        rw [hother e₂] at h₂
        exact hsingle e₂ (hq'.of_update e₂) h₂ hb₁ hb₂ hop
    · rw [hother e₁] at h₁
      by_cases e₂ : q = pid
      · exfalso
        subst e₂
        obtain rfl : g.next op r = g₂ := Option.some.inj (hself.symm.trans h₂)
        exact hsingle e₁ (hp'.of_update e₁) h₁ hb₂ hb₁ hop.symm
      · rw [hother e₂] at h₂
        exact hi.single (hp'.of_update e₁) (hq'.of_update e₂) h₁ h₂ hb₁ hb₂ hop

/-- **The attempts of every run.** -/
theorem attempt_inv (h : Run adapterSystem s₀ tr cfg) (hmark : MarksStopped s₀ tr) :
    AttemptInv tr cfg := by
  induction h with
  | nil => exact ⟨fun hp => (by obtain ⟨_, _, _, hp⟩ := hp; cases hp),
      fun hp => (by obtain ⟨_, _, _, hp⟩ := hp; cases hp)⟩
  | @start tr cfg pid c hr hp ih =>
    have hi := ih (MarksStopped.left hmark)
    -- a process that starts is in no attempt
    have hold {q : Nat} {g : Phase} {record : PreparedWrite}
        (hg : phase q (tr ++ [⟨cfg.store, .start pid c, cfg.store⟩]) = some g)
        (hb : g.begun = some record) : q ≠ pid ∧ phase q tr = some g := by
      rw [phase_snoc] at hg
      by_cases e : pid = q
      · rw [ghostStep, if_pos e] at hg
        cases hg
        cases hb
      · rw [ghostStep, if_neg e] at hg
        exact ⟨Ne.symm e, hg⟩
    constructor
    · intro q g record hq hg hb
      obtain ⟨e, hg⟩ := hold hg hb
      exact hi.row (hq.of_update e) hg hb
    · intro p q g g' record record' hp hq hg hg' hb hb' hop
      obtain ⟨e, hg⟩ := hold hg hb
      obtain ⟨e', hg'⟩ := hold hg' hb'
      exact hi.single (hp.of_update e) (hq.of_update e') hg hg' hb hb' hop
  | @act tr cfg pid c op k r s' hr hp he ih =>
    obtain ⟨g, hg, hok⟩ := hr.act_ok (P := adapterProtocol) (Q := fun _ _ _ => True)
      (i := fun c : AdapterCall => Phase.start c.operationId) body_follows hp
    refine (ih (MarksStopped.left hmark)).step hp hg hok he ?_
    rintro id rfl q g' record hq hg' hb rfl
    refine hmark tr _ [] pid g'.operationId r rfl rfl cfg hr q hq ?_
    rw [attempting_phase hr, hg', Option.bind_some, hb]
    rfl
  | @crash tr cfg pid c p hr hp ih =>
    have hi := ih (MarksStopped.left hmark)
    have hlive {q : Nat} (hq : Cfg.Live (A := adapterSystem)
        ⟨cfg.store, Function.update cfg.procs pid (some ⟨c, none⟩)⟩ q) : cfg.Live q := by
      refine Cfg.Live.of_update (show q ≠ pid from fun e => ?_) hq
      subst e
      obtain ⟨c', op, k, hp⟩ := hq
      simp at hp
    have hphase (q : Nat) : phase q (tr ++ [⟨cfg.store, .crash pid, cfg.store⟩]) = phase q tr :=
      phase_snoc ..
    constructor
    · intro q g record hq hg hb
      rw [hphase] at hg
      exact hi.row (hlive hq) hg hb
    · intro p q g g' record record' hp hq hg hg' hb hb' hop
      rw [hphase] at hg hg'
      exact hi.single (hlive hp) (hlive hq) hg hg' hb hb' hop

/-! ## Signatures -/

/-- The reserved row of a process. -/
def Phase.reserved (g : Phase) : Option AuthAttempt :=
  g.auth.map fun a => ⟨a.2, g.operationId, a.1⟩

omit [Stdlib] [Hashlib] in
/-- The reserved rows stay, and only `reserve_auth` adds one. -/
theorem effect_auth {s s' : JournalDb} {op : AdapterOp} {r : Except Exc op.Res}
    (h : AdapterEffect s op r s') :
    s'.tables.1.auth = s.tables.1.auth ∨
      ∃ id timestamp nonce, op = .journal (.reserveAuth id timestamp nonce) ∧
        s'.tables.1.auth = s.tables.1.auth ++ [⟨nonce, id, timestamp⟩] := by
  have hsame (h : s'.tables = s.tables) : s'.tables.1.auth = s.tables.1.auth := by rw [h]
  cases op with
  | clock => exact .inl (hsame h.1)
  | nonceSource => exact .inl (hsame (congrArg JournalDb.tables h))
  | send id r' => exact .inl (hsame (congrArg JournalDb.tables h))
  | journal jop =>
    have hexec (h : s'.tables = (jop.exec s.tables).2) :
        s'.tables.1.auth = s.tables.1.auth ∨ ∃ id timestamp nonce,
          AdapterOp.journal jop = .journal (.reserveAuth id timestamp nonce) ∧
            s'.tables.1.auth = s.tables.1.auth ++ [⟨nonce, id, timestamp⟩] := by
      rw [h]
      rcases exec_auth jop s.tables with hkeep | ⟨id, timestamp, nonce, rfl, hadd⟩
      · exact .inl hkeep
      · exact .inr ⟨id, timestamp, nonce, rfl, hadd⟩
    rcases h.2 with he | ⟨e, -, -, he | he⟩
    · exact hexec (congrArg Prod.snd he)
    · exact .inl (hsame he)
    · exact hexec he

omit [Stdlib] [Hashlib] in
/-- What a process reserves is new to the journal. -/
theorem reserve_effect {s s' : JournalDb} {id : Str} {timestamp : Int} {nonce : Str}
    (h : AdapterEffect s (.journal (.reserveAuth id timestamp nonce)) (.ok ()) s') :
    s'.tables.1.auth = s.tables.1.auth ++ [⟨nonce, id, timestamp⟩] := by
  obtain ⟨-, he | ⟨e, he, -⟩⟩ := h
  · have hb := Tx.commit_ok.1 (congrArg Prod.fst he).symm
    rw [show ((JournalOp.reserveAuth id timestamp nonce).body.commit s.tables).2 = s'.tables from
      (congrArg Prod.snd he).symm] at hb
    exact congrArg Tables.auth (reserveAuth_ok hb)
  · cases he

omit [Stdlib] [Hashlib] in
/-- Two reserved rows have neither the nonce nor the timestamp of an operation in common. -/
theorem auth_distinct {s : Store} {a b : AuthAttempt} (ha : a ∈ s.1.auth) (hb : b ∈ s.1.auth)
    (hne : a ≠ b) :
    a.nonce ≠ b.nonce ∧ (a.operationId = b.operationId → a.timestamp ≠ b.timestamp) :=
  ⟨fun e => hne (List.inj_on_of_nodup_map s.2.2.1 ha hb e),
    fun e₁ e₂ => hne (List.inj_on_of_nodup_map s.2.2.2 ha hb (Prod.ext e₁ e₂))⟩

/-- What the processes have reserved is stored, each row once. -/
structure AuthInv (tr : List AdapterTrans) (s : JournalDb) : Prop where
  stored : ∀ {pid g a}, phase pid tr = some g → g.reserved = some a → a ∈ s.tables.1.auth
  once : ∀ {p q g g' a}, p ≠ q → phase p tr = some g → phase q tr = some g' →
    g.reserved = some a → g'.reserved ≠ some a

omit [Hashlib] in
/-- What a step makes of the reserved row of its process. -/
theorem reserved_next {g : Phase} {op : AdapterOp} {r : Except Exc op.Res} (hok : g.ok op) :
    (g.next op r).reserved = g.reserved ∨
      ∃ timestamp nonce, op = .journal (.reserveAuth g.operationId timestamp nonce) ∧
        r ≍ (.ok () : Except Exc Unit) ∧
        (g.next op r).reserved = some ⟨nonce, g.operationId, timestamp⟩ := by
  have hm := g.moves op r
  generalize g.next op r = g' at hm ⊢
  cases hm with
  | reserves id timestamp nonce =>
    obtain ⟨rfl, -⟩ := hok
    exact .inr ⟨timestamp, nonce, rfl, HEq.rfl, rfl⟩
  | reads t => exact .inl (by simp [Phase.reserved])
  | _ => exact .inl rfl

/-- **The signatures of every run.** -/
theorem auth_inv (h : Run adapterSystem s₀ tr cfg) : AuthInv tr cfg.store := by
  refine Run.invariant (P := adapterProtocol) (Q := fun _ _ _ => True) (J := AuthInv) body_follows
    ⟨fun hg => (by cases hg), fun _ hg => (by cases hg)⟩ ?_ ?_ ?_ h
  · intro tr cfg pid c _ hp hi
    have hold {q : Nat} {g : Phase} {a : AuthAttempt}
        (hg : phase q (tr ++ [⟨cfg.store, .start pid c, cfg.store⟩]) = some g)
        (ha : g.reserved = some a) : phase q tr = some g := by
      rw [phase_snoc] at hg
      by_cases e : pid = q
      · rw [ghostStep, if_pos e] at hg
        cases hg
        cases ha
      · rwa [ghostStep, if_neg e] at hg
    exact ⟨fun hg ha => hi.stored (hold hg ha) ha,
      fun hpq hg hg' ha ha' => hi.once hpq (hold hg ha) (hold hg' ha') ha ha'⟩
  · intro tr s q hi
    have hphase (p : Nat) : phase p (tr ++ [⟨s, .crash q, s⟩]) = phase p tr := phase_snoc ..
    exact ⟨fun hg ha => hi.stored (hphase _ ▸ hg) ha,
      fun hpq hg hg' ha => hi.once hpq (hphase _ ▸ hg) (hphase _ ▸ hg') ha⟩
  · intro tr s pid op r s' g hi hg hok he
    have hkeep {a : AuthAttempt} (ha : a ∈ s.tables.1.auth) : a ∈ s'.tables.1.auth := by
      rcases effect_auth he with h | ⟨_, _, _, -, h⟩
      · rw [h]; exact ha
      · rw [h]; exact List.mem_append_left _ ha
    -- what this step adds is in no phase before it
    have hcase {q : Nat} {g' : Phase} {a : AuthAttempt}
        (hg' : phase q (tr ++ [⟨s, .act pid op r, s'⟩]) = some g') (ha : g'.reserved = some a) :
        (∃ g₀, phase q tr = some g₀ ∧ g₀.reserved = some a) ∨
          (q = pid ∧ a ∈ s'.tables.1.auth ∧ a ∉ s.tables.1.auth) := by
      rw [phase_snoc] at hg'
      by_cases e : pid = q
      · subst e
        rw [ghostStep, if_pos rfl, show phase pid tr = some g from hg] at hg'
        cases hg'
        rcases reserved_next (r := r) hok with hr | ⟨timestamp, nonce, rfl, hr, hres⟩
        · exact .inl ⟨g, hg, hr ▸ ha⟩
        · cases hr
          have hauth := reserve_effect he
          obtain rfl := Option.some.inj (hres.symm.trans ha)
          refine .inr ⟨rfl, by rw [hauth]; simp, fun hin => ?_⟩
          have hn := s'.tables.2.2.1
          rw [hauth, List.map_append, List.nodup_append] at hn
          exact hn.2.2 _ (List.mem_map_of_mem hin) _ (by simp) rfl
      · rw [ghostStep_other _ _ e] at hg'
        exact .inl ⟨g', hg', ha⟩
    constructor
    · intro q g' a hg' ha
      rcases hcase hg' ha with ⟨g₀, hg₀, ha₀⟩ | ⟨-, hin, -⟩
      · exact hkeep (hi.stored hg₀ ha₀)
      · exact hin
    · intro p q g₁ g₂ a hpq h₁ h₂ ha₁ ha₂
      rcases hcase h₁ ha₁ with ⟨g₃, hg₃, ha₃⟩ | ⟨rfl, -, hnot⟩
      · rcases hcase h₂ ha₂ with ⟨g₄, hg₄, ha₄⟩ | ⟨-, -, hnot⟩
        · exact hi.once hpq hg₃ hg₄ ha₃ ha₄
        · exact hnot (hi.stored hg₃ ha₃)
      · rcases hcase h₂ ha₂ with ⟨g₄, hg₄, ha₄⟩ | ⟨rfl, -, -⟩
        · exact hnot (hi.stored hg₄ ha₄)
        · exact hpq rfl

end

end NyanShopBot.VietShare.Offline
