import NyanShopBot.Catalog.CurationRepository

/-!
# The optimistic lock of the curation document

`PhaseOk` says what each phase of a call stands for in the trace and the database, and
`LockInv` that every process is in order and every change of the row is the commit of
a save that expected its revision. `curation_lock` is what follows for every run.
-/

namespace NyanShopBot.Catalog

open Py Conc

section

variable [UnicodeData]

/-! ## What a call does in order -/

/-- How far a call has come. -/
inductive Phase where
  | start
  | selected (row : Option CurationRow)
  | wrote (written : Option CurationRow)
  | committed (written : Option CurationRow)
  | failed (e : Exc)

structure CallGhost where
  call : RepositoryCall
  phase : Phase

namespace CallGhost

def ok (g : CallGhost) : CurationOp → Prop
  | .select => g = ⟨.load, .start⟩
  | .execute expected listings => g = ⟨.save expected listings, .start⟩
  | .commit written => g.phase = .wrote written

def nextPhase : (op : CurationOp) → Except Exc op.Res → Phase
  | .select, .ok row => .selected row
  | .execute _ _, .ok written => .wrote written
  | .commit written, .ok _ => .committed written
  | .select, .error e | .execute _ _, .error e | .commit _, .error e => .failed e

def next (g : CallGhost) (op : CurationOp) (r : Except Exc op.Res) : CallGhost :=
  ⟨g.call, nextPhase op r⟩

end CallGhost

abbrev callProtocol : Protocol curationSig Exc := ⟨CallGhost, CallGhost.ok, CallGhost.next⟩

def CallGhost.begin (call : RepositoryCall) : CallGhost := ⟨call, .start⟩

/-- What a call that ends has done. -/
def Ends : RepositoryCall → CallGhost → Except Exc CatalogCurationDocument → Prop
  | .load, g, out => (∃ row, g.phase = .selected row ∧ out = documentOf row) ∨
      ∃ e, g.phase = .failed e ∧ out = .error e
  | .save expected listings, g, out => (∃ written, g.phase = .committed written ∧
        out = PostgresCatalogCurationRepository.saved expected listings written) ∨
      ∃ e, g.phase = .failed e ∧ out = .error e

/-- **The calls follow the protocol.** -/
theorem body_follows (call : RepositoryCall) :
    wp callProtocol (Ends call) (.begin call) (RepositoryCall.body call) := by
  cases call with
  | load =>
    refine wp_bind.2 (wp_perform.2 ⟨rfl, fun r => ?_⟩)
    cases r with
    | error e => exact .inr ⟨e, rfl, rfl⟩
    | ok row => exact wp_ofExcept.2 (.inl ⟨row, rfl, rfl⟩)
  | save expected listings =>
    refine wp_bind.2 (wp_perform.2 ⟨rfl, fun r => ?_⟩)
    cases r with
    | error e => exact .inr ⟨e, rfl, rfl⟩
    | ok written =>
      refine wp_bind.2 (wp_perform.2 ⟨rfl, fun r => ?_⟩)
      cases r with
      | error e => exact .inr ⟨e, rfl, rfl⟩
      | ok u => exact wp_ofExcept.2 (.inl ⟨written, rfl, rfl⟩)

/-! ## The invariant -/

abbrev CurationTrans := Trans curationSystem

def phaseOf (pid : Nat) (tr : List CurationTrans) : Option CallGhost :=
  ghost (A := curationSystem) callProtocol CallGhost.begin pid tr

/-- The save found another revision, and its statement wrote nothing. -/
def Missed (tr : List CurationTrans) (pid : Nat) (call : RepositoryCall) : Prop :=
  ∃ expected listings, call = .save expected listings ∧ ∃ t ∈ tr,
    t.event = .act pid (.execute expected listings) (.ok none) ∧
    revisionOf t.pre.row ≠ expected ∧ t.post.row = t.pre.row

/-- The save found the revision it expected and replaced the row. -/
def Replaced (tr : List CurationTrans) (pid : Nat) (call : RepositoryCall) (row : CurationRow) :
    Prop :=
  ∃ expected listings, call = .save expected listings ∧ row = ⟨expected + 1, listings⟩ ∧
    ∃ t ∈ tr, t.event = .act pid (.commit (some row)) (.ok ()) ∧
    revisionOf t.pre.row = expected ∧ t.post.row = some row

/-- The transaction of the save holds the lock, over the revision that it expects. -/
def Holds (db : CurationDb) (call : RepositoryCall) (row : CurationRow) : Prop :=
  db.locked = true ∧ ∃ expected listings, call = .save expected listings ∧
    row = ⟨expected + 1, listings⟩ ∧ revisionOf db.row = expected

/-- What the phase of a call stands for. -/
def PhaseOk (tr : List CurationTrans) (db : CurationDb) (pid : Nat) (call : RepositoryCall) :
    Phase → Prop
  | .start => True
  | .selected row => ∃ t ∈ tr, t.event = .act pid .select (.ok row) ∧ t.pre.row = row
  | .wrote (some row) => Holds db call row
  | .committed (some row) => Replaced tr pid call row
  | .wrote none | .committed none => Missed tr pid call
  | .failed e => ∃ expected listings, call = .save expected listings ∧
      isBindable expected listings = false ∧ e = writeFailed

structure LockInv (tr : List CurationTrans) (db : CurationDb) : Prop where
  phases : ∀ pid g, phaseOf pid tr = some g → PhaseOk tr db pid g.call g.phase
  started : ∀ pid g, phaseOf pid tr = some g → ∃ t ∈ tr, t.event = .start pid g.call
  /-- One transaction holds the lock. -/
  holder : ∀ pid q g h row row', phaseOf pid tr = some g → phaseOf q tr = some h →
    g.phase = .wrote (some row) → h.phase = .wrote (some row') → pid = q
  positive : ∀ row, db.row = some row → 0 < row.revision
  changes : ∀ t ∈ tr, t.post.row ≠ t.pre.row → ∃ pid expected listings,
    t.event = .act pid (.commit (some ⟨expected + 1, listings⟩)) (.ok ()) ∧
    phaseOf pid tr = some ⟨.save expected listings, .committed (some ⟨expected + 1, listings⟩)⟩ ∧
    revisionOf t.pre.row = expected ∧ t.post.row = some ⟨expected + 1, listings⟩
  stored : ∀ row, db.row = some row → ∃ t ∈ tr, t.post.row = some row ∧ t.post.row ≠ t.pre.row

section

variable {tr : List CurationTrans} {db db' : CurationDb} {pid q : Nat} {u : CurationTrans}

theorem Missed.mono {call : RepositoryCall} (h : Missed tr pid call) :
    Missed (tr ++ [u]) pid call := by
  obtain ⟨expected, listings, hcall, t, ht, hrest⟩ := h
  exact ⟨expected, listings, hcall, t, List.mem_append_left _ ht, hrest⟩

theorem Replaced.mono {call : RepositoryCall} {row : CurationRow} (h : Replaced tr pid call row) :
    Replaced (tr ++ [u]) pid call row := by
  obtain ⟨expected, listings, hcall, hrow, t, ht, hrest⟩ := h
  exact ⟨expected, listings, hcall, hrow, t, List.mem_append_left _ ht, hrest⟩

/-- **The frame rule**: only a call that holds the lock depends on the database. -/
theorem PhaseOk.mono {call : RepositoryCall} {phase : Phase} (h : PhaseOk tr db pid call phase)
    (hdb : db' = db ∨ ∀ row, phase ≠ .wrote (some row)) :
    PhaseOk (tr ++ [u]) db' pid call phase := by
  rcases phase with _ | row | (_ | row) | (_ | row) | e
  · trivial
  · obtain ⟨t, ht, hrest⟩ := h
    exact ⟨t, List.mem_append_left _ ht, hrest⟩
  · exact Missed.mono h
  · rcases hdb with rfl | hno
    · exact h
    · exact absurd rfl (hno row)
  · exact Missed.mono h
  · exact Replaced.mono h
  · exact h

/-- The statement writes exactly where the stored revision is the expected one. -/
theorem statementWrites_iff {row : Option CurationRow} {expected : Nat}
    (hpos : ∀ r, row = some r → 0 < r.revision) :
    statementWrites row expected = true ↔ revisionOf row = expected := by
  unfold statementWrites
  cases row with
  | none =>
    simp only [revisionOf, Option.isNone_none, Option.any_none]
    split <;> simp_all [eq_comm]
  | some r =>
    have := hpos r rfl
    simp only [revisionOf, Option.isNone_some, Option.any_some]
    split
    · simp only [Bool.false_eq_true, false_iff]
      omega
    · exact decide_eq_true_iff

end

/-! ## One step -/

section step

variable {tr : List CurationTrans} {db db' : CurationDb} {pid : Nat} {g : CallGhost}
  {op : CurationOp} {r : Except Exc op.Res}

/-- The step replaced the row by what the save of the process wrote. -/
def Replaces (db db' : CurationDb) (g : CallGhost) (op : CurationOp) (r : Except Exc op.Res) :
    Prop :=
  ∃ expected listings, g.call = .save expected listings ∧
    (⟨op, r⟩ : (op : CurationOp) × Except Exc op.Res) =
      ⟨.commit (some ⟨expected + 1, listings⟩), .ok ()⟩ ∧
    revisionOf db.row = expected ∧ db'.row = some ⟨expected + 1, listings⟩

/-- A call that can take a step has not ended. -/
theorem CallGhost.ok_phase (h : g.ok op) :
    g.phase = .start ∨ ∃ written, g.phase = .wrote written := by
  cases op with
  | select => exact .inl (by rw [show g = _ from h])
  | execute expected listings => exact .inl (by rw [show g = _ from h])
  | commit written => exact .inr ⟨written, h⟩

/-- **What a step has to keep**: the phase of its process, the lock of the others and the
reason of a change. -/
theorem LockInv.step (h : LockInv tr db) (hg : phaseOf pid tr = some g) (hok : g.ok op)
    (hphase : PhaseOk (tr ++ [⟨db, .act pid op r, db'⟩]) db' pid g.call (CallGhost.nextPhase op r))
    (hframe : db' = db ∨ ∀ q g', q ≠ pid → phaseOf q tr = some g' →
      ∀ row, g'.phase ≠ .wrote (some row))
    (hlock : (∀ row, CallGhost.nextPhase op r ≠ .wrote (some row)) ∨
      ∀ q g', q ≠ pid → phaseOf q tr = some g' → ∀ row, g'.phase ≠ .wrote (some row))
    (hrow : db'.row = db.row ∨ Replaces db db' g op r) :
    LockInv (tr ++ [⟨db, .act pid op r, db'⟩]) db' := by
  have hself : phaseOf pid (tr ++ [⟨db, .act pid op r, db'⟩]) = some (g.next op r) :=
    ghost_act_self hg
  have hother : ∀ {q}, q ≠ pid →
      phaseOf q (tr ++ [⟨db, .act pid op r, db'⟩]) = phaseOf q tr := fun hq => ghost_act_other hq
  refine ⟨fun q g' hq => ?_, fun q g' hq => ?_, fun q q' g₁ g₂ row row' hq hq' hp hp' => ?_,
    fun row hr => ?_, fun t ht hne => ?_, fun row hr => ?_⟩
  · by_cases e : q = pid
    · subst e
      obtain rfl := Option.some.inj (hself.symm.trans hq)
      exact hphase
    · rw [hother e] at hq
      exact (h.phases q g' hq).mono (hframe.imp_right fun hf => hf q g' e hq)
  · by_cases e : q = pid
    · subst e
      obtain rfl := Option.some.inj (hself.symm.trans hq)
      obtain ⟨t, ht, he⟩ := h.started q g hg
      exact ⟨t, List.mem_append_left _ ht, he⟩
    · rw [hother e] at hq
      obtain ⟨t, ht, he⟩ := h.started q g' hq
      exact ⟨t, List.mem_append_left _ ht, he⟩
  · -- the process of the step holds the lock only where no other one does
    by_cases e : q = pid <;> by_cases e' : q' = pid
    · exact e.trans e'.symm
    · subst e
      obtain rfl := Option.some.inj (hself.symm.trans hq)
      rw [hother e'] at hq'
      rcases hlock with hno | hno
      · exact absurd hp (hno row)
      · exact absurd hp' (hno q' g₂ e' hq' row')
    · subst e'
      obtain rfl := Option.some.inj (hself.symm.trans hq')
      rw [hother e] at hq
      rcases hlock with hno | hno
      · exact absurd hp' (hno row')
      · exact absurd hp (hno q g₁ e hq row)
    · rw [hother e] at hq
      rw [hother e'] at hq'
      exact h.holder q q' g₁ g₂ row row' hq hq' hp hp'
  · rcases hrow with hsame | ⟨expected, listings, -, -, -, hnew⟩
    · exact h.positive row (hsame ▸ hr)
    · rw [hnew] at hr
      cases hr
      exact Nat.succ_pos expected
  · rcases List.mem_append.1 ht with ht | ht
    · obtain ⟨q, expected, listings, he, hq, hrest⟩ := h.changes t ht hne
      refine ⟨q, expected, listings, he, ?_, hrest⟩
      have e : q ≠ pid := by
        rintro rfl
        obtain rfl := Option.some.inj (hg.symm.trans hq)
        rcases CallGhost.ok_phase hok with hp | ⟨written, hp⟩ <;> cases hp
      rw [hother e, hq]
    · obtain rfl := List.mem_singleton.1 ht
      rcases hrow with hsame | ⟨expected, listings, hcall, hop, hrev, hnew⟩
      · exact absurd hsame hne
      · cases hop
        refine ⟨pid, expected, listings, rfl, ?_, hrev, hnew⟩
        rw [hself, CallGhost.next, hcall]
        rfl
  · rcases hrow with hsame | ⟨expected, listings, -, -, hrev, hnew⟩
    · obtain ⟨t, ht, hpost⟩ := h.stored row (hsame ▸ hr)
      exact ⟨t, List.mem_append_left _ ht, hpost⟩
    · refine ⟨_, List.mem_append_right _ List.mem_cons_self, hr, fun hsame => ?_⟩
      have hsame : db'.row = db.row := hsame
      rw [← hsame, hnew] at hrev
      simp [revisionOf] at hrev

/-- **A step of the database keeps the invariant.** -/
theorem LockInv.act (h : LockInv tr db) (hg : phaseOf pid tr = some g) (hok : g.ok op)
    (he : CurationEffect db op r db') : LockInv (tr ++ [⟨db, .act pid op r, db'⟩]) db' := by
  have hlast {s s' : CurationDb} {e : Event curationSystem} :
      (⟨s, e, s'⟩ : CurationTrans) ∈ tr ++ [⟨s, e, s'⟩] :=
    List.mem_append_right _ List.mem_cons_self
  cases he with
  | select =>
    refine h.step hg hok ⟨_, hlast, rfl, rfl⟩ (.inl rfl) (.inl fun row hp => ?_) (.inl rfl)
    cases hp
  | @refuse _ expected listings hbind =>
    obtain rfl : g = ⟨.save expected listings, .start⟩ := hok
    refine h.step hg rfl ⟨expected, listings, rfl, hbind, rfl⟩ (.inl rfl)
      (.inl fun row hp => ?_) (.inl rfl)
    cases hp
  | @write row expected listings hbind hwrites =>
    obtain rfl : g = ⟨.save expected listings, .start⟩ := hok
    have hrev : revisionOf row = expected := (statementWrites_iff h.positive).1 hwrites
    have hfree : ∀ q g', q ≠ pid → phaseOf q tr = some g' →
        ∀ row', g'.phase ≠ .wrote (some row') := by
      intro q g' _ hq row' hp
      have hholds := h.phases q g' hq
      rw [hp] at hholds
      cases hholds.1
    exact h.step hg rfl ⟨rfl, expected, listings, rfl, rfl, hrev⟩ (.inr hfree) (.inr hfree)
      (.inl rfl)
  | @miss _ expected listings hbind hwrites =>
    obtain rfl : g = ⟨.save expected listings, .start⟩ := hok
    have hrev : revisionOf db.row ≠ expected := by
      intro hrev
      rw [(statementWrites_iff h.positive).2 hrev] at hwrites
      cases hwrites
    refine h.step hg rfl ⟨expected, listings, rfl, _, hlast, rfl, hrev, rfl⟩ (.inl rfl)
      (.inl fun row hp => ?_) (.inl rfl)
    cases hp
  | commit _ row =>
    obtain ⟨call, phase⟩ := g
    obtain rfl : phase = .wrote (some row) := hok
    obtain ⟨-, expected, listings, hcall, rfl, hrev⟩ := h.phases pid _ hg
    obtain rfl : call = .save expected listings := hcall
    have hfree : ∀ q g', q ≠ pid → phaseOf q tr = some g' →
        ∀ row', g'.phase ≠ .wrote (some row') := by
      intro q g' hq hg' row' hp
      exact hq (h.holder q pid _ _ _ _ hg' hg hp rfl)
    refine h.step hg rfl ⟨expected, listings, rfl, rfl, _, hlast, rfl, hrev, rfl⟩ (.inr hfree)
      (.inl fun row hp => ?_) (.inr ⟨expected, listings, rfl, rfl, hrev, rfl⟩)
    cases hp
  | done =>
    obtain ⟨call, phase⟩ := g
    obtain rfl : phase = .wrote none := hok
    refine h.step hg rfl (Missed.mono (h.phases pid _ hg)) (.inl rfl)
      (.inl fun row hp => ?_) (.inl rfl)
    cases hp

end step

/-! ## Every run -/

theorem LockInv.start {tr : List CurationTrans} {db : CurationDb} {pid : Nat}
    {call : RepositoryCall} (h : LockInv tr db) (hpid : phaseOf pid tr = none) :
    LockInv (tr ++ [⟨db, .start pid call, db⟩]) db := by
  have hself : phaseOf pid (tr ++ [⟨db, .start pid call, db⟩]) = some ⟨call, .start⟩ :=
    ghost_start_self (A := curationSystem) call
  have hother : ∀ {q}, q ≠ pid → phaseOf q (tr ++ [⟨db, .start pid call, db⟩]) = phaseOf q tr :=
    fun hq => ghost_start_other hq
  have hold : ∀ {q g row}, phaseOf q (tr ++ [⟨db, .start pid call, db⟩]) = some g →
      g.phase = .wrote (some row) → phaseOf q tr = some g := by
    intro q g row hq hp
    by_cases e : q = pid
    · subst e
      obtain rfl := Option.some.inj (hself.symm.trans hq)
      cases hp
    · rwa [hother e] at hq
  refine ⟨fun q g hq => ?_, fun q g hq => ?_,
    fun q q' g g' row row' hq hq' hp hp' =>
      h.holder q q' g g' row row' (hold hq hp) (hold hq' hp') hp hp',
    h.positive, fun t ht hne => ?_, fun row hr => ?_⟩
  · by_cases e : q = pid
    · subst e
      obtain rfl := Option.some.inj (hself.symm.trans hq)
      trivial
    · rw [hother e] at hq
      exact (h.phases q g hq).mono (.inl rfl)
  · by_cases e : q = pid
    · subst e
      obtain rfl := Option.some.inj (hself.symm.trans hq)
      exact ⟨_, List.mem_append_right _ List.mem_cons_self, rfl⟩
    · rw [hother e] at hq
      obtain ⟨t, ht, he⟩ := h.started q g hq
      exact ⟨t, List.mem_append_left _ ht, he⟩
  · rcases List.mem_append.1 ht with ht | ht
    · obtain ⟨q, expected, listings, he, hq, hrest⟩ := h.changes t ht hne
      have e : q ≠ pid := by
        rintro rfl
        rw [hpid] at hq
        cases hq
      exact ⟨q, expected, listings, he, by rw [hother e, hq], hrest⟩
    · obtain rfl := List.mem_singleton.1 ht
      exact absurd rfl hne
  · obtain ⟨t, ht, hpost⟩ := h.stored row hr
    exact ⟨t, List.mem_append_left _ ht, hpost⟩

theorem LockInv.crash {tr : List CurationTrans} {db : CurationDb} {pid : Nat}
    (h : LockInv tr db) : LockInv (tr ++ [⟨db, .crash pid, db⟩]) db := by
  have hsame : ∀ q, phaseOf q (tr ++ [⟨db, .crash pid, db⟩]) = phaseOf q tr :=
    fun q => ghost_crash
  refine ⟨fun q g hq => ?_, fun q g hq => ?_, fun q q' g g' row row' hq hq' => ?_, h.positive,
    fun t ht hne => ?_, fun row hr => ?_⟩
  · exact (h.phases q g (hsame q ▸ hq)).mono (.inl rfl)
  · obtain ⟨t, ht, he⟩ := h.started q g (hsame q ▸ hq)
    exact ⟨t, List.mem_append_left _ ht, he⟩
  · exact h.holder q q' g g' row row' (hsame q ▸ hq) (hsame q' ▸ hq')
  · rcases List.mem_append.1 ht with ht | ht
    · obtain ⟨q, expected, listings, he, hq, hrest⟩ := h.changes t ht hne
      exact ⟨q, expected, listings, he, by rw [hsame q, hq], hrest⟩
    · obtain rfl := List.mem_singleton.1 ht
      exact absurd rfl hne
  · obtain ⟨t, ht, hpost⟩ := h.stored row hr
    exact ⟨t, List.mem_append_left _ ht, hpost⟩

/-- **The invariant holds along every run.** -/
theorem lockInv_run {tr : List CurationTrans} {cfg : Cfg curationSystem}
    (h : Run curationSystem .empty tr cfg) : LockInv tr cfg.store := by
  refine Run.invariant (A := curationSystem) (P := callProtocol) (i := CallGhost.begin)
    (J := fun tr db => LockInv tr db) body_follows ?_ ?_ (fun hi => hi.crash) ?_ h
  · refine ⟨?_, ?_, ?_, ?_, ?_, ?_⟩
    · intro pid g hg
      cases hg
    · intro pid g hg
      cases hg
    · intro pid q g g' row row' hg
      cases hg
    · intro row hr
      cases hr
    · intro t ht
      cases ht
    · intro row hr
      cases hr
  · intro tr cfg pid c h hp hi
    exact hi.start (h.ghost_none hp)
  · intro tr db pid op r db' g hi hg hok he
    exact hi.act hg hok he

/-! ## The lock -/

/-- Every save of the run has numbers that can be stored, and one that writes a row has the
listings of a document. -/
structure SavesForm (tr : List CurationTrans) : Prop where
  bindable : ∀ t ∈ tr, ∀ pid expected listings, t.event = .start pid (.save expected listings) →
    isBindable expected listings = true
  forms : ∀ t ∈ tr, ∀ pid row, t.event = .act pid (.commit (some row)) (.ok ()) →
    CatalogCurationDocument.Forms row.revision row.listings

/-- What decides a save: its commit where it wrote, its statement where it did not. -/
def Decides (pid expected : Nat) (listings : List CatalogCurationListing)
    (out : Except Exc CatalogCurationDocument) (t : CurationTrans) : Prop :=
  ((∃ document, out = .ok document) ↔ revisionOf t.pre.row = expected) ∧
  (∀ document, out = .ok document →
    t.event = .act pid (.commit (some ⟨expected + 1, listings⟩)) (.ok ()) ∧
    t.post.row = some ⟨expected + 1, listings⟩ ∧ document.revision = expected + 1 ∧
    document.listings = listings) ∧
  ∀ e, out = .error e → e = .revisionConflict ∧ t.post.row = t.pre.row ∧
    t.event = .act pid (.execute expected listings) (.ok none)

structure OptimisticLock (tr : List CurationTrans) (cfg : Cfg curationSystem) : Prop where
  /-- A save succeeds exactly where it finds the revision that it expects, -/
  saves : ∀ t₀ ∈ tr, ∀ pid expected listings out,
    t₀.event = .start pid (.save expected listings) → cfg.result? pid = some out →
    ∃ t ∈ tr, Decides pid expected listings out t
  /-- one that fails changes nothing, -/
  failing : ∀ pid e, cfg.result? pid = some (.error e) → ∀ t ∈ tr, ∀ op r,
    t.event = .act pid op r → t.post.row = t.pre.row
  /-- and each change is the commit of a save that had observed what it replaces. -/
  changes : ∀ t ∈ tr, t.post.row ≠ t.pre.row → ∃ pid expected listings,
    (∃ t₀ ∈ tr, t₀.event = .start pid (.save expected listings)) ∧
    t.event = .act pid (.commit (some ⟨expected + 1, listings⟩)) (.ok ()) ∧
    revisionOf t.pre.row = expected ∧ t.post.row = some ⟨expected + 1, listings⟩
  /-- A load returns the document of the row. -/
  loads : ∀ t₀ ∈ tr, ∀ pid out, t₀.event = .start pid .load → cfg.result? pid = some out →
    ∃ t ∈ tr, t.event = .act pid .select (.ok t.pre.row) ∧ out = documentOf t.pre.row ∧
      ∃ document, out = .ok document

section

variable {tr : List CurationTrans} {cfg : Cfg curationSystem}

/-- The phase and the result of a process that has ended. -/
theorem ends_of_result (h : Run curationSystem .empty tr cfg) {pid : Nat} {call : RepositoryCall}
    {out : Except Exc CatalogCurationDocument} {t₀ : CurationTrans} (ht₀ : t₀ ∈ tr)
    (he : t₀.event = .start pid call) (hout : cfg.result? pid = some out) :
    ∃ phase, phaseOf pid tr = some ⟨call, phase⟩ ∧ Ends call ⟨call, phase⟩ out := by
  obtain ⟨rest, hp⟩ := h.call_of_start ht₀ he
  obtain ⟨c, hc⟩ := Cfg.result?_eq hout
  have hsame : (⟨call, rest⟩ : Proc curationSystem) = ⟨c, some (.ofExcept out)⟩ :=
    Option.some.inj (hp.symm.trans hc)
  obtain rfl : call = c := congrArg Proc.call hsame
  obtain ⟨g, hg, hw⟩ := Run.follows (A := curationSystem) (P := callProtocol)
    (i := CallGhost.begin) (Q := Ends) body_follows h hc
  obtain ⟨g', hg', hcall⟩ := Run.ghost_call (A := curationSystem) (P := callProtocol)
    (i := CallGhost.begin) (Q := Ends) (K := fun c g => g.call = c) body_follows
    (fun _ => rfl) (fun _ _ _ _ hk _ => hk) h hc
  obtain rfl : g = g' := Option.some.inj (hg.symm.trans hg')
  obtain ⟨call', phase⟩ := g
  obtain rfl : call' = call := hcall
  exact ⟨phase, hg, wp_ofExcept.1 hw⟩

/-- Every stored row is a document. -/
theorem documentOf_stored (h : Run curationSystem .empty tr cfg) (hform : SavesForm tr)
    {t : CurationTrans} (ht : t ∈ tr) : ∃ document, documentOf t.pre.row = .ok document := by
  obtain ⟨l, m, rfl⟩ := List.append_of_mem ht
  obtain ⟨cfg₀, cfg₁, hrun, hpre, -, -⟩ := h.split rfl
  have hinv := lockInv_run hrun
  rw [hpre] at hinv
  cases hrow : t.pre.row with
  | none => exact ⟨_, CatalogCurationDocument.make_ok CatalogCurationDocument.forms_empty⟩
  | some row =>
    obtain ⟨u, hu, hpost, hne⟩ := hinv.stored row hrow
    obtain ⟨pid, expected, listings, hev, -, -, hpost'⟩ := hinv.changes u hu hne
    obtain rfl := Option.some.inj (hpost.symm.trans hpost')
    have hforms := hform.forms u (List.mem_append_left _ hu) pid _ hev
    exact ⟨_, by rw [documentOf, CatalogCurationDocument.make_ok hforms]; rfl⟩

/-- **The optimistic lock.** -/
theorem optimisticLock_run (h : Run curationSystem .empty tr cfg) (hform : SavesForm tr) :
    OptimisticLock tr cfg := by
  have hinv := lockInv_run h
  refine ⟨?_, ?_, ?_, ?_⟩
  · intro t₀ ht₀ pid expected listings out he hout
    have hbind := hform.bindable t₀ ht₀ pid expected listings he
    obtain ⟨phase, hg, hends⟩ := ends_of_result h ht₀ he hout
    have hphase := hinv.phases pid _ hg
    rcases hends with ⟨written, rfl, rfl⟩ | ⟨e, rfl, rfl⟩
    · cases written with
      | none =>
        obtain ⟨expected', listings', hcall, t, ht, hev, hrev, hsame⟩ := hphase
        cases hcall
        refine ⟨t, ht, ⟨(by rintro ⟨d, hd⟩; cases hd), fun hr => absurd hr hrev⟩, ?_, ?_⟩
        · intro document hd
          cases hd
        · intro e hd
          cases hd
          exact ⟨rfl, hsame, hev⟩
      | some row =>
        obtain ⟨expected', listings', hcall, rfl, t, ht, hev, hrev, hpost⟩ := hphase
        cases hcall
        have hforms : CatalogCurationDocument.Forms (expected + 1) listings :=
          hform.forms t ht pid _ hev
        have hok : PostgresCatalogCurationRepository.saved expected listings
            (some ⟨expected + 1, listings⟩) = .ok ⟨_, _, hforms.1, hforms.2⟩ :=
          CatalogCurationDocument.make_ok hforms
        rw [hok]
        refine ⟨t, ht, ⟨fun _ => hrev, fun _ => ⟨_, rfl⟩⟩, ?_, ?_⟩
        · intro document hd
          cases hd
          exact ⟨hev, hpost, rfl, rfl⟩
        · intro e hd
          cases hd
    · obtain ⟨expected', listings', hcall, hno, -⟩ := hphase
      cases hcall
      rw [hbind] at hno
      cases hno
  · intro pid e hout t ht op r hev
    by_contra hne
    obtain ⟨q, expected, listings, hev', hg, -⟩ := hinv.changes t ht hne
    have hforms : CatalogCurationDocument.Forms (expected + 1) listings :=
      hform.forms t ht q _ hev'
    rw [hev] at hev'
    cases hev'
    obtain ⟨t₀, ht₀, he⟩ := hinv.started pid _ hg
    obtain ⟨phase, hg', hends⟩ := ends_of_result h ht₀ he hout
    cases hg.symm.trans hg'
    rcases hends with ⟨written, hw, hsaved⟩ | ⟨e', hw, -⟩
    · cases hw
      rw [PostgresCatalogCurationRepository.saved, CatalogCurationDocument.make_ok hforms] at hsaved
      cases hsaved
    · cases hw
  · intro t ht hne
    obtain ⟨pid, expected, listings, hev, hg, hrev, hpost⟩ := hinv.changes t ht hne
    exact ⟨pid, expected, listings, hinv.started pid _ hg, hev, hrev, hpost⟩
  · intro t₀ ht₀ pid out he hout
    obtain ⟨phase, hg, hends⟩ := ends_of_result h ht₀ he hout
    have hphase := hinv.phases pid _ hg
    rcases hends with ⟨row, rfl, rfl⟩ | ⟨e, rfl, rfl⟩
    · obtain ⟨t, ht, hev, rfl⟩ := hphase
      exact ⟨t, ht, hev, rfl, documentOf_stored h hform ht⟩
    · obtain ⟨expected, listings, hcall, -⟩ := hphase
      cases hcall

end

/-! ## Sequential histories -/

/-- A save of a document in numbers that can be stored. -/
def RepositoryCall.Forms : RepositoryCall → Prop
  | .load => True
  | .save expected listings =>
    CatalogCurationDocument.Forms (expected + 1) listings ∧ isBindable expected listings = true

/-- The row and the document in memory are the same. -/
structure SameDocument (db : CurationDb) (document : CatalogCurationDocument) : Prop where
  row : documentOf db.row = .ok document
  revision : revisionOf db.row = document.revision
  positive : ∀ row, db.row = some row → 0 < row.revision

theorem execAlone_load (db : CurationDb) : execAlone .load db = (documentOf db.row, db) := by
  show (PostgresCatalogCurationRepository.load).run answerAlone db = _
  rw [PostgresCatalogCurationRepository.load, Prog.run_bind_ok (Prog.run_perform _ _)]
  cases documentOf db.row <;> rfl

theorem execAlone_save {expected : Nat} {listings : List CatalogCurationListing}
    {db : CurationDb} (hbind : isBindable expected listings = true) :
    execAlone (.save expected listings) db =
      if statementWrites db.row expected then
        (CatalogCurationDocument.make (expected + 1) listings,
          ⟨some ⟨expected + 1, listings⟩, false⟩)
      else (.error .revisionConflict, db) := by
  show (PostgresCatalogCurationRepository.save expected listings).run answerAlone db = _
  rw [PostgresCatalogCurationRepository.save]
  by_cases hw : statementWrites db.row expected = true
  · have hexec : answerAlone db (.execute expected listings) =
        (.ok (some ⟨expected + 1, listings⟩), { db with locked := true }) := by
      simp [answerAlone, hbind, hw]
    rw [Prog.run_bind_ok ((Prog.run_perform _ _).trans hexec),
      Prog.run_bind_ok (Prog.run_perform _ _), if_pos hw]
    cases hmake : CatalogCurationDocument.make (expected + 1) listings <;>
      simp [PostgresCatalogCurationRepository.saved, hmake, Prog.ofExcept]
  · have hexec : answerAlone db (.execute expected listings) = (.ok none, db) := by
      simp [answerAlone, hbind, hw]
    rw [Prog.run_bind_ok ((Prog.run_perform _ _).trans hexec),
      Prog.run_bind_ok (Prog.run_perform _ _), if_neg hw]
    rfl

/-- One call gives the same result in both, and keeps them the same. -/
theorem SameDocument.exec {db : CurationDb} {document : CatalogCurationDocument}
    (h : SameDocument db document) {call : RepositoryCall} (hform : call.Forms) :
    (execAlone call db).1 = (InMemoryCatalogCurationRepository.exec call document).1 ∧
      SameDocument (execAlone call db).2
        (InMemoryCatalogCurationRepository.exec call document).2 := by
  cases call with
  | load =>
    rw [execAlone_load]
    exact ⟨h.row, h⟩
  | save expected listings =>
    obtain ⟨hforms, hbind⟩ := hform
    rw [execAlone_save hbind]
    show _ = (InMemoryCatalogCurationRepository.save expected listings document).1 ∧
      SameDocument _ (InMemoryCatalogCurationRepository.save expected listings document).2
    unfold InMemoryCatalogCurationRepository.save
    by_cases hrev : document.revision = expected
    · rw [if_pos ((statementWrites_iff h.positive).2 (h.revision.trans hrev)),
        if_neg (not_not.2 hrev), CatalogCurationDocument.make_ok hforms]
      refine ⟨rfl, ⟨?_, rfl, fun row hr => ?_⟩⟩
      · rw [documentOf, CatalogCurationDocument.make_ok hforms]
        rfl
      · cases hr
        exact Nat.succ_pos expected
    · rw [if_neg fun hw => hrev (h.revision.symm.trans ((statementWrites_iff h.positive).1 hw)),
        if_pos hrev]
      exact ⟨rfl, h⟩

/-- Histories from the same document have the same results. -/
theorem SameDocument.history {calls : List RepositoryCall} :
    ∀ {db : CurationDb} {document : CatalogCurationDocument}, SameDocument db document →
      (∀ call ∈ calls, call.Forms) →
      history execAlone calls db =
        history InMemoryCatalogCurationRepository.exec calls document := by
  induction calls with
  | nil => intros; rfl
  | cons call calls ih =>
    intro db document h hform
    obtain ⟨hres, hsame⟩ := h.exec (hform call List.mem_cons_self)
    rw [Catalog.history, Catalog.history, hres,
      ih hsame fun c hc => hform c (List.mem_cons_of_mem call hc)]

/-- The document that the repository in memory begins with. -/
def CatalogCurationDocument.initial : CatalogCurationDocument :=
  ⟨0, [], CatalogCurationDocument.forms_empty.1, CatalogCurationDocument.forms_empty.2⟩

theorem sameDocument_initial : SameDocument .empty .initial :=
  ⟨CatalogCurationDocument.make_ok CatalogCurationDocument.forms_empty, rfl,
    fun row h => by cases h⟩

/-- **The optimistic lock of the document.** In every run from an empty table in which
every save has the listings of a document: a save succeeds exactly where it finds the
revision that it expects, one that fails changes nothing, and what is replaced was
observed. On such histories the repository in memory gives the same results. -/
theorem curation_lock {tr : List CurationTrans} {cfg : Cfg curationSystem}
    (h : Run curationSystem .empty tr cfg) (hform : SavesForm tr) {calls : List RepositoryCall}
    (hcalls : ∀ call ∈ calls, call.Forms) :
    OptimisticLock tr cfg ∧
      history execAlone calls .empty =
        history InMemoryCatalogCurationRepository.exec calls .initial :=
  ⟨optimisticLock_run h hform, sameDocument_initial.history hcalls⟩

end

/-! ## Two first saves -/

section

attribute [local instance] asciiUnicode

/-- Both calls expect no row; one writes it, and the other finds it. -/
theorem sampleSaves : ∃ tr cfg, Run curationSystem .empty tr cfg ∧ tr.length = 6 ∧
    SavesForm tr := by
  have hbind : isBindable 0 [sampleListing] = true := by decide +kernel
  have hforms : CatalogCurationDocument.Forms (0 + 1) [sampleListing] := by decide +kernel
  have h₁ := Run.start (A := curationSystem) 0 (.save 0 [sampleListing])
    (Run.nil : Run curationSystem CurationDb.empty [] _) rfl
  have h₂ := Run.start (A := curationSystem) 1 (.save 0 [sampleListing]) h₁ rfl
  have h₃ := Run.act h₂
    (rfl : Cfg.procs _ 0 = some ⟨RepositoryCall.save 0 [sampleListing], some (.call _ _)⟩)
    (CurationEffect.write hbind rfl)
  have h₄ := Run.act h₃
    (rfl : Cfg.procs _ 0 = some ⟨RepositoryCall.save 0 [sampleListing], some (.call _ _)⟩)
    (CurationEffect.commit _ _)
  have h₅ := Run.act h₄
    (rfl : Cfg.procs _ 1 = some ⟨RepositoryCall.save 0 [sampleListing], some (.call _ _)⟩)
    (CurationEffect.miss hbind rfl)
  have h₆ := Run.act h₅
    (rfl : Cfg.procs _ 1 = some ⟨RepositoryCall.save 0 [sampleListing], some (.call _ _)⟩)
    (CurationEffect.done _)
  refine ⟨_, _, h₆, rfl, fun t ht pid expected listings he => ?_, fun t ht pid row he => ?_⟩
  · simp only [List.nil_append, List.cons_append, List.mem_cons, List.not_mem_nil, or_false] at ht
    rcases ht with rfl | rfl | rfl | rfl | rfl | rfl <;> cases he <;> exact hbind
  · simp only [List.nil_append, List.cons_append, List.mem_cons, List.not_mem_nil, or_false] at ht
    rcases ht with rfl | rfl | rfl | rfl | rfl | rfl <;> cases he
    exact hforms

theorem curation_lock_sample :
    ∃ tr cfg, tr.length = 6 ∧ OptimisticLock tr cfg ∧
      history execAlone [.save 0 [sampleListing], .load] .empty =
        history InMemoryCatalogCurationRepository.exec
          [.save 0 [sampleListing], .load] .initial := by
  obtain ⟨tr, cfg, hrun, hlen, hform⟩ := sampleSaves
  have hcalls : ∀ call ∈ [RepositoryCall.save 0 [sampleListing], .load], call.Forms := by
    intro call hc
    simp only [List.mem_cons, List.not_mem_nil, or_false] at hc
    rcases hc with rfl | rfl
    · exact ⟨by decide +kernel, by decide +kernel⟩
    · trivial
  obtain ⟨hlock, hhist⟩ := curation_lock hrun hform hcalls
  exact ⟨tr, cfg, hlen, hlock, hhist⟩

/-- Listings of one id are no document. The save raises after its commit: the row is
replaced, and from then on every load raises. -/
theorem duplicate_saved :
    (∃ tr cfg t, Run curationSystem .empty tr cfg ∧
      cfg.result? 0 = some (.error (.validation (some "listing ids must be unique"))) ∧
      t ∈ tr ∧ t.event = .act 0 (.commit (some ⟨1, [sampleListing, sampleListing]⟩)) (.ok ()) ∧
      t.pre.row = none ∧ t.post.row = some ⟨1, [sampleListing, sampleListing]⟩) ∧
    history execAlone [.save 0 [sampleListing, sampleListing], .load] .empty =
      [.error (.validation (some "listing ids must be unique")), .error payloadInvalid] ∧
    history InMemoryCatalogCurationRepository.exec [.save 0 [sampleListing, sampleListing], .load]
      .initial =
      [.error (.validation (some "listing ids must be unique")), .ok .initial] := by
  have hbind : isBindable 0 [sampleListing, sampleListing] = true := by decide +kernel
  have h₁ := Run.start (A := curationSystem) 0 (.save 0 [sampleListing, sampleListing])
    (Run.nil : Run curationSystem CurationDb.empty [] _) rfl
  have h₂ := Run.act h₁ (rfl : Cfg.procs _ 0 =
    some ⟨RepositoryCall.save 0 [sampleListing, sampleListing], some (.call _ _)⟩)
      (CurationEffect.write hbind rfl)
  have h₃ := Run.act h₂ (rfl : Cfg.procs _ 0 =
    some ⟨RepositoryCall.save 0 [sampleListing, sampleListing], some (.call _ _)⟩)
      (CurationEffect.commit _ _)
  refine ⟨⟨_, _, _, h₃, ?_, List.mem_append_right _ List.mem_cons_self, rfl, rfl, rfl⟩, ?_, ?_⟩
  · decide +kernel
  · decide +kernel
  · decide +kernel

end

end NyanShopBot.Catalog
