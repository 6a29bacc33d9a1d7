import NyanShopBot.Orchestrator.LeaseSystem
import NyanShopBot.Orchestrator.TokenLedger

/-!
# The safety of the lease

`Session` is what a runner process has been told, and `body_follows` that its actions are
in order with it. `LeaseInv` ties the sessions to the row of the run: a live process that
believes it holds the lease has its token stored, and what is cleared as stale belonged to
a process that has exited. `process_lease` is what follows for every run.
-/

namespace NyanShopBot.Orchestrator

open Py Db Conc

/-! ## What a process does in order -/

/-- The process that the lease of the row is registered for. -/
def RunRow.runner (r : RunRow) : Option Process :=
  r.pid.bind fun pid => r.processIdentity.map (pid, ·)

structure Session where
  me : Process
  /-- The lease that the process believes it holds. -/
  lease : Option Str
  /-- The token that it has made and not yet used. -/
  fresh : Option Str
  /-- The row that it has read. -/
  view : Option RunRow
  /-- The runner of that row has exited. -/
  checked : Bool

namespace Session

/-- The view, whose runner has exited if it has one. -/
def SawStale (g : Session) (v : RunRow) : Prop :=
  g.view = some v ∧ (v.pid.isSome = true → g.checked = true)

def okAction (g : Session) : LeaseAction → Prop
  | .exec (.acquireProcessLease pid identity token) =>
    (pid, identity) = g.me ∧ g.fresh = some token
  | .exec (.setActiveAgent token _) | .exec (.clearActiveAgent token _ _)
  | .exec (.releaseProcessLease token) => g.lease = some token
  | .exec (.clearStaleActiveAgent token _ _) => ∃ v, g.SawStale v ∧ v.processToken = some token
  | .exec (.clearStaleProcessLease pid identity token) =>
    ∃ v, g.SawStale v ∧ v.runner = some (pid, identity) ∧ v.processToken = some token
  | .uuid4 | .getRun | .processMatches _ | .agentContainmentConfirmed _ => True

def ok (g : Session) (op : Process × LeaseAction) : Prop := op.1 = g.me ∧ g.okAction op.2

def nextAction (g : Session) : (action : LeaseAction) → Except StoreError action.Res → Session
  | .uuid4, .ok token => { g with fresh := some token }
  | .getRun, .ok run => { g with view := some run, checked := false }
  | .processMatches process, .ok live =>
    { g with checked := g.checked || !live && decide (g.view.bind RunRow.runner = some process) }
  | .exec (.acquireProcessLease _ _ token), .ok _ => { g with lease := some token, fresh := none }
  | .exec (.releaseProcessLease _), .ok _ => { g with lease := none }
  | _, _ => g

def next (g : Session) (op : Process × LeaseAction) (r : Except StoreError op.2.Res) : Session :=
  g.nextAction op.2 r

def begin (runner : Runner) : Session := ⟨runner.me, none, none, none, false⟩

end Session

abbrev sessionProtocol : Protocol leaseSig StoreError := ⟨Session, Session.ok, Session.next⟩

/-- The process and its lease are as before. -/
def Session.Same (g g' : Session) : Prop := g'.me = g.me ∧ g'.lease = g.lease

section follows

variable {g : Session} {v : RunRow}

theorem identityOf_follows {message : Str} {identity : Option Str} :
    wp sessionProtocol (fun g' r => g' = g ∧ ∀ i, r = .ok i → identity = some i) g
      (identityOf message identity) := by
  cases identity with
  | none => exact ⟨rfl, fun i hi => by cases hi⟩
  | some identity => exact ⟨rfl, fun i hi => by cases hi; rfl⟩

/-- What the view shows once its runner has been looked for. -/
def Checked (g g' : Session) (v : RunRow) (r : Except StoreError (Option Process)) : Prop :=
  g.Same g' ∧ ∀ runner, r = .ok runner → g'.SawStale v ∧ runner = v.runner

theorem staleRunner_follows (hview : g.view = some v) :
    wp sessionProtocol (fun g' r => Checked g g' v r) g (staleRunner g.me v) := by
  unfold staleRunner
  cases hpid : v.pid with
  | none =>
    refine ⟨⟨rfl, rfl⟩, fun runner hr => ?_⟩
    cases hr
    exact ⟨⟨hview, by simp [hpid]⟩, by simp [RunRow.runner, hpid]⟩
  | some pid =>
    refine wp_bind.2 (wp_mono ?_ identityOf_follows)
    rintro g₁ (e | identity) ⟨rfl, hid⟩
    · exact ⟨⟨rfl, rfl⟩, fun runner hr => by cases hr⟩
    have hrunner : v.runner = some (pid, identity) := by
      simp [RunRow.runner, hpid, hid identity rfl]
    refine wp_bind.2 (wp_perform.2 ⟨⟨rfl, trivial⟩, fun r => ?_⟩)
    cases r with
    | error e => exact ⟨⟨rfl, rfl⟩, fun runner hr => by cases hr⟩
    | ok live =>
      cases (live : Bool) with
      | true => exact ⟨⟨rfl, rfl⟩, fun runner hr => by cases hr⟩
      | false =>
        refine ⟨⟨rfl, rfl⟩, fun runner hr => ?_⟩
        cases hr
        refine ⟨⟨hview, fun _ => ?_⟩, hrunner.symm⟩
        simp [Session.next, Session.nextAction, hview, hrunner]

theorem clearStaleAgent_follows (hsaw : g.SawStale v) :
    wp sessionProtocol (fun g' _ => g.Same g' ∧ g'.SawStale v) g (clearStaleAgent g.me v) := by
  unfold clearStaleAgent
  cases hpid : v.activeAgentPid with
  | none => exact ⟨⟨rfl, rfl⟩, hsaw⟩
  | some pid =>
    refine wp_bind.2 (wp_mono ?_ identityOf_follows)
    rintro g₁ (e | identity) ⟨rfl, hid⟩
    · exact ⟨⟨rfl, rfl⟩, hsaw⟩
    refine wp_bind.2 (wp_perform.2 ⟨⟨rfl, trivial⟩, fun r => ?_⟩)
    cases r with
    | error e => exact ⟨⟨rfl, rfl⟩, hsaw⟩
    | ok live =>
      have hsaw' : (g₁.next (g₁.me, .processMatches (pid, identity)) (.ok live)).SawStale v := by
        refine ⟨hsaw.1, fun hrunner => ?_⟩
        simp [Session.next, Session.nextAction, hsaw.2 hrunner]
      cases (live : Bool) with
      | true => exact ⟨⟨rfl, rfl⟩, hsaw'⟩
      | false =>
        show wp sessionProtocol _ _ (awaitLease g₁.me (.agentContainmentConfirmed v) >>= _)
        refine wp_bind.2 (wp_perform.2 ⟨⟨rfl, trivial⟩, fun r => ?_⟩)
        cases r with
        | error e => exact ⟨⟨rfl, rfl⟩, hsaw'⟩
        | ok confirmed =>
          cases (confirmed : Bool) with
          | false => exact ⟨⟨rfl, rfl⟩, hsaw'⟩
          | true =>
            cases htoken : v.processToken with
            | none => exact ⟨⟨rfl, rfl⟩, hsaw'⟩
            | some token =>
              refine wp_bind.2 (wp_perform.2 ⟨⟨rfl, v, hsaw', htoken⟩, fun r => ?_⟩)
              cases r <;> exact ⟨⟨rfl, rfl⟩, hsaw'⟩

theorem clearStaleLease_follows (hsaw : g.SawStale v) :
    wp sessionProtocol (fun g' _ => g.Same g') g (clearStaleLease g.me v v.runner) := by
  unfold clearStaleLease
  split
  · next token pid identity htoken hrunner =>
    refine wp_perform.2 ⟨⟨rfl, v, hsaw, hrunner, htoken⟩, fun r => ?_⟩
    cases r <;> exact ⟨rfl, rfl⟩
  · exact ⟨rfl, rfl⟩
  · exact ⟨rfl, rfl⟩
  · exact wp_ensure.2 ⟨fun _ => ⟨rfl, rfl⟩, fun _ => ⟨rfl, rfl⟩⟩

theorem Session.Same.trans {g₁ g₂ : Session} (h : g.Same g₁) (h' : g₁.Same g₂) : g.Same g₂ :=
  ⟨h'.1.trans h.1, h'.2.trans h.2⟩

theorem clearStaleProcessState_follows :
    wp sessionProtocol (fun g' _ => g.Same g') g (clearStaleProcessState g.me) := by
  refine wp_bind.2 (wp_perform.2 ⟨⟨rfl, trivial⟩, fun r => ?_⟩)
  cases r with
  | error e => exact ⟨rfl, rfl⟩
  | ok v =>
    have hread : (g.next (g.me, .getRun) (.ok v)).view = some v := rfl
    refine wp_bind.2 (wp_mono ?_ (staleRunner_follows hread))
    rintro g₁ (e | runner) ⟨hsame, hrunner⟩
    · exact hsame
    obtain ⟨hsaw, rfl⟩ := hrunner runner rfl
    have hme : g₁.me = g.me := hsame.1
    refine wp_bind.2 ?_
    rw [← hme]
    refine wp_mono ?_ (clearStaleAgent_follows hsaw)
    rintro g₂ (e | u) ⟨hsame₂, hsaw₂⟩
    · exact Session.Same.trans hsame hsame₂
    show wp sessionProtocol _ g₂ (clearStaleLease g₁.me v v.runner)
    rw [← hsame₂.1]
    exact wp_mono (fun _ _ h => (Session.Same.trans hsame hsame₂).trans h)
      (clearStaleLease_follows hsaw₂)

/-- **A process keeps to its lease**, whatever its script is. -/
theorem prog_follows (script : Script) :
    ∀ g : Session, wp sessionProtocol (fun _ _ => True) g (script.prog g.me g.lease) := by
  induction script with
  | done => exact fun g => trivial
  | acquireProcessLease next ih =>
    intro g
    refine wp_bind.2 (wp_perform.2 ⟨⟨rfl, trivial⟩, fun r => ?_⟩)
    cases r with
    | error e => trivial
    | ok token =>
      refine wp_bind.2 (wp_attempt.2 (wp_perform.2 ⟨⟨rfl, rfl, rfl⟩, fun r => ?_⟩))
      cases r with
      | error e => exact ih (.error e) { g with fresh := some token }
      | ok u => exact ih (.ok u) { g with lease := some token, fresh := none }
  | setActiveAgent agent next ih =>
    rintro ⟨me, _ | token, fresh, view, checked⟩
    · exact wp_bind.2 (wp_attempt.2 (ih _ ⟨me, none, fresh, view, checked⟩))
    · refine wp_bind.2 (wp_attempt.2 (wp_bind.2 (wp_perform.2 ⟨⟨rfl, rfl⟩, fun r => ?_⟩)))
      cases r <;> exact ih _ ⟨me, some token, fresh, view, checked⟩
  | clearActiveAgent pid identity next ih =>
    rintro ⟨me, _ | token, fresh, view, checked⟩
    · exact wp_bind.2 (wp_attempt.2 (ih _ ⟨me, none, fresh, view, checked⟩))
    · refine wp_bind.2 (wp_attempt.2 (wp_bind.2 (wp_perform.2 ⟨⟨rfl, rfl⟩, fun r => ?_⟩)))
      cases r <;> exact ih _ ⟨me, some token, fresh, view, checked⟩
  | releaseProcessLease next ih =>
    rintro ⟨me, _ | token, fresh, view, checked⟩
    · exact ih (.ok ()) ⟨me, none, fresh, view, checked⟩
    · refine wp_bind.2 (wp_attempt.2 (wp_perform.2 ⟨⟨rfl, rfl⟩, fun r => ?_⟩))
      cases r with
      | error e => exact ih (.error e) ⟨me, some token, fresh, view, checked⟩
      | ok u => exact ih (.ok u) ⟨me, none, fresh, view, checked⟩
  | clearStaleProcessState next ih =>
    intro g
    refine wp_bind.2 (wp_attempt.2 (wp_mono ?_ clearStaleProcessState_follows))
    rintro g' r ⟨hme, hlease⟩
    show wp sessionProtocol _ g' ((next r).prog g.me g.lease)
    rw [← hme, ← hlease]
    exact ih r g'

theorem runner_follows (runner : Runner) :
    wp sessionProtocol (fun _ _ => True) (.begin runner) (runner.script.prog runner.me none) :=
  prog_follows runner.script (.begin runner)

end follows

/-! ## The invariant -/

section invariant

variable {runId : Str}

abbrev LeaseTrans (runId : Str) := Trans (leaseSystem runId)

/-- What process `q` has been told. -/
def session (q : Nat) (tr : List (LeaseTrans runId)) : Option Session :=
  ghost (A := leaseSystem runId) sessionProtocol Session.begin q tr

def registrarAfter (registrar : Option Process) : Event (leaseSystem runId) → Option Process
  | .act _ (me, .exec (.setActiveAgent _ _)) (.ok _) => some me
  | _ => registrar

/-- The process that registered an agent last. -/
def registrar (tr : List (LeaseTrans runId)) : Option Process :=
  tr.foldl (fun R t => registrarAfter R t.event) none

def actor : Event (leaseSystem runId) → Option Process
  | .act _ op _ => some op.1
  | _ => none

/-- A stale lease is cleared only where no agent is registered. -/
def CarefulStep (t : LeaseTrans runId) : Prop :=
  ∀ q me pid identity token r,
    t.event = .act q (me, .exec (.clearStaleProcessLease pid identity token)) (.ok ()) →
    t.pre.store.1.run? runId = some r → r.activeAgentPid = none

def Careful (tr : List (LeaseTrans runId)) : Prop := ∀ t ∈ tr, CarefulStep t

/-- No step clears what another live process has registered. -/
structure StepSafe (l : List (LeaseTrans runId)) (t : LeaseTrans runId) : Prop where
  lease : ∀ r r' p, t.pre.store.1.run? runId = some r → t.post.store.1.run? runId = some r' →
    r.runner = some p → r'.processToken ≠ r.processToken → p ∉ t.post.dead →
    actor t.event = some p
  agent : ∀ r r' p, t.pre.store.1.run? runId = some r → t.post.store.1.run? runId = some r' →
    r.activeAgentPid.isSome = true → r'.activeAgentPid = none → registrar l = some p →
    p ∉ t.post.dead → actor t.event = some p

def Session.tokens (g : Session) : List Str := g.lease.toList ++ g.fresh.toList

/-- The token of the lease was made by its runner. -/
def RunRow.Owned (r : RunRow) (used : List (Str × Process)) : Prop :=
  ∀ t p, r.processToken = some t → r.runner = some p → (t, p) ∈ used

structure SessionOk (m : Machine) (r : RunRow) (g : Session) : Prop where
  lease : ∀ t, g.lease = some t → (t, g.me) ∈ m.used ∧ (g.me ∉ m.dead → r.processToken = some t)
  fresh : ∀ t, g.fresh = some t → (t, g.me) ∈ m.used ∧ r.processToken ≠ some t
  view : ∀ v, g.view = some v → v.LeaseOk ∧ v.Owned m.used
  checked : g.checked = true → ∃ v p, g.view = some v ∧ v.runner = some p ∧ p ∈ m.dead

structure LeaseInv (tr : List (LeaseTrans runId)) (m : Machine) (r : RunRow) : Prop where
  row : m.store.1.run? runId = some r
  leaseOk : r.LeaseOk
  owned : r.Owned m.used
  unique : (m.used.map Prod.fst).Nodup
  sessions : ∀ q g, session q tr = some g → SessionOk m r g
  /-- No two processes know the same token. -/
  apart : ∀ q q' g g' t, session q tr = some g → session q' tr = some g' → t ∈ g.tokens →
    t ∈ g'.tokens → q = q'
  registered : r.activeAgentPid.isSome = true → ∃ p, registrar tr = some p ∧
    (p ∉ m.dead → ∃ t, r.processToken = some t ∧ (t, p) ∈ m.used)
  held : Careful tr → r.activeAgentPid.isSome = true → r.processToken.isSome = true
  safe : ∀ l t n, tr = l ++ t :: n → StepSafe l t

variable {tr : List (LeaseTrans runId)} {m m' : Machine} {r r' : RunRow} {g g' : Session}
  {q q' : Nat} {op : Process × LeaseAction} {res : Except StoreError op.2.Res}

theorem RunRow.Owned.mono {used used' : List (Str × Process)} (h : r.Owned used)
    (hsub : ∀ x ∈ used, x ∈ used') : r.Owned used' := fun t p ht hp => hsub _ (h t p ht hp)

/-- **The frame rule**: time passes, and the token of the row stays. -/
theorem SessionOk.mono (h : SessionOk m r g) (hused : ∀ x ∈ m.used, x ∈ m'.used)
    (hdead : ∀ p ∈ m.dead, p ∈ m'.dead) (htoken : r'.processToken = r.processToken) :
    SessionOk m' r' g := by
  refine ⟨fun t ht => ?_, fun t ht => ?_, fun v hv => ?_, fun hc => ?_⟩
  · obtain ⟨hu, hlive⟩ := h.lease t ht
    exact ⟨hused _ hu, fun halive => htoken ▸ hlive fun hd => halive (hdead _ hd)⟩
  · obtain ⟨hu, hne⟩ := h.fresh t ht
    exact ⟨hused _ hu, htoken ▸ hne⟩
  · obtain ⟨hok, hown⟩ := h.view v hv
    exact ⟨hok, hown.mono hused⟩
  · obtain ⟨v, p, hv, hp, hd⟩ := h.checked hc
    exact ⟨v, p, hv, hp, hdead p hd⟩

theorem SessionOk.token_used {t : Str} (h : SessionOk m r g) (ht : t ∈ g.tokens) :
    (t, g.me) ∈ m.used := by
  unfold Session.tokens at ht
  rcases List.mem_append.1 ht with ht | ht
  · exact (h.lease t (Option.mem_toList.1 ht)).1
  · exact (h.fresh t (Option.mem_toList.1 ht)).1

theorem LeaseInv.owner_unique (h : LeaseInv tr m r) {t : Str} {p p' : Process}
    (hp : (t, p) ∈ m.used) (hp' : (t, p') ∈ m.used) : p = p' := by
  have hnd := h.unique
  exact congrArg Prod.snd (List.inj_on_of_nodup_map hnd hp hp' rfl)

theorem registrar_snoc {t : LeaseTrans runId} :
    registrar (tr ++ [t]) = registrarAfter (registrar tr) t.event := by
  simp [registrar]

/-- **What a step has to keep.** -/
theorem LeaseInv.step (h : LeaseInv tr m r) (hg : session q tr = some g)
    (hrow : m'.store.1.run? runId = some r')
    (hleaseOk : r'.LeaseOk) (howned : r'.Owned m'.used) (hunique : (m'.used.map Prod.fst).Nodup)
    (hself : SessionOk m' r' (g.next op res))
    (htokens : ∀ t ∈ (g.next op res).tokens, t ∈ g.tokens ∨ t ∉ m.used.map Prod.fst)
    (hothers : ∀ q' g', q' ≠ q → session q' tr = some g' → SessionOk m' r' g')
    (hreg : r'.activeAgentPid.isSome = true → ∃ p,
      registrar (tr ++ [⟨m, .act q op res, m'⟩]) = some p ∧
        (p ∉ m'.dead → ∃ t, r'.processToken = some t ∧ (t, p) ∈ m'.used))
    (hheld : Careful (tr ++ [⟨m, .act q op res, m'⟩]) → r'.activeAgentPid.isSome = true →
      r'.processToken.isSome = true)
    (hsafe : StepSafe tr ⟨m, .act q op res, m'⟩) :
    LeaseInv (tr ++ [⟨m, .act q op res, m'⟩]) m' r' := by
  have hnew : session q (tr ++ [⟨m, .act q op res, m'⟩]) = some (g.next op res) :=
    ghost_act_self hg
  have hother : ∀ {q'}, q' ≠ q →
      session q' (tr ++ [⟨m, .act q op res, m'⟩]) = session q' tr := fun hq => ghost_act_other hq
  have hfresh : ∀ {q₁ g₁ t}, q₁ ≠ q → session q₁ tr = some g₁ → t ∈ g₁.tokens →
      t ∉ (g.next op res).tokens := by
    intro q₁ g₁ t hq hg₁ ht ht'
    rcases htokens t ht' with ht' | hno
    · exact hq (h.apart q₁ q g₁ g t hg₁ hg ht ht')
    · exact hno (List.mem_map_of_mem ((h.sessions q₁ g₁ hg₁).token_used ht))
  refine ⟨hrow, hleaseOk, howned, hunique, fun q₁ g₁ hq₁ => ?_,
    fun q₁ q₂ g₁ g₂ t h₁ h₂ ht₁ ht₂ => ?_,
    hreg, hheld, fun l t n hsplit => ?_⟩
  · by_cases e : q₁ = q
    · subst e
      obtain rfl := Option.some.inj (hnew.symm.trans hq₁)
      exact hself
    · exact hothers q₁ g₁ e ((hother e).symm.trans hq₁)
  · by_cases e₁ : q₁ = q <;> by_cases e₂ : q₂ = q
    · exact e₁.trans e₂.symm
    · subst e₁
      obtain rfl := Option.some.inj (hnew.symm.trans h₁)
      exact absurd ht₁ (hfresh e₂ ((hother e₂).symm.trans h₂) ht₂)
    · subst e₂
      obtain rfl := Option.some.inj (hnew.symm.trans h₂)
      exact absurd ht₂ (hfresh e₁ ((hother e₁).symm.trans h₁) ht₁)
    · exact h.apart q₁ q₂ g₁ g₂ t ((hother e₁).symm.trans h₁) ((hother e₂).symm.trans h₂) ht₁ ht₂
  · rcases snoc_eq_split hsplit with ⟨rfl, rfl⟩ | ⟨n', hl⟩
    · exact hsafe
    · exact h.safe l t n' hl

theorem StepSafe.of_rows {e : Event (leaseSystem runId)} (hpre : m.store.1.run? runId = some r)
    (hpost : m'.store.1.run? runId = some r')
    (hlease : ∀ p, r.runner = some p → r'.processToken ≠ r.processToken → p ∉ m'.dead →
      actor e = some p)
    (hagent : ∀ p, r.activeAgentPid.isSome = true → r'.activeAgentPid = none →
      registrar tr = some p → p ∉ m'.dead → actor e = some p) : StepSafe tr ⟨m, e, m'⟩ := by
  constructor
  · intro r₁ r₁' p h₁ h₁' hp hne hlive
    obtain rfl := Option.some.inj (hpre.symm.trans h₁)
    obtain rfl := Option.some.inj (hpost.symm.trans h₁')
    exact hlease p hp hne hlive
  · intro r₁ r₁' p h₁ h₁' hsome hnone hreg hlive
    obtain rfl := Option.some.inj (hpre.symm.trans h₁)
    obtain rfl := Option.some.inj (hpost.symm.trans h₁')
    exact hagent p hsome hnone hreg hlive

theorem StepSafe.of_same {e : Event (leaseSystem runId)} (hpre : m.store.1.run? runId = some r)
    (hpost : m'.store.1.run? runId = some r) : StepSafe tr ⟨m, e, m'⟩ :=
  .of_rows hpre hpost (fun _ _ hne => absurd rfl hne) fun _ hsome hnone => by simp [hnone] at hsome

/-- A step that leaves the row as it is. -/
theorem LeaseInv.quiet (h : LeaseInv tr m r) (hg : session q tr = some g)
    (hrow : m'.store.1.run? runId = some r) (hused : ∀ x ∈ m.used, x ∈ m'.used)
    (hdead : ∀ p ∈ m.dead, p ∈ m'.dead) (hunique : (m'.used.map Prod.fst).Nodup)
    (hself : SessionOk m' r (g.next op res))
    (htokens : ∀ t ∈ (g.next op res).tokens, t ∈ g.tokens ∨ t ∉ m.used.map Prod.fst)
    (hreg : @registrarAfter runId (registrar tr) (.act q op res) = registrar tr) :
    LeaseInv (tr ++ [⟨m, .act q op res, m'⟩]) m' r := by
  refine h.step hg hrow h.leaseOk (h.owned.mono hused) hunique hself htokens
    (fun q' g' _ hq' => (h.sessions q' g' hq').mono hused hdead rfl) (fun hsome => ?_)
    (fun hcareful => h.held fun t ht => hcareful t (List.mem_append_left _ ht))
    (.of_same h.row hrow)
  obtain ⟨p, hp, hlive⟩ := h.registered hsome
  refine ⟨p, by rw [registrar_snoc, hreg, hp], fun hd => ?_⟩
  obtain ⟨t, ht, hu⟩ := hlive fun hd' => hd (hdead p hd')
  exact ⟨t, ht, hused _ hu⟩

/-- The lease that was stale is not that of another live process. -/
theorem SessionOk.cleared (h : SessionOk m r g) (hused : m'.used = m.used)
    (hdead : ∀ p ∈ m.dead, p ∈ m'.dead) (hnone : r'.processToken = none)
    (hgone : ∀ t, g.lease = some t → r.processToken = some t → g.me ∈ m'.dead) :
    SessionOk m' r' g := by
  refine ⟨fun t ht => ?_, fun t ht => ?_, fun v hv => hused ▸ h.view v hv, fun hc => ?_⟩
  · obtain ⟨hu, hlive⟩ := h.lease t ht
    refine ⟨hused ▸ hu, fun halive => absurd ?_ halive⟩
    exact hgone t ht (hlive fun hd => halive (hdead _ hd))
  · exact ⟨hused ▸ (h.fresh t ht).1, by simp [hnone]⟩
  · obtain ⟨v, p, hv, hp, hd⟩ := h.checked hc
    exact ⟨v, p, hv, hp, hdead p hd⟩

theorem RunRow.LeaseOk.runner {t : Str} (h : r.LeaseOk) (ht : r.processToken = some t) :
    ∃ p, r.runner = some p := by
  rcases h.lease with ⟨-, -, hnone⟩ | ⟨pid, identity, token, hpid, hid, -, -⟩
  · rw [hnone] at ht
    cases ht
  · exact ⟨(pid, identity), by simp [RunRow.runner, hpid, hid]⟩

theorem RunRow.LeaseOk.token {p : Process} (h : r.LeaseOk) (hp : r.runner = some p) :
    ∃ t, r.processToken = some t := by
  rcases h.lease with ⟨hnone, -, -⟩ | ⟨pid, identity, token, -, -, htoken, -⟩
  · simp [RunRow.runner, hnone] at hp
  · exact ⟨token, htoken⟩

theorem RunRow.pid_of_runner {p : Process} (hp : r.runner = some p) : r.pid.isSome = true := by
  unfold RunRow.runner at hp
  cases hpid : r.pid with
  | none => simp [hpid] at hp
  | some pid => rfl

/-- What a stale view says: the token it shows was made by a process that has exited. -/
theorem SessionOk.stale {v : RunRow} {t : Str} (h : SessionOk m r g) (hsaw : g.SawStale v)
    (ht : v.processToken = some t) : ∃ p, v.runner = some p ∧ p ∈ m.dead ∧ (t, p) ∈ m.used := by
  obtain ⟨hok, hown⟩ := h.view v hsaw.1
  obtain ⟨p, hp⟩ := hok.runner ht
  obtain ⟨v', p', hv', hp', hd⟩ := h.checked (hsaw.2 (RunRow.pid_of_runner hp))
  obtain rfl := Option.some.inj (hsaw.1.symm.trans hv')
  obtain rfl := Option.some.inj (hp.symm.trans hp')
  exact ⟨p, hp, hd, hown t p ht hp⟩

theorem LeaseInv.others_mono (h : LeaseInv tr m r) (hused : ∀ x ∈ m.used, x ∈ m'.used)
    (hdead : ∀ p ∈ m.dead, p ∈ m'.dead) (htoken : r'.processToken = r.processToken) :
    ∀ q' g', q' ≠ q → session q' tr = some g' → SessionOk m' r' g' :=
  fun q' g' _ hq' => (h.sessions q' g' hq').mono hused hdead htoken

/-- **A transaction on the lease that commits keeps the invariant.** -/
theorem LeaseInv.moved {s' : Store} {dead : List Process} {me : Process} {lop : LeaseOp}
    (h : LeaseInv tr m r) (hg : session q tr = some g) (hok : g.ok (me, .exec lop))
    (hages : Ages me m.dead dead) (hrow : s'.1.run? runId = some r') (hmove : LeaseMove lop r r') :
    LeaseInv (tr ++ [⟨m, .act q (me, .exec lop) (.ok ()), ⟨s', dead, m.used⟩⟩])
      ⟨s', dead, m.used⟩ r' := by
  obtain ⟨rfl, hok⟩ := hok
  have hsess := h.sessions q g hg
  have hlive : g.me ∉ m.dead := fun hd => hages.alive (hages.grows _ hd)
  have hself : ∀ {r' : RunRow}, r'.processToken = r.processToken →
      SessionOk ⟨s', dead, m.used⟩ r' g :=
        fun htoken => hsess.mono (fun _ hx => hx) hages.grows htoken
  -- the process that registered the agent, where it is alive, holds the lease
  have hregistered : ∀ p t, r.activeAgentPid.isSome = true → registrar tr = some p → p ∉ dead →
      r.processToken = some t → (t, p) ∈ m.used := by
    intro p t hsome hp hd ht
    obtain ⟨p', hp', hheld⟩ := h.registered hsome
    obtain rfl := Option.some.inj (hp.symm.trans hp')
    obtain ⟨t', ht', hu⟩ := hheld fun hd' => hd (hages.grows p hd')
    obtain rfl := Option.some.inj (ht.symm.trans ht')
    exact hu
  have hcarried : ∀ {R : RunRow} {e : Event (leaseSystem runId)},
      registrarAfter (registrar tr) e = registrar tr → R.processToken = r.processToken →
      R.activeAgentPid.isSome = true → R.activeAgentPid = r.activeAgentPid →
      ∃ p, registrar (tr ++ [⟨m, e, ⟨s', dead, m.used⟩⟩]) = some p ∧
        (p ∉ dead → ∃ t, R.processToken = some t ∧ (t, p) ∈ m.used) := by
    intro R e hstay htoken hsome hsame
    obtain ⟨p, hp, hheld⟩ := h.registered (hsame ▸ hsome)
    refine ⟨p, by rw [registrar_snoc, hstay, hp], fun hd => ?_⟩
    obtain ⟨t, ht, hu⟩ := hheld fun hd' => hd (hages.grows p hd')
    exact ⟨t, htoken.trans ht, hu⟩
  have hcareful : ∀ {t : LeaseTrans runId}, Careful (tr ++ [t]) → Careful tr :=
    fun hc t ht => hc t (List.mem_append_left _ ht)
  have hin : ∀ {t : Str}, t ∈ g.tokens → t ∈ g.tokens ∨ t ∉ m.used.map Prod.fst := .inl
  cases hmove with
  | @acquired _ pid identity token hnone hb =>
    obtain ⟨hme, hfresh⟩ := hok
    have hu : (token, g.me) ∈ m.used := (hsess.fresh token hfresh).1
    have htok : token ∈ g.tokens := by simp [Session.tokens, hfresh]
    refine h.step hg hrow ((LeaseMove.acquired hnone hb).leaseOk h.leaseOk) (fun t p ht hp => ?_)
      h.unique ⟨fun t ht => ?_, fun t ht => ?_, (hself rfl).view, (hself rfl).checked⟩
      (fun t ht => ?_) (fun q' g' hne hq' => ?_) (fun hsome => ?_) (fun _ _ => rfl)
      (.of_rows h.row hrow (fun p hp _ _ => ?_) fun p hsome hno => ?_)
    · cases ht
      cases hp
      show (token, (pid, identity)) ∈ m.used
      rw [hme]
      exact hu
    · cases ht
      exact ⟨hu, fun _ => rfl⟩
    · cases ht
    · have ht : t = token := by simpa [Session.tokens, Session.next, Session.nextAction] using ht
      exact .inl (ht ▸ htok)
    · have hs := h.sessions q' g' hq'
      have hmono : SessionOk ⟨s', dead, m.used⟩ r g' := hs.mono (fun _ hx => hx) hages.grows rfl
      refine ⟨fun t ht => ⟨(hs.lease t ht).1, fun halive => ?_⟩,
        fun t ht => ⟨(hs.fresh t ht).1, ?_⟩,
        hmono.view, hmono.checked⟩
      · have := (hmono.lease t ht).2 halive
        rw [hnone] at this
        cases this
      · intro heq
        cases heq
        exact hne (h.apart q' q g' g token hq' hg (by simp [Session.tokens, ht]) htok)
    · obtain ⟨p, hp, hheld⟩ := h.registered hsome
      refine ⟨p, by rw [registrar_snoc]; exact hp, fun hd => ?_⟩
      obtain ⟨t, ht, -⟩ := hheld fun hd' => hd (hages.grows p hd')
      rw [hnone] at ht
      cases ht
    · obtain ⟨t, ht⟩ := h.leaseOk.token hp
      rw [hnone] at ht
      cases ht
    · have hno : r.activeAgentPid = none := hno
      simp [hno] at hsome
  | @agentSet _ token agent htoken hnone hb =>
    have hu := (hsess.lease token hok).1
    refine h.step hg hrow ((LeaseMove.agentSet htoken hnone hb).leaseOk h.leaseOk) h.owned h.unique
      (hself rfl) (fun t ht => hin ht) (h.others_mono (fun _ hx => hx) hages.grows rfl)
      (fun _ => ⟨g.me, by rw [registrar_snoc]; rfl, fun _ => ⟨token, htoken, hu⟩⟩)
      (fun _ _ => ?_) (.of_rows h.row hrow (fun _ _ hne => absurd rfl hne) fun p hsome => ?_)
    · show r.processToken.isSome = true
      simp [htoken]
    · simp [hnone] at hsome
  | @agentCleared _ token identity pid hag =>
    obtain ⟨⟨htoken, hpid⟩, hid⟩ : (r.processToken = some token ∧ r.activeAgentPid = some pid) ∧
      r.activeAgentIdentity = some identity := by simpa [RunRow.hasAgent] using hag
    have hu := (hsess.lease token hok).1
    refine h.step hg hrow ((LeaseMove.agentCleared hag).leaseOk h.leaseOk) h.owned h.unique
      (hself rfl) (fun t ht => hin ht) (h.others_mono (fun _ hx => hx) hages.grows rfl)
      (fun hsome => ?_) (fun _ hsome => ?_)
      (.of_rows h.row hrow (fun _ _ hne => absurd rfl hne) fun p hsome _ hp hd => ?_)
    · cases hsome
    · cases hsome
    · exact congrArg some (h.owner_unique hu (hregistered p token hsome hp hd htoken))
  | agentKept token pid identity =>
    exact h.quiet hg hrow (fun _ hx => hx) hages.grows h.unique (hself rfl) (fun t ht => hin ht) rfl
  | @staleAgentCleared _ token identity pid hag =>
    obtain ⟨⟨htoken, hpid⟩, hid⟩ : (r.processToken = some token ∧ r.activeAgentPid = some pid) ∧
      r.activeAgentIdentity = some identity := by simpa [RunRow.hasAgent] using hag
    obtain ⟨v, hsaw, hv⟩ := hok
    obtain ⟨p', -, hdead, hu⟩ := hsess.stale hsaw hv
    refine h.step hg hrow ((LeaseMove.staleAgentCleared hag).leaseOk h.leaseOk) h.owned h.unique
      (hself rfl) (fun t ht => hin ht) (h.others_mono (fun _ hx => hx) hages.grows rfl)
      (fun hsome => ?_) (fun _ hsome => ?_)
      (.of_rows h.row hrow (fun _ _ hne => absurd rfl hne) fun p hsome _ hp hd => ?_)
    · cases hsome
    · cases hsome
    · obtain rfl := h.owner_unique hu (hregistered p token hsome hp hd htoken)
      exact absurd (hages.grows _ hdead) hd
  | @released _ token htoken hnone =>
    have hu := (hsess.lease token hok).1
    refine h.step hg hrow ((LeaseMove.released htoken hnone).leaseOk h.leaseOk)
      (fun t p ht => by cases ht) h.unique
      ⟨fun t ht => (by cases ht), fun t ht => ⟨(hsess.fresh t ht).1, fun heq => (by cases heq)⟩,
        (hself rfl).view, (hself rfl).checked⟩
      (fun t ht => ?_) (fun q' g' hne hq' => ?_) (fun hsome => ?_) (fun _ hsome => ?_)
      (.of_rows h.row hrow (fun p hp _ _ => ?_) fun p hsome => ?_)
    · refine .inl ?_
      simp only [Session.tokens, Session.next, Session.nextAction, Option.toList_none,
        List.nil_append] at ht
      exact List.mem_append_right _ ht
    · refine (h.sessions q' g' hq').cleared rfl hages.grows rfl fun t ht htok => ?_
      obtain rfl := Option.some.inj (htoken.symm.trans htok)
      exact absurd (h.apart q' q g' g token hq' hg (by simp [Session.tokens, ht])
        (by simp [Session.tokens, show g.lease = some token from hok])) hne
    · have hsome : r.activeAgentPid.isSome = true := hsome
      simp [hnone] at hsome
    · have hsome : r.activeAgentPid.isSome = true := hsome
      simp [hnone] at hsome
    · exact congrArg some (h.owner_unique hu (h.owned token p htoken hp))
    · simp [hnone] at hsome
  | @notReleased _ token hne =>
    exact absurd ((hsess.lease token hok).2 hlive) hne
  | @staleLeaseCleared _ pid identity token hpid hid htoken =>
    obtain ⟨v, hsaw, hrunner, hv⟩ := hok
    obtain ⟨p', hp', hdead, hu⟩ := hsess.stale hsaw hv
    obtain rfl := Option.some.inj (hrunner.symm.trans hp')
    refine h.step hg hrow ((LeaseMove.staleLeaseCleared hpid hid htoken).leaseOk h.leaseOk)
      (fun t p ht => by cases ht) h.unique
      (hsess.cleared rfl hages.grows rfl fun t ht htok => ?_)
      (fun t ht => hin ht) (fun q' g' hne hq' => ?_) (fun hsome => ?_) (fun hc hsome => ?_)
      (.of_rows h.row hrow (fun p hp _ hd => ?_) fun p hsome hno => ?_)
    · obtain rfl := Option.some.inj (htoken.symm.trans htok)
      exact absurd ((h.owner_unique hu (hsess.lease token ht).1) ▸ hdead) hlive
    · refine (h.sessions q' g' hq').cleared rfl hages.grows rfl fun t ht htok => ?_
      obtain rfl := Option.some.inj (htoken.symm.trans htok)
      have howner := h.owner_unique hu ((h.sessions q' g' hq').lease token ht).1
      exact hages.grows _ (howner ▸ hdead)
    · obtain ⟨p, hp, hheld⟩ := h.registered hsome
      refine ⟨p, by rw [registrar_snoc]; exact hp, fun hd => ?_⟩
      have hown := hregistered p token hsome hp hd htoken
      exact absurd (hages.grows _ (h.owner_unique hu hown ▸ hdead)) hd
    · have hno :=
        hc _ (List.mem_append_right _ List.mem_cons_self) q g.me pid identity token r rfl h.row
      have hsome : r.activeAgentPid.isSome = true := hsome
      simp [hno] at hsome
    · obtain rfl := h.owner_unique hu (h.owned token p htoken hp)
      exact absurd (hages.grows _ hdead) hd
    · have hno : r.activeAgentPid = none := hno
      simp [hno] at hsome

/-- **A step of the machine keeps the invariant.** -/
theorem LeaseInv.act (h : LeaseInv tr m r) (hg : session q tr = some g) (hok : g.ok op)
    (he : LeaseEffect runId m op res m') :
    ∃ r', LeaseInv (tr ++ [⟨m, .act q op res, m'⟩]) m' r' := by
  have hsess := h.sessions q g hg
  cases he with
  | @uuid4 me dead token hages hnew =>
    obtain ⟨rfl, -⟩ := hok
    have hmono : SessionOk ⟨m.store, dead, (token, g.me) :: m.used⟩ r g :=
      hsess.mono (fun _ hx => List.mem_cons_of_mem _ hx) hages.grows rfl
    refine ⟨r, h.quiet hg h.row (fun _ hx => List.mem_cons_of_mem _ hx) hages.grows
      (List.nodup_cons.2 ⟨hnew, h.unique⟩)
      ⟨hmono.lease, fun t ht => ?_, hmono.view, hmono.checked⟩ (fun t ht => ?_) rfl⟩
    · cases ht
      refine ⟨List.mem_cons_self, fun htoken => hnew ?_⟩
      obtain ⟨p, hp⟩ := h.leaseOk.runner htoken
      exact List.mem_map_of_mem (h.owned token p htoken hp)
    · rcases List.mem_append.1 ht with ht | ht
      · exact .inl (List.mem_append_left _ ht)
      · obtain rfl : t = token := by simpa [Session.next, Session.nextAction] using ht
        exact .inr hnew
  | @getRun me dead hages =>
    have hmono : SessionOk ⟨m.store, dead, m.used⟩ r g :=
      hsess.mono (fun _ hx => hx) hages.grows rfl
    rcases Tx.commit_cases (selectRun runId) m.store with ⟨e, he⟩ | ⟨v, s', he, hv⟩
    · rw [he]
      exact ⟨r, h.quiet hg h.row (fun _ hx => hx) hages.grows h.unique hmono
        (fun _ ht => .inl ht) rfl⟩
    · rw [he]
      obtain ⟨hv, -⟩ := selectRun_ok hv
      obtain rfl := Option.some.inj (h.row.symm.trans hv)
      refine ⟨r, h.quiet hg h.row (fun _ hx => hx) hages.grows h.unique
        ⟨hmono.lease, hmono.fresh, fun v hv => ?_, fun hc => (by cases hc)⟩
        (fun _ ht => .inl ht) rfl⟩
      cases hv
      exact ⟨h.leaseOk, h.owned⟩
  | @exec me dead lop hages =>
    rcases @exec_moves m.store runId lop r h.row with ⟨e, he⟩ | ⟨s', r', he, hrow, hmove⟩
    · rw [he]
      have hnext : g.next (me, .exec lop) (.error e) = g := by
        cases lop <;> rfl
      have hquiet :
          LeaseInv (tr ++ [⟨m, .act q (me, .exec lop) (.error e), ⟨m.store, dead, m.used⟩⟩])
          ⟨m.store, dead, m.used⟩ r := by
        refine h.quiet hg h.row (fun _ hx => hx) hages.grows h.unique ?_ (fun t ht => ?_) ?_
        · rw [hnext]
          exact hsess.mono (fun _ hx => hx) hages.grows rfl
        · rw [hnext] at ht
          exact .inl ht
        · cases lop <;> rfl
      exact ⟨r, hquiet⟩
    · rw [he]
      exact ⟨r', h.moved hg hok hages hrow hmove⟩
  | @processMatches me dead process hages =>
    have hmono : SessionOk ⟨m.store, dead, m.used⟩ r g :=
      hsess.mono (fun _ hx => hx) hages.grows rfl
    refine ⟨r, h.quiet hg h.row (fun _ hx => hx) hages.grows h.unique
      ⟨hmono.lease, hmono.fresh, hmono.view, fun hc => ?_⟩ (fun _ ht => .inl ht) rfl⟩
    rcases Bool.or_eq_true_iff.1 hc with hc | hc
    · exact hmono.checked hc
    · obtain ⟨hgone, hview⟩ : process ∈ dead ∧ g.view.bind RunRow.runner = some process := by
        simpa using hc
      obtain ⟨v, hv, hp⟩ := Option.bind_eq_some_iff.1 hview
      exact ⟨v, process, hv, hp, hgone⟩
  | @processMatchesRaises me dead process e hages =>
    have hmono : SessionOk ⟨m.store, dead, m.used⟩ r g :=
      hsess.mono (fun _ hx => hx) hages.grows rfl
    exact ⟨r, h.quiet hg h.row (fun _ hx => hx) hages.grows h.unique hmono
      (fun _ ht => .inl ht) rfl⟩
  | @agentContainmentConfirmed me dead run res hages =>
    have hmono : SessionOk ⟨m.store, dead, m.used⟩ r g :=
      hsess.mono (fun _ hx => hx) hages.grows rfl
    exact ⟨r, h.quiet hg h.row (fun _ hx => hx) hages.grows h.unique hmono
      (fun _ ht => .inl ht) rfl⟩

/-- A step of no process. -/
theorem LeaseInv.idle {e : Event (leaseSystem runId)} (h : LeaseInv tr m r)
    (hsession : ∀ q g, session q (tr ++ [⟨m, e, m⟩]) = some g →
      session q tr = some g ∨ g.tokens = [] ∧
      SessionOk m r g) (hreg : registrarAfter (registrar tr) e = registrar tr) :
    LeaseInv (tr ++ [⟨m, e, m⟩]) m r := by
  refine ⟨h.row, h.leaseOk, h.owned, h.unique, fun q g hq => ?_,
    fun q q' g g' t hq hq' ht ht' => ?_, fun hsome => ?_,
    fun hc => h.held fun t ht => hc t (List.mem_append_left _ ht), fun l t n hsplit => ?_⟩
  · rcases hsession q g hq with hold | ⟨-, hok⟩
    · exact h.sessions q g hold
    · exact hok
  · rcases hsession q g hq with hold | ⟨hnil, -⟩
    · rcases hsession q' g' hq' with hold' | ⟨hnil, -⟩
      · exact h.apart q q' g g' t hold hold' ht ht'
      · rw [hnil] at ht'
        cases ht'
    · rw [hnil] at ht
      cases ht
  · rw [registrar_snoc, hreg]
    exact h.registered hsome
  · rcases snoc_eq_split hsplit with ⟨rfl, rfl⟩ | ⟨n', hl⟩
    · exact .of_same h.row h.row
    · exact h.safe l t n' hl

/-- The run as it was created. -/
structure RunRow.Unleased (r : RunRow) : Prop where
  pid : r.pid = none
  identity : r.processIdentity = none
  token : r.processToken = none
  agent : r.activeAgentPid = none

/-- **Every run of the processes keeps the invariant.** -/
theorem leaseInv_run {s₀ : Store} {dead : List Process} {cfg : Cfg (leaseSystem runId)}
    (h : Run (leaseSystem runId) ⟨s₀, dead, []⟩ tr cfg) (hrow : s₀.1.run? runId = some r)
    (hnew : r.Unleased) : ∃ r', LeaseInv tr cfg.store r' := by
  refine Run.invariant (P := sessionProtocol) (i := Session.begin) (Q := fun _ _ _ => True)
    (J := fun tr (m : Machine) => ∃ r', LeaseInv tr m r') runner_follows ?_ ?_ ?_ ?_ h
  · refine ⟨r, hrow, ⟨.inl ⟨hnew.pid, hnew.identity, hnew.token⟩, .inl hnew.agent⟩,
      fun t p ht => ?_, List.nodup_nil, fun q g hq => (by cases hq),
        fun q q' g g' t hq => (by cases hq),
      fun hsome => ?_, fun _ hsome => ?_, fun l t n hsplit => ?_⟩
    · rw [hnew.token] at ht
      cases ht
    · simp [hnew.agent] at hsome
    · simp [hnew.agent] at hsome
    · simp at hsplit
  · rintro tr cfg q c - - ⟨r', hinv⟩
    refine ⟨r', hinv.idle (fun q' g hq' => ?_) rfl⟩
    by_cases e : q' = q
    · subst e
      obtain rfl := Option.some.inj ((ghost_start_self c).symm.trans hq')
      exact .inr ⟨rfl, fun t ht => (by cases ht), fun t ht => (by cases ht),
        fun v hv => (by cases hv),
        fun hc => (by cases hc)⟩
    · exact .inl ((ghost_start_other e).symm.trans hq')
  · rintro tr m q ⟨r', hinv⟩
    exact ⟨r', hinv.idle (fun q' g hq' => .inl (ghost_crash.symm.trans hq')) rfl⟩
  · rintro tr m q op res m' g ⟨r', hinv⟩ hg hok he
    exact hinv.act hg hok he

end invariant

/-! ## A resume -/

section resume

variable {runId token : Str} {contained : RunRow → Bool} {tr : List (LeaseTrans runId)}
  {m : Machine} {r : RunRow}

/-- The answers to one process that acts alone, where `contained` says of which rows the
containment of the agent is confirmed. -/
def answerAlone (runId token : Str) (contained : RunRow → Bool) (m : Machine) :
    (op : Process × LeaseAction) → Except StoreError op.2.Res × Machine
  | (me, .uuid4) => (.ok token, { m with used := (token, me) :: m.used })
  | (_, .getRun) => (((selectRun runId).commit m.store).1, m)
  | (_, .exec op) => ((op.exec runId m.store).1, { m with store := (op.exec runId m.store).2 })
  | (_, .processMatches process) => (.ok (decide (process ∉ m.dead)), m)
  | (_, .agentContainmentConfirmed run) => (.ok (contained run), m)

theorem run_awaitLease (me : Process) (action : LeaseAction) :
    (awaitLease me action).run (answerAlone runId token contained) m =
      answerAlone runId token contained m (me, action) :=
  Prog.run_perform ..

theorem run_identityOf {message : Str} (identity : Str) :
    (identityOf message (some identity)).run (answerAlone runId token contained) m =
      (.ok identity, m) := rfl

theorem run_processMatches {me p : Process} (h : p ∈ m.dead) :
    (awaitLease me (.processMatches p)).run (answerAlone runId token contained) m =
      (.ok false, m) := by
  rw [run_awaitLease]
  simp [answerAlone, h]

theorem run_staleRunner {me : Process} {pid : Int} {identity : Str} (hpid : r.pid = some pid)
    (hid : r.processIdentity = some identity) (hdead : (pid, identity) ∈ m.dead) :
    (staleRunner me r).run (answerAlone runId token contained) m =
      (.ok (some (pid, identity)), m) := by
  unfold staleRunner
  rw [hpid, hid]
  refine (Prog.run_bind_ok (run_identityOf identity)).trans ?_
  exact (Prog.run_bind_ok (run_processMatches hdead)).trans rfl

theorem run_clearStaleAgent {me : Process} {pid : Int} {identity t : Str}
    (hrow : m.store.1.run? runId = some r) (hpid : r.activeAgentPid = some pid)
    (hid : r.activeAgentIdentity = some identity) (ht : r.processToken = some t)
    (hdead : (pid, identity) ∈ m.dead) (hcontained : contained r = true)
    (hb : r.Bound [.text t, .int pid, .text identity]) :
    ∃ s', (clearStaleAgent me r).run (answerAlone runId token contained) m =
        (.ok (), { m with store := s' }) ∧ s'.1.run? runId = some r.agentCleared := by
  have hag : r.hasAgent t pid identity = true := by simp [RunRow.hasAgent, hpid, hid, ht]
  obtain ⟨s', hexec, hs'⟩ := clearStaleActiveAgent_commits hrow hag hb
  refine ⟨s', ?_, hs'⟩
  unfold clearStaleAgent
  rw [hpid, hid, ht]
  refine (Prog.run_bind_ok (run_identityOf identity)).trans ?_
  refine (Prog.run_bind_ok (run_processMatches hdead)).trans ?_
  refine (Prog.run_bind_ok (run_awaitLease me (.agentContainmentConfirmed r))).trans ?_
  simp only [hcontained]
  show (awaitLease me (.exec (.clearStaleActiveAgent t pid identity))).run _ m = _
  rw [run_awaitLease]
  unfold answerAlone
  simp only [hexec]
  rfl

/-- An agent whose containment is not confirmed is left as it is. -/
theorem run_clearStaleAgent_refused {me : Process} {pid : Int} {identity : Str}
    (hpid : r.activeAgentPid = some pid) (hid : r.activeAgentIdentity = some identity)
    (hdead : (pid, identity) ∈ m.dead) (hcontained : contained r = false) :
    (clearStaleAgent me r).run (answerAlone runId token contained) m =
      (.error (.runtimeError (str "registered launcher exited without " ++
        str "proven descendant containment")), m) := by
  unfold clearStaleAgent
  rw [hpid, hid]
  refine (Prog.run_bind_ok (run_identityOf identity)).trans ?_
  refine (Prog.run_bind_ok (run_processMatches hdead)).trans ?_
  refine (Prog.run_bind_ok (run_awaitLease me (.agentContainmentConfirmed r))).trans ?_
  simp only [hcontained]
  rfl

theorem run_clearStaleLease {me : Process} {pid : Int} {identity t : Str} {r₁ : RunRow}
    (hrow : m.store.1.run? runId = some r₁) (hpid : r₁.pid = some pid)
    (hid : r₁.processIdentity = some identity) (ht₁ : r₁.processToken = some t)
    (ht : r.processToken = some t) (hb : r₁.Bound [.int pid, .text identity, .text t]) :
    ∃ s', (clearStaleLease me r (some (pid, identity))).run (answerAlone runId token contained) m =
        (.ok (), { m with store := s' }) ∧ s'.1.run? runId = some r₁.released := by
  obtain ⟨s', hexec, hs'⟩ := clearStaleProcessLease_commits hrow hpid hid ht₁ hb
  refine ⟨s', ?_, hs'⟩
  unfold clearStaleLease
  rw [ht]
  show (awaitLease me (.exec (.clearStaleProcessLease pid identity t))).run _ m = _
  rw [run_awaitLease]
  unfold answerAlone
  simp only [hexec]
  rfl

/-- What a resume reads of a row with a lease and an agent, and that it goes on to clear them
where the runner has exited. -/
theorem LeaseInv.resumes (h : LeaseInv tr m r) {pid : Int} {identity t : Str}
    (hpid : r.activeAgentPid = some pid) (hid : r.activeAgentIdentity = some identity)
    (ht : r.processToken = some t) (hrunner : ∀ p, r.runner = some p → p ∈ m.dead)
    (me : Process) :
    ∃ rpid rid, r.pid = some rpid ∧ r.processIdentity = some rid ∧
      r.Bound [.text t, .int pid, .text identity] ∧ r.Bound [.int rpid, .text rid, .text t] ∧
      (clearStaleProcessState me).run (answerAlone runId token contained) m =
        (clearStaleAgent me r >>= fun _ => clearStaleLease me r (some (rpid, rid))).run
          (answerAlone runId token contained) m := by
  rcases h.leaseOk.lease with ⟨-, -, hnone⟩ | ⟨rpid, rid, t', hrpid, hrid, ht', hlease⟩
  · rw [hnone] at ht
    cases ht
  obtain rfl := Option.some.inj (ht.symm.trans ht')
  rcases h.leaseOk.agent with hnone | ⟨agent, hapid, haid, hb⟩
  · rw [hnone] at hpid
    cases hpid
  obtain rfl := Option.some.inj (hpid.symm.trans hapid)
  obtain rfl := Option.some.inj (hid.symm.trans haid)
  have hlease := bind_of_mem hlease
  have hb := bind_of_mem hb
  have hbound {params : List Param}
      (hsub : ∀ p ∈ params, p ∈ leaseParams rpid rid t ∨ p ∈ agent.params) : r.Bound params := by
    refine bindParams_of_mem fun p hp => ?_
    rcases List.mem_cons.1 hp with rfl | hp
    · exact hb _ List.mem_cons_self
    · exact (hsub p hp).elim (hlease p) fun hp => hb p (List.mem_cons_of_mem _ hp)
  have hread : (awaitLease me .getRun).run (answerAlone runId token contained) m = (.ok r, m) := by
    have hsel : selectRun runId m.store = .ok (r, m.store) := by
      refine bindAll_bind_ok.2 ⟨?_, ?_⟩
      · refine bindParams_of_mem fun p hp => ?_
        rw [List.mem_singleton.1 hp, ← run?_runId h.row]
        exact hb _ List.mem_cons_self
      · rw [Tx.query_bind]
        exact Tx.getOrThrow_ok.2 ⟨h.row, rfl⟩
    rw [run_awaitLease]
    unfold answerAlone
    simp only [Tx.commit_of_ok hsel]
    rfl
  have hdead : (rpid, rid) ∈ m.dead := hrunner _ (by simp [RunRow.runner, hrpid, hrid])
  refine ⟨rpid, rid, hrpid, hrid, hbound (by simp [leaseParams, Agent.params]),
    hbound (by simp [leaseParams]), ?_⟩
  exact (Prog.run_bind_ok hread).trans (Prog.run_bind_ok (run_staleRunner hrpid hrid hdead))

/-- **A resume clears what a crash has left**, where the lease is still there and the agent is
contained. -/
theorem LeaseInv.clears (h : LeaseInv tr m r) {pid : Int} {identity t : Str}
    (hpid : r.activeAgentPid = some pid) (hid : r.activeAgentIdentity = some identity)
    (ht : r.processToken = some t) (hagent : (pid, identity) ∈ m.dead)
    (hrunner : ∀ p, r.runner = some p → p ∈ m.dead) (hcontained : contained r = true)
    (me : Process) :
    ∃ m', (clearStaleProcessState me).run (answerAlone runId token contained) m = (.ok (), m') ∧
      m'.store.1.run? runId = some r.agentCleared.released := by
  obtain ⟨rpid, rid, hrpid, hrid, hba, hbl, hrun⟩ :=
    @LeaseInv.resumes runId token contained tr m r h _ _ _ hpid hid ht hrunner me
  obtain ⟨s₁, hagentRun, hrow₁⟩ := @run_clearStaleAgent runId token contained m r me _ _ t h.row
    hpid hid ht hagent hcontained hba
  obtain ⟨s₂, hleaseRun, hrow₂⟩ := @run_clearStaleLease runId token contained
    { m with store := s₁ } r me rpid rid t r.agentCleared hrow₁ hrpid hrid ht ht hbl
  exact ⟨{ m with store := s₂ }, hrun.trans ((Prog.run_bind_ok hagentRun).trans hleaseRun), hrow₂⟩

/-- And it clears nothing of an agent that is not. -/
theorem LeaseInv.refuses (h : LeaseInv tr m r) {pid : Int} {identity t : Str}
    (hpid : r.activeAgentPid = some pid) (hid : r.activeAgentIdentity = some identity)
    (ht : r.processToken = some t) (hagent : (pid, identity) ∈ m.dead)
    (hrunner : ∀ p, r.runner = some p → p ∈ m.dead) (hcontained : contained r = false)
    (me : Process) : ∃ e,
      (clearStaleProcessState me).run (answerAlone runId token contained) m = (.error e, m) := by
  obtain ⟨rpid, rid, -, -, -, -, hrun⟩ :=
    @LeaseInv.resumes runId token contained tr m r h _ _ _ hpid hid ht hrunner me
  exact ⟨_, hrun.trans (Prog.run_bind_error (run_clearStaleAgent_refused hpid hid hagent
    hcontained))⟩

end resume

/-! ## Safety -/

section

variable {runId : Str}

/-- What holds of the lease after every run. -/
structure LeaseSafe (tr : List (LeaseTrans runId)) (m : Machine) : Prop where
  /-- At most one live process believes that it holds the lease. -/
  oneHolder : ∀ q q' g g', session q tr = some g → session q' tr = some g' →
    g.lease.isSome = true → g'.lease.isSome = true → g.me ∉ m.dead → g'.me ∉ m.dead → q = q'
  /-- And it does hold it. -/
  stored : ∀ q g t, session q tr = some g → g.lease = some t → g.me ∉ m.dead →
    ∃ r, m.store.1.run? runId = some r ∧ r.processToken = some t ∧ r.runner = some g.me
  /-- No step clears what another live process has registered. -/
  kept : ∀ l t n, tr = l ++ t :: n → StepSafe l t

/-- An agent that is registered can be cleared once its runner and it have exited: exactly by
a resume that finds its containment confirmed. -/
structure AgentsClearable (runId : Str) (m : Machine) : Prop where
  held : ∀ r, m.store.1.run? runId = some r → r.activeAgentPid.isSome = true →
    r.processToken.isSome = true
  cleared : ∀ r pid identity, m.store.1.run? runId = some r → r.activeAgentPid = some pid →
    r.activeAgentIdentity = some identity → (pid, identity) ∈ m.dead →
    (∀ p, r.runner = some p → p ∈ m.dead) → ∀ me token contained,
      (∃ m', (clearStaleProcessState me).run (answerAlone runId token contained) m = (.ok (), m') ∧
        m'.store.1.run? runId = some r.agentCleared.released) ↔ contained r = true

/-- **The lease of a run**, for every run of its processes. Agents are registered only under
a lease, and can be cleared when contained, where no stale lease is cleared while an agent is
registered. -/
theorem process_lease {s₀ : Store} {dead : List Process} {r₀ : RunRow}
    {tr : List (LeaseTrans runId)} {cfg : Cfg (leaseSystem runId)}
    (h : Run (leaseSystem runId) ⟨s₀, dead, []⟩ tr cfg) (hrow : s₀.1.run? runId = some r₀)
    (hnew : r₀.Unleased) :
    LeaseSafe tr cfg.store ∧ (Careful tr → AgentsClearable runId cfg.store) := by
  obtain ⟨r, hinv⟩ := leaseInv_run h hrow hnew
  refine ⟨⟨fun q q' g g' hq hq' hl hl' hd hd' => ?_, fun q g t hq ht hd => ?_, hinv.safe⟩,
    fun hcareful => ⟨fun r' hr' hsome => ?_,
      fun r' pid identity hr' hpid hid hagent hrunner me token contained => ?_⟩⟩
  · obtain ⟨t, ht⟩ := Option.isSome_iff_exists.1 hl
    obtain ⟨t', ht'⟩ := Option.isSome_iff_exists.1 hl'
    have hstored := ((hinv.sessions q g hq).lease t ht).2 hd
    have hstored' := ((hinv.sessions q' g' hq').lease t' ht').2 hd'
    obtain rfl := Option.some.inj (hstored.symm.trans hstored')
    exact hinv.apart q q' g g' t hq hq' (by simp [Session.tokens, ht])
      (by simp [Session.tokens, ht'])
  · obtain ⟨hu, hstored⟩ := (hinv.sessions q g hq).lease t ht
    obtain ⟨p, hp⟩ := hinv.leaseOk.runner (hstored hd)
    obtain rfl := hinv.owner_unique hu (hinv.owned t p (hstored hd) hp)
    exact ⟨r, hinv.row, hstored hd, hp⟩
  · obtain rfl := Option.some.inj (hinv.row.symm.trans hr')
    exact hinv.held hcareful hsome
  · obtain rfl := Option.some.inj (hinv.row.symm.trans hr')
    obtain ⟨t, ht⟩ := Option.isSome_iff_exists.1 (hinv.held hcareful (by rw [hpid]; rfl))
    refine ⟨?_, fun hcontained => hinv.clears hpid hid ht hagent hrunner hcontained me⟩
    rintro ⟨m', hclears, -⟩
    cases hcontained : contained r with
    | true => rfl
    | false =>
      obtain ⟨e, hrefused⟩ := @LeaseInv.refuses runId token contained _ _ _ hinv _ _ _ hpid hid ht
        hagent hrunner hcontained me
      rw [hrefused] at hclears
      cases hclears

end

/-! ## Sample runs -/

def sampleRunId : Str := str "run"

/-- A run as it was created, after transactions on its lease. -/
def leasedStore (ops : List LeaseOp) : Store :=
  ops.foldl (fun s op => (op.exec sampleRunId s).2)
    (runOps Store.empty [.createRun sampleRunId sampleTask (str "t.json") (str "b") (str "w") 2])

def sampleRow : RunRow := .new sampleRunId sampleTask (str "t.json") (str "b") (str "w") 2

/-- A runner that launches an agent, and one that clears what it finds. -/
def sampleOwner : Runner :=
  ⟨(1, str "a"), .acquireProcessLease fun _ => .setActiveAgent
    ⟨3, str "c", str "p", str "n"⟩ fun _ => .done⟩

def sampleResumer : Runner := ⟨(2, str "b"), .clearStaleProcessState fun _ => .done⟩

def acquireSample : LeaseOp := .acquireProcessLease 1 (str "a") (str "t")

def registerSample : LeaseOp := .setActiveAgent (str "t") ⟨3, str "c", str "p", str "n"⟩

def clearSample : LeaseOp := .clearStaleProcessLease 1 (str "a") (str "t")

theorem sampleRow_unleased : sampleRow.Unleased := ⟨rfl, rfl, rfl, rfl⟩

/-- The runner and its agent. -/
def sampleGone : List Process := [(1, str "a"), (3, str "c")]

def sampleTokens : List (Str × Process) := [(str "t", (1, str "a"))]

theorem LeaseEffect.exec_ok {runId : Str} {m : Machine} {me : Process} {dead : List Process}
    {op : LeaseOp} (h : (op.exec runId m.store).1 = .ok ()) (hages : Ages me m.dead dead) :
    LeaseEffect runId m (me, .exec op) (.ok ()) ⟨(op.exec runId m.store).2, dead, m.used⟩ :=
  h ▸ .exec op hages

theorem sampleAlive {me : Process} {dead : List Process} (h : me ∉ dead) : Ages me dead dead :=
  ⟨fun _ hp => hp, h⟩

theorem sample_uuid4 : LeaseEffect sampleRunId ⟨leasedStore [], [], []⟩ ((1, str "a"), .uuid4)
    (.ok (str "t")) ⟨leasedStore [], [], sampleTokens⟩ :=
  .uuid4 (sampleAlive (by simp)) (by simp)

theorem sample_acquire : LeaseEffect sampleRunId ⟨leasedStore [], [], sampleTokens⟩
    ((1, str "a"), .exec acquireSample) (.ok ())
    ⟨leasedStore [acquireSample], [], sampleTokens⟩ :=
  .exec_ok (by decide +kernel) (sampleAlive (by simp))

theorem sample_register : LeaseEffect sampleRunId ⟨leasedStore [acquireSample], [], sampleTokens⟩
    ((1, str "a"), .exec registerSample) (.ok ())
    ⟨leasedStore [acquireSample, registerSample], [], sampleTokens⟩ :=
  .exec_ok (by decide +kernel) (sampleAlive (by simp))

/-- The runner takes the lease and registers its agent. -/
theorem sampleLease : ∃ tr cfg, Run (leaseSystem sampleRunId) ⟨leasedStore [], [], []⟩ tr cfg ∧
    cfg.store.store = leasedStore [acquireSample, registerSample] ∧ Careful tr := by
  have h₁ := Run.start (A := leaseSystem sampleRunId) 0 sampleOwner
    (Run.nil : Run (leaseSystem sampleRunId) ⟨leasedStore [], [], []⟩ [] _) rfl
  have h₂ := Run.act h₁ (rfl : Cfg.procs _ 0 = some ⟨sampleOwner, some (.call _ _)⟩) sample_uuid4
  have h₃ := Run.act h₂ (rfl : Cfg.procs _ 0 = some ⟨sampleOwner, some (.call _ _)⟩) sample_acquire
  have h₄ := Run.act h₃ (rfl : Cfg.procs _ 0 = some ⟨sampleOwner, some (.call _ _)⟩) sample_register
  refine ⟨_, _, h₄, rfl, fun t ht q me pid identity token r he => ?_⟩
  simp only [List.nil_append, List.cons_append, List.mem_cons, List.not_mem_nil, or_false] at ht
  rcases ht with rfl | rfl | rfl | rfl <;> cases he

theorem process_lease_sample :
    ∃ (tr : List (LeaseTrans sampleRunId)) (cfg : Cfg (leaseSystem sampleRunId)),
    ((cfg.store.store.1.run? sampleRunId).map (·.activeAgentPid)) = some (some 3) ∧
      LeaseSafe tr cfg.store ∧ AgentsClearable sampleRunId cfg.store := by
  obtain ⟨tr, cfg, hrun, hstore, hcareful⟩ := sampleLease
  have hrow : (leasedStore []).1.run? sampleRunId = some sampleRow := by decide +kernel
  obtain ⟨hsafe, hclear⟩ := process_lease hrun hrow sampleRow_unleased
  exact ⟨tr, cfg, by rw [hstore]; decide +kernel, hsafe, hclear hcareful⟩

/-- The runner registers its agent after another process has read the row, and exits before
that process looks for it: the lease is cleared from under the agent, and no resume can
clear the agent any more. -/
theorem agent_stranded : ∃ tr cfg r, Run (leaseSystem sampleRunId) ⟨leasedStore [], [], []⟩ tr cfg ∧
    cfg.store.store.1.run? sampleRunId = some r ∧ r.activeAgentPid = some 3 ∧
    r.processToken = none ∧ (3, str "c") ∈ cfg.store.dead ∧ (1, str "a") ∈ cfg.store.dead ∧
    ((clearStaleProcessState (4, str "d")).run
      (answerAlone sampleRunId (str "u") fun _ => true) cfg.store).1 =
      .error (.runtimeError (str "stale agent process has no matching runner lease")) := by
  have hread : LeaseEffect sampleRunId ⟨leasedStore [acquireSample], [], sampleTokens⟩
      ((2, str "b"), .getRun) (.ok (sampleRow.acquired 1 (str "a") (str "t")))
      ⟨leasedStore [acquireSample], [], sampleTokens⟩ := by
    have hrow : ((selectRun sampleRunId).commit (leasedStore [acquireSample])).1 =
        .ok (sampleRow.acquired 1 (str "a") (str "t")) := by decide +kernel
    exact hrow ▸ LeaseEffect.getRun (m := ⟨leasedStore [acquireSample], [], sampleTokens⟩)
      (sampleAlive (by simp))
  have hgone : LeaseEffect sampleRunId
      ⟨leasedStore [acquireSample, registerSample], [], sampleTokens⟩
      ((2, str "b"), .processMatches (1, str "a")) (.ok false)
      ⟨leasedStore [acquireSample, registerSample], sampleGone, sampleTokens⟩ := by
    have hages : Ages (2, str "b") [] sampleGone :=
      ⟨fun _ h => absurd h List.not_mem_nil, by decide +kernel⟩
    have hdead : decide ((1, str "a") ∉ sampleGone) = false := by decide +kernel
    exact hdead ▸ LeaseEffect.processMatches
      (m := ⟨leasedStore [acquireSample, registerSample], [], sampleTokens⟩) (1, str "a") hages
  have hclear : LeaseEffect sampleRunId
      ⟨leasedStore [acquireSample, registerSample], sampleGone, sampleTokens⟩
      ((2, str "b"), .exec clearSample) (.ok ())
      ⟨leasedStore [acquireSample, registerSample, clearSample], sampleGone, sampleTokens⟩ :=
    .exec_ok (by decide +kernel) (sampleAlive (by decide +kernel))
  have h₁ := Run.start (A := leaseSystem sampleRunId) 0 sampleOwner
    (Run.nil : Run (leaseSystem sampleRunId) ⟨leasedStore [], [], []⟩ [] _) rfl
  have h₂ := Run.act h₁ (rfl : Cfg.procs _ 0 = some ⟨sampleOwner, some (.call _ _)⟩) sample_uuid4
  have h₃ := Run.act h₂ (rfl : Cfg.procs _ 0 = some ⟨sampleOwner, some (.call _ _)⟩) sample_acquire
  have h₄ := Run.start 1 sampleResumer h₃ rfl
  have h₅ := Run.act h₄ (rfl : Cfg.procs _ 1 = some ⟨sampleResumer, some (.call _ _)⟩) hread
  have h₆ := Run.act h₅ (rfl : Cfg.procs _ 0 = some ⟨sampleOwner, some (.call _ _)⟩) sample_register
  have h₇ := Run.crash h₆ (rfl : Cfg.procs _ 0 = some ⟨sampleOwner, some _⟩)
  have h₈ := Run.act h₇ (rfl : Cfg.procs _ 1 = some ⟨sampleResumer, some (.call _ _)⟩) hgone
  have h₉ := Run.act h₈ (rfl : Cfg.procs _ 1 = some ⟨sampleResumer, some (.call _ _)⟩) hclear
  have hrow : (leasedStore [acquireSample, registerSample, clearSample]).1.run? sampleRunId =
      some ((sampleRow.acquired 1 (str "a") (str "t")).agentSet
        ⟨3, str "c", str "p", str "n"⟩).released := by decide +kernel
  exact ⟨_, _, _, h₉, hrow, rfl, rfl, by decide +kernel, by decide +kernel, by decide +kernel⟩

end NyanShopBot.Orchestrator
