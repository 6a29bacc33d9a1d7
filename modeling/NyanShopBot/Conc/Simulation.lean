import NyanShopBot.Conc.System

/-!
# The same programs over another store

`System.over` runs the programs of a system over another store, whose operations
answer by `eff`. `Run.simulates` carries a run over: where each step that the run
takes is matched by `eff` from related stores, the same events happen in the same
order, and every process is where it was.
-/

namespace Conc

variable {S : Sig} {ε σ : Type}

/-- The programs of `A` over the store `σ`. -/
abbrev System.over (A : System S ε) (σ : Type)
    (eff : σ → (op : S.Op) → Except ε (S.Res op) → σ → Prop) : System S ε where
  Store := σ
  Call := A.Call
  Out := A.Out
  body := A.body
  eff := eff

variable {A : System S ε} {eff : σ → (op : S.Op) → Except ε (S.Res op) → σ → Prop}

/-- An event, for the system over another store. -/
def Event.over : Event A → Event (A.over σ eff)
  | .start pid c => .start pid c
  | .act pid op r => .act pid op r
  | .crash pid => .crash pid

/-- A process, for the system over another store. -/
def Proc.over (p : Proc A) : Proc (A.over σ eff) := ⟨p.call, p.rest⟩

/-- Every process is at the same place of its program. -/
def Cfg.SamePlaces (cfg : Cfg A) (cfg' : Cfg (A.over σ eff)) : Prop :=
  ∀ pid, cfg'.procs pid = (cfg.procs pid).map Proc.over

theorem Cfg.SamePlaces.result? {cfg : Cfg A} {cfg' : Cfg (A.over σ eff)}
    (h : cfg.SamePlaces cfg') (pid : Nat) : cfg'.result? pid = cfg.result? pid := by
  unfold Cfg.result?
  rw [h pid]
  cases cfg.procs pid with
  | none => rfl
  | some p =>
    obtain ⟨c, rest⟩ := p
    cases rest with
    | none => rfl
    | some p => cases p <;> rfl

/-- One process moves in both. -/
theorem Cfg.SamePlaces.update {cfg : Cfg A} {cfg' : Cfg (A.over σ eff)} {s : A.Store} {m : σ}
    (h : cfg.SamePlaces cfg') (pid : Nat) (p : Proc A) :
    Cfg.SamePlaces ⟨s, Function.update cfg.procs pid (some p)⟩
      (⟨m, Function.update cfg'.procs pid (some p.over)⟩ : Cfg (A.over σ eff)) := by
  intro q
  by_cases e : q = pid
  · subst e
    simp
  · simpa [Function.update_of_ne e] using h q

/-- What a run over the other store shares with a run of `A`. -/
structure Matches (R : A.Store → σ → Prop) (m₀ : σ) (tr : List (Trans A)) (cfg : Cfg A)
    (tr' : List (Trans (A.over σ eff))) (cfg' : Cfg (A.over σ eff)) : Prop where
  run : Run (A.over σ eff) m₀ tr' cfg'
  events : tr'.map (·.event) = tr.map (·.event.over)
  store : R cfg.store cfg'.store
  places : cfg.SamePlaces cfg'

theorem Matches.events_snoc {R : A.Store → σ → Prop} {m₀ : σ} {tr : List (Trans A)} {cfg : Cfg A}
    {tr' : List (Trans (A.over σ eff))} {cfg' : Cfg (A.over σ eff)} {t : Trans A}
    {t' : Trans (A.over σ eff)} (h : Matches R m₀ tr cfg tr' cfg') (ht : t'.event = t.event.over) :
    (tr' ++ [t']).map (·.event) = (tr ++ [t]).map (·.event.over) := by
  rw [List.map_append, List.map_append, h.events]
  simp [ht]

/-- **A run is carried over step by step.** -/
theorem Run.simulates {R : A.Store → σ → Prop} {Allowed : Trans A → Prop} {s₀ : A.Store} {m₀ : σ}
    {tr : List (Trans A)} {cfg : Cfg A} (h₀ : R s₀ m₀)
    (hstep : ∀ {s s' : A.Store} {m : σ} {pid : Nat} {op : S.Op} {r : Except ε (S.Res op)},
      R s m → A.eff s op r s' → Allowed ⟨s, .act pid op r, s'⟩ → ∃ m', eff m op r m' ∧ R s' m')
    (h : Run A s₀ tr cfg) (hall : ∀ t ∈ tr, Allowed t) :
    ∃ (tr' : List (Trans (A.over σ eff))) (cfg' : Cfg (A.over σ eff)),
      Matches R m₀ tr cfg tr' cfg' := by
  induction h with
  | nil => exact ⟨[], ⟨m₀, fun _ => none⟩, .nil, rfl, h₀, fun _ => rfl⟩
  | @start tr cfg pid c hrun hfree ih =>
    obtain ⟨tr', cfg', hm⟩ := ih fun t ht => hall t (List.mem_append_left _ ht)
    have hfree' : cfg'.procs pid = none := by rw [hm.places pid, hfree]; rfl
    have hrun' := Run.start (A := A.over σ eff) pid c hm.run hfree'
    exact ⟨_, _, hrun', hm.events_snoc rfl, hm.store, hm.places.update pid ⟨c, some (A.body c)⟩⟩
  | @act tr cfg pid c op k r s' hrun hp he ih =>
    obtain ⟨tr', cfg', hm⟩ := ih fun t ht => hall t (List.mem_append_left _ ht)
    have hp' : cfg'.procs pid = some ⟨c, some (.call op k)⟩ := by rw [hm.places pid, hp]; rfl
    obtain ⟨m', he', hR⟩ := hstep hm.store he (hall _ (List.mem_append_right _ List.mem_cons_self))
    have hrun' := Run.act (A := A.over σ eff) hm.run hp' he'
    exact ⟨_, _, hrun', hm.events_snoc rfl, hR, hm.places.update pid ⟨c, some (k r)⟩⟩
  | @crash tr cfg pid c p hrun hp ih =>
    obtain ⟨tr', cfg', hm⟩ := ih fun t ht => hall t (List.mem_append_left _ ht)
    have hp' : cfg'.procs pid = some ⟨c, some p⟩ := by rw [hm.places pid, hp]; rfl
    have hrun' := Run.crash (A := A.over σ eff) hm.run hp'
    exact ⟨_, _, hrun', hm.events_snoc rfl, hm.store, hm.places.update pid ⟨c, none⟩⟩

end Conc
