import Mathlib.Data.List.Induction
import NyanShopBot.Conc.Prog

/-!
# Concurrent runs over one store

A `System` runs any number of processes over one store. A process executes the
program of the call it was started with; each of its operations is one atomic
step of the store, `eff`, and a process can stop for good between any two steps.
`Run` collects the steps as a trace of `Trans`. A protocol that every program
follows holds along every run (`Run.follows`), so an invariant of the store and
the trace needs only one step that is in order (`Run.invariant`).
-/

namespace Conc

structure System (S : Sig) (ε : Type) where
  Store : Type
  Call : Type
  Out : Type
  body : Call → Prog S ε Out
  /-- The result and the next store an operation can have. -/
  eff : Store → (op : S.Op) → Except ε (S.Res op) → Store → Prop

variable {S : Sig} {ε : Type}

/-- A process: its call and the rest of its program, none after a crash. -/
structure Proc (A : System S ε) where
  call : A.Call
  rest : Option (Prog S ε A.Out)

structure Cfg (A : System S ε) where
  store : A.Store
  procs : Nat → Option (Proc A)

/-- What a process that has ended returned or raised. -/
def Cfg.result? {A : System S ε} (cfg : Cfg A) (pid : Nat) : Option (Except ε A.Out) :=
  match cfg.procs pid with
  | some ⟨_, some (.ret a)⟩ => some (.ok a)
  | some ⟨_, some (.raise e)⟩ => some (.error e)
  | _ => none

theorem Cfg.result?_eq {A : System S ε} {cfg : Cfg A} {pid : Nat} {out : Except ε A.Out}
    (h : cfg.result? pid = some out) : ∃ c, cfg.procs pid = some ⟨c, some (.ofExcept out)⟩ := by
  unfold Cfg.result? at h
  split at h
  · next c a hp => cases h; exact ⟨c, hp⟩
  · next c e hp => cases h; exact ⟨c, hp⟩
  · cases h

/-- The process has a step left to take. -/
def Cfg.Live {A : System S ε} (cfg : Cfg A) (pid : Nat) : Prop :=
  ∃ c op k, cfg.procs pid = some ⟨c, some (.call op k)⟩

/-- A step of another process does not matter for one that is live after it. -/
theorem Cfg.Live.of_update {A : System S ε} {s s' : A.Store} {procs : Nat → Option (Proc A)}
    {pid q : Nat} {pr : Option (Proc A)} (hq : q ≠ pid)
    (h : Cfg.Live (A := A) ⟨s', Function.update procs pid pr⟩ q) :
    Cfg.Live (A := A) ⟨s, procs⟩ q := by
  obtain ⟨c, op, k, hp⟩ := h
  exact ⟨c, op, k, by simpa [Function.update_of_ne hq] using hp⟩

inductive Event (A : System S ε) where
  | start (pid : Nat) (call : A.Call)
  | act (pid : Nat) (op : S.Op) (r : Except ε (S.Res op))
  | crash (pid : Nat)

structure Trans (A : System S ε) where
  pre : A.Store
  event : Event A
  post : A.Store

/-- **A run** from `s₀`, with its trace and the configuration it reaches. -/
inductive Run (A : System S ε) (s₀ : A.Store) : List (Trans A) → Cfg A → Prop where
  | nil : Run A s₀ [] ⟨s₀, fun _ => none⟩
  | start {tr : List (Trans A)} {cfg : Cfg A} (pid : Nat) (c : A.Call) :
      Run A s₀ tr cfg → cfg.procs pid = none →
      Run A s₀ (tr ++ [⟨cfg.store, .start pid c, cfg.store⟩])
        ⟨cfg.store, Function.update cfg.procs pid (some ⟨c, some (A.body c)⟩)⟩
  | act {tr : List (Trans A)} {cfg : Cfg A} {pid : Nat} {c : A.Call} {op : S.Op}
      {k : Except ε (S.Res op) → Prog S ε A.Out} {r : Except ε (S.Res op)} {s' : A.Store} :
      Run A s₀ tr cfg → cfg.procs pid = some ⟨c, some (.call op k)⟩ → A.eff cfg.store op r s' →
      Run A s₀ (tr ++ [⟨cfg.store, .act pid op r, s'⟩])
        ⟨s', Function.update cfg.procs pid (some ⟨c, some (k r)⟩)⟩
  | crash {tr : List (Trans A)} {cfg : Cfg A} {pid : Nat} {c : A.Call} {p : Prog S ε A.Out} :
      Run A s₀ tr cfg → cfg.procs pid = some ⟨c, some p⟩ →
      Run A s₀ (tr ++ [⟨cfg.store, .crash pid, cfg.store⟩])
        ⟨cfg.store, Function.update cfg.procs pid (some ⟨c, none⟩)⟩

section ghost

variable {A : System S ε} (P : Protocol S ε) (i : A.Call → P.G)

/-- How one event moves the ghost state of process `pid`. -/
def ghostStep (pid : Nat) (g : Option P.G) : Event A → Option P.G
  | .start q c => if q = pid then some (i c) else g
  | .act q op r => if q = pid then g.map (P.next · op r) else g
  | .crash _ => g

/-- The ghost state of process `pid` after the trace, none before its start. -/
def ghost (pid : Nat) (tr : List (Trans A)) : Option P.G :=
  tr.foldl (fun g t => ghostStep P i pid g t.event) none

@[simp] theorem ghost_nil (pid : Nat) : ghost P i pid ([] : List (Trans A)) = none := rfl

@[simp] theorem ghost_snoc (pid : Nat) (tr : List (Trans A)) (t : Trans A) :
    ghost P i pid (tr ++ [t]) = ghostStep P i pid (ghost P i pid tr) t.event := by
  simp [ghost]

theorem ghostStep_other {pid q : Nat} (h : q ≠ pid) {g : Option P.G} {op : S.Op}
    {r : Except ε (S.Res op)} : ghostStep P i pid g (.act (A := A) q op r) = g := by
  simp [ghostStep, h]

section

variable {P i} {tr : List (Trans A)} {pid q : Nat} {op : S.Op} {r : Except ε (S.Res op)}
  {s s' : A.Store}

theorem ghost_act_self {g : P.G} (h : ghost P i pid tr = some g) :
    ghost P i pid (tr ++ [⟨s, .act pid op r, s'⟩]) = some (P.next g op r) := by
  rw [ghost_snoc, h, ghostStep, if_pos rfl]
  rfl

theorem ghost_act_other (h : q ≠ pid) :
    ghost P i q (tr ++ [⟨s, .act pid op r, s'⟩]) = ghost P i q tr := by
  rw [ghost_snoc]
  exact ghostStep_other P i (Ne.symm h)

theorem ghost_start_self (c : A.Call) :
    ghost P i pid (tr ++ [⟨s, .start pid c, s'⟩]) = some (i c) := by
  rw [ghost_snoc, ghostStep, if_pos rfl]

theorem ghost_start_other {c : A.Call} (h : q ≠ pid) :
    ghost P i q (tr ++ [⟨s, .start pid c, s'⟩]) = ghost P i q tr := by
  rw [ghost_snoc, ghostStep, if_neg (Ne.symm h)]

theorem ghost_crash : ghost P i q (tr ++ [⟨s, .crash pid, s'⟩]) = ghost P i q tr := by
  rw [ghost_snoc]
  rfl

end

end ghost

section run

variable {A : System S ε} {s₀ : A.Store} {tr : List (Trans A)} {cfg : Cfg A}
variable {P : Protocol S ε} {i : A.Call → P.G} {Q : A.Call → P.G → Except ε A.Out → Prop}

/-- **Every process follows the protocol of its program.** -/
theorem Run.follows (hbody : ∀ c, wp P (Q c) (i c) (A.body c)) (h : Run A s₀ tr cfg) :
    ∀ {pid : Nat} {c : A.Call} {p : Prog S ε A.Out}, cfg.procs pid = some ⟨c, some p⟩ →
      ∃ g, ghost P i pid tr = some g ∧ wp P (Q c) g p := by
  induction h with
  | nil => intro pid c p hp; cases hp
  | @start tr cfg q c _ hq ih =>
    intro pid c' p hp
    by_cases e : pid = q
    · subst e
      obtain ⟨rfl, rfl⟩ : c = c' ∧ A.body c = p := by simpa using hp
      exact ⟨i c, by simp [ghostStep], hbody c⟩
    · obtain ⟨g, hg, hw⟩ := ih (by simpa [Function.update_of_ne e] using hp)
      exact ⟨g, by simp [ghostStep, Ne.symm e, hg], hw⟩
  | @act tr cfg q c op k r s' _ hq _ ih =>
    intro pid c' p hp
    by_cases e : pid = q
    · subst e
      obtain ⟨rfl, rfl⟩ : c = c' ∧ k r = p := by simpa using hp
      obtain ⟨g, hg, hw⟩ := ih hq
      exact ⟨P.next g op r, by simp [ghostStep, hg], hw.2 r⟩
    · obtain ⟨g, hg, hw⟩ := ih (by simpa [Function.update_of_ne e] using hp)
      exact ⟨g, by simp [ghostStep, Ne.symm e, hg], hw⟩
  | @crash tr cfg q c p' _ hq ih =>
    intro pid c' p hp
    by_cases e : pid = q
    · subst e; simp at hp
    · obtain ⟨g, hg, hw⟩ := ih (by simpa [Function.update_of_ne e] using hp)
      exact ⟨g, by simp [ghostStep, hg], hw⟩

/-- A process that has ended has done what its protocol demands. -/
theorem Run.ended (hbody : ∀ c, wp P (Q c) (i c) (A.body c)) (h : Run A s₀ tr cfg) {pid : Nat}
    {out : Except ε A.Out} (hout : cfg.result? pid = some out) :
    ∃ c g, ghost P i pid tr = some g ∧ Q c g out := by
  obtain ⟨c, hp⟩ := Cfg.result?_eq hout
  obtain ⟨g, hg, hw⟩ := h.follows hbody hp
  exact ⟨c, g, hg, wp_ofExcept.1 hw⟩

/-- A step that a process can take is in order. -/
theorem Run.act_ok (hbody : ∀ c, wp P (Q c) (i c) (A.body c)) (h : Run A s₀ tr cfg)
    {pid : Nat} {c : A.Call} {op : S.Op} {k : Except ε (S.Res op) → Prog S ε A.Out}
    (hp : cfg.procs pid = some ⟨c, some (.call op k)⟩) :
    ∃ g, ghost P i pid tr = some g ∧ P.ok g op := by
  obtain ⟨g, hg, hw⟩ := h.follows hbody hp
  exact ⟨g, hg, hw.1⟩

/-- A process that has not started has no ghost state. -/
theorem Run.ghost_none (h : Run A s₀ tr cfg) {pid : Nat} (hp : cfg.procs pid = none) :
    ghost P i pid tr = none := by
  induction h with
  | nil => rfl
  | @start tr cfg q c _ _ ih =>
    by_cases e : pid = q
    · subst e; simp at hp
    · simp [ghostStep, Ne.symm e, ih (by simpa [Function.update_of_ne e] using hp)]
  | @act tr cfg q c op k r s' _ _ _ ih =>
    by_cases e : pid = q
    · subst e; simp at hp
    · simp [ghostStep, Ne.symm e, ih (by simpa [Function.update_of_ne e] using hp)]
  | @crash tr cfg q c p _ _ ih =>
    by_cases e : pid = q
    · subst e; simp at hp
    · simp [ghostStep, ih (by simpa [Function.update_of_ne e] using hp)]

/-- A transition is a step of a process, or it leaves the store as it is. -/
theorem Run.act_or_still (h : Run A s₀ tr cfg) {t : Trans A} (ht : t ∈ tr) :
    (∃ pid op r, t.event = .act pid op r) ∨ t.post = t.pre := by
  induction h with
  | nil => cases ht
  | start pid c _ _ ih =>
    rcases List.mem_append.1 ht with ht | ht
    · exact ih ht
    · obtain rfl := List.mem_singleton.1 ht
      exact .inr rfl
  | act _ _ _ ih =>
    rcases List.mem_append.1 ht with ht | ht
    · exact ih ht
    · obtain rfl := List.mem_singleton.1 ht
      exact .inl ⟨_, _, _, rfl⟩
  | crash _ _ ih =>
    rcases List.mem_append.1 ht with ht | ht
    · exact ih ht
    · obtain rfl := List.mem_singleton.1 ht
      exact .inr rfl

/-- A process that has crashed takes no step. -/
theorem Run.crashed (h : Run A s₀ tr cfg) {pid : Nat} (hc : ∃ t ∈ tr, t.event = .crash pid) :
    ∃ c, cfg.procs pid = some ⟨c, none⟩ := by
  induction h with
  | nil =>
    obtain ⟨t, ht, -⟩ := hc
    cases ht
  | @start tr cfg q c' _ hq ih =>
    obtain ⟨t, ht, he⟩ := hc
    rcases List.mem_append.1 ht with ht | ht
    · obtain ⟨c, hp⟩ := ih ⟨t, ht, he⟩
      have hne : pid ≠ q := fun e => by
        rw [e, hq] at hp
        cases hp
      exact ⟨c, by simpa [Function.update_of_ne hne] using hp⟩
    · obtain rfl := List.mem_singleton.1 ht
      cases he
  | @act tr cfg q c' op k r s' _ hq _ ih =>
    obtain ⟨t, ht, he⟩ := hc
    rcases List.mem_append.1 ht with ht | ht
    · obtain ⟨c, hp⟩ := ih ⟨t, ht, he⟩
      have hne : pid ≠ q := fun e => by
        rw [e, hq] at hp
        cases hp
      exact ⟨c, by simpa [Function.update_of_ne hne] using hp⟩
    · obtain rfl := List.mem_singleton.1 ht
      cases he
  | @crash tr cfg q c' p _ hq ih =>
    by_cases hne : pid = q
    · exact ⟨c', by simp [hne]⟩
    · obtain ⟨t, ht, he⟩ := hc
      rcases List.mem_append.1 ht with ht | ht
      · obtain ⟨c, hp⟩ := ih ⟨t, ht, he⟩
        exact ⟨c, by simpa [Function.update_of_ne hne] using hp⟩
      · obtain rfl := List.mem_singleton.1 ht
        cases he
        exact absurd rfl hne

theorem Run.not_live_of_crash (h : Run A s₀ tr cfg) {pid : Nat}
    (hc : ∃ t ∈ tr, t.event = .crash pid) : ¬ cfg.Live pid := by
  rintro ⟨c, op, k, hp⟩
  obtain ⟨c', hp'⟩ := h.crashed hc
  rw [hp'] at hp
  cases hp

/-- A transition of an extended trace is the last one or one of the trace. -/
theorem snoc_eq_split {α : Type} {l m tr : List α} {t u : α} (h : tr ++ [u] = l ++ t :: m) :
    (tr = l ∧ u = t) ∨ ∃ m', tr = l ++ t :: m' := by
  rcases List.eq_nil_or_concat m with rfl | ⟨m', v, rfl⟩
  · exact .inl (by simpa using List.append_inj' h rfl)
  · rw [List.concat_eq_append, ← List.cons_append, ← List.append_assoc] at h
    exact .inr ⟨m', (List.append_inj' h rfl).1⟩

/-- **A step of a run**, with the run before it and the process that took it. -/
theorem Run.act_at {l m : List (Trans A)} {t : Trans A} {pid : Nat} {op : S.Op}
    {r : Except ε (S.Res op)} (h : Run A s₀ tr cfg) (htr : tr = l ++ t :: m)
    (ht : t.event = .act pid op r) :
    ∃ cfg₀ c k, Run A s₀ l cfg₀ ∧ cfg₀.store = t.pre ∧
      cfg₀.procs pid = some ⟨c, some (.call op k)⟩ ∧ A.eff t.pre op r t.post := by
  induction h generalizing m with
  | nil => simp at htr
  | start q c h hp ih =>
    rcases snoc_eq_split htr with ⟨rfl, rfl⟩ | ⟨m', hm⟩
    · cases ht
    · exact ih hm
  | act h hp he ih =>
    rcases snoc_eq_split htr with ⟨rfl, rfl⟩ | ⟨m', hm⟩
    · cases ht
      exact ⟨_, _, _, h, rfl, hp, he⟩
    · exact ih hm
  | crash h hp ih =>
    rcases snoc_eq_split htr with ⟨rfl, rfl⟩ | ⟨m', hm⟩
    · cases ht
    · exact ih hm

/-- A relation of a call to its ghost state that every step in order keeps. -/
theorem Run.ghost_call {K : A.Call → P.G → Prop} (hbody : ∀ c, wp P (Q c) (i c) (A.body c))
    (hinit : ∀ c, K c (i c))
    (hnext : ∀ c g op r, K c g → P.ok g op → K c (P.next g op r)) (h : Run A s₀ tr cfg) :
    ∀ {pid : Nat} {pr : Proc A}, cfg.procs pid = some pr →
      ∃ g, ghost P i pid tr = some g ∧ K pr.call g := by
  induction h with
  | nil => intro pid pr hp; cases hp
  | @start tr cfg q c _ _ ih =>
    intro pid pr hp
    by_cases e : pid = q
    · subst e
      obtain rfl : _ = pr := by simpa using hp
      exact ⟨i c, by simp [ghostStep], hinit c⟩
    · obtain ⟨g, hg, hk⟩ := ih (by simpa [Function.update_of_ne e] using hp)
      exact ⟨g, by simp [ghostStep, Ne.symm e, hg], hk⟩
  | @act tr cfg q c op k r s' h hq _ ih =>
    intro pid pr hp
    by_cases e : pid = q
    · subst e
      obtain rfl : _ = pr := by simpa using hp
      obtain ⟨g, hg, hk⟩ := ih hq
      obtain ⟨g', hg', hok⟩ := h.act_ok hbody hq
      obtain rfl : g = g' := Option.some.inj (hg.symm.trans hg')
      exact ⟨P.next g op r, by simp [ghostStep, hg], hnext c g op r hk hok⟩
    · obtain ⟨g, hg, hk⟩ := ih (by simpa [Function.update_of_ne e] using hp)
      exact ⟨g, by simp [ghostStep, Ne.symm e, hg], hk⟩
  | @crash tr cfg q c p _ hq ih =>
    intro pid pr hp
    by_cases e : pid = q
    · subst e
      obtain rfl : _ = pr := by simpa using hp
      obtain ⟨g, hg, hk⟩ := ih hq
      exact ⟨g, by simp [ghostStep, hg], hk⟩
    · obtain ⟨g, hg, hk⟩ := ih (by simpa [Function.update_of_ne e] using hp)
      exact ⟨g, by simp [ghostStep, hg], hk⟩

/-- A process was started with its call. -/
theorem Run.started (h : Run A s₀ tr cfg) :
    ∀ {pid : Nat} {pr : Proc A}, cfg.procs pid = some pr →
      ∃ t ∈ tr, t.event = .start pid pr.call := by
  have hkeep {tr : List (Trans A)} {u : Trans A} {pid : Nat} {c : A.Call}
      (h : ∃ t ∈ tr, t.event = .start pid c) : ∃ t ∈ tr ++ [u], t.event = .start pid c := by
    obtain ⟨t, ht, he⟩ := h
    exact ⟨t, List.mem_append_left _ ht, he⟩
  induction h with
  | nil => intro pid pr hp; cases hp
  | @start tr cfg q c _ _ ih =>
    intro pid pr hp
    by_cases e : pid = q
    · subst e
      obtain rfl : _ = pr := by simpa using hp
      exact ⟨_, List.mem_append_right _ List.mem_cons_self, rfl⟩
    · exact hkeep (ih (by simpa [Function.update_of_ne e] using hp))
  | @act tr cfg q c op k r s' _ hq _ ih =>
    intro pid pr hp
    by_cases e : pid = q
    · subst e
      obtain rfl : _ = pr := by simpa using hp
      obtain ⟨t, ht, he⟩ := ih hq
      exact hkeep ⟨t, ht, he⟩
    · exact hkeep (ih (by simpa [Function.update_of_ne e] using hp))
  | @crash tr cfg q c p _ hq ih =>
    intro pid pr hp
    by_cases e : pid = q
    · subst e
      obtain rfl : _ = pr := by simpa using hp
      obtain ⟨t, ht, he⟩ := ih hq
      exact hkeep ⟨t, ht, he⟩
    · exact hkeep (ih (by simpa [Function.update_of_ne e] using hp))

/-- A process keeps the call it was started with. -/
theorem Run.call_of_start (h : Run A s₀ tr cfg) {t : Trans A} {pid : Nat} {c : A.Call}
    (ht : t ∈ tr) (he : t.event = .start pid c) : ∃ rest, cfg.procs pid = some ⟨c, rest⟩ := by
  induction h with
  | nil => cases ht
  | @start tr cfg q c' _ hq ih =>
    rcases List.mem_append.1 ht with ht | ht
    · obtain ⟨rest, hp⟩ := ih ht
      have e : pid ≠ q := fun e => by rw [e, hq] at hp; cases hp
      exact ⟨rest, by simpa [Function.update_of_ne e] using hp⟩
    · obtain rfl : t = _ := by simpa using ht
      cases he
      exact ⟨_, Function.update_self ..⟩
  | @act tr cfg q c' op k r s' _ hq _ ih =>
    rcases List.mem_append.1 ht with ht | ht
    · obtain ⟨rest, hp⟩ := ih ht
      by_cases e : pid = q
      · subst e
        rw [hq] at hp
        cases hp
        exact ⟨_, Function.update_self ..⟩
      · exact ⟨rest, by simpa [Function.update_of_ne e] using hp⟩
    · obtain rfl : t = _ := by simpa using ht
      cases he
  | @crash tr cfg q c' p _ hq ih =>
    rcases List.mem_append.1 ht with ht | ht
    · obtain ⟨rest, hp⟩ := ih ht
      by_cases e : pid = q
      · subst e
        rw [hq] at hp
        cases hp
        exact ⟨_, Function.update_self ..⟩
      · exact ⟨rest, by simpa [Function.update_of_ne e] using hp⟩
    · obtain rfl : t = _ := by simpa using ht
      cases he

/-- A process has one call. -/
theorem Run.start_unique (h : Run A s₀ tr cfg) {t u : Trans A} {pid : Nat} {c c' : A.Call}
    (ht : t ∈ tr) (hu : u ∈ tr) (hc : t.event = .start pid c) (hc' : u.event = .start pid c') :
    c = c' := by
  obtain ⟨rest, hp⟩ := h.call_of_start ht hc
  obtain ⟨rest', hp'⟩ := h.call_of_start hu hc'
  rw [hp] at hp'
  cases hp'
  rfl

/-- The store before and after a transition of a run. -/
theorem Run.split {l m : List (Trans A)} {t : Trans A} (h : Run A s₀ tr cfg)
    (htr : tr = l ++ t :: m) :
    ∃ cfg₀ cfg₁, Run A s₀ l cfg₀ ∧ cfg₀.store = t.pre ∧ Run A s₀ (l ++ [t]) cfg₁ ∧
      cfg₁.store = t.post := by
  induction h generalizing m with
  | nil => simp at htr
  | start pid c h hp ih =>
    rcases snoc_eq_split htr with ⟨rfl, rfl⟩ | ⟨m', hm⟩
    · exact ⟨_, _, h, rfl, .start pid c h hp, rfl⟩
    · exact ih hm
  | act h hp he ih =>
    rcases snoc_eq_split htr with ⟨rfl, rfl⟩ | ⟨m', hm⟩
    · exact ⟨_, _, h, rfl, .act h hp he, rfl⟩
    · exact ih hm
  | crash h hp ih =>
    rcases snoc_eq_split htr with ⟨rfl, rfl⟩ | ⟨m', hm⟩
    · exact ⟨_, _, h, rfl, .crash h hp, rfl⟩
    · exact ih hm

/-! ## From a point of a run on -/

/-- The store a trace ends in. -/
def finalStore (s₀ : A.Store) (tr : List (Trans A)) : A.Store :=
  match tr.getLast? with
  | some t => t.post
  | none => s₀

@[simp] theorem finalStore_snoc (t : Trans A) : finalStore s₀ (tr ++ [t]) = t.post := by
  simp [finalStore]

theorem Run.store_eq (h : Run A s₀ tr cfg) : cfg.store = finalStore s₀ tr := by
  cases h with
  | nil => rfl
  | start => simp
  | act => simp
  | crash => simp

/-- Where an extended trace begins with `l`, it is `l` or the trace begins with it. -/
theorem snoc_eq_append {α : Type} {l m tr : List α} {u : α} (h : tr ++ [u] = l ++ m) :
    (l = tr ++ [u] ∧ m = []) ∨ ∃ m', m = m' ++ [u] ∧ tr = l ++ m' := by
  rcases List.eq_nil_or_concat m with rfl | ⟨m', v, rfl⟩
  · exact .inl ⟨by simpa using h.symm, rfl⟩
  · rw [List.concat_eq_append, ← List.append_assoc] at h
    obtain ⟨hm, hv⟩ := List.append_inj' h rfl
    cases hv
    exact .inr ⟨m', List.concat_eq_append, hm⟩

/-- **The invariant rule, from a point of the run on**: `J` speaks of the trace
after `l` and of the store. -/
theorem Run.invariant_from {l : List (Trans A)} {J : List (Trans A) → A.Store → Prop}
    (hbody : ∀ c, wp P (Q c) (i c) (A.body c)) (hl : J [] (finalStore s₀ l))
    (hstart : ∀ {m cfg pid c}, Run A s₀ (l ++ m) cfg → cfg.procs pid = none → J m cfg.store →
      J (m ++ [⟨cfg.store, .start pid c, cfg.store⟩]) cfg.store)
    (hcrash : ∀ {m s pid}, J m s → J (m ++ [⟨s, .crash pid, s⟩]) s)
    (hact : ∀ {m cfg pid op r s' g}, Run A s₀ (l ++ m) cfg → J m cfg.store →
      ghost P i pid (l ++ m) = some g → P.ok g op → A.eff cfg.store op r s' →
      J (m ++ [⟨cfg.store, .act pid op r, s'⟩]) s') {m : List (Trans A)}
    (h : Run A s₀ (l ++ m) cfg) : J m cfg.store := by
  generalize htr : l ++ m = tr at h
  induction h generalizing m with
  | nil =>
    obtain ⟨rfl, rfl⟩ := List.append_eq_nil_iff.1 htr
    exact hl
  | start pid c h hp ih =>
    rcases snoc_eq_append htr.symm with ⟨rfl, rfl⟩ | ⟨m', rfl, rfl⟩
    · rw [finalStore_snoc] at hl; exact hl
    · exact hstart h hp (ih rfl)
  | act h hp he ih =>
    rcases snoc_eq_append htr.symm with ⟨rfl, rfl⟩ | ⟨m', rfl, rfl⟩
    · rw [finalStore_snoc] at hl; exact hl
    · obtain ⟨g, hg, hok⟩ := h.act_ok hbody hp
      exact hact h (ih rfl) hg hok he
  | crash h hp ih =>
    rcases snoc_eq_append htr.symm with ⟨rfl, rfl⟩ | ⟨m', rfl, rfl⟩
    · rw [finalStore_snoc] at hl; exact hl
    · exact hcrash (ih rfl)

/-- **The invariant rule**: a property of the trace and the store that every
step in order preserves holds of every run. -/
theorem Run.invariant {J : List (Trans A) → A.Store → Prop}
    (hbody : ∀ c, wp P (Q c) (i c) (A.body c)) (hnil : J [] s₀)
    (hstart : ∀ {tr cfg pid c}, Run A s₀ tr cfg → cfg.procs pid = none → J tr cfg.store →
      J (tr ++ [⟨cfg.store, .start pid c, cfg.store⟩]) cfg.store)
    (hcrash : ∀ {tr s pid}, J tr s → J (tr ++ [⟨s, .crash pid, s⟩]) s)
    (hact : ∀ {tr s pid op r s' g}, J tr s → ghost P i pid tr = some g → P.ok g op →
      A.eff s op r s' → J (tr ++ [⟨s, .act pid op r, s'⟩]) s') (h : Run A s₀ tr cfg) :
    J tr cfg.store :=
  Run.invariant_from (l := []) hbody hnil hstart hcrash (fun _ => hact) h

/-! ## Clocks -/

/-- The reading `clock` of the store never goes down. -/
def Forward (clock : A.Store → Int) (tr : List (Trans A)) : Prop :=
  ∀ t ∈ tr, clock t.pre ≤ clock t.post

instance (clock : A.Store → Int) (tr : List (Trans A)) : Decidable (Forward clock tr) :=
  inferInstanceAs (Decidable (∀ t ∈ tr, clock t.pre ≤ clock t.post))

section forward

variable {clock : A.Store → Int} {l m : List (Trans A)}

theorem Forward.left (h : Forward clock (l ++ m)) : Forward clock l :=
  fun t ht => h t (List.mem_append_left _ ht)

theorem Forward.right (h : Forward clock (l ++ m)) : Forward clock m :=
  fun t ht => h t (List.mem_append_right _ ht)

theorem Forward.last {t : Trans A} (h : Forward clock (l ++ [t])) : clock t.pre ≤ clock t.post :=
  h t (List.mem_append_right _ List.mem_cons_self)

theorem Run.clock_le (h : Run A s₀ (l ++ m) cfg) (hf : Forward clock m) :
    clock (finalStore s₀ l) ≤ clock cfg.store := by
  have hbody (c : A.Call) : wp (Protocol.free S ε fun _ => True) (fun _ _ => True) () (A.body c) :=
    wp_always (K := fun _ => True) (fun _ _ _ => trivial) (fun _ _ _ _ => trivial) trivial
  refine Run.invariant_from (P := .free S ε fun _ => True) (i := fun _ => ())
    (Q := fun _ _ _ => True)
    (J := fun m s => Forward clock m → clock (finalStore s₀ l) ≤ clock s) hbody
    (fun _ => Int.le_refl _)
    (fun _ _ hi hf => hi hf.left) (fun hi hf => hi hf.left) ?_ h hf
  intro m cfg pid op r s' g _ hi _ _ _ hf
  exact Int.le_trans (hi hf.left) hf.last

end forward

/-! ## Ghost states -/

/-- A property of the ghost state of a process that every step in order keeps. -/
theorem Run.ghost_keeps {K : P.G → Prop} (hbody : ∀ c, wp P (Q c) (i c) (A.body c))
    (hnext : ∀ {g op} (r), K g → P.ok g op → K (P.next g op r)) {l m : List (Trans A)} {pid : Nat}
    (h : Run A s₀ (l ++ m) cfg) (hl : ∃ g, ghost P i pid l = some g ∧ K g) :
    ∃ g, ghost P i pid (l ++ m) = some g ∧ K g := by
  refine Run.invariant_from (J := fun m _ => ∃ g, ghost P i pid (l ++ m) = some g ∧ K g) hbody
    (by rwa [List.append_nil]) ?_ ?_ ?_ h
  · rintro m cfg q c h hq ⟨g, hg, hk⟩
    -- a process that starts here has no ghost state yet
    have e : q ≠ pid := fun e => by
      subst e
      rw [h.ghost_none hq] at hg
      cases hg
    exact ⟨g, by rw [← List.append_assoc, ghost_snoc]; simp [ghostStep, e, hg], hk⟩
  · rintro m s q ⟨g, hg, hk⟩
    exact ⟨g, by rw [← List.append_assoc, ghost_snoc]; simp [ghostStep, hg], hk⟩
  · rintro m cfg q op r s' g' - ⟨g, hg, hk⟩ hg' hok -
    rw [← List.append_assoc, ghost_snoc]
    by_cases e : q = pid
    · subst e
      obtain rfl : g = g' := Option.some.inj (hg.symm.trans hg')
      exact ⟨P.next g op r, by simp [ghostStep, hg], hnext r hk hok⟩
    · exact ⟨g, by simp [ghostStep, e, hg], hk⟩

/-- **What a ghost state says of the trace and the store**: it begins with nothing, a step
of another process takes nothing away, and one of the process itself adds what it shows. -/
theorem Run.history {K : List (Trans A) → A.Store → P.G → Prop} {pid : Nat}
    (hbody : ∀ c, wp P (Q c) (i c) (A.body c)) (hinit : ∀ tr s c, K tr s (i c))
    (hkeep : ∀ {tr s e g}, K tr s g → K (tr ++ [⟨s, e, s⟩]) s g)
    (hother : ∀ {tr s q op r s' g}, K tr s g → A.eff s op r s' →
      K (tr ++ [⟨s, .act q op r, s'⟩]) s' g)
    (hnext : ∀ {tr s op r s' g}, K tr s g → P.ok g op → A.eff s op r s' →
      K (tr ++ [⟨s, .act pid op r, s'⟩]) s' (P.next g op r)) (h : Run A s₀ tr cfg) :
    ∀ {g : P.G}, ghost P i pid tr = some g → K tr cfg.store g := by
  refine Run.invariant (P := P) (i := i) (Q := Q)
    (J := fun tr s => ∀ {g : P.G}, ghost P i pid tr = some g → K tr s g) hbody ?_ ?_ ?_ ?_ h
  · intro g hg
    cases hg
  · intro tr cfg q c _ _ ih g hg
    by_cases e : q = pid
    · subst e
      rw [ghost_start_self] at hg
      cases hg
      exact hinit _ _ c
    · rw [ghost_start_other (Ne.symm e)] at hg
      exact hkeep (ih hg)
  · intro tr s q ih g hg
    rw [ghost_crash] at hg
    exact hkeep (ih hg)
  · intro tr s q op r s' g' ih hg' hok he g hg
    by_cases e : q = pid
    · subst e
      rw [ghost_act_self hg'] at hg
      cases hg
      exact hnext (ih hg') hok he
    · rw [ghost_act_other (Ne.symm e)] at hg
      exact hother (ih hg) he

/-- **The step that led to a ghost state** in which no process begins. -/
theorem ghost_switch {K : P.G → Prop} (hinit : ∀ c, ¬ K (i c)) {pid : Nat} :
    ∀ {tr : List (Trans A)} {g : P.G}, ghost P i pid tr = some g → K g →
      ∃ l t m op r g₀, tr = l ++ t :: m ∧ t.event = .act pid op r ∧
        ghost P i pid l = some g₀ ∧ ¬ K g₀ ∧ K (P.next g₀ op r) := by
  intro tr
  induction tr using List.reverseRecOn with
  | nil => intro g hg; cases hg
  | append_singleton tr t ih =>
    intro g hg hk
    have hbefore (hg' : ghost P i pid tr = some g) :
        ∃ l u m op r g₀, tr ++ [t] = l ++ u :: m ∧ u.event = .act pid op r ∧
          ghost P i pid l = some g₀ ∧ ¬ K g₀ ∧ K (P.next g₀ op r) := by
      obtain ⟨l, u, m, op, r, g₀, rfl, hrest⟩ := ih hg' hk
      exact ⟨l, u, m ++ [t], op, r, g₀, by simp, hrest⟩
    rw [ghost_snoc] at hg
    cases he : t.event with
    | start q c =>
      rw [he] at hg
      by_cases e : q = pid
      · rw [ghostStep, if_pos e] at hg
        cases hg
        exact absurd hk (hinit c)
      · rw [ghostStep, if_neg e] at hg
        exact hbefore hg
    | act q op r =>
      rw [he] at hg
      by_cases e : q = pid
      · subst e
        rw [ghostStep, if_pos rfl, Option.map_eq_some_iff] at hg
        obtain ⟨g₀, hg₀, rfl⟩ := hg
        by_cases hk₀ : K g₀
        · obtain ⟨l, u, m, op', r', g₁, rfl, hrest⟩ := ih hg₀ hk₀
          exact ⟨l, u, m ++ [t], op', r', g₁, by simp, hrest⟩
        · exact ⟨tr, t, [], op, r, g₀, rfl, he, hg₀, hk₀, hk⟩
      · rw [ghostStep, if_neg e] at hg
        exact hbefore hg
    | crash q =>
      rw [he] at hg
      exact hbefore hg

end run

/-! ## Replaying a schedule -/

/-- One decision of a scheduler. -/
inductive Move (A : System S ε) where
  | start (pid : Nat) (call : A.Call)
  | go (pid : Nat)
  | crash (pid : Nat)

section replay

variable (A : System S ε)
variable (answer : A.Store → (op : S.Op) → Except ε (S.Res op) × A.Store)

/-- One move, with the answers of `answer`; none where it is not possible. -/
def replayStep (st : List (Trans A) × Cfg A) : Move A → Option (List (Trans A) × Cfg A)
  | .start pid c =>
    match st.2.procs pid with
    | some _ => none
    | none => some (st.1 ++ [⟨st.2.store, .start pid c, st.2.store⟩],
        ⟨st.2.store, Function.update st.2.procs pid (some ⟨c, some (A.body c)⟩)⟩)
  | .go pid =>
    match st.2.procs pid with
    | some ⟨c, some (.call op k)⟩ =>
      some (st.1 ++ [⟨st.2.store, .act pid op (answer st.2.store op).1, (answer st.2.store op).2⟩],
        ⟨(answer st.2.store op).2,
          Function.update st.2.procs pid (some ⟨c, some (k (answer st.2.store op).1)⟩)⟩)
    | _ => none
  | .crash pid =>
    match st.2.procs pid with
    | some ⟨c, some _⟩ => some (st.1 ++ [⟨st.2.store, .crash pid, st.2.store⟩],
        ⟨st.2.store, Function.update st.2.procs pid (some ⟨c, none⟩)⟩)
    | _ => none

def replay (s₀ : A.Store) (moves : List (Move A)) : Option (List (Trans A) × Cfg A) :=
  moves.foldlM (replayStep A answer) ([], ⟨s₀, fun _ => none⟩)

variable {A answer}

/-- A property of runs that every move keeps holds after a schedule. -/
theorem replay_invariant {I : List (Trans A) × Cfg A → Prop}
    (hstep : ∀ {st st' m}, I st → replayStep A answer st m = some st' → I st') {s₀ : A.Store}
    {moves : List (Move A)} {st : List (Trans A) × Cfg A} (h₀ : I ([], ⟨s₀, fun _ => none⟩))
    (h : replay A answer s₀ moves = some st) : I st := by
  have hall (moves : List (Move A)) (st₀ : List (Trans A) × Cfg A) (hi : I st₀)
      (h : moves.foldlM (replayStep A answer) st₀ = some st) : I st := by
    induction moves generalizing st₀ with
    | nil => cases h; exact hi
    | cons m moves ih =>
      rw [List.foldlM_cons] at h
      cases hm : replayStep A answer st₀ m with
      | none => rw [hm] at h; cases h
      | some st₁ => rw [hm] at h; exact ih st₁ (hstep hi hm) h
  exact hall moves _ h₀ h

/-- **A replayed schedule is a run.** -/
theorem replay_run (hans : ∀ s op, A.eff s op (answer s op).1 (answer s op).2) {s₀ : A.Store}
    {moves : List (Move A)} {st : List (Trans A) × Cfg A}
    (h : replay A answer s₀ moves = some st) : Run A s₀ st.1 st.2 := by
  refine replay_invariant (I := fun st => Run A s₀ st.1 st.2) (fun {st st' m} hr h => ?_) .nil h
  cases m with
  | start pid c =>
    simp only [replayStep] at h
    split at h
    · cases h
    · next hp => cases h; exact .start pid c hr hp
  | go pid =>
    simp only [replayStep] at h
    split at h
    · next hp => cases h; exact .act hr hp (hans _ _)
    · cases h
  | crash pid =>
    simp only [replayStep] at h
    split at h
    · next hp => cases h; exact .crash hr hp
    · cases h

/-- Every step of a replay is answered by `answer`. -/
theorem replay_answers {s₀ : A.Store} {moves : List (Move A)} {st : List (Trans A) × Cfg A}
    (h : replay A answer s₀ moves = some st) :
    ∀ t ∈ st.1, ∀ pid op r, t.event = .act pid op r → (r, t.post) = answer t.pre op := by
  refine replay_invariant (I := fun st => ∀ t ∈ st.1, ∀ pid op r, t.event = .act pid op r →
    (r, t.post) = answer t.pre op) (fun {st st' m} hi h => ?_) (fun t ht => by cases ht) h
  have hsnoc {u : Trans A}
      (hu : ∀ pid op r, u.event = .act pid op r → (r, u.post) = answer u.pre op) :
      ∀ t ∈ st.1 ++ [u], ∀ pid op r, t.event = .act pid op r → (r, t.post) = answer t.pre op := by
    intro t ht
    rcases List.mem_append.1 ht with ht | ht
    · exact hi t ht
    · rw [List.mem_singleton.1 ht]; exact hu
  cases m with
  | start pid c =>
    simp only [replayStep] at h
    split at h
    · cases h
    · cases h; exact hsnoc fun _ _ _ he => by cases he
  | go pid =>
    simp only [replayStep] at h
    split at h
    · cases h; exact hsnoc fun _ _ _ he => by cases he; rfl
    · cases h
  | crash pid =>
    simp only [replayStep] at h
    split at h
    · cases h; exact hsnoc fun _ _ _ he => by cases he
    · cases h

end replay

end Conc
