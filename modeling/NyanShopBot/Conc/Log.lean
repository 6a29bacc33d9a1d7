import NyanShopBot.Conc.System

/-!
# What a process has done

`acts` is the part of a trace that one process took. Under `Protocol.log` the calls in
order are said by what the program has done before, so `Run.log_ok` and `Run.log_ended`
speak of `acts` alone.
-/

namespace Conc

variable {S : Sig} {ε : Type}

/-- An operation and what came of it. -/
structure Act (S : Sig) (ε : Type) where
  op : S.Op
  result : Except ε (S.Res op)

/-- The protocol that remembers everything. -/
abbrev Protocol.log (ok : List (Act S ε) → S.Op → Prop) : Protocol S ε :=
  ⟨List (Act S ε), ok, fun l op r => l ++ [⟨op, r⟩]⟩

variable {A : System S ε}

/-- What the event is of the process. -/
def Event.act? (pid : Nat) : Event A → Option (Act S ε)
  | .act q op r => if q = pid then some ⟨op, r⟩ else none
  | _ => none

/-- What the process has done, in its order. -/
def acts (pid : Nat) (tr : List (Trans A)) : List (Act S ε) := tr.filterMap (·.event.act? pid)

@[simp] theorem acts_nil (pid : Nat) : acts pid ([] : List (Trans A)) = [] := rfl

theorem acts_snoc (pid : Nat) (tr : List (Trans A)) (t : Trans A) :
    acts pid (tr ++ [t]) = acts pid tr ++ (t.event.act? pid).toList := by
  unfold acts
  rw [List.filterMap_append, List.filterMap_cons, List.filterMap_nil]
  cases t.event.act? pid <;> rfl

theorem acts_act_self {tr : List (Trans A)} {pid : Nat} {op : S.Op} {r : Except ε (S.Res op)}
    {s s' : A.Store} : acts pid (tr ++ [⟨s, .act pid op r, s'⟩]) = acts pid tr ++ [⟨op, r⟩] := by
  rw [acts_snoc, Event.act?, if_pos rfl]
  rfl

theorem acts_act_other {tr : List (Trans A)} {pid q : Nat} {op : S.Op} {r : Except ε (S.Res op)}
    {s s' : A.Store} (h : q ≠ pid) :
    acts q (tr ++ [⟨s, .act pid op r, s'⟩]) = acts q tr := by
  rw [acts_snoc, Event.act?, if_neg (Ne.symm h)]
  exact List.append_nil _

/-- Each thing that was done is a step of the trace. -/
theorem acts_split {tr : List (Trans A)} {pid : Nat} {l m : List (Act S ε)} {a : Act S ε}
    (h : acts pid tr = l ++ a :: m) :
    ∃ l' t m', tr = l' ++ t :: m' ∧ acts pid l' = l ∧ t.event = .act pid a.op a.result := by
  obtain ⟨l₁, l₂, rfl, rfl, hrest⟩ := List.filterMap_eq_append_iff.1 h
  obtain ⟨u, t, m', rfl, hu, ht, -⟩ := List.filterMap_eq_cons_iff.1 hrest
  refine ⟨l₁ ++ u, t, m', by simp, ?_, ?_⟩
  · rw [acts, List.filterMap_append, List.filterMap_eq_nil_iff.2 hu, List.append_nil]
  · cases he : t.event with
    | act q op r =>
      rw [he, Event.act?] at ht
      split at ht
      · rename_i hq
        cases ht
        rw [hq]
      · cases ht
    | _ =>
      rw [he] at ht
      cases ht

section run

variable {s₀ : A.Store} {tr : List (Trans A)} {cfg : Cfg A}

theorem acts_start {pid q : Nat} {c : A.Call} {s s' : A.Store} :
    acts pid (tr ++ [⟨s, .start q c, s'⟩]) = acts pid tr := by
  rw [acts_snoc]
  exact List.append_nil _

theorem acts_crash {pid q : Nat} {s s' : A.Store} :
    acts pid (tr ++ [⟨s, .crash q, s'⟩]) = acts pid tr := by
  rw [acts_snoc]
  exact List.append_nil _

/-- A process that has not started has done nothing. -/
theorem Run.acts_none (h : Run A s₀ tr cfg) {pid : Nat} (hp : cfg.procs pid = none) :
    acts pid tr = [] := by
  induction h with
  | nil => rfl
  | @start tr cfg q c _ _ ih =>
    by_cases e : pid = q
    · subst e
      simp at hp
    · rw [acts_start]
      exact ih (by simpa [Function.update_of_ne e] using hp)
  | @act tr cfg q c op k r s' _ _ _ ih =>
    by_cases e : pid = q
    · subst e
      simp at hp
    · rw [acts_act_other e]
      exact ih (by simpa [Function.update_of_ne e] using hp)
  | @crash tr cfg q c p _ _ ih =>
    by_cases e : pid = q
    · subst e
      simp at hp
    · rw [acts_crash]
      exact ih (by simpa [Function.update_of_ne e] using hp)

variable {ok : List (Act S ε) → S.Op → Prop} {Q : A.Call → List (Act S ε) → Except ε A.Out → Prop}

/-- What the protocol remembers is what was done. -/
theorem Run.ghost_log (h : Run A s₀ tr cfg) {pid : Nat} :
    ∀ {l : List (Act S ε)}, ghost (Protocol.log ok) (fun _ => []) pid tr = some l →
      l = acts pid tr := by
  induction h with
  | nil =>
    intro l hl
    cases hl
  | @start tr cfg q c h hq ih =>
    intro l hl
    rw [acts_start]
    by_cases e : pid = q
    · subst e
      rw [ghost_start_self] at hl
      rw [h.acts_none hq]
      exact (Option.some.inj hl).symm
    · rw [ghost_start_other e] at hl
      exact ih hl
  | @act tr cfg q c op k r s' h hq he ih =>
    intro l hl
    by_cases e : pid = q
    · subst e
      rw [ghost_snoc, ghostStep, if_pos rfl, Option.map_eq_some_iff] at hl
      obtain ⟨l₀, hl₀, rfl⟩ := hl
      rw [acts_act_self, ← ih hl₀]
    · rw [ghost_act_other e] at hl
      rw [acts_act_other e]
      exact ih hl
  | @crash tr cfg q c p h hq ih =>
    intro l hl
    rw [ghost_crash] at hl
    rw [acts_crash]
    exact ih hl

/-- **What a process does is in order after what it has done.** -/
theorem Run.log_ok (hbody : ∀ c, wp (Protocol.log ok) (Q c) [] (A.body c)) (h : Run A s₀ tr cfg)
    {pid : Nat} {l m : List (Act S ε)} {a : Act S ε} (ha : acts pid tr = l ++ a :: m) :
    ok l a.op := by
  obtain ⟨l', t, m', htr, rfl, ht⟩ := acts_split ha
  obtain ⟨cfg₀, c, k, hr, -, hp, -⟩ := h.act_at htr ht
  obtain ⟨g, hg, hok⟩ := hr.act_ok (P := Protocol.log ok) (i := fun _ => []) hbody hp
  obtain rfl := hr.ghost_log hg
  exact hok

/-- **A process that has ended** has done what its program demands. -/
theorem Run.log_ended (hbody : ∀ c, wp (Protocol.log ok) (Q c) [] (A.body c))
    (h : Run A s₀ tr cfg) {pid : Nat} {out : Except ε A.Out} (hout : cfg.result? pid = some out) :
    ∃ c, Q c (acts pid tr) out := by
  obtain ⟨c, g, hg, hq⟩ := h.ended (P := Protocol.log ok) (i := fun _ => []) hbody hout
  obtain rfl := h.ghost_log hg
  exact ⟨c, hq⟩

end run

end Conc
