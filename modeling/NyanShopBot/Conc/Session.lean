import NyanShopBot.Conc.System

/-!
# Sessions, one after another

A `History` of a system runs one process at a time: each session executes a call
up to any of its steps, where it ends, raises or stops for good, and the next one
starts from what it left. `Safe I Q p s`: from `s` every step of `p` leads to a
state in `I`, and `p` ends in `Q`. `History.invariant` makes an invariant of the
steps one of the histories.
-/

namespace Conc

variable {S : Sig} {ε α β σ : Type}

/-- The effect of an operation: its result and the next state. -/
abbrev Effect (S : Sig) (ε σ : Type) := σ → (op : S.Op) → Except ε (S.Res op) → σ → Prop

/-- The states a program passes, with what is left of it. -/
inductive Exec (eff : Effect S ε σ) : σ → Prog S ε α → σ → Prog S ε α → Prop where
  | refl (s : σ) (p : Prog S ε α) : Exec eff s p s p
  | step {s s' s'' : σ} {op : S.Op} {k : Except ε (S.Res op) → Prog S ε α}
      {r : Except ε (S.Res op)} {p : Prog S ε α} :
      eff s op r s' → Exec eff s' (k r) s'' p → Exec eff s (.call op k) s'' p

/-- Every step of the program leads into `I`, and it ends in `Q`. -/
def Safe (eff : Effect S ε σ) (I : σ → Prop) (Q : Except ε α → σ → Prop) :
    Prog S ε α → σ → Prop
  | .ret a, s => Q (.ok a) s
  | .raise e, s => Q (.error e) s
  | .call op k, s => ∀ r s', eff s op r s' → I s' ∧ Safe eff I Q (k r) s'

section safe

variable {eff : Effect S ε σ} {I : σ → Prop} {s : σ}

@[simp] theorem safe_ret {Q : Except ε α → σ → Prop} {a : α} :
    Safe eff I Q (.ret a) s ↔ Q (.ok a) s := Iff.rfl

@[simp] theorem safe_pure {Q : Except ε α → σ → Prop} {a : α} :
    Safe eff I Q (pure a) s ↔ Q (.ok a) s := Iff.rfl

@[simp] theorem safe_raise {Q : Except ε α → σ → Prop} {e : ε} :
    Safe eff I Q (.raise e) s ↔ Q (.error e) s := Iff.rfl

/-- A program after another is safe where that one ends. -/
theorem safe_bind {Q : Except ε β → σ → Prop} {R : Except ε α → σ → Prop}
    {f : α → Prog S ε β} (hok : ∀ a s, R (.ok a) s → Safe eff I Q (f a) s)
    (herr : ∀ e s, R (.error e) s → Q (.error e) s) :
    ∀ {p : Prog S ε α} {s : σ}, Safe eff I R p s → Safe eff I Q (p >>= f) s
  | .ret a, s, hp => hok a s hp
  | .raise e, s, hp => herr e s hp
  | .call _ _, _, hp => fun r s' hr => ⟨(hp r s' hr).1, safe_bind hok herr (hp r s' hr).2⟩

theorem safe_perform {op : S.Op} {Q : Except ε (S.Res op) → σ → Prop}
    (h : ∀ r s', eff s op r s' → I s' ∧ Q r s') : Safe eff I Q (.perform op) s := by
  intro r s' hr
  obtain ⟨hI, hQ⟩ := h r s' hr
  refine ⟨hI, ?_⟩
  cases r <;> exact hQ

theorem safe_ofExcept {Q : Except ε α → σ → Prop} {r : Except ε α} :
    Safe eff I Q (.ofExcept r) s ↔ Q r s := by
  cases r <;> rfl

/-- Every state on the way of a safe program is in `I`. -/
theorem Safe.exec {Q : Except ε α → σ → Prop} {p p' : Prog S ε α} {s' : σ}
    (h : Exec eff s p s' p') (hs : I s) (hp : Safe eff I Q p s) : I s' ∧ Safe eff I Q p' s' := by
  induction h with
  | refl => exact ⟨hs, hp⟩
  | step hr _ ih => exact ih (hp _ _ hr).1 (hp _ _ hr).2

/-- Where a safe program returns, it ends in `Q`. -/
theorem Safe.returns {Q : Except ε α → σ → Prop} {p : Prog S ε α} {s' : σ} {a : α}
    (h : Exec eff s p s' (.ret a)) (hs : I s) (hp : Safe eff I Q p s) : Q (.ok a) s' :=
  (Safe.exec h hs hp).2

/-- The run of a program with the answers of `answer`, as an execution. -/
theorem Exec.of_run {τ : Type} (abs : τ → σ)
    {answer : τ → (op : S.Op) → Except ε (S.Res op) × τ}
    (h : ∀ t op, eff (abs t) op (answer t op).1 (abs (answer t op).2)) :
    ∀ (p : Prog S ε α) (t : τ),
      Exec eff (abs t) p (abs (p.run answer t).2) (.ofExcept (p.run answer t).1)
  | .ret _, _ => .refl _ _
  | .raise _, _ => .refl _ _
  | .call op k, t => .step (h t op) (of_run abs h (k (answer t op).1) (answer t op).2)

end safe

/-- **Sessions one after another**, each of which stops in a state of `E`. -/
inductive History (A : System S ε) (E : A.Store → Prop) (s₀ : A.Store) : A.Store → Prop where
  | init : History A E s₀ s₀
  | session {s s' : A.Store} {c : A.Call} {p : Prog S ε A.Out} :
      History A E s₀ s → E s → Exec A.eff s (A.body c) s' p → History A E s₀ s'

/-- An invariant of every step of every call is one of the histories. -/
theorem History.invariant {A : System S ε} {E I : A.Store → Prop} {s₀ s : A.Store}
    (hbody : ∀ c s, I s → E s → Safe A.eff I (fun _ _ => True) (A.body c) s) (h₀ : I s₀)
    (h : History A E s₀ s) : I s := by
  induction h with
  | init => exact h₀
  | session _ he hx ih => exact (Safe.exec hx ih (hbody _ _ ih he)).1

end Conc
