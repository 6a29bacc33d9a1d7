import Mathlib.Logic.Function.Basic

/-!
# Programs over an interface of operations

`Prog S ε α` is a program that calls the operations of an interface `S`, may
raise an `ε` and returns an `α`; a call comes back with a result or an
exception, and the program continues on either. A `Protocol` says, with a ghost
state per program, which calls are in order. `wp P Q g p`: from the ghost state
`g` every call `p` makes is in order, and `p` ends in `Q`. The rules `wp_bind`,
`wp_attempt`, `wp_perform` and `wp_mono` execute a program symbolically.
-/

namespace Conc

/-- An interface: its operations and what each of them returns. -/
structure Sig where
  Op : Type
  Res : Op → Type

inductive Prog (S : Sig) (ε α : Type) where
  | ret (a : α)
  | raise (e : ε)
  | call (op : S.Op) (k : Except ε (S.Res op) → Prog S ε α)

namespace Prog

variable {S : Sig} {ε α β : Type}

def bind : Prog S ε α → (α → Prog S ε β) → Prog S ε β
  | ret a, f => f a
  | raise e, _ => raise e
  | call op k, f => call op fun r => (k r).bind f

instance : Monad (Prog S ε) where
  pure := ret
  bind := bind

/-- Call `op`; its exception is raised here. -/
def perform (op : S.Op) : Prog S ε (S.Res op) :=
  call op fun
    | .ok a => ret a
    | .error e => raise e

/-- Run `p` and hand its result or its exception to the caller. -/
def attempt : Prog S ε α → Prog S ε (Except ε α)
  | ret a => ret (.ok a)
  | raise e => ret (.error e)
  | call op k => call op fun r => (k r).attempt

def ofExcept : Except ε α → Prog S ε α
  | .ok a => ret a
  | .error e => raise e

/-- Raise `e` unless `c` holds. -/
def ensure (c : Prop) [Decidable c] (e : ε) : Prog S ε Unit :=
  if c then ret () else raise e

/-- Run `p` alone, with the answers of `answer`. -/
def run {σ : Type} (answer : σ → (op : S.Op) → Except ε (S.Res op) × σ) :
    Prog S ε α → σ → Except ε α × σ
  | ret a, s => (.ok a, s)
  | raise e, s => (.error e, s)
  | call op k, s => run answer (k (answer s op).1) (answer s op).2

section run

variable {σ : Type} {answer : σ → (op : S.Op) → Except ε (S.Res op) × σ}

@[simp] theorem run_ret (a : α) (s : σ) : (ret a : Prog S ε α).run answer s = (.ok a, s) := rfl

@[simp] theorem run_pure (a : α) (s : σ) : (pure a : Prog S ε α).run answer s = (.ok a, s) := rfl

@[simp] theorem run_raise (e : ε) (s : σ) : (raise e : Prog S ε α).run answer s = (.error e, s) :=
  rfl

/-- A program after another runs where that one returns. -/
theorem run_bind (p : Prog S ε α) (f : α → Prog S ε β) (s : σ) :
    (p >>= f).run answer s =
      match p.run answer s with
      | (.ok a, s') => (f a).run answer s'
      | (.error e, s') => (.error e, s') := by
  show (p.bind f).run answer s = _
  induction p generalizing s with
  | ret a => rfl
  | raise e => rfl
  | call op k ih => exact ih _ _

theorem run_bind_ok {p : Prog S ε α} {f : α → Prog S ε β} {s s' : σ} {a : α}
    (h : p.run answer s = (.ok a, s')) : (p >>= f).run answer s = (f a).run answer s' := by
  rw [run_bind, h]

theorem run_bind_error {p : Prog S ε α} {f : α → Prog S ε β} {s s' : σ} {e : ε}
    (h : p.run answer s = (.error e, s')) : (p >>= f).run answer s = (.error e, s') := by
  rw [run_bind, h]

/-- What is made of the result does not touch the state. -/
theorem run_bind_pure_snd (p : Prog S ε α) (f : α → β) (s : σ) :
    ((p >>= fun a => pure (f a)).run answer s).2 = (p.run answer s).2 := by
  rw [run_bind]
  rcases p.run answer s with ⟨r, s'⟩
  cases r <;> rfl

theorem run_ensure {c : Prop} [Decidable c] {e : ε} (h : c) (s : σ) :
    (ensure c e : Prog S ε Unit).run answer s = (.ok (), s) := by
  unfold ensure
  rw [if_pos h]
  rfl

theorem run_ensure_not {c : Prop} [Decidable c] {e : ε} (h : ¬ c) (s : σ) :
    (ensure c e : Prog S ε Unit).run answer s = (.error e, s) := by
  unfold ensure
  rw [if_neg h]
  rfl

theorem run_perform (op : S.Op) (s : σ) : (perform op).run answer s = answer s op := by
  unfold perform run
  rcases answer s op with ⟨r, s'⟩
  cases r <;> rfl

theorem run_attempt (p : Prog S ε α) (s : σ) :
    p.attempt.run answer s = (.ok (p.run answer s).1, (p.run answer s).2) := by
  induction p generalizing s with
  | ret a => rfl
  | raise e => rfl
  | call op k ih => exact ih _ _

end run

theorem pure_def (a : α) : (pure a : Prog S ε α) = ret a := rfl

end Prog

/-- Which calls are in order, by a ghost state that the results of the calls move. -/
structure Protocol (S : Sig) (ε : Type) where
  G : Type
  ok : G → S.Op → Prop
  next : G → (op : S.Op) → Except ε (S.Res op) → G

section wp

variable {S : Sig} {ε α β : Type} (P : Protocol S ε)

/-- From `g`, every call of the program is in order and it ends in `Q`. -/
def wp (Q : P.G → Except ε α → Prop) : P.G → Prog S ε α → Prop
  | g, .ret a => Q g (.ok a)
  | g, .raise e => Q g (.error e)
  | g, .call op k => P.ok g op ∧ ∀ r, wp Q (P.next g op r) (k r)

variable {P}

@[simp] theorem wp_ret {Q : P.G → Except ε α → Prop} {g : P.G} {a : α} :
    wp P Q g (.ret a) ↔ Q g (.ok a) := Iff.rfl

@[simp] theorem wp_pure {Q : P.G → Except ε α → Prop} {g : P.G} {a : α} :
    wp P Q g (pure a) ↔ Q g (.ok a) := Iff.rfl

@[simp] theorem wp_raise {Q : P.G → Except ε α → Prop} {g : P.G} {e : ε} :
    wp P Q g (.raise e) ↔ Q g (.error e) := Iff.rfl

theorem wp_mono {Q R : P.G → Except ε α → Prop} (h : ∀ g r, Q g r → R g r) :
    ∀ {p : Prog S ε α} {g : P.G}, wp P Q g p → wp P R g p
  | .ret _, _, hp => h _ _ hp
  | .raise _, _, hp => h _ _ hp
  | .call _ _, _, hp => ⟨hp.1, fun r => wp_mono h (hp.2 r)⟩

/-- What a postcondition demands of the part of a program before a bind. -/
def bindPost (Q : P.G → Except ε β → Prop) (f : α → Prog S ε β) : P.G → Except ε α → Prop
  | g, .ok a => wp P Q g (f a)
  | g, .error e => Q g (.error e)

@[simp] theorem bindPost_ok {Q : P.G → Except ε β → Prop} {f : α → Prog S ε β} {g : P.G} {a : α} :
    bindPost Q f g (.ok a) ↔ wp P Q g (f a) := Iff.rfl

@[simp] theorem bindPost_error {Q : P.G → Except ε β → Prop} {f : α → Prog S ε β} {g : P.G}
    {e : ε} : bindPost Q f g (.error e) ↔ Q g (.error e) := Iff.rfl

theorem wp_bind {Q : P.G → Except ε β → Prop} {f : α → Prog S ε β} :
    ∀ {p : Prog S ε α} {g : P.G}, wp P Q g (p >>= f) ↔ wp P (bindPost Q f) g p
  | .ret _, _ => Iff.rfl
  | .raise _, _ => Iff.rfl
  | .call _ _, _ => and_congr_right fun _ => forall_congr' fun _ => wp_bind

theorem wp_attempt {Q : P.G → Except ε (Except ε α) → Prop} :
    ∀ {p : Prog S ε α} {g : P.G}, wp P Q g p.attempt ↔ wp P (fun g r => Q g (.ok r)) g p
  | .ret _, _ => Iff.rfl
  | .raise _, _ => Iff.rfl
  | .call _ _, _ => and_congr_right fun _ => forall_congr' fun _ => wp_attempt

theorem wp_perform {op : S.Op} {Q : P.G → Except ε (S.Res op) → Prop} {g : P.G} :
    wp P Q g (.perform op) ↔ P.ok g op ∧ ∀ r, Q (P.next g op r) r := by
  refine and_congr_right fun _ => forall_congr' fun r => ?_
  cases r <;> rfl

theorem wp_ofExcept {Q : P.G → Except ε α → Prop} {g : P.G} {r : Except ε α} :
    wp P Q g (.ofExcept r) ↔ Q g r := by
  cases r <;> rfl

theorem wp_ensure {Q : P.G → Except ε Unit → Prop} {g : P.G} {c : Prop} [Decidable c] {e : ε} :
    wp P Q g (.ensure c e) ↔ (c → Q g (.ok ())) ∧ (¬ c → Q g (.error e)) := by
  unfold Prog.ensure
  by_cases h : c <;> simp [h]

theorem wp_ite {Q : P.G → Except ε α → Prop} {g : P.G} {c : Prop} [Decidable c]
    {p q : Prog S ε α} : wp P Q g (if c then p else q) ↔ (c → wp P Q g p) ∧ (¬ c → wp P Q g q) := by
  by_cases h : c <;> simp [h]

/-- Where every call is in order, every program is. -/
theorem wp_always {K : P.G → Prop} (hok : ∀ g op, K g → P.ok g op)
    (hnext : ∀ g op r, K g → K (P.next g op r)) :
    ∀ {p : Prog S ε α} {g : P.G}, K g → wp P (fun _ _ => True) g p
  | .ret _, _, _ => trivial
  | .raise _, _, _ => trivial
  | .call op _, g, h => ⟨hok g op h, fun r => wp_always hok hnext (hnext g op r h)⟩

/-- The protocol without a ghost state in which the calls in `C` are in order. -/
def Protocol.free (S : Sig) (ε : Type) (C : S.Op → Prop) : Protocol S ε :=
  ⟨Unit, fun _ op => C op, fun _ _ _ => ()⟩

/-- Every call of the program is in `C` and it ends in `R`. -/
abbrev Calls (C : S.Op → Prop) (R : Except ε α → Prop) (p : Prog S ε α) : Prop :=
  wp (Protocol.free S ε C) (fun _ r => R r) () p

/-- **The frame rule**: calls that are in order and keep the ghost state. -/
theorem wp_frame {C : S.Op → Prop} {R : Except ε α → Prop} {Q : P.G → Except ε α → Prop} {g : P.G}
    (hC : ∀ op, C op → P.ok g op ∧ ∀ r, P.next g op r = g) (hQ : ∀ r, R r → Q g r) :
    ∀ {p : Prog S ε α}, Calls C R p → wp P Q g p
  | .ret _, h => hQ _ h
  | .raise _, h => hQ _ h
  | .call op _, h => ⟨(hC op h.1).1, fun r => by
      rw [(hC op h.1).2 r]; exact wp_frame hC hQ (h.2 r)⟩

/-- Calls that are in order wherever `K` holds, and keep it. -/
theorem wp_keeps {C : S.Op → Prop} {R : Except ε α → Prop} {K : P.G → Prop}
    (hok : ∀ g op, K g → C op → P.ok g op) (hnext : ∀ g op r, K g → C op → K (P.next g op r)) :
    ∀ {p : Prog S ε α} {g : P.G}, Calls C R p → K g → wp P (fun g r => K g ∧ R r) g p
  | .ret _, _, h, hg => ⟨hg, h⟩
  | .raise _, _, h, hg => ⟨hg, h⟩
  | .call op _, g, h, hg =>
    ⟨hok g op hg h.1, fun r => wp_keeps hok hnext (h.2 r) (hnext g op r hg h.1)⟩

/-- What a protocol lets a program call, where `K` holds all along. -/
theorem calls_of_wp {C : S.Op → Prop} {Q : P.G → Except ε α → Prop} {K : P.G → Prop}
    (hC : ∀ g op, K g → P.ok g op → C op) (hnext : ∀ g op r, K g → P.ok g op → K (P.next g op r)) :
    ∀ {p : Prog S ε α} {g : P.G}, wp P Q g p → K g → Calls C (fun _ => True) p
  | .ret _, _, _, _ => trivial
  | .raise _, _, _, _ => trivial
  | .call op _, g, h, hg =>
    ⟨hC g op hg h.1, fun r => calls_of_wp hC hnext (h.2 r) (hnext g op r hg h.1)⟩

theorem calls_bind {C : S.Op → Prop} {R : Except ε α → Prop} {T : Except ε β → Prop}
    {p : Prog S ε α} {f : α → Prog S ε β} (hp : Calls C R p) (hf : ∀ a, R (.ok a) → Calls C T (f a))
    (he : ∀ e, R (.error e) → T (.error e)) : Calls C T (p >>= f) :=
  wp_bind.2 <| wp_mono (fun _ r hr => by
    cases r with
    | ok a => exact hf a hr
    | error e => exact he e hr) hp

theorem calls_perform {C : S.Op → Prop} {op : S.Op} (h : C op) :
    Calls C (fun _ => True) (.perform op : Prog S ε _) :=
  wp_perform.2 ⟨h, fun _ => trivial⟩

end wp

end Conc
