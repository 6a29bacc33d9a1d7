import NyanShopBot.Db.Table

/-!
# Two transactions side by side

`Alike P x y`: the transaction that ended in `x` and the one that ended in `y` over
another store both raised the same exception, or both returned the same value and left
stores that `P` relates; where the first one was lost, nothing is said of the second.
The rules take two bodies apart step by step.
-/

namespace Db.Tx

variable {σ τ ε α β : Type} {Lost : ε → Prop}

/-- Both ended alike, unless the first one was lost. -/
inductive Alike (Lost : ε → Prop) (P : α → σ → τ → Prop) :
    Except ε (α × σ) → Except ε (α × τ) → Prop where
  | ok {a : α} {s : σ} {t : τ} : P a s t → Alike Lost P (.ok (a, s)) (.ok (a, t))
  | error (e : ε) : Alike Lost P (.error e) (.error e)
  | lost {e : ε} {y : Except ε (α × τ)} : Lost e → Alike Lost P (.error e) y

section rules

variable {P : α → σ → τ → Prop} {Q : β → σ → τ → Prop} {s : σ} {t : τ}
variable {m : Tx σ ε α} {n : Tx τ ε α} {f : α → Tx σ ε β} {g : α → Tx τ ε β}

/-- Only the first one can be lost here. -/
theorem Alike.getOrThrow_left {o : Option β} {f : β → Tx σ ε α} {e : ε} {y : Except ε (α × τ)}
    (he : Lost e) (hf : ∀ b, o = some b → Alike Lost P (f b s) y) :
    Alike Lost P ((getOrThrow o e >>= f) s) y := by
  cases o with
  | none => exact .lost he
  | some b => exact hf b rfl

/-- Only the first one reads or writes here. -/
theorem Alike.left {m : Tx σ ε β} {f : β → Tx σ ε α} {y : Except ε (α × τ)}
    (hm : ∀ e, m s = .error e → Lost e)
    (hf : ∀ b s', m s = .ok (b, s') → Alike Lost P (f b s') y) :
    Alike Lost P ((m >>= f) s) y := by
  cases h : m s with
  | error e =>
    rw [bind_eq_error h]
    exact .lost (hm e h)
  | ok p =>
    obtain ⟨b, s'⟩ := p
    rw [bind_eq h]
    exact hf b s' h

theorem Alike.ofExcept_bind {r : Except ε α} (h : ∀ a, r = .ok a → Alike Lost Q (f a s) (g a t)) :
    Alike Lost Q ((ofExcept r >>= f) s) ((ofExcept r >>= g) t) := by
  cases r with
  | ok a => exact h a rfl
  | error e => exact .error e

/-- Both check conditions that are one. -/
theorem Alike.ensure_bind {f : Unit → Tx σ ε β} {g : Unit → Tx τ ε β} {c d : Prop} [Decidable c]
    [Decidable d] {e : ε} (hcd : c ↔ d) (h : c → Alike Lost Q (f () s) (g () t)) :
    Alike Lost Q ((ensure c e >>= f) s) ((ensure d e >>= g) t) := by
  by_cases hc : c
  · rw [Tx.ensure_bind hc, Tx.ensure_bind (hcd.1 hc)]
    exact h hc
  · rw [ensure_bind_not hc, ensure_bind_not fun hd => hc (hcd.2 hd)]
    exact .error e

/-- **Committed side by side**: the same answer, from stores that are related again. -/
theorem Alike.commit {R : σ → τ → Prop} (h : Alike Lost (fun _ s t => R s t) (m s) (n t))
    (hR : R s t) (hl : ∀ e, (m.commit s).1 = .error e → ¬ Lost e) :
    (n.commit t).1 = (m.commit s).1 ∧ R (m.commit s).2 (n.commit t).2 := by
  generalize hx : m s = x at h
  generalize hy : n t = y at h
  cases h with
  | ok hP =>
    rw [commit_of_ok hx, commit_of_ok hy]
    exact ⟨rfl, hP⟩
  | error e =>
    rw [commit_of_error hx, commit_of_error hy]
    exact ⟨rfl, hR⟩
  | lost he => exact absurd he (hl _ (by rw [commit_of_error hx]))

end rules

end Db.Tx
