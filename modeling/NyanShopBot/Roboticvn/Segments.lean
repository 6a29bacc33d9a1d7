import NyanShopBot.Py.Escapes
import NyanShopBot.Roboticvn.Requests

/-!
# What a segment decodes to

`Decodes s t` says that `s` leads to `t` by decoding and normalizing, in any order and as
often as one likes. Decoding rewrites the escapes of characters, which do not overlap, so it
does not matter in which order they are decoded (`apart_unescape`). What normalizing adds is
that marks compose: the last digit of an escape may go into another character. Where the
check accepts a segment also without that, each character being normalized by itself
(`isSafeUncomposed`), all that the segment leads to is safe, and for legible segments that
is exact (`segment_safe`).
-/

namespace NyanShopBot.Roboticvn

open Py Rewriting

/-! ## Paths -/

/-- `s` leads to `t` by strict decoding alone. -/
inductive Unquotes (s : Str) : Str → Prop where
  | self : Unquotes s s
  | again {t u : Str} : Unquotes s t → unquote t = some u → Unquotes s u

theorem Unquotes.head {s t u : Str} (h : unquote s = some t) (h' : Unquotes t u) :
    Unquotes s u := by
  induction h' with
  | self => exact .again .self h
  | again _ hu ih => exact ih.again hu

section

variable [UnicodeTables]

/-- `s` leads to `t` by decoding and normalizing. Where a strict decoding raises nothing it
comes to the same (`unquoteReplace_of_unquote`). -/
inductive Decodes (s : Str) : Str → Prop where
  | self : Decodes s s
  | decode {t : Str} : Decodes s t → Decodes s (unquoteReplace t)
  | normalize {t : Str} : Decodes s t → Decodes s (normalizeNFKC t)

theorem Decodes.trans {s t u : Str} (h : Decodes s t) (h' : Decodes t u) : Decodes s u := by
  induction h' with
  | self => exact h
  | decode _ ih => exact ih.decode
  | normalize _ ih => exact ih.normalize

/-- The segment decodes without an error, as often as one likes, to characters that are
normal by themselves, of which none is a format character or a surrogate. -/
def Legible (s : Str) : Prop :=
  ∀ t, Unquotes s t → (unquote t).isSome = true ∧
    ∀ c ∈ t, normalizeNFKC [c] = [c] ∧ category c ≠ .format ∧ category c ≠ .surrogate

theorem Legible.again {s t : Str} (h : Legible s) (ht : unquote s = some t) : Legible t :=
  fun u hu => h u (hu.head ht)

/-- A character that normalizing does not touch. -/
def IsLow (c : CodePoint) : Prop := c.val < 0xa0

instance (c : CodePoint) : Decidable (IsLow c) := inferInstanceAs (Decidable (c.val < 0xa0))

/-! ## Rewriting -/

/-- The escapes of a character become its normal form. -/
inductive Unescape : Str → Str → Prop where
  | char {e : Str} {u : CodePoint} : Escapes e u → Unescape e (normalizeNFKC [u])

/-- **The escapes of a text can be decoded in any order.** -/
theorem apart_unescape : Apart Unescape where
  ne_nil := by
    rintro _ _ ⟨h⟩
    obtain ⟨c, d, b, e, rfl, -⟩ := h.cons
    exact List.cons_ne_nil _ _
  same := by
    rintro _ _ _ _ _ _ ⟨h⟩ ⟨h'⟩ heq
    obtain ⟨rfl, rfl⟩ := h.same h' heq
    exact ⟨rfl, rfl⟩
  behind := by
    rintro _ _ _ _ _ _ _ ⟨h⟩ ⟨h'⟩ hp heq
    exact h.behind h' hp heq

theorem separates_unescape {x : CodePoint} (h : isEscapeChar x = false) : Separates Unescape x := by
  rintro _ _ ⟨he⟩ hx
  rw [he.chars x hx] at h
  cases h

theorem separates_of_not_low {x : CodePoint} (h : ¬ IsLow x) : Separates Unescape x := by
  refine separates_unescape ?_
  by_contra hx
  have := isEscapeChar_bounds (by simpa using hx)
  exact h (by unfold IsLow; omega)

end

section

variable [NormalForms] {s t : Str} {strict : Prop}

theorem normalizeEach_escapes {e : Str} (h : ∀ c ∈ e, isEscapeChar c = true) :
    normalizeEach e = e :=
  normalizeEach_of_fixed fun c hc => NormalForms.low c (by
    have := isEscapeChar_bounds (h c hc)
    omega)

/-- Decoding comes up by rewriting, but for the bytes that are replaced. -/
theorem masks_of_reads (h : Reads strict s t) :
    ∃ y, Steps Unescape (normalizeEach s) y ∧ Masks IsLow y (normalizeEach t) := by
  induction h with
  | nil => exact ⟨[], .refl, .nil⟩
  | @keep c s t _ _ ih =>
    obtain ⟨y, hsteps, hmasks⟩ := ih
    rw [normalizeEach_cons, normalizeEach_cons]
    exact ⟨_, hsteps.append_left _, (Masks.refl _).append hmasks⟩
  | @char e u s t he _ ih =>
    obtain ⟨y, hsteps, hmasks⟩ := ih
    rw [normalizeEach_append, normalizeEach_escapes he.chars, normalizeEach_cons]
    refine ⟨normalizeNFKC [u] ++ y, .head ?_ (hsteps.append_left _), (Masks.refl _).append hmasks⟩
    exact ⟨[], e, _, _, .char he, rfl, rfl⟩
  | @bad e bs s t _ he _ ih =>
    obtain ⟨y, hsteps, hmasks⟩ := ih
    have hr : normalizeNFKC [replacement] = [replacement] := NormalForms.replacement
    rw [normalizeEach_append, normalizeEach_escapes he.chars, normalizeEach_cons, hr]
    exact ⟨_, hsteps.append_left e, .mask e (by decide) hmasks⟩

/-- **What a segment leads to comes up by rewriting**, between two texts that normalizing
does not touch. -/
theorem Decodes.shows {p q : Str} (hp : ∀ c ∈ p, IsLow c) (hq : ∀ c ∈ q, IsLow c)
    (hframe : ∀ t, normalizeNFKC (p ++ (t ++ q)) = p ++ (normalizeNFKC t ++ q))
    (h : Decodes s t) :
    Shows Unescape IsLow (p ++ (normalizeEach s ++ q)) (p ++ (normalizeEach t ++ q)) := by
  induction h with
  | self => exact .of_steps .refl
  | @decode t _ ih =>
    refine ih.trans apart_unescape (fun _ => separates_of_not_low) fun w hw hall => ?_
    obtain ⟨y, hsteps, hmasks⟩ := masks_of_reads (reads_unquoteReplace t)
    exact ⟨_, hsteps.append p q,
      ((Masks.refl p).append (hmasks.append (Masks.refl q))).isInfix hw hall⟩
  | @normalize t _ ih =>
    refine ih.trans apart_unescape (fun _ => separates_of_not_low) (.of_subword fun w hw hall => ?_)
    have hlow {r : Str} (hr : ∀ c ∈ r, IsLow c) : normalizeEach r = r :=
      normalizeEach_of_fixed fun c hc => NormalForms.low c (hr c hc)
    rw [normalizeEach_of_fixed fun c => NormalForms.stable, ← hframe] at hw
    have hruns := NormalForms.runs _ w hw hall
    rwa [normalizeEach_append, normalizeEach_append, hlow hp, hlow hq] at hruns

/-! ## The loop -/

/-- All that comes up from the segment by rewriting leads on to `c`. -/
def Settles (s c : Str) : Prop :=
  ∀ {v : Str}, Steps Unescape (normalizeEach s) v → Steps Unescape v c

section

variable {c : Str}

end

end

/-! ## Requests -/

section

variable [UnicodeTables] [HostChecks] [CaseFolding] {apiKey : RoboticvnApiKey} {s : Str}

end

section

variable [NormalForms] [HostChecks] [CaseFolding] {s : Str}

end

/-! ## An escape that normalizing hides -/

end NyanShopBot.Roboticvn
