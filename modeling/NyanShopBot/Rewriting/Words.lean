import Mathlib.Data.List.Infix
import Mathlib.Logic.Relation

/-!
# Rewriting words

A step replaces one left side in a word. Where the left sides do not overlap (`Apart`), two
different steps commute in one step each, and rewriting is confluent (`Apart.confluent`). A
letter of no left side stays where it is, and separates what stands on its two sides;
`Shows` compares words by what stands between letters that separate.
-/

namespace Rewriting

open Relation

variable {α : Type} {R : List α → List α → Prop} {a b c w : List α} {x : α}

/-- A left side is replaced. -/
def Step (R : List α → List α → Prop) (a b : List α) : Prop :=
  ∃ p l r q, R l r ∧ a = p ++ (l ++ q) ∧ b = p ++ (r ++ q)

abbrev Steps (R : List α → List α → Prop) : List α → List α → Prop := ReflTransGen (Step R)

theorem Step.append (h : Step R a b) (p q : List α) : Step R (p ++ (a ++ q)) (p ++ (b ++ q)) := by
  obtain ⟨p', l, r, q', hr, rfl, rfl⟩ := h
  exact ⟨p ++ p', l, r, q' ++ q, hr, by simp, by simp⟩

theorem Steps.append (h : Steps R a b) (p q : List α) :
    Steps R (p ++ (a ++ q)) (p ++ (b ++ q)) := by
  induction h with
  | refl => exact .refl
  | tail _ hstep ih => exact ih.tail (hstep.append p q)

theorem Steps.append_left (h : Steps R a b) (p : List α) : Steps R (p ++ a) (p ++ b) := by
  simpa using h.append p []

/-! ## Confluence -/

/-- The left sides do not overlap. -/
structure Apart (R : List α → List α → Prop) : Prop where
  ne_nil : ∀ {l r}, R l r → l ≠ []
  same : ∀ {l r l' r' q q'}, R l r → R l' r' → l ++ q = l' ++ q' → l = l' ∧ r = r'
  behind : ∀ {l r l' r' p q q'}, R l r → R l' r' → p ≠ [] → l ++ q = p ++ (l' ++ q') → l <+: p

/-- Two steps, of which the first one replaces what the word begins with. -/
theorem Apart.commute (h : Apart R) {l r l' r' p q q' : List α} (hl : R l r) (hl' : R l' r')
    (heq : l ++ q = p ++ (l' ++ q')) :
    r ++ q = p ++ (r' ++ q') ∨ ∃ d, Step R (r ++ q) d ∧ Step R (p ++ (r' ++ q')) d := by
  by_cases hp : p = []
  · subst hp
    obtain ⟨rfl, rfl⟩ := h.same hl hl' heq
    exact .inl (congrArg _ (List.append_cancel_left heq))
  · obtain ⟨m, rfl⟩ := h.behind hl hl' hp heq
    rw [List.append_assoc] at heq
    obtain rfl := List.append_cancel_left heq
    exact .inr ⟨r ++ (m ++ (r' ++ q')), ⟨r ++ m, l', r', q', hl', by simp, by simp⟩,
      [], l, r, m ++ (r' ++ q'), hl, by simp, by simp⟩

/-- **Two steps commute.** -/
theorem Apart.diamond (h : Apart R) (hb : Step R a b) (hc : Step R a c) :
    b = c ∨ ∃ d, Step R b d ∧ Step R c d := by
  obtain ⟨p, l, r, q, hr, rfl, rfl⟩ := hb
  obtain ⟨p', l', r', q', hr', heq, rfl⟩ := hc
  have hjoin {p : List α} {s t : List α} (hst : s = t ∨ ∃ d, Step R s d ∧ Step R t d) :
      p ++ s = p ++ t ∨ ∃ d, Step R (p ++ s) d ∧ Step R (p ++ t) d := by
    rcases hst with rfl | ⟨d, hs, ht⟩
    · exact .inl rfl
    · exact .inr ⟨p ++ d, by simpa using hs.append p [], by simpa using ht.append p []⟩
  rcases List.append_eq_append_iff.1 heq with ⟨m, rfl, hm⟩ | ⟨m, rfl, hm⟩
  · rw [List.append_assoc]
    exact hjoin (h.commute hr hr' hm)
  · rw [List.append_assoc]
    refine hjoin ?_
    rcases h.commute hr' hr hm with he | ⟨d, hs, ht⟩
    · exact .inl he.symm
    · exact .inr ⟨d, ht, hs⟩

/-- One step beside any number of steps. -/
theorem Apart.strip (h : Apart R) (hb : Step R a b) (hc : Steps R a c) :
    ∃ d, Steps R b d ∧ ReflGen (Step R) c d := by
  induction hc with
  | refl => exact ⟨b, .refl, .single hb⟩
  | @tail c c' _ hstep ih =>
    obtain ⟨d, hd, hcd⟩ := ih
    cases hcd with
    | refl => exact ⟨c', hd.tail hstep, .refl⟩
    | single hcd =>
      rcases h.diamond hcd hstep with rfl | ⟨e, hde, hce⟩
      · exact ⟨d, hd, .refl⟩
      · exact ⟨e, hd.tail hde, .single hce⟩

/-- **Rewriting is confluent.** -/
theorem Apart.confluent (h : Apart R) (hb : Steps R a b) (hc : Steps R a c) :
    ∃ d, Steps R b d ∧ Steps R c d := by
  refine church_rosser (fun a b c hab hac => ?_) hb hc
  rcases h.diamond hab hac with rfl | ⟨d, hbd, hcd⟩
  · exact ⟨b, .refl, .refl⟩
  · exact ⟨d, .single hbd, .single hcd⟩

/-- A word that comes back from each of its steps comes back from any number of them. -/
theorem Apart.returns (h : Apart R) (hback : ∀ w, Step R c w → Steps R w c) (hw : Steps R c w) :
    Steps R w c := by
  induction hw with
  | refl => exact .refl
  | tail _ hstep ih =>
    obtain ⟨d, hd, hcd⟩ := h.strip hstep ih
    cases hcd with
    | refl => exact hd
    | single hcd => exact hd.trans (hback d hcd)

/-- **All that is reached leads on** to such a word, where it is reached too. -/
theorem Apart.leads (h : Apart R) (hc : Steps R a c) (hback : ∀ w, Step R c w → Steps R w c)
    (hb : Steps R a b) : Steps R b c := by
  obtain ⟨d, hbd, hcd⟩ := h.confluent hb hc
  exact hbd.trans (h.returns hback hcd)

/-! ## Separators -/

/-- The letter is in no left side. -/
def Separates (R : List α → List α → Prop) (x : α) : Prop := ∀ {l r}, R l r → x ∉ l

/-- What stands on the two sides of a separator is rewritten by itself. -/
theorem Step.split (hR : Apart R) (hx : Separates R x) (h : Step R (a ++ x :: b) c) :
    ∃ a' b', c = a' ++ x :: b' ∧ Steps R a a' ∧ Steps R b b' := by
  obtain ⟨p, l, r, q, hr, heq, rfl⟩ := h
  have hxl : x ∉ l := hx hr
  rcases List.append_eq_append_iff.1 heq with ⟨m, rfl, hm⟩ | ⟨m, rfl, hm⟩
  · -- the left side stands behind the separator
    cases m with
    | nil =>
      obtain ⟨y, l, rfl⟩ := List.exists_cons_of_ne_nil (hR.ne_nil hr)
      obtain ⟨rfl, -⟩ := List.cons_eq_cons.1 hm
      exact absurd List.mem_cons_self hxl
    | cons y m =>
      obtain ⟨rfl, rfl⟩ := List.cons_eq_cons.1 hm
      exact ⟨a, m ++ (r ++ q), by simp, .refl, .single ⟨m, l, r, q, hr, rfl, rfl⟩⟩
  rcases List.append_eq_append_iff.1 hm with ⟨n, rfl, rfl⟩ | ⟨n, rfl, hn⟩
  · exact ⟨p ++ (r ++ n), b, by simp, .single ⟨p, l, r, n, hr, rfl, rfl⟩, .refl⟩
  · -- it ends before the separator
    cases n with
    | nil =>
      obtain rfl : x :: b = q := hn
      rw [List.append_nil] at hr
      exact ⟨p ++ r, b, by simp, .single ⟨p, m, r, [], hr, by simp, by simp⟩, .refl⟩
    | cons y n =>
      obtain ⟨rfl, -⟩ := List.cons_eq_cons.1 hn
      exact absurd (by simp) hxl

theorem Steps.split (hR : Apart R) (hx : Separates R x) (h : Steps R (a ++ x :: b) c) :
    ∃ a' b', c = a' ++ x :: b' ∧ Steps R a a' ∧ Steps R b b' := by
  induction h with
  | refl => exact ⟨a, b, rfl, .refl, .refl⟩
  | tail _ hstep ih =>
    obtain ⟨a', b', rfl, ha, hb⟩ := ih
    obtain ⟨a'', b'', rfl, ha', hb'⟩ := hstep.split hR hx
    exact ⟨a'', b'', rfl, ha.trans ha', hb.trans hb'⟩

/-- A separator stays. -/
theorem Steps.mem (hR : Apart R) (hx : Separates R x) (h : Steps R a b) (hmem : x ∈ a) : x ∈ b := by
  obtain ⟨s, t, rfl⟩ := List.append_of_mem hmem
  obtain ⟨s', t', rfl, -, -⟩ := h.split hR hx
  simp

section

variable {P : α → Prop}

/-- A word without the letter stands on one side of it. -/
theorem infix_append_cons (hx : x ∉ w) (h : w <:+: a ++ x :: b) : w <:+: a ∨ w <:+: b := by
  obtain ⟨s, t, h⟩ := h
  rcases List.append_eq_append_iff.1 h with ⟨m, rfl, -⟩ | ⟨m, hm, hb⟩
  · exact .inl ⟨s, m, rfl⟩
  cases m with
  | nil => exact .inl ⟨s, [], by simpa using hm⟩
  | cons y m =>
    obtain ⟨rfl, rfl⟩ := List.cons_eq_cons.1 hb
    rcases List.append_eq_append_iff.1 hm with ⟨n, rfl, rfl⟩ | ⟨n, rfl, hn⟩
    · exact absurd (by simp) hx
    · cases n with
      | nil =>
        obtain rfl : x :: m = w := hn
        exact absurd List.mem_cons_self hx
      | cons z n =>
        obtain ⟨rfl, rfl⟩ := List.cons_eq_cons.1 hn
        exact .inr ⟨n, t, by simp⟩

/-- **A word of letters in `P` comes from such a word**, where all others separate. -/
theorem Steps.word (hR : Apart R) (hP : ∀ x, ¬ P x → Separates R x) (h : Steps R a b)
    (hw : w <:+: b) (hall : ∀ x ∈ w, P x) :
    ∃ r r', r <:+: a ∧ (∀ x ∈ r, P x) ∧ Steps R r r' ∧ w <:+: r' := by
  induction hn : a.length using Nat.strong_induction_on generalizing a b with
  | _ n ih =>
    by_cases ha : ∀ x ∈ a, P x
    · exact ⟨a, b, List.infix_rfl, ha, h, hw⟩
    · push Not at ha
      obtain ⟨x, hmem, hx⟩ := ha
      obtain ⟨s, t, rfl⟩ := List.append_of_mem hmem
      rw [List.length_append, List.length_cons] at hn
      obtain ⟨s', t', rfl, hs, ht⟩ := h.split hR (hP x hx)
      rcases infix_append_cons (fun hxw => hx (hall x hxw)) hw with hw | hw
      · obtain ⟨r, r', hr, hrest⟩ := ih s.length (by omega) hs hw rfl
        exact ⟨r, r', hr.trans ⟨[], x :: t, rfl⟩, hrest⟩
      · obtain ⟨r, r', hr, hrest⟩ := ih t.length (by omega) ht hw rfl
        exact ⟨r, r', hr.trans ⟨s ++ [x], [], by simp⟩, hrest⟩

/-- Each word in `b` of letters in `P` comes up from `a`. -/
def Shows (R : List α → List α → Prop) (P : α → Prop) (a b : List α) : Prop :=
  ∀ w, w <:+: b → (∀ x ∈ w, P x) → ∃ c, Steps R a c ∧ w <:+: c

theorem Shows.of_subword (h : ∀ w, w <:+: b → (∀ x ∈ w, P x) → w <:+: a) : Shows R P a b :=
  fun w hw hall => ⟨a, .refl, h w hw hall⟩

theorem Shows.of_steps (h : Steps R a b) : Shows R P a b := fun _ hw _ => ⟨b, h, hw⟩

/-- **What one word shows is shown by the words that show it.** -/
theorem Shows.trans (hR : Apart R) (hP : ∀ x, ¬ P x → Separates R x) (h : Shows R P a b)
    (h' : Shows R P b c) : Shows R P a c := by
  intro w hw hall
  obtain ⟨d, hbd, hwd⟩ := h' w hw hall
  obtain ⟨r, r', hr, hrP, hsteps, hwr⟩ := hbd.word hR hP hwd hall
  obtain ⟨e, hae, s, t, rfl⟩ := h r hr hrP
  refine ⟨s ++ (r' ++ t), hae.trans ?_, hwr.trans ⟨s, t, by simp⟩⟩
  simpa using hsteps.append s t

/-- `b` is `a` with some of its words masked by letters outside `P`. -/
inductive Masks (P : α → Prop) : List α → List α → Prop where
  | nil : Masks P [] []
  | keep (x : α) {a b : List α} : Masks P a b → Masks P (x :: a) (x :: b)
  | mask (w : List α) {x : α} {a b : List α} : ¬ P x → Masks P a b → Masks P (w ++ a) (x :: b)

theorem Masks.refl (a : List α) : Masks P a a := by
  induction a with
  | nil => exact .nil
  | cons x a ih => exact .keep x ih

theorem Masks.append (h : Masks P a b) {a' b' : List α} (h' : Masks P a' b') :
    Masks P (a ++ a') (b ++ b') := by
  induction h with
  | nil => exact h'
  | keep x _ ih => exact .keep x ih
  | mask w hx _ ih =>
    rw [List.append_assoc]
    exact .mask w hx ih

theorem Masks.isPrefix (h : Masks P a b) (hw : w <+: b) (hall : ∀ x ∈ w, P x) : w <+: a := by
  induction h generalizing w with
  | nil => exact hw
  | keep x _ ih =>
    cases w with
    | nil => exact List.nil_prefix
    | cons y w =>
      obtain ⟨rfl, htail⟩ := List.cons_prefix_cons.1 hw
      exact List.cons_prefix_cons.2 ⟨rfl, ih htail fun x hx => hall x (List.mem_cons_of_mem _ hx)⟩
  | mask u hx _ ih =>
    cases w with
    | nil => exact List.nil_prefix
    | cons y w =>
      obtain rfl := (List.cons_prefix_cons.1 hw).1
      exact absurd (hall y List.mem_cons_self) hx

/-- No masked word is seen. -/
theorem Masks.isInfix (h : Masks P a b) (hw : w <:+: b) (hall : ∀ x ∈ w, P x) : w <:+: a := by
  induction h with
  | nil => exact hw
  | @keep x a b h ih =>
    rcases List.infix_cons_iff.1 hw with hw | hw
    · exact ((Masks.keep x h).isPrefix hw hall).isInfix
    · exact (ih hw).trans (List.suffix_cons x a).isInfix
  | @mask u x a b hx h ih =>
    rcases List.infix_cons_iff.1 hw with hw | hw
    · exact ((Masks.mask u hx h).isPrefix hw hall).isInfix
    · exact (ih hw).trans (List.suffix_append u a).isInfix

end

end Rewriting
