import Mathlib.Data.List.Basic

/-!
# Substitution of a pattern

A `Pattern` recognizes a match at the start of a text without looking past its end.
`search` finds a match anywhere, and `sub` replaces the matches from left to right.
A replacement that begins with a character of no match, and none of whose characters
begins one, leaves no match behind: `search_sub`.
-/

namespace Py

/-- A pattern: `rest` is the text after a match at the start, `starts` holds of the
characters that begin a match and `letter` of all the characters of one. -/
structure Pattern (α : Type) where
  rest : List α → Option (List α)
  starts : α → Bool
  letter : α → Bool
  spec : ∀ {s r : List α}, rest s = some r → ∃ c m, s = (c :: m) ++ r ∧ starts c = true ∧
    (∀ d ∈ c :: m, letter d = true) ∧ ∀ r', rest ((c :: m) ++ r') = some r'

namespace Pattern

variable {α : Type} (P : Pattern α)

/-- `pattern.search(s) is not None`. -/
def search : List α → Bool
  | [] => false
  | c :: s => (P.rest (c :: s)).isSome || search s

/-- The text with its matches replaced, after so many characters of a match. -/
def subFrom (word : List α) : Nat → List α → List α
  | _, [] => []
  | k + 1, _ :: s => subFrom word k s
  | 0, c :: s =>
    match P.rest (c :: s) with
    | some r => word ++ subFrom word (s.length - r.length) s
    | none => c :: subFrom word 0 s

/-- `pattern.sub(word, s)`. -/
def sub (word s : List α) : List α := P.subFrom word 0 s

variable {P}

/-! ## Matches -/

theorem rest_append {s r : List α} (h : P.rest s = some r) (t : List α) :
    P.rest (s ++ t) = some (r ++ t) := by
  obtain ⟨c, m, rfl, -, -, hspec⟩ := P.spec h
  rw [List.append_assoc, hspec]

theorem rest_of_not_starts {c : α} (hc : P.starts c = false) (s : List α) :
    P.rest (c :: s) = none := by
  cases h : P.rest (c :: s) with
  | none => rfl
  | some r =>
    obtain ⟨d, m, hd, hstarts, -⟩ := P.spec h
    obtain ⟨rfl, -⟩ := List.cons_eq_cons.1 hd
    rw [hc] at hstarts
    cases hstarts

/-- A match ends before a character of no match. -/
theorem rest_barrier {e : α} (he : P.letter e = false) (s t : List α) :
    (P.rest (s ++ e :: t)).isSome = (P.rest s).isSome := by
  rw [Bool.eq_iff_iff, Option.isSome_iff_exists, Option.isSome_iff_exists]
  constructor
  · rintro ⟨r, h⟩
    obtain ⟨c, m, hs, -, hletter, hspec⟩ := P.spec h
    rcases List.append_eq_append_iff.1 hs with ⟨a, ha, hr⟩ | ⟨a, ha, hr⟩
    · -- the match reaches the barrier
      cases a with
      | nil =>
        rw [List.append_nil] at ha
        exact ⟨[], by rw [← ha]; simpa using hspec []⟩
      | cons d a =>
        obtain ⟨rfl, -⟩ := List.cons_eq_cons.1 hr
        have hmem : e ∈ c :: m := by
          rw [ha]
          exact List.mem_append_right s List.mem_cons_self
        rw [hletter e hmem] at he
        cases he
    · exact ⟨a, ha ▸ hspec a⟩
  · rintro ⟨r, h⟩
    exact ⟨_, rest_append h _⟩

/-! ## Searching -/

theorem search_of_append {s t : List α} (h : P.search (s ++ t) = false) : P.search s = false := by
  induction s with
  | nil => rfl
  | cons c s ih =>
    simp only [List.cons_append, search, Bool.or_eq_false_iff] at h ⊢
    refine ⟨?_, ih h.2⟩
    cases hr : P.rest (c :: s) with
    | none => rfl
    | some r =>
      have happ : P.rest (c :: (s ++ t)) = some (r ++ t) := rest_append hr t
      rw [happ] at h
      cases h.1

/-- A character of no match parts the matches. -/
theorem search_barrier {e : α} (he : P.letter e = false) (s t : List α) :
    P.search (s ++ e :: t) = (P.search s || P.search (e :: t)) := by
  induction s with
  | nil => rfl
  | cons c s ih =>
    have hrest : (P.rest (c :: (s ++ e :: t))).isSome = (P.rest (c :: s)).isSome :=
      rest_barrier he (c :: s) t
    simp only [List.cons_append, search] at ih ⊢
    rw [hrest, ih, Bool.or_assoc]

theorem search_of_not_starts {w : List α} (hw : ∀ c ∈ w, P.starts c = false) (s : List α) :
    P.search (w ++ s) = P.search s := by
  induction w with
  | nil => rfl
  | cons c w ih =>
    rw [List.cons_append, search, rest_of_not_starts (hw c List.mem_cons_self),
      ih fun d hd => hw d (List.mem_cons_of_mem c hd)]
    rfl

/-! ## Replacing -/

theorem mem_subFrom {word : List α} : ∀ {s : List α} {k : Nat} {c : α},
    c ∈ P.subFrom word k s → c ∈ word ∨ c ∈ s
  | [], k, c, h => by simp [subFrom] at h
  | _ :: s, k + 1, c, h => by
    rcases mem_subFrom (k := k) h with h | h
    · exact .inl h
    · exact .inr (List.mem_cons_of_mem _ h)
  | d :: s, 0, c, h => by
    rw [subFrom] at h
    split at h
    · rcases List.mem_append.1 h with h | h
      · exact .inl h
      · rcases mem_subFrom h with h | h
        · exact .inl h
        · exact .inr (List.mem_cons_of_mem d h)
    · rcases List.mem_cons.1 h with rfl | h
      · exact .inr List.mem_cons_self
      · rcases mem_subFrom h with h | h
        · exact .inl h
        · exact .inr (List.mem_cons_of_mem d h)

theorem subFrom_eq_drop {word : List α} : ∀ (s : List α) (k : Nat),
    P.subFrom word k s = P.sub word (s.drop k)
  | [], k => by simp [sub, subFrom]
  | _ :: s, k + 1 => subFrom_eq_drop s k
  | _ :: _, 0 => rfl

theorem sub_cons_of_none {word s : List α} {c : α} (h : P.rest (c :: s) = none) :
    P.sub word (c :: s) = c :: P.sub word s := by
  rw [sub, subFrom]
  simp only [h]
  rfl

theorem sub_cons_of_some {word s r : List α} {c : α} (h : P.rest (c :: s) = some r) :
    P.sub word (c :: s) = word ++ P.sub word r := by
  obtain ⟨d, m, hs, -⟩ := P.spec h
  obtain ⟨rfl, hm⟩ := List.cons_eq_cons.1 hs
  have hm : s = m ++ r := hm
  subst hm
  rw [sub, subFrom]
  simp only [h]
  rw [subFrom_eq_drop, List.length_append, Nat.add_sub_cancel, List.drop_left]

theorem sub_of_search {word s : List α} (h : P.search s = false) : P.sub word s = s := by
  induction s with
  | nil => rfl
  | cons c s ih =>
    simp only [search, Bool.or_eq_false_iff] at h
    have hrest : P.rest (c :: s) = none := by simpa using h.1
    rw [sub, subFrom]
    simp only [hrest]
    exact congrArg (c :: ·) (ih h.2)

/-- The text begins as before, up to its first match. -/
theorem sub_agrees (e : α) (w : List α) : ∀ s : List α, P.sub (e :: w) s = s ∨
    ∃ p q r, P.sub (e :: w) s = p ++ e :: q ∧ s = p ++ r
  | [] => .inl rfl
  | c :: s => by
    rw [sub, subFrom]
    split
    · exact .inr ⟨[], _, c :: s, rfl, rfl⟩
    · rcases sub_agrees e w s with h | ⟨p, q, r, hout, hin⟩
      · exact .inl (congrArg (c :: ·) h)
      · exact .inr ⟨c :: p, q, r, congrArg (c :: ·) hout, congrArg (c :: ·) hin⟩

/-- **No match is left**, and none is formed by the replacement. -/
theorem search_subFrom {e : α} {w : List α} (he : P.letter e = false)
    (hw : ∀ c ∈ e :: w, P.starts c = false) : ∀ (s : List α) (k : Nat),
    P.search (P.subFrom (e :: w) k s) = false
  | [], k => by cases k <;> rfl
  | _ :: s, k + 1 => search_subFrom he hw s k
  | c :: s, 0 => by
    rw [subFrom]
    split
    · rw [search_of_not_starts hw, search_subFrom he hw s]
    · rename_i hrest
      have hkeep : (P.rest (c :: P.subFrom (e :: w) 0 s)).isSome = false := by
        rcases sub_agrees (P := P) e w s with h | ⟨p, q, r, hout, hin⟩
        · rw [sub] at h
          rw [h, hrest]
          rfl
        · rw [sub] at hout
          rw [hout, show c :: (p ++ e :: q) = (c :: p) ++ e :: q from rfl, rest_barrier he]
          cases hp : P.rest (c :: p) with
          | none => rfl
          | some r' =>
            have happ : P.rest (c :: s) = some (r' ++ r) := by
              rw [hin]
              exact rest_append hp r
            rw [happ] at hrest
            cases hrest
      rw [search, hkeep, Bool.false_or]
      exact search_subFrom he hw s 0

theorem search_sub {e : α} {w : List α} (he : P.letter e = false)
    (hw : ∀ c ∈ e :: w, P.starts c = false) (s : List α) :
    P.search (P.sub (e :: w) s) = false :=
  search_subFrom he hw s 0

end Pattern

end Py
