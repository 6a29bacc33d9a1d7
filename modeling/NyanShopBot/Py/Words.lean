import NyanShopBot.Py.Basic

/-!
# Fields and words of a text

`split` cuts a text at a character, and `join` puts the fields together again.
`words` are the stretches between white space; `Tidy` texts are the ones that
`collapse`, the words with single spaces between them, leaves as they are.
-/

namespace Py

theorem join_cons {sep p : Str} {ps : List Str} (h : ps ≠ []) :
    join sep (p :: ps) = p ++ sep ++ join sep ps := by
  cases ps with
  | nil => exact absurd rfl h
  | cons q ps => rfl

theorem join_eq_intercalate (sep : Str) (ps : List Str) : join sep ps = sep.intercalate ps := by
  induction ps with
  | nil => rfl
  | cons p ps ih =>
    cases ps with
    | nil => simp [join]
    | cons q ps => rw [join_cons (List.cons_ne_nil q ps), ih, List.intercalate_cons_cons]

theorem mem_join {sep : Str} {c : CodePoint} : ∀ {ps : List Str}, c ∈ join sep ps →
    c ∈ sep ∨ ∃ p ∈ ps, c ∈ p
  | [], h => by cases h
  | [p], h => .inr ⟨p, List.mem_singleton.2 rfl, h⟩
  | p :: q :: ps, h => by
    rw [join, List.mem_append, List.mem_append] at h
    rcases h with (h | h) | h
    · exact .inr ⟨p, List.mem_cons_self, h⟩
    · exact .inl h
    · rcases mem_join h with h | ⟨p', hp, h⟩
      · exact .inl h
      · exact .inr ⟨p', List.mem_cons_of_mem p hp, h⟩

/-! ## Fields -/

/-- `s.split(c)`. -/
def split (c : CodePoint) (s : Str) : List Str := s.splitOn c

theorem split_join {c : CodePoint} {ps : List Str} (hne : ps ≠ []) (h : ∀ p ∈ ps, c ∉ p) :
    split c (join [c] ps) = ps := by
  rw [join_eq_intercalate, split, List.splitOn_intercalate c h hne]

/-- `rstrip` cuts the end off. -/
theorem rstrip_isPrefix (s : Str) : rstrip s <+: s := by
  refine ⟨(s.reverse.takeWhile isSpace).reverse, ?_⟩
  rw [rstrip, ← List.reverse_append, List.takeWhile_append_dropWhile, List.reverse_reverse]

/-! ## Words -/

/-- `s.split()`. -/
def words (s : Str) : List Str := (s.splitOnP isSpace).filter (!·.isEmpty)

/-- `" ".join(s.split())`. -/
def collapse (s : Str) : Str := join [chr ' '] (words s)

/-- A word is not empty and has no white space. -/
def IsWord (w : Str) : Prop := w ≠ [] ∧ ∀ c ∈ w, isSpace c = false

theorem IsWord.append {w : Str} {c : CodePoint} (h : IsWord w) (hc : isSpace c = false) :
    IsWord (w ++ [c]) := by
  refine ⟨by simp, fun d hd => ?_⟩
  rcases List.mem_append.1 hd with hd | hd
  · exact h.2 d hd
  · rw [List.mem_singleton.1 hd, hc]

theorem isWord_singleton {c : CodePoint} (hc : isSpace c = false) : IsWord [c] :=
  ⟨List.cons_ne_nil c [], fun d hd => by rw [List.mem_singleton.1 hd, hc]⟩

/-- The stretches between white space have the other characters of the text. -/
theorem mem_splitOnP : ∀ {s w : Str}, w ∈ s.splitOnP isSpace →
    ∀ c ∈ w, isSpace c = false ∧ c ∈ s
  | [], w, hw => by
    rw [List.splitOnP_nil, List.mem_singleton] at hw
    subst hw
    simp
  | x :: s, w, hw => by
    have keep : ∀ u ∈ s.splitOnP isSpace, ∀ c ∈ u, isSpace c = false ∧ c ∈ x :: s := by
      intro u hu c hc
      obtain ⟨hspace, hmem⟩ := mem_splitOnP hu c hc
      exact ⟨hspace, List.mem_cons_of_mem x hmem⟩
    rw [List.splitOnP_cons_eq_if_modifyHead] at hw
    split at hw
    · rcases List.mem_cons.1 hw with rfl | hw
      · simp
      · exact keep w hw
    · rename_i hx
      obtain ⟨v, vs, hv⟩ := List.exists_cons_of_ne_nil (List.splitOnP_ne_nil isSpace s)
      rw [hv, List.modifyHead_cons] at hw
      rw [hv] at keep
      rcases List.mem_cons.1 hw with rfl | hw
      · intro c hc
        rcases List.mem_cons.1 hc with rfl | hc
        · exact ⟨by simpa using hx, List.mem_cons_self⟩
        · exact keep v List.mem_cons_self c hc
      · exact keep w (List.mem_cons_of_mem v hw)

theorem isWord_of_mem_words {s w : Str} (h : w ∈ words s) : IsWord w := by
  obtain ⟨hw, hne⟩ := List.mem_filter.1 h
  exact ⟨by simpa using hne, fun c hc => (mem_splitOnP hw c hc).1⟩

/-- Collapsing adds no character but the space. -/
theorem mem_collapse {s : Str} {c : CodePoint} (h : c ∈ collapse s) : c = chr ' ' ∨ c ∈ s := by
  rcases mem_join h with h | ⟨w, hw, hc⟩
  · exact .inl (List.mem_singleton.1 h)
  · exact .inr (mem_splitOnP (List.mem_filter.1 hw).1 c hc).2

theorem words_of_isWord {w : Str} (h : IsWord w) : words w = [w] := by
  rw [words, List.splitOnP_eq_singleton h.2]
  simp [h.1]

/-- The words up to a space are those of the text before it. -/
theorem words_append_space {c : CodePoint} (hc : isSpace c = true) (s t : Str) :
    words (s ++ c :: t) = words s ++ words t := by
  rw [words, List.splitOnP_append_cons s t hc, List.filter_append]
  rfl

/-- What may follow a space, or else another character: one space at a time, each an
ASCII one with a word after it. -/
def TidyAfter : Bool → Str → Prop
  | space, [] => space = false
  | space, c :: s => (isSpace c = true → c = chr ' ' ∧ space = false) ∧ TidyAfter (isSpace c) s

/-- A text of words with single spaces between them. -/
def Tidy (s : Str) : Prop := s = [] ∨ TidyAfter true s

theorem TidyAfter.suffix {x : CodePoint} : ∀ {s t : Str} {b : Bool},
    TidyAfter b (s ++ x :: t) → TidyAfter (isSpace x) t
  | [], _, _, h => h.2
  | _ :: s, _, _, h => TidyAfter.suffix (s := s) h.2

/-- After a word anything may follow that follows its last character. -/
theorem tidyAfter_append {t : Str} : ∀ {w : Str} {b : Bool}, IsWord w →
    (TidyAfter b (w ++ t) ↔ TidyAfter false t)
  | [], _, h => absurd rfl h.1
  | [c], b, h => by
    have hc : isSpace c = false := h.2 c List.mem_cons_self
    simp [TidyAfter, hc]
  | c :: d :: w, b, h => by
    have hc : isSpace c = false := h.2 c List.mem_cons_self
    have hw : IsWord (d :: w) :=
      ⟨List.cons_ne_nil d w, fun x hx => h.2 x (List.mem_cons_of_mem c hx)⟩
    rw [List.cons_append, TidyAfter, hc, tidyAfter_append hw]
    simp

theorem tidyAfter_join : ∀ {ws : List Str}, ws ≠ [] → (∀ w ∈ ws, IsWord w) →
    TidyAfter true (join [chr ' '] ws)
  | [], h, _ => absurd rfl h
  | [w], _, h => by
    have hw := h w List.mem_cons_self
    have hend : TidyAfter true (w ++ []) := (tidyAfter_append hw).2 rfl
    rwa [List.append_nil] at hend
  | w :: v :: ws, _, h => by
    have ih := tidyAfter_join (List.cons_ne_nil v ws) fun x hx => h x (List.mem_cons_of_mem w hx)
    rw [join, List.append_assoc, tidyAfter_append (h w List.mem_cons_self)]
    exact ⟨fun _ => ⟨rfl, rfl⟩, ih⟩

theorem tidy_collapse (s : Str) : Tidy (collapse s) := by
  by_cases h : words s = []
  · exact .inl (by rw [collapse, h, join])
  · exact .inr (tidyAfter_join h fun w hw => isWord_of_mem_words hw)

/-- With a word begun before it, the text comes back from its words. -/
theorem collapse_append : ∀ {s w : Str}, IsWord w → TidyAfter false s →
    collapse (w ++ s) = w ++ s
  | [], w, hw, _ => by rw [List.append_nil, collapse, words_of_isWord hw, join]
  | [c], w, hw, hs => by
    have hc : isSpace c = false := hs.2
    rw [collapse, words_of_isWord (hw.append hc), join]
  | c :: d :: s, w, hw, hs => by
    cases hc : isSpace c with
    | false =>
      have ih := collapse_append (hw.append hc) (hc ▸ hs.2)
      rwa [List.append_assoc, List.singleton_append] at ih
    | true =>
      -- the word ends here, and the next one begins at once
      obtain ⟨rfl, -⟩ := hs.1 hc
      have hs' : TidyAfter true (d :: s) := hc ▸ hs.2
      have hd : isSpace d = false := by
        rw [Bool.eq_false_iff]
        intro h
        cases (hs'.1 h).2
      have ih := collapse_append (isWord_singleton hd) (hd ▸ hs'.2)
      rw [List.singleton_append, collapse] at ih
      have hne : words (d :: s) ≠ [] := by
        intro h
        rw [h] at ih
        cases ih
      rw [collapse, words_append_space hc, words_of_isWord hw, List.singleton_append,
        join_cons hne, ih, List.append_assoc, List.singleton_append]

theorem collapse_of_tidy {s : Str} (h : Tidy s) : collapse s = s := by
  rcases h with rfl | h
  · rfl
  · cases s with
    | nil => rfl
    | cons c s =>
      have hc : isSpace c = false := by
        rw [Bool.eq_false_iff]
        intro hc
        cases (h.1 hc).2
      exact collapse_append (isWord_singleton hc) (hc ▸ h.2)

end Py
