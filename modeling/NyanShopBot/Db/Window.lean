import Mathlib.Data.List.Basic

/-!
# Windows of a log

A log is a list in the order of its keys, which only grows at its end. `above c` is what
it has after the key `c`, `window a b` what it has after `a` and up to `b`. A reader that
takes the rows above its cursor, one by one, has taken the window between its cursors
(`Ascending.above_cons`, `Ascending.window_append`).
-/

namespace Db

section

variable {α : Type} (key : α → Nat)

/-- The keys go up. -/
def Ascending (l : List α) : Prop := l.Pairwise fun x y => key x < key y

/-- The rows after the cursor. -/
def above (c : Nat) (l : List α) : List α := l.filter fun x => c < key x

/-- The rows after `a`, up to `b`. -/
def window (a b : Nat) (l : List α) : List α := l.filter fun x => a < key x && key x ≤ b

/-- The greatest key, `0` where there is none. -/
def lastKey (l : List α) : Nat := (l.getLast?.map key).getD 0

variable {key} {a b c : Nat} {l r : List α} {x : α}

theorem above_cons_pos (h : c < key x) : above key c (x :: l) = x :: above key c l :=
  List.filter_cons_of_pos (by simpa using h)

theorem above_cons_neg (h : key x ≤ c) : above key c (x :: l) = above key c l :=
  List.filter_cons_of_neg (by simpa using h)

theorem window_cons_pos (ha : a < key x) (hb : key x ≤ b) :
    window key a b (x :: l) = x :: window key a b l :=
  List.filter_cons_of_pos (by simp [ha, hb])

theorem window_cons_neg (h : key x ≤ a ∨ b < key x) :
    window key a b (x :: l) = window key a b l := by
  refine List.filter_cons_of_neg ?_
  simp only [Bool.and_eq_true, decide_eq_true_eq]
  omega

theorem above_snoc : above key c (l ++ [x]) = above key c l ++ above key c [x] :=
  List.filter_append ..

theorem window_snoc (h : b < key x ∨ key x ≤ a) :
    window key a b (l ++ [x]) = window key a b l := by
  have hout : (decide (a < key x) && decide (key x ≤ b)) = false := by
    simp only [Bool.and_eq_false_iff, decide_eq_false_iff_not]
    omega
  rw [window, List.filter_append, List.filter_cons_of_neg (by rw [hout]; simp)]
  exact List.append_nil _

theorem window_self : window key a a l = [] := by
  rw [window, List.filter_eq_nil_iff]
  intro y _
  simp only [Bool.and_eq_true, decide_eq_true_eq]
  omega

theorem above_eq_self (h : ∀ y ∈ l, c < key y) : above key c l = l :=
  List.filter_eq_self.2 fun y hy => decide_eq_true (h y hy)

theorem window_eq_nil (h : ∀ y ∈ l, b < key y) : window key a b l = [] := by
  rw [window, List.filter_eq_nil_iff]
  intro y hy
  have := h y hy
  simp only [Bool.and_eq_true, decide_eq_true_eq]
  omega

theorem mem_window : x ∈ window key a b l ↔ x ∈ l ∧ a < key x ∧ key x ≤ b := by
  simp [window]

theorem Ascending.filter (h : Ascending key l) (p : α → Bool) : Ascending key (l.filter p) :=
  List.Pairwise.filter p h

/-- A row behind all others. -/
theorem Ascending.snoc (h : Ascending key l) (hx : ∀ y ∈ l, key y < key x) :
    Ascending key (l ++ [x]) := by
  refine List.pairwise_append.2 ⟨h, List.pairwise_singleton _ _, fun y hy z hz => ?_⟩
  rw [List.mem_singleton.1 hz]
  exact hx y hy

/-- **The next row above a cursor** is all there is up to its key. -/
theorem Ascending.above_cons (h : Ascending key l) (hc : above key c l = x :: r) :
    above key (key x) l = r ∧ window key c (key x) l = [x] ∧ c < key x ∧ x ∈ l := by
  induction l with
  | nil => cases hc
  | cons y l ih =>
    obtain ⟨hy, hl⟩ := List.pairwise_cons.1 h
    by_cases hlt : c < key y
    · have hall : above key c l = l := above_eq_self fun z hz => Nat.lt_trans hlt (hy z hz)
      rw [above_cons_pos hlt] at hc
      obtain ⟨rfl, rfl⟩ := List.cons_eq_cons.1 hc
      refine ⟨?_, ?_, hlt, List.mem_cons_self⟩
      · rw [above_cons_neg (Nat.le_refl _), hall]
        exact above_eq_self hy
      · rw [window_cons_pos hlt (Nat.le_refl _), window_eq_nil hy]
    · have hle : key y ≤ c := Nat.le_of_not_lt hlt
      rw [above_cons_neg hle] at hc
      obtain ⟨habove, hwindow, hlt', hmem⟩ := ih hl hc
      refine ⟨?_, ?_, hlt', List.mem_cons_of_mem _ hmem⟩
      · rw [above_cons_neg (by omega)]
        exact habove
      · rw [window_cons_neg (.inl hle)]
        exact hwindow

/-- The cursor just before the next row has the same rows above it. -/
theorem Ascending.above_pred (h : Ascending key l) (hc : above key c l = x :: r) :
    above key (key x - 1) l = x :: r ∧ window key c (key x - 1) l = [] ∧ c ≤ key x - 1 := by
  obtain ⟨-, -, hlt, -⟩ := h.above_cons hc
  have hasc : Ascending key (x :: r) := hc ▸ h.filter _
  have hleast : ∀ y ∈ l, c < key y → key x ≤ key y := by
    intro y hy hcy
    have hmem : y ∈ x :: r := hc ▸ List.mem_filter.2 ⟨hy, decide_eq_true hcy⟩
    rcases List.mem_cons.1 hmem with rfl | hmem
    · exact Nat.le_refl _
    · exact Nat.le_of_lt ((List.pairwise_cons.1 hasc).1 y hmem)
  refine ⟨?_, ?_, by omega⟩
  · rw [← hc]
    refine List.filter_congr fun y hy => ?_
    have := hleast y hy
    rw [decide_eq_decide]
    omega
  · refine List.filter_eq_nil_iff.2 fun y hy => ?_
    have := hleast y hy
    simp only [Bool.and_eq_true, decide_eq_true_eq]
    omega

/-- **Two windows next to each other** are one. -/
theorem Ascending.window_append (h : Ascending key l) (hab : a ≤ b) (hbc : b ≤ c) :
    window key a b l ++ window key b c l = window key a c l := by
  induction l with
  | nil => rfl
  | cons y l ih =>
    obtain ⟨hy, hl⟩ := List.pairwise_cons.1 h
    have ih := ih hl
    by_cases hb : key y ≤ b
    · rw [window_cons_neg (a := b) (.inl hb)]
      by_cases ha : a < key y
      · rw [window_cons_pos ha hb, window_cons_pos ha (by omega), List.cons_append, ih]
      · have hle : key y ≤ a := Nat.le_of_not_lt ha
        rw [window_cons_neg (.inl hle), window_cons_neg (.inl hle), ih]
    · have hnil : window key a b (y :: l) = [] := window_eq_nil fun z hz => by
        rcases List.mem_cons.1 hz with rfl | hz
        · omega
        · have := hy z hz
          omega
      rw [hnil, List.nil_append]
      refine List.filter_congr fun z hz => ?_
      have hz : b < key z := by
        rcases List.mem_cons.1 hz with rfl | hz
        · omega
        · have := hy z hz
          omega
      have hza : a < key z := by omega
      rw [decide_eq_true hz, decide_eq_true hza]

/-- All of a window but its last rows, and the window after them. -/
theorem Ascending.above_append {m : List α} (h : Ascending key (l ++ m)) (hm : lastKey key l = c)
    (hpos : ∀ y ∈ l ++ m, 0 < key y) : above key c (l ++ m) = m := by
  have hl : above key c l = [] := by
    refine List.filter_eq_nil_iff.2 fun y hy => ?_
    rcases List.eq_nil_or_concat l with rfl | ⟨l', z, rfl⟩
    · cases hy
    · rw [List.concat_eq_append] at hy h hm
      have hz : key z = c := by
        rw [← hm]
        simp [lastKey]
      have hle : key y ≤ key z := by
        rcases List.mem_append.1 hy with hy | hy
        · exact Nat.le_of_lt ((List.pairwise_append.1 (List.pairwise_append.1 h).1).2.2 y hy z
            (List.mem_singleton.2 rfl))
        · exact Nat.le_of_eq (congrArg key (List.mem_singleton.1 hy))
      simp only [decide_eq_true_eq]
      omega
  have hm' : above key c m = m := by
    refine above_eq_self fun y hy => ?_
    rcases List.eq_nil_or_concat l with rfl | ⟨l', z, rfl⟩
    · have hzero : c = 0 := hm.symm
      rw [hzero]
      exact hpos y (by simpa using hy)
    · rw [List.concat_eq_append] at h hm
      have hz : key z = c := by
        rw [← hm]
        simp [lastKey]
      rw [← hz]
      exact (List.pairwise_append.1 h).2.2 z (by simp) y hy
  rw [above, List.filter_append]
  show above key c l ++ above key c m = m
  rw [hl, hm', List.nil_append]

/-- The last rows come after the last of those before them. -/
theorem Ascending.above_lastKey_take (h : Ascending key l) (hpos : ∀ y ∈ l, 0 < key y) (n : Nat) :
    above key (lastKey key (l.take n)) l = l.drop n := by
  rw [← List.take_append_drop n l] at h hpos
  have := h.above_append rfl hpos
  rwa [List.take_append_drop] at this

end

end Db
