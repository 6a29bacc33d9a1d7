import Mathlib.Data.List.Induction
import NyanShopBot.Py.Json

/-!
# Values as text

`setItem` is an assignment to a `dict` whose items stand in the order of their first
insertion, `ofItems` a `dict` filled from pairs. `Json.pyStr` is `str(value)` of a value as
`json.loads` returns it: text as it is, anything else as its `repr`.
-/

namespace Py

/-! ## Dictionaries -/

section

variable {α β : Type} [DecidableEq α]

/-- `d[k] = v`. -/
def setItem (k : α) (v : β) : List (α × β) → List (α × β)
  | [] => [(k, v)]
  | (k', w) :: d => if k' = k then (k, v) :: d else (k', w) :: setItem k v d

/-- The dictionary of the pairs; the last one of a key is kept. -/
def ofItems (items : List (α × β)) : List (α × β) :=
  items.foldl (fun d m => setItem m.1 m.2 d) []

/-- `d.get(k)`. -/
def item? (k : α) (d : List (α × β)) : Option β := (d.find? fun m => m.1 = k).map (·.2)

theorem item?_cons (k k' : α) (v : β) (d : List (α × β)) :
    item? k ((k', v) :: d) = if k' = k then some v else item? k d := by
  unfold item?
  rw [List.find?_cons]
  by_cases h : k' = k
  · rw [if_pos h, decide_eq_true h]
    rfl
  · rw [if_neg h, decide_eq_false h]

theorem item?_setItem (k k' : α) (v : β) (d : List (α × β)) :
    item? k' (setItem k v d) = if k = k' then some v else item? k' d := by
  induction d with
  | nil => exact item?_cons k' k v []
  | cons m d ih =>
    obtain ⟨j, w⟩ := m
    unfold setItem
    by_cases hj : j = k
    · subst hj
      rw [if_pos rfl, item?_cons, item?_cons]
      by_cases h : j = k'
      · rw [if_pos h, if_pos h]
      · rw [if_neg h, if_neg h, if_neg h]
    · rw [if_neg hj, item?_cons, item?_cons, ih]
      by_cases h : k = k'
      · subst h
        rw [if_neg hj, if_pos rfl, if_pos rfl]
      · rw [if_neg h, if_neg h]

/-- A new key stands last. -/
theorem keys_setItem (k : α) (v : β) (d : List (α × β)) :
    (setItem k v d).map Prod.fst =
      if k ∈ d.map Prod.fst then d.map Prod.fst else d.map Prod.fst ++ [k] := by
  induction d with
  | nil => rfl
  | cons m d ih =>
    obtain ⟨j, w⟩ := m
    unfold setItem
    by_cases h : j = k
    · simp [h]
    · rw [if_neg h, List.map_cons, ih]
      by_cases hk : k ∈ d.map Prod.fst
      · simp [hk]
      · simp [hk, Ne.symm h]

/-- The keys of a dictionary stay different. -/
theorem nodup_keys_setItem {d : List (α × β)} (h : (d.map Prod.fst).Nodup) (k : α) (v : β) :
    ((setItem k v d).map Prod.fst).Nodup := by
  rw [keys_setItem]
  split
  · exact h
  · next hk =>
    refine List.nodup_append.2 ⟨h, by simp, ?_⟩
    rintro a ha b hb rfl
    exact hk (List.mem_singleton.1 hb ▸ ha)

theorem item?_of_mem {d : List (α × β)} (h : (d.map Prod.fst).Nodup) {k : α} {v : β}
    (hm : (k, v) ∈ d) : item? k d = some v := by
  induction d with
  | nil => cases hm
  | cons m d ih =>
    obtain ⟨j, w⟩ := m
    obtain ⟨hj, h⟩ := List.nodup_cons.1 h
    rw [item?_cons]
    rcases List.mem_cons.1 hm with e | hm
    · cases e
      rw [if_pos rfl]
    · have hne : j ≠ k := fun e => hj (e ▸ List.mem_map.2 ⟨_, hm, rfl⟩)
      rw [if_neg hne, ih h hm]

theorem mem_of_item? {d : List (α × β)} {k : α} {v : β} (h : item? k d = some v) : (k, v) ∈ d := by
  unfold item? at h
  obtain ⟨m, hm, rfl⟩ := Option.map_eq_some_iff.1 h
  have hk : m.1 = k := by simpa using List.find?_some hm
  exact hk ▸ List.mem_of_find?_eq_some hm

theorem ofItems_snoc (items : List (α × β)) (m : α × β) :
    ofItems (items ++ [m]) = setItem m.1 m.2 (ofItems items) := by
  simp [ofItems]

/-- **The last pair of a key is found.** -/
theorem item?_ofItems (items : List (α × β)) (k : α) :
    item? k (ofItems items) = (items.reverse.find? fun m => m.1 = k).map (·.2) := by
  induction items using List.reverseRecOn with
  | nil => rfl
  | append_singleton items m ih =>
    obtain ⟨j, v⟩ := m
    rw [ofItems_snoc, item?_setItem, List.reverse_append, List.reverse_singleton,
      List.singleton_append, List.find?_cons]
    by_cases h : j = k
    · rw [if_pos h, decide_eq_true h]
      rfl
    · rw [if_neg h, decide_eq_false h]
      exact ih

/-- It is the one that none of the key follows. -/
theorem item?_ofItems_some {items : List (α × β)} {k : α} {v : β} :
    item? k (ofItems items) = some v ↔
      ∃ l m, items = l ++ (k, v) :: m ∧ ∀ x ∈ m, x.1 ≠ k := by
  rw [item?_ofItems, Option.map_eq_some_iff]
  constructor
  · rintro ⟨x, hx, rfl⟩
    obtain ⟨hk, m, l, he, hm⟩ := List.find?_eq_some_iff_append.1 hx
    obtain rfl : x.1 = k := of_decide_eq_true hk
    refine ⟨l.reverse, m.reverse, ?_, fun y hy => ?_⟩
    · rw [← List.reverse_reverse items, he]
      simp
    · simpa using hm y (List.mem_reverse.1 hy)
  · rintro ⟨l, m, rfl, hm⟩
    refine ⟨(k, v), List.find?_eq_some_iff_append.2 ⟨decide_eq_true rfl, m.reverse, l.reverse,
      by simp, fun y hy => ?_⟩, rfl⟩
    simpa using hm y (List.mem_reverse.1 hy)

end

/-! ## Text -/

namespace Json

/-- `bool(value)`. -/
def truthy : Json → Bool
  | null => false
  | bool b => b
  | int n => n != 0
  | float x => x != .finite 0
  | str s => s != []
  | arr items => !items.isEmpty
  | obj members => !members.isEmpty

/-- `a or b`. -/
def orElse (a b : Json) : Json := if a.truthy then a else b

/-- `value == n` of an `int`, which `True` and `1.0` can be as well. -/
def eqInt (n : Int) : Json → Bool
  | int m => m == n
  | bool b => (if b then 1 else 0) == n
  | float (.finite q) => q == n
  | _ => false

/-- The number, where `isinstance(value, int)`. -/
def asInt? : Json → Option Int
  | int n => some n
  | bool b => some (if b then 1 else 0)
  | _ => none

/-- `value == s`. -/
def isText (s : Str) : Json → Bool
  | str t => t == s
  | _ => false

def items : Json → List Json
  | arr l => l
  | _ => []

def fields? : Json → Option (List (Str × Json))
  | obj members => some members
  | _ => none

section

variable [UnicodeData]

/-- A character of a `repr` between the quotes `q`. -/
def reprChar (q c : CodePoint) : Str :=
  let n := c.val
  if c = q ∨ n = 0x5c then [chr '\\', c]
  else if n = 0x0a then Py.str "\\n"
  else if n = 0x0d then Py.str "\\r"
  else if n = 0x09 then Py.str "\\t"
  else if isPrintable c then [c]
  else if n < 0x100 then Py.str "\\x" ++ hexDigits 2 n
  else if n < 0x10000 then Py.str "\\u" ++ hexDigits 4 n
  else Py.str "\\U" ++ hexDigits 8 n

/-- `repr(s)`: in double quotes only where that saves an escape. -/
def reprStr (s : Str) : Str :=
  let q : CodePoint := if (0x27 : CodePoint) ∈ s ∧ (0x22 : CodePoint) ∉ s then 0x22 else 0x27
  [q] ++ s.flatMap (reprChar q) ++ [q]

/-- `repr(x)`. -/
def reprFloat : PyFloat → Str
  | .finite q => (PyFloat.finite q).repr
  | .inf => Py.str "inf"
  | .negInf => Py.str "-inf"
  | .nan => Py.str "nan"

mutual

def reprText : Json → Str
  | null => Py.str "None"
  | bool true => Py.str "True"
  | bool false => Py.str "False"
  | int n => intStr n
  | float x => reprFloat x
  | str s => reprStr s
  | arr l => Py.str "[" ++ join (Py.str ", ") (reprItems l) ++ Py.str "]"
  | obj members =>
    Py.str "\x7b" ++ join (Py.str ", ") ((ofItems (reprMembers members)).map fun m =>
      reprStr m.1 ++ Py.str ": " ++ m.2) ++ Py.str "\x7d"

def reprItems : List Json → List Str
  | [] => []
  | j :: l => reprText j :: reprItems l

def reprMembers : List (Str × Json) → List (Str × Str)
  | [] => []
  | (k, j) :: members => (k, reprText j) :: reprMembers members

end

/-- `str(value)`. -/
def pyStr : Json → Str
  | str s => s
  | value => reprText value

end

/-! ## The letter `s` -/

theorem not_mem_layout {digits : Str} (h : chr 's' ∉ digits) (point : Int) :
    chr 's' ∉ PyFloat.layout digits point := by
  have htake (n : Nat) : chr 's' ∉ digits.take n := fun hm => h (List.mem_of_mem_take hm)
  have hdrop (n : Nat) : chr 's' ∉ digits.drop n := fun hm => h (List.mem_of_mem_drop hm)
  have hzeros (n : Nat) : chr 's' ∉ PyFloat.zeros n := fun hm =>
    absurd (List.eq_of_mem_replicate hm) (by decide)
  have hexp (n : Nat) : chr 's' ∉ natStr n := chr_not_mem_natStr (by decide) n
  unfold PyFloat.layout
  split
  · simp only [List.mem_append, not_or]
    refine ⟨⟨⟨⟨⟨htake 1, ?_⟩, by decide⟩, ?_⟩, hzeros _⟩, hexp _⟩
    · split
      · exact List.not_mem_nil
      · rw [List.mem_cons, not_or]
        exact ⟨by decide, hdrop 1⟩
    · split <;> decide
  · split
    · simp only [List.mem_append, not_or]
      exact ⟨⟨by decide, hzeros _⟩, h⟩
    · split
      · simp only [List.mem_append, not_or]
        exact ⟨⟨h, hzeros _⟩, by decide⟩
      · simp only [List.mem_append, not_or]
        exact ⟨⟨htake _, by decide⟩, hdrop _⟩

theorem not_mem_reprFloat (x : PyFloat) : chr 's' ∉ reprFloat x := by
  have hpos (q : ℚ) : chr 's' ∉ PyFloat.reprPos q := by
    unfold PyFloat.reprPos
    split
    · refine not_mem_layout (fun hm => ?_) _
      have hd := List.mem_reverse.1 ((List.dropWhile_sublist _).subset (List.mem_reverse.1 hm))
      exact chr_not_mem_natStr (by decide) _ hd
    · exact List.not_mem_nil
  cases x with
  | finite q =>
    show chr 's' ∉ (PyFloat.finite q).repr
    unfold PyFloat.repr
    dsimp only
    split
    · decide
    · split
      · exact hpos q
      · rw [List.mem_cons, not_or]
        exact ⟨by decide, hpos (-q)⟩
  | inf => decide
  | negInf => decide
  | nan => decide

/-- **Only a text is written so that it begins with an `s`.** -/
theorem pyStr_eq_s [UnicodeData] {value : Json} {s : Str} (h : value.pyStr = chr 's' :: s) :
    value = .str (chr 's' :: s) := by
  cases value with
  | str t => rw [show t = chr 's' :: s from h]
  | null => cases h
  | bool b => cases b <;> cases h
  | int n =>
    exfalso
    have hmem : chr 's' ∈ intStr n := by
      rw [show intStr n = chr 's' :: s from h]
      exact List.mem_cons_self
    cases n with
    | ofNat n => exact chr_not_mem_natStr (by decide) n hmem
    | negSucc n =>
      rcases List.mem_cons.1 hmem with e | hm
      · exact absurd e (by decide)
      · exact chr_not_mem_natStr (by decide) _ hm
  | float x =>
    exfalso
    refine not_mem_reprFloat x ?_
    rw [show reprFloat x = chr 's' :: s from h]
    exact List.mem_cons_self
  | arr l => cases h
  | obj members => cases h

end Json

end Py
