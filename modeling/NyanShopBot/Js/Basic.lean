import Mathlib.Data.List.Sort
import Mathlib.Data.Nat.Digits.Defs
import NyanShopBot.Py.Float
import NyanShopBot.Py.Basic

/-!
# JavaScript values

Text is a `Str`; `trim` is `String.prototype.trim`. `Number` is a number as `JSON.parse`
gives it, and `sortBy` a stable sort by such a key. `toString36` writes a number in base 36.
`owner` is a `Map` that was filled from lists of keys, the later entries on top of the
earlier ones. `swap` exchanges two elements of an array.
-/

namespace Js

open Py

/-! ## Text -/

/-- What `trim` takes away: white space and line terminators, the byte order mark too. -/
def isTrimmed (c : CodePoint) : Bool :=
  let n := c.val
  (9 ≤ n && n ≤ 13) || n == 0x20 || n == 0xa0 || n == 0xfeff || n == 0x1680 ||
    (0x2000 ≤ n && n ≤ 0x200a) || n == 0x2028 || n == 0x2029 || n == 0x202f || n == 0x205f ||
    n == 0x3000

def trim (s : Str) : Str := ((s.dropWhile isTrimmed).reverse.dropWhile isTrimmed).reverse

/-- The byte order mark. -/
def bom : CodePoint := 0xfeff

theorem isSpace_of_isTrimmed {c : CodePoint} (hbom : c ≠ bom) (h : isTrimmed c = true) :
    isSpace c = true := by
  have hne : c.val ≠ 0xfeff := fun h => hbom (Fin.ext h)
  simp only [isTrimmed, Bool.or_eq_true, Bool.and_eq_true, decide_eq_true_eq, beq_iff_eq] at h
  simp only [isSpace, Bool.or_eq_true, Bool.and_eq_true, decide_eq_true_eq, beq_iff_eq]
  omega

theorem dropWhile_eq_self {p q : CodePoint → Bool} {s : Str} (h : s.dropWhile p = s)
    (hqp : ∀ c ∈ s, q c = true → p c = true) : s.dropWhile q = s := by
  cases s with
  | nil => rfl
  | cons c s =>
    have hp : p c = false := by
      rw [Bool.eq_false_iff]
      intro hc
      rw [List.dropWhile_cons_of_pos hc] at h
      have := congrArg List.length h
      have := (List.dropWhile_suffix (l := s) p).length_le
      rw [List.length_cons] at *
      omega
    refine List.dropWhile_cons_of_neg fun hq => ?_
    rw [hqp c List.mem_cons_self hq] at hp
    cases hp

/-- What `strip` leaves as it is, `trim` does too, the byte order mark apart. -/
theorem trim_eq_self {s : Str} (h : strip s = s) (hbom : bom ∉ s) : trim s = s := by
  have hspace : ∀ c ∈ s, isTrimmed c = true → isSpace c = true := fun c hc =>
    isSpace_of_isTrimmed fun e => hbom (e ▸ hc)
  unfold strip lstrip rstrip at h
  have hlen := congrArg List.length h
  rw [List.length_reverse] at hlen
  have hleft := (List.dropWhile_suffix (l := s) isSpace).length_le
  have hright := (List.dropWhile_suffix (l := (s.dropWhile isSpace).reverse) isSpace).length_le
  rw [List.length_reverse] at hright
  have hl : s.dropWhile isSpace = s := (List.dropWhile_suffix isSpace).eq_of_length (by omega)
  rw [hl] at h
  have hr : s.reverse.dropWhile isSpace = s.reverse := by
    rw [← List.reverse_inj, List.reverse_reverse]
    exact h
  rw [trim, dropWhile_eq_self hl hspace,
    dropWhile_eq_self hr fun c hc => hspace c (List.mem_reverse.1 hc), List.reverse_reverse]

/-! ## Numbers -/

/-- A number that is not NaN. -/
inductive Number where
  | negInf
  | finite (q : ℚ)
  | inf
deriving DecidableEq

namespace Number

/-- `x - y` is not greater than zero; the NaN of two equal infinities counts as zero. -/
def le : Number → Number → Bool
  | negInf, _ | _, inf => true
  | finite x, finite y => x ≤ y
  | finite _, negInf | inf, negInf | inf, finite _ => false

/-- An integer literal as `JSON.parse` reads it. -/
def ofInt (n : Int) : Number :=
  match PyFloat.ofRat n with
  | .finite q => finite q
  | .negInf => negInf
  | .inf | .nan => inf

theorem total (x y : Number) : x.le y = true ∨ y.le x = true := by
  cases x with
  | negInf => exact .inl rfl
  | inf => exact .inr (by cases y <;> rfl)
  | finite a =>
    cases y with
    | negInf => exact .inr rfl
    | inf => exact .inl rfl
    | finite b =>
      simp only [le, decide_eq_true_eq]
      exact le_total a b

theorem trans {x y z : Number} (h : x.le y = true) (h' : y.le z = true) : x.le z = true := by
  cases x <;> cases y <;> cases z <;> simp_all only [le, decide_eq_true_eq, Bool.false_eq_true]
  exact le_trans h h'

end Number

/-- `Number.MAX_SAFE_INTEGER`. -/
def maxSafeInteger : Nat := 9007199254740991

/-- `Number.isSafeInteger(x)`. -/
def isSafeInteger : PyFloat → Bool
  | .finite q => q.den = 1 && q.num.natAbs ≤ maxSafeInteger
  | _ => false

/-- `x < 0`. -/
def isNegative : PyFloat → Bool
  | .finite q => q < 0
  | .negInf => true
  | .inf | .nan => false

/-- The number in a comparison. -/
def Number.toFloat : Number → PyFloat
  | .negInf => .negInf
  | .finite q => .finite q
  | .inf => .inf

/-- The whole number that is read from what `JSON.stringify` writes. None beyond the safe
integers too, of which it may write other digits. -/
def wholeNumber : PyFloat → Option Nat
  | .finite q =>
    if isSafeInteger (.finite q) && !isNegative (.finite q) then some q.num.natAbs else none
  | _ => none

section

variable {n : Nat}

theorem isSafeInteger_natCast (h : n ≤ maxSafeInteger) : isSafeInteger (.finite n) = true := by
  rw [isSafeInteger, Bool.and_eq_true, decide_eq_true_eq, decide_eq_true_eq, Rat.den_natCast,
    Rat.num_natCast, Int.natAbs_natCast]
  exact ⟨rfl, h⟩

theorem isNegative_natCast : isNegative (.finite n) = false :=
  decide_eq_false (not_lt.2 n.cast_nonneg)

theorem wholeNumber_natCast (h : n ≤ maxSafeInteger) : wholeNumber (.finite n) = some n := by
  rw [wholeNumber, isSafeInteger_natCast h, isNegative_natCast]
  rfl

/-- Safe integers are read as they are. -/
theorem ofRat_natCast (h : n ≤ maxSafeInteger) : PyFloat.ofRat (n : Int) = .finite n := by
  have hn : (n : Int).natAbs < 9007199254740992 := by
    rw [maxSafeInteger] at h
    omega
  rw [PyFloat.ofRat_intCast hn, Int.cast_natCast]

theorem Number.ofInt_natCast (h : n ≤ maxSafeInteger) : Number.ofInt n = .finite n := by
  rw [Number.ofInt, ofRat_natCast h]

end

/-- The largest time value. -/
def maxTime : Nat := 8640000000000000

/-- A digit in base 36. -/
def digit36 (d : Nat) : CodePoint := chr (Char.ofNat (if d < 10 then 0x30 + d else 0x57 + d))

/-- `n.toString(36)`. -/
def toString36 (n : Int) : Str :=
  (if n < 0 then str "-" else []) ++
    if n = 0 then [digit36 0] else (Nat.digits 36 n.natAbs).reverse.map digit36

/-! ## Sorting -/

section

variable {α : Type} (key : α → Number)

/-- `list.sort((left, right) => key(left) - key(right))`. -/
def sortBy (list : List α) : List α := list.insertionSort fun a b => (key a).le (key b) = true

variable {key}

theorem mem_sortBy {list : List α} {a : α} : a ∈ sortBy key list ↔ a ∈ list :=
  List.mem_insertionSort _

theorem perm_sortBy (list : List α) : (sortBy key list).Perm list := List.perm_insertionSort _ _

theorem sortBy_of_pairwise {list : List α}
    (h : list.Pairwise fun a b => (key a).le (key b) = true) : sortBy key list = list :=
  List.Pairwise.insertionSort_eq h

theorem pairwise_sortBy (list : List α) :
    (sortBy key list).Pairwise fun a b => (key a).le (key b) = true := by
  have htotal : Std.Total fun a b : α => (key a).le (key b) = true := ⟨fun _ _ => Number.total _ _⟩
  have htrans : IsTrans α fun a b => (key a).le (key b) = true := ⟨fun _ _ _ => Number.trans⟩
  exact List.pairwise_insertionSort _ list

theorem filter_orderedInsert {r : α → α → Prop} [DecidableRel r] (p : α → Bool)
    (htrans : ∀ {x y z}, r x y → r y z → r x z) (a : α) {list : List α} (h : list.Pairwise r) :
    (list.orderedInsert r a).filter p =
      if p a then (list.filter p).orderedInsert r a else list.filter p := by
  induction list with
  | nil => cases hp : p a <;> simp [hp]
  | cons b list ih =>
    obtain ⟨hb, hlist⟩ := List.pairwise_cons.1 h
    by_cases hab : r a b
    · rw [List.orderedInsert_cons_of_le r list hab, List.filter_cons]
      split
      · -- everything that is left comes after the new element
        have hall : ∀ x ∈ (b :: list).filter p, r a x := by
          intro x hx
          rcases List.mem_cons.1 (List.mem_filter.1 hx).1 with rfl | hx
          · exact hab
          · exact htrans hab (hb x hx)
        cases hf : (b :: list).filter p with
        | nil => rfl
        | cons x rest =>
          rw [hf] at hall
          rw [List.orderedInsert_cons_of_le r rest (hall x List.mem_cons_self)]
      · rfl
    · rw [List.orderedInsert_of_not_le r list hab, List.filter_cons, List.filter_cons, ih hlist]
      split
      · split
        · rw [List.orderedInsert_of_not_le r _ hab]
        · rfl
      · rfl

/-- Taking elements out does not change the order of the others. -/
theorem filter_sortBy (p : α → Bool) (list : List α) :
    (sortBy key list).filter p = sortBy key (list.filter p) := by
  induction list with
  | nil => rfl
  | cons a list ih =>
    have hstep := filter_orderedInsert (r := fun a b : α => (key a).le (key b) = true) p
      Number.trans a (pairwise_sortBy list)
    rw [sortBy, List.insertionSort_cons]
    refine hstep.trans ?_
    rw [ih, List.filter_cons]
    split
    · rfl
    · rfl

end

/-! ## Arrays -/

/-- `[list[i], list[j]] = [list[j], list[i]]`. -/
def swap {α : Type} (list : List α) (i j : Nat) : List α :=
  match list[i]?, list[j]? with
  | some x, some y => (list.set i y).set j x
  | _, _ => list

section

variable {α : Type} {list : List α}

/-- Exchanging neighbours is one adjacent transposition, whichever comes first. -/
theorem swap_neighbours {i : Nat} (h : i + 1 < list.length) : ∃ before x y after,
    list = before ++ x :: y :: after ∧ swap list i (i + 1) = before ++ y :: x :: after ∧
    swap list (i + 1) i = before ++ y :: x :: after := by
  induction list generalizing i with
  | nil => cases h
  | cons a list ih =>
    cases i with
    | zero =>
      cases list with
      | nil => exact absurd h (Nat.lt_irrefl 1)
      | cons b list => exact ⟨[], a, b, list, rfl, rfl, rfl⟩
    | succ i =>
      obtain ⟨before, x, y, after, he, h₁, h₂⟩ := ih (i := i) (by simpa using h)
      have hcons (m n : Nat) : swap (a :: list) (m + 1) (n + 1) = a :: swap list m n := by
        simp only [swap, List.getElem?_cons_succ]
        split <;> rfl
      exact ⟨a :: before, x, y, after, by rw [he]; rfl, by rw [hcons, h₁]; rfl,
        by rw [hcons, h₂]; rfl⟩

end

/-! ## Maps -/

/-- `map.get(key)` where the later entries have overwritten the earlier ones. -/
def owner (entries : List (Str × List Str)) (key : Str) : Option Str :=
  (entries.reverse.find? (·.2.contains key)).map (·.1)

/-- Where no key occurs twice, one entry has it. -/
theorem eq_of_mem_keys {α : Type} {keys : α → List Str} {list : List α}
    (h : (list.flatMap keys).Nodup) {a b : α} {k : Str} (ha : a ∈ list) (hb : b ∈ list)
    (hka : k ∈ keys a) (hkb : k ∈ keys b) : a = b := by
  induction list with
  | nil => cases ha
  | cons c list ih =>
    rw [List.flatMap_cons, List.nodup_append] at h
    obtain ⟨-, hlist, hdisj⟩ := h
    have hlater {x : α} (hx : x ∈ list) (hkx : k ∈ keys x) : k ∈ list.flatMap keys :=
      List.mem_flatMap.2 ⟨x, hx, hkx⟩
    rcases List.mem_cons.1 ha with rfl | ha'
    · rcases List.mem_cons.1 hb with rfl | hb'
      · rfl
      · exact absurd rfl (hdisj k hka k (hlater hb' hkb))
    · rcases List.mem_cons.1 hb with rfl | hb'
      · exact absurd rfl (hdisj k hkb k (hlater ha' hka))
      · exact ih hlist ha' hb'

/-- Its owner is the entry that has it. -/
theorem owner_eq_some {entries : List (Str × List Str)} (h : (entries.flatMap (·.2)).Nodup)
    {key id : Str} : owner entries key = some id ↔ ∃ e ∈ entries, e.1 = id ∧ key ∈ e.2 := by
  unfold owner
  cases hfind : entries.reverse.find? (·.2.contains key) with
  | none =>
    refine ⟨fun h => (by cases h), ?_⟩
    rintro ⟨e, he, -, hk⟩
    have := List.find?_eq_none.1 hfind e (List.mem_reverse.2 he)
    exact absurd (by simpa using hk) this
  | some e =>
    have he : e ∈ entries := List.mem_reverse.1 (List.mem_of_find?_eq_some hfind)
    have hk : key ∈ e.2 := by
      have := List.find?_some hfind
      simpa using this
    constructor
    · intro h
      exact ⟨e, he, Option.some.inj h, hk⟩
    · rintro ⟨e', he', hid, hk'⟩
      obtain rfl := eq_of_mem_keys h he he' hk hk'
      exact congrArg some hid

end Js
