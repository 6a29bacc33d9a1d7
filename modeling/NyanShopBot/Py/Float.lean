import Mathlib.Data.Rat.Floor
import Mathlib.Tactic.FieldSimp

/-!
# Python numbers

`PyFloat` is a `float`: an IEEE 754 binary64 value, the finite ones as the
rational they stand for. `PyFloat.ofRat` rounds to nearest, ties to even, so
`PyFloat.ofInt` is `float(n)` and `PyFloat.sub` is the subtraction of two. On whole
numbers of at most 53 binary digits nothing is rounded (`ofRat_intCast`).
-/

namespace Py

/-- A Python `float`: finite, or one of the three other values. -/
inductive PyFloat where
  | finite (q : ℚ)
  | inf
  | negInf
  | nan
deriving DecidableEq

namespace PyFloat

/-- The integer next to `q`, the even one of two. -/
def roundHalfEven (q : ℚ) : Int :=
  let n := ⌊q⌋
  if q - n < 1 / 2 then n
  else if 1 / 2 < q - n then n + 1
  else if n % 2 = 0 then n else n + 1

/-- `2 ** e`. -/
def pow2 : Int → ℚ
  | .ofNat n => ((1 <<< n : Nat) : ℚ)
  | .negSucc n => 1 / ((1 <<< (n + 1) : Nat) : ℚ)

/-- The exponent of the highest binary digit of a positive `q`. -/
def exponent (q : ℚ) : Int :=
  let e : Int := (Nat.log2 q.num.natAbs : Int) - (Nat.log2 q.den : Int)
  if pow2 e ≤ q then e else e - 1

/-- The nearest binary64 value of a positive `q`. -/
def roundPos (q : ℚ) : ℚ :=
  let unit := pow2 (max (exponent q - 52) (-1074))
  roundHalfEven (q / unit) * unit

def ofRat (q : ℚ) : PyFloat :=
  if q = 0 then finite 0
  else if 0 < q then (if pow2 1024 ≤ roundPos q then inf else finite (roundPos q))
  else (if pow2 1024 ≤ roundPos (-q) then negInf else finite (-roundPos (-q)))

/-- `float(n)`, none where it raises `OverflowError`. -/
def ofInt (n : Int) : Option PyFloat :=
  match ofRat n with
  | finite q => some (finite q)
  | _ => none

/-- `x - y`. -/
def sub : PyFloat → PyFloat → PyFloat
  | finite x, finite y => ofRat (x - y)
  | nan, _ | _, nan | inf, inf | negInf, negInf => nan
  | inf, _ | _, negInf => inf
  | negInf, _ | _, inf => negInf

/-- `x + y`. -/
def add : PyFloat → PyFloat → PyFloat
  | finite x, finite y => ofRat (x + y)
  | nan, _ | _, nan | inf, negInf | negInf, inf => nan
  | inf, _ | _, inf => inf
  | negInf, _ | _, negInf => negInf

/-- `x <= n`. -/
def leInt (x : PyFloat) (n : Int) : Bool :=
  match x with
  | finite q => decide (q ≤ n)
  | negInf => true
  | inf | nan => false

/-- `max(0.0, x)`, which is zero where `x` is not greater. -/
def max0 : PyFloat → PyFloat
  | finite q => finite (if 0 < q then q else 0)
  | inf => inf
  | negInf | nan => finite 0

/-- `math.isfinite(x)` and the value. -/
def finite? : PyFloat → Option ℚ
  | finite q => some q
  | _ => none

/-! ## Signs -/

theorem pow2_pos (e : Int) : 0 < pow2 e := by
  have h (n : Nat) : (0 : ℚ) < ((1 <<< n : Nat) : ℚ) := by
    rw [Nat.shiftLeft_eq, Nat.one_mul]
    exact_mod_cast Nat.two_pow_pos n
  cases e with
  | ofNat n => exact h n
  | negSucc n => exact one_div_pos.2 (h (n + 1))

theorem roundHalfEven_nonneg {q : ℚ} (h : 0 ≤ q) : 0 ≤ roundHalfEven q := by
  have hf : 0 ≤ ⌊q⌋ := Int.floor_nonneg.2 h
  unfold roundHalfEven
  dsimp only
  split_ifs <;> omega

theorem roundPos_nonneg {q : ℚ} (h : 0 ≤ q) : 0 ≤ roundPos q := by
  have hu := pow2_pos (max (exponent q - 52) (-1074))
  have hr : 0 ≤ roundHalfEven (q / pow2 (max (exponent q - 52) (-1074))) :=
    roundHalfEven_nonneg (div_nonneg h hu.le)
  exact mul_nonneg (by exact_mod_cast hr) hu.le

theorem ofRat_nonneg {q r : ℚ} (h : 0 ≤ q) (hr : ofRat q = finite r) : 0 ≤ r := by
  unfold ofRat at hr
  split_ifs at hr with h0 hpos
  · cases hr; exact le_refl 0
  · cases hr; exact roundPos_nonneg h
  · exact absurd (lt_of_le_of_ne h (Ne.symm h0)) hpos

theorem max0_nonneg {x : PyFloat} {r : ℚ} (h : x.max0 = finite r) : 0 ≤ r := by
  cases x with
  | finite q =>
    cases h
    split_ifs with hq
    · exact hq.le
    · exact le_refl 0
  | inf => cases h
  | negInf => cases h; exact le_refl 0
  | nan => cases h; exact le_refl 0

/-! ## Whole numbers -/

theorem roundHalfEven_intCast (n : Int) : roundHalfEven (n : ℚ) = n := by
  unfold roundHalfEven
  rw [Int.floor_intCast]
  simp

theorem exponent_natCast {n : Nat} (h : n ≠ 0) : exponent (n : ℚ) = Nat.log2 n := by
  have hle : pow2 (Nat.log2 n : Int) ≤ (n : ℚ) := by
    show (((1 <<< Nat.log2 n : Nat)) : ℚ) ≤ n
    rw [Nat.shiftLeft_eq, Nat.one_mul]
    exact_mod_cast Nat.log2_self_le h
  unfold exponent
  rw [Rat.num_natCast, Rat.den_natCast, Int.natAbs_natCast]
  simp only [show Nat.log2 1 = 0 from rfl, Int.natCast_zero, Int.sub_zero]
  exact if_pos hle

theorem pow2_neg (k : Nat) : pow2 (-(k : Int)) = 1 / ((1 <<< k : Nat) : ℚ) := by
  cases k with
  | zero => simp [pow2]
  | succ k => rfl

/-- A whole number of at most 53 binary digits is a binary64 value. -/
theorem roundPos_natCast {n : Nat} (h : n ≠ 0) (hn : n < 9007199254740992) :
    roundPos (n : ℚ) = n := by
  have hlog : Nat.log2 n < 53 := (Nat.log2_lt h).2 hn
  have hunit : max (exponent (n : ℚ) - 52) (-1074) = -((52 - Nat.log2 n : Nat) : Int) := by
    rw [exponent_natCast h]
    omega
  have hpos : 0 < 1 <<< (52 - Nat.log2 n) := by
    rw [Nat.shiftLeft_eq, Nat.one_mul]
    exact Nat.two_pow_pos _
  unfold roundPos
  rw [hunit, pow2_neg]
  generalize 1 <<< (52 - Nat.log2 n) = u at hpos
  have hu : (u : ℚ) ≠ 0 := by exact_mod_cast hpos.ne'
  have hq : (n : ℚ) / (1 / (u : ℚ)) = ((n * u : Nat) : Int) := by
    rw [div_div_eq_mul_div, div_one]
    push_cast
    rfl
  show (roundHalfEven ((n : ℚ) / (1 / (u : ℚ))) : ℚ) * (1 / (u : ℚ)) = n
  rw [hq, roundHalfEven_intCast]
  push_cast
  field_simp

theorem ofRat_intCast {n : Int} (hn : n.natAbs < 9007199254740992) :
    ofRat (n : ℚ) = finite n := by
  have hbig {m : Nat} (hm : m < 9007199254740992) : ¬ pow2 1024 ≤ (m : ℚ) := by
    intro h
    replace h : (((1 <<< 1024 : Nat)) : ℚ) ≤ m := h
    have hm' : 1 <<< 1024 ≤ m := by exact_mod_cast h
    have : (9007199254740992 : Nat) ≤ 1 <<< 1024 := by decide
    omega
  unfold ofRat
  rcases lt_trichotomy n 0 with h | rfl | h
  · obtain ⟨m, rfl⟩ : ∃ m : Nat, n = -(m : Int) := ⟨n.natAbs, by omega⟩
    have hm : m ≠ 0 := by omega
    have hq : ¬ ((-(m : Int) : Int) : ℚ) = 0 := by exact_mod_cast (by omega : ¬ -(m : Int) = 0)
    have hp : ¬ 0 < ((-(m : Int) : Int) : ℚ) := by exact_mod_cast (by omega : ¬ 0 < -(m : Int))
    rw [if_neg hq, if_neg hp]
    have he : -((-(m : Int) : Int) : ℚ) = (m : ℚ) := by push_cast; ring
    rw [he, roundPos_natCast hm (by omega), if_neg (hbig (by omega))]
    push_cast
    rfl
  · simp
  · obtain ⟨m, rfl⟩ : ∃ m : Nat, n = (m : Int) := ⟨n.natAbs, by omega⟩
    have hm : m ≠ 0 := by omega
    have hq : ¬ (((m : Int) : Int) : ℚ) = 0 := by exact_mod_cast hm
    have hp : 0 < (((m : Int) : Int) : ℚ) := by exact_mod_cast h
    rw [if_neg hq, if_pos hp]
    rw [Int.cast_natCast, roundPos_natCast hm (by omega), if_neg (hbig (by omega))]

end PyFloat

/-- An `int` or a `float`. -/
inductive PyNum where
  | int (n : Int)
  | float (x : PyFloat)
deriving DecidableEq

/-- `float(x)`, none where it raises `OverflowError`. -/
def PyNum.toFloat : PyNum → Option PyFloat
  | int n => PyFloat.ofInt n
  | float x => some x

end Py
