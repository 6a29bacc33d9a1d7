import NyanShopBot.Py.Basic
import NyanShopBot.Py.Float

/-!
# Floats as text

`PyFloat.repr` is the text of a value: the shortest decimal digits that read back as it, and
the nearest of those. `PyFloat.ofDecimal` reads digits with a decimal exponent.
-/

namespace Py

namespace PyFloat

/-- `10 ** e`. -/
def pow10 : Int → ℚ
  | .ofNat n => ((Nat.pow 10 n : Nat) : ℚ)
  | .negSucc n => 1 / ((Nat.pow 10 (n + 1) : Nat) : ℚ)

/-- The float of `m * 10 ** e`. -/
def ofDecimal (m e : Int) : PyFloat := ofRat (m * pow10 e)

/-- The exponent of the first decimal digit of a positive `q`. -/
def exponent10 (q : ℚ) : Int :=
  if 1 ≤ q then ((natStr ⌊q⌋.toNat).length : Int) - 1
  else -((natStr (⌈1 / q⌉.toNat - 1)).length : Int)

/-- So many digits, and the exponent of the last one, that read back as `q`. -/
def candidate (q : ℚ) (digits : Nat) : Option (Nat × Int) :=
  let e := exponent10 q - digits + 1
  let low := ⌊q / pow10 e⌋.toNat
  let reads (m : Nat) : Bool := ofDecimal m e = finite q
  let nearLow : Bool := decide (q - (low : ℚ) * pow10 e ≤ ((low + 1 : Nat) : ℚ) * pow10 e - q)
  if reads low && (nearLow || !reads (low + 1)) then some (low, e)
  else if reads (low + 1) then some (low + 1, e)
  else none

def stripZeros (s : Str) : Str := (s.reverse.dropWhile (· = chr '0')).reverse

def zeros (n : Nat) : Str := List.replicate n (chr '0')

/-- The digits with the point after the first `point` of them. -/
def layout (digits : Str) (point : Int) : Str :=
  if point ≤ -4 ∨ 16 < point then
    let e := point - 1
    let exp := natStr e.natAbs
    digits.take 1 ++ (if digits.length ≤ 1 then [] else chr '.' :: digits.drop 1) ++ str "e" ++
      [if e < 0 then chr '-' else chr '+'] ++ zeros (2 - exp.length) ++ exp
  else if point ≤ 0 then str "0." ++ zeros point.natAbs ++ digits
  else if (digits.length : Int) ≤ point then
    digits ++ zeros (point.toNat - digits.length) ++ str ".0"
  else digits.take point.toNat ++ str "." ++ digits.drop point.toNat

/-- The text of a positive value; 17 digits always read back. -/
def reprPos (q : ℚ) : Str :=
  match (List.range 17).findSome? fun n => candidate q (n + 1) with
  | some (m, e) => layout (stripZeros (natStr m)) ((natStr m).length + e)
  | none => []

/-- What `json.dumps` writes: `repr(x)` of a finite value. -/
def repr : PyFloat → Str
  | finite q => if q = 0 then str "0.0" else if 0 < q then reprPos q else chr '-' :: reprPos (-q)
  | inf => str "Infinity"
  | negInf => str "-Infinity"
  | nan => str "NaN"

theorem repr_one : repr (finite 1) = str "1.0" := by decide +kernel

end PyFloat

end Py
