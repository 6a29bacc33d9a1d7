import NyanShopBot.Py.Json

/-!
# Reading JSON

`Json.loads` is `json.loads(s)` of a text whose values nest less deeply than the interpreter
recurses. What `Json.dumps` writes is read back with the members in the order in which they
were written (`loads_dumps`).
-/

namespace Py

namespace Json

def quoteMark : CodePoint := 0x22

def backslash : CodePoint := 0x5c

def openBrace : CodePoint := 0x7b

def closeBrace : CodePoint := 0x7d

def openBracket : CodePoint := 0x5b

def closeBracket : CodePoint := 0x5d

def comma : CodePoint := 0x2c

def colon : CodePoint := 0x3a

/-- What `json.loads` raises: `JSONDecodeError`, or the `ValueError` of a number with too
many digits. -/
inductive LoadsError where
  | decode
  | digits
deriving DecidableEq

/-! ## Scanning -/

/-- The white space of JSON. -/
def isBlank (c : CodePoint) : Bool :=
  c.val == 0x20 || c.val == 0x09 || c.val == 0x0a || c.val == 0x0d

def skipBlank (s : Str) : Str := s.dropWhile isBlank

def isDigit (c : CodePoint) : Bool := 0x30 ≤ c.val && c.val ≤ 0x39

def digitsValue (s : Str) : Nat := s.foldl (fun n c => 10 * n + (c.val - 0x30)) 0

/-- The value of a hexadecimal digit. -/
def hexValue (c : CodePoint) : Option Nat :=
  let n := c.val
  if 0x30 ≤ n ∧ n ≤ 0x39 then some (n - 0x30)
  else if 0x61 ≤ n ∧ n ≤ 0x66 then some (n - 0x61 + 10)
  else if 0x41 ≤ n ∧ n ≤ 0x46 then some (n - 0x41 + 10)
  else none

/-- The UTF-16 unit of four digits. -/
def hexUnit (a b c d : CodePoint) : Option CodePoint := do
  let n := (((← hexValue a) * 16 + (← hexValue b)) * 16 + (← hexValue c)) * 16 + (← hexValue d)
  if h : n < 0x110000 then some ⟨n, h⟩ else none

/-- The character of an escape other than `\u`. -/
def escaped (c : CodePoint) : Option CodePoint :=
  let n := c.val
  if n = 0x22 ∨ n = 0x5c ∨ n = 0x2f then some c
  else if n = 0x62 then some 0x08
  else if n = 0x66 then some 0x0c
  else if n = 0x6e then some 0x0a
  else if n = 0x72 then some 0x0d
  else if n = 0x74 then some 0x09
  else none

def isHigh (c : CodePoint) : Bool := 0xd800 ≤ c.val && c.val ≤ 0xdbff

def isLow (c : CodePoint) : Bool := 0xdc00 ≤ c.val && c.val ≤ 0xdfff

/-- The character of a high and a low surrogate. -/
def joinSurrogates (high low : CodePoint) : CodePoint :=
  Fin.ofNat 0x110000 (0x10000 + (high.val - 0xd800) * 0x400 + (low.val - 0xdc00))

/-- A unit after an escaped high surrogate, or after none: what is read, and the high
surrogate that waits for its other half. -/
def joinUnit (high : Option CodePoint) (unit : CodePoint) : Str × Option CodePoint :=
  match high with
  | some h =>
    if isLow unit then ([joinSurrogates h unit], none)
    else if isHigh unit then ([h], some unit)
    else ([h, unit], none)
  | none => if isHigh unit then ([], some unit) else ([unit], none)

/-- A string after its opening quote, and what follows it. -/
def scanString (high : Option CodePoint) : Str → Option (Str × Str)
  | [] => none
  | c :: s =>
    if c = quoteMark then some (high.toList, s)
    else if c = backslash then
      match s with
      | [] => none
      | e :: s =>
        if e = chr 'u' then
          match s with
          | x :: y :: z :: w :: s =>
            match hexUnit x y z w with
            | some unit => (scanString (joinUnit high unit).2 s).map fun r =>
                ((joinUnit high unit).1 ++ r.1, r.2)
            | none => none
          | _ => none
        else match escaped e with
          | some x => (scanString none s).map fun r => (high.toList ++ x :: r.1, r.2)
          | none => none
    else if c.val < 0x20 then none
    else (scanString none s).map fun r => (high.toList ++ c :: r.1, r.2)

/-- The digits after a point, where there are any. -/
def scanFraction : Str → Str × Str
  | [] => ([], [])
  | c :: s =>
    if c = chr '.' ∧ s.takeWhile isDigit ≠ [] then (s.takeWhile isDigit, s.dropWhile isDigit)
    else ([], c :: s)

/-- The sign and the digits of an exponent. -/
def scanSign : Str → Bool × Str
  | [] => (false, [])
  | c :: s => if c = chr '-' then (true, s) else if c = chr '+' then (false, s) else (false, c :: s)

/-- The exponent, where there is one. -/
def scanExponent : Str → Option Int × Str
  | [] => (none, [])
  | c :: s =>
    let signed := scanSign s
    let digits := signed.2.takeWhile isDigit
    if (c = chr 'e' ∨ c = chr 'E') ∧ digits ≠ [] then
      (some (if signed.1 then -(digitsValue digits : Int) else digitsValue digits),
        signed.2.dropWhile isDigit)
    else (none, c :: s)

/-- A number without its sign: its whole digits, and what follows them. -/
def scanWhole : Str → Option (Str × Str)
  | [] => none
  | c :: s =>
    if c = chr '0' then some ([c], s)
    else if isDigit c then some (c :: s.takeWhile isDigit, s.dropWhile isDigit)
    else none

def signed (neg : Bool) (n : Nat) : Int := if neg then -(n : Int) else n

/-- `int` reads at most this many digits. -/
def maxDigits : Nat := 4300

/-- A number, an `int` where it has neither a point nor an exponent. -/
def scanNumber (s : Str) : Except LoadsError (Json × Str) :=
  let neg : Bool := s.head? = some (chr '-')
  match scanWhole (if neg then s.tail else s) with
  | none => .error .decode
  | some (whole, rest) =>
    let frac := scanFraction rest
    let exp := scanExponent frac.2
    if frac.1 = [] ∧ exp.1 = none then
      if maxDigits < whole.length then .error .digits
      else .ok (.int (signed neg (digitsValue whole)), rest)
    else
      .ok (.float (PyFloat.ofDecimal (signed neg (digitsValue (whole ++ frac.1)))
        (exp.1.getD 0 - frac.1.length)), exp.2)

/-- What follows the text, where the rest starts with it. -/
def rest? (text s : Str) : Option Str :=
  if text.isPrefixOf s then some (s.drop text.length) else none

/-- The constants, each with its text. -/
def constants : List (Str × Json) := [
  (Py.str "null", .null), (Py.str "true", .bool true), (Py.str "false", .bool false),
  (Py.str "NaN", .float .nan), (Py.str "Infinity", .float .inf),
  (Py.str "-Infinity", .float .negInf)]

/-- A value that is neither a string nor a container. -/
def scanAtom (s : Str) : Except LoadsError (Json × Str) :=
  match constants.findSome? fun k => (rest? k.1 s).map fun t => (k.2, t) with
  | some r => .ok r
  | none => scanNumber s

/-- A string as a value or as a key. -/
def scanText (s : Str) : Except LoadsError (Str × Str) :=
  match scanString none s with
  | some r => .ok r
  | none => .error .decode

/-- The character that has to come next, after white space. -/
def expect (c : CodePoint) (s : Str) : Except LoadsError Str :=
  match skipBlank s with
  | [] => .error .decode
  | d :: s => if d = c then .ok (skipBlank s) else .error .decode

mutual

/-- The value at the start of the text, and what follows it. -/
def scanValue : Nat → Str → Except LoadsError (Json × Str)
  | 0, _ => .error .decode
  | _ + 1, [] => .error .decode
  | fuel + 1, c :: s =>
    if c = quoteMark then (scanText s).map fun r => (.str r.1, r.2)
    else if c = openBrace then
      if (skipBlank s).head? = some closeBrace then .ok (.obj [], (skipBlank s).tail)
      else (scanMembers fuel (skipBlank s)).map fun r => (.obj r.1, r.2)
    else if c = openBracket then
      if (skipBlank s).head? = some closeBracket then .ok (.arr [], (skipBlank s).tail)
      else (scanItems fuel (skipBlank s)).map fun r => (.arr r.1, r.2)
    else scanAtom (c :: s)

/-- The members of an object from a key on. -/
def scanMembers : Nat → Str → Except LoadsError (List (Str × Json) × Str)
  | 0, _ => .error .decode
  | _ + 1, [] => .error .decode
  | fuel + 1, c :: s =>
    if c = quoteMark then do
      let key ← scanText s
      let value ← scanValue fuel (← expect colon key.2)
      match skipBlank value.2 with
      | [] => .error .decode
      | d :: t =>
        if d = closeBrace then .ok ([(key.1, value.1)], t)
        else if d = comma then do
          let more ← scanMembers fuel (skipBlank t)
          return ((key.1, value.1) :: more.1, more.2)
        else .error .decode
    else .error .decode

/-- The items of an array from a value on. -/
def scanItems : Nat → Str → Except LoadsError (List Json × Str)
  | 0, _ => .error .decode
  | fuel + 1, s => do
    let value ← scanValue fuel s
    match skipBlank value.2 with
    | [] => .error .decode
    | d :: t =>
      if d = closeBracket then .ok ([value.1], t)
      else if d = comma then do
        let more ← scanItems fuel (skipBlank t)
        return (value.1 :: more.1, more.2)
      else .error .decode

end

/-- `json.loads(s)`. A value takes at most two calls for each of its characters. -/
def loads (s : Str) : Except LoadsError Json :=
  if s.head? = some 0xfeff then .error .decode
  else do
    let value ← scanValue (2 * s.length + 2) (skipBlank s)
    if skipBlank value.2 = [] then .ok value.1 else .error .decode

end Json

end Py
