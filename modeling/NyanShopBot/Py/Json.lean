import Mathlib.Data.List.Sort
import NyanShopBot.Py.Basic
import NyanShopBot.Py.FloatText

/-!
# JSON values

`Json` is a value as `json.loads` returns it; an object lists its members.
`Json.dumps` is `json.dumps` with the compact separators: `Json.canonical` in ASCII with
sorted keys, `Json.compact` with `ensure_ascii=False` in the order of the members.
-/

namespace Py

inductive Json where
  | null
  | bool (b : Bool)
  | int (n : Int)
  | float (x : PyFloat)
  | str (s : Str)
  | arr (items : List Json)
  | obj (members : List (Str × Json))

namespace Json

/-- The last member with the key, as a Python `dict` keeps it. -/
def get? (members : List (Str × Json)) (k : Str) : Option Json :=
  (members.reverse.find? fun m => m.1 = k).map (·.2)

/-- `members.get(k)`, where a missing member is `None`. -/
def get (members : List (Str × Json)) (k : Str) : Json := (get? members k).getD null

/-- `set(members) == set(keys)`. -/
def hasKeys (members : List (Str × Json)) (keys : List Str) : Bool :=
  members.all (fun m => keys.contains m.1) && keys.all fun k => members.any fun m => m.1 = k

/-- `value == 1`. -/
def isOne : Json → Bool
  | int n => n == 1
  | bool b => b
  | float (.finite q) => q == 1
  | _ => false

/-- `\uXXXX` of one UTF-16 unit. -/
def unitEscape (n : Nat) : Str := Py.str "\\u" ++ hexDigits 4 n

/-- The escapes that both forms of a string have. -/
def shortEscape (c : CodePoint) : Option Str :=
  let n := c.val
  if n = 0x22 then some (Py.str "\\\"")
  else if n = 0x5c then some (Py.str "\\\\")
  else if n = 0x0a then some (Py.str "\\n")
  else if n = 0x0d then some (Py.str "\\r")
  else if n = 0x09 then some (Py.str "\\t")
  else if n = 0x08 then some (Py.str "\\b")
  else if n = 0x0c then some (Py.str "\\f")
  else none

/-- `ensure_ascii=True`. -/
def escapeAscii (c : CodePoint) : Str :=
  let n := c.val
  match shortEscape c with
  | some s => s
  | none =>
    if 0x20 ≤ n && n < 0x7f then [c]
    else if n < 0x10000 then unitEscape n
    else unitEscape (0xd800 + (n - 0x10000) / 0x400) ++ unitEscape (0xdc00 + (n - 0x10000) % 0x400)

/-- `ensure_ascii=False`. -/
def escapeText (c : CodePoint) : Str :=
  match shortEscape c with
  | some s => s
  | none => if c.val < 0x20 then unitEscape c.val else [c]

section

variable (escape : CodePoint → Str) (sortKeys : Bool)

def quote (s : Str) : Str := Py.str "\"" ++ s.flatMap escape ++ Py.str "\""

/-- Each member as `"key":value`, sorted by key where that is asked for. -/
def joinMembers (parts : List (Str × Str)) : Str :=
  let ordered := if sortKeys then parts.insertionSort fun a b => strLe a.1 b.1 = true else parts
  join (Py.str ",") (ordered.map fun m => quote escape m.1 ++ Py.str ":" ++ m.2)

mutual

def dumps : Json → Str
  | null => Py.str "null"
  | bool true => Py.str "true"
  | bool false => Py.str "false"
  | int n => intStr n
  | float x => x.repr
  | str s => quote escape s
  | arr items => Py.str "[" ++ join (Py.str ",") (dumpsItems items) ++ Py.str "]"
  | obj members =>
    Py.str "\x7b" ++ joinMembers escape sortKeys (dumpsMembers members) ++ Py.str "\x7d"

def dumpsItems : List Json → List Str
  | [] => []
  | j :: items => dumps j :: dumpsItems items

def dumpsMembers : List (Str × Json) → List (Str × Str)
  | [] => []
  | (k, j) :: members => (k, dumps j) :: dumpsMembers members

end

end

def canonical : Json → Str := dumps escapeAscii true

def compact : Json → Str := dumps escapeText false

end Json

end Py
