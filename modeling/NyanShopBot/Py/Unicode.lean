import NyanShopBot.Py.Basic

/-!
# Categories and compatibility forms

`category` and `normalizeNFKC`, of the module `unicodedata`. What they say outside ASCII
is a parameter, `UnicodeTables`; the controls and the surrogates are computed.
-/

namespace Py

/-- The general categories that are told apart: `Cc`, `Cf`, `Cs`, another one of the
group `C`, and any other one. -/
inductive Category where
  | control | format | surrogate | unassigned | visible
deriving DecidableEq

class UnicodeTables where
  category : CodePoint → Category
  nfkc : Str → Str

/-- `unicodedata.category`. -/
def category [UnicodeTables] (c : CodePoint) : Category :=
  if c.val < 0x20 || (0x7f ≤ c.val && c.val < 0xa0) then .control
  else if c.val < 0x7f then .visible
  else if isSurrogate c then .surrogate
  else UnicodeTables.category c

/-- `unicodedata.normalize("NFKC", s)`, which leaves ASCII text as it is. -/
def normalizeNFKC [UnicodeTables] (s : Str) : Str :=
  if s.all (·.val < 128) then s else UnicodeTables.nfkc s

/-- The normal forms of the characters, each by itself. -/
def normalizeEach [UnicodeTables] (s : Str) : Str := s.flatMap fun c => normalizeNFKC [c]

section

variable [UnicodeTables] {s t : Str}

theorem normalizeEach_cons (c : CodePoint) (s : Str) :
    normalizeEach (c :: s) = normalizeNFKC [c] ++ normalizeEach s := List.flatMap_cons

theorem normalizeEach_append (s t : Str) :
    normalizeEach (s ++ t) = normalizeEach s ++ normalizeEach t := List.flatMap_append

theorem normalizeEach_of_fixed (h : ∀ c ∈ s, normalizeNFKC [c] = [c]) : normalizeEach s = s := by
  induction s with
  | nil => rfl
  | cons c s ih =>
    rw [normalizeEach_cons, h c List.mem_cons_self,
      ih fun d hd => h d (List.mem_cons_of_mem _ hd)]
    rfl

end

/-- Unicode tables of which the compatibility form is one. Below `U+00A0` characters are
normal and compose to others only; so a run of them in a normal form is one of the forms of
the characters. The solidus composes with nothing. -/
class NormalForms extends UnicodeTables where
  low (c : CodePoint) : c.val < 0xa0 → normalizeNFKC [c] = [c]
  stable {s : Str} {c : CodePoint} : c ∈ normalizeNFKC s → normalizeNFKC [c] = [c]
  solidus (s t : Str) : normalizeNFKC (s ++ chr '/' :: t) =
    normalizeNFKC s ++ chr '/' :: normalizeNFKC t
  runs (s w : Str) : w <:+: normalizeNFKC s → (∀ c ∈ w, c.val < 0xa0) → w <:+: normalizeEach s
  replacement : normalizeNFKC [0xfffd] = [0xfffd]
  controls (c : CodePoint) : Py.category c = .control → c.val < 0xa0

section

variable [NormalForms]

end

class CaseFolding where
  fold : Str → Str

/-- `s.casefold()`, which lowers ASCII text. -/
def casefold [CaseFolding] (s : Str) : Str :=
  if s.all (·.val < 128) then
    s.map fun c => if 0x41 ≤ c.val ∧ c.val ≤ 0x5a then chr (Char.ofNat (c.val + 32)) else c
  else CaseFolding.fold s

theorem category_of_ascii [UnicodeTables] {c : CodePoint} (h : 0x20 ≤ c.val ∧ c.val < 0x7f) :
    category c = .visible := by
  rw [category, if_neg, if_pos h.2]
  simp only [Bool.or_eq_true, Bool.and_eq_true, decide_eq_true_eq]
  omega

end Py
