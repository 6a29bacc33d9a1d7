import Mathlib.Data.List.Basic

/-!
# Python text, bytes and hashing

`Str` is a Python `str`: a list of code points, surrogates included. What the
interpreter takes from its Unicode database is a parameter, `UnicodeData`, and
so are the digests, `Hashlib`; everything else (`strip`, `isprintable`,
`encodeUtf8`, `hexdigest`, `uuid5`) is computed.
-/

namespace Py

abbrev CodePoint := Fin 0x110000

abbrev Str := List CodePoint

abbrev Bytes := List UInt8

/-! Instances under a name, which all modules share. -/

instance instNeZeroCodePoint : @NeZero Nat Zero.ofOfNat0 0x110000 := Nat.instNeZeroSucc

instance instLawfulBEqCodePoint : LawfulBEq CodePoint := inferInstance

instance instLawfulBEqStr : LawfulBEq Str := inferInstance

def chr (c : Char) : CodePoint :=
  ⟨c.toNat, by rcases c.valid with h | h <;> (have : c.val.toNat = c.toNat := rfl; omega)⟩

/-- A string literal as a Python `str`. -/
def str (s : String) : Str := s.toList.map chr

/-- `a <= b` of two `str`: by their code points. -/
def strLe : Str → Str → Bool
  | [], _ => true
  | _ :: _, [] => false
  | a :: as, b :: bs => a.val < b.val || (a.val == b.val && strLe as bs)

theorem strLe_total : ∀ a b : Str, strLe a b = true ∨ strLe b a = true
  | [], _ => .inl rfl
  | _ :: _, [] => .inr rfl
  | a :: as, b :: bs => by
    simp only [strLe, Bool.or_eq_true, Bool.and_eq_true, decide_eq_true_eq, beq_iff_eq]
    rcases Nat.lt_trichotomy a.val b.val with h | h | h
    · exact .inl (.inl h)
    · rcases strLe_total as bs with ih | ih
      · exact .inl (.inr ⟨h, ih⟩)
      · exact .inr (.inr ⟨h.symm, ih⟩)
    · exact .inr (.inl h)

theorem strLe_trans : ∀ {a b c : Str}, strLe a b = true → strLe b c = true → strLe a c = true
  | [], _, _, _, _ => rfl
  | _ :: _, [], _, h, _ => by cases h
  | _ :: _, _ :: _, [], _, h => by cases h
  | a :: as, b :: bs, c :: cs, h, h' => by
    simp only [strLe, Bool.or_eq_true, Bool.and_eq_true, decide_eq_true_eq, beq_iff_eq] at h h' ⊢
    rcases h with h | ⟨h, ih⟩ <;> rcases h' with h' | ⟨h', ih'⟩
    · exact .inl (by omega)
    · exact .inl (by omega)
    · exact .inl (by omega)
    · exact .inr ⟨h.trans h', strLe_trans ih ih'⟩

/-! ## The Unicode database -/

/-- What depends on the Unicode database of the interpreter, outside ASCII. -/
class UnicodeData where
  printable : CodePoint → Bool
  nfc : Str → Str

def isSurrogate (c : CodePoint) : Bool := 0xd800 ≤ c.val && c.val ≤ 0xdfff

/-- `str.isspace` of one code point. -/
def isSpace (c : CodePoint) : Bool :=
  let n := c.val
  (9 ≤ n && n ≤ 13) || (28 ≤ n && n ≤ 32) || n == 0x85 || n == 0xa0 || n == 0x1680 ||
    (0x2000 ≤ n && n ≤ 0x200a) || n == 0x2028 || n == 0x2029 || n == 0x202f || n == 0x205f ||
    n == 0x3000

/-- `str.isprintable` of one code point: controls, separators other than the
ASCII space and surrogates are not printable. -/
def isPrintable [UnicodeData] (c : CodePoint) : Bool :=
  if c.val < 0x7f then 0x20 ≤ c.val
  else if c.val < 0xa0 || isSurrogate c || isSpace c then false
  else UnicodeData.printable c

def lstrip (s : Str) : Str := s.dropWhile isSpace

def rstrip (s : Str) : Str := (s.reverse.dropWhile isSpace).reverse

def strip (s : Str) : Str := rstrip (lstrip s)

def isprintable [UnicodeData] (s : Str) : Bool := s.all isPrintable

/-- `unicodedata.normalize("NFC", s)`, which leaves ASCII text as it is. -/
def normalizeNFC [UnicodeData] (s : Str) : Str :=
  if s.all (·.val < 128) then s else UnicodeData.nfc s

/-- `str(n)` of a natural number. -/
def natStr (n : Nat) : Str := (Nat.toDigits 10 n).map chr

/-- `str(n)`. -/
def intStr : Int → Str
  | .ofNat n => natStr n
  | .negSucc n => chr '-' :: natStr (n + 1)

theorem chr_injective : Function.Injective chr := fun a b h => by
  have h' : (chr a).val = (chr b).val := by rw [h]
  exact Char.toNat_inj.1 h'

theorem natStr_injective : Function.Injective natStr := fun m n h => by
  have h' : Nat.toDigits 10 m = Nat.toDigits 10 n := List.map_injective_iff.2 chr_injective h
  rw [← Nat.ofDigitChars_ten_toDigits (n := m), h', Nat.ofDigitChars_ten_toDigits]

/-- A number has digits only. -/
theorem chr_not_mem_natStr {c : Char} (hc : c.isDigit = false) (n : Nat) : chr c ∉ natStr n := by
  intro h
  obtain ⟨d, hd, e⟩ := List.mem_map.1 h
  obtain rfl := chr_injective e
  rw [Nat.isDigit_of_mem_toDigits (by decide) (by decide) hd] at hc
  cases hc

theorem not_mem_natStr (n : Nat) : chr '-' ∉ natStr n := chr_not_mem_natStr (by decide) n

theorem intStr_injective : Function.Injective intStr := fun a b h => by
  cases a with
  | ofNat m =>
    cases b with
    | ofNat n => exact congrArg Int.ofNat (natStr_injective h)
    | negSucc n =>
      have h' : natStr m = chr '-' :: natStr (n + 1) := h
      exact absurd (h' ▸ List.mem_cons_self) (not_mem_natStr m)
  | negSucc m =>
    cases b with
    | ofNat n =>
      have h' : chr '-' :: natStr (m + 1) = natStr n := h
      exact absurd (h' ▸ List.mem_cons_self) (not_mem_natStr n)
    | negSucc n =>
      have h' := natStr_injective (List.cons_inj_right _ |>.1 h)
      exact congrArg Int.negSucc (Nat.succ.inj h')

/-- `sep.join(parts)`. -/
def join (sep : Str) : List Str → Str
  | [] => []
  | [p] => p
  | p :: q :: ps => p ++ sep ++ join sep (q :: ps)

/-! ## UTF-8 -/

/-- The UTF-8 bytes of one code point; a surrogate has none. -/
def encodeChar (c : CodePoint) : Option Bytes :=
  let n := c.val
  if isSurrogate c then none
  else if n < 0x80 then some [n.toUInt8]
  else if n < 0x800 then some [(0xc0 + n / 64).toUInt8, (0x80 + n % 64).toUInt8]
  else if n < 0x10000 then
    some [(0xe0 + n / 4096).toUInt8, (0x80 + n / 64 % 64).toUInt8, (0x80 + n % 64).toUInt8]
  else
    some [(0xf0 + n / 262144).toUInt8, (0x80 + n / 4096 % 64).toUInt8,
      (0x80 + n / 64 % 64).toUInt8, (0x80 + n % 64).toUInt8]

/-- `s.encode("utf-8")`, none where it raises `UnicodeEncodeError`. -/
def encodeUtf8 : Str → Option Bytes
  | [] => some []
  | c :: s => do return (← encodeChar c) ++ (← encodeUtf8 s)

/-! ## Hashing -/

class Hashlib where
  sha1 : Bytes → BitVec 160
  sha256 : Bytes → BitVec 256

/-- `n` lower-case hexadecimal digits of `v`, the most significant first. -/
def hexDigits : Nat → Nat → Str
  | 0, _ => []
  | n + 1, v => hexDigits n (v / 16) ++ [chr (Nat.digitChar (v % 16))]

/-- `hashlib.sha256(data).hexdigest()`. -/
def sha256Hex [Hashlib] (data : Bytes) : Str := hexDigits 64 (Hashlib.sha256 data).toNat

/-- `digest()`: the bytes of `v`, the most significant first. -/
def toBytes : Nat → Nat → Bytes
  | 0, _ => []
  | n + 1, v => toBytes n (v / 256) ++ [v.toUInt8]

/-- `hmac.new(key, message, sha256)`, of RFC 2104 with the 64-byte blocks of SHA-256. -/
def hmacSha256 [Hashlib] (key message : Bytes) : BitVec 256 :=
  let short := if 64 < key.length then toBytes 32 (Hashlib.sha256 key).toNat else key
  let block := short ++ List.replicate (64 - short.length) 0
  let inner := Hashlib.sha256 (block.map (· ^^^ 0x36) ++ message)
  Hashlib.sha256 (block.map (· ^^^ 0x5c) ++ toBytes 32 inner.toNat)

/-- `hmac.new(key, message, sha256).hexdigest()`. -/
def hmacSha256Hex [Hashlib] (key message : Bytes) : Str :=
  hexDigits 64 (hmacSha256 key message).toNat

@[simp] theorem length_hexDigits : ∀ n v : Nat, (hexDigits n v).length = n
  | 0, _ => rfl
  | n + 1, v => by simp [hexDigits, length_hexDigits]

@[simp] theorem length_sha256Hex [Hashlib] (data : Bytes) : (sha256Hex data).length = 64 :=
  length_hexDigits _ _

/-- The eight, four, four, four and twelve digits of a UUID. -/
def uuidStr (u : BitVec 128) : Str :=
  let d := hexDigits 32 u.toNat
  join (str "-") [d.take 8, (d.drop 8).take 4, (d.drop 12).take 4, (d.drop 16).take 4, d.drop 20]

/-- `uuid5(namespace, name)` on the bytes of both: the first half of the SHA-1
digest with the version and variant bits of RFC 4122. -/
def uuid5 [Hashlib] (namespace' name : Bytes) : BitVec 128 :=
  let d := (Hashlib.sha1 (namespace' ++ name)).toNat >>> 32
  let top := d >>> 80
  let mid := (d >>> 64) % 0x1000
  let low := d % 0x4000000000000000
  BitVec.ofNat 128 ((top <<< 80) + ((0x5000 + mid) <<< 64) + (0x8000000000000000 + low))

/-! ## Exceptions -/

theorem except_bind_ok {ε α β : Type} {x : Except ε α} {f : α → Except ε β} {b : β} :
    x >>= f = .ok b ↔ ∃ a, x = .ok a ∧ f a = .ok b := by
  cases x <;> simp [bind, Except.bind]

theorem except_bind_error {ε α β : Type} {x : Except ε α} {f : α → Except ε β} {e : ε} :
    x >>= f = .error e ↔ x = .error e ∨ ∃ a, x = .ok a ∧ f a = .error e := by
  cases x <;> simp [bind, Except.bind]

/-- Where every call returns, the calls in turn return the list of the results. -/
theorem mapM_ok {ε α β : Type} {f : α → Except ε β} {R : α → β → Prop} : ∀ {l : List α},
    (∀ a ∈ l, ∃ b, f a = .ok b ∧ R a b) → ∃ bs, l.mapM f = .ok bs ∧ List.Forall₂ R l bs
  | [], _ => ⟨[], rfl, .nil⟩
  | a :: l, h => by
    obtain ⟨b, hb, hR⟩ := h a List.mem_cons_self
    obtain ⟨bs, hbs, hall⟩ := mapM_ok fun x hx => h x (List.mem_cons_of_mem a hx)
    exact ⟨b :: bs, by simp [List.mapM_cons, hb, hbs, bind, Except.bind, pure, Except.pure],
      .cons hR hall⟩

/-- The results are those of the calls, in turn. -/
theorem forall₂_of_mapM {ε α β : Type} {f : α → Except ε β} : ∀ {l : List α} {bs : List β},
    l.mapM f = .ok bs → List.Forall₂ (fun a b => f a = .ok b) l bs
  | [], _, h => by
    cases h
    exact .nil
  | a :: l, bs, h => by
    rw [List.mapM_cons] at h
    obtain ⟨b, hb, h⟩ := except_bind_ok.1 h
    obtain ⟨bs', hbs', h⟩ := except_bind_ok.1 h
    cases h
    exact .cons hb (forall₂_of_mapM hbs')

/-- What is related to something of the first list. -/
theorem exists_of_forall₂ {α β : Type} {R : α → β → Prop} {b : β} : ∀ {l : List α} {bs : List β},
    List.Forall₂ R l bs → b ∈ bs → ∃ a ∈ l, R a b
  | _, _, .nil, h => by cases h
  | a :: l, b' :: bs, .cons hR hall, h => by
    rcases List.mem_cons.1 h with rfl | h
    · exact ⟨a, List.mem_cons_self, hR⟩
    · obtain ⟨x, hx, hR⟩ := exists_of_forall₂ hall h
      exact ⟨x, List.mem_cons_of_mem a hx, hR⟩

/-- One call that raises makes them raise. -/
theorem mapM_error {ε α β : Type} {f : α → Except ε β} {a : α} : ∀ {l : List α}, a ∈ l →
    (∃ e, f a = .error e) → ∃ e, l.mapM f = .error e
  | x :: l, h, ⟨e, he⟩ => by
    rw [List.mapM_cons]
    cases hx : f x with
    | error e' => exact ⟨e', rfl⟩
    | ok b =>
      rcases List.mem_cons.1 h with rfl | h
      · rw [he] at hx
        cases hx
      · obtain ⟨e', he'⟩ := mapM_error h ⟨e, he⟩
        exact ⟨e', by rw [he']; rfl⟩

/-- Where they raise, one of the calls does. -/
theorem mapM_raises {ε α β : Type} {f : α → Except ε β} {e : ε} : ∀ {l : List α},
    l.mapM f = .error e → ∃ a ∈ l, f a = .error e
  | [], h => by cases h
  | x :: l, h => by
    rw [List.mapM_cons] at h
    rcases except_bind_error.1 h with h | ⟨b, -, h⟩
    · exact ⟨x, List.mem_cons_self, h⟩
    · rcases except_bind_error.1 h with h | ⟨bs, -, h⟩
      · obtain ⟨a, ha, he⟩ := mapM_raises h
        exact ⟨a, List.mem_cons_of_mem x ha, he⟩
      · cases h

theorem mapM_returns_iff {ε α β : Type} {f : α → Except ε β} {l : List α} :
    (∃ bs, l.mapM f = .ok bs) ↔ ∀ a ∈ l, ∃ b, f a = .ok b := by
  constructor
  · rintro ⟨bs, hbs⟩ a ha
    cases hfa : f a with
    | ok b => exact ⟨b, rfl⟩
    | error e =>
      obtain ⟨e', he'⟩ := mapM_error ha ⟨e, hfa⟩
      rw [he'] at hbs
      cases hbs
  · intro h
    obtain ⟨bs, hbs, -⟩ := mapM_ok (R := fun _ _ => True) fun a ha => by
      obtain ⟨b, hb⟩ := h a ha
      exact ⟨b, hb, trivial⟩
    exact ⟨bs, hbs⟩

theorem isSurrogate_chr (c : Char) : isSurrogate (chr c) = false := by
  have hc : c.val.toNat = c.toNat := rfl
  rw [Bool.eq_false_iff]
  intro hsur
  rw [isSurrogate, Bool.and_eq_true] at hsur
  have hlow : 0xd800 ≤ c.toNat := of_decide_eq_true hsur.1
  have hhigh : c.toNat ≤ 0xdfff := of_decide_eq_true hsur.2
  rcases c.valid with h | h <;> omega

/-! ## Storable text -/

theorem isPrintable_ne_zero [UnicodeData] {c : CodePoint} (h : isPrintable c = true) :
    c.val ≠ 0 := by
  intro h0
  simp [isPrintable, h0] at h

theorem isPrintable_not_surrogate [UnicodeData] {c : CodePoint} (h : isPrintable c = true) :
    isSurrogate c = false := by
  unfold isPrintable at h
  split at h
  · simp [isSurrogate]; omega
  · split at h
    · cases h
    · simp_all

end Py
