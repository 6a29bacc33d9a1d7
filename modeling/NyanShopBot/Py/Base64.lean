import NyanShopBot.Py.Basic

/-!
# Base64

`urlsafeB64encode` is `base64.urlsafe_b64encode`, with its padding, and `b64decode` the
decoder of that alphabet that validates its input. What the encoder wrote is read back,
also where its padding was cut off and put on again (`b64decode_repadded`).
-/

namespace Py

/-- The digit of six bits: letters, digits, `-` and `_`. -/
def b64Digit (n : Nat) : CodePoint :=
  if n < 26 then chr (Char.ofNat (0x41 + n))
  else if n < 52 then chr (Char.ofNat (0x61 + (n - 26)))
  else if n < 62 then chr (Char.ofNat (0x30 + (n - 52)))
  else if n = 62 then chr '-'
  else chr '_'

def urlsafeB64encode : Bytes → Str
  | [] => []
  | [a] => [b64Digit (a.toNat / 4), b64Digit (a.toNat % 4 * 16), chr '=', chr '=']
  | [a, b] => [b64Digit (a.toNat / 4), b64Digit (a.toNat % 4 * 16 + b.toNat / 16),
      b64Digit (b.toNat % 16 * 4), chr '=']
  | a :: b :: c :: rest =>
    b64Digit (a.toNat / 4) :: b64Digit (a.toNat % 4 * 16 + b.toNat / 16) ::
      b64Digit (b.toNat % 16 * 4 + c.toNat / 64) :: b64Digit (c.toNat % 64) ::
      urlsafeB64encode rest

/-- `s.rstrip(c)`. -/
def rstripChar (c : CodePoint) (s : Str) : Str := (s.reverse.dropWhile (· = c)).reverse

theorem b64Digit_not_surrogate (n : Nat) : isSurrogate (b64Digit n) = false := by
  unfold b64Digit
  split_ifs <;> exact isSurrogate_chr _

theorem urlsafeB64encode_not_surrogate : ∀ b : Bytes,
    (urlsafeB64encode b).any isSurrogate = false
  | [] => rfl
  | [a] => by simp [urlsafeB64encode, b64Digit_not_surrogate, isSurrogate_chr]
  | [a, b] => by simp [urlsafeB64encode, b64Digit_not_surrogate, isSurrogate_chr]
  | a :: b :: c :: rest => by
    have ih := urlsafeB64encode_not_surrogate rest
    simpa [urlsafeB64encode, b64Digit_not_surrogate] using ih

theorem mem_of_mem_rstripChar {c x : CodePoint} {s : Str} (h : x ∈ rstripChar c s) : x ∈ s :=
  List.mem_reverse.1 ((List.dropWhile_sublist _).subset (List.mem_reverse.1 h))

example : rstripChar (chr '=') (urlsafeB64encode [0x61, 0x3f]) = str "YT8" := by decide +kernel

/-- Text without a surrogate has UTF-8 bytes. -/
theorem encodeUtf8_isSome : ∀ {s : Str}, s.any isSurrogate = false → (encodeUtf8 s).isSome = true
  | [], _ => rfl
  | c :: s, h => by
    rw [List.any_cons, Bool.or_eq_false_iff] at h
    obtain ⟨b, hb⟩ := Option.isSome_iff_exists.1 (encodeUtf8_isSome h.2)
    have hc : (encodeChar c).isSome = true := by
      simp only [encodeChar, h.1]
      split_ifs <;> simp_all
    obtain ⟨d, hd⟩ := Option.isSome_iff_exists.1 hc
    simp [encodeUtf8, hb, hd]

/-! ## Decoding -/

/-- The six bits of a digit; `+` and `/` count as `-` and `_`. -/
def b64Value (c : CodePoint) : Option Nat :=
  let n := c.val
  if 0x41 ≤ n ∧ n ≤ 0x5a then some (n - 0x41)
  else if 0x61 ≤ n ∧ n ≤ 0x7a then some (n - 0x61 + 26)
  else if 0x30 ≤ n ∧ n ≤ 0x39 then some (n - 0x30 + 52)
  else if c = chr '+' ∨ c = chr '-' then some 62
  else if c = chr '/' ∨ c = chr '_' then some 63
  else none

/-- Where `a2b_base64` is: the digits of the group so far, the bits that the last one
left, the padding since a digit, and whether there was any padding. -/
structure B64State where
  quad : Nat
  left : Nat
  pads : Nat
  padding : Bool

def B64State.start : B64State := ⟨0, 0, 0, false⟩

/-- `binascii.a2b_base64(data, strict_mode=True)` after the first character, none where it
raises `binascii.Error`. -/
def a2bFrom (st : B64State) : Str → Option Bytes
  | [] => if st.quad = 0 then some [] else none
  | c :: s =>
    if c = chr '=' then
      if st.quad < 2 then a2bFrom { st with padding := true } s
      else if 4 ≤ st.quad + (st.pads + 1) then (if s = [] then some [] else none)
      else a2bFrom { st with pads := st.pads + 1, padding := true } s
    else match b64Value c with
      | none => none
      | some v =>
        if st.padding then none
        else if st.quad = 0 then a2bFrom ⟨1, v, 0, false⟩ s
        else if st.quad = 1 then
          (a2bFrom ⟨2, v % 16, 0, false⟩ s).map ((st.left * 4 + v / 16).toUInt8 :: ·)
        else if st.quad = 2 then
          (a2bFrom ⟨3, v % 4, 0, false⟩ s).map ((st.left * 16 + v / 4).toUInt8 :: ·)
        else (a2bFrom .start s).map ((st.left * 64 + v).toUInt8 :: ·)

/-- `base64.b64decode(s, altchars=b"-_", validate=True)`, none where it raises a `ValueError`:
for text that is not ASCII, and as `binascii.Error`. -/
def b64decode (s : Str) : Option Bytes :=
  if s.all (·.val < 128) then
    if s.head? = some (chr '=') then none else a2bFrom .start s
  else none

/-! ### Of encoded bytes -/

theorem b64Digit_spec {n : Nat} (h : n < 64) :
    b64Value (b64Digit n) = some n ∧ b64Digit n ≠ chr '=' ∧ (b64Digit n).val < 128 := by
  have hall : ∀ n : Fin 64, b64Value (b64Digit n) = some n.val ∧ b64Digit n ≠ chr '=' ∧
      (b64Digit n).val < 128 := by
    decide +kernel
  exact hall ⟨n, h⟩

section

variable {n l : Nat} {s : Str}

theorem a2bFrom_first (h : n < 64) :
    a2bFrom .start (b64Digit n :: s) = a2bFrom ⟨1, n, 0, false⟩ s := by
  obtain ⟨hv, hne, -⟩ := b64Digit_spec h
  rw [a2bFrom, if_neg hne, hv]
  rfl

theorem a2bFrom_second (h : n < 64) : a2bFrom ⟨1, l, 0, false⟩ (b64Digit n :: s) =
    (a2bFrom ⟨2, n % 16, 0, false⟩ s).map ((l * 4 + n / 16).toUInt8 :: ·) := by
  obtain ⟨hv, hne, -⟩ := b64Digit_spec h
  rw [a2bFrom, if_neg hne, hv]
  rfl

theorem a2bFrom_third (h : n < 64) : a2bFrom ⟨2, l, 0, false⟩ (b64Digit n :: s) =
    (a2bFrom ⟨3, n % 4, 0, false⟩ s).map ((l * 16 + n / 4).toUInt8 :: ·) := by
  obtain ⟨hv, hne, -⟩ := b64Digit_spec h
  rw [a2bFrom, if_neg hne, hv]
  rfl

theorem a2bFrom_fourth (h : n < 64) : a2bFrom ⟨3, l, 0, false⟩ (b64Digit n :: s) =
    (a2bFrom .start s).map ((l * 64 + n).toUInt8 :: ·) := by
  obtain ⟨hv, hne, -⟩ := b64Digit_spec h
  rw [a2bFrom, if_neg hne, hv]
  rfl

end

/-- A byte is what its digits say. -/
theorem toUInt8_eq {a : UInt8} {n : Nat} (h : n = a.toNat) : n.toUInt8 = a := by
  rw [h]
  exact UInt8.ofNat_toNat

/-- **Encoded bytes are read back.** -/
theorem a2bFrom_urlsafeB64encode : ∀ b : Bytes, a2bFrom .start (urlsafeB64encode b) = some b
  | [] => rfl
  | [a] => by
    have ha := a.toNat_lt
    rw [urlsafeB64encode, a2bFrom_first (by omega), a2bFrom_second (by omega),
      toUInt8_eq (a := a) (by omega)]
    rfl
  | [a, b] => by
    have ha := a.toNat_lt
    have hb := b.toNat_lt
    rw [urlsafeB64encode, a2bFrom_first (by omega), a2bFrom_second (by omega),
      a2bFrom_third (by omega), toUInt8_eq (a := a) (by omega), toUInt8_eq (a := b) (by omega)]
    rfl
  | a :: b :: c :: rest => by
    have ha := a.toNat_lt
    have hb := b.toNat_lt
    have hc := c.toNat_lt
    rw [urlsafeB64encode, a2bFrom_first (by omega), a2bFrom_second (by omega),
      a2bFrom_third (by omega), a2bFrom_fourth (by omega), toUInt8_eq (a := a) (by omega),
      toUInt8_eq (a := b) (by omega), toUInt8_eq (a := c) (by omega),
      a2bFrom_urlsafeB64encode rest]
    rfl

/-- The digits of encoded bytes, and how much padding follows them. -/
theorem urlsafeB64encode_split : ∀ b : Bytes, ∃ (digits : Str) (k : Nat),
    urlsafeB64encode b = digits ++ List.replicate k (chr '=') ∧
    (∀ c ∈ digits, c ≠ chr '=' ∧ c.val < 128) ∧ k < 4 ∧ (digits.length + k) % 4 = 0 ∧
    digits.length = (4 * b.length + 2) / 3
  | [] => ⟨[], 0, rfl, by simp, by omega, rfl, rfl⟩
  | [a] => by
    have ha := a.toNat_lt
    refine ⟨[b64Digit (a.toNat / 4), b64Digit (a.toNat % 4 * 16)], 2, rfl, ?_, by omega,
      by simp, by simp⟩
    simp only [List.forall_mem_cons]
    exact ⟨(b64Digit_spec (by omega)).2, (b64Digit_spec (by omega)).2, by simp⟩
  | [a, b] => by
    have ha := a.toNat_lt
    have hb := b.toNat_lt
    refine ⟨[b64Digit (a.toNat / 4), b64Digit (a.toNat % 4 * 16 + b.toNat / 16),
      b64Digit (b.toNat % 16 * 4)], 1, rfl, ?_, by omega, by simp, by simp⟩
    simp only [List.forall_mem_cons]
    exact ⟨(b64Digit_spec (by omega)).2, (b64Digit_spec (by omega)).2,
      (b64Digit_spec (by omega)).2, by simp⟩
  | a :: b :: c :: rest => by
    have ha := a.toNat_lt
    have hb := b.toNat_lt
    have hc := c.toNat_lt
    obtain ⟨digits, k, he, hd, hk, hmod, hlen⟩ := urlsafeB64encode_split rest
    refine ⟨b64Digit (a.toNat / 4) :: b64Digit (a.toNat % 4 * 16 + b.toNat / 16) ::
      b64Digit (b.toNat % 16 * 4 + c.toNat / 64) :: b64Digit (c.toNat % 64) :: digits, k,
      by rw [urlsafeB64encode, he]; rfl, ?_, hk, ?_, ?_⟩
    · simp only [List.forall_mem_cons]
      exact ⟨(b64Digit_spec (by omega)).2, (b64Digit_spec (by omega)).2,
        (b64Digit_spec (by omega)).2, (b64Digit_spec (by omega)).2, hd⟩
    · simp only [List.length_cons]
      omega
    · simp only [List.length_cons, hlen]
      omega

theorem rstripChar_replicate {c : CodePoint} {s : Str} (h : ∀ x ∈ s, x ≠ c) (k : Nat) :
    rstripChar c (s ++ List.replicate k c) = s := by
  have hrep : ∀ k : Nat, (List.replicate k c ++ s.reverse).dropWhile (· = c) = s.reverse := by
    intro k
    induction k with
    | zero =>
      rw [List.replicate_zero, List.nil_append]
      cases hr : s.reverse with
      | nil => rfl
      | cons x t =>
        have hx : x ≠ c := h x (List.mem_reverse.1 (hr ▸ List.mem_cons_self))
        rw [List.dropWhile_cons_of_neg (by simpa using hx)]
    | succ k ih =>
      rw [List.replicate_succ, List.cons_append, List.dropWhile_cons_of_pos (by simp), ih]
  rw [rstripChar, List.reverse_append, List.reverse_replicate, hrep, List.reverse_reverse]

/-- The digits of encoded bytes, without their padding. -/
def b64Digits (b : Bytes) : Str := rstripChar (chr '=') (urlsafeB64encode b)

theorem length_b64Digits (b : Bytes) : (b64Digits b).length = (4 * b.length + 2) / 3 := by
  obtain ⟨digits, k, he, hd, -, -, hlen⟩ := urlsafeB64encode_split b
  rw [b64Digits, he, rstripChar_replicate fun x hx => (hd x hx).1, hlen]

/-- `"=" * (-len(s) % 4)`. -/
def b64Padding (s : Str) : Str := List.replicate ((4 - s.length % 4) % 4) (chr '=')

/-- **What was encoded and cut is decoded** once it is padded again. -/
theorem b64decode_repadded (b : Bytes) :
    b64decode (b64Digits b ++ b64Padding (b64Digits b)) = some b := by
  obtain ⟨digits, k, he, hd, hk, hmod, -⟩ := urlsafeB64encode_split b
  have hcut : b64Digits b = digits := by
    rw [b64Digits, he, rstripChar_replicate fun x hx => (hd x hx).1]
  have hpad : b64Digits b ++ b64Padding (b64Digits b) = urlsafeB64encode b := by
    rw [hcut, he, b64Padding, show (4 - digits.length % 4) % 4 = k by omega]
  have hascii : (urlsafeB64encode b).all (·.val < 128) = true := by
    rw [he, List.all_append, Bool.and_eq_true]
    constructor
    · exact List.all_eq_true.2 fun c hc => decide_eq_true (hd c hc).2
    · exact List.all_eq_true.2 fun c hc => by rw [List.eq_of_mem_replicate hc]; decide
  have hhead : (urlsafeB64encode b).head? ≠ some (chr '=') := by
    intro h
    cases digits with
    | cons c digits =>
      rw [he] at h
      exact (hd c List.mem_cons_self).1 (Option.some.inj h)
    | nil =>
      have hk : k = 0 := by
        rw [List.length_nil] at hmod
        omega
      rw [he, hk] at h
      cases h
  rw [hpad, b64decode, if_pos hascii, if_neg hhead, a2bFrom_urlsafeB64encode]

end Py
