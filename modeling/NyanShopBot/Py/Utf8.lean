import NyanShopBot.Py.TextReads

/-!
# UTF-8 text

`decodeUtf8` is `data.decode("utf-8")`, none where it raises `UnicodeDecodeError`. It reads
every encoded text back (`decodeUtf8_of_encodeUtf8`).
-/

namespace Py

/-- The characters of bytes that follow a character of which some may be missing. -/
def decodeFrom : Option Pending → Bytes → Option Str
  | none, [] => some []
  | some _, [] => none
  | none, b :: bs =>
    if b.toNat < 0x80 then (decodeFrom none bs).map (codePoint b.toNat :: ·)
    else (leadByte b.toNat).bind fun p => decodeFrom (some p) bs
  | some p, b :: bs =>
    if p.low ≤ b.toNat ∧ b.toNat ≤ p.high then
      let value := p.value * 64 + b.toNat % 64
      if p.need ≤ 1 then (decodeFrom none bs).map (codePoint value :: ·)
      else decodeFrom (some ⟨p.need - 1, 0x80, 0xbf, value⟩) bs
    else none

def decodeUtf8 (data : Bytes) : Option Str := decodeFrom none data

section

variable {p : Pending} {n : Nat} {bs : Bytes}

theorem decodeFrom_lead (hn : n < 256) (hlow : 0x80 ≤ n) (hlead : leadByte n = some p) :
    decodeFrom none (n.toUInt8 :: bs) = decodeFrom (some p) bs := by
  have hto := toNat_toUInt8 hn
  rw [decodeFrom, hto, if_neg (by omega), hlead]
  rfl

theorem decodeFrom_more (hlow : p.low ≤ 0x80 + n) (hhigh : 0x80 + n ≤ p.high) (hn : n < 64)
    (hneed : 1 < p.need) : decodeFrom (some p) ((0x80 + n).toUInt8 :: bs) =
      decodeFrom (some ⟨p.need - 1, 0x80, 0xbf, p.value * 64 + n⟩) bs := by
  have hto : (0x80 + n).toUInt8.toNat = 0x80 + n := toNat_toUInt8 (by omega)
  rw [decodeFrom, hto, if_pos ⟨hlow, hhigh⟩, if_neg (by omega), show (0x80 + n) % 64 = n by omega]

theorem decodeFrom_last (hlow : p.low ≤ 0x80 + n) (hhigh : 0x80 + n ≤ p.high) (hn : n < 64)
    (hneed : p.need ≤ 1) : decodeFrom (some p) ((0x80 + n).toUInt8 :: bs) =
      (decodeFrom none bs).map (codePoint (p.value * 64 + n) :: ·) := by
  have hto : (0x80 + n).toUInt8.toNat = 0x80 + n := toNat_toUInt8 (by omega)
  rw [decodeFrom, hto, if_pos ⟨hlow, hhigh⟩, if_pos hneed, show (0x80 + n) % 64 = n by omega]

end

theorem codePoint_val (c : CodePoint) : codePoint c.val = c := by
  unfold codePoint
  rw [dif_pos c.isLt]

/-- The bytes of a character are read back as it. -/
theorem decodeFrom_encodeChar {c : CodePoint} {bytes bs : Bytes} (hc : encodeChar c = some bytes) :
    decodeFrom none (bytes ++ bs) = (decodeFrom none bs).map (c :: ·) := by
  have hmax := c.isLt
  have hread {n : Nat} (hn : n = c.val) : codePoint n = c := by rw [hn, codePoint_val]
  unfold encodeChar at hc
  by_cases hs : isSurrogate c = true
  · simp [hs] at hc
  rw [if_neg hs] at hc
  simp only [isSurrogate, Bool.and_eq_true, decide_eq_true_eq] at hs
  split at hc
  · next hlt =>
    cases hc
    have hto : c.val.toUInt8.toNat = c.val := toNat_toUInt8 (by omega)
    show decodeFrom none (c.val.toUInt8 :: bs) = _
    rw [decodeFrom, hto, if_pos hlt, codePoint_val]
  split at hc
  · next hlt =>
    cases hc
    have hlead := @leadByte_two (c.val / 64) (by omega) (by omega)
    refine (decodeFrom_lead (by omega) (by omega) hlead).trans ?_
    refine (decodeFrom_last (by show 0x80 ≤ _; omega) (by show _ ≤ 0xbf; omega) (by omega)
      (Nat.le_refl 1)).trans ?_
    rw [hread (by show c.val / 64 * 64 + c.val % 64 = c.val; omega)]
    rfl
  split at hc
  · next hlt =>
    cases hc
    obtain ⟨p, hlead, hneed, hvalue, hlow, hhigh⟩ := @leadByte_three (c.val / 4096)
      (c.val / 64 % 64) (by omega) (by omega) (by omega) (by omega)
    refine (decodeFrom_lead (by omega) (by omega) hlead).trans ?_
    refine (decodeFrom_more hlow hhigh (by omega) (by omega)).trans ?_
    refine (decodeFrom_last (by show 0x80 ≤ _; omega) (by show _ ≤ 0xbf; omega) (by omega)
      (by show p.need - 1 ≤ 1; omega)).trans ?_
    rw [hread (by show (p.value * 64 + c.val / 64 % 64) * 64 + c.val % 64 = c.val; omega)]
    rfl
  · next hlt =>
    cases hc
    obtain ⟨p, hlead, hneed, hvalue, hlow, hhigh⟩ := @leadByte_four (c.val / 262144)
      (c.val / 4096 % 64) (by omega) (by omega) (by omega) (by omega)
    refine (decodeFrom_lead (by omega) (by omega) hlead).trans ?_
    refine (decodeFrom_more hlow hhigh (by omega) (by omega)).trans ?_
    refine (decodeFrom_more (by show 0x80 ≤ _; omega) (by show _ ≤ 0xbf; omega) (by omega)
      (by show 1 < p.need - 1; omega)).trans ?_
    refine (decodeFrom_last (by show 0x80 ≤ _; omega) (by show _ ≤ 0xbf; omega) (by omega)
      (by show p.need - 1 - 1 ≤ 1; omega)).trans ?_
    rw [hread (by
      show ((p.value * 64 + c.val / 4096 % 64) * 64 + c.val / 64 % 64) * 64 + c.val % 64 = c.val
      omega)]
    rfl

/-- **Encoded text is read back.** -/
theorem decodeUtf8_of_encodeUtf8 {s : Str} {bytes : Bytes} (h : encodeUtf8 s = some bytes) :
    decodeUtf8 bytes = some s := by
  unfold decodeUtf8
  induction s generalizing bytes with
  | nil => cases h; rfl
  | cons c s ih =>
    obtain ⟨bs, hc, h⟩ := Option.bind_eq_some_iff.1 h
    obtain ⟨rest, hs, h⟩ := Option.bind_eq_some_iff.1 h
    cases h
    rw [decodeFrom_encodeChar hc, ih hs]
    rfl

end Py
