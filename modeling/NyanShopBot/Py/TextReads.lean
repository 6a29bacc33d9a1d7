import NyanShopBot.Py.TextIo

/-!
# What ends of the file do to the text

A reader that meets the end of a file that is still being written finishes its decoder
there. `Expects` says that the bytes continue as UTF-8. Where no end of the file falls
inside a character or between `\r` and `\n` the text is that of the finished file
(`text_clean`), and else it is longer (`text_unclean`); separators come out in any case
(`separators_of_read`).
-/

namespace Py

/-- A byte that continues a character. -/
def isContinuation (b : UInt8) : Bool := 0x80 ≤ b.toNat && b.toNat ≤ 0xbf

/-- The bytes go on as UTF-8 after a character of which some may be missing. -/
inductive Expects : Option Pending → Bytes → Prop
  | done : Expects none []
  | whole {b : UInt8} {c : CodePoint} {bs : Bytes} : isContinuation b = false →
      startByte b = (none, [c]) → Expects none bs → Expects none (b :: bs)
  | lead {b : UInt8} {p : Pending} {bs : Bytes} : isContinuation b = false →
      startByte b = (some p, []) → Expects (some p) bs → Expects none (b :: bs)
  | more {b : UInt8} {p p' : Pending} {bs : Bytes} : isContinuation b = true →
      feedByte (some p) b = (some p', []) → Expects (some p') bs → Expects (some p) (b :: bs)
  | last {b : UInt8} {p : Pending} {c : CodePoint} {bs : Bytes} : isContinuation b = true →
      feedByte (some p) b = (none, [c]) → 0x80 ≤ c.val → Expects none bs →
      Expects (some p) (b :: bs)

/-! ## Encoded text -/

theorem toNat_toUInt8 {n : Nat} (h : n < 256) : n.toUInt8.toNat = n := by
  show n % 256 = n
  omega

theorem startByte_continuation {b : UInt8} (h : isContinuation b = true) :
    startByte b = (none, [replacement]) := by
  simp only [isContinuation, Bool.and_eq_true, decide_eq_true_eq] at h
  have hlead : leadByte b.toNat = none := by
    unfold leadByte
    repeat' split
    all_goals first | rfl | omega
  unfold startByte
  rw [if_neg (by omega), hlead]

theorem feedByte_more {p : Pending} {b : UInt8} (hlow : p.low ≤ b.toNat) (hhigh : b.toNat ≤ p.high)
    (hneed : 1 < p.need) :
    feedByte (some p) b = (some ⟨p.need - 1, 0x80, 0xbf, p.value * 64 + b.toNat % 64⟩, []) := by
  simp only [feedByte]
  rw [if_pos ⟨hlow, hhigh⟩, if_neg (by omega)]

theorem feedByte_last {p : Pending} {b : UInt8} (hlow : p.low ≤ b.toNat) (hhigh : b.toNat ≤ p.high)
    (hneed : p.need ≤ 1) :
    feedByte (some p) b = (none, [codePoint (p.value * 64 + b.toNat % 64)]) := by
  simp only [feedByte]
  rw [if_pos ⟨hlow, hhigh⟩, if_pos hneed]

theorem Expects.lead_of {n : Nat} {p : Pending} {bs : Bytes} (hn : n < 256) (hlow : 0xc0 ≤ n)
    (hlead : leadByte n = some p) (h : Expects (some p) bs) : Expects none (n.toUInt8 :: bs) := by
  have hto := toNat_toUInt8 hn
  refine .lead ?_ ?_ h
  · simp only [isContinuation, hto, Bool.and_eq_false_iff, decide_eq_false_iff_not]
    omega
  · unfold startByte
    rw [hto, if_neg (by omega), hlead]

theorem Expects.more_of {p : Pending} {n : Nat} {bs : Bytes} (hlow : p.low ≤ 0x80 + n)
    (hhigh : 0x80 + n ≤ p.high) (hn : n < 64) (hneed : 1 < p.need)
    (h : Expects (some ⟨p.need - 1, 0x80, 0xbf, p.value * 64 + n⟩) bs) :
    Expects (some p) ((0x80 + n).toUInt8 :: bs) := by
  have hto : (0x80 + n).toUInt8.toNat = 0x80 + n := toNat_toUInt8 (by omega)
  refine .more ?_ (feedByte_more (by omega) (by omega) hneed) ?_
  · simp only [isContinuation, hto, Bool.and_eq_true, decide_eq_true_eq]
    omega
  · rw [hto, show (0x80 + n) % 64 = n by omega]
    exact h

theorem codePoint_large {n : Nat} (h : 0x80 ≤ n) : 0x80 ≤ (codePoint n).val := by
  unfold codePoint
  split
  · exact h
  · decide

theorem Expects.last_of {p : Pending} {n : Nat} {bs : Bytes} (hlow : p.low ≤ 0x80 + n)
    (hhigh : 0x80 + n ≤ p.high) (hn : n < 64) (hneed : p.need ≤ 1) (hvalue : 2 ≤ p.value)
    (h : Expects none bs) : Expects (some p) ((0x80 + n).toUInt8 :: bs) := by
  have hto : (0x80 + n).toUInt8.toNat = 0x80 + n := toNat_toUInt8 (by omega)
  refine .last ?_ (feedByte_last (by omega) (by omega) hneed) (codePoint_large (by omega)) h
  simp only [isContinuation, hto, Bool.and_eq_true, decide_eq_true_eq]
  omega

theorem leadByte_two {q : Nat} (h : 2 ≤ q) (h' : q < 32) :
    leadByte (0xc0 + q) = some ⟨1, 0x80, 0xbf, q⟩ := by
  unfold leadByte
  rw [if_pos (by omega), show 0xc0 + q - 0xc0 = q by omega]

/-- The first byte of three, with what it leaves for the second one. -/
theorem leadByte_three {q n : Nat} (hq : q < 16) (hn : n < 64) (hlong : q = 0 → 32 ≤ n)
    (hsurrogate : q = 13 → n < 32) : ∃ p : Pending, leadByte (0xe0 + q) = some p ∧ p.need = 2 ∧
      p.value = q ∧ p.low ≤ 0x80 + n ∧ 0x80 + n ≤ p.high := by
  unfold leadByte
  rw [if_neg (by omega)]
  split
  · exact ⟨_, rfl, rfl, by show 0 = q; omega, by show 0xa0 ≤ _; omega, by show _ ≤ 0xbf; omega⟩
  split
  · exact ⟨_, rfl, rfl, by show 13 = q; omega, by show 0x80 ≤ _; omega, by show _ ≤ 0x9f; omega⟩
  rw [if_pos (by omega)]
  exact ⟨_, rfl, rfl, by show 0xe0 + q - 0xe0 = q; omega, by show 0x80 ≤ _; omega,
    by show _ ≤ 0xbf; omega⟩

/-- The first byte of four, with what it leaves for the second one. -/
theorem leadByte_four {q n : Nat} (hq : q < 5) (hn : n < 64) (hlong : q = 0 → 16 ≤ n)
    (hmax : q = 4 → n < 16) : ∃ p : Pending, leadByte (0xf0 + q) = some p ∧ p.need = 3 ∧
      p.value = q ∧ p.low ≤ 0x80 + n ∧ 0x80 + n ≤ p.high := by
  unfold leadByte
  rw [if_neg (by omega), if_neg (by omega), if_neg (by omega), if_neg (by omega)]
  split
  · exact ⟨_, rfl, rfl, by show 0 = q; omega, by show 0x90 ≤ _; omega, by show _ ≤ 0xbf; omega⟩
  split
  · exact ⟨_, rfl, rfl, by show 0xf0 + q - 0xf0 = q; omega, by show 0x80 ≤ _; omega,
      by show _ ≤ 0xbf; omega⟩
  rw [if_pos (by omega)]
  exact ⟨_, rfl, rfl, by show 4 = q; omega, by show 0x80 ≤ _; omega, by show _ ≤ 0x8f; omega⟩

/-- The bytes of a character, and then others. -/
theorem Expects.encodeChar {c : CodePoint} {bytes bs : Bytes} (hc : encodeChar c = some bytes)
    (h : Expects none bs) : Expects none (bytes ++ bs) := by
  have hmax := c.isLt
  unfold Py.encodeChar at hc
  by_cases hs : isSurrogate c = true
  · simp [hs] at hc
  rw [if_neg hs] at hc
  simp only [isSurrogate, Bool.and_eq_true, decide_eq_true_eq] at hs
  split at hc
  · next hlt =>
    cases hc
    have hto : c.val.toUInt8.toNat = c.val := toNat_toUInt8 (by omega)
    refine .whole ?_ (c := codePoint c.val) ?_ h
    · simp only [isContinuation, hto, Bool.and_eq_false_iff, decide_eq_false_iff_not]
      omega
    · unfold startByte
      rw [hto, if_pos hlt]
  split at hc
  · next hlt =>
    cases hc
    refine .lead_of (by omega) (by omega) (leadByte_two (by omega) (by omega)) ?_
    exact .last_of (by show 0x80 ≤ _; omega) (by show _ ≤ 0xbf; omega) (by omega) (Nat.le_refl 1)
      (by show 2 ≤ c.val / 64; omega) h
  split at hc
  · next hlt =>
    cases hc
    obtain ⟨p, hlead, hneed, hvalue, hlow, hhigh⟩ :=
      @leadByte_three (c.val / 4096) (c.val / 64 % 64)
      (by omega) (by omega) (by omega) (by omega)
    refine .lead_of (by omega) (by omega) hlead (.more_of hlow hhigh (by omega) (by omega) ?_)
    exact .last_of (by show 0x80 ≤ _; omega) (by show _ ≤ 0xbf; omega) (by omega)
      (by show p.need - 1 ≤ 1; omega) (by show 2 ≤ p.value * 64 + _; omega) h
  · next hlt =>
    cases hc
    obtain ⟨p, hlead, hneed, hvalue, hlow, hhigh⟩ :=
      @leadByte_four (c.val / 262144) (c.val / 4096 % 64)
      (by omega) (by omega) (by omega) (by omega)
    refine .lead_of (by omega) (by omega) hlead (.more_of hlow hhigh (by omega) (by omega) ?_)
    refine .more_of (by show 0x80 ≤ _; omega) (by show _ ≤ 0xbf; omega) (by omega)
      (by show 1 < p.need - 1; omega) ?_
    exact .last_of (by show 0x80 ≤ _; omega) (by show _ ≤ 0xbf; omega) (by omega)
      (by show p.need - 1 - 1 ≤ 1; omega) (by show 2 ≤ (p.value * 64 + _) * 64 + _; omega) h

/-- **Encoded text continues as UTF-8.** -/
theorem expects_encodeUtf8 {s : Str} {bytes : Bytes} (h : encodeUtf8 s = some bytes) :
    Expects none bytes := by
  induction s generalizing bytes with
  | nil => cases h; exact .done
  | cons c s ih =>
    obtain ⟨bs, hc, h⟩ := Option.bind_eq_some_iff.1 h
    obtain ⟨rest, hs, h⟩ := Option.bind_eq_some_iff.1 h
    cases h
    exact .encodeChar hc (ih hs)

/-! ## One event -/

/-- The bytes that the events have read. -/
def bytesOf (events : List (Option UInt8)) : Bytes := events.filterMap id

@[simp] theorem bytesOf_nil : bytesOf [] = [] := rfl

@[simp] theorem bytesOf_byte (b : UInt8) (events : List (Option UInt8)) :
    bytesOf (some b :: events) = b :: bytesOf events := rfl

@[simp] theorem bytesOf_end (events : List (Option UInt8)) :
    bytesOf (none :: events) = bytesOf events := rfl

section

variable {d : Decoder} {b : UInt8} {p : Option Pending} {c x : CodePoint} {held : Bool}
  {events events' : List (Option UInt8)}

theorem text_silent (h : feedByte d.pending b = (p, [])) :
    d.text (some b :: events) = Decoder.text ⟨p, d.held⟩ events := by
  simp [Decoder.text, Decoder.byte, h, translateAll]

theorem text_char (h : feedByte d.pending b = (p, [c])) :
    d.text (some b :: events) =
      (translate d.held c).2 ++ Decoder.text ⟨p, (translate d.held c).1⟩ events := by
  simp [Decoder.text, Decoder.byte, h, translateAll]

theorem text_end : d.text (none :: events) = d.finish ++ Decoder.new.text events := rfl

theorem text_append :
    d.text (events ++ events') = d.text events ++ (d.after events).text events' := by
  induction events generalizing d with
  | nil => rfl
  | cons e events ih =>
    cases e with
    | none => simp [Decoder.text, Decoder.after, ih]
    | some b => simp [Decoder.text, Decoder.after, ih]

theorem after_append : d.after (events ++ events') = (d.after events).after events' := by
  induction events generalizing d with
  | nil => rfl
  | cons e events ih =>
    cases e with
    | none => exact ih
    | some b => exact ih

theorem foldl_fill {raws : List Bytes} {stream : TextReader} : raws.foldl TextReader.fill stream =
    ⟨stream.decoder.after (raws.flatMap rawEvents),
      stream.decoded ++ stream.decoder.text (raws.flatMap rawEvents)⟩ := by
  induction raws generalizing stream with
  | nil => simp [Decoder.after, Decoder.text]
  | cons raw raws ih =>
    rw [List.foldl_cons, ih, List.flatMap_cons, after_append, text_append]
    simp [TextReader.fill]

theorem translate_other (hlf : c ≠ lf) (hcr : c ≠ cr) :
    translate held c = (false, heldNewline held ++ [c]) := by
  unfold translate
  rw [if_neg hlf, if_neg hcr]

theorem mem_heldNewline (h : x ∈ heldNewline held) : x = lf := by
  unfold heldNewline at h
  split at h
  · exact List.mem_singleton.1 h
  · cases h

theorem mem_translate (h : x ∈ (translate held c).2) : x = lf ∨ x = c := by
  unfold translate at h
  split at h
  · exact .inl (List.mem_singleton.1 h)
  split at h
  · exact .inl (mem_heldNewline h)
  · rcases List.mem_append.1 h with h | h
    · exact .inl (mem_heldNewline h)
    · exact .inr (List.mem_singleton.1 h)

theorem mem_dropLast_translate (h : x ∈ (translate held c).2.dropLast) : x = lf := by
  unfold translate at h
  split at h
  · cases h
  split at h
  · exact mem_heldNewline (List.dropLast_subset _ h)
  · rw [List.dropLast_concat] at h
    exact mem_heldNewline h

theorem mem_finish (h : x ∈ d.finish) : x = lf ∨ x = replacement := by
  unfold Decoder.finish Decoder.unfinished at h
  rcases List.mem_append.1 h with h | h
  · split at h
    · simpa [translateAll] using mem_translate (c := replacement) (by simpa [translateAll] using h)
    · cases h
  · exact .inl (mem_heldNewline h)

theorem cr_not_mem_translate {held : Bool} {c : CodePoint} : cr ∉ (translate held c).2 := by
  have hheld : cr ∉ heldNewline held := fun h => absurd (mem_heldNewline h) (by decide)
  unfold translate
  split
  · exact fun h => absurd (List.mem_singleton.1 h) (by decide)
  split
  · exact hheld
  · next hcr =>
    intro h
    rcases List.mem_append.1 h with h | h
    · exact hheld h
    · exact hcr (List.mem_singleton.1 h).symm

theorem cr_not_mem_translateAll {held : Bool} {s : Str} : cr ∉ (translateAll held s).2 := by
  induction s generalizing held with
  | nil => exact List.not_mem_nil
  | cons c s ih =>
    intro h
    rcases List.mem_append.1 h with h | h
    · exact cr_not_mem_translate h
    · exact ih h

theorem cr_not_mem_finish : cr ∉ d.finish := by
  intro h
  rcases List.mem_append.1 h with h | h
  · exact cr_not_mem_translateAll h
  · exact absurd (mem_heldNewline h) (by decide)

/-- The text has no carriage return left. -/
theorem cr_not_mem_text : cr ∉ d.text events := by
  induction events generalizing d with
  | nil => exact List.not_mem_nil
  | cons e events ih =>
    intro h
    cases e with
    | none => exact (List.mem_append.1 h).elim cr_not_mem_finish ih
    | some b => exact (List.mem_append.1 h).elim cr_not_mem_translateAll ih

theorem separator_ne (h : isSeparator x = true) : x ≠ lf ∧ x ≠ cr ∧ x ≠ replacement := by
  refine ⟨?_, ?_, ?_⟩ <;> rintro rfl <;> revert h <;> decide

/-- Ends of the file alone give no text. -/
theorem text_ends (h : bytesOf events = []) : Decoder.new.text events = [] := by
  induction events with
  | nil => rfl
  | cons e events ih =>
    cases e with
    | none => exact ih h
    | some b => cases h

theorem feedByte_cases (q : Option Pending) (b : UInt8) :
    (feedByte q b).1.isSome = true ∨ (feedByte q b).2 ≠ [] := by
  have hstart : (startByte b).1.isSome = true ∨ (startByte b).2 ≠ [] := by
    unfold startByte
    split
    · exact .inr (by simp)
    split
    · exact .inl rfl
    · exact .inr (by simp)
  cases q with
  | none => exact hstart
  | some q =>
    simp only [feedByte]
    split
    · split
      · exact .inr (by simp)
      · exact .inl rfl
    · exact .inr (by simp)

theorem translateAll_cases {held : Bool} {s : Str} (h : s ≠ [] ∨ held = true) :
    (translateAll held s).1 = true ∨ (translateAll held s).2 ≠ [] := by
  induction s generalizing held with
  | nil => exact h.elim (absurd rfl) .inl
  | cons c s ih =>
    have hone : (translate held c).1 = true ∨ (translate held c).2 ≠ [] := by
      unfold translate
      split
      · exact .inr (by simp)
      split
      · exact .inl rfl
      · exact .inr (by simp)
    rcases hone with hheld | hout
    · rcases ih (.inr hheld) with hheld' | hout'
      · exact .inl hheld'
      · exact .inr (by simp [translateAll, hout'])
    · exact .inr (by simp [translateAll, hout])

/-- A finished file with something to read has some text. -/
theorem text_ne_nil {bytes : Bytes} {d : Decoder}
    (h : bytes ≠ [] ∨ d.pending.isSome = true ∨ d.held = true) :
    d.text (bytes.map some ++ [none]) ≠ [] := by
  induction bytes generalizing d with
  | nil =>
    have h := h.resolve_left (absurd rfl)
    have hsome : d.unfinished ≠ [] ∨ d.held = true := by
      unfold Decoder.unfinished
      exact h.imp_left fun hp => by simp [hp]
    show d.finish ++ [] ≠ []
    unfold Decoder.finish
    rcases translateAll_cases hsome with hheld | hout
    · simp [hheld, heldNewline]
    · simp [hout]
  | cons b bytes ih =>
    show (d.byte b).2 ++ _ ≠ []
    by_cases hout : (d.byte b).2 = []
    · rw [hout]
      refine ih (.inr ?_)
      rcases feedByte_cases d.pending b with hp | hs
      · exact .inl hp
      · exact .inr ((translateAll_cases (.inl hs)).resolve_right fun hne => hne hout)
    · simp [hout]

theorem mem_dropLast_left {α : Type} {y : α} {l m : List α} (h : y ∈ l.dropLast) :
    y ∈ (l ++ m).dropLast := by
  by_cases hm : m = []
  · rwa [hm, List.append_nil]
  · rw [List.dropLast_append_of_ne_nil hm]
    exact List.mem_append_left _ (List.dropLast_subset _ h)

theorem mem_dropLast_append {α : Type} {y : α} {l m : List α} (h : y ∈ m.dropLast) :
    y ∈ (l ++ m).dropLast := by
  have hne : m ≠ [] := by rintro rfl; cases h
  rw [List.dropLast_append_of_ne_nil hne]
  exact List.mem_append_right _ h

theorem mem_of_mem_dropLast_append {α : Type} {y : α} {l m : List α} (h : y ∈ (l ++ m).dropLast) :
    y ∈ l.dropLast ∨ (y ∈ l ∧ m ≠ []) ∨ y ∈ m.dropLast := by
  by_cases hm : m = []
  · subst hm
    exact .inl (by simpa using h)
  · rw [List.dropLast_append_of_ne_nil hm] at h
    exact .inr ((List.mem_append.1 h).imp (⟨·, hm⟩) id)

end

/-! ## Separators -/

section

variable {x : CodePoint}

/-- Both readers have come to the end of the character `c`. -/
theorem separator_char {c : CodePoint} {h₁ h₂ : Bool} {bytes : Bytes}
    {events : List (Option UInt8)} (hsep : isSeparator x = true) (hpre : bytesOf events <+: bytes)
    (ih : x ∈ (Decoder.text ⟨none, (translate h₂ c).1⟩ events).dropLast →
      x ∈ (Decoder.text ⟨none, (translate h₁ c).1⟩ (bytes.map some ++ [none])).dropLast)
    (hx : x ∈ ((translate h₂ c).2 ++ Decoder.text ⟨none, (translate h₂ c).1⟩ events).dropLast) :
    x ∈ ((translate h₁ c).2 ++
      Decoder.text ⟨none, (translate h₁ c).1⟩ (bytes.map some ++ [none])).dropLast := by
  obtain ⟨hlf, hcr, -⟩ := separator_ne hsep
  rcases mem_of_mem_dropLast_append hx with hx | ⟨hx, hne⟩ | hx
  · exact absurd (mem_dropLast_translate hx) hlf
  · obtain rfl := (mem_translate hx).resolve_left hlf
    rw [translate_other hlf hcr] at hne ⊢
    have hbytes : bytes ≠ [] := by
      rintro rfl
      exact hne (text_ends (List.prefix_nil.1 hpre))
    have hrest : Decoder.text ⟨none, false⟩ (bytes.map some ++ [none]) ≠ [] :=
      text_ne_nil (.inl hbytes)
    rw [List.dropLast_append_of_ne_nil hrest]
    exact List.mem_append_left _ (List.mem_append_right _ List.mem_cons_self)
  · exact mem_dropLast_append (ih hx)

/-- **Separators that something follows are in the finished file**, and something follows
them there. -/
theorem separators_of_read (hsep : isSeparator x = true) {events : List (Option UInt8)} :
    ∀ {d₁ d₂ : Decoder} {bytes : Bytes}, Expects d₁.pending bytes →
      d₂.pending = d₁.pending ∨ d₂.pending = none → bytesOf events <+: bytes →
      x ∈ (d₂.text events).dropLast → x ∈ (d₁.text (bytes.map some ++ [none])).dropLast := by
  obtain ⟨hlf, hcr, hrep⟩ := separator_ne hsep
  induction events with
  | nil =>
    intro d₁ d₂ bytes _ _ _ hx
    cases hx
  | cons e events ih =>
    intro d₁ d₂ bytes hexp hrel hpre hx
    cases e with
    | none =>
      rw [text_end] at hx
      have hfinish : x ∉ d₂.finish := fun hx => (mem_finish hx).elim hlf hrep
      rcases mem_of_mem_dropLast_append hx with hx | ⟨hx, -⟩ | hx
      · exact absurd (List.dropLast_subset _ hx) hfinish
      · exact absurd hx hfinish
      · exact ih hexp (.inr rfl) hpre hx
    | some b =>
      obtain ⟨bytes, rfl⟩ : ∃ rest, bytes = b :: rest := by
        obtain ⟨rest, hrest⟩ := hpre
        exact ⟨_, hrest.symm⟩
      have hpre := (List.prefix_cons_inj b).1 hpre
      obtain ⟨p₁, held₁⟩ := d₁
      obtain ⟨p₂, held₂⟩ := d₂
      show x ∈ (Decoder.text ⟨p₁, held₁⟩ (some b :: (bytes.map some ++ [none]))).dropLast
      cases hexp with
      | @whole _ c _ _ hfeed hexp =>
        obtain rfl : p₂ = none := hrel.elim id id
        rw [text_char (d := ⟨none, held₂⟩) hfeed] at hx
        rw [text_char (d := ⟨none, held₁⟩) hfeed]
        exact separator_char hsep hpre (ih hexp (.inr rfl) hpre) hx
      | @lead _ p _ _ hfeed hexp =>
        obtain rfl : p₂ = none := hrel.elim id id
        rw [text_silent (d := ⟨none, held₂⟩) hfeed] at hx
        rw [text_silent (d := ⟨none, held₁⟩) hfeed]
        exact @ih ⟨some p, held₁⟩ ⟨some p, held₂⟩ _ hexp (.inl rfl) hpre hx
      | @more _ p p' _ hcont hfeed hexp =>
        rw [text_silent (d := ⟨some p, held₁⟩) hfeed]
        rcases hrel with rfl | rfl
        · rw [text_silent (d := ⟨some p, held₂⟩) hfeed] at hx
          exact @ih ⟨some p', held₁⟩ ⟨some p', held₂⟩ _ hexp (.inl rfl) hpre hx
        · rw [text_char (d := ⟨none, held₂⟩) (startByte_continuation hcont)] at hx
          rcases mem_of_mem_dropLast_append hx with hx | ⟨hx, -⟩ | hx
          · exact absurd (mem_dropLast_translate hx) hlf
          · exact absurd (mem_translate hx) (by simp [hlf, hrep])
          · exact ih hexp (.inr rfl) hpre hx
      | @last _ p c _ hcont hfeed hlarge hexp =>
        rw [text_char (d := ⟨some p, held₁⟩) hfeed]
        rcases hrel with rfl | rfl
        · rw [text_char (d := ⟨some p, held₂⟩) hfeed] at hx
          exact separator_char hsep hpre (ih hexp (.inr rfl) hpre) hx
        · rw [text_char (d := ⟨none, held₂⟩) (startByte_continuation hcont)] at hx
          rcases mem_of_mem_dropLast_append hx with hx | ⟨hx, -⟩ | hx
          · exact absurd (mem_dropLast_translate hx) hlf
          · exact absurd (mem_translate hx) (by simp [hlf, hrep])
          · exact mem_dropLast_append (ih hexp (.inr rfl) hpre hx)

end

/-! ## Ends of the file inside a character or a newline -/

/-- The next byte of the file. -/
def nextIs (bytes : Bytes) (b : UInt8) : Bool := bytes.head? == some b

/-- No end of the file falls inside a character, or between `\r` and `\n`; `afterCr` says
that the byte before is `\r`. -/
def cleanReads (afterCr : Bool) (bytes : Bytes) : List (Option UInt8) → Bool
  | [] => true
  | some b :: events => cleanReads (b == 0x0d) bytes.tail events
  | none :: events => !(bytes.head?.any isContinuation) && !(afterCr && nextIs bytes 0x0a) &&
      cleanReads afterCr bytes events

/-- A read at the end of the finished file meets no character. -/
theorem cleanReads_end {data : Bytes} {events : List (Option UInt8)} {afterCr : Bool}
    (h : bytesOf events = data) :
    cleanReads afterCr data (events ++ [none]) = cleanReads afterCr data events := by
  induction events generalizing afterCr data with
  | nil =>
    obtain rfl : data = [] := h.symm
    simp [cleanReads, nextIs]
  | cons e events ih =>
    cases e with
    | none => simp only [List.cons_append, cleanReads, ih h]
    | some b =>
      obtain rfl : data = b :: bytesOf events := h.symm
      exact ih rfl

/-- A reader that has written the newline of a `\r` while the other one holds it back. -/
def lag (held₁ held₂ : Bool) : Bool := held₁ && !held₂

/-- The text of the finished file against that of the reads. -/
def Tally (afterCr ahead : Bool) (bytes : Bytes) (events : List (Option UInt8)) (t₁ t₂ : Str) :
    Prop :=
  if (cleanReads afterCr bytes events && !(ahead && nextIs bytes 0x0a)) = true then
    t₁ = heldNewline ahead ++ t₂
  else t₁.length < t₂.length + ahead.toNat

section

variable {bytes : Bytes} {events : List (Option UInt8)} {t₁ t₂ : Str} {c : CodePoint}
  {a a' held₁ held₂ : Bool}

@[simp] theorem length_heldNewline (held : Bool) : (heldNewline held).length = held.toNat := by
  cases held <;> rfl

theorem Tally.length_le (h : Tally a a' bytes events t₁ t₂) : t₁.length ≤ t₂.length + a'.toNat := by
  unfold Tally at h
  split at h
  · rw [h, List.length_append, length_heldNewline]
    omega
  · omega

theorem continuation_ne {b : UInt8} (h : isContinuation b = true) : b ≠ 0x0a ∧ b ≠ 0x0d := by
  constructor <;> rintro rfl <;> revert h <;> decide

theorem startByte_lead_ne {b : UInt8} {p : Pending} (h : startByte b = (some p, [])) :
    b ≠ 0x0a ∧ b ≠ 0x0d := by
  constructor <;> rintro rfl <;> revert h <;> simp [startByte]

/-- The only bytes of newlines. -/
theorem startByte_newline {b : UInt8} (h : startByte b = (none, [c])) :
    (c = lf ↔ b = 0x0a) ∧ (c = cr ↔ b = 0x0d) := by
  unfold startByte at h
  split at h
  · next hlt =>
    obtain rfl : codePoint b.toNat = c := by simpa using h
    have hval : codePoint b.toNat = ⟨b.toNat, by omega⟩ := dif_pos (by omega)
    rw [hval]
    refine ⟨⟨fun he => ?_, fun he => by subst he; rfl⟩, fun he => ?_, fun he => by subst he; rfl⟩
    · exact UInt8.toNat_inj.1 (show b.toNat = 10 from congrArg Fin.val he)
    · exact UInt8.toNat_inj.1 (show b.toNat = 13 from congrArg Fin.val he)
  · next hge =>
    have hb : b ≠ 0x0a ∧ b ≠ 0x0d := by
      constructor <;> rintro rfl <;> exact hge (by decide)
    split at h
    · cases h
    · obtain rfl : replacement = c := by simpa using h
      exact ⟨⟨fun he => absurd he (by decide), fun he => absurd he hb.1⟩,
        fun he => absurd he (by decide), fun he => absurd he hb.2⟩

theorem large_ne (h : 0x80 ≤ c.val) : c ≠ lf ∧ c ≠ cr := by
  constructor <;> rintro rfl <;> revert h <;> decide

theorem translate_snd (h : c ≠ lf) : (translate held₁ c).2 =
    heldNewline held₁ ++ if c = cr then [] else [c] := by
  unfold translate
  rw [if_neg h]
  split <;> simp

/-- What is held back and what is written make up the newline. -/
theorem heldNewline_lag (hh : held₂ = true → held₁ = true) :
    heldNewline held₁ = heldNewline (lag held₁ held₂) ++ heldNewline held₂ := by
  cases held₁ <;> cases held₂ <;> simp_all [heldNewline, lag]

theorem toNat_lag (hh : held₂ = true → held₁ = true) :
    held₁.toNat = (lag held₁ held₂).toNat + held₂.toNat := by
  have h := congrArg List.length (heldNewline_lag hh)
  simpa using h

/-- Both readers come to the end of a character. -/
theorem Tally.char (hh : held₂ = true → held₁ = true) {b : UInt8} (hlf : c = lf ↔ b = 0x0a)
    (h : Tally (b == 0x0d) false bytes events t₁ t₂) :
    Tally a (lag held₁ held₂) (b :: bytes) (some b :: events) ((translate held₁ c).2 ++ t₁)
      ((translate held₂ c).2 ++ t₂) := by
  have hle : t₁.length ≤ t₂.length := h.length_le
  unfold Tally at h ⊢
  simp only [Bool.false_and, Bool.not_false, Bool.and_true, heldNewline, Bool.false_eq_true,
    if_false, List.nil_append, Bool.toNat_false, Nat.add_zero] at h
  by_cases hc : c = lf
  · obtain rfl := hlf.1 hc
    subst hc
    have hnext : nextIs (0x0a :: bytes) 0x0a = true := rfl
    simp only [hnext, cleanReads, List.tail_cons, Bool.and_true, translate, if_true]
    cases hlag : lag held₁ held₂ with
    | false => simpa [heldNewline] using h
    | true => simp; omega
  · have hnext : nextIs (b :: bytes) 0x0a = false := by simpa [nextIs] using fun he => hc (hlf.2 he)
    simp only [hnext, cleanReads, List.tail_cons, Bool.and_false, Bool.not_false, Bool.and_true]
    rw [translate_snd hc, translate_snd hc]
    split
    · next hclean =>
      rw [if_pos hclean] at h
      rw [h, heldNewline_lag hh]
      simp
    · next hclean =>
      rw [if_neg hclean] at h
      have := toNat_lag hh
      simp only [List.length_append, length_heldNewline]
      omega

theorem finish_none : Decoder.finish ⟨none, held₁⟩ = heldNewline held₁ := by
  simp [Decoder.finish, Decoder.unfinished, translateAll]

theorem finish_some {p : Pending} :
    Decoder.finish ⟨some p, held₁⟩ = heldNewline held₁ ++ [replacement] := by
  have hrep : translate held₁ replacement = (false, heldNewline held₁ ++ [replacement]) :=
    translate_other (by decide) (by decide)
  simp [Decoder.finish, Decoder.unfinished, translateAll, hrep, heldNewline]

/-- Both readers are inside a character. -/
theorem Tally.silent {b : UInt8} (hb : b ≠ 0x0a) (hnext : nextIs bytes 0x0a = false)
    (h : Tally (b == 0x0d) a' bytes events t₁ t₂) :
    Tally a a' (b :: bytes) (some b :: events) t₁ t₂ := by
  have hnext' : nextIs (b :: bytes) 0x0a = false := by simpa [nextIs] using hb
  unfold Tally at h ⊢
  rw [hnext] at h
  rw [hnext']
  exact h

/-- The reads meet the end of the file between two characters. -/
theorem Tally.ends (hcont : bytes.head?.any isContinuation = false)
    (hh : held₂ = true → held₁ = true) (h : Tally held₁ held₁ bytes events t₁ t₂) :
    Tally held₁ (lag held₁ held₂) bytes (none :: events) t₁ (heldNewline held₂ ++ t₂) := by
  have hcond : (cleanReads held₁ bytes (none :: events) &&
      !(lag held₁ held₂ && nextIs bytes 0x0a)) =
      (cleanReads held₁ bytes events && !(held₁ && nextIs bytes 0x0a)) := by
    simp only [cleanReads, hcont, Bool.not_false, Bool.true_and]
    cases held₁ <;> cases held₂ <;> cases nextIs bytes 0x0a <;> simp [lag]
  have hnat := toNat_lag hh
  unfold Tally at h ⊢
  rw [hcond]
  split
  · next hclean =>
    rw [if_pos hclean] at h
    rw [h, heldNewline_lag hh, List.append_assoc]
  · next hclean =>
    rw [if_neg hclean] at h
    rw [List.length_append, length_heldNewline]
    omega

theorem Expects.head (h : Expects none bytes) : bytes.head?.any isContinuation = false := by
  cases h with
  | done => rfl
  | whole hcont | lead hcont => exact hcont

theorem Expects.head_some {p : Pending} (h : Expects (some p) bytes) :
    ∃ b rest, bytes = b :: rest ∧ isContinuation b = true := by
  cases h with
  | more hcont | last hcont => exact ⟨_, _, rfl, hcont⟩

theorem Expects.next_some {p : Pending} (h : Expects (some p) bytes) :
    nextIs bytes 0x0a = false := by
  obtain ⟨b, rest, rfl, hcont⟩ := h.head_some
  simpa [nextIs] using (continuation_ne hcont).1

theorem translate_fst (h : lf ≠ cr) : (translate held₁ c).1 = (c == cr) := by
  unfold translate
  split
  · next hc => simp [hc, h]
  split
  · next hc => simp [hc]
  · next hc => simpa using hc

theorem lag_translate : lag (translate held₁ c).1 (translate held₂ c).1 = false := by
  rw [translate_fst (by decide), translate_fst (by decide)]
  cases (c == cr) <;> rfl

/-- A reader that has given up a character writes for it what the other one may not. -/
theorem length_given_up {n : Nat} (hh : held₂ = true → held₁ = true)
    (h : n ≤ t₂.length + held₁.toNat) :
    n + 1 ≤ ((translate held₂ replacement).2 ++ t₂).length + (lag held₁ held₂).toNat := by
  have hnat := toNat_lag hh
  rw [translate_other (by decide) (by decide)]
  simp only [List.length_append, length_heldNewline, List.length_singleton]
  omega

/-- **The text of the reads against that of the finished file**: a reader that has given up
a character can only be ahead, and one that has not is behind by what it holds back. -/
theorem tally_of_reads : ∀ {bytes : Bytes} {p₁ p₂ : Option Pending} {held₁ held₂ a : Bool},
    Expects p₁ bytes → bytesOf events = bytes → (held₂ = true → held₁ = true) →
    (p₁ = none → a = held₁) →
    (p₂ = p₁ → Tally a (lag held₁ held₂) bytes events
      (Decoder.text ⟨p₁, held₁⟩ (bytes.map some ++ [none]))
      (Decoder.text ⟨p₂, held₂⟩ (events ++ [none]))) ∧
    (p₂ = none → (Decoder.text ⟨p₁, held₁⟩ (bytes.map some ++ [none])).length ≤
      (Decoder.text ⟨p₂, held₂⟩ (events ++ [none])).length + (lag held₁ held₂).toNat) := by
  induction events with
  | nil =>
    intro bytes p₁ p₂ held₁ held₂ a hexp hbytes hh ha
    obtain rfl : bytes = [] := hbytes.symm
    cases hexp
    have htext : ∀ held, Decoder.text ⟨none, held⟩ [none] = heldNewline held := fun held => by
      show Decoder.finish _ ++ [] = _
      rw [finish_none, List.append_nil]
    refine ⟨fun hp => ?_, fun hp => ?_⟩
    · subst hp
      show Tally a _ [] [] (Decoder.text ⟨none, held₁⟩ [none]) (Decoder.text ⟨none, held₂⟩ [none])
      rw [htext, htext]
      unfold Tally
      rw [if_pos (by simp [cleanReads, nextIs])]
      exact heldNewline_lag hh
    · subst hp
      show (Decoder.text ⟨none, held₁⟩ [none]).length ≤
        (Decoder.text ⟨none, held₂⟩ [none]).length + _
      rw [htext, htext, length_heldNewline, length_heldNewline, toNat_lag hh]
      omega
  | cons e events ih =>
    intro bytes p₁ p₂ held₁ held₂ a hexp hbytes hh ha
    cases e with
    | none =>
      have hih := @ih bytes p₁ none held₁ false a hexp hbytes (by simp) ha
      have hlag : lag held₁ false = held₁ := by simp [lag]
      rw [hlag] at hih
      have hnat := toNat_lag hh
      show (p₂ = p₁ → Tally a _ bytes (none :: events) _
          (Decoder.finish ⟨p₂, held₂⟩ ++ Decoder.text ⟨none, false⟩ (events ++ [none]))) ∧
        (p₂ = none → _ ≤ (Decoder.finish ⟨p₂, held₂⟩ ++
          Decoder.text ⟨none, false⟩ (events ++ [none])).length + _)
      refine ⟨fun hp => ?_, fun hp => ?_⟩
      · subst hp
        cases p₂ with
        | none =>
          have htally := hih.1 rfl
          rw [ha rfl] at htally ⊢
          rw [finish_none]
          exact htally.ends hexp.head hh
        | some p =>
          have hle := hih.2 rfl
          obtain ⟨b, rest, rfl, hcont⟩ := hexp.head_some
          unfold Tally
          rw [if_neg (by simp [cleanReads, hcont]), finish_some]
          simp only [List.length_append, length_heldNewline, List.length_singleton]
          omega
      · subst hp
        have hle := hih.2 rfl
        rw [finish_none, List.length_append, length_heldNewline]
        omega
    | some b =>
      obtain rfl : bytes = b :: bytesOf events := hbytes.symm
      show (p₂ = p₁ → Tally a _ _ _ (Decoder.text ⟨p₁, held₁⟩ (some b :: _))
          (Decoder.text ⟨p₂, held₂⟩ (some b :: (events ++ [none])))) ∧
        (p₂ = none → (Decoder.text ⟨p₁, held₁⟩ (some b :: _)).length ≤
          (Decoder.text ⟨p₂, held₂⟩ (some b :: (events ++ [none]))).length + _)
      have hrep : (translate held₂ replacement).1 = false := by
        rw [translate_other (by decide) (by decide)]
      cases hexp with
      | @whole _ c _ hcont hfeed hexp =>
        have hnew := startByte_newline hfeed
        rw [text_char (d := ⟨none, held₁⟩) hfeed]
        have hih := @ih _ none none (translate held₁ c).1 (translate held₂ c).1 (b == 0x0d) hexp rfl
          (fun h => by rwa [translate_fst (by decide)] at h ⊢) fun _ => by
            rw [translate_fst (by decide), Bool.eq_iff_iff]
            simpa using hnew.2.symm
        rw [lag_translate] at hih
        have htally := (hih.1 rfl).char (a := a) hh hnew.1
        refine ⟨fun hp => ?_, fun hp => ?_⟩
        · subst hp
          rw [text_char (d := ⟨none, held₂⟩) hfeed]
          exact htally
        · subst hp
          rw [text_char (d := ⟨none, held₂⟩) hfeed]
          exact htally.length_le
      | @lead _ p _ hcont hfeed hexp =>
        rw [text_silent (d := ⟨none, held₁⟩) hfeed]
        have hih := @ih _ (some p) (some p) held₁ held₂ (b == 0x0d) hexp rfl hh (by simp)
        have htally := (hih.1 rfl).silent (a := a) (startByte_lead_ne hfeed).1 hexp.next_some
        refine ⟨fun hp => ?_, fun hp => ?_⟩
        · subst hp
          rw [text_silent (d := ⟨none, held₂⟩) hfeed]
          exact htally
        · subst hp
          rw [text_silent (d := ⟨none, held₂⟩) hfeed]
          exact htally.length_le
      | @more _ p p' _ hcont hfeed hexp =>
        rw [text_silent (d := ⟨some p, held₁⟩) hfeed]
        refine ⟨fun hp => ?_, fun hp => ?_⟩
        · subst hp
          have hih := @ih _ (some p') (some p') held₁ held₂ (b == 0x0d) hexp rfl hh (by simp)
          rw [text_silent (d := ⟨some p, held₂⟩) hfeed]
          exact (hih.1 rfl).silent (continuation_ne hcont).1 hexp.next_some
        · subst hp
          have hih := @ih _ (some p') none held₁ false (b == 0x0d) hexp rfl (by simp) (by simp)
          rw [text_char (d := ⟨none, held₂⟩) (startByte_continuation hcont), hrep]
          have hle := hih.2 rfl
          rw [show lag held₁ false = held₁ by simp [lag]] at hle
          exact Nat.le_of_succ_le (length_given_up hh hle)
      | @last _ p c _ hcont hfeed hlarge hexp =>
        obtain ⟨hlf, hcr⟩ := large_ne hlarge
        have hother : ∀ held, translate held c = (false, heldNewline held ++ [c]) :=
          fun held => translate_other hlf hcr
        have hb : (b == 0x0d) = false := by simpa using (continuation_ne hcont).2
        rw [text_char (d := ⟨some p, held₁⟩) hfeed]
        have hih := (@ih _ none none false false (b == 0x0d) hexp rfl id fun _ => hb).1 rfl
        refine ⟨fun hp => ?_, fun hp => ?_⟩
        · subst hp
          rw [text_char (d := ⟨some p, held₂⟩) hfeed]
          have hchar :=
            Tally.char (a := a) hh (c := c) (by simp [hlf, (continuation_ne hcont).1]) hih
          rwa [hother, hother] at hchar ⊢
        · subst hp
          have hle :
              (Decoder.text ⟨none, false⟩ ((bytesOf events).map some |>.append [none])).length ≤
            (Decoder.text ⟨none, false⟩ (events ++ [none])).length := hih.length_le
          rw [text_char (d := ⟨none, held₂⟩) (startByte_continuation hcont), hrep, hother]
          have hgiven := length_given_up hh (Nat.add_le_add_right hle held₁.toNat)
          simp only [List.length_append, length_heldNewline, List.length_singleton] at hgiven ⊢
          omega

/-- **Where every end of the file falls between characters and newlines, the reads give the
text of the finished file**, and else more than that. -/
theorem reads_text_iff {data : Bytes} (h : Expects none data) (hall : bytesOf events = data) :
    Decoder.new.text (events ++ [none]) = fileText data ↔ cleanReads false data events = true := by
  have htally :=
    (@tally_of_reads events data none none false false false h hall id fun _ => rfl).1 rfl
  unfold Tally at htally
  simp only [lag, Bool.false_and, Bool.not_false, Bool.and_true, Bool.toNat_false,
    Nat.add_zero] at htally
  constructor
  · intro heq
    by_contra hclean
    rw [if_neg hclean] at htally
    have hlen := congrArg List.length heq
    exact absurd hlen (Nat.ne_of_gt htally)
  · intro hclean
    rw [if_pos hclean] at htally
    exact htally.symm

end

end Py
