import NyanShopBot.Py.Percent
import NyanShopBot.Rewriting.Words

/-!
# Escapes

`Escapes e u` says that `e` is the escapes of one character `u`. Such words do not overlap
(`Escapes.behind`), and decoding replaces all of them at once: `Reads` says so piece by
piece, also of the escapes that are no UTF-8, which only `unquoteReplace` reads.
-/

namespace Py

/-! ## UTF-8, byte by byte -/

/-- The byte goes on as UTF-8. -/
def isExpected : Option Pending → UInt8 → Bool
  | none, b => b.toNat < 0x80 || (leadByte b.toNat).isSome
  | some p, b => p.low ≤ b.toNat && b.toNat ≤ p.high

/-- The two decoders go the same way up to a byte that is not expected. -/
theorem feedByte_spec (q : Option Pending) (b : UInt8) :
    (isExpected q b = true ∧ (∀ bs, decodeFrom q (b :: bs) =
        (decodeFrom (feedByte q b).1 bs).map ((feedByte q b).2 ++ ·)) ∧
      ((∃ u, feedByte q b = (none, [u])) ∨
        ∃ p, feedByte q b = (some p, []) ∧ 0x80 ≤ p.low ∧ p.high ≤ 0xbf)) ∨
    (isExpected q b = false ∧ (∀ bs, decodeFrom q (b :: bs) = none) ∧
      feedByte q b = match q with
        | none => (none, [replacement])
        | some _ => ((startByte b).1, replacement :: (startByte b).2)) := by
  cases q with
  | none =>
    by_cases hlow : b.toNat < 0x80
    · have hfeed : feedByte none b = (none, [codePoint b.toNat]) := if_pos hlow
      refine .inl ⟨by simp [isExpected, hlow], fun bs => ?_, .inl ⟨_, hfeed⟩⟩
      rw [hfeed, decodeFrom, if_pos hlow]
      rfl
    · cases hlead : leadByte b.toNat with
      | none =>
        refine .inr ⟨by simp [isExpected, hlow, hlead], fun bs => ?_, ?_⟩
        · rw [decodeFrom, if_neg hlow, hlead]
          rfl
        · show startByte b = _
          rw [startByte, if_neg hlow, hlead]
      | some p =>
        have hfeed : feedByte none b = (some p, []) := by
          show startByte b = _
          rw [startByte, if_neg hlow, hlead]
        refine .inl ⟨by simp [isExpected, hlead], fun bs => ?_, .inr ⟨p, hfeed, ?_⟩⟩
        · rw [hfeed, decodeFrom, if_neg hlow, hlead]
          show decodeFrom (some p) bs = (decodeFrom (some p) bs).map ([] ++ ·)
          simp
        · unfold leadByte at hlead
          split_ifs at hlead <;> cases hlead <;> simp
  | some p =>
    by_cases hrange : p.low ≤ b.toNat ∧ b.toNat ≤ p.high
    · by_cases hneed : p.need ≤ 1
      · have hfeed : feedByte (some p) b = (none, [codePoint (p.value * 64 + b.toNat % 64)]) := by
          simp only [feedByte, if_pos hrange, if_pos hneed]
        refine .inl ⟨by simp [isExpected, hrange], fun bs => ?_, .inl ⟨_, hfeed⟩⟩
        rw [hfeed, decodeFrom, if_pos hrange, if_pos hneed]
        rfl
      · have hfeed : feedByte (some p) b =
            (some ⟨p.need - 1, 0x80, 0xbf, p.value * 64 + b.toNat % 64⟩, []) := by
          simp only [feedByte, if_pos hrange, if_neg hneed]
        refine .inl ⟨by simp [isExpected, hrange], fun bs => ?_,
          .inr ⟨_, hfeed, le_refl _, le_refl _⟩⟩
        rw [hfeed, decodeFrom, if_pos hrange, if_neg hneed]
        simp
    · refine .inr ⟨by simpa [isExpected] using hrange, fun bs => ?_, ?_⟩
      · rw [decodeFrom, if_neg hrange]
      · simp only [feedByte, if_neg hrange]

theorem decodeFrom_append {q : Option Pending} {bs : Bytes} {t : Str} (h : decodeFrom q bs = some t)
    (bs' : Bytes) : decodeFrom q (bs ++ bs') = (decodeFrom none bs').map (t ++ ·) := by
  induction bs generalizing q t with
  | nil =>
    cases q with
    | none =>
      cases h
      simp
    | some p => cases h
  | cons b bs ih =>
    rcases feedByte_spec q b with ⟨-, htakes, -⟩ | ⟨-, hrefuses, -⟩
    · rw [htakes] at h
      obtain ⟨t', ht', rfl⟩ := Option.map_eq_some_iff.1 h
      rw [List.cons_append, htakes, ih ht', Option.map_map]
      simp [Function.comp_def]
    · rw [hrefuses] at h
      cases h

/-- Only no bytes are no text. -/
theorem decodeFrom_nil {q : Option Pending} {bs : Bytes} (h : decodeFrom q bs = some []) :
    q = none ∧ bs = [] := by
  induction bs generalizing q with
  | nil =>
    cases q with
    | none => exact ⟨rfl, rfl⟩
    | some p => cases h
  | cons b bs ih =>
    rcases feedByte_spec q b with ⟨-, htakes, hfeed⟩ | ⟨-, hrefuses, -⟩
    · rw [htakes] at h
      obtain ⟨t, ht, hnil⟩ := Option.map_eq_some_iff.1 h
      rcases hfeed with ⟨u, hfeed⟩ | ⟨p, hfeed, -⟩
      · rw [hfeed] at hnil
        cases hnil
      · rw [hfeed] at hnil ht
        obtain rfl : t = [] := hnil
        cases (ih ht).1
    · rw [hrefuses] at h
      cases h

/-- The bytes of one character are not the beginning of the bytes of another one. -/
theorem decodeUtf8_prefix {bs x : Bytes} {u u' : CodePoint} (h : decodeUtf8 bs = some [u])
    (h' : decodeUtf8 (bs ++ x) = some [u']) : x = [] ∧ u = u' := by
  rw [decodeUtf8, decodeFrom_append h] at h'
  obtain ⟨t, ht, htu⟩ := Option.map_eq_some_iff.1 h'
  obtain ⟨rfl, rfl⟩ := List.cons_eq_cons.1 htu
  exact ⟨(decodeFrom_nil ht).2, rfl⟩

/-- After the first byte of a character nothing is left, or the rest of the character. -/
theorem decodeFrom_rest {q : Option Pending} {b : UInt8} {bs : Bytes} {u : CodePoint}
    (h : decodeFrom q (b :: bs) = some [u]) :
    bs = [] ∨ ∃ p, 0x80 ≤ p.low ∧ p.high ≤ 0xbf ∧ decodeFrom (some p) bs = some [u] := by
  rcases feedByte_spec q b with ⟨-, htakes, hfeed⟩ | ⟨-, hrefuses, -⟩
  · rw [htakes] at h
    obtain ⟨t, ht, htu⟩ := Option.map_eq_some_iff.1 h
    rcases hfeed with ⟨u', hfeed⟩ | ⟨p, hfeed, hlow, hhigh⟩
    · rw [hfeed] at ht htu
      obtain ⟨-, rfl⟩ := List.cons_eq_cons.1 htu
      exact .inl (decodeFrom_nil ht).2
    · rw [hfeed] at ht htu
      obtain rfl : t = [u] := htu
      exact .inr ⟨p, hlow, hhigh, ht⟩
  · rw [hrefuses] at h
    cases h

/-- The bytes after the first one of a character continue it. -/
theorem decodeFrom_some_continues {p : Pending} {bs : Bytes} {u : CodePoint} (hlow : 0x80 ≤ p.low)
    (hhigh : p.high ≤ 0xbf) (h : decodeFrom (some p) bs = some [u]) :
    ∀ b ∈ bs, isContinuation b = true := by
  induction bs generalizing p with
  | nil => cases h
  | cons b bs ih =>
    have hb : isContinuation b = true := by
      rw [decodeFrom] at h
      split at h
      · next hrange =>
        simp only [isContinuation, Bool.and_eq_true, decide_eq_true_eq]
        omega
      · cases h
    refine List.forall_mem_cons.2 ⟨hb, ?_⟩
    rcases decodeFrom_rest h with rfl | ⟨p', hlow', hhigh', h⟩
    · exact fun b hb => absurd hb List.not_mem_nil
    · exact ih hlow' hhigh' h

theorem decodeUtf8_continues {b : UInt8} {bs : Bytes} {u : CodePoint}
    (h : decodeUtf8 (b :: bs) = some [u]) : ∀ b ∈ bs, isContinuation b = true := by
  rcases decodeFrom_rest h with rfl | ⟨p, hlow, hhigh, h⟩
  · exact fun b hb => absurd hb List.not_mem_nil
  · exact decodeFrom_some_continues hlow hhigh h

/-- No text begins with a byte that continues a character. -/
theorem decodeFrom_continuation {b : UInt8} (h : isContinuation b = true) (bs : Bytes) :
    decodeFrom none (b :: bs) = none := by
  have hstart := startByte_continuation h
  simp only [isContinuation, Bool.and_eq_true, decide_eq_true_eq] at h
  have hlow : ¬ b.toNat < 0x80 := by omega
  rw [startByte, if_neg hlow] at hstart
  rw [decodeFrom, if_neg hlow]
  cases hlead : leadByte b.toNat with
  | none => rfl
  | some p =>
    rw [hlead] at hstart
    cases hstart

/-! ## The escapes of one character -/

/-- `e` is the escapes of the bytes. -/
inductive Spells : Str → Bytes → Prop where
  | nil : Spells [] []
  | cons {c d : CodePoint} {b : UInt8} {e : Str} {bs : Bytes} : hexByte c d = some b →
      Spells e bs → Spells (chr '%' :: c :: d :: e) (b :: bs)

/-- `e` is the escapes of the character. -/
def Escapes (e : Str) (u : CodePoint) : Prop := ∃ bs, Spells e bs ∧ decodeUtf8 bs = some [u]

/-- What escapes are written with. -/
def isEscapeChar (c : CodePoint) : Bool := c = chr '%' || (hexValue c).isSome

theorem isEscapeChar_bounds {c : CodePoint} (h : isEscapeChar c = true) :
    0x20 ≤ c.val ∧ c.val < 0x7f := by
  rw [isEscapeChar, Bool.or_eq_true, decide_eq_true_eq] at h
  rcases h with rfl | h
  · decide
  · unfold hexValue at h
    split_ifs at h
    · omega
    · omega
    · omega
    · cases h

theorem hexByte_digits {c d : CodePoint} {b : UInt8} (h : hexByte c d = some b) :
    (hexValue c).isSome = true ∧ (hexValue d).isSome = true := by
  obtain ⟨m, hm, h⟩ := Option.bind_eq_some_iff.1 h
  obtain ⟨n, hn, -⟩ := Option.bind_eq_some_iff.1 h
  rw [hm, hn]
  exact ⟨rfl, rfl⟩

theorem hexValue_percent : (hexValue (chr '%')).isSome = false := by decide

theorem ne_percent {c : CodePoint} (h : (hexValue c).isSome = true) : c ≠ chr '%' := by
  rintro rfl
  rw [hexValue_percent] at h
  cases h

variable {e e' p s s' t : Str} {bs bs' : Bytes} {u u' : CodePoint}

theorem Spells.append (h : Spells e bs) (h' : Spells e' bs') : Spells (e ++ e') (bs ++ bs') := by
  induction h with
  | nil => exact h'
  | cons hb _ ih => exact .cons hb ih

theorem Spells.chars (h : Spells e bs) : ∀ c ∈ e, isEscapeChar c = true := by
  induction h with
  | nil => exact fun c hc => absurd hc List.not_mem_nil
  | cons hb _ ih =>
    obtain ⟨hc, hd⟩ := hexByte_digits hb
    refine List.forall_mem_cons.2 ⟨by decide, List.forall_mem_cons.2 ⟨?_, List.forall_mem_cons.2
      ⟨?_, ih⟩⟩⟩
    · rw [isEscapeChar, hc, Bool.or_true]
    · rw [isEscapeChar, hd, Bool.or_true]

/-- Of two spellings that a text begins with one goes on from the other. -/
theorem Spells.compare (h : Spells e bs) (h' : Spells e' bs') (heq : e ++ s = e' ++ t) :
    (∃ x y, Spells x y ∧ e' = e ++ x ∧ bs' = bs ++ y) ∨
      ∃ x y, Spells x y ∧ e = e' ++ x ∧ bs = bs' ++ y := by
  induction h generalizing e' bs' with
  | nil => exact .inl ⟨e', bs', h', rfl, rfl⟩
  | cons hb h ih =>
    cases h' with
    | nil => exact .inr ⟨_, _, .cons hb h, rfl, rfl⟩
    | cons hb' h' =>
      simp only [List.cons_append, List.cons.injEq, true_and] at heq
      obtain ⟨rfl, rfl, heq⟩ := heq
      obtain rfl := Option.some.inj (hb.symm.trans hb')
      rcases ih h' heq with ⟨x, y, hx, rfl, rfl⟩ | ⟨x, y, hx, rfl, rfl⟩
      · exact .inl ⟨x, y, hx, rfl, rfl⟩
      · exact .inr ⟨x, y, hx, rfl, rfl⟩

/-- A spelling that begins inside of another one begins with one of its bytes. -/
theorem Spells.inside (h : Spells e bs) (h' : Spells e' bs') (hne : bs' ≠ [])
    (heq : e ++ s = p ++ (e' ++ t)) :
    e <+: p ∨ ∃ l b r, bs = l ++ b :: r ∧ bs'.head? = some b ∧ (p ≠ [] → l ≠ []) := by
  obtain ⟨c', d', b', e', bs', hb', h', rfl, rfl⟩ : ∃ c d b r rs, hexByte c d = some b ∧
      Spells r rs ∧ e' = chr '%' :: c :: d :: r ∧ bs' = b :: rs := by
    cases h' with
    | nil => exact absurd rfl hne
    | cons hb h' => exact ⟨_, _, _, _, _, hb, h', rfl, rfl⟩
  induction h generalizing p with
  | nil => exact .inl List.nil_prefix
  | @cons c d b e bs hb _ ih =>
    obtain ⟨hc, hd⟩ := hexByte_digits hb
    rcases p with _ | ⟨x, _ | ⟨y, _ | ⟨z, p⟩⟩⟩
    · simp only [List.nil_append, List.cons_append, List.cons.injEq, true_and] at heq
      obtain ⟨rfl, rfl, -⟩ := heq
      obtain rfl := Option.some.inj (hb.symm.trans hb')
      exact .inr ⟨[], b, bs, rfl, rfl, fun h => absurd rfl h⟩
    · simp only [List.cons_append, List.nil_append, List.cons.injEq] at heq
      exact absurd heq.2.1 (ne_percent hc)
    · simp only [List.cons_append, List.nil_append, List.cons.injEq] at heq
      exact absurd heq.2.2.1 (ne_percent hd)
    · simp only [List.cons_append, List.cons.injEq] at heq
      obtain ⟨rfl, rfl, rfl, heq⟩ := heq
      rcases ih heq with hp | ⟨l, b', r, rfl, hhead, -⟩
      · exact .inl (by simpa using hp)
      · exact .inr ⟨b :: l, b', r, rfl, hhead, fun _ => by simp⟩

theorem Escapes.chars (h : Escapes e u) : ∀ c ∈ e, isEscapeChar c = true := by
  obtain ⟨bs, hbs, -⟩ := h
  exact hbs.chars

theorem Escapes.cons (h : Escapes e u) : ∃ c d b e', e = chr '%' :: c :: d :: e' ∧
    hexByte c d = some b := by
  obtain ⟨bs, hbs, hu⟩ := h
  cases hbs with
  | nil => cases hu
  | cons hb _ => exact ⟨_, _, _, _, rfl, hb⟩

/-- A text begins with the escapes of one character at most. -/
theorem Escapes.same (h : Escapes e u) (h' : Escapes e' u') (heq : e ++ s = e' ++ t) :
    e = e' ∧ u = u' := by
  obtain ⟨bs, hbs, hu⟩ := h
  obtain ⟨bs', hbs', hu'⟩ := h'
  rcases hbs.compare hbs' heq with ⟨x, y, hx, rfl, rfl⟩ | ⟨x, y, hx, rfl, rfl⟩
  · obtain ⟨rfl, rfl⟩ := decodeUtf8_prefix hu hu'
    cases hx
    exact ⟨(List.append_nil _).symm, rfl⟩
  · obtain ⟨rfl, rfl⟩ := decodeUtf8_prefix hu' hu
    cases hx
    exact ⟨List.append_nil _, rfl⟩

/-- **The escapes of two characters do not overlap.** -/
theorem Escapes.behind (h : Escapes e u) (h' : Escapes e' u') (hp : p ≠ [])
    (heq : e ++ s = p ++ (e' ++ t)) : e <+: p := by
  obtain ⟨bs, hbs, hu⟩ := h
  obtain ⟨bs', hbs', hu'⟩ := h'
  have hne : bs' ≠ [] := by
    rintro rfl
    cases hu'
  rcases hbs.inside hbs' hne heq with hprefix | ⟨l, b, r, rfl, hhead, hl⟩
  · exact hprefix
  · -- a byte that continues a character begins none
    obtain ⟨b₀, l, rfl⟩ := List.exists_cons_of_ne_nil (hl hp)
    have hb := decodeUtf8_continues hu b (by simp)
    obtain ⟨r', rfl⟩ : ∃ r', bs' = b :: r' := by
      cases bs' with
      | nil => cases hhead
      | cons b' r' =>
        obtain rfl := Option.some.inj hhead
        exact ⟨r', rfl⟩
    rw [decodeUtf8, decodeFrom_continuation hb] at hu'
    cases hu'

/-! ## Decoding, piece by piece -/

/-- `s` is decoded to `t`: characters stay, escapes become characters, and, where it is not
strict, other escapes are replaced. -/
inductive Reads (strict : Prop) : Str → Str → Prop where
  | nil : Reads strict [] []
  | keep {c : CodePoint} {s t : Str} : (∀ e u, Escapes e u → ¬ e <+: c :: s) →
      Reads strict s t → Reads strict (c :: s) (c :: t)
  | char {e : Str} {u : CodePoint} {s t : Str} : Escapes e u → Reads strict s t →
      Reads strict (e ++ s) (u :: t)
  | bad {e : Str} {bs : Bytes} {s t : Str} : ¬ strict → Spells e bs → Reads strict s t →
      Reads strict (e ++ s) (replacement :: t)

/-- The octets are text after the bytes of a character of which some may be missing. -/
def Whole : Option Pending → List Octet → Prop
  | q, [] => q = none
  | q, .inl b :: rest => isExpected q b = true ∧ Whole (feedByte q b).1 rest
  | q, .inr _ :: rest => q = none ∧ Whole none rest

/-- The text `e` before is the escapes of a character of which some are missing. -/
structure Held (q : Option Pending) (e : Str) : Prop where
  bytes : ∃ bs, Spells e bs ∧ ∀ bs', decodeFrom none (bs ++ bs') = decodeFrom q bs'
  empty : q = none → e = []
  low : ∀ p, q = some p → 0x80 ≤ p.low

theorem Held.nil : Held none [] :=
  ⟨⟨[], .nil, fun _ => rfl⟩, fun _ => rfl, fun _ h => by cases h⟩

/-- The next character is the first of an escape, or it stays. -/
theorem octets_cases (c : CodePoint) (s : Str) :
    (∃ d e s' b, c = chr '%' ∧ s = d :: e :: s' ∧ hexByte d e = some b ∧
      octets (c :: s) = .inl b :: octets s') ∨
    (octets (c :: s) = octet c :: octets s ∧ ∀ e u, Escapes e u → ¬ e <+: c :: s) := by
  have hnone (h : ∀ d e s', c :: s = chr '%' :: d :: e :: s' → hexByte d e = none) :
      ∀ e u, Escapes e u → ¬ e <+: c :: s := by
    rintro e u he ⟨t, ht⟩
    obtain ⟨x, y, b, e', rfl, hb⟩ := he.cons
    rw [h x y (e' ++ t) ht.symm] at hb
    cases hb
  rcases s with _ | ⟨d, _ | ⟨e, s⟩⟩
  · exact .inr ⟨rfl, hnone fun _ _ _ h => by cases h⟩
  · exact .inr ⟨rfl, hnone fun _ _ _ h => by cases h⟩
  by_cases hc : c = chr '%'
  · cases hb : hexByte d e with
    | some b =>
      refine .inl ⟨d, e, s, b, hc, rfl, hb, ?_⟩
      rw [octets, if_pos hc, hb]
    | none =>
      refine .inr ⟨?_, hnone fun x y t h => ?_⟩
      · rw [octets, if_pos hc, hb]
      · obtain ⟨rfl, rfl, rfl, rfl⟩ : c = chr '%' ∧ d = x ∧ e = y ∧ s = t := by simpa using h
        exact hb
  · refine .inr ⟨by rw [octets, if_neg hc], hnone fun x y t h => ?_⟩
    exact absurd (List.cons_eq_cons.1 h).1 hc

/-- A character of which bytes are missing is given up where no expected byte follows. -/
theorem decodeReplace_stuck {p : Pending} {l : List Octet}
    (h : ∀ b rest, l = .inl b :: rest → isExpected (some p) b = false) :
    decodeReplace (some p) l = replacement :: decodeReplace none l ∧ ¬ Whole (some p) l := by
  rcases l with _ | ⟨b | c, l⟩
  · exact ⟨rfl, fun hw => by cases hw⟩
  · have hb := h b l rfl
    rcases feedByte_spec (some p) b with ⟨hb', -⟩ | ⟨-, -, hfeed⟩
    · rw [hb] at hb'
      cases hb'
    · refine ⟨?_, fun hw => ?_⟩
      · rw [decodeReplace, hfeed]
        rfl
      · have hw := hw.1
        rw [hb] at hw
        cases hw
  · exact ⟨rfl, fun hw => by cases hw.1⟩

/-- Decoding the text is what `Reads` says, whatever is held before it. -/
def ReadsOn (strict : Prop) (s : Str) : Prop :=
  ∀ {q : Option Pending} {e : Str}, Held q e → (strict → Whole q (octets s)) →
    Reads strict (e ++ s) (decodeReplace q (octets s))

section

variable {strict : Prop} {q : Option Pending}

/-- An expected byte ends a character, or is held. -/
theorem reads_expected {c d : CodePoint} {b : UInt8} (ih : ReadsOn strict s) (hq : Held q e)
    (hb : hexByte c d = some b) (ho : octets (chr '%' :: c :: d :: s) = .inl b :: octets s)
    (hexpected : isExpected q b = true)
    (hs : strict → Whole q (octets (chr '%' :: c :: d :: s))) :
    Reads strict (e ++ chr '%' :: c :: d :: s)
      (decodeReplace q (octets (chr '%' :: c :: d :: s))) := by
  obtain ⟨bs, hbs, hstate⟩ := hq.bytes
  have hspells : Spells (e ++ [chr '%', c, d]) (bs ++ [b]) := hbs.append (.cons hb .nil)
  have happend : e ++ chr '%' :: c :: d :: s = e ++ [chr '%', c, d] ++ s := by simp
  rw [ho] at hs ⊢
  have hrest (h : strict) : Whole (feedByte q b).1 (octets s) := (hs h).2
  rw [happend, decodeReplace]
  rcases feedByte_spec q b with ⟨-, htakes, ⟨u, hfeed⟩ | ⟨p, hfeed, hlow, -⟩⟩ | ⟨hunexpected, -⟩
  · have hu : Escapes (e ++ [chr '%', c, d]) u := by
      refine ⟨bs ++ [b], hspells, ?_⟩
      rw [decodeUtf8, hstate, htakes, hfeed]
      rfl
    rw [hfeed] at hrest ⊢
    exact .char hu (ih Held.nil hrest)
  · rw [hfeed] at hrest ⊢
    refine ih ⟨⟨bs ++ [b], hspells, fun bs' => ?_⟩, (fun h => by cases h), fun p' hp' => ?_⟩ hrest
    · rw [List.append_assoc, hstate, List.singleton_append, htakes, hfeed]
      simp
    · cases hp'
      exact hlow
  · rw [hexpected] at hunexpected
    cases hunexpected

/-- Nothing is held. -/
theorem reads_start (ih : ∀ s' : Str, s'.length < s.length → ReadsOn strict s')
    (hs : strict → Whole none (octets s)) : Reads strict s (decodeReplace none (octets s)) := by
  rcases s with _ | ⟨c, s⟩
  · exact .nil
  rcases octets_cases c s with ⟨d, e, s, b, rfl, rfl, hb, ho⟩ | ⟨ho, hkeep⟩
  · have hshort : s.length < (chr '%' :: d :: e :: s).length := by simp; omega
    by_cases hexpected : isExpected none b = true
    · exact reads_expected (ih s hshort) Held.nil hb ho hexpected hs
    · -- no character begins with the byte
      rw [ho] at hs ⊢
      have hstrict : ¬ strict := fun h => hexpected (hs h).1
      rcases feedByte_spec none b with ⟨h, -⟩ | ⟨-, -, hfeed⟩
      · exact absurd h hexpected
      · rw [decodeReplace, hfeed]
        exact .bad hstrict (.cons hb .nil) (ih s hshort Held.nil fun h => absurd h hstrict)
  · have hshort : s.length < (c :: s).length := by simp
    rw [ho, octet] at hs ⊢
    split at hs
    · next hc =>
      have hto : c.val.toUInt8.toNat = c.val := toNat_toUInt8 (by omega)
      have hfeed : feedByte none c.val.toUInt8 = (none, [c]) := by
        show startByte _ = _
        rw [startByte, hto, if_pos hc, codePoint_val]
      have hrest (h : strict) : Whole (feedByte none c.val.toUInt8).1 (octets s) := (hs h).2
      rw [hfeed] at hrest
      rw [if_pos hc, decodeReplace, hfeed]
      exact .keep hkeep (ih s hshort Held.nil hrest)
    · next hc =>
      rw [if_neg hc]
      exact .keep hkeep (ih s hshort Held.nil fun h => (hs h).2)

/-- **Decoding replaces the escapes of all characters**, and leaves the rest as it is. -/
theorem reads_octets (s : Str) : ReadsOn strict s := by
  induction hn : s.length using Nat.strong_induction_on generalizing s with
  | _ n ih =>
    subst hn
    have ih (s' : Str) (hs' : s'.length < s.length) : ReadsOn strict s' := ih _ hs' s' rfl
    intro q e hq hs
    cases q with
    | none =>
      obtain rfl := hq.empty rfl
      exact reads_start ih hs
    | some p =>
      obtain ⟨bs, hbs, -⟩ := hq.bytes
      have hbad (h : ∀ b rest, octets s = .inl b :: rest → isExpected (some p) b = false) :
          Reads strict (e ++ s) (decodeReplace (some p) (octets s)) := by
        obtain ⟨hreplace, hwhole⟩ := decodeReplace_stuck h
        have hstrict : ¬ strict := fun h => hwhole (hs h)
        rw [hreplace]
        exact .bad hstrict hbs (reads_start ih fun h => absurd h hstrict)
      rcases s with _ | ⟨c, s⟩
      · exact hbad fun _ _ h => by cases h
      rcases octets_cases c s with ⟨d, f, s, b, rfl, rfl, hb, ho⟩ | ⟨ho, -⟩
      · by_cases hexpected : isExpected (some p) b = true
        · exact reads_expected (ih s (by simp; omega)) hq hb ho hexpected hs
        · refine hbad fun b' rest h => ?_
          rw [ho] at h
          cases h
          simpa using hexpected
      · -- an ASCII character continues nothing
        refine hbad fun b rest h => ?_
        rw [ho, octet] at h
        have hlow := hq.low p rfl
        split at h
        · next hc =>
          cases h
          have hto : c.val.toUInt8.toNat = c.val := toNat_toUInt8 (by omega)
          simp only [isExpected, hto, Bool.and_eq_false_iff, decide_eq_false_iff_not]
          omega
        · cases h

end

theorem reads_unquoteReplace (s : Str) : Reads False s (unquoteReplace s) :=
  reads_octets s Held.nil False.elim

end Py
