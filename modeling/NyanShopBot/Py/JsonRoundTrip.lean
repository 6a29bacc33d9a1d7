import NyanShopBot.Py.JsonLoads

/-!
# The round trip of JSON

A `Writable` value is read back from the text that `Json.dumps` writes, `loads_dumps`: with
either escape, and with its members sorted where they were written sorted (`ordered`).
-/

namespace Py

namespace Json

/-! ## Strings -/

/-- Puts the characters before what is read. -/
def prepend (t : Str) (r : Option (Str × Str)) : Option (Str × Str) :=
  r.map fun r => (t ++ r.1, r.2)

theorem prepend_prepend (t u : Str) (r : Option (Str × Str)) :
    prepend t (prepend u r) = prepend (t ++ u) r := by
  cases r with
  | none => rfl
  | some r => simp [prepend]

/-- An escape whose text is read back as the character. -/
def Readable (escape : CodePoint → Str) : Prop :=
  ∀ c s, isSurrogate c = false →
    scanString none (escape c ++ s) = prepend [c] (scanString none s)

section

variable {c e x : CodePoint} {s : Str} {n m : Nat}

theorem scanString_plain (hq : c ≠ quoteMark) (hb : c ≠ backslash) (hc : 0x20 ≤ c.val) :
    scanString none (c :: s) = prepend [c] (scanString none s) := by
  rw [scanString.eq_def]
  simp only
  rw [if_neg hq, if_neg hb, if_neg (by omega)]
  rfl

theorem scanString_escaped (he : e ≠ chr 'u') (hx : escaped e = some x) :
    scanString none (backslash :: e :: s) = prepend [x] (scanString none s) := by
  rw [scanString.eq_def]
  simp only
  rw [if_neg (by decide), if_pos trivial, if_neg he, hx]
  rfl

theorem hexValue_digitChar (h : n < 16) : hexValue (chr (Nat.digitChar n)) = some n := by
  have hall : ∀ n : Fin 16, hexValue (chr (Nat.digitChar n.val)) = some n.val := by decide +kernel
  exact hall ⟨n, h⟩

/-- The four digits of a unit are read back. -/
theorem scanString_unit (hn : n < 0x10000) (high : Option CodePoint) :
    scanString high (unitEscape n ++ s) =
      prepend (joinUnit high ⟨n, by omega⟩).1 (scanString (joinUnit high ⟨n, by omega⟩).2 s) := by
  have hunit : hexUnit (chr (Nat.digitChar (n / 16 / 16 / 16 % 16)))
      (chr (Nat.digitChar (n / 16 / 16 % 16))) (chr (Nat.digitChar (n / 16 % 16)))
      (chr (Nat.digitChar (n % 16))) = some ⟨n, by omega⟩ := by
    have hval : ((n / 16 / 16 / 16 % 16 * 16 + n / 16 / 16 % 16) * 16 + n / 16 % 16) * 16 + n % 16 =
        n := by omega
    unfold hexUnit
    simp only [hexValue_digitChar (Nat.mod_lt _ (by decide : 16 > 0)), bind, Option.bind, hval]
    rw [dif_pos (by omega)]
  have htext : unitEscape n ++ s = backslash :: chr 'u' ::
      chr (Nat.digitChar (n / 16 / 16 / 16 % 16)) :: chr (Nat.digitChar (n / 16 / 16 % 16)) ::
      chr (Nat.digitChar (n / 16 % 16)) :: chr (Nat.digitChar (n % 16)) :: s := rfl
  rw [htext, scanString.eq_def]
  simp only
  rw [if_neg (by decide), if_pos trivial, if_pos trivial, hunit]
  rfl

/-- The short escapes are read back. -/
theorem scanString_shortEscape {t : Str} (h : shortEscape c = some t) :
    scanString none (t ++ s) = prepend [c] (scanString none s) := by
  have hread (x e : CodePoint) (hc : c.val = x.val) (he : e ≠ chr 'u') (hx : escaped e = some x)
      (ht : some [backslash, e] = some t) :
      scanString none (t ++ s) = prepend [c] (scanString none s) := by
    rw [← Option.some.inj ht, Fin.ext hc]
    exact scanString_escaped he hx
  unfold shortEscape at h
  dsimp only at h
  split at h
  · next hc => exact hread 0x22 0x22 hc (by decide) rfl h
  split at h
  · next hc => exact hread 0x5c 0x5c hc (by decide) rfl h
  split at h
  · next hc => exact hread 0x0a 0x6e hc (by decide) rfl h
  split at h
  · next hc => exact hread 0x0d 0x72 hc (by decide) rfl h
  split at h
  · next hc => exact hread 0x09 0x74 hc (by decide) rfl h
  split at h
  · next hc => exact hread 0x08 0x62 hc (by decide) rfl h
  split at h
  · next hc => exact hread 0x0c 0x66 hc (by decide) rfl h
  · cases h

/-- Only these two characters have to be escaped beside the controls. -/
theorem ne_of_shortEscape (h : shortEscape c = none) : c ≠ quoteMark ∧ c ≠ backslash := by
  constructor
  · rintro rfl
    cases h
  · rintro rfl
    cases h

theorem joinUnit_other (hc : isSurrogate c = false) :
    joinUnit none c = ([c], none) := by
  have hh : isHigh c = false := by
    simp only [isSurrogate, isHigh, Bool.and_eq_false_iff, decide_eq_false_iff_not] at hc ⊢
    omega
  rw [joinUnit, hh]
  rfl

end

theorem readable_escapeText : Readable escapeText := by
  intro c s hc
  unfold escapeText
  cases hs : shortEscape c with
  | some t => exact scanString_shortEscape hs
  | none =>
    obtain ⟨hq, hb⟩ := ne_of_shortEscape hs
    dsimp only
    split
    · next hlt =>
      rw [scanString_unit (by omega), joinUnit_other hc]
    · next hlt => exact scanString_plain hq hb (by omega)

theorem readable_escapeAscii : Readable escapeAscii := by
  intro c s hc
  have hmax := c.isLt
  unfold escapeAscii
  dsimp only
  cases hs : shortEscape c with
  | some t => exact scanString_shortEscape hs
  | none =>
    obtain ⟨hq, hb⟩ := ne_of_shortEscape hs
    dsimp only
    split
    · next hasc =>
      rw [Bool.and_eq_true, decide_eq_true_eq] at hasc
      exact scanString_plain hq hb hasc.1
    split
    · next hlt => rw [scanString_unit hlt, joinUnit_other hc]
    · next hlt =>
      have hhigh : 0xd800 + (c.val - 0x10000) / 0x400 < 0x10000 := by omega
      have hlow : 0xdc00 + (c.val - 0x10000) % 0x400 < 0x10000 := by omega
      rw [List.append_assoc, scanString_unit hhigh]
      have hj : joinUnit none ⟨0xd800 + (c.val - 0x10000) / 0x400, by omega⟩ =
          ([], some ⟨0xd800 + (c.val - 0x10000) / 0x400, by omega⟩) := by
        have hh : isHigh ⟨0xd800 + (c.val - 0x10000) / 0x400, by omega⟩ = true := by
          simp only [isHigh, Bool.and_eq_true, decide_eq_true_eq]
          omega
        rw [joinUnit, hh]
        rfl
      rw [hj]
      dsimp only
      rw [scanString_unit hlow, prepend_prepend]
      have hj' : joinUnit (some ⟨0xd800 + (c.val - 0x10000) / 0x400, by omega⟩)
          ⟨0xdc00 + (c.val - 0x10000) % 0x400, by omega⟩ = ([c], none) := by
        have hl : isLow ⟨0xdc00 + (c.val - 0x10000) % 0x400, by omega⟩ = true := by
          simp only [isLow, Bool.and_eq_true, decide_eq_true_eq]
          omega
        have hjoin : joinSurrogates ⟨0xd800 + (c.val - 0x10000) / 0x400, by omega⟩
            ⟨0xdc00 + (c.val - 0x10000) % 0x400, by omega⟩ = c := by
          apply Fin.ext
          show (0x10000 + (0xd800 + (c.val - 0x10000) / 0x400 - 0xd800) * 0x400 +
            (0xdc00 + (c.val - 0x10000) % 0x400 - 0xdc00)) % 0x110000 = c.val
          omega
        rw [joinUnit, hl, if_pos rfl, hjoin]
      rw [hj']
      rfl

section

variable {escape : CodePoint → Str}

/-- A quoted text is read back, after its opening quote. -/
theorem scanString_flatMap (he : Readable escape) {t : Str} (ht : t.any isSurrogate = false)
    (s : Str) : scanString none (t.flatMap escape ++ quoteMark :: s) = some (t, s) := by
  induction t with
  | nil =>
    show scanString none (quoteMark :: s) = _
    rw [scanString.eq_def]
    rfl
  | cons c t ih =>
    rw [List.any_cons, Bool.or_eq_false_iff] at ht
    rw [List.flatMap_cons, List.append_assoc, he c _ ht.1, ih ht.2]
    rfl

theorem quote_eq (t : Str) : quote escape t = quoteMark :: (t.flatMap escape ++ [quoteMark]) := rfl

theorem scanText_quote (he : Readable escape) {t : Str} (ht : t.any isSurrogate = false) (s : Str) :
    scanText (t.flatMap escape ++ quoteMark :: s) = .ok (t, s) := by
  rw [scanText, scanString_flatMap he ht]

end

/-! ## Numbers -/

/-- The text goes on with nothing that a number could go on with. -/
def NumberEnds (s : Str) : Prop :=
  ∀ c ∈ s.head?, isDigit c = false ∧ c ≠ chr '.' ∧ c ≠ chr 'e' ∧ c ≠ chr 'E'

theorem isDigit_of_mem_natStr {n : Nat} {c : CodePoint} (h : c ∈ natStr n) : isDigit c = true := by
  obtain ⟨d, hd, rfl⟩ := List.mem_map.1 h
  have hdigit := Nat.isDigit_of_mem_toDigits (by decide) (by decide) hd
  simp only [Char.isDigit, Bool.and_eq_true, decide_eq_true_eq] at hdigit
  have hval : (chr d).val = d.val.toNat := rfl
  simp only [isDigit, Bool.and_eq_true, decide_eq_true_eq, hval]
  exact ⟨hdigit.1, hdigit.2⟩

theorem digitsValue_natStr (n : Nat) : digitsValue (natStr n) = n := by
  rw [digitsValue, natStr, List.foldl_map]
  exact Nat.ofDigitChars_ten_toDigits

/-- A number is written without leading zeros. -/
theorem natStr_head (n : Nat) : ∃ c t, natStr n = c :: t ∧ isDigit c = true ∧
    (c = chr '0' → t = []) := by
  induction n using Nat.strongRecOn with
  | ind n ih =>
    by_cases hn : n < 10
    · refine ⟨chr (Nat.digitChar n), [], ?_, ?_, fun _ => rfl⟩
      · rw [natStr, Nat.toDigits_of_lt_base hn]
        rfl
      · exact isDigit_of_mem_natStr (n := n) (by
          rw [natStr, Nat.toDigits_of_lt_base hn]
          exact List.mem_cons_self)
    · obtain ⟨c, t, he, hc, hz⟩ := ih (n / 10) (by omega)
      have hsplit : natStr n = natStr (n / 10) ++ [chr (Nat.digitChar (n % 10))] := by
        rw [natStr, Nat.toDigits_of_base_le (by decide) (by omega), List.map_append]
        rfl
      refine ⟨c, t ++ [chr (Nat.digitChar (n % 10))], by rw [hsplit, he]; rfl, hc, fun h0 => ?_⟩
      -- the digits before the last one would be a zero
      have hzero : digitsValue (natStr (n / 10)) = 0 := by
        rw [he, hz h0, h0]
        rfl
      rw [digitsValue_natStr] at hzero
      omega

theorem takeWhile_digits {t s : Str} (ht : ∀ c ∈ t, isDigit c = true) (hs : NumberEnds s) :
    (t ++ s).takeWhile isDigit = t ∧ (t ++ s).dropWhile isDigit = s := by
  rw [List.takeWhile_append_of_pos ht, List.dropWhile_append_of_pos ht]
  cases s with
  | nil => simp
  | cons c s =>
    have hc := (hs c rfl).1
    simp [hc]

theorem scanWhole_natStr {n : Nat} {s : Str} (hs : NumberEnds s) :
    scanWhole (natStr n ++ s) = some (natStr n, s) := by
  obtain ⟨c, t, he, hc, hz⟩ := natStr_head n
  have ht : ∀ x ∈ t, isDigit x = true := fun x hx =>
    isDigit_of_mem_natStr (n := n) (by rw [he]; exact List.mem_cons_of_mem _ hx)
  rw [he, List.cons_append, scanWhole]
  by_cases h0 : c = chr '0'
  · rw [if_pos h0, hz h0]
    rfl
  · obtain ⟨htake, hdrop⟩ := takeWhile_digits ht hs
    rw [if_neg h0, if_pos hc, htake, hdrop]

theorem scanFraction_end {s : Str} (hs : NumberEnds s) : scanFraction s = ([], s) := by
  cases s with
  | nil => rfl
  | cons c s =>
    rw [scanFraction, if_neg fun h => (hs c rfl).2.1 h.1]

theorem scanExponent_end {s : Str} (hs : NumberEnds s) : scanExponent s = (none, s) := by
  cases s with
  | nil => rfl
  | cons c s =>
    obtain ⟨-, -, he, hE⟩ := hs c rfl
    rw [scanExponent, if_neg fun h => h.1.elim he hE]

theorem scanNumber_intStr {n : Int} {s : Str} (hs : NumberEnds s)
    (hlen : (natStr n.natAbs).length ≤ maxDigits) :
    scanNumber (intStr n ++ s) = .ok (.int n, s) := by
  have hread (neg : Bool) (t : Str) (h : scanWhole (if neg then t.tail else t) =
      some (natStr n.natAbs, s)) (hneg : decide (t.head? = some (chr '-')) = neg)
      (hn : signed neg n.natAbs = n) : scanNumber t = .ok (.int n, s) := by
    unfold scanNumber
    dsimp only
    rw [hneg, h]
    dsimp only
    rw [scanFraction_end hs, scanExponent_end hs, if_pos ⟨rfl, rfl⟩, if_neg (by omega),
      digitsValue_natStr, hn]
  cases n with
  | ofNat m =>
    refine hread false _ (scanWhole_natStr hs) ?_ rfl
    obtain ⟨c, t, he, hc, -⟩ := natStr_head m
    show decide ((natStr m ++ s).head? = some (chr '-')) = false
    rw [he]
    refine decide_eq_false fun h => ?_
    rw [Option.some.inj h] at hc
    exact absurd hc (by decide)
  | negSucc m =>
    refine hread true (chr '-' :: (natStr (m + 1) ++ s)) (scanWhole_natStr hs) rfl ?_
    show -((m + 1 : Nat) : Int) = Int.negSucc m
    rfl

/-! ## Values -/

section

variable (escape : CodePoint → Str) (sortKeys : Bool)

/-- The order in which members are written. -/
def sortMembers (members : List (Str × Json)) : List (Str × Json) :=
  if sortKeys then members.insertionSort fun a b => strLe a.1 b.1 = true else members

mutual

/-- The value as it is written. -/
def ordered : Json → Json
  | arr items => arr (orderedItems items)
  | obj members => obj (sortMembers sortKeys (orderedMembers members))
  | j => j

def orderedItems : List Json → List Json
  | [] => []
  | j :: items => ordered j :: orderedItems items

def orderedMembers : List (Str × Json) → List (Str × Json)
  | [] => []
  | (k, j) :: members => (k, ordered j) :: orderedMembers members

end

/-- A float that is read back from its text. -/
structure ReadsBack (x : PyFloat) : Prop where
  head : ∃ c t, x.repr = c :: t ∧ isBlank c = false ∧ c ≠ quoteMark ∧ c ≠ openBrace ∧
    c ≠ openBracket ∧ c ≠ closeBracket ∧ c.val < 0x80
  read : ∀ s, NumberEnds s → scanAtom (x.repr ++ s) = .ok (.float x, s)

/-- The values whose text is read back: text without surrogates, numbers that `int` reads. -/
inductive Writable : Json → Prop
  | null : Writable .null
  | bool (b : Bool) : Writable (.bool b)
  | int (n : Int) : (natStr n.natAbs).length ≤ maxDigits → Writable (.int n)
  | float (x : PyFloat) : ReadsBack x → Writable (.float x)
  | str (t : Str) : t.any isSurrogate = false → Writable (.str t)
  | arr (items : List Json) : (∀ j ∈ items, Writable j) → Writable (.arr items)
  | obj (members : List (Str × Json)) : (∀ m ∈ members, m.1.any isSurrogate = false) →
      (∀ m ∈ members, Writable m.2) → Writable (.obj members)

/-- Where so much fuel is left, the value is read from the start of a text. -/
def Reads (j : Json) : Prop :=
  ∀ fuel s, 2 * (dumps escape sortKeys j).length ≤ fuel → NumberEnds s →
    scanValue fuel (dumps escape sortKeys j ++ s) = .ok (ordered sortKeys j, s)

variable {escape : CodePoint → Str} {sortKeys : Bool}

theorem dumpsItems_eq (items : List Json) :
    dumpsItems escape sortKeys items = items.map (dumps escape sortKeys) := by
  induction items with
  | nil => rfl
  | cons j items ih => rw [dumpsItems, ih, List.map_cons]

theorem dumpsMembers_eq (members : List (Str × Json)) : dumpsMembers escape sortKeys members =
    members.map fun m => (m.1, dumps escape sortKeys m.2) := by
  induction members with
  | nil => rfl
  | cons m members ih => rw [dumpsMembers, ih, List.map_cons]

theorem orderedItems_eq (items : List Json) :
    orderedItems sortKeys items = items.map (ordered sortKeys) := by
  induction items with
  | nil => rfl
  | cons j items ih => rw [orderedItems, ih, List.map_cons]

theorem orderedMembers_eq (members : List (Str × Json)) : orderedMembers sortKeys members =
    members.map fun m => (m.1, ordered sortKeys m.2) := by
  induction members with
  | nil => rfl
  | cons m members ih => rw [orderedMembers, ih, List.map_cons]

/-- A member as it is written. -/
def memberText (escape : CodePoint → Str) (sortKeys : Bool) (m : Str × Json) : Str :=
  quote escape m.1 ++ [colon] ++ dumps escape sortKeys m.2

/-- Sorting by key does not look at the values. -/
theorem map_insertionSort_keys {α : Type} (members : List (Str × Json)) (f : Json → α) :
    (members.insertionSort fun a b => strLe a.1 b.1 = true).map (fun m => (m.1, f m.2)) =
      (members.map fun m => (m.1, f m.2)).insertionSort fun a b => strLe a.1 b.1 = true :=
  List.map_insertionSort (fun a b : Str × Json => strLe a.1 b.1 = true)
    (fun a b : Str × α => strLe a.1 b.1 = true) _ _ fun _ _ _ _ => Iff.rfl

theorem joinMembers_eq (members : List (Str × Json)) :
    joinMembers escape sortKeys (dumpsMembers escape sortKeys members) =
      join [comma] ((sortMembers sortKeys members).map (memberText escape sortKeys)) := by
  have hsort : (if sortKeys then (dumpsMembers escape sortKeys members).insertionSort
      fun a b => strLe a.1 b.1 = true else dumpsMembers escape sortKeys members) =
      (sortMembers sortKeys members).map fun m => (m.1, dumps escape sortKeys m.2) := by
    rw [dumpsMembers_eq, sortMembers]
    split
    · exact (map_insertionSort_keys members (dumps escape sortKeys)).symm
    · rfl
  rw [joinMembers, hsort, List.map_map]
  rfl

theorem sortMembers_map (members : List (Str × Json)) (f : Json → Json) :
    sortMembers sortKeys (members.map fun m => (m.1, f m.2)) =
      (sortMembers sortKeys members).map fun m => (m.1, f m.2) := by
  unfold sortMembers
  split
  · exact (map_insertionSort_keys members f).symm
  · rfl

theorem mem_sortMembers {members : List (Str × Json)} {m : Str × Json} :
    m ∈ sortMembers sortKeys members ↔ m ∈ members := by
  unfold sortMembers
  split
  · exact List.mem_insertionSort _
  · rfl

/-! ### Reading them -/

theorem skipBlank_cons {c : CodePoint} (h : isBlank c = false) (s : Str) :
    skipBlank (c :: s) = c :: s := by
  rw [skipBlank, List.dropWhile_cons_of_neg (by rw [h]; decide)]

theorem numberEnds_cons {c : CodePoint} (h : isDigit c = false) (hp : c ≠ chr '.')
    (he : c ≠ chr 'e') (hE : c ≠ chr 'E') (s : Str) : NumberEnds (c :: s) := by
  rintro d hd
  obtain rfl : c = d := Option.some.inj hd
  exact ⟨h, hp, he, hE⟩

/-- What follows an item or a member. -/
theorem numberEnds_of_mem {c : CodePoint} (h : c ∈ [comma, closeBrace, closeBracket]) (s : Str) :
    NumberEnds (c :: s) ∧ isBlank c = false := by
  simp only [List.mem_cons, List.not_mem_nil, or_false] at h
  rcases h with rfl | rfl | rfl <;>
    exact ⟨numberEnds_cons (by decide) (by decide) (by decide) (by decide) s, by decide⟩

/-- What a value starts with. -/
def Starts (t : Str) : Prop :=
  ∃ c u, t = c :: u ∧ isBlank c = false ∧ c ≠ closeBracket ∧ c.val < 0x80

theorem Starts.skipBlank {t : Str} (h : Starts t) (s : Str) : skipBlank (t ++ s) = t ++ s := by
  obtain ⟨c, u, rfl, hb, -⟩ := h
  exact skipBlank_cons hb _

theorem Starts.head {t : Str} (h : Starts t) (s : Str) :
    (t ++ s).head? ≠ some closeBracket := by
  obtain ⟨c, u, rfl, -, hc, -⟩ := h
  exact fun h => hc (Option.some.inj h)

theorem Starts.append {t : Str} (h : Starts t) (s : Str) : Starts (t ++ s) := by
  obtain ⟨c, u, rfl, hc⟩ := h
  exact ⟨c, u ++ s, rfl, hc⟩

theorem Starts.join {t : Str} (h : Starts t) (ts : List Str) : Starts (join [comma] (t :: ts)) := by
  cases ts with
  | nil => exact h
  | cons u ts => exact (h.append [comma]).append _

theorem starts_intStr (n : Int) : Starts (intStr n) := by
  have hdigit : ∀ c, isDigit c = true → isBlank c = false ∧ c ≠ closeBracket ∧ c.val < 0x80 := by
    intro c hc
    simp only [isDigit, Bool.and_eq_true, decide_eq_true_eq] at hc
    refine ⟨?_, ?_, by omega⟩
    · simp only [isBlank, Bool.or_eq_false_iff, beq_eq_false_iff_ne]
      omega
    · rintro rfl
      exact absurd hc (by decide)
  cases n with
  | ofNat m =>
    obtain ⟨c, t, he, hc, -⟩ := natStr_head m
    exact ⟨c, t, he, hdigit c hc⟩
  | negSucc m => exact ⟨chr '-', _, rfl, by decide, by decide, by decide⟩

theorem starts_dumps {j : Json} (h : Writable j) : Starts (dumps escape sortKeys j) := by
  cases h with
  | null => exact ⟨chr 'n', Py.str "ull", rfl, by decide, by decide, by decide⟩
  | bool b =>
    cases b with
    | false => exact ⟨chr 'f', Py.str "alse", rfl, by decide, by decide, by decide⟩
    | true => exact ⟨chr 't', Py.str "rue", rfl, by decide, by decide, by decide⟩
  | int n _ => exact starts_intStr n
  | float x hx =>
    obtain ⟨c, t, he, hb, -, -, -, hc⟩ := hx.head
    exact ⟨c, t, he, hb, hc⟩
  | str t _ => exact ⟨quoteMark, _, rfl, by decide, by decide, by decide⟩
  | arr items _ => exact ⟨openBracket, _, rfl, by decide, by decide, by decide⟩
  | obj members _ _ => exact ⟨openBrace, _, rfl, by decide, by decide, by decide⟩

/-- The items of an array are read up to its end. -/
theorem scanItems_join : ∀ (items : List Json), items ≠ [] →
    (∀ j ∈ items, Reads escape sortKeys j ∧ Starts (dumps escape sortKeys j)) → ∀ fuel s,
    2 * (join [comma] (items.map (dumps escape sortKeys))).length + 1 ≤ fuel →
    scanItems fuel (join [comma] (items.map (dumps escape sortKeys)) ++ closeBracket :: s) =
      .ok (items.map (ordered sortKeys), s) := by
  intro items
  induction items with
  | nil => exact fun h => absurd rfl h
  | cons j items ih =>
    intro _ hall fuel s hfuel
    obtain ⟨fuel, rfl⟩ : ∃ f, fuel = f + 1 := ⟨fuel - 1, by omega⟩
    obtain ⟨hj, -⟩ := hall j List.mem_cons_self
    cases items with
    | nil =>
      have hfuel' : 2 * (dumps escape sortKeys j).length ≤ fuel := by
        have : 2 * (dumps escape sortKeys j).length + 1 ≤ fuel + 1 := hfuel
        omega
      obtain ⟨hend, hb⟩ := @numberEnds_of_mem closeBracket (by decide) s
      show scanItems (fuel + 1) (dumps escape sortKeys j ++ closeBracket :: s) = _
      rw [scanItems, hj fuel _ hfuel' hend]
      simp only [bind, Except.bind]
      rw [skipBlank_cons hb]
      rfl
    | cons k items =>
      have hjoin : join [comma] ((j :: k :: items).map (dumps escape sortKeys)) =
          dumps escape sortKeys j ++ [comma] ++
            join [comma] ((k :: items).map (dumps escape sortKeys)) := rfl
      rw [hjoin] at hfuel ⊢
      simp only [List.length_append, List.length_singleton] at hfuel
      have hstart : Starts (join [comma] ((k :: items).map (dumps escape sortKeys))) :=
        (hall k (by simp)).2.join _
      obtain ⟨hend, hb⟩ := @numberEnds_of_mem comma (by decide)
        (join [comma] ((k :: items).map (dumps escape sortKeys)) ++ closeBracket :: s)
      rw [List.append_assoc, List.append_assoc]
      show scanItems (fuel + 1) (dumps escape sortKeys j ++ comma ::
        (join [comma] ((k :: items).map (dumps escape sortKeys)) ++ closeBracket :: s)) = _
      rw [scanItems, hj fuel _ (by omega) hend]
      simp only [bind, Except.bind]
      rw [skipBlank_cons hb]
      dsimp only
      rw [if_neg (by decide), if_pos rfl, hstart.skipBlank,
        ih (List.cons_ne_nil _ _) (fun l hl => hall l (List.mem_cons_of_mem _ hl)) fuel s
          (by omega)]
      rfl

theorem starts_memberText (m : Str × Json) : Starts (memberText escape sortKeys m) :=
  ⟨quoteMark, _, rfl, by decide, by decide, by decide⟩

/-- One member of an object is read, up to what follows it. -/
theorem scanMembers_member (he : Readable escape) {m : Str × Json}
    (hkey : m.1.any isSurrogate = false) (hm : Reads escape sortKeys m.2)
    (hs : Starts (dumps escape sortKeys m.2)) {fuel : Nat} {d : CodePoint} {t : Str}
    (hd : d ∈ [comma, closeBrace, closeBracket])
    (hfuel : 2 * (dumps escape sortKeys m.2).length ≤ fuel) :
    scanMembers (fuel + 1) (memberText escape sortKeys m ++ d :: t) =
      if d = closeBrace then .ok ([(m.1, ordered sortKeys m.2)], t)
      else if d = comma then do
        let more ← scanMembers fuel (skipBlank t)
        return ((m.1, ordered sortKeys m.2) :: more.1, more.2)
      else .error .decode := by
  obtain ⟨hend, hb⟩ := numberEnds_of_mem hd t
  have htext : memberText escape sortKeys m ++ d :: t = quoteMark :: (m.1.flatMap escape ++
      quoteMark :: colon :: (dumps escape sortKeys m.2 ++ d :: t)) := by
    simp [memberText, quote_eq]
  have hcolon : expect colon (colon :: (dumps escape sortKeys m.2 ++ d :: t)) =
      .ok (dumps escape sortKeys m.2 ++ d :: t) := by
    rw [expect, skipBlank_cons (by decide)]
    dsimp only
    rw [if_pos rfl, hs.skipBlank]
  rw [htext, scanMembers, if_pos rfl, scanText_quote he hkey]
  simp only [bind, Except.bind, hcolon, hm fuel _ hfuel hend]
  rw [skipBlank_cons hb]

/-- The members of an object are read up to its end. -/
theorem scanMembers_join (he : Readable escape) : ∀ (members : List (Str × Json)), members ≠ [] →
    (∀ m ∈ members, m.1.any isSurrogate = false ∧ Reads escape sortKeys m.2 ∧
      Starts (dumps escape sortKeys m.2)) → ∀ fuel s,
    2 * (join [comma] (members.map (memberText escape sortKeys))).length + 1 ≤ fuel →
    scanMembers fuel (join [comma] (members.map (memberText escape sortKeys)) ++ closeBrace :: s) =
      .ok (members.map (fun m => (m.1, ordered sortKeys m.2)), s) := by
  intro members
  induction members with
  | nil => exact fun h => absurd rfl h
  | cons m members ih =>
    intro _ hall fuel s hfuel
    obtain ⟨fuel, rfl⟩ : ∃ f, fuel = f + 1 := ⟨fuel - 1, by omega⟩
    obtain ⟨hkey, hm, hs⟩ := hall m List.mem_cons_self
    have hlen : (dumps escape sortKeys m.2).length ≤ (memberText escape sortKeys m).length := by
      simp only [memberText, List.length_append]
      omega
    cases members with
    | nil =>
      have hfuel' : 2 * (memberText escape sortKeys m).length + 1 ≤ fuel + 1 := hfuel
      exact (scanMembers_member he hkey hm hs (by decide) (by omega)).trans (if_pos rfl)
    | cons k members =>
      have hjoin : join [comma] ((m :: k :: members).map (memberText escape sortKeys)) =
          memberText escape sortKeys m ++ [comma] ++
            join [comma] ((k :: members).map (memberText escape sortKeys)) := rfl
      rw [hjoin] at hfuel ⊢
      simp only [List.length_append, List.length_singleton] at hfuel
      have hstart : Starts (join [comma] ((k :: members).map (memberText escape sortKeys))) :=
        (starts_memberText k).join _
      rw [List.append_assoc, List.append_assoc]
      show scanMembers (fuel + 1) (memberText escape sortKeys m ++ comma ::
        (join [comma] ((k :: members).map (memberText escape sortKeys)) ++ closeBrace :: s)) = _
      rw [scanMembers_member he hkey hm hs (by decide) (by omega), if_neg (by decide), if_pos rfl,
        hstart.skipBlank, ih (List.cons_ne_nil _ _)
          (fun l hl => hall l (List.mem_cons_of_mem _ hl)) fuel s (by omega)]
      rfl

/-- What is no string and no container is read as an atom. -/
theorem scanValue_atom {fuel : Nat} {c : CodePoint} {s : Str} (hq : c ≠ quoteMark)
    (hb : c ≠ openBrace) (hk : c ≠ openBracket) :
    scanValue (fuel + 1) (c :: s) = scanAtom (c :: s) := by
  rw [scanValue, if_neg hq, if_neg hb, if_neg hk]

theorem rest?_head {c d : CodePoint} {t s : Str} (h : d ≠ c) : rest? (d :: t) (c :: s) = none := by
  have hne : (d == c) = false := beq_eq_false_iff_ne.2 h
  rw [rest?, List.isPrefixOf, hne]
  rfl

theorem rest?_second {c d e : CodePoint} {t s : Str} (h : d ≠ c) :
    rest? (e :: d :: t) (e :: c :: s) = none := by
  have hne : (d == c) = false := beq_eq_false_iff_ne.2 h
  rw [rest?, List.isPrefixOf, List.isPrefixOf, hne, Bool.false_and, Bool.and_false]
  rfl

/-- No number starts like a constant. -/
theorem scanAtom_number {c : CodePoint} {s : Str} (hc : isDigit c = true) :
    scanAtom (c :: s) = scanNumber (c :: s) ∧
      scanAtom (chr '-' :: c :: s) = scanNumber (chr '-' :: c :: s) := by
  have hne (d : CodePoint) (hd : isDigit d = false) : d ≠ c := by
    rintro rfl
    rw [hc] at hd
    cases hd
  have hconst (t : Str) (h : ∀ k ∈ constants, rest? k.1 t = none) : scanAtom t = scanNumber t := by
    rw [scanAtom, List.findSome?_eq_none_iff.2 fun k hk => by rw [h k hk]; rfl]
  refine ⟨hconst _ fun k hk => ?_, hconst _ fun k hk => ?_⟩
  · simp only [constants, List.mem_cons, List.not_mem_nil, or_false] at hk
    rcases hk with rfl | rfl | rfl | rfl | rfl | rfl <;> exact rest?_head (hne _ (by decide))
  · simp only [constants, List.mem_cons, List.not_mem_nil, or_false] at hk
    rcases hk with rfl | rfl | rfl | rfl | rfl | rfl
    case inr.inr.inr.inr.inr => exact rest?_second (hne _ (by decide))
    all_goals exact rest?_head (by decide)

theorem rest?_append (t s : Str) : rest? t (t ++ s) = some s := by
  have h : t.isPrefixOf (t ++ s) = true := List.isPrefixOf_iff_prefix.2 (List.prefix_append t s)
  rw [rest?, if_pos h, List.drop_left]

theorem scanAtom_null (s : Str) : scanAtom (Py.str "null" ++ s) = .ok (.null, s) := by
  rw [scanAtom, constants, List.findSome?_cons, rest?_append]
  rfl

theorem scanAtom_bool (b : Bool) (s : Str) :
    scanAtom (dumps escape sortKeys (.bool b) ++ s) = .ok (.bool b, s) := by
  cases b with
  | true =>
    have hnull : rest? (Py.str "null") (Py.str "true" ++ s) = none := rest?_head (by decide)
    show scanAtom (Py.str "true" ++ s) = _
    simp only [scanAtom, constants, List.findSome?_cons, hnull, rest?_append, Option.map]
  | false =>
    have hnull : rest? (Py.str "null") (Py.str "false" ++ s) = none := rest?_head (by decide)
    have htrue : rest? (Py.str "true") (Py.str "false" ++ s) = none := rest?_head (by decide)
    show scanAtom (Py.str "false" ++ s) = _
    simp only [scanAtom, constants, List.findSome?_cons, hnull, htrue, rest?_append, Option.map]

/-- The fuel of a value is not used up before it. -/
theorem exists_fuel {j : Json} (h : Writable j) {fuel : Nat}
    (hfuel : 2 * (dumps escape sortKeys j).length ≤ fuel) : ∃ f, fuel = f + 1 := by
  obtain ⟨c, t, he, -⟩ := @starts_dumps escape sortKeys j h
  rw [he, List.length_cons] at hfuel
  exact ⟨fuel - 1, by omega⟩

/-- A container's text is read where the one of its contents is. -/
theorem scanValue_arr {fuel : Nat} {s : Str} (hs : skipBlank s = s)
    (hne : s.head? ≠ some closeBracket) : scanValue (fuel + 1) (openBracket :: s) =
      (scanItems fuel s).map fun r => (.arr r.1, r.2) := by
  rw [scanValue, if_neg (by decide), if_neg (by decide), if_pos rfl, hs, if_neg hne]

theorem scanValue_obj {fuel : Nat} {s : Str} (hs : skipBlank s = s)
    (hne : s.head? ≠ some closeBrace) : scanValue (fuel + 1) (openBrace :: s) =
      (scanMembers fuel s).map fun r => (.obj r.1, r.2) := by
  rw [scanValue, if_neg (by decide), if_pos rfl, hs, if_neg hne]

/-- **One value is read back** from its text, whatever follows it. -/
theorem Writable.reads (he : Readable escape) {j : Json} (h : Writable j) :
    Reads escape sortKeys j := by
  induction h with
  | null =>
    intro fuel s hfuel _
    obtain ⟨fuel, rfl⟩ := exists_fuel .null hfuel
    exact (scanValue_atom (by decide) (by decide) (by decide)).trans (scanAtom_null s)
  | bool b =>
    intro fuel s hfuel _
    obtain ⟨fuel, rfl⟩ := exists_fuel (.bool b) hfuel
    refine Eq.trans ?_ (@scanAtom_bool escape sortKeys b s)
    cases b with
    | true => exact scanValue_atom (by decide) (by decide) (by decide)
    | false => exact scanValue_atom (by decide) (by decide) (by decide)
  | int n hn =>
    intro fuel s hfuel hs
    obtain ⟨fuel, rfl⟩ := exists_fuel (.int n hn) hfuel
    refine Eq.trans ?_ (scanNumber_intStr hs hn)
    have hdigit {c : CodePoint} (hc : isDigit c = true) (t : Str) :
        scanValue (fuel + 1) (c :: t) = scanNumber (c :: t) := by
      refine (scanValue_atom ?_ ?_ ?_).trans (scanAtom_number hc).1 <;>
        (rintro rfl; exact absurd hc (by decide))
    cases n with
    | ofNat m =>
      obtain ⟨c, t, hm, hc, -⟩ := natStr_head m
      show scanValue (fuel + 1) (natStr m ++ s) = scanNumber (natStr m ++ s)
      rw [hm]
      exact hdigit hc _
    | negSucc m =>
      obtain ⟨c, t, hm, hc, -⟩ := natStr_head (m + 1)
      show scanValue (fuel + 1) (chr '-' :: (natStr (m + 1) ++ s)) =
        scanNumber (chr '-' :: (natStr (m + 1) ++ s))
      rw [hm]
      exact (scanValue_atom (by decide) (by decide) (by decide)).trans (scanAtom_number hc).2
  | float x hx =>
    intro fuel s hfuel hs
    obtain ⟨fuel, rfl⟩ := exists_fuel (.float x hx) hfuel
    obtain ⟨c, t, hr, -, hq, hb, hk, -⟩ := hx.head
    refine Eq.trans ?_ (hx.read s hs)
    show scanValue (fuel + 1) (x.repr ++ s) = scanAtom (x.repr ++ s)
    rw [hr]
    exact scanValue_atom hq hb hk
  | str t ht =>
    intro fuel s hfuel _
    obtain ⟨fuel, rfl⟩ := exists_fuel (.str t ht) hfuel
    have htext : dumps escape sortKeys (.str t) ++ s =
        quoteMark :: (t.flatMap escape ++ quoteMark :: s) := by
      show quote escape t ++ s = _
      rw [quote_eq, List.cons_append, List.append_assoc]
      rfl
    rw [htext, scanValue, if_pos rfl, scanText_quote he ht]
    rfl
  | arr items hitems ih =>
    intro fuel s hfuel _
    obtain ⟨fuel, rfl⟩ := exists_fuel (.arr items hitems) hfuel
    have htext : dumps escape sortKeys (.arr items) = openBracket ::
        (join [comma] (items.map (dumps escape sortKeys)) ++ [closeBracket]) := by
      rw [dumps, dumpsItems_eq]
      rfl
    rw [htext] at hfuel ⊢
    simp only [List.length_cons, List.length_append, List.length_nil] at hfuel
    rw [ordered, orderedItems_eq, List.cons_append, List.append_assoc]
    cases items with
    | nil => rfl
    | cons k items =>
      have hstart : Starts (join [comma] ((k :: items).map (dumps escape sortKeys))) :=
        (starts_dumps (hitems k List.mem_cons_self)).join _
      rw [scanValue_arr (hstart.skipBlank _) (hstart.head _)]
      show (scanItems fuel (join [comma] ((k :: items).map (dumps escape sortKeys)) ++
        closeBracket :: s)).map _ = _
      rw [scanItems_join (k :: items) (List.cons_ne_nil _ _)
        (fun l hl => ⟨ih l hl, starts_dumps (hitems l hl)⟩) fuel s (by omega)]
      rfl
  | obj members hkeys hvalues ih =>
    intro fuel s hfuel _
    obtain ⟨fuel, rfl⟩ := exists_fuel (.obj members hkeys hvalues) hfuel
    have htext : dumps escape sortKeys (.obj members) = openBrace ::
        (join [comma] ((sortMembers sortKeys members).map (memberText escape sortKeys)) ++
          [closeBrace]) := by
      rw [dumps, joinMembers_eq]
      rfl
    rw [htext] at hfuel ⊢
    simp only [List.length_cons, List.length_append, List.length_nil] at hfuel
    rw [ordered, orderedMembers_eq, sortMembers_map, List.cons_append, List.append_assoc]
    have hmem : ∀ m ∈ sortMembers sortKeys members, m.1.any isSurrogate = false ∧
        Reads escape sortKeys m.2 ∧ Starts (dumps escape sortKeys m.2) := by
      intro m hm
      rw [mem_sortMembers] at hm
      exact ⟨hkeys m hm, ih m hm, starts_dumps (hvalues m hm)⟩
    cases hsorted : sortMembers sortKeys members with
    | nil => rfl
    | cons k sorted =>
      rw [hsorted] at hmem hfuel
      have hstart : Starts (join [comma] ((k :: sorted).map (memberText escape sortKeys))) :=
        (starts_memberText k).join _
      have hne : (join [comma] ((k :: sorted).map (memberText escape sortKeys)) ++
          ([closeBrace] ++ s)).head? ≠ some closeBrace := by
        cases sorted with
        | nil => exact fun h => absurd (Option.some.inj h) (by decide)
        | cons l sorted => exact fun h => absurd (Option.some.inj h) (by decide)
      rw [scanValue_obj (hstart.skipBlank _) hne]
      show (scanMembers fuel (join [comma] ((k :: sorted).map (memberText escape sortKeys)) ++
        closeBrace :: s)).map _ = _
      rw [scanMembers_join he (k :: sorted) (List.cons_ne_nil _ _) hmem fuel s (by omega)]
      rfl

/-- **What is written is read back**, with the members in the order in which they were
written. -/
theorem loads_dumps (he : Readable escape) {j : Json} (h : Writable j) :
    loads (dumps escape sortKeys j) = .ok (ordered sortKeys j) := by
  have hstart := @starts_dumps escape sortKeys j h
  have hread := @Writable.reads escape sortKeys he j h
    (2 * (dumps escape sortKeys j).length + 2) [] (by omega) (by rintro c hc; cases hc)
  have hskip := hstart.skipBlank []
  rw [List.append_nil] at hread hskip
  have hbom : (dumps escape sortKeys j).head? ≠ some 0xfeff := by
    obtain ⟨c, t, he, -, -, hc⟩ := hstart
    rw [he]
    intro h
    rw [Option.some.inj h] at hc
    exact absurd hc (by decide)
  rw [loads, if_neg hbom, hskip]
  simp only [bind, Except.bind, hread]
  rfl

theorem readsBack_one : ReadsBack (.finite 1) := by
  have htext (s : Str) : PyFloat.repr (.finite 1) ++ s = chr '1' :: chr '.' :: chr '0' :: s := by
    rw [PyFloat.repr_one]
    rfl
  refine ⟨⟨chr '1', [chr '.', chr '0'], PyFloat.repr_one, by decide, by decide, by decide,
    by decide, by decide, by decide⟩, fun s hs => ?_⟩
  have hzero : ∀ c ∈ [chr '0'], isDigit c = true := by
    rintro c hc
    rw [List.mem_singleton.1 hc]
    decide
  obtain ⟨htake, hdrop⟩ := takeWhile_digits hzero hs
  rw [List.singleton_append] at htake hdrop
  have hfrac : scanFraction (chr '.' :: chr '0' :: s) = ([chr '0'], s) := by
    rw [scanFraction, htake, hdrop, if_pos ⟨rfl, List.cons_ne_nil _ _⟩]
  have hwhole : scanWhole (chr '1' :: chr '.' :: chr '0' :: s) =
      some ([chr '1'], chr '.' :: chr '0' :: s) := rfl
  have hone : PyFloat.ofDecimal (signed false (digitsValue ([chr '1'] ++ [chr '0'])))
      (0 - ([chr '0'].length : Nat)) = .finite 1 := by decide +kernel
  have hneg : decide ((chr '1' :: chr '.' :: chr '0' :: s).head? = some (chr '-')) = false :=
    decide_eq_false fun h => absurd (Option.some.inj h) (by decide)
  rw [htext, (scanAtom_number (by decide)).1, scanNumber]
  dsimp only
  rw [hneg, if_neg Bool.false_ne_true, hwhole]
  dsimp only
  rw [hfrac]
  dsimp only
  rw [scanExponent_end hs, if_neg fun h => List.cons_ne_nil _ _ h.1]
  exact congrArg (fun x => Except.ok (Json.float x, s)) hone

end

/-! ## The order of the members -/

/-- The same document: the order of the members of an object does not count. `1`, `true` and
`1.0`, which are equal in Python, are different documents. -/
inductive Same : Json → Json → Prop
  | refl (j : Json) : Same j j
  | arr (items items' : List Json) : items.length = items'.length →
      (∀ (i : Nat) v v', items[i]? = some v → items'[i]? = some v' → Same v v') →
      Same (.arr items) (.arr items')
  | obj (members members' : List (Str × Json)) :
      (∀ k, (get? members k).isSome = (get? members' k).isSome) →
      (∀ k v v', get? members k = some v → get? members' k = some v' → Same v v') →
      Same (.obj members) (.obj members')

theorem get?_isSome {members : List (Str × Json)} {k : Str} :
    (get? members k).isSome = members.any fun m => m.1 = k := by
  rw [get?, Option.isSome_map, Bool.eq_iff_iff, List.find?_isSome, List.any_eq_true]
  simp only [List.mem_reverse]

theorem hasKeys_map_fst (members : List (Str × Json)) :
    hasKeys members (members.map (·.1)) = true := by
  rw [hasKeys, Bool.and_eq_true, List.all_eq_true, List.all_eq_true]
  constructor
  · intro m hm
    simpa using ⟨m.2, hm⟩
  · intro k hk
    obtain ⟨m, hm, rfl⟩ := List.mem_map.1 hk
    exact List.any_eq_true.2 ⟨m, hm, decide_eq_true rfl⟩

/-- The keys of a mapping are those that it has to have. -/
theorem get?_of_hasKeys {members : List (Str × Json)} {keys : List Str}
    (h : hasKeys members keys = true) (k : Str) :
    (get? members k).isSome = keys.contains k := by
  rw [hasKeys, Bool.and_eq_true, List.all_eq_true, List.all_eq_true] at h
  rw [get?_isSome, Bool.eq_iff_iff]
  constructor
  · intro hk
    obtain ⟨m, hm, hmk⟩ := List.any_eq_true.1 hk
    have := h.1 m hm
    rwa [of_decide_eq_true hmk] at this
  · intro hk
    exact h.2 k (by simpa using hk)

/-- Objects with the same keys are equal where the values of these keys are. -/
theorem same_obj {members members' : List (Str × Json)} {keys : List Str}
    (h : hasKeys members keys = true) (h' : hasKeys members' keys = true)
    (hsame : ∀ k ∈ keys, Same (get members k) (get members' k)) :
    Same (.obj members) (.obj members') := by
  refine .obj _ _ (fun k => by rw [get?_of_hasKeys h, get?_of_hasKeys h']) fun k v v' hv hv' => ?_
  have hk : keys.contains k = true := by rw [← get?_of_hasKeys h, hv]; rfl
  have hs := hsame k (by simpa using hk)
  rw [get, get, hv, hv'] at hs
  exact hs

end Json

end Py
