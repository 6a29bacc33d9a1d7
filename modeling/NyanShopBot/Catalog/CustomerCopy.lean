import NyanShopBot.Catalog.Storefront
import NyanShopBot.Py.Substitute

/-!
# Customer copy

`upstreamBrand` is the pattern of the suppliers' names, and `customerText` its
substitution: no name is left in what a customer reads, the copy is a fixed point, and
a storefront field stays one (`customerText_fields`).
-/

namespace NyanShopBot.Catalog

open Py

/-! ## The pattern -/

/-- The letters of the suppliers' names. -/
def isBrandLetter (c : CodePoint) : Bool := (str "khomvietsar").any (·.val = foldCase c)

/-- What may stand for a lower-case letter. -/
theorem foldCase_letter {c : CodePoint} (h : 0x61 ≤ foldCase c ∧ foldCase c ≤ 0x7a) :
    (0x41 ≤ c.val ∧ c.val ≤ 0x5a) ∨ (0x61 ≤ c.val ∧ c.val ≤ 0x7a) ∨ c.val = 0x130 ∨
      c.val = 0x131 ∨ c.val = 0x17f ∨ c.val = 0x212a := by
  unfold foldCase at h
  simp only [Bool.and_eq_true, Bool.or_eq_true, decide_eq_true_eq] at h
  split_ifs at h <;> omega

theorem not_isSpace_of_letter {c : CodePoint} (h : 0x61 ≤ foldCase c ∧ foldCase c ≤ 0x7a) :
    isSpace c = false := by
  have hc := foldCase_letter h
  rw [Bool.eq_false_iff]
  intro hspace
  simp only [isSpace, Bool.or_eq_true, Bool.and_eq_true, decide_eq_true_eq, beq_iff_eq] at hspace
  omega

theorem not_isSeparator_of_letter {c : CodePoint} (h : 0x61 ≤ foldCase c ∧ foldCase c ≤ 0x7a) :
    isSeparator c = false := by
  have hmark : ∀ d : CodePoint, d.val < 0x61 → foldCase d = d.val → c ≠ d := by
    rintro d hd hfold rfl
    omega
  simp only [isSeparator, not_isSpace_of_letter h, Bool.or_eq_false_iff, decide_eq_false_iff_not,
    Bool.false_or]
  exact ⟨⟨hmark _ (by decide) (by decide), hmark _ (by decide) (by decide)⟩,
    hmark _ (by decide) (by decide)⟩

/-- The match of a word: its letters in either case, whatever follows. -/
theorem dropWord_spec : ∀ {word s r : Str}, dropWord word s = some r →
    ∃ m, s = m ++ r ∧ m.map foldCase = word.map (·.val) ∧
      ∀ r', dropWord word (m ++ r') = some r'
  | [], s, r, h => by
    obtain rfl : s = r := by simpa [dropWord] using h
    exact ⟨[], rfl, rfl, fun _ => rfl⟩
  | w :: word, [], r, h => by cases h
  | w :: word, c :: s, r, h => by
    unfold dropWord at h
    split at h
    · rename_i hc
      obtain ⟨m, rfl, hm, hspec⟩ := dropWord_spec h
      refine ⟨c :: m, rfl, by rw [List.map_cons, List.map_cons, hm, hc], fun r' => ?_⟩
      rw [List.cons_append, dropWord, if_pos hc, hspec]
    · cases h

/-- The match of two words with separators between them. -/
theorem dropBrand_spec {first second s r : Str} (hne : second ≠ [])
    (hlower : ∀ w ∈ second, 0x61 ≤ w.val ∧ w.val ≤ 0x7a) (h : dropBrand first second s = some r) :
    ∃ m seps m', s = m ++ (seps ++ m') ++ r ∧ m.map foldCase = first.map (·.val) ∧
      m'.map foldCase = second.map (·.val) ∧ (∀ c ∈ seps, isSeparator c = true) ∧
      ∀ r', dropBrand first second (m ++ (seps ++ m') ++ r') = some r' := by
  obtain ⟨mid, hmid, hrest⟩ := Option.bind_eq_some_iff.1 h
  obtain ⟨m, rfl, hm, hspec⟩ := dropWord_spec hmid
  obtain ⟨m', hdrop, hm', hspec'⟩ := dropWord_spec hrest
  have hseps : ∀ c ∈ mid.takeWhile isSeparator, isSeparator c = true := by
    intro c hc
    have hall : (mid.takeWhile isSeparator).all isSeparator = true := List.all_takeWhile
    exact List.all_eq_true.1 hall c hc
  have hmid' : mid = mid.takeWhile isSeparator ++ (m' ++ r) := by
    rw [← hdrop, List.takeWhile_append_dropWhile]
  -- the second word begins with a letter, so the separators end there
  have hhead : ∀ r', ((mid.takeWhile isSeparator) ++ (m' ++ r')).dropWhile isSeparator =
      m' ++ r' := by
    intro r'
    rw [List.dropWhile_append_of_pos hseps]
    cases m' with
    | nil =>
      simp only [List.map_nil] at hm'
      exact absurd (List.map_eq_nil_iff.1 hm'.symm) hne
    | cons c m' =>
      cases second with
      | nil => exact absurd rfl hne
      | cons w second =>
        have hc : foldCase c = w.val := (List.cons_eq_cons.1 hm').1
        have hsep := not_isSeparator_of_letter (hc ▸ hlower w List.mem_cons_self)
        rw [List.cons_append, List.dropWhile_cons_of_neg (by rw [hsep]; exact Bool.false_ne_true)]
  refine ⟨m, mid.takeWhile isSeparator, m', ?_, hm, hm', hseps, fun r' => ?_⟩
  · rw [List.append_assoc, List.append_assoc, ← hmid']
  · rw [dropBrand, List.append_assoc, List.append_assoc, hspec, Option.bind_some, hhead, hspec']

theorem mem_of_map_foldCase {m word : Str} (h : m.map foldCase = word.map (·.val)) {c : CodePoint}
    (hc : c ∈ m) : ∃ w ∈ word, w.val = foldCase c := by
  have hmem : foldCase c ∈ word.map (·.val) := h ▸ List.mem_map_of_mem hc
  exact List.mem_map.1 hmem

/-- A match of two words of brand letters. -/
theorem dropBrand_match {f : CodePoint} {first second s r : Str} (hne : second ≠ [])
    (hletters : ((f :: first) ++ second).all (fun w => decide (w ∈ str "khomvietsar")) = true)
    (h : dropBrand (f :: first) second s = some r) :
    ∃ c m, s = (c :: m) ++ r ∧ foldCase c = f.val ∧
      (∀ d ∈ c :: m, (isBrandLetter d || isSeparator d) = true) ∧
      (∃ l d, c :: m = l ++ [d] ∧ isSpace d = false) ∧
      ∀ r', dropBrand (f :: first) second ((c :: m) ++ r') = some r' := by
  have hin : ∀ w ∈ (f :: first) ++ second, w ∈ str "khomvietsar" := fun w hw =>
    of_decide_eq_true (List.all_eq_true.1 hletters w hw)
  have hall : (str "khomvietsar").all (fun w => decide (0x61 ≤ w.val ∧ w.val ≤ 0x7a)) = true := by
    decide +kernel
  have hlower : ∀ w ∈ second, 0x61 ≤ w.val ∧ w.val ≤ 0x7a := fun w hw =>
    of_decide_eq_true (List.all_eq_true.1 hall w (hin w (List.mem_append_right _ hw)))
  have hbrand : ∀ {d w : CodePoint}, w ∈ (f :: first) ++ second → w.val = foldCase d →
      isBrandLetter d = true := fun hw hd =>
    List.any_eq_true.2 ⟨_, hin _ hw, beq_iff_eq.2 hd⟩
  obtain ⟨m, seps, m', rfl, hm, hm', hseps, hspec⟩ := dropBrand_spec hne hlower h
  cases m with
  | nil => cases hm
  | cons c m =>
    refine ⟨c, m ++ (seps ++ m'), rfl, (List.cons_eq_cons.1 hm).1, fun d hd => ?_, ?_, hspec⟩
    · rw [Bool.or_eq_true]
      rw [← List.cons_append] at hd
      rcases List.mem_append.1 hd with hd | hd
      · obtain ⟨w, hw, hval⟩ := mem_of_map_foldCase hm hd
        exact .inl (hbrand (List.mem_append_left _ hw) hval)
      · rcases List.mem_append.1 hd with hd | hd
        · exact .inr (hseps d hd)
        · obtain ⟨w, hw, hval⟩ := mem_of_map_foldCase hm' hd
          exact .inl (hbrand (List.mem_append_right _ hw) hval)
    · have hm'_ne : m' ≠ [] := by
        rintro rfl
        exact hne (List.map_eq_nil_iff.1 hm'.symm)
      obtain ⟨w, hw, hval⟩ := mem_of_map_foldCase hm' (List.getLast_mem hm'_ne)
      refine ⟨c :: m ++ (seps ++ m'.dropLast), m'.getLast hm'_ne, ?_,
        not_isSpace_of_letter (hval ▸ hlower w hw)⟩
      rw [List.append_assoc, List.append_assoc, List.dropLast_append_getLast hm'_ne]
      rfl

theorem dropBrand_of_head {f c : CodePoint} {first second s : Str} (h : foldCase c ≠ f.val) :
    dropBrand (f :: first) second (c :: s) = none := by
  rw [dropBrand, dropWord, if_neg h]
  rfl

/-- A match begins with a `k` or a `v`, ends with a letter and has only letters of the
names and separators. -/
theorem dropUpstreamBrand_match {s r : Str} (h : dropUpstreamBrand s = some r) :
    ∃ c m, s = (c :: m) ++ r ∧ (foldCase c = 0x6b ∨ foldCase c = 0x76) ∧
      (∀ d ∈ c :: m, (isBrandLetter d || isSeparator d) = true) ∧
      (∃ l d, c :: m = l ++ [d] ∧ isSpace d = false) ∧
      ∀ r', dropUpstreamBrand ((c :: m) ++ r') = some r' := by
  rcases Option.or_eq_some_iff.1 h with h | ⟨-, h⟩
  · have h : dropBrand (chr 'k' :: str "ho") (str "mmo") s = some r := h
    obtain ⟨c, m, hs, hc, hletter, hlast, hspec⟩ :=
      dropBrand_match (by decide) (by decide +kernel) h
    refine ⟨c, m, hs, .inl hc, hletter, hlast, fun r' => ?_⟩
    have hkho : dropBrand (str "kho") (str "mmo") ((c :: m) ++ r') = some r' := hspec r'
    rw [dropUpstreamBrand, hkho, Option.some_or]
  · have h : dropBrand (chr 'v' :: str "iet") (str "share") s = some r := h
    obtain ⟨c, m, hs, hc, hletter, hlast, hspec⟩ :=
      dropBrand_match (by decide) (by decide +kernel) h
    refine ⟨c, m, hs, .inr hc, hletter, hlast, fun r' => ?_⟩
    have hkho : dropBrand (str "kho") (str "mmo") ((c :: m) ++ r') = none :=
      dropBrand_of_head (by rw [hc]; decide)
    have hviet : dropBrand (str "viet") (str "share") ((c :: m) ++ r') = some r' := hspec r'
    rw [dropUpstreamBrand, hkho, Option.none_or, hviet]

/-- `_UPSTREAM_BRAND_PATTERN`. -/
def upstreamBrand : Pattern CodePoint where
  rest := dropUpstreamBrand
  starts c := decide (foldCase c = 0x6b ∨ foldCase c = 0x76)
  letter c := isBrandLetter c || isSeparator c
  spec h := by
    obtain ⟨c, m, hs, hc, hletter, -, hspec⟩ := dropUpstreamBrand_match h
    exact ⟨c, m, hs, decide_eq_true hc, hletter, hspec⟩

/-! ## The substitution -/

theorem customerTextFrom_eq : ∀ (s : Str) (k : Nat),
    customerTextFrom k s = upstreamBrand.subFrom (str "Nyan") k s
  | [], k => by cases k <;> rfl
  | _ :: s, k + 1 => customerTextFrom_eq s k
  | c :: s, 0 => by
    rw [customerTextFrom, Pattern.subFrom,
      show upstreamBrand.rest (c :: s) = dropUpstreamBrand (c :: s) from rfl]
    cases dropUpstreamBrand (c :: s) with
    | none => exact congrArg (c :: ·) (customerTextFrom_eq s 0)
    | some r => exact congrArg (str "Nyan" ++ ·) (customerTextFrom_eq s (s.length - r.length))

theorem customerText_eq (s : Str) : customerText s = upstreamBrand.sub (str "Nyan") s :=
  customerTextFrom_eq s 0

/-- A word that begins with an `N` and has no `k` or `v` replaces the names for good. -/
theorem search_sub_upstreamBrand {w : Str}
    (hw : (chr 'N' :: w).all (fun c => !upstreamBrand.starts c) = true) (s : Str) :
    upstreamBrand.search (upstreamBrand.sub (chr 'N' :: w) s) = false :=
  Pattern.search_sub (by decide +kernel)
    (fun c hc => by simpa using List.all_eq_true.1 hw c hc) s

/-- **No supplier's name is left in customer copy.** -/
theorem search_customerText (s : Str) : upstreamBrand.search (customerText s) = false := by
  rw [customerText_eq]
  exact search_sub_upstreamBrand (by decide +kernel) s

theorem customerText_idempotent (s : Str) : customerText (customerText s) = customerText s := by
  rw [customerText_eq (customerText s)]
  exact Pattern.sub_of_search (search_customerText s)

/-- **Customer copy is made of storefront fields**, none of them longer than it was. -/
theorem customerText_fields {id name description : Str} {category : Option Str}
    (h : storefrontFields id name description category = true) :
    storefrontFields id (customerText name) (customerText description)
      (category.map customerText) = true := by
  simp only [storefrontFields, Bool.and_eq_true] at h ⊢
  obtain ⟨⟨⟨hid, hname⟩, hdescription⟩, hcategory⟩ := h
  refine ⟨⟨⟨hid, hasLength_customerText hname⟩, hasLength_customerText hdescription⟩, ?_⟩
  cases category with
  | none => rfl
  | some category => exact hasLength_customerText hcategory

end NyanShopBot.Catalog
