import NyanShopBot.Catalog.CustomerCopy
import NyanShopBot.Py.Unicode
import NyanShopBot.Py.Words

/-!
# What the bot displays

`sellerDisplay` makes a text fit a label: format characters are dropped, white space is
collapsed, the suppliers' names are replaced, and what is too long is cut. No step brings
a supplier's name back (`search_sellerDisplay`).
-/

namespace NyanShopBot.Bot

open Py Catalog

section

variable [UnicodeTables]

/-- The characters of `visible_parts`. -/
def visibleChars : Str → Str
  | [] => []
  | c :: s =>
    match category c with
    | .format => visibleChars s
    | .visible => c :: visibleChars s
    | _ => chr ' ' :: visibleChars s

/-- `_normalized_display`. -/
def normalizedDisplay (value : Str) : Str := collapse (visibleChars value)

/-- `s[:n]`. -/
def sliceTo (s : Str) (n : Int) : Str := s.take (if 0 ≤ n then n else s.length + n).toNat

def ellipsis : CodePoint := chr '…'

/-- `_bounded_display`. -/
def boundedDisplay (value : Str) (limit : Int) (fallback : Str) : Str :=
  let visible := normalizedDisplay value
  if visible = [] then fallback
  else if visible.length ≤ limit then visible
  else rstrip (sliceTo visible (limit - 1)) ++ [ellipsis]

def nyanShop : Str := str "Nyan Shop"

/-- The text with the suppliers' names replaced. -/
def branded (value : Str) : Str := upstreamBrand.sub nyanShop (normalizedDisplay value)

/-- `_seller_display`. -/
def sellerDisplay (value : Str) (limit : Int) (fallback : Str) : Str :=
  boundedDisplay (branded value) limit fallback

/-! ## Normalized texts -/

theorem visibleChars_visible : ∀ {s : Str} {c : CodePoint}, c ∈ visibleChars s →
    category c = .visible
  | [], c, h => by cases h
  | d :: s, c, h => by
    have hspace : category (chr ' ') = .visible := category_of_ascii (by decide)
    cases hd : category d with
    | format =>
      rw [visibleChars, hd] at h
      exact visibleChars_visible h
    | visible =>
      rw [visibleChars, hd] at h
      rcases List.mem_cons.1 h with rfl | h
      · exact hd
      · exact visibleChars_visible h
    | _ =>
      rw [visibleChars, hd] at h
      rcases List.mem_cons.1 h with rfl | h
      · exact hspace
      · exact visibleChars_visible h

/-- Nothing is dropped where every character is visible. -/
theorem visibleChars_of_visible : ∀ {s : Str}, (∀ c ∈ s, category c = .visible) →
    visibleChars s = s
  | [], _ => rfl
  | c :: s, h => by
    rw [visibleChars, h c List.mem_cons_self]
    exact congrArg (c :: ·) (visibleChars_of_visible fun d hd => h d (List.mem_cons_of_mem c hd))

theorem normalizedDisplay_visible {s : Str} {c : CodePoint} (h : c ∈ normalizedDisplay s) :
    category c = .visible := by
  rcases mem_collapse h with rfl | h
  · exact category_of_ascii (by decide)
  · exact visibleChars_visible h

theorem normalizedDisplay_of_tidy {s : Str} (hs : Tidy s) (h : ∀ c ∈ s, category c = .visible) :
    normalizedDisplay s = s := by
  rw [normalizedDisplay, visibleChars_of_visible h, collapse_of_tidy hs]

end

/-! ## Replaced names -/

/-- A match in a tidy text is followed by what may follow a word. -/
theorem tidyAfter_of_match {s r : Str} {b : Bool} (hs : TidyAfter b s)
    (h : dropUpstreamBrand s = some r) : TidyAfter false r := by
  obtain ⟨c, m, rfl, -, -, ⟨l, d, hlast, hd⟩, -⟩ := dropUpstreamBrand_match h
  rw [hlast, List.append_assoc, List.singleton_append] at hs
  exact hd ▸ hs.suffix

theorem isWord_of_all {w : Str} (hne : w ≠ []) (h : w.all (fun c => !isSpace c) = true) :
    IsWord w :=
  ⟨hne, fun c hc => by simpa using List.all_eq_true.1 h c hc⟩

theorem tidyAfter_nyanShop {s : Str} (h : TidyAfter false s) (b : Bool) :
    TidyAfter b (nyanShop ++ s) := by
  have hnyan : IsWord (str "Nyan") := isWord_of_all (by decide) (by decide +kernel)
  have hshop : IsWord (str "Shop") := isWord_of_all (by decide) (by decide +kernel)
  show TidyAfter b (str "Nyan" ++ (chr ' ' :: (str "Shop" ++ s)))
  rw [tidyAfter_append hnyan]
  exact ⟨fun _ => ⟨rfl, rfl⟩, (tidyAfter_append hshop).2 h⟩

/-- The replaced text is as tidy as the text: a match is a stretch of whole words. -/
theorem tidyAfter_sub {s : Str} {b : Bool} (hs : TidyAfter b s) :
    TidyAfter b (upstreamBrand.sub nyanShop s) := by
  induction hn : s.length using Nat.strongRecOn generalizing s b with
  | ind n ih =>
    cases s with
    | nil => exact hs
    | cons c s =>
      cases hrest : upstreamBrand.rest (c :: s) with
      | none =>
        rw [Pattern.sub_cons_of_none hrest]
        exact ⟨hs.1, ih s.length (by rw [← hn]; simp) hs.2 rfl⟩
      | some r =>
        have hlen : r.length + 6 ≤ (c :: s).length := length_dropUpstreamBrand hrest
        rw [Pattern.sub_cons_of_some hrest]
        exact tidyAfter_nyanShop (ih r.length (by omega) (tidyAfter_of_match hs hrest) rfl) b

theorem cut_prefix (s : Str) (n : Int) : rstrip (sliceTo s n) <+: s :=
  (rstrip_isPrefix _).trans (List.take_prefix _ s)

section

variable [UnicodeTables]

theorem tidy_branded (value : Str) : Tidy (branded value) := by
  rcases tidy_collapse (visibleChars value) with h | h
  · exact .inl (by rw [branded, normalizedDisplay, h]; rfl)
  · exact .inr (tidyAfter_sub h)

theorem branded_visible {value : Str} {c : CodePoint} (h : c ∈ branded value) :
    category c = .visible := by
  rcases Pattern.mem_subFrom h with h | h
  · have hall : nyanShop.all (fun c => decide (0x20 ≤ c.val ∧ c.val < 0x7f)) = true := by
      decide +kernel
    exact category_of_ascii (of_decide_eq_true (List.all_eq_true.1 hall c h))
  · exact normalizedDisplay_visible h

/-- **The second normalization changes nothing.** -/
theorem normalizedDisplay_branded (value : Str) :
    normalizedDisplay (branded value) = branded value :=
  normalizedDisplay_of_tidy (tidy_branded value) fun _ hc => branded_visible hc

theorem branded_eq_nil (value : Str) : branded value = [] ↔ normalizedDisplay value = [] := by
  constructor
  · intro h
    cases hs : normalizedDisplay value with
    | nil => rfl
    | cons c s =>
      rw [branded, hs] at h
      cases hrest : upstreamBrand.rest (c :: s) with
      | none =>
        rw [Pattern.sub_cons_of_none hrest] at h
        cases h
      | some r =>
        rw [Pattern.sub_cons_of_some hrest] at h
        exact absurd (List.append_eq_nil_iff.1 h).1 (by decide)
  · intro h
    rw [branded, h]
    rfl

/-! ## Displayed texts -/

theorem search_branded (value : Str) : upstreamBrand.search (branded value) = false :=
  search_sub_upstreamBrand (by decide +kernel) _

/-- **What is displayed names no supplier**, cut or not. -/
theorem search_sellerDisplay {value : Str} (h : normalizedDisplay value ≠ []) (limit : Int)
    (fallback : Str) : upstreamBrand.search (sellerDisplay value limit fallback) = false := by
  have hne : branded value ≠ [] := fun hb => h ((branded_eq_nil value).1 hb)
  unfold sellerDisplay boundedDisplay
  simp only [normalizedDisplay_branded, if_neg hne]
  split
  · exact search_branded value
  · obtain ⟨t, ht⟩ := cut_prefix (branded value) (limit - 1)
    have hfound := search_branded value
    rw [← ht] at hfound
    rw [Pattern.search_barrier (by decide +kernel), Pattern.search_of_append hfound]
    decide +kernel

/-! ## Customer-visible text -/

/-- **The suppliers' names never reach the customer**: neither the copy of the storefront
nor a displayed text has a match of the pattern, and the copy is a fixed point that still
makes a storefront product. -/
theorem no_upstream_brand [UnicodeData] :
    (∀ s : Str, upstreamBrand.search (customerText s) = false) ∧
    (∀ s : Str, customerText (customerText s) = customerText s) ∧
    (∀ s : Str, (customerText s).length ≤ s.length ∧ (s ≠ [] → customerText s ≠ [])) ∧
    (∀ (id name description : Str) (category : Option Str) (price : Money)
        (availability : StorefrontAvailability),
      storefrontFields id name description category = true → price.currency = str "VND" →
      ∃ product, StorefrontProduct.make id (customerText name) (customerText description)
        (category.map customerText) price availability = .ok product) ∧
    (∀ (get : CatalogCurationOfferRef → Option CatalogProduct) (listing : CatalogCurationListing)
        (price : Money), listing.retailPrice = some price →
      ∃ product, projectListing get listing price = .ok product) ∧
    ∀ (value : Str) (limit : Int) (fallback : Str),
      normalizedDisplay (branded value) ≠ [] →
        upstreamBrand.search (sellerDisplay value limit fallback) = false := by
  refine ⟨search_customerText, customerText_idempotent,
    fun s => ⟨length_customerTextFrom (Nat.zero_le _), customerText_ne_nil⟩,
    fun id name description category price availability hfields hprice => ?_,
    fun get listing price hprice => ?_, fun value limit fallback hne => ?_⟩
  · have hpass : (storefrontProductChecks price).Pass := by
      intro check hcheck
      rw [List.mem_singleton.1 hcheck]
      exact decide_eq_true hprice
    exact ⟨_, by rw [StorefrontProduct.make, dif_pos (customerText_fields hfields),
      dif_pos hpass]⟩
  · obtain ⟨product, hproduct, -⟩ := @projectListing_ok _ get listing price hprice
    exact ⟨product, hproduct⟩
  · rw [normalizedDisplay_branded] at hne
    exact search_sellerDisplay (fun h => hne ((branded_eq_nil value).2 h)) limit fallback

end

end NyanShopBot.Bot
