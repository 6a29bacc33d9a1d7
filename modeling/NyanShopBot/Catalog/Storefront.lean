import Mathlib.Data.List.Sort
import NyanShopBot.Catalog.Curation
import NyanShopBot.Catalog.Registry

/-!
# The storefront

The customer's view of the owner's document: `readStorefront` shows the visible
listings with their retail price and a conservative availability. `Projects` says
what the response is made of, and `storefront_projection` that a snapshot shows
nothing else of itself.
-/

namespace NyanShopBot.Catalog

open Py

/-! ## Customer copy -/

/-- One character of a pattern without case: the two Turkish letters, the long `s` and
the Kelvin sign stand for ASCII letters. -/
def foldCase (c : CodePoint) : Nat :=
  let n := c.val
  if 0x41 ≤ n && n ≤ 0x5a then n + 32
  else if n = 0x130 || n = 0x131 then 0x69
  else if n = 0x17f then 0x73
  else if n = 0x212a then 0x6b
  else n

/-- `[\s._-]`. -/
def isSeparator (c : CodePoint) : Bool :=
  isSpace c || c = chr '.' || c = chr '_' || c = chr '-'

/-- What follows the word, where the text starts with it. -/
def dropWord : Str → Str → Option Str
  | [], s => some s
  | _ :: _, [] => none
  | w :: word, c :: s => if foldCase c = w.val then dropWord word s else none

/-- Two words with separators between them. -/
def dropBrand (first second : Str) (s : Str) : Option Str :=
  (dropWord first s).bind fun s => dropWord second (s.dropWhile isSeparator)

/-- `_UPSTREAM_BRAND_PATTERN`: what follows the brand. -/
def dropUpstreamBrand (s : Str) : Option Str :=
  (dropBrand (str "kho") (str "mmo") s).or (dropBrand (str "viet") (str "share") s)

/-- The rest of the text, after so many characters of a brand. -/
def customerTextFrom : Nat → Str → Str
  | _, [] => []
  | k + 1, _ :: s => customerTextFrom k s
  | 0, c :: s =>
    match dropUpstreamBrand (c :: s) with
    | some rest => str "Nyan" ++ customerTextFrom (s.length - rest.length) s
    | none => c :: customerTextFrom 0 s

/-- `customer_text`. -/
def customerText (s : Str) : Str := customerTextFrom 0 s

example : customerText (str "KhoMMO & Viet-Share") = str "Nyan & Nyan" := by decide +kernel

theorem length_dropWord : ∀ {word s rest : Str}, dropWord word s = some rest →
    rest.length + word.length = s.length
  | [], s, rest, h => by
    obtain rfl : s = rest := by simpa [dropWord] using h
    simp
  | _ :: _, [], rest, h => by simp [dropWord] at h
  | w :: word, c :: s, rest, h => by
    unfold dropWord at h
    split at h
    · have ih := length_dropWord h
      simp only [List.length_cons]
      omega
    · cases h

theorem length_dropBrand {first second s rest : Str} (h : dropBrand first second s = some rest) :
    rest.length + (first.length + second.length) ≤ s.length := by
  obtain ⟨mid, hmid, hrest⟩ := Option.bind_eq_some_iff.1 h
  have h1 := length_dropWord hmid
  have h2 := length_dropWord hrest
  have h3 := (List.dropWhile_sublist isSeparator (l := mid)).length_le
  omega

/-- A brand is longer than its replacement. -/
theorem length_dropUpstreamBrand {s rest : Str} (h : dropUpstreamBrand s = some rest) :
    rest.length + 6 ≤ s.length := by
  rcases Option.or_eq_some_iff.1 h with h | ⟨-, h⟩
  · exact length_dropBrand h
  · have := length_dropBrand h
    have hlen : (str "viet").length + (str "share").length = 9 := rfl
    omega

theorem length_customerTextFrom : ∀ {s : Str} {k : Nat}, k ≤ s.length →
    (customerTextFrom k s).length + k ≤ s.length
  | [], k, h => by simpa [customerTextFrom] using h
  | c :: s, k + 1, h => by
    have ih := @length_customerTextFrom s k (by simpa using h)
    simp only [customerTextFrom, List.length_cons]
    omega
  | c :: s, 0, _ => by
    rw [customerTextFrom]
    split
    · rename_i rest hrest
      have hlen := length_dropUpstreamBrand hrest
      have ih := @length_customerTextFrom s (s.length - rest.length) (by omega)
      have hnyan : (str "Nyan").length = 4 := rfl
      simp only [List.length_append, List.length_cons, hnyan] at hlen ⊢
      omega
    · have ih := @length_customerTextFrom s 0 (by omega)
      simp only [List.length_cons]
      omega

theorem customerTextFrom_surrogate : ∀ {s : Str} {k : Nat},
    (customerTextFrom k s).any isSurrogate = true → s.any isSurrogate = true
  | [], k, h => by simp [customerTextFrom] at h
  | c :: s, k + 1, h => by
    rw [List.any_cons, customerTextFrom_surrogate (k := k) h, Bool.or_true]
  | c :: s, 0, h => by
    rw [customerTextFrom] at h
    split at h
    · rw [List.any_append, show (str "Nyan").any isSurrogate = false by decide +kernel,
        Bool.false_or] at h
      rw [List.any_cons, customerTextFrom_surrogate h, Bool.or_true]
    · rw [List.any_cons, Bool.or_eq_true] at h
      rcases h with h | h
      · rw [List.any_cons, h, Bool.true_or]
      · rw [List.any_cons, customerTextFrom_surrogate h, Bool.or_true]

theorem customerText_ne_nil {s : Str} (h : s ≠ []) : customerText s ≠ [] := by
  cases s with
  | nil => exact absurd rfl h
  | cons c s =>
    rw [customerText, customerTextFrom]
    split
    · exact List.append_ne_nil_of_left_ne_nil (by decide) _
    · exact List.cons_ne_nil _ _

/-- **White-labelled copy still fits its field.** -/
theorem hasLength_customerText {s : Str} {most : Nat} (h : hasLength s most = true) :
    hasLength (customerText s) most = true := by
  simp only [hasLength, isUtf8, Bool.and_eq_true, decide_eq_true_eq, Bool.not_eq_true'] at h ⊢
  obtain ⟨⟨hutf8, hpos⟩, hmost⟩ := h
  have hlen : (customerText s).length ≤ s.length := length_customerTextFrom (Nat.zero_le _)
  have hne : customerText s ≠ [] := customerText_ne_nil (List.ne_nil_of_length_pos hpos)
  refine ⟨⟨?_, List.length_pos_iff.2 hne⟩, by omega⟩
  rw [Bool.eq_false_iff]
  intro h
  rw [customerTextFrom_surrogate h] at hutf8
  cases hutf8

/-! ## Storefront models -/

inductive StorefrontAvailability where
  | inStock | outOfStock | unknown
deriving DecidableEq

inductive StorefrontCatalogState where
  | ready | partly | empty
deriving DecidableEq

def storefrontFields (id name description : Str) (category : Option Str) : Bool :=
  isListingId id && hasLength name 255 && hasLength description 4000 &&
    category.all (hasLength · 96)

/-- `retail_price_is_vnd`. -/
def storefrontProductChecks (price : Money) : Checks := [
  (price.currency = str "VND", "storefront retail price must use VND")]

structure StorefrontProduct where
  id : Str
  name : Str
  description : Str
  category : Option Str
  price : Money
  availability : StorefrontAvailability
  fields : storefrontFields id name description category = true
  valid : (storefrontProductChecks price).Pass
deriving DecidableEq

def StorefrontProduct.make (id name description : Str) (category : Option Str) (price : Money)
    (availability : StorefrontAvailability) : Except Exc StorefrontProduct :=
  if hfields : storefrontFields id name description category = true then
    if hvalid : (storefrontProductChecks price).Pass then
      .ok ⟨id, name, description, category, price, availability, hfields, hvalid⟩
    else .error (storefrontProductChecks price).failure
  else .error (.validation none)

/-- `state_is_consistent` of `StorefrontCatalogResponse`. -/
def storefrontChecks (state : StorefrontCatalogState) (items : List StorefrontProduct)
    (isPartial : Bool) (unresolvedOfferCount : Nat) (sourceEvidencePartial : Bool) : Checks := [
  ((items.map (·.id)).Nodup, "storefront product ids must be unique"),
  (isPartial = decide (state = .partly), "storefront partial flag must match its state"),
  (state ≠ .empty || (items.isEmpty && unresolvedOfferCount = 0 && !sourceEvidencePartial),
    "empty storefront cannot contain product or source evidence"),
  (state = .empty || !items.isEmpty, "populated storefront state requires products"),
  (state ≠ .ready || (unresolvedOfferCount = 0 && !sourceEvidencePartial),
    "ready storefront cannot contain incomplete source evidence"),
  (state ≠ .partly || unresolvedOfferCount ≠ 0 || sourceEvidencePartial,
    "partial storefront requires incomplete source evidence")]

structure StorefrontCatalogResponse where
  revision : Nat
  state : StorefrontCatalogState
  items : List StorefrontProduct
  isPartial : Bool
  unresolvedOfferCount : Nat
  sourceEvidencePartial : Bool
  valid : (storefrontChecks state items isPartial unresolvedOfferCount sourceEvidencePartial).Pass
deriving DecidableEq

def StorefrontCatalogResponse.make (revision : Nat) (state : StorefrontCatalogState)
    (items : List StorefrontProduct) (isPartial : Bool) (unresolvedOfferCount : Nat)
    (sourceEvidencePartial : Bool) : Except Exc StorefrontCatalogResponse :=
  if hvalid : (storefrontChecks state items isPartial unresolvedOfferCount
      sourceEvidencePartial).Pass then
    .ok ⟨revision, state, items, isPartial, unresolvedOfferCount, sourceEvidencePartial, hvalid⟩
  else .error (storefrontChecks state items isPartial unresolvedOfferCount
    sourceEvidencePartial).failure

/-- The products of a read of the sources, and whether the evidence is partial. -/
abbrev Snapshot := List CatalogProduct × Bool

/-- The reads of `_read_products` without the aggregate, in the order of the sources. -/
def readEachSource : List (Supplier × Except Exc CatalogResponse) → Except Exc Snapshot
  | [] => .ok ([], false)
  | (source, outcome) :: readers =>
    if source.isLive then
      match outcome with
      | .error e =>
        if e.isException then (readEachSource readers).map fun rest => (rest.1, true)
        else .error e
      | .ok response => (readEachSource readers).map fun rest =>
        (if response.state.populated then response.items ++ rest.1 else rest.1,
          response.isPartial || response.state = .error || rest.2)
    else readEachSource readers

/-- `_read_products`. -/
def CatalogRegistry.readProducts (c : CatalogRegistry) : Except Exc Snapshot :=
  if c.aggregateAvailable then
    c.readAggregate.map fun response =>
      (response.items, response.isPartial || response.state = .error)
  else readEachSource c.readers

section

variable [UnicodeData]

/-- The order of the listings: `(sort_order, id)`. -/
def listingLe (a b : CatalogCurationListing) : Prop :=
  a.sortOrder < b.sortOrder ∨ (a.sortOrder = b.sortOrder ∧ strLe a.id b.id = true)

instance (a b : CatalogCurationListing) : Decidable (listingLe a b) :=
  inferInstanceAs (Decidable (_ ∨ _))

/-- `sorted(document.listings, key=lambda item: (item.sort_order, item.id))`. -/
def CatalogCurationDocument.sortedListings (document : CatalogCurationDocument) :
    List CatalogCurationListing :=
  document.listings.insertionSort listingLe

/-- The visible listings, each with its retail price. -/
def CatalogCurationDocument.visibleListings (document : CatalogCurationDocument) :
    List (CatalogCurationListing × Money) :=
  document.sortedListings.filterMap fun listing =>
    if listing.visible then listing.retailPrice.map (listing, ·) else none

/-- The references of the live products; a product that is none raises. -/
def resolvedProducts (products : List CatalogProduct) :
    Except Exc (List (CatalogCurationOfferRef × CatalogProduct)) :=
  (products.filter (·.supplier.isLive)).mapM fun product => do
    let ref ← CatalogCurationOfferRef.make product.supplier product.id
    return (ref, product)

/-- `resolved.get(ref)`: a later product replaces an earlier one. -/
def resolvedGet (resolved : List (CatalogCurationOfferRef × CatalogProduct))
    (ref : CatalogCurationOfferRef) : Option CatalogProduct :=
  (resolved.reverse.find? (·.1 = ref)).map (·.2)

/-- What the linked offers of a listing say of it. -/
def availabilityOf (linked : List (Option CatalogProduct)) : StorefrontAvailability :=
  if linked.any (·.any fun product => decide (0 < product.availableQuantity)) then .inStock
  else if linked.countP Option.isNone = 0 then .outOfStock
  else .unknown

/-- The item of a listing. -/
def projectListing (get : CatalogCurationOfferRef → Option CatalogProduct)
    (listing : CatalogCurationListing) (retailPrice : Money) : Except Exc StorefrontProduct :=
  StorefrontProduct.make listing.id (customerText listing.name)
    (customerText listing.description) (listing.category.map customerText) retailPrice
    (availabilityOf (listing.offerRefs.map get))

/-- The response from what each reference resolves to. -/
def projectStorefront (revision : Nat) (visible : List (CatalogCurationListing × Money))
    (get : CatalogCurationOfferRef → Option CatalogProduct) (sourcePartial : Bool) :
    Except Exc StorefrontCatalogResponse := do
  let items ← visible.mapM fun entry => projectListing get entry.1 entry.2
  let unresolved :=
    (visible.map fun entry => (entry.1.offerRefs.map get).countP Option.isNone).sum
  let isPartial := sourcePartial || decide (0 < unresolved)
  StorefrontCatalogResponse.make revision (if isPartial then .partly else .ready) items isPartial
    unresolved sourcePartial

/-- `read_storefront`, which reads the sources only for a visible listing. -/
def readStorefront (document : CatalogCurationDocument) (readProducts : Except Exc Snapshot) :
    Except Exc StorefrontCatalogResponse :=
  if document.visibleListings.isEmpty then
    StorefrontCatalogResponse.make document.revision .empty [] false 0 false
  else do
    let (products, sourcePartial) ← readProducts
    let resolved ← resolvedProducts products
    projectStorefront document.revision document.visibleListings (resolvedGet resolved)
      sourcePartial

/-- The offer is in the snapshot. -/
def isResolved (products : List CatalogProduct) (ref : CatalogCurationOfferRef) : Bool :=
  products.any fun product => product.identity = ref.identity

/-- The offer is in the snapshot with a positive quantity. -/
def isStocked (products : List CatalogProduct) (ref : CatalogCurationOfferRef) : Bool :=
  products.any fun product => product.identity = ref.identity && 0 < product.availableQuantity

/-- Every live product gets its reference. -/
theorem resolvedProducts_ok : ∀ {products : List CatalogProduct},
    (∀ product ∈ products, product.supplier.isLive = true → isOfferProductId product.id = true) →
    ∃ resolved, resolvedProducts products = .ok resolved ∧
      ∀ ref product, (ref, product) ∈ resolved ↔
        product ∈ products ∧ product.identity = ref.identity
  | [], _ => ⟨[], rfl, by simp⟩
  | p :: products, h => by
    obtain ⟨resolved, hres, hmem⟩ := resolvedProducts_ok fun x hx => h x (List.mem_cons_of_mem p hx)
    by_cases hlive : p.supplier.isLive = true
    · have hvalid := h p List.mem_cons_self hlive
      refine ⟨(⟨p.supplier, p.id, hlive, hvalid⟩, p) :: resolved, ?_, fun ref product => ?_⟩
      · unfold resolvedProducts at hres ⊢
        rw [List.filter_cons, if_pos hlive, List.mapM_cons,
          CatalogCurationOfferRef.make_ok hlive hvalid, hres]
        rfl
      · simp only [List.mem_cons, hmem, Prod.mk.injEq]
        constructor
        · rintro (⟨rfl, rfl⟩ | ⟨hp, hid⟩)
          · exact ⟨.inl rfl, rfl⟩
          · exact ⟨.inr hp, hid⟩
        · rintro ⟨rfl | hp, hid⟩
          · exact .inl ⟨CatalogCurationOfferRef.identity_injective hid.symm, rfl⟩
          · exact .inr ⟨hp, hid⟩
    · refine ⟨resolved, ?_, fun ref product => (hmem ref product).trans ?_⟩
      · unfold resolvedProducts at hres ⊢
        rw [List.filter_cons, if_neg hlive, hres]
      · refine and_congr_left fun hid => (or_iff_right ?_).symm.trans List.mem_cons.symm
        rintro rfl
        have hsup : product.supplier = ref.supplier := congrArg Prod.fst hid
        exact hlive (hsup ▸ ref.live)

/-- The lookup finds the products of the snapshot by their identity. -/
def Looks (products : List CatalogProduct)
    (get : CatalogCurationOfferRef → Option CatalogProduct) : Prop :=
  ∀ ref product, get ref = some product ↔ product ∈ products ∧ product.identity = ref.identity

/-- What the projection learns of an offer. -/
def evidence (product : Option CatalogProduct) : Option Bool :=
  product.map fun product => decide (0 < product.availableQuantity)

section looks

variable {products : List CatalogProduct} {get : CatalogCurationOfferRef → Option CatalogProduct}
  {ref : CatalogCurationOfferRef}

theorem Looks.isNone (h : Looks products get) : (get ref).isNone = !isResolved products ref := by
  rw [Bool.eq_iff_iff, Bool.not_eq_true', Bool.eq_false_iff, Option.isNone_iff_eq_none]
  constructor
  · intro hnone hres
    obtain ⟨p, hp, hid⟩ := List.any_eq_true.1 hres
    rw [(h ref p).2 ⟨hp, of_decide_eq_true hid⟩] at hnone
    cases hnone
  · intro hres
    cases hget : get ref with
    | none => rfl
    | some p =>
      obtain ⟨hp, hid⟩ := (h ref p).1 hget
      exact absurd (List.any_eq_true.2 ⟨p, hp, by simpa using hid⟩) hres

theorem Looks.stocked (h : Looks products get) :
    (get ref).any (fun product => decide (0 < product.availableQuantity)) =
      isStocked products ref := by
  rw [Bool.eq_iff_iff, Option.any_eq_true, isStocked, List.any_eq_true]
  constructor
  · rintro ⟨p, hget, hq⟩
    obtain ⟨hp, hid⟩ := (h ref p).1 hget
    exact ⟨p, hp, by simpa [hid] using hq⟩
  · rintro ⟨p, hp, hboth⟩
    simp only [Bool.and_eq_true, decide_eq_true_eq] at hboth
    exact ⟨p, (h ref p).2 ⟨hp, hboth.1⟩, by simpa using hboth.2⟩

/-- A resolved offer without stock is a product of quantity zero. -/
theorem Looks.soldOut (h : Looks products get) :
    (isResolved products ref = true ∧ isStocked products ref = false) ↔
      ∃ product ∈ products, product.identity = ref.identity ∧ product.availableQuantity = 0 := by
  constructor
  · rintro ⟨hres, hstock⟩
    obtain ⟨p, hp, hid⟩ := List.any_eq_true.1 hres
    have hid := of_decide_eq_true hid
    refine ⟨p, hp, hid, ?_⟩
    have hq := List.any_eq_false.1 hstock p hp
    simpa [hid] using hq
  · rintro ⟨p, hp, hid, hq⟩
    have hget := (h ref p).2 ⟨hp, hid⟩
    refine ⟨List.any_eq_true.2 ⟨p, hp, by simpa using hid⟩, ?_⟩
    rw [← h.stocked, hget]
    simp [hq]

end looks

/-- The item that stands for a listing. -/
structure Shows (products : List CatalogProduct) (listing : CatalogCurationListing)
    (item : StorefrontProduct) : Prop where
  id : item.id = listing.id
  copy : item.name = customerText listing.name ∧
    item.description = customerText listing.description ∧
    item.category = listing.category.map customerText
  price : listing.retailPrice = some item.price
  inStock : item.availability = .inStock ↔
    ∃ ref ∈ listing.offerRefs, isStocked products ref = true
  outOfStock : item.availability = .outOfStock ↔ ∀ ref ∈ listing.offerRefs,
    ∃ product ∈ products, product.identity = ref.identity ∧ product.availableQuantity = 0
  unknown : item.availability = .unknown ↔
    item.availability ≠ .inStock ∧ item.availability ≠ .outOfStock

/-- The listings that a customer may see. -/
def CatalogCurationDocument.publicListings (document : CatalogCurationDocument) :
    List CatalogCurationListing :=
  document.listings.filter fun listing => listing.visible && listing.retailPrice.isSome

/-- What the storefront is, from the document and a snapshot. -/
structure Projects (document : CatalogCurationDocument) (products : List CatalogProduct)
    (sourcePartial : Bool) (r : StorefrontCatalogResponse) : Prop where
  revision : r.revision = document.revision
  /-- An item for each visible listing with a price, in the order of the document, -/
  items : ∃ shown, shown.Perm document.publicListings ∧ shown.Pairwise listingLe ∧
    List.Forall₂ (Shows products) shown r.items
  /-- and the unresolved links of these listings. -/
  unresolved : r.unresolvedOfferCount =
    (document.publicListings.flatMap (·.offerRefs)).countP (!isResolved products ·)
  state : r.state =
    if document.publicListings = [] then .empty
    else if sourcePartial || decide (0 < r.unresolvedOfferCount) then .partly
    else .ready

/-- The snapshots agree on the linked offers of the visible listings. -/
def SameEvidence (document : CatalogCurationDocument) (products products' : List CatalogProduct) :
    Prop :=
  ∀ listing ∈ document.listings, listing.visible = true → ∀ ref ∈ listing.offerRefs,
    isResolved products ref = isResolved products' ref ∧
    isStocked products ref = isStocked products' ref

instance : Std.Total listingLe where
  total a b := by
    unfold listingLe
    rcases Nat.lt_trichotomy a.sortOrder b.sortOrder with h | h | h
    · exact .inl (.inl h)
    · rcases strLe_total a.id b.id with h' | h'
      · exact .inl (.inr ⟨h, h'⟩)
      · exact .inr (.inr ⟨h.symm, h'⟩)
    · exact .inr (.inl h)

instance : IsTrans CatalogCurationListing listingLe where
  trans a b c := by
    unfold listingLe
    rintro (h | ⟨h, hid⟩) (h' | ⟨h', hid'⟩)
    · exact .inl (Nat.lt_trans h h')
    · exact .inl (h' ▸ h)
    · exact .inl (h ▸ h')
    · exact .inr ⟨h.trans h', strLe_trans hid hid'⟩

theorem availabilityOf_inStock {products : List CatalogProduct}
    {get : CatalogCurationOfferRef → Option CatalogProduct} (hget : Looks products get)
    {refs : List CatalogCurationOfferRef} :
    availabilityOf (refs.map get) = .inStock ↔ ∃ ref ∈ refs, isStocked products ref = true := by
  unfold availabilityOf
  simp only [List.any_map, List.countP_map, Function.comp_def, hget.stocked, hget.isNone]
  split
  case isTrue h => simpa using h
  case isFalse h =>
    have hno : ¬ ∃ ref ∈ refs, isStocked products ref = true := by simpa using h
    split <;> simp [hno]

theorem availabilityOf_outOfStock {products : List CatalogProduct}
    {get : CatalogCurationOfferRef → Option CatalogProduct} (hget : Looks products get)
    {refs : List CatalogCurationOfferRef} :
    availabilityOf (refs.map get) = .outOfStock ↔ ∀ ref ∈ refs,
      ∃ product ∈ products, product.identity = ref.identity ∧ product.availableQuantity = 0 := by
  unfold availabilityOf
  simp only [List.any_map, List.countP_map, Function.comp_def, hget.stocked, hget.isNone,
    ← hget.soldOut]
  split
  case isTrue h =>
    obtain ⟨ref, href, hstock⟩ := List.any_eq_true.1 h
    simp only [reduceCtorEq, false_iff, not_forall]
    exact ⟨ref, href, fun hno => by rw [hno.2] at hstock; cases hstock⟩
  case isFalse h =>
    have hno : ∀ ref ∈ refs, isStocked products ref = false := by simpa using h
    split
    case isTrue hzero =>
      simp only [List.countP_eq_zero] at hzero
      simp only [true_iff]
      exact fun ref href => ⟨by simpa using hzero ref href, hno ref href⟩
    case isFalse hpos =>
      simp only [reduceCtorEq, false_iff]
      intro hall
      refine hpos (List.countP_eq_zero.2 fun ref href => ?_)
      simp [(hall ref href).1]

theorem mem_visibleListings {document : CatalogCurationDocument}
    {entry : CatalogCurationListing × Money} :
    entry ∈ document.visibleListings ↔
      entry.1 ∈ document.listings ∧ entry.1.visible = true ∧
        entry.1.retailPrice = some entry.2 := by
  obtain ⟨listing, price⟩ := entry
  unfold CatalogCurationDocument.visibleListings CatalogCurationDocument.sortedListings
  simp only [List.mem_filterMap, List.mem_insertionSort]
  constructor
  · rintro ⟨l, hl, h⟩
    split at h
    · obtain ⟨p, hp, heq⟩ := Option.map_eq_some_iff.1 h
      cases heq
      exact ⟨hl, ‹_›, hp⟩
    · cases h
  · rintro ⟨hl, hv, hp⟩
    exact ⟨listing, hl, by simp [hv, hp]⟩

/-- The listings of the visible entries are the public ones in their order. -/
theorem visibleListings_listings (document : CatalogCurationDocument) :
    document.visibleListings.map (·.1) =
      document.sortedListings.filter fun l => l.visible && l.retailPrice.isSome := by
  unfold CatalogCurationDocument.visibleListings
  induction document.sortedListings with
  | nil => rfl
  | cons l rest ih =>
    by_cases hv : l.visible = true
    · cases hp : l.retailPrice with
      | none => simpa [hv, hp] using ih
      | some p => simpa [hv, hp] using ih
    · simpa [hv] using ih

theorem shown_perm (document : CatalogCurationDocument) :
    (document.visibleListings.map (·.1)).Perm document.publicListings := by
  rw [visibleListings_listings]
  exact (List.perm_insertionSort _ _).filter _

/-- The item that the projection makes of a listing. -/
structure Item (get : CatalogCurationOfferRef → Option CatalogProduct)
    (listing : CatalogCurationListing) (item : StorefrontProduct) : Prop where
  id : item.id = listing.id
  copy : item.name = customerText listing.name ∧
    item.description = customerText listing.description ∧
    item.category = listing.category.map customerText
  price : listing.retailPrice = some item.price
  availability : item.availability = availabilityOf (listing.offerRefs.map get)

/-- A valid listing gives an item of the storefront. -/
theorem projectListing_ok {get : CatalogCurationOfferRef → Option CatalogProduct}
    {listing : CatalogCurationListing} {retailPrice : Money}
    (hprice : listing.retailPrice = some retailPrice) :
    ∃ item, projectListing get listing retailPrice = .ok item ∧ Item get listing item := by
  have hf := listing.fields
  simp only [listingFields, isDisplayName, isDescription, textChecks, Bool.and_eq_true] at hf
  obtain ⟨⟨⟨⟨⟨hid, hname, -⟩, hdesc, -⟩, hcat⟩, -⟩, -⟩ := hf
  have hfields : storefrontFields listing.id (customerText listing.name)
      (customerText listing.description) (listing.category.map customerText) = true := by
    simp only [storefrontFields, hid, hasLength_customerText hname, hasLength_customerText hdesc,
      Bool.true_and]
    cases hc : listing.category with
    | none => rfl
    | some c =>
      rw [hc, Option.all_some, isCategory, textChecks, Bool.and_eq_true] at hcat
      exact hasLength_customerText hcat.1
  have hvnd : (storefrontProductChecks retailPrice).Pass := by
    have hv := listing.valid (_, _) (List.mem_cons_of_mem _ List.mem_cons_self)
    rw [hprice] at hv
    simpa [Checks.Pass, storefrontProductChecks] using hv
  refine ⟨⟨listing.id, customerText listing.name, customerText listing.description,
    listing.category.map customerText, retailPrice, availabilityOf (listing.offerRefs.map get),
    hfields, hvnd⟩, ?_, rfl, ⟨rfl, rfl, rfl⟩, hprice, rfl⟩
  rw [projectListing, StorefrontProduct.make, dif_pos hfields, dif_pos hvnd]

/-- An item made from the products of a snapshot shows them. -/
theorem Item.shows {products : List CatalogProduct}
    {get : CatalogCurationOfferRef → Option CatalogProduct} (hget : Looks products get)
    {listing : CatalogCurationListing} {item : StorefrontProduct} (h : Item get listing item) :
    Shows products listing item where
  id := h.id
  copy := h.copy
  price := h.price
  inStock := by rw [h.availability, availabilityOf_inStock hget]
  outOfStock := by rw [h.availability, availabilityOf_outOfStock hget]
  unknown := by cases item.availability <;> simp

/-- The unresolved links of the visible entries. -/
def unresolvedCount (document : CatalogCurationDocument)
    (get : CatalogCurationOfferRef → Option CatalogProduct) : Nat :=
  (document.visibleListings.map fun entry =>
    (entry.1.offerRefs.map get).countP Option.isNone).sum

/-- **The projection of a visible listing never raises**, whatever the lookup finds. -/
theorem projectStorefront_made {document : CatalogCurationDocument} {sourcePartial : Bool}
    (get : CatalogCurationOfferRef → Option CatalogProduct)
    (hne : document.visibleListings ≠ []) :
    ∃ r, projectStorefront document.revision document.visibleListings get sourcePartial = .ok r ∧
      r.revision = document.revision ∧
      List.Forall₂ (Item get) (document.visibleListings.map (·.1)) r.items ∧
      r.unresolvedOfferCount = unresolvedCount document get ∧
      r.state = if sourcePartial || decide (0 < r.unresolvedOfferCount) then .partly
        else .ready := by
  obtain ⟨items, hitems, hall⟩ := mapM_ok (l := document.visibleListings)
    (f := fun entry => projectListing get entry.1 entry.2)
    (R := fun entry item => Item get entry.1 item)
    fun entry hentry => projectListing_ok (mem_visibleListings.1 hentry).2.2
  have hshown : List.Forall₂ (Item get) (document.visibleListings.map (·.1)) items :=
    List.forall₂_map_left_iff.2 hall
  have hids : items.map (·.id) = (document.visibleListings.map (·.1)).map (·.id) :=
    (List.forall₂_eq_eq_eq ▸ List.forall₂_map_left_iff.2 (List.forall₂_map_right_iff.2
      (hshown.imp fun _ _ h => h.id.symm)) : _ = _).symm
  have hnodup : (items.map (·.id)).Nodup := by
    rw [hids, ((shown_perm document).map _).nodup_iff]
    exact document.ids_nodup.sublist (List.filter_sublist.map _)
  have hitems_ne : items ≠ [] := by
    rintro rfl
    exact hne (List.forall₂_nil_right_iff.1 hall)
  have hproj : projectStorefront document.revision document.visibleListings get sourcePartial =
      StorefrontCatalogResponse.make document.revision
        (if sourcePartial || decide (0 < unresolvedCount document get) then .partly else .ready)
        items (sourcePartial || decide (0 < unresolvedCount document get))
        (unresolvedCount document get) sourcePartial := by
    unfold projectStorefront unresolvedCount
    rw [hitems]
    rfl
  rw [hproj]
  generalize unresolvedCount document get = n
  have hpass : (storefrontChecks (if sourcePartial || decide (0 < n) then .partly else .ready)
      items (sourcePartial || decide (0 < n)) n sourcePartial).Pass := by
    intro check hcheck
    simp only [storefrontChecks, List.mem_cons, List.not_mem_nil, or_false] at hcheck
    rcases hcheck with rfl | rfl | rfl | rfl | rfl | rfl
    · simpa using hnodup
    all_goals cases sourcePartial <;> by_cases hpos : 0 < n <;> simp [hpos, hitems_ne]
    · omega
    · omega
  exact ⟨⟨document.revision, _, items, _, n, sourcePartial, hpass⟩, dif_pos hpass, rfl, hshown,
    rfl, rfl⟩

/-- No visible listing: an empty storefront, without a read of the sources. -/
theorem readStorefront_empty {document : CatalogCurationDocument}
    (h : document.visibleListings = []) (snapshot : Except Exc Snapshot)
    (products : List CatalogProduct) (sourcePartial : Bool) :
    ∃ r, readStorefront document snapshot = .ok r ∧
      Projects document products sourcePartial r := by
  have hpublic : document.publicListings = [] := by
    have hperm := shown_perm document
    rw [h] at hperm
    exact hperm.symm.eq_nil
  have hpass : (storefrontChecks .empty [] false 0 false).Pass := by decide
  refine ⟨⟨document.revision, .empty, [], false, 0, false, hpass⟩, ?_, rfl,
    ⟨[], by rw [hpublic], .nil, .nil⟩, by simp [hpublic], by simp [hpublic]⟩
  unfold readStorefront
  rw [if_pos (by simp [h]), StorefrontCatalogResponse.make, dif_pos hpass]

end

/-! ## A snapshot -/

section

attribute [local instance] asciiUnicode

def sampleProducts : List CatalogProduct := [sampleProduct (str "a") isDisplayText_a]

example : (readStorefront sampleDocument (.ok (sampleProducts, false))).map (fun r =>
    r.items.map fun item => (item.name, item.availability)) =
    .ok [(str "Nyan toolkit", .inStock)] := by decide +kernel

end

end NyanShopBot.Catalog
