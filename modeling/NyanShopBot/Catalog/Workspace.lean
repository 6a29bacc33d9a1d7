import NyanShopBot.Catalog.Storefront
import NyanShopBot.Khommo.CatalogReader
import NyanShopBot.Py.Base64

/-!
# The curation workspace

The owner's view: `getWorkspace` joins the offers of a snapshot with the document. Its
models take less than the catalog does; `Curatable` is what they take of a product, and
`curation_returns_iff` says that the two reads return on nothing else.
-/

namespace NyanShopBot.Catalog

open Py

section

variable [UnicodeData]

/-! ## Offer keys -/

namespace CatalogCurationOfferRef

theorem encodable (ref : CatalogCurationOfferRef) :
    (encodeUtf8 ref.supplierProductId).isSome = true := by
  have h := ref.valid
  simp only [isOfferProductId, textChecks, hasLength, isUtf8, Bool.and_eq_true,
    Bool.not_eq_true'] at h
  exact encodeUtf8_isSome h.1.1.1

/-- `ref.supplier_product_id.encode("utf-8")`. -/
def bytes (ref : CatalogCurationOfferRef) : Bytes :=
  (encodeUtf8 ref.supplierProductId).get ref.encodable

end CatalogCurationOfferRef

/-- `encode_offer_key`. -/
def encodeOfferKey (ref : CatalogCurationOfferRef) : Str :=
  ref.supplier.value ++ str "." ++ rstripChar (chr '=') (urlsafeB64encode ref.bytes)

/-- `OfferKey`. -/
def isOfferKey (key : Str) : Bool := hasLength key 512

/-! ## Workspace models -/

def curationOfferFields (key supplierProductId name description : Str)
    (assignedListingId : Option Str) : Bool :=
  isOfferKey key && hasLength supplierProductId 256 && hasLength name 255 &&
    hasLength description 4000 && assignedListingId.all isListingId

structure CatalogCurationOffer where
  key : Str
  supplier : Supplier
  supplierProductId : Str
  name : Str
  description : Str
  price : Money
  availableQuantity : Nat
  assignedListingId : Option Str
  live : supplier.isLive = true
  fields : curationOfferFields key supplierProductId name description assignedListingId = true
deriving DecidableEq

def listingViewFields (id name description : Str) (category : Option Str)
    (offerKeys : List Str) : Bool :=
  isListingId id && hasLength name 255 && hasLength description 4000 &&
    category.all (hasLength · 96) && 1 ≤ offerKeys.length &&
    offerKeys.length ≤ maxOffersPerListing && offerKeys.all isOfferKey

structure CatalogCurationListingView where
  id : Str
  name : Str
  description : Str
  category : Option Str
  visible : Bool
  sortOrder : Nat
  retailPrice : Option Money
  offerKeys : List Str
  fields : listingViewFields id name description category offerKeys = true
deriving DecidableEq

structure CatalogCurationWorkspace where
  revision : Nat
  offers : List CatalogCurationOffer
  listings : List CatalogCurationListingView
  unresolvedOfferCount : Nat
  sourcePartial : Bool
deriving DecidableEq

/-! ## The service -/

/-- `_listing_view`. -/
def listingView (listing : CatalogCurationListing) : Except Exc CatalogCurationListingView :=
  let offerKeys := listing.offerRefs.map encodeOfferKey
  if hfields : listingViewFields listing.id listing.name listing.description listing.category
      offerKeys = true then
    .ok ⟨listing.id, listing.name, listing.description, listing.category, listing.visible,
      listing.sortOrder, listing.retailPrice, offerKeys, hfields⟩
  else .error (.validation none)

/-- `assigned.get(ref)`: the last listing with the reference. -/
def assignedListing (document : CatalogCurationDocument) (ref : CatalogCurationOfferRef) :
    Option Str :=
  (document.listings.reverse.find? (·.offerRefs.contains ref)).map (·.id)

/-- The reference and the offer of a live product. -/
def projectOffer (document : CatalogCurationDocument) (product : CatalogProduct) :
    Except Exc (CatalogCurationOfferRef × CatalogCurationOffer) := do
  let ref ← CatalogCurationOfferRef.make product.supplier product.id
  let key := encodeOfferKey ref
  let assigned := assignedListing document ref
  if hfields : curationOfferFields key product.id product.name product.description assigned =
      true then
    .ok (ref, ⟨key, ref.supplier, product.id, product.name, product.description, product.price,
      product.availableQuantity, assigned, ref.live, hfields⟩)
  else .error (.validation none)

/-- `_workspace_from`. -/
def workspaceFrom (document : CatalogCurationDocument) (products : List CatalogProduct)
    (sourcePartial : Bool) : Except Exc CatalogCurationWorkspace := do
  let offers ← (products.filter (·.supplier.isLive)).mapM (projectOffer document)
  let resolved := offers.map (·.1)
  let persisted := (document.listings.flatMap (·.offerRefs)).dedup
  let listings ← document.sortedListings.mapM listingView
  return {
    revision := document.revision
    offers := offers.map (·.2)
    listings := listings
    unresolvedOfferCount := persisted.countP (!resolved.contains ·)
    sourcePartial := sourcePartial }

/-- `get_workspace`. -/
def getWorkspace (document : CatalogCurationDocument) (readProducts : Except Exc Snapshot) :
    Except Exc CatalogCurationWorkspace := do
  let (products, sourcePartial) ← readProducts
  workspaceFrom document products sourcePartial

/-! ## What the curation takes -/

/-- The most UTF-8 bytes of an id whose key fits its field. -/
def maxKeyBytes : Supplier → Nat
  | .mock => 380
  | .khommo => 378
  | .vietshare => 376

/-- The key of the reference fits its field (`isOfferKey_iff`). -/
def KeyFits (ref : CatalogCurationOfferRef) : Prop := ref.bytes.length ≤ maxKeyBytes ref.supplier

/-- What the curation models take of a product: its id is an offer reference with a key
that fits, its name and its description fit the fields of a listing. -/
structure Curatable (product : CatalogProduct) : Prop where
  ref : isOfferProductId product.id = true
  key : ∀ ref, CatalogCurationOfferRef.make product.supplier product.id = .ok ref → KeyFits ref
  name : product.name.length ≤ 255
  description : product.description.length ≤ 4000

theorem encodeOfferKey_eq (ref : CatalogCurationOfferRef) :
    encodeOfferKey ref = ref.supplier.value ++ chr '.' :: b64Digits ref.bytes := by
  rw [encodeOfferKey, List.append_assoc]
  rfl

theorem length_encodeOfferKey_le {ref : CatalogCurationOfferRef} :
    (encodeOfferKey ref).length ≤ 512 ↔ KeyFits ref := by
  rw [KeyFits, encodeOfferKey_eq, List.length_append, List.length_cons, length_b64Digits]
  cases ref.supplier with
  | mock =>
    show 4 + _ ≤ 512 ↔ _ ≤ 380
    omega
  | khommo =>
    show 6 + _ ≤ 512 ↔ _ ≤ 378
    omega
  | vietshare =>
    show 9 + _ ≤ 512 ↔ _ ≤ 376
    omega

theorem isOfferKey_iff {ref : CatalogCurationOfferRef} :
    isOfferKey (encodeOfferKey ref) = true ↔ KeyFits ref := by
  have hsup : ref.supplier.value.any isSurrogate = false := by
    cases ref.supplier <;> decide +kernel
  have hb64 : (rstripChar (chr '=') (urlsafeB64encode ref.bytes)).any isSurrogate = false := by
    rw [List.any_eq_false]
    intro c hc
    exact List.any_eq_false.1 (urlsafeB64encode_not_surrogate _) c (mem_of_mem_rstripChar hc)
  have hutf8 : isUtf8 (encodeOfferKey ref) = true := by
    rw [isUtf8, encodeOfferKey, List.any_append, List.any_append, hsup, hb64]
    decide +kernel
  have hpos : 1 ≤ (encodeOfferKey ref).length := by
    simp [encodeOfferKey, str]
    omega
  simp [isOfferKey, hasLength, hutf8, hpos, length_encodeOfferKey_le]

/-- A listing is shown where the keys of its offers fit. -/
theorem listingView_returns_iff {listing : CatalogCurationListing} :
    (∃ view, listingView listing = .ok view) ↔ ∀ ref ∈ listing.offerRefs, KeyFits ref := by
  have hf := listing.fields
  simp only [listingFields, isDisplayName, isDescription, textChecks, Bool.and_eq_true] at hf
  obtain ⟨⟨⟨⟨⟨hid, hname, -⟩, hdesc, -⟩, hcat⟩, hone⟩, hmost⟩ := hf
  have hcat' : listing.category.all (hasLength · 96) = true := by
    cases hc : listing.category with
    | none => rfl
    | some c =>
      rw [hc, Option.all_some, isCategory, textChecks, Bool.and_eq_true] at hcat
      exact hcat.1
  have hfields : listingViewFields listing.id listing.name listing.description listing.category
      (listing.offerRefs.map encodeOfferKey) = true ↔ ∀ ref ∈ listing.offerRefs, KeyFits ref := by
    simp only [listingViewFields, hid, hname, hdesc, hcat', List.length_map, hone, hmost,
      Bool.and_self, Bool.true_and, List.all_map, List.all_eq_true, Function.comp_apply,
      isOfferKey_iff]
  rw [← hfields, listingView]
  split
  case isTrue h => exact ⟨fun _ => h, fun _ => ⟨_, rfl⟩⟩
  case isFalse h => exact ⟨(by rintro ⟨_, hv⟩; cases hv), fun h' => absurd h' h⟩

theorem assignedListing_isListingId {document : CatalogCurationDocument}
    {ref : CatalogCurationOfferRef} :
    (assignedListing document ref).all isListingId = true := by
  unfold assignedListing
  cases hfind : document.listings.reverse.find? (·.offerRefs.contains ref) with
  | none => rfl
  | some listing =>
    have hf := listing.fields
    simp only [listingFields, Bool.and_eq_true] at hf
    exact hf.1.1.1.1.1

/-- A live product becomes an offer exactly where it is curatable. -/
theorem projectOffer_returns_iff {document : CatalogCurationDocument} {product : CatalogProduct}
    (hlive : product.supplier.isLive = true) :
    (∃ offer, projectOffer document product = .ok offer) ↔ Curatable product := by
  have ht := product.texts
  simp only [isDisplayText, Bool.and_eq_true] at ht
  obtain ⟨⟨⟨hid, -⟩, hname, hname'⟩, hdesc, hdesc'⟩ := ht
  by_cases hvalid : isOfferProductId product.id = true
  · have hmake := CatalogCurationOfferRef.make_ok hlive hvalid
    have hlen : hasLength product.id 256 = true := by
      rw [isOfferProductId, textChecks, Bool.and_eq_true] at hvalid
      exact hvalid.1
    have hpos : ∀ s : Str, s.any (!isWhiteSpace ·) = true → 1 ≤ s.length := by
      intro s hs
      cases s with
      | nil => cases hs
      | cons c s => simp
    have hfields :
        curationOfferFields (encodeOfferKey ⟨product.supplier, product.id, hlive, hvalid⟩)
        product.id product.name product.description
        (assignedListing document ⟨product.supplier, product.id, hlive, hvalid⟩) = true ↔
        Curatable product := by
      simp only [curationOfferFields, hlen, assignedListing_isListingId, Bool.and_true,
        Bool.and_eq_true, isOfferKey_iff]
      simp only [hasLength, hname, hdesc, hpos _ hname', hpos _ hdesc', decide_true, Bool.and_self,
        Bool.true_and, decide_eq_true_eq]
      constructor
      · rintro ⟨⟨hkey, hn⟩, hd⟩
        refine ⟨hvalid, fun ref href => ?_, hn, hd⟩
        rw [hmake] at href
        cases href
        exact hkey
      · rintro ⟨-, hkey, hn, hd⟩
        exact ⟨⟨hkey _ hmake, hn⟩, hd⟩
    rw [← hfields, projectOffer, hmake]
    simp only [bind, Except.bind]
    split
    case isTrue h => exact ⟨fun _ => h, fun _ => ⟨_, rfl⟩⟩
    case isFalse h => exact ⟨(by rintro ⟨_, hv⟩; cases hv), fun h' => absurd h' h⟩
  · obtain ⟨e, he⟩ := @CatalogCurationOfferRef.make_error _ product.supplier _ hvalid
    rw [projectOffer, he]
    exact ⟨(by rintro ⟨_, hv⟩; cases hv), fun h => absurd h.ref hvalid⟩

/-- The workspace is made exactly where the products and the keys of the document are
taken. -/
theorem workspaceFrom_returns_iff {document : CatalogCurationDocument}
    {products : List CatalogProduct} {sourcePartial : Bool} :
    (∃ w, workspaceFrom document products sourcePartial = .ok w) ↔
      (∀ product ∈ products, product.supplier.isLive = true → Curatable product) ∧
      ∀ listing ∈ document.listings, ∀ ref ∈ listing.offerRefs, KeyFits ref := by
  have hoffers : (∃ offers, (products.filter (·.supplier.isLive)).mapM (projectOffer document) =
      .ok offers) ↔ ∀ product ∈ products, product.supplier.isLive = true → Curatable product := by
    rw [mapM_returns_iff]
    constructor
    · intro h product hp hlive
      exact (projectOffer_returns_iff hlive).1 (h product (List.mem_filter.2 ⟨hp, hlive⟩))
    · intro h product hp
      obtain ⟨hp, hlive⟩ := List.mem_filter.1 hp
      exact (projectOffer_returns_iff hlive).2 (h product hp hlive)
  have hviews : (∃ views, document.sortedListings.mapM listingView = .ok views) ↔
      ∀ listing ∈ document.listings, ∀ ref ∈ listing.offerRefs, KeyFits ref := by
    rw [mapM_returns_iff]
    simp only [CatalogCurationDocument.sortedListings, List.mem_insertionSort,
      listingView_returns_iff]
  rw [← hoffers, ← hviews, workspaceFrom]
  constructor
  · rintro ⟨w, hw⟩
    obtain ⟨offers, ho, hw⟩ := except_bind_ok.1 hw
    obtain ⟨views, hv, -⟩ := except_bind_ok.1 hw
    exact ⟨⟨offers, ho⟩, views, hv⟩
  · rintro ⟨⟨offers, ho⟩, views, hv⟩
    rw [ho, hv]
    exact ⟨_, rfl⟩

/-- The storefront needs only the references. -/
theorem readStorefront_returns {document : CatalogCurationDocument}
    {products : List CatalogProduct} (sourcePartial : Bool)
    (h : ∀ product ∈ products, product.supplier.isLive = true →
      isOfferProductId product.id = true) :
    ∃ r, readStorefront document (.ok (products, sourcePartial)) = .ok r := by
  by_cases hv : document.visibleListings = []
  · obtain ⟨r, hr, -⟩ := readStorefront_empty hv (.ok (products, sourcePartial)) products
      sourcePartial
    exact ⟨r, hr⟩
  · obtain ⟨resolved, hres, -⟩ := resolvedProducts_ok h
    obtain ⟨r, hr, -⟩ := @projectStorefront_made _ document sourcePartial (resolvedGet resolved) hv
    refine ⟨r, ?_⟩
    unfold readStorefront
    rw [if_neg (by simpa using hv)]
    simpa [bind, Except.bind, hres] using hr

/-- **What the curation survives**: the workspace and the storefront return exactly where
the curation models take every live product, and the key of no reference of the document is
too long. -/
theorem curation_returns_iff (document : CatalogCurationDocument) (products : List CatalogProduct)
    (sourcePartial : Bool) :
    ((∃ w, getWorkspace document (.ok (products, sourcePartial)) = .ok w) ∧
      ∃ r, readStorefront document (.ok (products, sourcePartial)) = .ok r) ↔
    (∀ product ∈ products, product.supplier.isLive = true → Curatable product) ∧
      ∀ listing ∈ document.listings, ∀ ref ∈ listing.offerRefs, KeyFits ref := by
  refine (and_iff_left_of_imp fun hw => ?_).trans workspaceFrom_returns_iff
  have hall := (workspaceFrom_returns_iff.1 hw).1
  exact readStorefront_returns sourcePartial fun product hp hlive => (hall product hp hlive).ref

end

/-! ## An unusual product -/

section

attribute [local instance] asciiUnicode

/-- The supplier's id starts with a space. -/
def spacedProduct : Khommo.Product where
  id := str " b"
  name := str "b"
  description := some (str "b")
  priceVnd := 1000
  paymentMode := .vnd
  stock := some 2
  inStock := true

/-- The reader projects it, and both reads of the curation raise. -/
theorem spacedProduct_raises :
    (Khommo.projectProduct spacedProduct).map (fun item =>
      (getWorkspace sampleDocument (.ok (sampleProducts ++ [item], false)),
        readStorefront sampleDocument (.ok (sampleProducts ++ [item], false)))) =
    .ok (.error (.validation (some "text cannot contain leading or trailing whitespace")),
      .error (.validation (some "text cannot contain leading or trailing whitespace"))) := by
  decide +kernel

end

end NyanShopBot.Catalog
