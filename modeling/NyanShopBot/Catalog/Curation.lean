import NyanShopBot.Catalog.Registry
import NyanShopBot.Py.Json

/-!
# Curation models

The owner's document: canonical listings, each with the supplier products it stands
for. As in `Models`, a value carries what its fields and its validators check.
-/

namespace NyanShopBot.Catalog

open Py

def maxDocumentBytes : Nat := 1000000

def maxListings : Nat := 500

def maxOffersPerListing : Nat := 32

section

variable [UnicodeData]

/-! ## Text -/

/-- A `StrictStr` of at least one and at most so many code points. -/
def hasLength (s : Str) (most : Nat) : Bool := isUtf8 s && 1 ≤ s.length && s.length ≤ most

def isIdHead (c : CodePoint) : Bool :=
  (0x61 ≤ c.val && c.val ≤ 0x7a) || (0x30 ≤ c.val && c.val ≤ 0x39)

def isIdChar (c : CodePoint) : Bool :=
  isIdHead c || c = chr '.' || c = chr '_' || c = chr '-'

/-- `ListingId`. -/
def isListingId (s : Str) : Bool := hasLength s 64 && s.head?.all isIdHead && s.all isIdChar

/-- `_validate_display_text`. -/
def displayTextChecks (s : Str) : Checks := [
  (strip s = s, "text cannot contain leading or trailing whitespace"),
  (normalizeNFC s = s, "text must use Unicode NFC normalization"),
  (isprintable s, "text must contain printable characters only")]

/-- `_validate_multiline_text`. -/
def multilineTextChecks (s : Str) : Checks := [
  (strip s = s, "text cannot contain leading or trailing whitespace"),
  (normalizeNFC s = s, "text must use Unicode NFC normalization"),
  (s.all fun c => c = chr '\n' || isPrintable c, "text contains an unsupported control character")]

/-- A text field: its length, then what its validator checks. -/
def textChecks (most : Nat) (validator : Str → Checks) (s : Str) : Bool :=
  hasLength s most && decide (validator s).Pass

def isDisplayName (s : Str) : Bool := textChecks 255 displayTextChecks s

def isDescription (s : Str) : Bool := textChecks 4000 multilineTextChecks s

def isCategory (s : Str) : Bool := textChecks 96 displayTextChecks s

/-- A `SupplierProductId` that an offer reference accepts. -/
def isOfferProductId (s : Str) : Bool := textChecks 256 displayTextChecks s

/-! ## The document -/

@[ext]
structure CatalogCurationOfferRef where
  supplier : Supplier
  supplierProductId : Str
  live : supplier.isLive = true
  valid : isOfferProductId supplierProductId = true

instance : DecidableEq CatalogCurationOfferRef := fun a b =>
  decidable_of_iff (a.supplier = b.supplier ∧ a.supplierProductId = b.supplierProductId)
    CatalogCurationOfferRef.ext_iff.symm

namespace CatalogCurationOfferRef

/-- The source-qualified identity of the product it refers to. -/
def identity (ref : CatalogCurationOfferRef) : Supplier × Str :=
  (ref.supplier, ref.supplierProductId)

theorem identity_injective : Function.Injective identity := by
  rintro ⟨s, i, _, _⟩ ⟨s', i', _, _⟩ h
  cases h
  rfl

def make (supplier : Supplier) (supplierProductId : Str) : Except Exc CatalogCurationOfferRef :=
  if hlive : supplier.isLive = true then
    if hvalid : isOfferProductId supplierProductId = true then
      .ok ⟨supplier, supplierProductId, hlive, hvalid⟩
    else if hasLength supplierProductId 256 then
      .error (displayTextChecks supplierProductId).failure
    else .error (.validation none)
  else .error (.validation none)

theorem make_ok {supplier : Supplier} {id : Str} (hlive : supplier.isLive = true)
    (hvalid : isOfferProductId id = true) :
    make supplier id = .ok ⟨supplier, id, hlive, hvalid⟩ := by
  rw [make, dif_pos hlive, dif_pos hvalid]

/-- An id that is no offer reference raises. -/
theorem make_error {supplier : Supplier} {id : Str} (hvalid : ¬ isOfferProductId id = true) :
    ∃ e, make supplier id = .error e := by
  by_cases hlive : supplier.isLive = true
  · rw [make, dif_pos hlive, dif_neg hvalid]
    split
    · exact ⟨_, rfl⟩
    · exact ⟨_, rfl⟩
  · exact ⟨_, by rw [make, dif_neg hlive]⟩

end CatalogCurationOfferRef

/-- The fields of a listing, each on its own. -/
def listingFields (id name description : Str) (category : Option Str)
    (offerRefs : List CatalogCurationOfferRef) : Bool :=
  isListingId id && isDisplayName name && isDescription description && category.all isCategory &&
    1 ≤ offerRefs.length && offerRefs.length ≤ maxOffersPerListing

/-- `validate_listing`. -/
def listingChecks (visible : Bool) (retailPrice : Option Money)
    (offerRefs : List CatalogCurationOfferRef) : Checks := [
  (offerRefs.Nodup, "offer references must be unique within a listing"),
  (retailPrice.all (·.currency = str "VND"), "curated retail price must use VND"),
  (!visible || retailPrice.isSome, "a visible listing requires a retail price")]

structure CatalogCurationListing where
  id : Str
  name : Str
  description : Str
  category : Option Str
  visible : Bool
  sortOrder : Nat
  retailPrice : Option Money
  offerRefs : List CatalogCurationOfferRef
  fields : listingFields id name description category offerRefs = true
  valid : (listingChecks visible retailPrice offerRefs).Pass
deriving DecidableEq

/-! ### Its size -/

def Money.json (m : Money) : Json := .obj [
  (str "amount_minor", .int m.amountMinor),
  (str "currency", .str m.currency),
  (str "unit", .str (str "minor"))]

def CatalogCurationOfferRef.json (ref : CatalogCurationOfferRef) : Json := .obj [
  (str "supplier", .str ref.supplier.value),
  (str "supplier_product_id", .str ref.supplierProductId)]

def CatalogCurationListing.json (listing : CatalogCurationListing) : Json := .obj [
  (str "id", .str listing.id),
  (str "name", .str listing.name),
  (str "description", .str listing.description),
  (str "category", listing.category.elim .null .str),
  (str "visible", .bool listing.visible),
  (str "sort_order", .int listing.sortOrder),
  (str "retail_price", listing.retailPrice.elim .null Money.json),
  (str "offer_refs", .arr (listing.offerRefs.map (·.json)))]

/-- `document.model_dump_json()`. -/
def documentText (revision : Nat) (listings : List CatalogCurationListing) : Str :=
  (Json.obj [(str "revision", .int revision),
    (str "listings", .arr (listings.map (·.json)))]).compact

def withinSizeLimit (text : Str) : Bool := (encodeUtf8 text).any (·.length ≤ maxDocumentBytes)

/-- `validate_document`. -/
def documentChecks (revision : Nat) (listings : List CatalogCurationListing) : Checks := [
  ((listings.map (·.id)).Nodup, "listing ids must be unique"),
  ((listings.map (·.sortOrder)).Nodup, "listing sort orders must be unique"),
  ((listings.flatMap (·.offerRefs)).Nodup,
    "one supplier offer cannot belong to multiple listings"),
  (withinSizeLimit (documentText revision listings),
    "catalog curation document exceeds the size limit")]

structure CatalogCurationDocument where
  revision : Nat
  listings : List CatalogCurationListing
  bounded : listings.length ≤ maxListings
  valid : (documentChecks revision listings).Pass
deriving DecidableEq

namespace CatalogCurationDocument

def make (revision : Nat) (listings : List CatalogCurationListing) :
    Except Exc CatalogCurationDocument :=
  if hbounded : listings.length ≤ maxListings then
    if hvalid : (documentChecks revision listings).Pass then
      .ok ⟨revision, listings, hbounded, hvalid⟩
    else .error (documentChecks revision listings).failure
  else .error (.validation none)

/-- What makes the listings a document at the revision. -/
def Forms (revision : Nat) (listings : List CatalogCurationListing) : Prop :=
  listings.length ≤ maxListings ∧ (documentChecks revision listings).Pass

instance (revision : Nat) (listings : List CatalogCurationListing) :
    Decidable (Forms revision listings) :=
  inferInstanceAs (Decidable (_ ∧ _))

theorem make_ok {revision : Nat} {listings : List CatalogCurationListing}
    (h : Forms revision listings) :
    make revision listings = .ok ⟨revision, listings, h.1, h.2⟩ := by
  rw [make, dif_pos h.1, dif_pos h.2]

theorem make_error {revision : Nat} {listings : List CatalogCurationListing}
    (h : ¬ Forms revision listings) : ∃ m, make revision listings = .error (.validation m) := by
  unfold make
  split
  case isTrue hbounded =>
    rw [dif_neg fun hvalid => h ⟨hbounded, hvalid⟩]
    exact ⟨_, rfl⟩
  case isFalse => exact ⟨none, rfl⟩

/-- No listings are a document. -/
theorem forms_empty : Forms 0 [] := by
  refine ⟨Nat.zero_le _, fun check hcheck => ?_⟩
  simp only [documentChecks, List.mem_cons, List.not_mem_nil, or_false] at hcheck
  rcases hcheck with rfl | rfl | rfl | rfl <;> rfl

variable (document : CatalogCurationDocument)

theorem ids_nodup : (document.listings.map (·.id)).Nodup :=
  of_decide_eq_true (document.valid _ List.mem_cons_self)

theorem sortOrders_nodup : (document.listings.map (·.sortOrder)).Nodup :=
  of_decide_eq_true (document.valid _ (List.mem_cons_of_mem _ List.mem_cons_self))

end CatalogCurationDocument

end

/-! ## A document -/

section

/-- Only ASCII text is printable, and it is in normal form. -/
abbrev asciiUnicode : UnicodeData := ⟨fun _ => false, fun s => s⟩

attribute [local instance] asciiUnicode

theorem khommo_isLive : Supplier.khommo.isLive = true := rfl

theorem isOfferProductId_a : isOfferProductId (str "a") = true := by decide +kernel

def sampleOffer : CatalogCurationOfferRef := ⟨.khommo, str "a", khommo_isLive, isOfferProductId_a⟩

def sampleListing : CatalogCurationListing where
  id := str "toolkit"
  name := str "KhoMMO toolkit"
  description := str "Edited by the owner."
  category := none
  visible := true
  sortOrder := 0
  retailPrice := some ⟨1200, str "VND", isCurrencyCode_vnd⟩
  offerRefs := [sampleOffer]
  fields := by decide +kernel
  valid := by decide +kernel

def sampleDocument : CatalogCurationDocument := ⟨7, [sampleListing], by decide, by decide +kernel⟩

end

end NyanShopBot.Catalog
