import NyanShopBot.Catalog.OfferKeys

/-!
# The save request

What the owner sends back: the listings of a workspace with the keys of their offers. A
listing carries what its validators check. A workspace as it is passes them, and what is
checked of its listings together, apart from its size (`workspaceFrom_valid`).
-/

namespace NyanShopBot.Catalog

open Py

theorem map_of_forall₂ {α β γ : Type} {r : α → β → Prop} {f : α → γ} {g : β → γ} {as : List α}
    {bs : List β} (h : List.Forall₂ r as bs) (hr : ∀ a b, r a b → g b = f a) :
    bs.map g = as.map f := by
  induction h with
  | nil => rfl
  | cons hab _ ih => rw [List.map_cons, List.map_cons, hr _ _ hab, ih]

/-- What is on the right is related to something on the left. -/
theorem exists_of_mem_forall₂ {α β : Type} {r : α → β → Prop} {as : List α} {bs : List β}
    (h : List.Forall₂ r as bs) : ∀ b ∈ bs, ∃ a ∈ as, r a b := by
  induction h with
  | nil => simp
  | cons hab _ ih =>
    intro b hb
    rcases List.mem_cons.1 hb with rfl | hb
    · exact ⟨_, List.mem_cons_self, hab⟩
    · obtain ⟨a, ha, hr⟩ := ih b hb
      exact ⟨a, List.mem_cons_of_mem _ ha, hr⟩

section

variable [UnicodeData]

/-! ## Models -/

/-- The fields of a listing, each on its own. -/
def listingInputFields (id name description : Str) (category : Option Str)
    (offerKeys : List Str) : Bool :=
  isListingId id && isDisplayName name && isDescription description && category.all isCategory &&
    1 ≤ offerKeys.length && offerKeys.length ≤ maxOffersPerListing && offerKeys.all isOfferKey

/-- `validate_listing`. -/
def listingInputChecks (visible : Bool) (retailPrice : Option Money) (offerKeys : List Str) :
    Checks := [
  (offerKeys.Nodup, "offer keys must be unique within a listing"),
  (retailPrice.all (·.currency = str "VND"), "curated retail price must use VND"),
  (!visible || retailPrice.isSome, "a visible listing requires a retail price")]

structure CatalogCurationListingInput where
  id : Str
  name : Str
  description : Str
  category : Option Str
  visible : Bool
  sortOrder : Nat
  retailPrice : Option Money
  offerKeys : List Str
  fields : listingInputFields id name description category offerKeys = true
  valid : (listingInputChecks visible retailPrice offerKeys).Pass

/-- `validate_request`, apart from the size. -/
def identityChecks (listings : List CatalogCurationListingInput) : Checks := [
  ((listings.map (·.id)).Nodup, "listing ids must be unique"),
  ((listings.map (·.sortOrder)).Nodup, "listing sort orders must be unique"),
  ((listings.flatMap (·.offerKeys)).Nodup,
    "one supplier offer cannot belong to multiple listings")]

/-! ## The listings of a workspace -/

/-- What a listing of the owner's view is made of. -/
structure ViewOf (listing : CatalogCurationListing) (view : CatalogCurationListingView) :
    Prop where
  id : view.id = listing.id
  name : view.name = listing.name
  description : view.description = listing.description
  category : view.category = listing.category
  visible : view.visible = listing.visible
  sortOrder : view.sortOrder = listing.sortOrder
  retailPrice : view.retailPrice = listing.retailPrice
  offerKeys : view.offerKeys = listing.offerRefs.map encodeOfferKey

theorem listingView_viewOf {listing : CatalogCurationListing} {view : CatalogCurationListingView}
    (h : listingView listing = .ok view) : ViewOf listing view := by
  unfold listingView at h
  dsimp only at h
  split at h
  · cases h
    exact ⟨rfl, rfl, rfl, rfl, rfl, rfl, rfl, rfl⟩
  · cases h

/-- What the owner is shown can be sent back. -/
structure CatalogCurationListingView.Valid (view : CatalogCurationListingView) : Prop where
  fields : listingInputFields view.id view.name view.description view.category view.offerKeys =
    true
  checks : (listingInputChecks view.visible view.retailPrice view.offerKeys).Pass

theorem ViewOf.valid {listing : CatalogCurationListing} {view : CatalogCurationListingView}
    (h : ViewOf listing view) : view.Valid := by
  have hf := listing.fields
  have hv := view.fields
  simp only [listingFields, Bool.and_eq_true] at hf
  simp only [listingViewFields, Bool.and_eq_true] at hv
  obtain ⟨⟨⟨⟨⟨hid, hname⟩, hdesc⟩, hcat⟩, -⟩, -⟩ := hf
  obtain ⟨⟨⟨-, hone⟩, hmost⟩, hkeys⟩ := hv
  refine ⟨?_, ?_⟩
  · rw [← h.id] at hid
    rw [← h.name] at hname
    rw [← h.description] at hdesc
    rw [← h.category] at hcat
    simp only [listingInputFields, hid, hname, hdesc, hcat, hone, hmost, hkeys, Bool.and_self]
  · have hnodup : listing.offerRefs.Nodup :=
      of_decide_eq_true (listing.valid _ List.mem_cons_self)
    have hvnd := listing.valid _ (List.mem_cons_of_mem _ List.mem_cons_self)
    have hprice := listing.valid _
      (List.mem_cons_of_mem _ (List.mem_cons_of_mem _ List.mem_cons_self))
    rw [h.visible, h.retailPrice, h.offerKeys]
    intro check hcheck
    simp only [listingInputChecks, List.mem_cons, List.not_mem_nil, or_false] at hcheck
    rcases hcheck with rfl | rfl | rfl
    · exact decide_eq_true (hnodup.map encodeOfferKey_injective)
    · exact hvnd
    · exact hprice

/-- Listings that can be sent back together. -/
structure CatalogCurationWorkspace.Valid (workspace : CatalogCurationWorkspace) : Prop where
  listings : ∀ view ∈ workspace.listings, view.Valid
  bounded : workspace.listings.length ≤ maxListings
  ids : (workspace.listings.map (·.id)).Nodup
  sortOrders : (workspace.listings.map (·.sortOrder)).Nodup
  keys : (workspace.listings.flatMap (·.offerKeys)).Nodup

/-- **A workspace can be sent back as it is**, apart from its size. -/
theorem workspaceFrom_valid {document : CatalogCurationDocument} {products : List CatalogProduct}
    {sourcePartial : Bool} {workspace : CatalogCurationWorkspace}
    (h : workspaceFrom document products sourcePartial = .ok workspace) : workspace.Valid := by
  obtain ⟨offers, -, h⟩ := except_bind_ok.1 h
  obtain ⟨views, hviews, h⟩ := except_bind_ok.1 h
  obtain rfl := Except.ok.inj h
  have hviewOf := (forall₂_of_mapM hviews).imp fun _ _ => listingView_viewOf
  have hperm : document.sortedListings.Perm document.listings := List.perm_insertionSort _ _
  refine ⟨?_, ?_, ?_, ?_, ?_⟩
  · intro view hview
    obtain ⟨listing, -, hl⟩ := exists_of_mem_forall₂ hviewOf view hview
    exact hl.valid
  · show views.length ≤ maxListings
    rw [← hviewOf.length_eq, hperm.length_eq]
    exact document.bounded
  · show (views.map (·.id)).Nodup
    rw [map_of_forall₂ hviewOf fun _ _ hs => hs.id]
    exact ((hperm.map _).nodup_iff).2 document.ids_nodup
  · show (views.map (·.sortOrder)).Nodup
    rw [map_of_forall₂ hviewOf fun _ _ hs => hs.sortOrder]
    exact ((hperm.map _).nodup_iff).2 document.sortOrders_nodup
  · have hrefs : (document.listings.flatMap (·.offerRefs)).Nodup := by
      have hcheck := document.valid _
        (List.mem_cons_of_mem _ (List.mem_cons_of_mem _ List.mem_cons_self))
      exact of_decide_eq_true hcheck
    have hkeys := map_of_forall₂ hviewOf fun _ _ hs => hs.offerKeys
    show (views.flatMap (·.offerKeys)).Nodup
    rw [List.flatMap_def, hkeys]
    have hflat : (document.sortedListings.map fun l => l.offerRefs.map encodeOfferKey).flatten =
        (document.sortedListings.flatMap (·.offerRefs)).map encodeOfferKey :=
      List.map_flatMap.symm
    rw [hflat]
    exact (((hperm.flatMap_right _).nodup_iff).2 hrefs).map encodeOfferKey_injective

end

end NyanShopBot.Catalog
