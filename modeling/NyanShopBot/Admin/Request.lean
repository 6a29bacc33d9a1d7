import Mathlib.Data.Nat.Digits.Lemmas
import NyanShopBot.Admin.Assignments
import NyanShopBot.Catalog.SaveRequest

/-!
# The draft as a request

The backend sends a workspace (`workspaceWire`) and reads a request (`readRequest`). A draft
that is `Sendable` passes the validators of both sides (`Ready.Sendable.saveable`), and the
draft of a workspace is (`mapWorkspace_sendable`).
-/

namespace NyanShopBot.Admin

open Py (Str str chr)
open Js
open Catalog (isListingId isDisplayName isDescription isCategory isOfferKey maxOffersPerListing
  maxListings)

/-! ## What the backend sends -/

def moneyWire (price : Catalog.Money) : Money where
  amountMinor := .ofRat (price.amountMinor : Int)
  currency := price.currency
  unit := str "minor"

def offerWire (offer : Catalog.CatalogCurationOffer) : CatalogCurationOfferWire where
  key := offer.key
  supplier := offer.supplier.value
  supplierProductId := offer.supplierProductId
  name := offer.name
  description := offer.description
  price := moneyWire offer.price
  availableQuantity := .ofInt offer.availableQuantity

def listingWire (view : Catalog.CatalogCurationListingView) : CatalogCurationListingWire where
  id := view.id
  name := view.name
  description := view.description
  category := view.category
  visible := view.visible
  sortOrder := .ofInt view.sortOrder
  retailPrice := view.retailPrice.map moneyWire
  offerKeys := view.offerKeys

def workspaceWire (workspace : Catalog.CatalogCurationWorkspace) :
    CatalogCurationWorkspaceWire where
  revision := .ofInt workspace.revision
  offers := workspace.offers.map offerWire
  listings := workspace.listings.map listingWire
  unresolvedOfferCount := .ofInt workspace.unresolvedOfferCount
  sourcePartial := workspace.sourcePartial

theorem isRetailPrice_moneyWire {price : Catalog.Money} (hvnd : price.currency = str "VND")
    (h : price.amountMinor ≤ maxSafeInteger) : isRetailPrice (moneyWire price) = true := by
  have hunit : (moneyWire price).unit = str "minor" := rfl
  have hcurrency : (moneyWire price).currency = str "VND" := hvnd
  have hamount : (moneyWire price).amountMinor = .finite price.amountMinor := ofRat_natCast h
  rw [isRetailPrice, hunit, hcurrency, hamount, isSafeInteger_natCast h, isNegative_natCast]
  simp

/-! ## What it reads -/

def readMoney (price : Money) : Option Catalog.Money := do
  let amountMinor ← wholeNumber price.amountMinor
  if h : Catalog.isCurrencyCode price.currency = true ∧ price.unit = str "minor" then
    some ⟨amountMinor, price.currency, h.1⟩
  else none

def readPrice : Option Money → Option (Option Catalog.Money)
  | none => some none
  | some price => (readMoney price).map some

theorem readPrice_some {retailPrice : Option Money} (h : retailPrice.all isRetailPrice = true) :
    ∃ price, readPrice retailPrice = some price ∧ (price.all (·.currency = str "VND")) = true ∧
      price.isSome = retailPrice.isSome := by
  cases retailPrice with
  | none => exact ⟨none, rfl, rfl, rfl⟩
  | some price =>
    simp only [Option.all_some, isRetailPrice, Bool.and_eq_true, decide_eq_true_eq,
      Bool.not_eq_true'] at h
    obtain ⟨⟨⟨hsafe, hneg⟩, hvnd⟩, hunit⟩ := h
    have hcode : Catalog.isCurrencyCode price.currency = true := by
      rw [hvnd]
      exact Catalog.isCurrencyCode_vnd
    obtain ⟨n, hn⟩ : ∃ n, wholeNumber price.amountMinor = some n := by
      cases ha : price.amountMinor with
      | finite q =>
        rw [ha] at hsafe hneg
        exact ⟨_, by rw [wholeNumber, hsafe, hneg]; rfl⟩
      | _ =>
        rw [ha] at hsafe
        cases hsafe
    refine ⟨some ⟨n, price.currency, hcode⟩, ?_, decide_eq_true hvnd, rfl⟩
    rw [readPrice, readMoney, hn, Option.bind_eq_bind, Option.bind_some, dif_pos ⟨hcode, hunit⟩]
    rfl

theorem addKeys_some {keys more : List Str} (h : (more ++ keys).Nodup) :
    ∃ keys', addKeys keys more = some keys' ∧ keys'.Perm (more ++ keys) := by
  induction more generalizing keys with
  | nil => exact ⟨keys, rfl, .refl _⟩
  | cons key more ih =>
    obtain ⟨hkey, -⟩ := List.nodup_cons.1 h
    have hperm : (key :: (more ++ keys)).Perm (more ++ key :: keys) := List.perm_middle.symm
    obtain ⟨keys', hadd, hkeys'⟩ := ih (hperm.nodup_iff.1 h)
    refine ⟨keys', ?_, hkeys'.trans hperm.symm⟩
    rw [addKeys, if_neg fun hmem => hkey (List.mem_append_right _ hmem)]
    exact hadd

/-- Where every call has a value, the calls in turn have the list of the values. -/
theorem mapM_some {α β : Type} {f : α → Option β} {R : α → β → Prop} : ∀ {l : List α},
    (∀ a ∈ l, ∃ b, f a = some b ∧ R a b) → ∃ bs, l.mapM f = some bs ∧ List.Forall₂ R l bs
  | [], _ => ⟨[], rfl, .nil⟩
  | a :: l, h => by
    obtain ⟨b, hb, hR⟩ := h a List.mem_cons_self
    obtain ⟨bs, hbs, hall⟩ := mapM_some fun x hx => h x (List.mem_cons_of_mem a hx)
    exact ⟨b :: bs, by rw [List.mapM_cons, hb, hbs]; rfl, .cons hR hall⟩

section

variable [Py.UnicodeData]

/-- `CatalogCurationListingInput.model_validate`. -/
def readListing (listing : CatalogCurationListingWire) :
    Option Catalog.CatalogCurationListingInput := do
  let sortOrder ← wholeNumber listing.sortOrder.toFloat
  let retailPrice ← readPrice listing.retailPrice
  if hfields : Catalog.listingInputFields listing.id listing.name listing.description
      listing.category listing.offerKeys = true then
    if hvalid : (Catalog.listingInputChecks listing.visible retailPrice listing.offerKeys).Pass then
      some ⟨listing.id, listing.name, listing.description, listing.category, listing.visible,
        sortOrder, retailPrice, listing.offerKeys, hfields, hvalid⟩
    else none
  else none

/-- `CatalogCurationSaveRequest.model_validate`, apart from the size limit. -/
def readRequest (request : CatalogCurationSaveWire) :
    Option (Nat × List Catalog.CatalogCurationListingInput) := do
  let expectedRevision ← wholeNumber request.expectedRevision.toFloat
  let listings ← request.listings.mapM readListing
  if listings.length ≤ maxListings ∧ (Catalog.identityChecks listings).Pass then
    some (expectedRevision, listings)
  else none

/-- No listing is empty, and both sides accept the draft. -/
def Ready.Saveable (current : Ready) : Prop :=
  (∀ listing ∈ current.listings, listing.offerKeys ≠ []) ∧
    validateDraft current.listings = none ∧ (readRequest (saveRequest current)).isSome = true

instance (current : Ready) : Decidable current.Saveable := inferInstanceAs (Decidable (_ ∧ _))

/-! ## Drafts that are accepted -/

/-- What the validators of both sides take of a listing. -/
structure CatalogCurationListing.Sendable (listing : CatalogCurationListing) : Prop where
  id : isListingId listing.id = true
  name : isDisplayName (trim listing.name) = true
  description : isDescription (trim listing.description) = true
  category : (trimOrNull listing.category).all isCategory = true
  sortOrder : ∃ n : Nat, n ≤ maxSafeInteger ∧ listing.sortOrder = .finite n
  price : listing.retailPrice.all isRetailPrice = true
  priced : listing.visible = true → listing.retailPrice ≠ none
  keys_ne : listing.offerKeys ≠ []
  keys_most : listing.offerKeys.length ≤ maxOffersPerListing
  keys : ∀ key ∈ listing.offerKeys, isOfferKey key = true

structure Ready.Sendable (current : Ready) : Prop where
  consistent : current.Consistent
  listings : ∀ listing ∈ current.listings, listing.Sendable
  sortOrders : (current.listings.map (·.sortOrder)).Nodup
  bounded : current.listings.length ≤ maxListings
  offers : ∀ offer ∈ current.offers, isOfferKey offer.key = true
  revision : ∃ n : Nat, n ≤ maxSafeInteger ∧ current.revision = .finite n

/-! ### By the frontend -/

theorem trim_ne_of_name {listing : CatalogCurationListing} (h : listing.Sendable) :
    trim listing.name ≠ [] ∧ trim listing.description ≠ [] := by
  have hname := h.name
  have hdesc := h.description
  simp only [isDisplayName, isDescription, Catalog.textChecks, Catalog.hasLength,
    Bool.and_eq_true, decide_eq_true_eq] at hname hdesc
  refine ⟨fun he => ?_, fun he => ?_⟩
  · rw [he] at hname
    exact absurd hname.1.1.2 (by decide)
  · rw [he] at hdesc
    exact absurd hdesc.1.1.2 (by decide)

theorem validateFrom_none {listings : List CatalogCurationListing} {keys : List Str}
    (h : ∀ listing ∈ listings, listing.Sendable)
    (hkeys : (listings.flatMap (·.offerKeys) ++ keys).Nodup) :
    validateFrom keys listings = none := by
  induction listings generalizing keys with
  | nil => rfl
  | cons listing listings ih =>
    have hl := h listing List.mem_cons_self
    obtain ⟨hname, hdesc⟩ := trim_ne_of_name hl
    rw [List.flatMap_cons] at hkeys
    have hperm : (listing.offerKeys ++ listings.flatMap (·.offerKeys) ++ keys).Perm
        (listings.flatMap (·.offerKeys) ++ (listing.offerKeys ++ keys)) := by
      rw [← List.append_assoc]
      exact List.perm_append_comm.append_right keys
    have hnext := hperm.nodup_iff.1 hkeys
    obtain ⟨keys', hadd, hkeys'⟩ := addKeys_some (hnext.of_append_right)
    have hprice : ¬ (listing.visible = true ∧ listing.retailPrice = none) :=
      fun hv => hl.priced hv.1 hv.2
    have hretail : ¬ listing.retailPrice.any (!isRetailPrice ·) = true := by
      have := hl.price
      cases hr : listing.retailPrice with
      | none => simp
      | some price =>
        rw [hr] at this
        simpa using this
    rw [validateFrom, if_neg (not_or.2 ⟨hname, hdesc⟩), if_neg hl.keys_ne, if_neg hprice,
      if_neg hretail, hadd]
    refine ih (fun l hl => h l (List.mem_cons_of_mem _ hl)) ?_
    exact ((hkeys'.append_left _).nodup_iff).2 hnext

theorem Ready.Sendable.validateDraft {current : Ready} (h : current.Sendable) :
    validateDraft current.listings = none := by
  refine validateFrom_none h.listings ?_
  rw [List.append_nil]
  exact h.consistent.keys

/-! ### By the backend -/

/-- What the backend reads of a listing. -/
structure Reads (listing : CatalogCurationListing) (input : Catalog.CatalogCurationListingInput) :
    Prop where
  id : input.id = listing.id
  sortOrder : listing.sortOrder = .finite input.sortOrder
  offerKeys : input.offerKeys = listing.offerKeys

theorem CatalogCurationListing.Sendable.readListing {listing : CatalogCurationListing}
    (h : listing.Sendable) (hkeys : listing.offerKeys.Nodup) :
    ∃ input, readListing (toWire listing) = some input ∧ Reads listing input := by
  obtain ⟨n, hn, hsort⟩ := h.sortOrder
  obtain ⟨price, hread, hvnd, hsome⟩ := readPrice_some h.price
  have hpos : 1 ≤ listing.offerKeys.length := List.length_pos_iff.2 h.keys_ne
  have hall : listing.offerKeys.all isOfferKey = true := List.all_eq_true.2 h.keys
  have hfields : Catalog.listingInputFields listing.id (trim listing.name)
      (trim listing.description) (trimOrNull listing.category) listing.offerKeys = true := by
    simp only [Catalog.listingInputFields, h.id, h.name, h.description, h.category, hpos,
      h.keys_most, hall, decide_true, Bool.and_self]
  have hvalid : (Catalog.listingInputChecks listing.visible price listing.offerKeys).Pass := by
    intro check hcheck
    simp only [Catalog.listingInputChecks, List.mem_cons, List.not_mem_nil, or_false] at hcheck
    rcases hcheck with rfl | rfl | rfl
    · exact decide_eq_true hkeys
    · exact hvnd
    · rw [Bool.or_eq_true, Bool.not_eq_true', hsome]
      cases hv : listing.visible with
      | false => exact .inl rfl
      | true => exact .inr (Option.isSome_iff_ne_none.2 (h.priced hv))
  refine ⟨⟨listing.id, trim listing.name, trim listing.description, trimOrNull listing.category,
    listing.visible, n, price, listing.offerKeys, hfields, hvalid⟩, ?_, rfl, hsort, rfl⟩
  have hnum : wholeNumber listing.sortOrder.toFloat = some n := by
    rw [hsort]
    exact wholeNumber_natCast hn
  show Admin.readListing _ = _
  unfold Admin.readListing toWire
  simp only [hnum, hread, Option.bind_eq_bind, Option.bind_some, dif_pos hfields, dif_pos hvalid]

theorem Reads.sortOrders {listings : List CatalogCurationListing}
    {inputs : List Catalog.CatalogCurationListingInput} (h : List.Forall₂ Reads listings inputs)
    (hlistings : (listings.map (·.sortOrder)).Nodup) : (inputs.map (·.sortOrder)).Nodup := by
  have hmap : (inputs.map (·.sortOrder)).map (fun n : Nat => Number.finite n) =
      listings.map (·.sortOrder) := by
    rw [List.map_map]
    exact Catalog.map_of_forall₂ h fun _ _ hr => hr.sortOrder.symm
  rw [← hmap] at hlistings
  exact hlistings.of_map

/-- Such a draft is accepted by both sides. -/
theorem Ready.Sendable.saveable {current : Ready} (h : current.Sendable) : current.Saveable := by
  refine ⟨fun l hl => (h.listings l hl).keys_ne, h.validateDraft, ?_⟩
  obtain ⟨n, hn, hrevision⟩ := h.revision
  obtain ⟨hown, -⟩ := List.nodup_flatMap.1 h.consistent.keys
  obtain ⟨inputs, hinputs, hreads⟩ := mapM_some fun l hl =>
    (h.listings l hl).readListing (hown l hl)
  replace hinputs : current.listings.mapM (readListing ∘ toWire) = some inputs := hinputs
  have hids := Catalog.map_of_forall₂ hreads fun _ _ hr => hr.id
  have hkeys := Catalog.map_of_forall₂ hreads fun _ _ hr => hr.offerKeys
  have hpass : (Catalog.identityChecks inputs).Pass := by
    intro check hcheck
    simp only [Catalog.identityChecks, List.mem_cons, List.not_mem_nil, or_false] at hcheck
    rcases hcheck with rfl | rfl | rfl
    · rw [hids]
      exact decide_eq_true h.consistent.ids
    · exact decide_eq_true (Reads.sortOrders hreads h.sortOrders)
    · rw [List.flatMap_def, hkeys]
      exact decide_eq_true h.consistent.keys
  have hmost : inputs.length ≤ maxListings := by
    rw [← hreads.length_eq]
    exact h.bounded
  have hnum : wholeNumber current.revision.toFloat = some n := by
    rw [hrevision]
    exact wholeNumber_natCast hn
  unfold readRequest saveRequest
  rw [hnum, Option.bind_eq_bind, Option.bind_some, List.mapM_map, hinputs, Option.bind_eq_bind,
    Option.bind_some, if_pos ⟨hmost, hpass⟩]
  rfl

/-! ## The first draft -/

/-- The frontend reads the numbers as they are. -/
structure SafeNumbers (workspace : Catalog.CatalogCurationWorkspace) : Prop where
  revision : workspace.revision ≤ maxSafeInteger
  sortOrders : ∀ view ∈ workspace.listings, view.sortOrder ≤ maxSafeInteger
  prices : ∀ view ∈ workspace.listings, ∀ price, view.retailPrice = some price →
    price.amountMinor ≤ maxSafeInteger

theorem bom_not_mem {s : Str} (hbom : Py.UnicodeData.printable bom = false)
    (h : ∀ c ∈ s, c = chr '\n' ∨ Py.isPrintable c = true) : bom ∉ s := by
  intro hmem
  rcases h bom hmem with he | hp
  · exact absurd (congrArg Fin.val he) (by decide)
  · rw [Py.isPrintable, if_neg (by decide), if_neg (by decide), hbom] at hp
    cases hp

/-- The frontend trims nothing of a text that the backend has checked. -/
theorem trim_displayText {s : Str} {most : Nat} (hbom : Py.UnicodeData.printable bom = false)
    (h : Catalog.textChecks most Catalog.displayTextChecks s = true) : trim s = s := by
  rw [Catalog.textChecks, Bool.and_eq_true, decide_eq_true_eq] at h
  obtain ⟨-, h⟩ := h
  have hprint := h _ (List.mem_cons_of_mem _ (List.mem_cons_of_mem _ List.mem_cons_self))
  refine trim_eq_self (of_decide_eq_true (h _ List.mem_cons_self)) (bom_not_mem hbom ?_)
  exact fun c hc => .inr (List.all_eq_true.1 hprint c hc)

theorem trim_multilineText {s : Str} {most : Nat} (hbom : Py.UnicodeData.printable bom = false)
    (h : Catalog.textChecks most Catalog.multilineTextChecks s = true) : trim s = s := by
  rw [Catalog.textChecks, Bool.and_eq_true, decide_eq_true_eq] at h
  obtain ⟨-, h⟩ := h
  have hprint := h _ (List.mem_cons_of_mem _ (List.mem_cons_of_mem _ List.mem_cons_self))
  refine trim_eq_self (of_decide_eq_true (h _ List.mem_cons_self)) (bom_not_mem hbom ?_)
  intro c hc
  simpa using List.all_eq_true.1 hprint c hc

theorem trimOrNull_category {category : Option Str}
    (hbom : Py.UnicodeData.printable bom = false) (h : category.all isCategory = true) :
    trimOrNull category = category := by
  cases category with
  | none => rfl
  | some c =>
    rw [Option.all_some, isCategory] at h
    have hne : c ≠ [] := by
      rintro rfl
      simp [Catalog.textChecks, Catalog.hasLength] at h
    simp [trimOrNull, trim_displayText hbom h, hne]

/-- A listing of the workspace can be sent back. -/
theorem sendable_listingWire {workspace : Catalog.CatalogCurationWorkspace}
    (hbom : Py.UnicodeData.printable bom = false) (hsafe : SafeNumbers workspace)
    {view : Catalog.CatalogCurationListingView} (hmem : view ∈ workspace.listings)
    (h : view.Valid) : (mapListing (listingWire view)).Sendable := by
  have hf := h.fields
  simp only [Catalog.listingInputFields, Bool.and_eq_true] at hf
  obtain ⟨⟨⟨⟨⟨⟨hid, hname⟩, hdesc⟩, hcat⟩, hone⟩, hmost⟩, hkeys⟩ := hf
  have hvnd := h.checks _ (List.mem_cons_of_mem _ List.mem_cons_self)
  have hpriced := h.checks _ (List.mem_cons_of_mem _ (List.mem_cons_of_mem _ List.mem_cons_self))
  have hsort := hsafe.sortOrders view hmem
  refine ⟨hid, ?_, ?_, ?_, ⟨view.sortOrder, hsort, Number.ofInt_natCast hsort⟩, ?_, ?_, ?_, ?_, ?_⟩
  · show isDisplayName (trim view.name) = true
    rw [trim_displayText hbom hname]
    exact hname
  · show isDescription (trim view.description) = true
    rw [trim_multilineText hbom hdesc]
    exact hdesc
  · show (trimOrNull view.category).all isCategory = true
    rw [trimOrNull_category hbom hcat]
    exact hcat
  · show (view.retailPrice.map moneyWire).all isRetailPrice = true
    cases hp : view.retailPrice with
    | none => rfl
    | some price =>
      rw [hp] at hvnd
      exact isRetailPrice_moneyWire (of_decide_eq_true hvnd) (hsafe.prices view hmem price hp)
  · intro hv
    have hv' : view.visible = true := hv
    rw [hv'] at hpriced
    show view.retailPrice.map moneyWire ≠ none
    rw [Ne, Option.map_eq_none_iff]
    exact Option.isSome_iff_ne_none.1 hpriced
  · show view.offerKeys ≠ []
    exact List.length_pos_iff.1 (of_decide_eq_true hone)
  · exact of_decide_eq_true hmost
  · exact List.all_eq_true.1 hkeys

theorem mapWorkspace_sendable {workspace : Catalog.CatalogCurationWorkspace}
    (hbom : Py.UnicodeData.printable bom = false) (hsafe : SafeNumbers workspace)
    (h : workspace.Valid) {save : CatalogCurationSaveState} {current : Ready}
    (hcurrent : mapWorkspace (workspaceWire workspace) save = .ready current) :
    current.Sendable := by
  have hids : ((workspaceWire workspace).listings.map (·.id)).Nodup := by
    show ((workspace.listings.map listingWire).map (·.id)).Nodup
    rw [List.map_map]
    exact h.ids
  have hkeys : ((workspaceWire workspace).listings.flatMap (·.offerKeys)).Nodup := by
    show ((workspace.listings.map listingWire).flatMap (·.offerKeys)).Nodup
    rw [List.flatMap_map]
    exact h.keys
  have hconsistent := mapWorkspace_consistent hids hkeys save
  rw [hcurrent] at hconsistent
  unfold mapWorkspace at hcurrent
  split at hcurrent
  · cases hcurrent
  · obtain rfl := CatalogCurationState.ready.inj hcurrent
    have hperm : (sortListings ((workspaceWire workspace).listings.map mapListing)).Perm
        (workspace.listings.map (mapListing ∘ listingWire)) := by
      rw [← List.map_map]
      exact perm_sortBy _
    refine ⟨hconsistent, ?_, ?_, ?_, ?_, _, hsafe.revision, Number.ofInt_natCast hsafe.revision⟩
    · intro l hl
      obtain ⟨view, hview, rfl⟩ := List.mem_map.1 (hperm.subset hl)
      exact sendable_listingWire hbom hsafe hview (h.listings view hview)
    · refine ((hperm.map _).nodup_iff).2 ?_
      have hnumbers : ((workspace.listings.map (mapListing ∘ listingWire)).map (·.sortOrder)) =
          (workspace.listings.map (·.sortOrder)).map fun n : Nat => Number.finite n := by
        rw [List.map_map, List.map_map]
        exact List.map_congr_left fun view hview =>
          Number.ofInt_natCast (hsafe.sortOrders view hview)
      rw [hnumbers]
      exact h.sortOrders.map fun m n hmn => Nat.cast_injective (Number.finite.inj hmn)
    · refine le_trans (le_of_eq ?_) h.bounded
      exact hperm.length_eq.trans (List.length_map _)
    · intro offer hoffer
      obtain ⟨o, ho, rfl⟩ := List.mem_map.1 hoffer
      obtain ⟨o', -, rfl⟩ := List.mem_map.1 ho
      have hf := o'.fields
      simp only [Catalog.curationOfferFields, Bool.and_eq_true] at hf
      exact hf.1.1.1.1

end

end NyanShopBot.Admin
