import NyanShopBot.Js.Basic

/-!
# The curation draft

The state of `useCatalogCurationState`: a workspace is mapped to a draft, the owner's
operations edit the draft, and it is saved as a whole. An `Event` is a callback of the hook
or the continuation of one of its requests. `Edits` is what one editing operation does to a
draft that is not being saved (`Edit.apply_ready`).
-/

namespace NyanShopBot.Admin

open Py (Str str)
open Js

/-! ## Wire -/

structure Money where
  amountMinor : Py.PyFloat
  currency : Str
  unit : Str
deriving DecidableEq

structure CatalogCurationOfferWire where
  key : Str
  supplier : Str
  supplierProductId : Str
  name : Str
  description : Str
  price : Money
  availableQuantity : Number

structure CatalogCurationListingWire where
  id : Str
  name : Str
  description : Str
  category : Option Str
  visible : Bool
  sortOrder : Number
  retailPrice : Option Money
  offerKeys : List Str

structure CatalogCurationWorkspaceWire where
  revision : Number
  offers : List CatalogCurationOfferWire
  listings : List CatalogCurationListingWire
  unresolvedOfferCount : Number
  sourcePartial : Bool

structure CatalogCurationSaveWire where
  expectedRevision : Number
  listings : List CatalogCurationListingWire

/-! ## State -/

structure CatalogCurationOffer where
  key : Str
  supplier : Str
  supplierProductId : Str
  name : Str
  description : Str
  price : Money
  availableQuantity : Number
  assignedListingId : Option Str

structure CatalogCurationListing where
  id : Str
  name : Str
  description : Str
  category : Option Str
  visible : Bool
  sortOrder : Number
  retailPrice : Option Money
  offerKeys : List Str

/-- The fields that an edit may set. -/
structure CatalogCurationListingPatch where
  name : Option Str
  description : Option Str
  category : Option (Option Str)
  visible : Option Bool
  retailPrice : Option (Option Money)

inductive CatalogCurationSaveState where
  | clean | dirty | saving | saved
  | error (message : Str)
  | conflict (message : Str)
deriving DecidableEq

/-- The draft of the state `ready`. -/
structure Ready where
  revision : Number
  offers : List CatalogCurationOffer
  listings : List CatalogCurationListing
  sourcePartial : Bool
  unresolvedOfferCount : Number
  save : CatalogCurationSaveState

inductive CatalogCurationState where
  | loading
  | error (message : Str)
  | empty
  | ready (current : Ready)

/-- `offers.map` with the assignments that the listings give. -/
def assignOffers (listings : List CatalogCurationListing) (offers : List CatalogCurationOffer) :
    List CatalogCurationOffer :=
  offers.map fun offer =>
    { offer with
      assignedListingId := owner (listings.map fun l => (l.id, l.offerKeys)) offer.key }

def mapListing (listing : CatalogCurationListingWire) : CatalogCurationListing where
  id := listing.id
  name := listing.name
  description := listing.description
  category := listing.category
  visible := listing.visible
  sortOrder := listing.sortOrder
  retailPrice := listing.retailPrice
  offerKeys := listing.offerKeys

def mapOffer (listings : List CatalogCurationListingWire) (offer : CatalogCurationOfferWire) :
    CatalogCurationOffer where
  key := offer.key
  supplier := offer.supplier
  supplierProductId := offer.supplierProductId
  name := offer.name
  description := offer.description
  price := offer.price
  availableQuantity := offer.availableQuantity
  assignedListingId := owner (listings.map fun l => (l.id, l.offerKeys)) offer.key

/-- The listings by their sort orders. -/
def sortListings (listings : List CatalogCurationListing) : List CatalogCurationListing :=
  sortBy CatalogCurationListing.sortOrder listings

def mapWorkspace (workspace : CatalogCurationWorkspaceWire) (save : CatalogCurationSaveState) :
    CatalogCurationState :=
  if workspace.offers = [] ∧ workspace.listings = [] ∧ workspace.sourcePartial = false ∧
      workspace.unresolvedOfferCount = .finite 0 then .empty
  else .ready {
    revision := workspace.revision
    offers := workspace.offers.map (mapOffer workspace.listings)
    listings := sortListings (workspace.listings.map mapListing)
    sourcePartial := workspace.sourcePartial
    unresolvedOfferCount := workspace.unresolvedOfferCount
    save := save }

/-- `text?.trim() || null`. -/
def trimOrNull (text : Option Str) : Option Str := (text.map trim).filter (· ≠ [])

def toWire (listing : CatalogCurationListing) : CatalogCurationListingWire where
  id := listing.id
  name := trim listing.name
  description := trim listing.description
  category := trimOrNull listing.category
  visible := listing.visible
  sortOrder := listing.sortOrder
  retailPrice := listing.retailPrice
  offerKeys := listing.offerKeys

/-- What the clock and the random generator give one attempt: the digits of the fraction
in base 36. -/
structure Draw where
  now : Int
  inRange : now.natAbs ≤ maxTime
  digits : List (Fin 36)

/-- `nyan-${Date.now().toString(36)}-${Math.random().toString(36).slice(2, 8)}`. -/
def candidateId (draw : Draw) : Str :=
  str "nyan-" ++ toString36 draw.now ++ str "-" ++ (draw.digits.take 6).map fun d => digit36 d.val

/-- Ten attempts; none where all of them throw. -/
def createListingId (existing : List CatalogCurationListing) (draws : Fin 10 → Draw) :
    Option Str :=
  ((List.ofFn draws).map candidateId).find? fun id => !(existing.map (·.id)).contains id

def emptyTextMessage : Str := str "Tên và mô tả khách hàng không được để trống."

def emptyListingMessage : Str := str "Mỗi mục Nyan phải giữ ít nhất một sản phẩm nguồn."

def missingPriceMessage : Str := str "Mục đang hiển thị phải có giá bán lẻ VND."

def priceMessage : Str := str "Giá bán lẻ phải là số nguyên không âm theo đơn vị VND minor."

def sharedOfferMessage : Str := str "Một sản phẩm nguồn không thể thuộc hai mục Nyan."

def isRetailPrice (price : Money) : Bool :=
  isSafeInteger price.amountMinor && !isNegative price.amountMinor &&
    price.currency = str "VND" && price.unit = str "minor"

/-- Puts keys into a set, none where one is in it. -/
def addKeys (keys : List Str) : List Str → Option (List Str)
  | [] => some keys
  | key :: more => if key ∈ keys then none else addKeys (key :: keys) more

/-- The first message of `validateDraft` after listings with these keys. -/
def validateFrom (keys : List Str) : List CatalogCurationListing → Option Str
  | [] => none
  | listing :: listings =>
    if trim listing.name = [] ∨ trim listing.description = [] then some emptyTextMessage
    else if listing.offerKeys = [] then some emptyListingMessage
    else if listing.visible = true ∧ listing.retailPrice = none then some missingPriceMessage
    else if listing.retailPrice.any (!isRetailPrice ·) then some priceMessage
    else match addKeys keys listing.offerKeys with
      | none => some sharedOfferMessage
      | some keys => validateFrom keys listings

def validateDraft (listings : List CatalogCurationListing) : Option Str := validateFrom [] listings

/-! ## Operations -/

/-- The draft with new listings, and the offers assigned as these say. -/
def redraft (current : Ready) (listings : List CatalogCurationListing) : Ready :=
  { current with
    offers := assignOffers listings current.offers
    listings := listings
    save := .dirty }

/-- `mutate` gives the new listings, none where it throws. -/
def updateReady (mutate : Ready → Option (List CatalogCurationListing)) :
    CatalogCurationState → Option CatalogCurationState
  | .ready current =>
    if current.save = .saving then some (.ready current)
    else (mutate current).map fun listings => .ready (redraft current listings)
  | state => some state

/-- The new listing of an offer. -/
def listingOf (offer : CatalogCurationOffer) (id : Str) (sortOrder : Nat) :
    CatalogCurationListing where
  id := id
  name := offer.name
  description := offer.description
  category := none
  visible := false
  sortOrder := .finite sortOrder
  retailPrice := none
  offerKeys := [offer.key]

def onCreateListing (offerKey : Str) (draws : Fin 10 → Draw) :
    CatalogCurationState → Option CatalogCurationState :=
  updateReady fun current =>
    match current.offers.find? fun offer =>
      offer.key = offerKey && offer.assignedListingId = none with
    | none => some current.listings
    | some offer => (createListingId current.listings draws).map fun id =>
        current.listings ++ [listingOf offer id current.listings.length]

/-- The listings with the key in the one with the id only. -/
def moveKey (offerKey : Str) (listingId : Option Str) (listing : CatalogCurationListing) :
    CatalogCurationListing :=
  let without := listing.offerKeys.filter (· ≠ offerKey)
  if some listing.id = listingId then { listing with offerKeys := without ++ [offerKey] }
  else { listing with offerKeys := without }

def onAssignOffer (offerKey : Str) (listingId : Option Str) :
    CatalogCurationState → CatalogCurationState
  | .ready current =>
    if current.save = .saving then .ready current
    else
      let source := current.listings.find? (·.offerKeys.contains offerKey)
      if listingId = none ∧ source.any (·.offerKeys.length = 1) then
        .ready { current with save := .error emptyListingMessage }
      else .ready (redraft current (current.listings.map (moveKey offerKey listingId)))
  | state => state

def applyPatch (patch : CatalogCurationListingPatch) (listing : CatalogCurationListing) :
    CatalogCurationListing :=
  { listing with
    name := patch.name.getD listing.name
    description := patch.description.getD listing.description
    category := patch.category.getD listing.category
    visible := patch.visible.getD listing.visible
    retailPrice := patch.retailPrice.getD listing.retailPrice }

def onUpdateListing (listingId : Str) (patch : CatalogCurationListingPatch) :
    CatalogCurationState → Option CatalogCurationState :=
  updateReady fun current => some (current.listings.map fun listing =>
    if listing.id = listingId then applyPatch patch listing else listing)

inductive Direction where
  | up | down
deriving DecidableEq

/-- `map((listing, sortOrder) => ({ ...listing, sortOrder }))`. -/
def renumber (listings : List CatalogCurationListing) : List CatalogCurationListing :=
  listings.zipIdx.map fun p => { p.1 with sortOrder := .finite p.2 }

/-- The index that a listing moves to, none where it is the first or the last one. -/
def targetIndex (direction : Direction) (index length : Nat) : Option Nat :=
  match direction with
  | .up => if index = 0 then none else some (index - 1)
  | .down => if index + 1 < length then some (index + 1) else none

def onMoveListing (listingId : Str) (direction : Direction) :
    CatalogCurationState → Option CatalogCurationState :=
  updateReady fun current =>
    let ordered := sortListings current.listings
    match ordered.findIdx? (·.id = listingId) with
    | none => some current.listings
    | some index =>
      match targetIndex direction index ordered.length with
      | none => some current.listings
      | some target => some (renumber (swap ordered index target))

def onDeleteListing (listingId : Str) : CatalogCurationState → Option CatalogCurationState :=
  updateReady fun current =>
    some (renumber (sortListings (current.listings.filter (·.id ≠ listingId))))

/-- The editing operations. -/
inductive Edit where
  | createListing (offerKey : Str) (draws : Fin 10 → Draw)
  | assignOffer (offerKey : Str) (listingId : Option Str)
  | updateListing (listingId : Str) (patch : CatalogCurationListingPatch)
  | moveListing (listingId : Str) (direction : Direction)
  | deleteListing (listingId : Str)

/-- None where the operation throws. -/
def Edit.apply : Edit → CatalogCurationState → Option CatalogCurationState
  | createListing offerKey draws, state => onCreateListing offerKey draws state
  | assignOffer offerKey listingId, state => some (onAssignOffer offerKey listingId state)
  | updateListing listingId patch, state => onUpdateListing listingId patch state
  | moveListing listingId direction, state => onMoveListing listingId direction state
  | deleteListing listingId, state => onDeleteListing listingId state

/-! ### What they do -/

/-- The draft after an editing operation on a draft that is not being saved. -/
inductive Edits (current : Ready) : Edit → Ready → Prop
  | noOffer (offerKey : Str) (draws : Fin 10 → Draw) :
      Edits current (.createListing offerKey draws) (redraft current current.listings)
  | created (offer : CatalogCurationOffer) (draws : Fin 10 → Draw) (draw : Draw) :
      offer ∈ current.offers → offer.assignedListingId = none →
      candidateId draw ∉ current.listings.map (·.id) →
      Edits current (.createListing offer.key draws) (redraft current
        (current.listings ++ [listingOf offer (candidateId draw) current.listings.length]))
  | lastOffer (offerKey : Str) : Edits current (.assignOffer offerKey none)
      { current with save := .error emptyListingMessage }
  | assigned (offerKey : Str) (listingId : Option Str) :
      (listingId = none → ∀ source, current.listings.find? (·.offerKeys.contains offerKey) =
        some source → source.offerKeys.length ≠ 1) →
      Edits current (.assignOffer offerKey listingId)
        (redraft current (current.listings.map (moveKey offerKey listingId)))
  | updated (listingId : Str) (patch : CatalogCurationListingPatch) :
      Edits current (.updateListing listingId patch) (redraft current
        (current.listings.map fun listing =>
          if listing.id = listingId then applyPatch patch listing else listing))
  | notMoved (listingId : Str) (direction : Direction) :
      Edits current (.moveListing listingId direction) (redraft current current.listings)
  | moved (listingId : Str) (direction : Direction) (start : List CatalogCurationListing)
      (x y : CatalogCurationListing) (rest : List CatalogCurationListing) :
      sortListings current.listings = start ++ x :: y :: rest →
      Edits current (.moveListing listingId direction)
        (redraft current (renumber (start ++ y :: x :: rest)))
  | deleted (listingId : Str) : Edits current (.deleteListing listingId)
      (redraft current (renumber (sortListings (current.listings.filter (·.id ≠ listingId)))))

section

variable {current : Ready} {state : CatalogCurationState}

theorem updateReady_saving {mutate : Ready → Option (List CatalogCurationListing)}
    (h : current.save = .saving) : updateReady mutate (.ready current) = some (.ready current) :=
  if_pos h

theorem updateReady_ready {mutate : Ready → Option (List CatalogCurationListing)}
    (hsave : current.save ≠ .saving) (h : updateReady mutate (.ready current) = some state) :
    ∃ listings, mutate current = some listings ∧ state = .ready (redraft current listings) := by
  rw [updateReady, if_neg hsave] at h
  obtain ⟨listings, hm, h⟩ := Option.map_eq_some_iff.1 h
  exact ⟨listings, hm, h.symm⟩

/-- Nothing is edited while the draft is being saved. -/
theorem Edit.apply_saving (edit : Edit) (h : current.save = .saving) :
    edit.apply (.ready current) = some (.ready current) := by
  cases edit with
  | createListing offerKey draws =>
    unfold apply onCreateListing
    exact updateReady_saving h
  | assignOffer offerKey listingId =>
    show some (onAssignOffer offerKey listingId (.ready current)) = _
    rw [onAssignOffer, if_pos h]
  | updateListing listingId patch =>
    unfold apply onUpdateListing
    exact updateReady_saving h
  | moveListing listingId direction =>
    unfold apply onMoveListing
    exact updateReady_saving h
  | deleteListing listingId =>
    unfold apply onDeleteListing
    exact updateReady_saving h

/-- **What an editing operation does** to a draft that is not being saved. -/
theorem Edit.apply_ready {edit : Edit} (hsave : current.save ≠ .saving)
    (h : edit.apply (.ready current) = some state) :
    ∃ next, state = .ready next ∧ Edits current edit next := by
  cases edit with
  | createListing offerKey draws =>
    unfold apply onCreateListing at h
    obtain ⟨listings, hm, rfl⟩ := updateReady_ready hsave h
    refine ⟨_, rfl, ?_⟩
    split at hm
    · cases hm
      exact .noOffer offerKey draws
    · next offer hfind =>
      obtain ⟨id, hid, rfl⟩ := Option.map_eq_some_iff.1 hm
      have hoffer := List.find?_some hfind
      rw [Bool.and_eq_true, decide_eq_true_eq, decide_eq_true_eq] at hoffer
      obtain ⟨rfl, hnone⟩ := hoffer
      obtain ⟨draw, -, rfl⟩ := List.mem_map.1 (List.mem_of_find?_eq_some hid)
      refine .created offer draws draw (List.mem_of_find?_eq_some hfind) hnone ?_
      have hfresh := List.find?_some hid
      simpa using hfresh
  | assignOffer offerKey listingId =>
    have hstate : onAssignOffer offerKey listingId (.ready current) = state := Option.some.inj h
    rw [onAssignOffer, if_neg hsave] at hstate
    dsimp only at hstate
    split at hstate
    · next hlast =>
      obtain ⟨rfl, -⟩ := hlast
      exact ⟨_, hstate.symm, .lastOffer offerKey⟩
    · next hlast =>
      refine ⟨_, hstate.symm, .assigned offerKey listingId fun hid source hsource hone =>
        hlast ⟨hid, ?_⟩⟩
      rw [hsource]
      exact decide_eq_true hone
  | updateListing listingId patch =>
    unfold apply onUpdateListing at h
    obtain ⟨listings, hm, rfl⟩ := updateReady_ready hsave h
    cases hm
    exact ⟨_, rfl, .updated listingId patch⟩
  | moveListing listingId direction =>
    unfold apply onMoveListing at h
    obtain ⟨listings, hm, rfl⟩ := updateReady_ready hsave h
    refine ⟨_, rfl, ?_⟩
    dsimp only at hm
    split at hm
    · cases hm
      exact .notMoved listingId direction
    · next index hindex =>
      have hlt : index < (sortListings current.listings).length :=
        (List.findIdx?_eq_some_iff_findIdx_eq.1 hindex).1
      split at hm
      · cases hm
        exact .notMoved listingId direction
      · next target htarget =>
        cases hm
        unfold targetIndex at htarget
        cases direction with
        | up =>
          dsimp only at htarget
          split at htarget
          · cases htarget
          · next hzero =>
            cases htarget
            obtain ⟨start, x, y, rest, hsort, -, hswap⟩ :=
              swap_neighbours (i := index - 1)
                (by omega : index - 1 + 1 < (sortListings current.listings).length)
            rw [show index - 1 + 1 = index by omega] at hswap
            rw [hswap]
            exact .moved listingId .up start x y rest hsort
        | down =>
          dsimp only at htarget
          split at htarget
          · next hlast =>
            cases htarget
            obtain ⟨start, x, y, rest, hsort, hswap, -⟩ := swap_neighbours hlast
            rw [hswap]
            exact .moved listingId .down start x y rest hsort
          · cases htarget
  | deleteListing listingId =>
    unfold apply onDeleteListing at h
    obtain ⟨listings, hm, rfl⟩ := updateReady_ready hsave h
    cases hm
    exact ⟨_, rfl, .deleted listingId⟩

end

/-! ## The hook -/

structure Hook where
  state : CatalogCurationState
  /-- `baseline.current`. -/
  baseline : Option CatalogCurationWorkspaceWire

def loadErrorMessage : Str :=
  str "Không đọc được cấu hình catalog cục bộ. " ++ str "Kiểm tra API và PostgreSQL."

def conflictMessage : Str :=
  str "Catalog đã thay đổi ở phiên khác. " ++ str "Hãy hoàn tác để tải bản mới."

def saveErrorMessage : Str := str "Không lưu được catalog cục bộ."

def saveRequest (current : Ready) : CatalogCurationSaveWire where
  expectedRevision := current.revision
  listings := current.listings.map toWire

def onSave : CatalogCurationState → CatalogCurationState
  | .ready current =>
    if current.save = .saving then .ready current
    else match validateDraft current.listings with
      | some message => .ready { current with save := .error message }
      | none => .ready { current with save := .saving }
  | state => state

/-- The draft is refused, as a conflict where the response was 409. -/
def refused (isConflict : Bool) : CatalogCurationState → CatalogCurationState
  | .ready current =>
    .ready { current with
      save := if isConflict then .conflict conflictMessage else .error saveErrorMessage }
  | state => state

def CatalogCurationState.isConflict : CatalogCurationState → Bool
  | .ready ⟨_, _, _, _, _, .conflict _⟩ => true
  | _ => false

/-- A conflict loads the workspace again, by `retry` in a microtask. -/
def onReset (hook : Hook) : CatalogCurationState :=
  if hook.state.isConflict then .loading
  else match hook.baseline with
    | none => .loading
    | some workspace => mapWorkspace workspace .clean

/-- Whether `onSave` makes a request. -/
def sends : CatalogCurationState → Bool
  | .ready current => current.save ≠ .saving && (validateDraft current.listings).isNone
  | _ => false

/-- A callback, the view that is opened again, or the continuation of a request that was
made. -/
inductive Event where
  | edit (edit : Edit)
  | reset
  | retry
  | opened
  | save
  | loaded (workspace : CatalogCurationWorkspaceWire)
  | loadFailed
  | saved (workspace : CatalogCurationWorkspaceWire)
  | saveFailed (isConflict : Bool)

/-- None where the event throws. -/
def Hook.step (hook : Hook) : Event → Option Hook
  | .edit edit => (edit.apply hook.state).map fun state => { hook with state := state }
  | .reset => some { hook with state := onReset hook }
  | .retry | .opened => some { hook with state := .loading }
  | .save => some { hook with state := onSave hook.state }
  | .loaded workspace => some ⟨mapWorkspace workspace .clean, some workspace⟩
  | .loadFailed => some { hook with state := .error loadErrorMessage }
  | .saved workspace => some ⟨mapWorkspace workspace .saved, some workspace⟩
  | .saveFailed isConflict => some { hook with state := refused isConflict hook.state }

/-! ## Sessions -/

/-- The hook and the number of requests to save that have no answer. -/
structure Session where
  hook : Hook
  unanswered : Nat

def Session.count (session : Session) : Event → Nat
  | .save => if sends session.hook.state then session.unanswered + 1 else session.unanswered
  | .saved _ | .saveFailed _ => session.unanswered - 1
  | _ => session.unanswered

/-- None where the event throws. -/
def Session.step (session : Session) (event : Event) : Option Session :=
  (session.hook.step event).map fun hook => ⟨hook, session.count event⟩

/-- The session after events. -/
def Session.run (session : Session) (events : List Event) : Option Session :=
  events.foldlM Session.step session

/-- The session once the first workspace is there. -/
def Session.start (workspace : CatalogCurationWorkspaceWire) : Session :=
  ⟨⟨mapWorkspace workspace .clean, some workspace⟩, 0⟩

end NyanShopBot.Admin
