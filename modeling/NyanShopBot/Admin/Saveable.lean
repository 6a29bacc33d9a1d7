import NyanShopBot.Admin.Request

/-!
# Saveable drafts

`Edit.Meets` says where an editing operation does not go wrong; there it keeps a draft
sendable (`Edits.sendable`). Every draft of a run of such operations from a workspace can be
saved (`drafts_saveable`).
-/

namespace NyanShopBot.Admin

open Py (Str str chr)
open Js
open Catalog (isListingId isDisplayName isDescription isOfferKey maxOffersPerListing maxListings)

/-! ## New ids -/

theorem digit36_isIdHead : ∀ d : Fin 36, Catalog.isIdHead (digit36 d) = true := by decide

theorem all_toString36 (n : Int) : (toString36 n).all Catalog.isIdChar = true := by
  have hdigit {d : Nat} (hd : d < 36) : Catalog.isIdChar (digit36 d) = true := by
    rw [Catalog.isIdChar, digit36_isIdHead ⟨d, hd⟩]
    rfl
  rw [toString36, List.all_append, Bool.and_eq_true]
  constructor
  · split
    · decide
    · rfl
  · split
    · decide
    · rw [List.all_map, List.all_reverse, List.all_eq_true]
      exact fun d hd => hdigit (Nat.digits_lt_base (by decide) hd)

theorem length_toString36 {n : Int} (h : n.natAbs ≤ maxTime) : (toString36 n).length ≤ 12 := by
  have hdigits : (Nat.digits 36 n.natAbs).length ≤ 11 := by
    refine (Nat.digits_length_le_iff (by decide) _).2 (lt_of_le_of_lt h ?_)
    rw [maxTime]
    decide
  rw [toString36, List.length_append]
  have hsign : (if n < 0 then str "-" else []).length ≤ 1 := by
    split <;> decide
  have hdigits' : (if n = 0 then [digit36 0] else
      (Nat.digits 36 n.natAbs).reverse.map digit36).length ≤ 11 := by
    split
    · exact Nat.le_of_ble_eq_true rfl
    · rw [List.length_map, List.length_reverse]
      exact hdigits
  omega

theorem isUtf8_of_isIdChar {s : Str} (h : s.all Catalog.isIdChar = true) :
    Catalog.isUtf8 s = true := by
  rw [Catalog.isUtf8, Bool.not_eq_true', List.any_eq_false]
  intro c hc
  have hid := List.all_eq_true.1 h c hc
  simp only [Catalog.isIdChar, Catalog.isIdHead, Bool.or_eq_true, Bool.and_eq_true,
    decide_eq_true_eq] at hid
  simp only [Py.isSurrogate, Bool.and_eq_true, decide_eq_true_eq]
  rcases hid with ((h | rfl) | rfl) | rfl
  · omega
  all_goals decide

/-- A drawn id is a listing id. -/
theorem isListingId_candidateId (draw : Draw) : isListingId (candidateId draw) = true := by
  have htime := length_toString36 draw.inRange
  have hchars : (candidateId draw).all Catalog.isIdChar = true := by
    have hdigits :
        ((draw.digits.take 6).map fun d => digit36 d.val).all Catalog.isIdChar = true := by
      rw [List.all_map, List.all_eq_true]
      intro d _
      show Catalog.isIdChar (digit36 d.val) = true
      rw [Catalog.isIdChar, digit36_isIdHead d]
      rfl
    simp only [candidateId, List.all_append, Bool.and_eq_true, all_toString36, hdigits]
    decide
  have hlen : (candidateId draw).length ≤ 64 := by
    have htake : (draw.digits.take 6).length ≤ 6 := List.length_take_le 6 _
    simp only [candidateId, List.length_append, List.length_map]
    have hnyan : (str "nyan-").length = 5 := rfl
    have hdash : (str "-").length = 1 := rfl
    omega
  have hhead : (candidateId draw).head? = some (chr 'n') := rfl
  rw [isListingId, Catalog.hasLength, isUtf8_of_isIdChar hchars, hchars, hhead]
  have hone : 1 ≤ (candidateId draw).length := Nat.succ_le_succ (Nat.zero_le _)
  simp [hlen, hone]
  decide

/-! ## One operation -/

section

variable {listings : List CatalogCurationListing}

theorem mem_renumber {l : CatalogCurationListing} (h : l ∈ renumber listings) :
    ∃ l' ∈ listings, ∃ n < listings.length, l = { l' with sortOrder := .finite n } := by
  obtain ⟨⟨l', n⟩, hp, rfl⟩ := List.mem_map.1 h
  obtain ⟨hlt, he⟩ := List.mem_zipIdx' hp
  exact ⟨l', he ▸ List.getElem_mem hlt, n, hlt, rfl⟩

theorem sortOrders_renumber : ((renumber listings).map (·.sortOrder)).Nodup := by
  have hmap : (renumber listings).map (·.sortOrder) =
      (listings.zipIdx.map Prod.snd).map fun n : Nat => Number.finite n := by
    rw [renumber, List.map_map, List.map_map]
    rfl
  rw [hmap, List.zipIdx_map_snd]
  have hrange : (List.range' 0 listings.length).Nodup := List.nodup_range'
  exact hrange.map fun m n hmn => Nat.cast_injective (Number.finite.inj hmn)

end

section

variable [Py.UnicodeData] {current : Ready} {listings : List CatalogCurationListing}

/-- Where an editing operation does not go wrong. It edits no text, visibility or price. -/
def Edit.Meets (current : Ready) : Edit → Prop
  | createListing offerKey _ => ∀ offer ∈ current.offers, offer.key = offerKey →
      offer.assignedListingId = none →
      (∀ listing ∈ current.listings, listing.sortOrder ≠ .finite current.listings.length) ∧
      current.listings.length < maxListings ∧
      isDisplayName (trim offer.name) = true ∧ isDescription (trim offer.description) = true
  | assignOffer _ none => True
  | assignOffer offerKey (some listingId) => ∀ listing ∈ current.listings,
      if listing.id = listingId then offerKey ∈ listing.offerKeys ∨
        isOfferKey offerKey = true ∧ listing.offerKeys.length < maxOffersPerListing
      else listing.offerKeys ≠ [offerKey]
  | updateListing _ _ => False
  | moveListing _ _ | deleteListing _ => True

theorem Ready.Sendable.redraft (h : current.Sendable)
    (hconsistent : (redraft current listings).Consistent)
    (hlistings : ∀ listing ∈ listings, listing.Sendable)
    (horders : (listings.map (·.sortOrder)).Nodup) (hmost : listings.length ≤ maxListings) :
    (redraft current listings).Sendable := by
  refine ⟨hconsistent, hlistings, horders, hmost, fun offer hoffer => ?_, h.revision⟩
  obtain ⟨o, ho, rfl⟩ := List.mem_map.1 hoffer
  exact h.offers o ho

theorem CatalogCurationListing.Sendable.withSortOrder {l : CatalogCurationListing}
    (h : l.Sendable) {n : Nat} (hn : n ≤ maxSafeInteger) :
    { l with sortOrder := .finite n }.Sendable :=
  ⟨h.id, h.name, h.description, h.category, ⟨n, hn, rfl⟩, h.price, h.priced, h.keys_ne,
    h.keys_most, h.keys⟩

/-- Listings of the draft in any order, numbered. -/
theorem Ready.Sendable.renumber (h : current.Sendable)
    (hconsistent : (Admin.redraft current (renumber listings)).Consistent)
    (hsub : ∀ listing ∈ listings, listing ∈ current.listings)
    (hmost : listings.length ≤ maxListings) :
    (Admin.redraft current (renumber listings)).Sendable := by
  have hlen : (Admin.renumber listings).length = listings.length := by
    rw [Admin.renumber, List.length_map, List.length_zipIdx]
  refine h.redraft hconsistent (fun l hl => ?_) sortOrders_renumber (hlen ▸ hmost)
  obtain ⟨l', hl', n, hn, rfl⟩ := mem_renumber hl
  have hsafe : n ≤ maxSafeInteger := by
    rw [maxListings] at hmost
    rw [maxSafeInteger]
    omega
  exact (h.listings l' (hsub l' hl')).withSortOrder hsafe

theorem moveKey_sendable {l : CatalogCurationListing} {offerKey : Str} {listingId : Option Str}
    (h : l.Sendable) (hnodup : l.offerKeys.Nodup)
    (htarget : some l.id = listingId → offerKey ∈ l.offerKeys ∨
      isOfferKey offerKey = true ∧ l.offerKeys.length < maxOffersPerListing)
    (hsource : some l.id ≠ listingId → l.offerKeys ≠ [offerKey]) :
    (moveKey offerKey listingId l).Sendable := by
  have hkeys : ∀ key ∈ (moveKey offerKey listingId l).offerKeys, isOfferKey key = true := by
    intro key hkey
    rcases mem_moveKey.1 hkey with ⟨hkey, -⟩ | ⟨rfl, hid⟩
    · exact h.keys key hkey
    · rcases htarget hid with hmem | ⟨hvalid, -⟩
      · exact h.keys key hmem
      · exact hvalid
  have hne : (moveKey offerKey listingId l).offerKeys ≠ [] := by
    by_cases hid : some l.id = listingId
    · have hmem : offerKey ∈ (moveKey offerKey listingId l).offerKeys :=
        mem_moveKey.2 (.inr ⟨rfl, hid⟩)
      exact List.ne_nil_of_mem hmem
    · -- another key stays, or the listing had the one key that moves
      by_cases hall : ∀ key ∈ l.offerKeys, key = offerKey
      · refine absurd ?_ (hsource hid)
        have hrep := List.eq_replicate_iff.2 ⟨rfl, hall⟩
        have hpos := List.length_pos_iff.2 h.keys_ne
        have hone : l.offerKeys.length ≤ 1 := by
          rw [hrep] at hnodup
          exact List.nodup_replicate.1 hnodup
        rw [hrep, show l.offerKeys.length = 1 by omega]
        rfl
      · obtain ⟨key, hkey⟩ := not_forall.1 hall
        obtain ⟨hmem, hkne⟩ := Classical.not_imp.1 hkey
        exact List.ne_nil_of_mem (mem_moveKey.2 (.inl ⟨hmem, hkne⟩))
  have hmost : (moveKey offerKey listingId l).offerKeys.length ≤ maxOffersPerListing := by
    have hlen := h.keys_most
    have hfilter : (l.offerKeys.filter (· ≠ offerKey)).length ≤ l.offerKeys.length :=
      List.length_filter_le _ _
    by_cases hid : some l.id = listingId
    · rw [moveKey, if_pos hid, List.length_append, List.length_singleton]
      rcases htarget hid with hmem | ⟨-, hlt⟩
      · have hlt : (l.offerKeys.filter (· ≠ offerKey)).length < l.offerKeys.length :=
          List.length_filter_lt_length_iff_exists.2 ⟨offerKey, hmem, by simp⟩
        omega
      · omega
    · rw [moveKey, if_neg hid]
      exact hfilter.trans hlen
  have hfields : (moveKey offerKey listingId l) =
      { l with offerKeys := (moveKey offerKey listingId l).offerKeys } := by
    unfold moveKey
    split <;> rfl
  rw [hfields]
  exact ⟨h.id, h.name, h.description, h.category, h.sortOrder, h.price, h.priced, hne, hmost,
    hkeys⟩

/-- The listing of an offer. -/
theorem listingOf_sendable {offer : CatalogCurationOffer} (draw : Draw) {n : Nat}
    (hkey : isOfferKey offer.key = true) (hname : isDisplayName (trim offer.name) = true)
    (hdesc : isDescription (trim offer.description) = true) (hn : n ≤ maxSafeInteger) :
    (listingOf offer (candidateId draw) n).Sendable := by
  refine ⟨isListingId_candidateId draw, hname, hdesc, rfl, ⟨n, hn, rfl⟩, rfl, ?_, ?_, ?_, ?_⟩
  · rintro ⟨⟩
  · exact List.cons_ne_nil _ _
  · exact Nat.le_of_ble_eq_true rfl
  · intro key hmem
    rw [List.mem_singleton.1 hmem]
    exact hkey

/-- **A sendable draft stays sendable** where the operation meets its condition. -/
theorem Edits.sendable {next : Ready} {edit : Edit} (h : Edits current edit next)
    (hm : edit.Meets current) (hs : current.Sendable) : next.Sendable := by
  have hc := h.consistent hs.consistent
  obtain ⟨hown, -⟩ := List.nodup_flatMap.1 hs.consistent.keys
  cases h with
  | noOffer offerKey draws => exact hs.redraft hc hs.listings hs.sortOrders hs.bounded
  | created offer draws draw hoffer hnone hfresh =>
    obtain ⟨horder, hlt, hname, hdesc⟩ := hm offer hoffer rfl hnone
    refine hs.redraft hc (fun l hl => ?_) ?_ ?_
    · rcases List.mem_append.1 hl with hl | hl
      · exact hs.listings l hl
      · rw [List.mem_singleton.1 hl]
        refine listingOf_sendable draw (hs.offers offer hoffer) hname hdesc ?_
        rw [maxListings] at hlt
        rw [maxSafeInteger]
        omega
    · rw [List.map_append, List.nodup_append]
      refine ⟨hs.sortOrders, List.nodup_singleton _, ?_⟩
      intro order hmem order' hmem' heq
      obtain ⟨l, hl, rfl⟩ := List.mem_map.1 hmem
      rw [List.mem_singleton.1 hmem'] at heq
      exact horder l hl heq
    · rw [List.length_append, List.length_singleton]
      exact hlt
  | lastOffer offerKey =>
    exact ⟨hc, hs.listings, hs.sortOrders, hs.bounded, hs.offers, hs.revision⟩
  | assigned offerKey listingId hlast =>
    refine hs.redraft hc (fun l hl => ?_) ?_ ?_
    · obtain ⟨l', hl', rfl⟩ := List.mem_map.1 hl
      refine moveKey_sendable (hs.listings l' hl') (hown l' hl') (fun hid => ?_) fun hid => ?_
      · subst hid
        have hcond := hm l' hl'
        rwa [if_pos rfl] at hcond
      · cases listingId with
        | none =>
          -- the only offer of a listing is not taken away
          intro hkeys
          have hmem : offerKey ∈ l'.offerKeys := hkeys ▸ List.mem_singleton_self _
          obtain ⟨source, hsource⟩ := Option.isSome_iff_exists.1
            (List.find?_isSome.2 ⟨l', hl', List.contains_iff_mem.2 hmem⟩ :
              (current.listings.find? (·.offerKeys.contains offerKey)).isSome = true)
          have hmem' : source.offerKeys.contains offerKey = true :=
            @List.find?_some _ (fun l : CatalogCurationListing => l.offerKeys.contains offerKey)
              _ _ hsource
          have hsame : source = l' := eq_of_mem_keys hs.consistent.keys
            (List.mem_of_find?_eq_some hsource) hl' (List.contains_iff_mem.1 hmem') hmem
          refine hlast rfl source hsource ?_
          rw [hsame, hkeys]
          rfl
        | some listingId =>
          have hcond := hm l' hl'
          rwa [if_neg fun he => hid (congrArg some he)] at hcond
    · have hmap : (current.listings.map (moveKey offerKey listingId)).map (·.sortOrder) =
          current.listings.map (·.sortOrder) := by
        refine map_patch _ _ fun l => ?_
        unfold moveKey
        split <;> rfl
      rw [hmap]
      exact hs.sortOrders
    · rw [List.length_map]
      exact hs.bounded
  | updated listingId patch => exact hm.elim
  | notMoved listingId direction => exact hs.redraft hc hs.listings hs.sortOrders hs.bounded
  | moved listingId direction start x y rest hsort =>
    have hperm := perm_of_sortListings hsort
    refine hs.renumber hc (fun l hl => hperm.subset hl) ?_
    rw [hperm.length_eq]
    exact hs.bounded
  | deleted listingId =>
    have hperm : (sortListings (current.listings.filter (·.id ≠ listingId))).Perm
        (current.listings.filter (·.id ≠ listingId)) := perm_sortBy _
    refine hs.renumber hc (fun l hl => (List.mem_filter.1 (hperm.subset hl)).1) ?_
    rw [hperm.length_eq]
    exact (List.length_filter_le _ _).trans hs.bounded

/-! ## Runs -/

/-- What editing operations reach, each where it meets its condition. -/
inductive Drafts (start : CatalogCurationState) : CatalogCurationState → Prop
  | start : Drafts start start
  | edit {current : Ready} {next : CatalogCurationState} {edit : Edit} :
      Drafts start (.ready current) → edit.Meets current →
      edit.apply (.ready current) = some next → Drafts start next

theorem Drafts.sendable {start state : CatalogCurationState} (h : Drafts start state)
    (hstart : ∀ current, start = .ready current → current.Sendable) :
    ∀ current, state = .ready current → current.Sendable := by
  induction h with
  | start => exact hstart
  | @edit before next edit _ hm happly ih =>
    rintro draft rfl
    have hs := ih before rfl
    by_cases hsave : before.save = .saving
    · rw [edit.apply_saving hsave] at happly
      cases happly
      exact hs
    · obtain ⟨draft', hnext, hedit⟩ := Edit.apply_ready hsave happly
      cases hnext
      exact hedit.sendable hm hs

/-- **Drafts can be saved**, in every run from a workspace whose operations all meet their
conditions. -/
theorem drafts_saveable {document : Catalog.CatalogCurationDocument}
    {readProducts : Except Catalog.Exc Catalog.Snapshot}
    {workspace : Catalog.CatalogCurationWorkspace}
    (hbom : Py.UnicodeData.printable bom = false)
    (hworkspace : Catalog.getWorkspace document readProducts = .ok workspace)
    (hsafe : SafeNumbers workspace) {state : CatalogCurationState}
    (hrun : Drafts (mapWorkspace (workspaceWire workspace) .clean) state) :
    ∀ current, state = .ready current → current.Saveable := by
  obtain ⟨snapshot, -, hfrom⟩ := Py.except_bind_ok.1 hworkspace
  have hvalid := Catalog.workspaceFrom_valid hfrom
  intro current hcurrent
  have hs := hrun.sendable (fun _ h => mapWorkspace_sendable hbom hsafe hvalid h) current hcurrent
  exact hs.saveable

end

/-! ## A gap in the order -/

section

attribute [local instance] Catalog.asciiUnicode

def gapListing₁ : Catalog.CatalogCurationListing where
  id := str "a"
  name := str "a"
  description := str "a"
  category := none
  visible := false
  sortOrder := 0
  retailPrice := none
  offerRefs := [Catalog.sampleOffer]
  fields := by decide +kernel
  valid := by decide +kernel

def gapListing₂ : Catalog.CatalogCurationListing where
  id := str "b"
  name := str "b"
  description := str "b"
  category := none
  visible := false
  sortOrder := 2
  retailPrice := none
  offerRefs := [⟨.khommo, str "b", Catalog.khommo_isLive, by decide +kernel⟩]
  fields := by decide +kernel
  valid := by decide +kernel

/-- No listing has the sort order 1. -/
def gapDocument : Catalog.CatalogCurationDocument :=
  ⟨3, [gapListing₁, gapListing₂], by decide, by decide +kernel⟩

def gapProducts : List Catalog.CatalogProduct := [
  Catalog.sampleProduct (str "a") Catalog.isDisplayText_a,
  Catalog.sampleProduct (str "b") Catalog.isDisplayText_b,
  Catalog.sampleProduct (str "c") (by decide +kernel)]

def gapRead : Except Catalog.Exc Catalog.CatalogCurationWorkspace :=
  Catalog.getWorkspace gapDocument (.ok (gapProducts, false))

theorem eq_ok_get {ε α : Type} {x : Except ε α} (h : x.toOption.isSome = true) :
    x = .ok (x.toOption.get h) := by
  cases x with
  | error e => cases h
  | ok a => rfl

theorem gapRead_isSome : gapRead.toOption.isSome = true := by decide +kernel

def gapWorkspace : Catalog.CatalogCurationWorkspace := gapRead.toOption.get gapRead_isSome

theorem gapRead_eq : gapRead = .ok gapWorkspace := eq_ok_get gapRead_isSome

/-- Its draft. -/
def gapDraft : CatalogCurationState := mapWorkspace (workspaceWire gapWorkspace) .clean

def gapDraws : Fin 10 → Draw := fun _ => ⟨1700000000000, by decide, [1, 2, 3, 4, 5, 6]⟩

/-- The product `c`, which no listing has. -/
def createC : Edit := .createListing (str "khommo.Yw") gapDraws

/-- The only offer of `a` moves to `b`. -/
def moveA : Edit := .assignOffer (str "khommo.YQ") (some (str "b"))

/-- The draft that a state has. -/
def CatalogCurationState.draft? : CatalogCurationState → Option Ready
  | .ready current => some current
  | _ => none

theorem exists_draft {o : Option CatalogCurationState} {p : Ready → Bool}
    (h : ((o.bind CatalogCurationState.draft?).any p) = true) :
    ∃ current, o = some (.ready current) ∧ p current = true := by
  cases o with
  | none => cases h
  | some state =>
    cases state with
    | ready current => exact ⟨current, rfl, h⟩
    | _ => cases h

theorem gapWorkspace_safe : SafeNumbers gapWorkspace :=
  ⟨by decide +kernel, by decide +kernel, by decide +kernel⟩

def moveB : Edit := .moveListing (str "b") .up

theorem drafts_saveable_sample :
    ∃ current, moveB.apply gapDraft = some (.ready current) ∧ current.Saveable := by
  obtain ⟨start, hstart, -⟩ := exists_draft (o := some gapDraft) (p := fun _ => true)
    (by decide +kernel)
  obtain ⟨current, happly, -⟩ := exists_draft (o := moveB.apply gapDraft) (p := fun _ => true)
    (by decide +kernel)
  have hready : gapDraft = .ready start := Option.some.inj hstart
  have hbegin : Drafts gapDraft (.ready start) := hready ▸ .start
  have hmeets : moveB.Meets start := trivial
  have hmove : moveB.apply (.ready start) = some (.ready current) := hready ▸ happly
  exact ⟨current, happly, drafts_saveable rfl gapRead_eq gapWorkspace_safe
    (.edit hbegin hmeets hmove) current rfl⟩

/-- Two operations from one workspace: the new listing takes the sort order of the other, and
the listing that gave its offer away is empty. -/
theorem gapDraft_not_saveable : gapRead = .ok gapWorkspace ∧
    (∃ current, createC.apply gapDraft = some (.ready current) ∧ ¬ current.Saveable) ∧
    ∃ current, moveA.apply gapDraft = some (.ready current) ∧ ¬ current.Saveable := by
  refine ⟨gapRead_eq, ?_, ?_⟩
  · obtain ⟨current, happly, hno⟩ := exists_draft (o := createC.apply gapDraft)
      (p := fun current => !decide current.Saveable) (by decide +kernel)
    exact ⟨current, happly, by simpa using hno⟩
  · obtain ⟨current, happly, hno⟩ := exists_draft (o := moveA.apply gapDraft)
      (p := fun current => !decide current.Saveable) (by decide +kernel)
    exact ⟨current, happly, by simpa using hno⟩

end

end NyanShopBot.Admin
