import Mathlib.Data.List.Flatten
import NyanShopBot.Admin.CurationState

/-!
# Assignments of the draft

`Ready.Consistent` is what holds of every draft: a key is in one listing at most, and the
offers say in which. `EditLaw` is what one editing operation may do to it. Both hold along
every run from consistent workspaces, and no operation edits a draft while a save has no
answer, as long as nothing but operations and that answer come in between
(`draft_assignments`).
-/

namespace NyanShopBot.Admin

open Py (Str str)
open Js

/-! ## Consistent workspaces and drafts -/

/-- Distinct ids, no key twice over all listings, and distinct offers. -/
structure CatalogCurationWorkspaceWire.Consistent (workspace : CatalogCurationWorkspaceWire) :
    Prop where
  ids : (workspace.listings.map (·.id)).Nodup
  keys : (workspace.listings.flatMap (·.offerKeys)).Nodup
  offers : (workspace.offers.map (·.key)).Nodup

structure Ready.Consistent (current : Ready) : Prop where
  ids : (current.listings.map (·.id)).Nodup
  keys : (current.listings.flatMap (·.offerKeys)).Nodup
  /-- An offer is assigned to the listing that has its key, and to none without one. -/
  assigned : ∀ offer ∈ current.offers, ∀ id, offer.assignedListingId = some id ↔
    ∃ listing ∈ current.listings, listing.id = id ∧ offer.key ∈ listing.offerKeys

/-- The ids in the order that the owner sees. -/
def Ready.order (current : Ready) : List Str := (sortListings current.listings).map (·.id)

def CatalogCurationState.order : CatalogCurationState → List Str
  | .ready current => current.order
  | _ => []

/-- One adjacent transposition. -/
def Transposed {α : Type} (before after : List α) : Prop :=
  ∃ start x y rest, before = start ++ x :: y :: rest ∧ after = start ++ y :: x :: rest

/-- What an editing operation may do to a draft. -/
structure EditLaw (current next : Ready) (edit : Edit) : Prop where
  /-- A key leaves a listing with the listing, or where it is named. -/
  keeps : ∀ listing ∈ current.listings, ∀ key ∈ listing.offerKeys,
    (∃ listing' ∈ next.listings, listing'.id = listing.id ∧ key ∈ listing'.offerKeys) ∨
    edit = .deleteListing listing.id ∨ ∃ listingId, edit = .assignOffer key listingId
  moves : ∀ listingId direction, edit = .moveListing listingId direction →
    next.order = current.order ∨ Transposed current.order next.order
  deletes : ∀ listingId, edit = .deleteListing listingId →
    next.order = current.order.filter (· ≠ listingId)

theorem owner_listings {listings : List CatalogCurationListing}
    (h : (listings.flatMap (·.offerKeys)).Nodup) {key id : Str} :
    owner (listings.map fun l => (l.id, l.offerKeys)) key = some id ↔
      ∃ listing ∈ listings, listing.id = id ∧ key ∈ listing.offerKeys := by
  rw [owner_eq_some (by rwa [List.flatMap_map])]
  constructor
  · rintro ⟨e, he, hid, hk⟩
    obtain ⟨listing, hl, rfl⟩ := List.mem_map.1 he
    exact ⟨listing, hl, hid, hk⟩
  · rintro ⟨listing, hl, hid, hk⟩
    exact ⟨_, List.mem_map_of_mem hl, hid, hk⟩

/-- New listings with distinct ids and keys make a consistent draft. -/
theorem Ready.Consistent.redraft {current : Ready} {listings : List CatalogCurationListing}
    (hids : (listings.map (·.id)).Nodup) (hkeys : (listings.flatMap (·.offerKeys)).Nodup) :
    (redraft current listings).Consistent := by
  refine ⟨hids, hkeys, fun offer hoffer id => ?_⟩
  obtain ⟨o, -, rfl⟩ := List.mem_map.1 hoffer
  exact owner_listings hkeys

/-- Another save state changes nothing else. -/
theorem Ready.Consistent.withSave {current : Ready} (h : current.Consistent)
    (save : CatalogCurationSaveState) : { current with save := save }.Consistent :=
  ⟨h.ids, h.keys, h.assigned⟩

/-! ## Lists of listings -/

section

variable {listings listings' : List CatalogCurationListing}

theorem mem_sortListings {l : CatalogCurationListing} :
    l ∈ sortListings listings ↔ l ∈ listings := mem_sortBy

/-- Listings in another order and with other numbers. -/
def Rearranged (listings listings' : List CatalogCurationListing) : Prop :=
  (listings'.map fun l => (l.id, l.offerKeys)).Perm (listings.map fun l => (l.id, l.offerKeys))

theorem map_renumber {β : Type} (f : CatalogCurationListing → β)
    (hf : ∀ l order, f { l with sortOrder := order } = f l) :
    (renumber listings).map f = listings.map f := by
  rw [renumber, List.map_map]
  have hcomp : (f ∘ fun p : CatalogCurationListing × Nat => { p.1 with sortOrder := .finite p.2 }) =
      f ∘ Prod.fst := by
    funext p
    exact hf p.1 _
  rw [hcomp, ← List.map_map, List.zipIdx_map_fst]

theorem Rearranged.ids (h : Rearranged listings listings') (hids : (listings.map (·.id)).Nodup) :
    (listings'.map (·.id)).Nodup := by
  have hperm := h.map Prod.fst
  rw [List.map_map, List.map_map] at hperm
  exact (hperm.nodup_iff).2 hids

theorem Rearranged.keys (h : Rearranged listings listings')
    (hkeys : (listings.flatMap (·.offerKeys)).Nodup) :
    (listings'.flatMap (·.offerKeys)).Nodup := by
  have hperm := h.flatMap_right Prod.snd
  rw [List.flatMap_map, List.flatMap_map] at hperm
  exact hperm.nodup_iff.2 hkeys

theorem Rearranged.mem (h : Rearranged listings listings') {l : CatalogCurationListing}
    (hl : l ∈ listings) : ∃ l' ∈ listings', l'.id = l.id ∧ l'.offerKeys = l.offerKeys := by
  have hmem := h.symm.subset (List.mem_map_of_mem (f := fun l => (l.id, l.offerKeys)) hl)
  obtain ⟨l', hl', he⟩ := List.mem_map.1 hmem
  exact ⟨l', hl', congrArg Prod.fst he, congrArg Prod.snd he⟩

/-- Later elements have greater indices. -/
theorem pairwise_zipIdx {α : Type} (list : List α) (k : Nat) :
    (list.zipIdx k).Pairwise fun p q => p.2 < q.2 := by
  induction list generalizing k with
  | nil => exact .nil
  | cons a list ih =>
    rw [List.zipIdx_cons]
    refine .cons (fun p hp => ?_) (ih (k + 1))
    have := List.le_snd_of_mem_zipIdx hp
    omega

/-- Numbered listings are in their order. -/
theorem sortListings_renumber : sortListings (renumber listings) = renumber listings := by
  refine sortBy_of_pairwise ?_
  rw [renumber, List.pairwise_map]
  refine (pairwise_zipIdx listings 0).imp fun {p q} hlt => ?_
  simp only [Number.le, decide_eq_true_eq]
  exact_mod_cast hlt.le

theorem order_renumber (current : Ready) :
    (redraft current (renumber listings)).order = listings.map (·.id) := by
  show (sortListings (renumber listings)).map (·.id) = _
  rw [sortListings_renumber]
  exact map_renumber _ fun _ _ => rfl

/-- Neighbours that are exchanged. -/
theorem perm_of_sortListings {start rest : List CatalogCurationListing}
    {x y : CatalogCurationListing} (h : sortListings listings = start ++ x :: y :: rest) :
    (start ++ y :: x :: rest).Perm listings := by
  have hsort : (sortListings listings).Perm listings := perm_sortBy _
  rw [h] at hsort
  exact (List.Perm.append_left start (.swap x y rest)).trans hsort

theorem rearranged_renumber (h : listings'.Perm listings) :
    Rearranged listings (renumber listings') := by
  rw [Rearranged, map_renumber _ fun _ _ => rfl]
  exact h.map _

/-! ## Moving keys -/

theorem moveKey_id (offerKey : Str) (listingId : Option Str) (l : CatalogCurationListing) :
    (moveKey offerKey listingId l).id = l.id := by
  unfold moveKey
  split <;> rfl

theorem mem_moveKey {offerKey key : Str} {listingId : Option Str} {l : CatalogCurationListing} :
    key ∈ (moveKey offerKey listingId l).offerKeys ↔
      (key ∈ l.offerKeys ∧ key ≠ offerKey) ∨ (key = offerKey ∧ some l.id = listingId) := by
  unfold moveKey
  split
  · next hid => simp [hid]
  · next hid => simp [hid]

theorem nodup_moveKey {offerKey : Str} {listingId : Option Str} {l : CatalogCurationListing}
    (h : l.offerKeys.Nodup) : (moveKey offerKey listingId l).offerKeys.Nodup := by
  unfold moveKey
  split
  · refine List.nodup_append.2 ⟨h.filter _, List.nodup_singleton _, ?_⟩
    intro k hk k' hk' hkk
    rw [List.mem_singleton.1 hk'] at hkk
    exact (of_decide_eq_true (List.mem_filter.1 hk).2) hkk
  · exact h.filter _

/-- A key that moves is in one listing at most. -/
theorem nodup_keys_moveKey {offerKey : Str} {listingId : Option Str}
    (hids : (listings.map (·.id)).Nodup) (hkeys : (listings.flatMap (·.offerKeys)).Nodup) :
    ((listings.map (moveKey offerKey listingId)).flatMap (·.offerKeys)).Nodup := by
  obtain ⟨hown, hdisjoint⟩ := List.nodup_flatMap.1 hkeys
  refine List.nodup_flatMap.2 ⟨fun l hl => ?_, ?_⟩
  · obtain ⟨l₀, hl₀, rfl⟩ := List.mem_map.1 hl
    exact nodup_moveKey (hown l₀ hl₀)
  · rw [List.pairwise_map]
    have hne : listings.Pairwise fun l l' => l.id ≠ l'.id := List.pairwise_map.1 hids
    refine (hdisjoint.and hne).imp fun {l l'} h => ?_
    obtain ⟨hd, hid⟩ := h
    intro k hk hk'
    rcases mem_moveKey.1 hk with ⟨hk, hkne⟩ | ⟨rfl, hl⟩
    · rcases mem_moveKey.1 hk' with ⟨hk', -⟩ | ⟨hkeq, -⟩
      · exact hd hk hk'
      · exact hkne hkeq
    · rcases mem_moveKey.1 hk' with ⟨-, hkne⟩ | ⟨-, hl'⟩
      · exact hkne rfl
      · exact hid (Option.some.inj (hl.trans hl'.symm))

end

/-! ## One operation -/

/-- The listings where some are given other texts. -/
theorem map_patch {β : Type} (f : CatalogCurationListing → β)
    {listings : List CatalogCurationListing}
    (g : CatalogCurationListing → CatalogCurationListing) (hf : ∀ l, f (g l) = f l) :
    (listings.map g).map f = listings.map f := by
  rw [List.map_map]
  exact List.map_congr_left fun l _ => hf l

/-- **A consistent draft stays consistent.** -/
theorem Edits.consistent {current next : Ready} {edit : Edit} (h : Edits current edit next)
    (hc : current.Consistent) : next.Consistent := by
  cases h with
  | noOffer offerKey draws => exact .redraft hc.ids hc.keys
  | created offer draws draw hoffer hnone hfresh =>
    refine .redraft ?_ ?_
    · rw [List.map_append, List.nodup_append]
      refine ⟨hc.ids, List.nodup_singleton _, ?_⟩
      rintro id hid id' hid' rfl
      obtain rfl : id = candidateId draw := List.mem_singleton.1 hid'
      exact hfresh hid
    · rw [List.flatMap_append, List.nodup_append]
      refine ⟨hc.keys, List.nodup_singleton _, ?_⟩
      rintro k hk k' hk' rfl
      obtain rfl : k = offer.key := List.mem_singleton.1 hk'
      obtain ⟨l, hl, hkl⟩ := List.mem_flatMap.1 hk
      have hassigned := (hc.assigned offer hoffer l.id).2 ⟨l, hl, rfl, hkl⟩
      rw [hnone] at hassigned
      cases hassigned
  | lastOffer offerKey => exact hc.withSave _
  | assigned offerKey listingId _ =>
    refine .redraft ?_ (nodup_keys_moveKey hc.ids hc.keys)
    rw [map_patch _ _ fun l => moveKey_id _ _ l]
    exact hc.ids
  | updated listingId patch =>
    have hid : ∀ l : CatalogCurationListing,
        (if l.id = listingId then applyPatch patch l else l).id = l.id := by
      intro l
      split <;> rfl
    have hkeys : ∀ l : CatalogCurationListing,
        (if l.id = listingId then applyPatch patch l else l).offerKeys = l.offerKeys := by
      intro l
      split <;> rfl
    refine .redraft ?_ ?_
    · rw [map_patch _ _ hid]
      exact hc.ids
    · rw [List.flatMap_map]
      simp only [hkeys]
      exact hc.keys
  | notMoved listingId direction => exact .redraft hc.ids hc.keys
  | moved listingId direction start x y rest hsort =>
    have hr := rearranged_renumber (perm_of_sortListings hsort)
    exact .redraft (hr.ids hc.ids) (hr.keys hc.keys)
  | deleted listingId =>
    have hperm : (sortListings (current.listings.filter (·.id ≠ listingId))).Perm
        (current.listings.filter (·.id ≠ listingId)) := perm_sortBy _
    have hr := rearranged_renumber hperm
    have hsub : (current.listings.filter (·.id ≠ listingId)).Sublist current.listings :=
      List.filter_sublist
    exact .redraft (hr.ids (hc.ids.sublist (hsub.map _)))
      (hr.keys (hc.keys.sublist (hsub.flatMap _)))

/-- Listings that stay keep what they have. -/
theorem keeps_of_mem {current next : Ready} {edit : Edit}
    (h : ∀ l ∈ current.listings, ∃ l' ∈ next.listings, l'.id = l.id ∧
      ∀ key ∈ l.offerKeys, key ∈ l'.offerKeys) :
    ∀ l ∈ current.listings, ∀ key ∈ l.offerKeys,
      (∃ l' ∈ next.listings, l'.id = l.id ∧ key ∈ l'.offerKeys) ∨
      edit = .deleteListing l.id ∨ ∃ listingId, edit = .assignOffer key listingId := by
  intro l hl key hk
  obtain ⟨l', hl', hid, hkeys⟩ := h l hl
  exact .inl ⟨l', hl', hid, hkeys key hk⟩

/-- **What an operation may do** is what it does. -/
theorem Edits.law {current next : Ready} {edit : Edit} (h : Edits current edit next) :
    EditLaw current next edit := by
  cases h with
  | noOffer offerKey draws =>
    refine ⟨keeps_of_mem fun l hl => ⟨l, hl, rfl, fun _ hk => hk⟩, ?_, ?_⟩
    · rintro _ _ ⟨⟩
    · rintro _ ⟨⟩
  | created offer draws draw hoffer hnone hfresh =>
    refine ⟨keeps_of_mem fun l hl => ⟨l, List.mem_append_left _ hl, rfl, fun _ hk => hk⟩, ?_, ?_⟩
    · rintro _ _ ⟨⟩
    · rintro _ ⟨⟩
  | lastOffer offerKey =>
    refine ⟨keeps_of_mem fun l hl => ⟨l, hl, rfl, fun _ hk => hk⟩, ?_, ?_⟩
    · rintro _ _ ⟨⟩
    · rintro _ ⟨⟩
  | assigned offerKey listingId _ =>
    refine ⟨fun l hl key hk => ?_, ?_, ?_⟩
    · by_cases hkey : key = offerKey
      · exact .inr (.inr ⟨listingId, by rw [hkey]⟩)
      · exact .inl ⟨_, List.mem_map_of_mem hl, moveKey_id _ _ l, mem_moveKey.2 (.inl ⟨hk, hkey⟩)⟩
    · rintro _ _ ⟨⟩
    · rintro _ ⟨⟩
  | updated listingId patch =>
    refine ⟨keeps_of_mem fun l hl => ⟨_, List.mem_map_of_mem hl, ?_, ?_⟩, ?_, ?_⟩
    · split <;> rfl
    · intro key hk
      split
      · exact hk
      · exact hk
    · rintro _ _ ⟨⟩
    · rintro _ ⟨⟩
  | notMoved listingId direction =>
    refine ⟨keeps_of_mem fun l hl => ⟨l, hl, rfl, fun _ hk => hk⟩, ?_, ?_⟩
    · exact fun _ _ _ => .inl rfl
    · rintro _ ⟨⟩
  | moved listingId direction start x y rest hsort =>
    refine ⟨keeps_of_mem fun l hl => ?_, ?_, ?_⟩
    · obtain ⟨l', hl', hid, hkeys⟩ := (rearranged_renumber (perm_of_sortListings hsort)).mem hl
      exact ⟨l', hl', hid, fun key hk => hkeys ▸ hk⟩
    · intro _ _ _
      refine .inr ⟨start.map (·.id), x.id, y.id, rest.map (·.id), ?_, ?_⟩
      · rw [Ready.order, hsort, List.map_append, List.map_cons, List.map_cons]
      · rw [order_renumber, List.map_append, List.map_cons, List.map_cons]
    · rintro _ ⟨⟩
  | deleted listingId =>
    refine ⟨fun l hl key hk => ?_, ?_, ?_⟩
    · by_cases hid : l.id = listingId
      · exact .inr (.inl (by rw [hid]))
      · have hmem : l ∈ current.listings.filter (·.id ≠ listingId) :=
          List.mem_filter.2 ⟨hl, decide_eq_true hid⟩
        obtain ⟨l', hl', hid', hkeys⟩ := (rearranged_renumber (perm_sortBy _)).mem hmem
        exact .inl ⟨l', hl', hid', hkeys ▸ hk⟩
    · rintro _ _ ⟨⟩
    · rintro _ ⟨⟩
      show (redraft current (renumber _)).order = _
      rw [order_renumber, Ready.order, List.filter_map, sortListings, sortListings, ← filter_sortBy]
      rfl

/-! ## Runs -/

/-- A draft of the state is consistent. -/
def CatalogCurationState.Consistent : CatalogCurationState → Prop
  | .ready current => current.Consistent
  | _ => True

theorem mapWorkspace_consistent {workspace : CatalogCurationWorkspaceWire}
    (hids : (workspace.listings.map (·.id)).Nodup)
    (hkeys : (workspace.listings.flatMap (·.offerKeys)).Nodup) (save : CatalogCurationSaveState) :
    (mapWorkspace workspace save).Consistent := by
  unfold mapWorkspace
  split
  · exact trivial
  · have hr : (sortListings (workspace.listings.map mapListing)).Perm
        (workspace.listings.map mapListing) := perm_sortBy _
    have hids' : ((workspace.listings.map mapListing).map (·.id)).Nodup := by
      rw [List.map_map]
      exact hids
    have hkeys' : ((workspace.listings.map mapListing).flatMap (·.offerKeys)).Nodup := by
      rw [List.flatMap_map]
      exact hkeys
    refine ⟨((hr.map _).nodup_iff).2 hids', ((hr.flatMap_right _).nodup_iff).2 hkeys', ?_⟩
    intro offer hoffer id
    obtain ⟨o, -, rfl⟩ := List.mem_map.1 hoffer
    have howner : (mapOffer workspace.listings o).assignedListingId =
        owner ((workspace.listings.map mapListing).map fun l => (l.id, l.offerKeys)) o.key := by
      rw [List.map_map]
      rfl
    rw [howner, owner_listings hkeys']
    simp only [mem_sortListings]
    rfl

/-- The draft and the workspace that it was mapped from. -/
structure Hook.Consistent (hook : Hook) : Prop where
  state : hook.state.Consistent
  baseline : ∀ workspace, hook.baseline = some workspace → workspace.Consistent

/-- The workspaces that an event brings. -/
def Event.workspace? : Event → Option CatalogCurationWorkspaceWire
  | .loaded workspace | .saved workspace => some workspace
  | _ => none

/-- An operation keeps the states of other kinds. -/
theorem Edit.apply_not_ready {edit : Edit} {state next : CatalogCurationState}
    (hstate : ∀ current, state ≠ .ready current) (h : edit.apply state = some next) :
    next = state := by
  have hupdate (mutate) (hm : updateReady mutate state = some next) : next = state := by
    cases state with
    | ready current => exact absurd rfl (hstate current)
    | _ => exact (Option.some.inj hm).symm
  cases edit with
  | createListing offerKey draws => exact hupdate _ h
  | assignOffer offerKey listingId =>
    cases state with
    | ready current => exact absurd rfl (hstate current)
    | _ => exact (Option.some.inj h).symm
  | updateListing listingId patch => exact hupdate _ h
  | moveListing listingId direction => exact hupdate _ h
  | deleteListing listingId => exact hupdate _ h

theorem Edit.apply_consistent {edit : Edit} {state next : CatalogCurationState}
    (hc : state.Consistent) (h : edit.apply state = some next) : next.Consistent := by
  cases state with
  | ready current =>
    by_cases hsave : current.save = .saving
    · rw [edit.apply_saving hsave] at h
      cases h
      exact hc
    · obtain ⟨draft, rfl, hedit⟩ := Edit.apply_ready hsave h
      exact hedit.consistent hc
  | _ =>
    rw [Edit.apply_not_ready (by rintro _ ⟨⟩) h]
    exact trivial

theorem onSave_consistent {state : CatalogCurationState} (hc : state.Consistent) :
    (onSave state).Consistent := by
  cases state with
  | ready current =>
    by_cases hsave : current.save = .saving
    · rw [onSave, if_pos hsave]
      exact hc
    · rw [onSave, if_neg hsave]
      cases validateDraft current.listings with
      | some message => exact Ready.Consistent.withSave hc _
      | none => exact Ready.Consistent.withSave hc _
  | _ => exact trivial

theorem refused_consistent {state : CatalogCurationState} (hc : state.Consistent)
    (isConflict : Bool) : (refused isConflict state).Consistent := by
  cases state with
  | ready current => exact Ready.Consistent.withSave hc _
  | _ => exact trivial

theorem onReset_consistent {hook : Hook} (hc : hook.Consistent) : (onReset hook).Consistent := by
  unfold onReset
  split
  · exact trivial
  · split
    · exact trivial
    · next workspace hbase =>
      have hw := hc.baseline workspace hbase
      exact mapWorkspace_consistent hw.ids hw.keys _

theorem Hook.step_consistent {hook next : Hook} {event : Event} (hc : hook.Consistent)
    (hevent : ∀ workspace, event.workspace? = some workspace → workspace.Consistent)
    (h : hook.step event = some next) : next.Consistent := by
  cases event with
  | edit edit =>
    obtain ⟨state, hstate, rfl⟩ := Option.map_eq_some_iff.1 h
    exact ⟨Edit.apply_consistent hc.state hstate, hc.baseline⟩
  | reset =>
    cases h
    exact ⟨onReset_consistent hc, hc.baseline⟩
  | retry =>
    cases h
    exact ⟨trivial, hc.baseline⟩
  | opened =>
    cases h
    exact ⟨trivial, hc.baseline⟩
  | save =>
    cases h
    exact ⟨onSave_consistent hc.state, hc.baseline⟩
  | loaded workspace =>
    cases h
    have hw := hevent workspace rfl
    refine ⟨mapWorkspace_consistent hw.ids hw.keys _, ?_⟩
    rintro _ ⟨⟩
    exact hw
  | loadFailed =>
    cases h
    exact ⟨trivial, hc.baseline⟩
  | saved workspace =>
    cases h
    have hw := hevent workspace rfl
    refine ⟨mapWorkspace_consistent hw.ids hw.keys _, ?_⟩
    rintro _ ⟨⟩
    exact hw
  | saveFailed isConflict =>
    cases h
    exact ⟨refused_consistent hc.state isConflict, hc.baseline⟩

theorem Session.run_consistent {events : List Event} {session next : Session}
    (hc : session.hook.Consistent)
    (hevents : ∀ event ∈ events, ∀ workspace, event.workspace? = some workspace →
      workspace.Consistent)
    (h : session.run events = some next) : next.hook.Consistent := by
  induction events generalizing session with
  | nil =>
    cases h
    exact hc
  | cons event events ih =>
    obtain ⟨middle, hstep, hrest⟩ := Option.bind_eq_some_iff.1 h
    obtain ⟨hook, hhook, rfl⟩ := Option.map_eq_some_iff.1 hstep
    refine ih (session.hook.step_consistent hc (hevents event List.mem_cons_self) hhook) ?_ hrest
    exact fun event' h' => hevents event' (List.mem_cons_of_mem _ h')

/-! ## Saves without an answer -/

/-- What may come while a save has no answer: an operation, `onSave`, which does nothing
then, and the answer. -/
def Event.waits : Event → Bool
  | .edit _ | .save | .saved _ | .saveFailed _ => true
  | .reset | .retry | .opened | .loaded _ | .loadFailed => false

/-- While a save has no answer, only such events come. -/
def Session.Undisturbed : Session → List Event → Prop
  | _, [] => True
  | session, event :: events => (0 < session.unanswered → event.waits = true) ∧
      ∀ next, session.step event = some next → next.Undisturbed events

/-- A save has no answer only as long as the draft says so, and there is one such save. -/
def Session.Locked (session : Session) : Prop :=
  0 < session.unanswered → session.unanswered = 1 ∧
    ∃ current, session.hook.state = .ready current ∧ current.save = .saving

theorem onSave_saving {current : Ready} (h : current.save = .saving) :
    onSave (.ready current) = .ready current :=
  if_pos h

/-- A request is made for a draft that is being saved from then on. -/
theorem onSave_sends {state : CatalogCurationState} (h : sends state = true) :
    ∃ current, onSave state = .ready current ∧ current.save = .saving := by
  cases state with
  | ready current =>
    obtain ⟨hsave, hvalid⟩ := (Bool.and_eq_true _ _).mp h
    refine ⟨{ current with save := .saving }, ?_, rfl⟩
    rw [onSave, if_neg (of_decide_eq_true hsave), Option.isNone_iff_eq_none.1 hvalid]
  | _ => cases h

theorem sends_saving {current : Ready} (h : current.save = .saving) :
    sends (.ready current) = false := by
  rw [sends, h]
  rfl

theorem Session.Locked.step {session next : Session} {event : Event} (hl : session.Locked)
    (hwaits : 0 < session.unanswered → event.waits = true) (h : session.step event = some next) :
    next.Locked := by
  obtain ⟨hook, hhook, rfl⟩ := Option.map_eq_some_iff.1 h
  intro hpos
  rcases Nat.eq_zero_or_pos session.unanswered with hzero | hopen
  · -- only `onSave` makes a request
    cases event with
    | save =>
      cases hhook
      by_cases hsends : sends session.hook.state = true
      · refine ⟨?_, onSave_sends hsends⟩
        show (if sends session.hook.state then _ else _) = 1
        rw [if_pos hsends, hzero]
      · replace hpos : 0 < if sends session.hook.state then session.unanswered + 1
          else session.unanswered := hpos
        rw [if_neg hsends, hzero] at hpos
        cases hpos
    | saved workspace | saveFailed isConflict =>
      exact absurd (show 0 < session.unanswered - 1 from hpos) (by omega)
    | _ => exact absurd (show 0 < session.unanswered from hpos) (by omega)
  · obtain ⟨hone, current, hstate, hsave⟩ := hl hopen
    have hevent := hwaits hopen
    cases event with
    | edit edit =>
      obtain ⟨state, happly, rfl⟩ := Option.map_eq_some_iff.1 hhook
      rw [hstate, edit.apply_saving hsave] at happly
      cases happly
      exact ⟨hone, current, rfl, hsave⟩
    | save =>
      cases hhook
      refine ⟨?_, current, ?_, hsave⟩
      · show (if sends session.hook.state then _ else _) = 1
        rw [hstate, sends_saving hsave]
        exact hone
      · show onSave session.hook.state = _
        rw [hstate, onSave_saving hsave]
    | saved workspace | saveFailed isConflict =>
      exact absurd (show 0 < session.unanswered - 1 from hpos) (by omega)
    | _ => cases hevent

theorem Session.Locked.run {events : List Event} {session next : Session} (hl : session.Locked)
    (hu : session.Undisturbed events) (h : session.run events = some next) : next.Locked := by
  induction events generalizing session with
  | nil =>
    cases h
    exact hl
  | cons event events ih =>
    obtain ⟨middle, hstep, hrest⟩ := Option.bind_eq_some_iff.1 h
    exact ih (hl.step hu.1 hstep) (hu.2 middle hstep) hrest

theorem mapWorkspace_save {workspace : CatalogCurationWorkspaceWire}
    {save : CatalogCurationSaveState} {current : Ready}
    (h : mapWorkspace workspace save = .ready current) : current.save = save := by
  unfold mapWorkspace at h
  split at h
  · cases h
  · cases h
    rfl

/-- After any other event a draft is clean. -/
theorem Hook.step_clean {hook next : Hook} {event : Event} (hevent : event.waits = false)
    (h : hook.step event = some next) {current : Ready} (hcurrent : next.state = .ready current) :
    current.save = .clean := by
  cases event with
  | reset =>
    cases h
    replace hcurrent : onReset hook = .ready current := hcurrent
    unfold onReset at hcurrent
    split at hcurrent
    · cases hcurrent
    · split at hcurrent
      · cases hcurrent
      · exact mapWorkspace_save hcurrent
  | retry | opened | loadFailed =>
    cases h
    cases hcurrent
  | loaded workspace =>
    cases h
    exact mapWorkspace_save hcurrent
  | _ => cases hevent

/-- No operation leaves a draft clean. -/
theorem Edits.save_ne {current next : Ready} {edit : Edit} (h : Edits current edit next) :
    next.save ≠ .clean := by
  cases h <;> exact nofun

theorem Edit.apply_clean {edit : Edit} {current : Ready} (h : current.save = .clean) :
    edit.apply (.ready current) ≠ some (.ready current) := by
  intro happly
  obtain ⟨next, hnext, hedit⟩ := Edit.apply_ready (by rw [h]; exact nofun) happly
  cases hnext
  exact hedit.save_ne h

/-- **The assignments of a draft.** From a consistent workspace, and with every workspace that
is loaded later consistent, every draft is consistent and every operation keeps its law; a
draft that is being saved is not edited. Nor is any while a save has no answer, in a run where
only operations and the answer come meanwhile. After any other event every operation changes
a draft, and the save has no answer still. -/
theorem draft_assignments {workspace : CatalogCurationWorkspaceWire} (hw : workspace.Consistent)
    {events : List Event}
    (hevents : ∀ event ∈ events, ∀ workspace, event.workspace? = some workspace →
      workspace.Consistent)
    {session : Session} (hrun : (Session.start workspace).run events = some session) :
    (∀ current, session.hook.state = .ready current → current.Consistent ∧ ∀ edit : Edit,
      (current.save = .saving → edit.apply session.hook.state = some session.hook.state) ∧
      (current.save ≠ .saving → ∀ state, edit.apply session.hook.state = some state →
        ∃ next, state = .ready next ∧ EditLaw current next edit)) ∧
    ((Session.start workspace).Undisturbed events → 0 < session.unanswered →
      ∀ edit : Edit, edit.apply session.hook.state = some session.hook.state) ∧
    ∀ event next, event.waits = false → session.step event = some next →
      next.unanswered = session.unanswered ∧ ∀ current, next.hook.state = .ready current →
        ∀ edit : Edit, edit.apply next.hook.state ≠ some next.hook.state := by
  have hstart : (Session.start workspace).hook.Consistent := by
    refine ⟨mapWorkspace_consistent hw.ids hw.keys _, ?_⟩
    rintro _ ⟨⟩
    exact hw
  have hc := (Session.run_consistent hstart hevents hrun).state
  refine ⟨fun current hcurrent => ?_, fun hu hopen edit => ?_, fun event next hevent hstep => ?_⟩
  · rw [hcurrent] at hc ⊢
    refine ⟨hc, fun edit => ⟨edit.apply_saving, fun hsave state h => ?_⟩⟩
    obtain ⟨next, rfl, hedit⟩ := Edit.apply_ready hsave h
    exact ⟨next, rfl, hedit.law⟩
  · have hlocked : (Session.start workspace).Locked := fun h => absurd h (Nat.lt_irrefl 0)
    obtain ⟨-, current, hstate, hsave⟩ := hlocked.run hu hrun hopen
    rw [hstate]
    exact edit.apply_saving hsave
  · obtain ⟨hook, hhook, rfl⟩ := Option.map_eq_some_iff.1 hstep
    refine ⟨?_, fun current hcurrent edit => ?_⟩
    · cases event with
      | edit | save | saved | saveFailed => cases hevent
      | _ => rfl
    · have hclean := Hook.step_clean hevent hhook hcurrent
      show edit.apply hook.state ≠ some hook.state
      rw [show hook.state = .ready current from hcurrent]
      exact Edit.apply_clean hclean

/-- A listing of one offer. -/
def sampleListing (id key : Str) (sortOrder : Nat) : CatalogCurationListingWire where
  id := id
  name := str "Nyan"
  description := str "Nyan"
  category := none
  visible := false
  sortOrder := .finite sortOrder
  retailPrice := none
  offerKeys := [key]

def sampleWorkspace : CatalogCurationWorkspaceWire where
  revision := .finite 1
  offers := []
  listings := [sampleListing (str "a") (str "x") 0, sampleListing (str "b") (str "y") 7]
  unresolvedOfferCount := .finite 2
  sourcePartial := false

theorem sampleWorkspace_consistent : sampleWorkspace.Consistent :=
  ⟨by decide +kernel, by decide +kernel, .nil⟩

/-- A listing is moved and the draft is saved. -/
def sampleEvents : List Event :=
  [.edit (.moveListing (str "b") .up), .save, .edit (.assignOffer (str "x") (some (str "b")))]

theorem sampleEvents_workspace : ∀ event ∈ sampleEvents, ∀ workspace,
    event.workspace? = some workspace → workspace.Consistent := by
  intro event hevent workspace hworkspace
  simp only [sampleEvents, List.mem_cons, List.not_mem_nil, or_false] at hevent
  rcases hevent with rfl | rfl | rfl <;> cases hworkspace

/-- What an operation makes of the order in a session, and how many saves have no answer. -/
def Session.edited (session : Session) (edit : Edit) : Nat × List Str × Option (List Str) :=
  (session.unanswered, session.hook.state.order, (edit.apply session.hook.state).map (·.order))

theorem draft_assignments_sample :
    (∃ session, (Session.start sampleWorkspace).run sampleEvents = some session ∧
      session.unanswered = 1 ∧
      ∀ edit : Edit, edit.apply session.hook.state = some session.hook.state) ∧
    ∃ current next, (Session.start sampleWorkspace).hook.state = .ready current ∧
      EditLaw current next (.assignOffer (str "x") (some (str "b"))) := by
  constructor
  · have hone : ((Session.start sampleWorkspace).run sampleEvents).map (·.unanswered) = some 1 := by
      decide +kernel
    obtain ⟨session, hrun, hone⟩ := Option.map_eq_some_iff.1 hone
    refine ⟨session, hrun, hone, ?_⟩
    refine (draft_assignments sampleWorkspace_consistent sampleEvents_workspace hrun).2.1 ?_
      (by omega)
    exact ⟨fun _ => rfl, fun _ _ => ⟨fun _ => rfl, fun _ _ => ⟨fun _ => rfl, fun _ _ => trivial⟩⟩⟩
  · have hrun : (Session.start sampleWorkspace).run [] = some (Session.start sampleWorkspace) := rfl
    have hlaw := (draft_assignments sampleWorkspace_consistent (by simp) hrun).1 _ rfl
    obtain ⟨next, -, hedit⟩ := (hlaw.2 (.assignOffer (str "x") (some (str "b")))).2
      (by decide) _ rfl
    exact ⟨_, next, rfl, hedit⟩

/-- **A draft is edited while it is being saved**: after a reset, and after the view was opened
again, the request has no answer still. -/
theorem edited_while_saving :
    (∃ session, (Session.start sampleWorkspace).run [.save, .reset] = some session ∧
      session.unanswered = 1 ∧
      (Edit.moveListing (str "b") .up).apply session.hook.state ≠ some session.hook.state) ∧
    ∃ session, (Session.start sampleWorkspace).run [.save, .opened, .loaded sampleWorkspace] =
        some session ∧ session.unanswered = 1 ∧
      (Edit.moveListing (str "b") .up).apply session.hook.state ≠ some session.hook.state := by
  have hedited {events : List Event}
      (h : ((Session.start sampleWorkspace).run events).map
      (·.edited (.moveListing (str "b") .up)) =
        some (1, [str "a", str "b"], some [str "b", str "a"])) :
      ∃ session, (Session.start sampleWorkspace).run events = some session ∧
        session.unanswered = 1 ∧
        (Edit.moveListing (str "b") .up).apply session.hook.state ≠ some session.hook.state := by
    obtain ⟨session, hrun, hs⟩ := Option.map_eq_some_iff.1 h
    obtain ⟨hone, hs⟩ := Prod.mk.inj hs
    obtain ⟨hbefore, hafter⟩ := Prod.mk.inj hs
    refine ⟨session, hrun, hone, fun hsame => ?_⟩
    rw [hsame, Option.map_some, hbefore] at hafter
    exact absurd hafter (by decide)
  exact ⟨hedited (by decide +kernel), hedited (by decide +kernel)⟩

end NyanShopBot.Admin
