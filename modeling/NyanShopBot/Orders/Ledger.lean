import Mathlib.Logic.Function.Basic
import NyanShopBot.Orders.Models

/-!
# What the order tables are for

A `Ledger` maps an intent to its `Obligation`: the request that was promised to
the supplier, how far the purchase is, and the deliveries made of it. A purchase
carries its own evidence, so a reference exists exactly when it succeeded.
`Ledger.Step` is everything that may ever happen to a ledger; `Later` is its
effect on one obligation, closed under composition.
-/

namespace NyanShopBot.Orders

open Py

/-- How far a purchase is, with the evidence of its end. -/
inductive Purchase where
  | prepared
  | dispatching
  | succeeded (reference : Str)
  | failedSafe (code : SafeFailureCode)
  | unknown
  | reconciling
deriving DecidableEq

namespace Purchase

def state : Purchase → PurchaseState
  | prepared => .prepared
  | dispatching => .dispatching
  | succeeded _ => .succeeded
  | failedSafe _ => .failedSafe
  | unknown => .unknown
  | reconciling => .reconciling

def reference : Purchase → Option Str
  | succeeded r => some r
  | _ => none

def failure : Purchase → Option SafeFailureCode
  | failedSafe c => some c
  | _ => none

/-- A dispatch or a reconciliation is waiting for evidence. -/
def Open (p : Purchase) : Prop := p = dispatching ∨ p = reconciling

/-- **The only ways a purchase can move.** -/
inductive Step : Purchase → Purchase → Prop where
  | claim : Step prepared dispatching
  | succeed {p : Purchase} (r : Str) : p.Open → Step p (succeeded r)
  | fail {p : Purchase} (c : SafeFailureCode) : p.Open → Step p (failedSafe c)
  | lose : Step dispatching unknown
  | reconcile : Step unknown reconciling

theorem reference_isSome (p : Purchase) : p.reference.isSome = true ↔ p.state = .succeeded := by
  cases p <;> simp [reference, state]

theorem failure_isSome (p : Purchase) : p.failure.isSome = true ↔ p.state = .failedSafe := by
  cases p <;> simp [failure, state]

/-- A purchase is its state with its evidence. -/
theorem ext_of_columns {p q : Purchase} (hs : p.state = q.state) (hr : p.reference = q.reference)
    (hf : p.failure = q.failure) : p = q := by
  cases p <;> cases q <;> simp_all [state, reference, failure]

theorem open_iff {p : Purchase} :
    p.Open ↔ p.state = .dispatching ∨ p.state = .reconciling := by
  cases p <;> simp [Open, state]

theorem eq_of_state {p q : Purchase} (h : p.state = q.state)
    (hq : q = prepared ∨ q = dispatching ∨ q = unknown ∨ q = reconciling) : p = q := by
  rcases hq with rfl | rfl | rfl | rfl <;> cases p <;> first | rfl | cases h

/-- A purchase with an end has no step. -/
theorem Step.not_ended {p q : Purchase} (h : Step p q) :
    p.state ≠ .succeeded ∧ p.state ≠ .failedSafe := by
  cases h with
  | claim => decide
  | succeed r h => rcases h with rfl | rfl <;> decide
  | fail c h => rcases h with rfl | rfl <;> decide
  | lose => decide
  | reconcile => decide

theorem Step.not_prepared {p q : Purchase} (h : Step p q) : q ≠ prepared := by
  cases h <;> simp

/-- Only a claim leads to the dispatching state. -/
theorem Step.not_dispatching {p q : Purchase} (h : Step p q) (hp : p ≠ prepared) :
    q ≠ dispatching := by
  cases h with
  | claim => exact absurd rfl hp
  | _ => simp

/-- Reachable by steps of the purchase. -/
inductive Reaches : Purchase → Purchase → Prop where
  | refl (p : Purchase) : Reaches p p
  | tail {p q r : Purchase} : Reaches p q → Step q r → Reaches p r

theorem Reaches.trans {p q r : Purchase} (h : Reaches p q) (h' : Reaches q r) : Reaches p r := by
  induction h' with
  | refl => exact h
  | tail _ hs ih => exact .tail ih hs

/-- What every step keeps. -/
theorem Reaches.keeps {P : Purchase → Prop} (hP : ∀ {p q}, P p → Step p q → P q) {p q : Purchase}
    (h : Reaches p q) (hp : P p) : P q := by
  induction h with
  | refl => exact hp
  | tail _ hs ih => exact hP ih hs

/-- Nothing returns to the prepared state. -/
theorem Reaches.not_prepared {p q : Purchase} (h : Reaches p q) (hp : p ≠ prepared) :
    q ≠ prepared :=
  h.keeps (P := (· ≠ prepared)) (fun _ hs => hs.not_prepared) hp

end Purchase

/-- One delivery of a purchased order. -/
inductive Delivery where
  | pending
  | succeeded
  | failed (code : Str)
deriving DecidableEq

def Delivery.state : Delivery → DeliveryState
  | pending => .pending
  | succeeded => .succeeded
  | failed _ => .failed

def Delivery.failure : Delivery → Option Str
  | failed c => some c
  | _ => none

section

variable [UnicodeData]

/-- One intent: its request, its purchase, and its deliveries in order. Only a
purchase that succeeded has deliveries. -/
structure Obligation where
  idempotencyKey : Str
  requestKey : Str
  requestFingerprint : Str
  payload : CanonicalPurchasePayload
  purchase : Purchase
  deliveries : List Delivery
  delivered : deliveries ≠ [] → purchase.state = .succeeded

namespace Obligation

def move (o : Obligation) (p : Purchase) (h : o.purchase.Step p) : Obligation :=
  { o with purchase := p, delivered := fun hd => absurd (o.delivered hd) h.not_ended.1 }

def openDelivery (o : Obligation) (h : o.purchase.state = .succeeded) : Obligation :=
  { o with deliveries := o.deliveries ++ [.pending], delivered := fun _ => h }

def closeDelivery (o : Obligation) (n : Nat) (d : Delivery) : Obligation :=
  { o with
    deliveries := o.deliveries.set n d
    delivered := fun hd => o.delivered fun h => hd (by rw [h]; rfl) }

end Obligation

/-- A delivery that has ended does not change. -/
def Delivery.Kept (d d' : Delivery) : Prop := d ≠ .pending → d' = d

/-- **What can have become of an obligation later**: the request is the same, the
purchase moved by its steps, deliveries were only added, and ended ones are kept. -/
structure Obligation.Later (o o' : Obligation) : Prop where
  idempotencyKey : o'.idempotencyKey = o.idempotencyKey
  requestKey : o'.requestKey = o.requestKey
  requestFingerprint : o'.requestFingerprint = o.requestFingerprint
  payload : o'.payload = o.payload
  purchase : o.purchase.Reaches o'.purchase
  deliveries : ∀ (n : Nat) (d : Delivery), o.deliveries[n]? = some d →
    ∃ d', o'.deliveries[n]? = some d' ∧ d.Kept d'

namespace Obligation.Later

theorem refl (o : Obligation) : o.Later o :=
  ⟨rfl, rfl, rfl, rfl, .refl _, fun _ d h => ⟨d, h, fun _ => rfl⟩⟩

theorem trans {o o₁ o₂ : Obligation} (h : o.Later o₁) (h' : o₁.Later o₂) : o.Later o₂ where
  idempotencyKey := h'.idempotencyKey.trans h.idempotencyKey
  requestKey := h'.requestKey.trans h.requestKey
  requestFingerprint := h'.requestFingerprint.trans h.requestFingerprint
  payload := h'.payload.trans h.payload
  purchase := h.purchase.trans h'.purchase
  deliveries n d hd := by
    obtain ⟨d₁, hd₁, hk₁⟩ := h.deliveries n d hd
    obtain ⟨d₂, hd₂, hk₂⟩ := h'.deliveries n d₁ hd₁
    refine ⟨d₂, hd₂, fun hp => ?_⟩
    have e := hk₁ hp
    subst e
    exact hk₂ hp

end Obligation.Later

theorem Obligation.later_move (o : Obligation) (p : Purchase) (h : o.purchase.Step p) :
    o.Later (o.move p h) :=
  ⟨rfl, rfl, rfl, rfl, .tail (.refl _) h, fun _ d hd => ⟨d, hd, fun _ => rfl⟩⟩

theorem Obligation.later_openDelivery (o : Obligation) (h : o.purchase.state = .succeeded) :
    o.Later (o.openDelivery h) := by
  refine ⟨rfl, rfl, rfl, rfl, .refl _, fun n d hd => ⟨d, ?_, fun _ => rfl⟩⟩
  have hn : n < o.deliveries.length := (List.getElem?_eq_some_iff.1 hd).1
  simpa [openDelivery, List.getElem?_append_left hn] using hd

theorem Obligation.later_closeDelivery (o : Obligation) {n : Nat} (d : Delivery)
    (h : o.deliveries[n]? = some .pending) : o.Later (o.closeDelivery n d) := by
  refine ⟨rfl, rfl, rfl, rfl, .refl _, fun m e he => ?_⟩
  have hm : m < o.deliveries.length := (List.getElem?_eq_some_iff.1 he).1
  by_cases hmn : n = m
  · subst hmn
    refine ⟨d, by simp [closeDelivery, List.getElem?_set_self hm], fun hp => ?_⟩
    rw [h] at he
    exact absurd (Option.some.inj he).symm hp
  · exact ⟨e, by simpa [closeDelivery, List.getElem?_set_ne hmn] using he, fun _ => rfl⟩

/-- The obligations by intent. -/
abbrev Ledger := Str → Option Obligation

/-- **Everything one operation may do to a ledger.** -/
inductive Ledger.Step (L : Ledger) : Ledger → Prop where
  | opened {id : Str} {o : Obligation} : L id = none →
      (∀ id' o', L id' = some o' → o'.idempotencyKey ≠ o.idempotencyKey) →
      o.purchase = .prepared → o.deliveries = [] → Step L (Function.update L id (some o))
  | moved {id : Str} {o : Obligation} {p : Purchase} (h : o.purchase.Step p) : L id = some o →
      Step L (Function.update L id (some (o.move p h)))
  | deliveryOpened {id : Str} {o : Obligation} (h : o.purchase.state = .succeeded) :
      L id = some o → Step L (Function.update L id (some (o.openDelivery h)))
  | deliveryClosed {id : Str} {o : Obligation} {n : Nat} {d : Delivery} : L id = some o →
      o.deliveries[n]? = some .pending → d ≠ .pending →
      Step L (Function.update L id (some (o.closeDelivery n d)))

/-- A step of the ledger keeps every obligation or moves it on. -/
theorem Ledger.Step.later {L L' : Ledger} (h : L.Step L') {id : Str} {o : Obligation}
    (ho : L id = some o) : ∃ o', L' id = some o' ∧ o.Later o' := by
  have at_id {id₁ : Str} {o₁ o₂ : Obligation} (h₁ : L id₁ = some o₁) (hl : o₁.Later o₂) :
      ∃ o', Function.update L id₁ (some o₂) id = some o' ∧ o.Later o' := by
    by_cases e : id = id₁
    · subst e
      obtain rfl : o₁ = o := Option.some.inj (h₁.symm.trans ho)
      exact ⟨o₂, by simp, hl⟩
    · exact ⟨o, by simp [Function.update_of_ne e, ho], .refl o⟩
  cases h with
  | @opened id₁ o₁ hnew _ _ _ =>
    have e : id ≠ id₁ := fun e => by rw [e, hnew] at ho; cases ho
    exact ⟨o, by simp [Function.update_of_ne e, ho], .refl o⟩
  | moved hs h₁ => exact at_id h₁ (Obligation.later_move _ _ hs)
  | deliveryOpened hs h₁ => exact at_id h₁ (Obligation.later_openDelivery _ hs)
  | deliveryClosed h₁ hn _ => exact at_id h₁ (Obligation.later_closeDelivery _ _ hn)

/-- One step of the ledger moves the purchase of an intent by at most one step. -/
theorem Ledger.Step.purchase {L L' : Ledger} (h : L.Step L') {id : Str} {o o' : Obligation}
    (ho : L id = some o) (ho' : L' id = some o') :
    o'.purchase = o.purchase ∨ o.purchase.Step o'.purchase := by
  have at_id {id₁ : Str} {o₁ : Obligation} (o₂ : Obligation) (h₁ : L id₁ = some o₁)
      (hp : o₂.purchase = o₁.purchase ∨ o₁.purchase.Step o₂.purchase)
      (ho' : Function.update L id₁ (some o₂) id = some o') :
      o'.purchase = o.purchase ∨ o.purchase.Step o'.purchase := by
    by_cases e : id = id₁
    · subst e
      obtain rfl : o₁ = o := Option.some.inj (h₁.symm.trans ho)
      obtain rfl : o₂ = o' := by simpa using ho'
      exact hp
    · obtain rfl : o = o' := by simpa [Function.update_of_ne e, ho] using ho'
      exact .inl rfl
  cases h with
  | @opened id₁ o₁ hnew _ _ _ =>
    have e : id ≠ id₁ := fun e => by rw [e, hnew] at ho; cases ho
    obtain rfl : o = o' := by simpa [Function.update_of_ne e, ho] using ho'
    exact .inl rfl
  | moved hs h₁ => exact at_id _ h₁ (.inr hs) ho'
  | @deliveryOpened _ o₁ hs h₁ => exact at_id (o₁.openDelivery hs) h₁ (.inl rfl) ho'
  | @deliveryClosed _ o₁ n d h₁ _ _ => exact at_id (o₁.closeDelivery n d) h₁ (.inl rfl) ho'

/-- An intent that is new after a step is prepared. -/
theorem Ledger.Step.new {L L' : Ledger} (h : L.Step L') {id : Str} {o' : Obligation}
    (ho : L id = none) (ho' : L' id = some o') : o'.purchase = .prepared := by
  have at_id {id₁ : Str} {o₁ o₂ : Obligation} (h₁ : L id₁ = some o₁)
      (ho' : Function.update L id₁ (some o₂) id = some o') : o'.purchase = .prepared := by
    have e : id ≠ id₁ := fun e => by rw [e, h₁] at ho; cases ho
    simp [Function.update_of_ne e, ho] at ho'
  cases h with
  | @opened id₁ o₁ hnew _ hp _ =>
    by_cases e : id = id₁
    · subst e
      obtain rfl : o₁ = o' := by simpa using ho'
      exact hp
    · simp [Function.update_of_ne e, ho] at ho'
  | moved hs h₁ => exact at_id h₁ ho'
  | deliveryOpened hs h₁ => exact at_id h₁ ho'
  | deliveryClosed h₁ hn _ => exact at_id h₁ ho'

end

end NyanShopBot.Orders
