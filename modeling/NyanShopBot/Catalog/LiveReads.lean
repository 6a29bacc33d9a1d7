import NyanShopBot.Khommo.CatalogReader

/-!
# Live reads

What the live catalog readers have in common: the evidence that a read is fresh
(`freshNow`), and the envelopes of a read that failed (`errorResponse`) and of one that
shows its products (`liveResponse`). `FailClosed` is what a reader promises: an envelope
comes back, and it has either no item at all or all that was read.
-/

namespace NyanShopBot.Catalog

open Py

/-- What a live read can raise: a `ValidationError` or another `ValueError`, or an
`OverflowError`. -/
inductive LiveExc where
  | value
  | overflow
deriving DecidableEq

/-! ## Freshness -/

/-- The longest time, in seconds, of which there is a `timedelta`. -/
def maxTimedeltaSeconds : Nat := 86399999999999

/-- The `max_age_seconds` of a reader. -/
structure MaxAge where
  seconds : Nat
  positive : 0 < seconds

/-- A time that a clock returns: an instant in microseconds, none where the `datetime`
has no time zone. -/
abbrev Reading := Option Int

/-- `_freshness`: the evidence that a catalog is fresh. -/
def freshNow (maxAge : MaxAge) (observedAt evaluatedAt : Reading) :
    Except LiveExc CatalogFreshness :=
  match observedAt, evaluatedAt with
  | some observed, some evaluated =>
    if ordered : observed ≤ evaluated then
      if maxTimedeltaSeconds < maxAge.seconds then .error .overflow
      else if stale : maxAge.seconds * 1000000 < evaluated - observed then .error .value
      else .ok ⟨.fresh, observed, evaluated, maxAge.seconds, maxAge.positive, ordered,
        (if_neg stale).symm⟩
    else .error .value
  | _, _ => .error .value

/-- Evidence for a time that can be represented never overflows. -/
theorem freshNow_error {maxAge : MaxAge} {observedAt evaluatedAt : Reading} {e : LiveExc}
    (hage : maxAge.seconds ≤ maxTimedeltaSeconds)
    (h : freshNow maxAge observedAt evaluatedAt = .error e) : e = .value := by
  unfold freshNow at h
  split at h
  · split at h
    · rw [if_neg (by omega)] at h
      split at h
      · cases h
        rfl
      · cases h
    · cases h
      rfl
  · cases h
    rfl

/-- One time read twice is too long for a `timedelta` to say how old it may be. -/
theorem freshNow_overflow {maxAge : MaxAge} (hage : maxTimedeltaSeconds < maxAge.seconds)
    (now : Int) : freshNow maxAge (some now) (some now) = .error .overflow := by
  unfold freshNow
  dsimp only
  rw [dif_pos (Int.le_refl now), if_pos hage]

theorem freshNow_status {maxAge : MaxAge} {observedAt evaluatedAt : Reading}
    {freshness : CatalogFreshness} (h : freshNow maxAge observedAt evaluatedAt = .ok freshness) :
    freshness.status = .fresh := by
  unfold freshNow at h
  split at h
  · split at h
    · split at h
      · cases h
      · split at h
        · cases h
        · cases h
          rfl
    · cases h
  · cases h

/-! ## Envelopes -/

def CatalogResponse.make (supplier : Supplier) (mode : Mode) (state : CatalogState)
    (freshness : Option CatalogFreshness) (items : List CatalogProduct)
    (error : Option CatalogError) (isPartial : Bool) (omittedCount : Nat) :
    Except LiveExc CatalogResponse :=
  if h : (responseChecks supplier mode state freshness items error isPartial omittedCount).Pass then
    .ok ⟨supplier, mode, state, freshness, items, error, isPartial, omittedCount, h⟩
  else .error .value

theorem CatalogResponse.make_ok {supplier : Supplier} {mode : Mode} {state : CatalogState}
    {freshness : Option CatalogFreshness} {items : List CatalogProduct}
    {error : Option CatalogError} {isPartial : Bool} {omittedCount : Nat}
    (h : (responseChecks supplier mode state freshness items error isPartial omittedCount).Pass) :
    make supplier mode state freshness items error isPartial omittedCount =
      .ok ⟨supplier, mode, state, freshness, items, error, isPartial, omittedCount, h⟩ :=
  dif_pos h

/-- The envelope of a read that failed. -/
def errorResponse (supplier : Supplier) (error : CatalogError) : Except LiveExc CatalogResponse :=
  CatalogResponse.make supplier supplier.mode .error none [] (some error) false 0

/-- The envelope of a read that shows its products. -/
def liveResponse (supplier : Supplier) (freshness : CatalogFreshness)
    (items : List CatalogProduct) (omittedCount : Nat) : Except LiveExc CatalogResponse :=
  CatalogResponse.make supplier supplier.mode (if items.isEmpty then .empty else .fresh)
    (some freshness) items none (decide (0 < omittedCount)) omittedCount

/-- A failed read has an envelope without an item. -/
theorem errorResponse_ok (supplier : Supplier) (error : CatalogError) :
    ∃ response, errorResponse supplier error = .ok response ∧ response.state = .error ∧
      response.items = [] ∧ response.omittedCount = 0 := by
  refine ⟨_, CatalogResponse.make_ok ?_, rfl, rfl, rfl⟩
  simp [Checks.Pass, responseChecks, responseStateChecks]

/-- What the items of a live envelope have in common. -/
def IsLiveItem (supplier : Supplier) (item : CatalogProduct) : Prop :=
  item.supplier = supplier ∧ item.mode = supplier.mode

/-- Products that are shown have an envelope, as long as some are shown where others are
left out. -/
theorem liveResponse_ok {supplier : Supplier} {freshness : CatalogFreshness}
    {items : List CatalogProduct} {omittedCount : Nat} (hfresh : freshness.status = .fresh)
    (hitems : ∀ item ∈ items, IsLiveItem supplier item)
    (hsome : 0 < omittedCount → items ≠ []) :
    ∃ response, liveResponse supplier freshness items omittedCount = .ok response ∧
      response.state ≠ .error ∧ response.items = items ∧ response.omittedCount = omittedCount := by
  have hown : items.all (fun item => item.supplier = supplier && item.mode = supplier.mode) =
      true := by
    refine List.all_eq_true.2 fun item hi => ?_
    obtain ⟨hs, hm⟩ := hitems item hi
    simp [hs, hm]
  refine ⟨_, CatalogResponse.make_ok ?_, ?_, rfl, rfl⟩
  · cases items with
    | nil =>
      have hnone : omittedCount = 0 := by
        by_contra hne
        exact hsome (by omega) rfl
      simp [Checks.Pass, responseChecks, responseStateChecks, isStatus, hfresh, hnone]
    | cons item items =>
      have hstate : (if (item :: items).isEmpty then CatalogState.empty else .fresh) = .fresh := rfl
      rw [hstate]
      simp only [Checks.Pass, responseChecks, responseStateChecks]
      intro c hc
      simp only [List.cons_append, List.nil_append, List.mem_cons, List.not_mem_nil, or_false] at hc
      rcases hc with rfl | rfl | rfl | rfl | rfl | rfl
      · simp
      · exact hown
      · simp
      · simp [CatalogState.populated]
      · simp
      · simp [isStatus, hfresh]
  · show (if items.isEmpty then CatalogState.empty else .fresh) ≠ .error
    split <;> simp

/-! ## The promise -/

/-- **A read fails closed**: it has an envelope, of which the items are none where the state
is an error, and what `Complete` says of them and of the omitted count where it is not. -/
def FailClosed (read : Except LiveExc CatalogResponse)
    (Complete : List CatalogProduct → Nat → Prop) : Prop :=
  ∃ response, read = .ok response ∧ (response.state = .error → response.items = []) ∧
    (response.state ≠ .error → Complete response.items response.omittedCount)

theorem failClosed_error {Complete : List CatalogProduct → Nat → Prop} (supplier : Supplier)
    (error : CatalogError) : FailClosed (errorResponse supplier error) Complete := by
  obtain ⟨response, hr, hstate, hitems, -⟩ := errorResponse_ok supplier error
  exact ⟨response, hr, fun _ => hitems, fun hne => absurd hstate hne⟩

theorem failClosed_live {Complete : List CatalogProduct → Nat → Prop} {supplier : Supplier}
    {freshness : CatalogFreshness} {items : List CatalogProduct} {omittedCount : Nat}
    (hfresh : freshness.status = .fresh) (hitems : ∀ item ∈ items, IsLiveItem supplier item)
    (hsome : 0 < omittedCount → items ≠ []) (hcomplete : Complete items omittedCount) :
    FailClosed (liveResponse supplier freshness items omittedCount) Complete := by
  obtain ⟨response, hr, hstate, rfl, rfl⟩ := liveResponse_ok hfresh hitems hsome
  exact ⟨response, hr, fun he => absurd he hstate, fun _ => hcomplete⟩

/-- The projection of one product: its text is shown as it is, and so are its price in VND
and its stock. -/
def ShowsLive (id : Str) (price stock : Nat) (item : CatalogProduct) : Prop :=
  item.id = id ∧ item.price.amountMinor = price ∧ item.price.currency = str "VND" ∧
    item.availableQuantity = stock

theorem liveProduct_ok {supplier : Supplier} {id name description : Str} {price stock : Nat}
    {item : CatalogProduct}
    (h : Khommo.liveProduct supplier id name description price stock = .ok item) :
    IsLiveItem supplier item ∧ ShowsLive id price stock item := by
  unfold Khommo.liveProduct at h
  split at h
  · cases h
    exact ⟨⟨rfl, rfl⟩, rfl, rfl, rfl, rfl⟩
  · cases h

end NyanShopBot.Catalog
