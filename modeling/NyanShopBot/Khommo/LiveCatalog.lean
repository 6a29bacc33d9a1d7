import NyanShopBot.Catalog.LiveReads
import NyanShopBot.Khommo.Products

/-!
# Live KhoMMO reads

`readCatalog` asks for one page of the greatest size and shows its products, all but those
without a description or a stock, which it counts (`readCatalog_failClosed`).
-/

namespace NyanShopBot.Khommo

open Py Catalog

/-! ## Errors -/

def schemaMessage : Str :=
  str "KhoMMO returned a catalog schema " ++ str "that is not safely supported."

def unauthorizedMessage : Str := str "KhoMMO read authorization was rejected."

def unavailableMessage : Str := str "KhoMMO catalog is " ++ str "temporarily unavailable."

def paginationMessage : Str :=
  str "KhoMMO pagination exceeds " ++ str "the bounded live-read slice."

def projectionMessage : Str :=
  str "KhoMMO product data " ++ str "cannot be projected safely."

theorem schemaMessage_text : isDisplayText schemaMessage = true := by decide +kernel

theorem unauthorizedMessage_text : isDisplayText unauthorizedMessage = true := by decide +kernel

theorem unavailableMessage_text : isDisplayText unavailableMessage = true := by decide +kernel

theorem paginationMessage_text : isDisplayText paginationMessage = true := by decide +kernel

theorem projectionMessage_text : isDisplayText projectionMessage = true := by decide +kernel

/-- `_error_for`. -/
def errorFor (code : OutcomeCode) : CatalogError :=
  if code = .malformedJson ∨ code = .unsupportedSchema then
    ⟨.unsupported, schemaMessage, false, schemaMessage_text⟩
  else if code = .unauthorized then
    ⟨.sourceUnavailable, unauthorizedMessage, false, unauthorizedMessage_text⟩
  else
    ⟨.sourceUnavailable, unavailableMessage,
      code = .timeout || code = .badGateway || code = .transportError, unavailableMessage_text⟩

def pageError : CatalogError :=
  ⟨.unsupported, paginationMessage, false, paginationMessage_text⟩

def projectionError : CatalogError :=
  ⟨.unsupported, projectionMessage, false, projectionMessage_text⟩

/-! ## The reader -/

/-- A product that has what the catalog shows. -/
def Product.isComplete (product : Product) : Bool :=
  product.description.isSome && product.stock.isSome

section

variable [UnicodeData]

/-- `_project_product`, of which every error is a `ValueError`. -/
def projectLive (product : Product) : Except LiveExc CatalogProduct :=
  match projectProduct product with
  | .ok item => .ok item
  | .error _ => .error .value

/-- The items of a read and the evidence for them. -/
def projectAll (maxAge : MaxAge) (page : ProductsPage) (observedAt evaluatedAt : Reading) :
    Except LiveExc (List CatalogProduct × CatalogFreshness) := do
  if (page.items.map (·.id)).Nodup then
    let items ← (page.items.filter (·.isComplete)).mapM projectLive
    if 0 < page.total ∧ items = [] then .error .value
    else do
      let freshness ← freshNow maxAge observedAt evaluatedAt
      return (items, freshness)
  else .error .value

/-- `read_catalog`, from what the transport does and two readings of the clock. -/
def readCatalog [JsonBytes] (maxAge : MaxAge) (sent : Sent) (observedAt evaluatedAt : Reading) :
    Except LiveExc CatalogResponse :=
  match listProducts 1 500 sent with
  | .failure code _ => errorResponse .khommo (errorFor code)
  | .success page =>
    if 1 < page.totalPages ∨ page.total ≠ page.items.length then errorResponse .khommo pageError
    else
      match projectAll maxAge page observedAt evaluatedAt with
      | .ok (items, freshness) =>
        liveResponse .khommo freshness items (page.items.filter (!·.isComplete)).length
      | .error .value => errorResponse .khommo projectionError
      | .error .overflow => .error .overflow

/-! ## What a read shows -/

/-- The item shows the product. -/
def ShowsProduct (product : Product) (item : CatalogProduct) : Prop :=
  ∃ stock, product.stock = some stock ∧ ShowsLive product.id product.priceVnd stock item

theorem projectLive_ok {product : Product} {item : CatalogProduct}
    (h : projectLive product = .ok item) :
    IsLiveItem .khommo item ∧ ShowsProduct product item := by
  unfold projectLive at h
  split at h
  · rename_i hproject
    cases h
    unfold projectProduct at hproject
    split at hproject
    · cases hproject
    · split at hproject
      · rename_i description stock hdescription hstock
        by_cases hbad : !isPathSafe product.id || product.inStock ≠ decide (0 < stock)
        · rw [if_pos hbad] at hproject
          cases hproject
        · rw [if_neg hbad] at hproject
          obtain ⟨hlive, hshows⟩ := liveProduct_ok hproject
          exact ⟨hlive, stock, hstock, hshows⟩
      · cases hproject
  · cases h

theorem projectLive_error {product : Product} {e : LiveExc}
    (h : projectLive product = .error e) : e = .value := by
  unfold projectLive at h
  split at h
  · cases h
  · cases h
    rfl

/-- The items are the complete products of the page, each in its place. -/
theorem projectAll_ok {maxAge : MaxAge} {page : ProductsPage} {observedAt evaluatedAt : Reading}
    {items : List CatalogProduct} {freshness : CatalogFreshness}
    (h : projectAll maxAge page observedAt evaluatedAt = .ok (items, freshness)) :
    (page.items.map (·.id)).Nodup ∧ freshness.status = .fresh ∧ (0 < page.total → items ≠ []) ∧
      List.Forall₂ (fun product item => IsLiveItem .khommo item ∧ ShowsProduct product item)
        (page.items.filter (·.isComplete)) items := by
  unfold projectAll at h
  split at h
  · rename_i hnodup
    obtain ⟨items', hitems, h⟩ := except_bind_ok.1 h
    split at h
    · cases h
    · rename_i hsome
      obtain ⟨freshness', hfresh, h⟩ := except_bind_ok.1 h
      cases h
      exact ⟨hnodup, freshNow_status hfresh, fun htotal hnil => hsome ⟨htotal, hnil⟩,
        (forall₂_of_mapM hitems).imp fun _ _ hitem => projectLive_ok hitem⟩
  · cases h

theorem projectAll_error {maxAge : MaxAge} {page : ProductsPage}
    {observedAt evaluatedAt : Reading} {e : LiveExc} (hage : maxAge.seconds ≤ maxTimedeltaSeconds)
    (h : projectAll maxAge page observedAt evaluatedAt = .error e) : e = .value := by
  unfold projectAll at h
  split at h
  · rcases except_bind_error.1 h with h | ⟨items, -, h⟩
    · obtain ⟨product, -, he⟩ := mapM_raises h
      exact projectLive_error he
    · split at h
      · cases h
        rfl
      · rcases except_bind_error.1 h with h | ⟨freshness, -, h⟩
        · exact freshNow_error hage h
        · cases h
  · cases h
    rfl

end

/-- The body of the response is one page with all the products, which repeats no id, and
each of the values in its array is a product that is shown, in its place, or counted where
it is not complete. -/
def Complete [JsonBytes] (sent : Sent) (items : List CatalogProduct) (omittedCount : Nat) : Prop :=
  ∃ response document page, sent = .response response ∧
    200 ≤ response.statusCode ∧ response.statusCode < 300 ∧
    JsonBytes.loads response.body = some document ∧ parseProducts document = .ok page ∧
    IsPage document page ∧ page.total = page.items.length ∧ page.totalPages ≤ 1 ∧
    (page.items.map (·.id)).Nodup ∧
    List.Forall₂ ShowsProduct (page.items.filter (·.isComplete)) items ∧
    omittedCount = (page.items.filter (!·.isComplete)).length ∧
    items.length + omittedCount = page.total

theorem listProducts_success [JsonBytes] {page limit : Nat} {sent : Sent} {value : ProductsPage}
    (h : listProducts page limit sent = .success value) :
    ∃ response document, sent = .response response ∧ 200 ≤ response.statusCode ∧
      response.statusCode < 300 ∧ JsonBytes.loads response.body = some document ∧
      parseProducts document = .ok value := by
  unfold listProducts at h
  split at h
  · rename_i value' hsend
    split at h
    · cases h
    · cases h
      unfold send at hsend
      split at hsend
      · cases hsend
      · cases hsend
      · rename_i response
        split at hsend
        · cases hsend
        · split at hsend
          · cases hsend
          · rename_i hstatus
            obtain ⟨hlow, hhigh⟩ := not_not.1 hstatus
            split at hsend
            · cases hsend
            · rename_i document hloads
              split at hsend
              · rename_i hparse
                cases hsend
                exact ⟨response, document, rfl, hlow, hhigh, hloads, hparse⟩
              · cases hsend
  · rename_i hne
    exact absurd h (hne _)

variable [UnicodeData] [JsonBytes]

/-- **A read fails closed** as long as its greatest age is a `timedelta`. -/
theorem readCatalog_failClosed {maxAge : MaxAge} (hage : maxAge.seconds ≤ maxTimedeltaSeconds)
    (sent : Sent) (observedAt evaluatedAt : Reading) :
    FailClosed (readCatalog maxAge sent observedAt evaluatedAt) (Complete sent) := by
  unfold readCatalog
  split
  · exact failClosed_error _ _
  · rename_i page hpage
    split
    · exact failClosed_error _ _
    · rename_i hone
      split
      · rename_i items freshness hproject
        obtain ⟨response, document, rfl, hlow, hhigh, hloads, hparse⟩ := listProducts_success hpage
        obtain ⟨hnodup, hfresh, hsome, hitems⟩ := projectAll_ok hproject
        have htotal : page.total = page.items.length := by
          by_contra hne
          exact hone (.inr hne)
        have hcount : items.length + (page.items.filter (!·.isComplete)).length = page.total := by
          rw [htotal, ← hitems.length_eq]
          exact (List.length_eq_length_filter_add _).symm
        refine failClosed_live hfresh (fun item hi => ?_) (fun h => hsome (by omega)) ?_
        · obtain ⟨product, -, hlive, -⟩ := exists_of_forall₂ hitems hi
          exact hlive
        · exact ⟨response, document, page, rfl, hlow, hhigh, hloads, hparse,
            parseProducts_ok hparse, htotal, by omega, hnodup, hitems.imp fun _ _ hitem => hitem.2,
              rfl, hcount⟩
      · exact failClosed_error _ _
      · rename_i hproject
        cases projectAll_error hage hproject

/-- An empty page and a greatest age that is no `timedelta`. -/
theorem readCatalog_overflow {maxAge : MaxAge} (hage : maxTimedeltaSeconds < maxAge.seconds)
    {body : Bytes} {document : Json} (hbody : JsonBytes.loads body = some document)
    (hpage : parseProducts document = .ok ⟨[], 1, 500, 0, 0⟩) (now : Int) :
    readCatalog maxAge (.response ⟨200, body⟩) (some now) (some now) = .error .overflow := by
  have hlist : listProducts 1 500 (.response ⟨200, body⟩) = .success ⟨[], 1, 500, 0, 0⟩ := by
    have hcode : item? (200 : Int) codes = none := by decide
    unfold listProducts send
    dsimp only
    rw [hcode]
    dsimp only
    rw [if_neg (by decide), hbody]
    dsimp only
    rw [hpage]
    rfl
  have hproject : projectAll maxAge ⟨[], 1, 500, 0, 0⟩ (some now) (some now) =
      .error .overflow := by
    unfold projectAll
    rw [List.map_nil, if_pos List.nodup_nil, List.filter_nil, freshNow_overflow hage]
    rfl
  unfold readCatalog
  rw [hlist]
  dsimp only
  rw [if_neg (by decide), hproject]

end NyanShopBot.Khommo
