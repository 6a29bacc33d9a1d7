import NyanShopBot.Khommo.CatalogReader
import NyanShopBot.Khommo.WriteContract
import NyanShopBot.Py.JsonBytes
import NyanShopBot.Py.JsonText

/-!
# Product pages

`parseProducts` reads the documented page of products, of which the pagination has to agree
with its items, and leaves out none of them (`parseProducts_ok`). `listProducts` is the page
that was asked for, or why there is none.
-/

namespace NyanShopBot.Khommo

open Py

/-! ## Values -/

/-- A response that does not follow the documented schema: where, and why not. -/
structure UnsupportedSchemaError where
  location : String
  reason : String
deriving DecidableEq

structure ProductsPage where
  items : List Product
  page : Nat
  limit : Nat
  total : Nat
  totalPages : Nat
deriving DecidableEq

inductive OutcomeCode where
  | badRequest | unauthorized | notFound | badGateway | timeout | malformedJson
  | unsupportedSchema | transportError
deriving DecidableEq

inductive ReadOutcome (α : Type) where
  | success (value : α)
  | failure (code : OutcomeCode) (statusCode : Option Int)
deriving DecidableEq

/-- What the transport does: it raises a `TimeoutError` or another `Exception`, or it
returns. -/
inductive Sent where
  | timeout
  | failed
  | response (r : KhoMmoResponse)

def productFields : List Str := [str "id", str "sku", str "name", str "description",
  str "priceCredit", str "priceVnd", str "paymentMode", str "deliveryType", str "stock",
  str "inStock"]

def productsEnvelopeFields : List Str := [str "ok", str "data", str "pagination"]

def paginationFields : List Str := [str "page", str "limit", str "total", str "totalPages"]

/-! ## Fields -/

/-- A value that follows the schema. -/
abbrev Parsed (α : Type) := Except UnsupportedSchemaError α

/-- `_exact_object`. -/
def exactObject (value : Json) (fields : List Str) (location : String) :
    Parsed (List (Str × Json)) :=
  match value with
  | .obj members =>
    if Json.hasKeys members fields then .ok members
    else .error ⟨location, "expected exactly the documented fields"⟩
  | _ => .error ⟨location, "expected exactly the documented fields"⟩

/-- `_text`. -/
def text (value : Json) (location : String) : Parsed Str :=
  match value with
  | .str s => .ok s
  | _ => .error ⟨location, "expected a string"⟩

/-- `_non_negative_int`. -/
def nonNegativeInt (value : Json) (location : String) : Parsed Nat :=
  match value with
  | .int (.ofNat n) => .ok n
  | _ => .error ⟨location, "expected a non-negative integer"⟩

/-- `_optional_text` and `_optional_non_negative_int`. -/
def optional {α : Type} (read : Json → String → Parsed α) (value : Json) (location : String) :
    Parsed (Option α) :=
  match value with
  | .null => .ok none
  | _ => (read value location).map some

/-- `PaymentMode(mode)`. -/
def paymentModeOf (value : Json) : Parsed PaymentMode :=
  match value with
  | .str s =>
    if s = str "CREDIT" then .ok .credit
    else if s = str "VND" then .ok .vnd
    else if s = str "VND_ONLY" then .ok .vndOnly
    else .error ⟨"paymentMode", "expected a supported read-only mode"⟩
  | _ => .error ⟨"paymentMode", "expected a supported read-only mode"⟩

def inStockOf (value : Json) : Parsed Bool :=
  match value with
  | .bool b => .ok b
  | _ => .error ⟨"inStock", "expected a boolean"⟩

/-- `envelope["ok"] is True`. -/
def isLiteralTrue (value : Json) : Bool :=
  match value with
  | .bool b => b
  | _ => false

/-! ## Products -/

/-- `parse_product`; the fields that no reader uses are only checked. -/
def parseProduct (value : Json) : Parsed Product := do
  let data ← exactObject value productFields "product"
  let mode ← paymentModeOf (Json.get data (str "paymentMode"))
  let inStock ← inStockOf (Json.get data (str "inStock"))
  let id ← text (Json.get data (str "id")) "id"
  let _ ← text (Json.get data (str "sku")) "sku"
  let name ← text (Json.get data (str "name")) "name"
  let description ← optional text (Json.get data (str "description")) "description"
  let _ ← nonNegativeInt (Json.get data (str "priceCredit")) "priceCredit"
  let priceVnd ← nonNegativeInt (Json.get data (str "priceVnd")) "priceVnd"
  let _ ← text (Json.get data (str "deliveryType")) "deliveryType"
  let stock ← optional nonNegativeInt (Json.get data (str "stock")) "stock"
  return ⟨id, name, description, priceVnd, mode, stock, inStock⟩

/-- The pagination agrees with the number of items. -/
def paginationError (items page limit total totalPages : Nat) : Option UnsupportedSchemaError :=
  if total = 0 then
    if items ≠ 0 ∨ page ≠ 1 ∨ ¬ (totalPages = 0 ∨ totalPages = 1) then
      some ⟨"products.pagination", "empty pagination metadata is inconsistent"⟩
    else none
  else
    let expectedItems : Int := min (limit : Int) ((total : Int) - ((page : Int) - 1) * limit)
    if totalPages ≠ (total + limit - 1) / limit ∨ ¬ (1 ≤ page ∧ page ≤ totalPages) ∨
        expectedItems < 0 ∨ (items : Int) ≠ expectedItems then
      some ⟨"products.pagination", "pagination metadata is inconsistent"⟩
    else none

/-- `parse_products`. -/
def parseProducts (value : Json) : Parsed ProductsPage := do
  let envelope ← exactObject value productsEnvelopeFields "products"
  if isLiteralTrue (Json.get envelope (str "ok")) then
    match Json.get envelope (str "data") with
    | .arr data =>
      let pagination ← exactObject (Json.get envelope (str "pagination")) paginationFields
        "products.pagination"
      let page ← nonNegativeInt (Json.get pagination (str "page")) "products.pagination.page"
      let limit ← nonNegativeInt (Json.get pagination (str "limit")) "products.pagination.limit"
      let total ← nonNegativeInt (Json.get pagination (str "total")) "products.pagination.total"
      let totalPages ← nonNegativeInt (Json.get pagination (str "totalPages"))
        "products.pagination.totalPages"
      if page < 1 ∨ ¬ (1 ≤ limit ∧ limit ≤ 500) then
        .error ⟨"products.pagination", "page or limit is out of range"⟩
      else do
        let items ← data.mapM parseProduct
        match paginationError items.length page limit total totalPages with
        | some e => .error e
        | none => return ⟨items, page, limit, total, totalPages⟩
    | _ => .error ⟨"products.data", "expected an array"⟩
  else .error ⟨"products.ok", "expected true"⟩

/-! ## What is read -/

/-- The value of an optional field. -/
def orNull {α : Type} (f : α → Json) : Option α → Json
  | none => .null
  | some a => f a

/-- The value is the product: it has exactly the documented fields, of which the product
takes the values as they are. -/
def IsProduct (value : Json) (product : Product) : Prop :=
  ∃ data, value = .obj data ∧ Json.hasKeys data productFields = true ∧
    Json.get data (str "id") = .str product.id ∧
    Json.get data (str "name") = .str product.name ∧
    Json.get data (str "description") = orNull .str product.description ∧
    Json.get data (str "priceVnd") = .int product.priceVnd ∧
    Json.get data (str "stock") = orNull (fun n : Nat => .int n) product.stock ∧
    Json.get data (str "inStock") = .bool product.inStock

/-- The document is the page: it has exactly the documented fields, its array holds the
products of the page, each in its place, and its pagination has the numbers of the page. -/
def IsPage (document : Json) (page : ProductsPage) : Prop :=
  ∃ envelope data pagination, document = .obj envelope ∧
    Json.hasKeys envelope productsEnvelopeFields = true ∧
    Json.get envelope (str "ok") = .bool true ∧
    Json.get envelope (str "data") = .arr data ∧ List.Forall₂ IsProduct data page.items ∧
    Json.get envelope (str "pagination") = .obj pagination ∧
    Json.hasKeys pagination paginationFields = true ∧
    Json.get pagination (str "page") = .int page.page ∧
    Json.get pagination (str "limit") = .int page.limit ∧
    Json.get pagination (str "total") = .int page.total ∧
    Json.get pagination (str "totalPages") = .int page.totalPages

theorem exactObject_ok {value : Json} {fields : List Str} {location : String}
    {members : List (Str × Json)} (h : exactObject value fields location = .ok members) :
    value = .obj members ∧ Json.hasKeys members fields = true := by
  unfold exactObject at h
  split at h
  · split at h
    · rename_i hkeys
      cases h
      exact ⟨rfl, hkeys⟩
    · cases h
  · cases h

theorem text_ok {value : Json} {location : String} {s : Str} (h : text value location = .ok s) :
    value = .str s := by
  unfold text at h
  split at h <;> cases h
  rfl

theorem nonNegativeInt_ok {value : Json} {location : String} {n : Nat}
    (h : nonNegativeInt value location = .ok n) : value = .int n := by
  unfold nonNegativeInt at h
  split at h <;> cases h
  rfl

theorem optional_ok {α : Type} {read : Json → String → Parsed α} {f : α → Json} {value : Json}
    {location : String} {a : Option α}
    (hread : ∀ {a}, read value location = .ok a → value = f a)
    (h : optional read value location = .ok a) : value = orNull f a := by
  unfold optional at h
  split at h
  · cases h
    rfl
  · cases hvalue : read value location with
    | error e =>
      rw [hvalue] at h
      cases h
    | ok b =>
      rw [hvalue] at h
      cases h
      exact hread hvalue

theorem inStockOf_ok {value : Json} {b : Bool} (h : inStockOf value = .ok b) :
    value = .bool b := by
  unfold inStockOf at h
  split at h <;> cases h
  rfl

theorem isLiteralTrue_eq {value : Json} (h : isLiteralTrue value = true) :
    value = .bool true := by
  unfold isLiteralTrue at h
  split at h
  · rw [h]
  · cases h

theorem parseProduct_ok {value : Json} {product : Product}
    (h : parseProduct value = .ok product) : IsProduct value product := by
  unfold parseProduct at h
  obtain ⟨data, hdata, h⟩ := except_bind_ok.1 h
  obtain ⟨hvalue, hkeys⟩ := exactObject_ok hdata
  obtain ⟨mode, -, h⟩ := except_bind_ok.1 h
  obtain ⟨inStock, hinStock, h⟩ := except_bind_ok.1 h
  obtain ⟨id, hid, h⟩ := except_bind_ok.1 h
  obtain ⟨sku, -, h⟩ := except_bind_ok.1 h
  obtain ⟨name, hname, h⟩ := except_bind_ok.1 h
  obtain ⟨description, hdescription, h⟩ := except_bind_ok.1 h
  obtain ⟨priceCredit, -, h⟩ := except_bind_ok.1 h
  obtain ⟨priceVnd, hprice, h⟩ := except_bind_ok.1 h
  obtain ⟨deliveryType, -, h⟩ := except_bind_ok.1 h
  obtain ⟨stock, hstock, h⟩ := except_bind_ok.1 h
  cases h
  exact ⟨data, hvalue, hkeys, text_ok hid, text_ok hname, optional_ok text_ok hdescription,
    nonNegativeInt_ok hprice, optional_ok nonNegativeInt_ok hstock, inStockOf_ok hinStock⟩

/-- **The page has all that the document has**, product by product. -/
theorem parseProducts_ok {document : Json} {page : ProductsPage}
    (h : parseProducts document = .ok page) : IsPage document page := by
  unfold parseProducts at h
  obtain ⟨envelope, henvelope, h⟩ := except_bind_ok.1 h
  obtain ⟨hdocument, hkeys⟩ := exactObject_ok henvelope
  split at h
  · rename_i hok
    split at h
    · rename_i data hdata
      obtain ⟨pagination, hpagination, h⟩ := except_bind_ok.1 h
      obtain ⟨hobj, hpages⟩ := exactObject_ok hpagination
      obtain ⟨number, hnumber, h⟩ := except_bind_ok.1 h
      obtain ⟨limit, hlimit, h⟩ := except_bind_ok.1 h
      obtain ⟨total, htotal, h⟩ := except_bind_ok.1 h
      obtain ⟨totalPages, htotalPages, h⟩ := except_bind_ok.1 h
      split at h
      · cases h
      · obtain ⟨items, hitems, h⟩ := except_bind_ok.1 h
        split at h
        · cases h
        · cases h
          exact ⟨envelope, data, pagination, hdocument, hkeys, isLiteralTrue_eq hok, hdata,
            (forall₂_of_mapM hitems).imp fun _ _ => parseProduct_ok, hobj, hpages,
            nonNegativeInt_ok hnumber, nonNegativeInt_ok hlimit, nonNegativeInt_ok htotal,
            nonNegativeInt_ok htotalPages⟩
    · cases h
  · cases h

/-! ## Reads -/

/-- The status codes that are outcomes of their own. -/
def codes : List (Int × OutcomeCode) :=
  [(400, .badRequest), (401, .unauthorized), (404, .notFound), (502, .badGateway)]

/-- `_send`, from what the transport does. -/
def send [JsonBytes] {α : Type} (sent : Sent) (parser : Json → Parsed α) : ReadOutcome α :=
  match sent with
  | .timeout => .failure .timeout none
  | .failed => .failure .transportError none
  | .response response =>
    match item? response.statusCode codes with
    | some code => .failure code (some response.statusCode)
    | none =>
      if ¬ (200 ≤ response.statusCode ∧ response.statusCode < 300) then
        .failure .transportError (some response.statusCode)
      else
        match JsonBytes.loads response.body with
        | none => .failure .malformedJson none
        | some document =>
          match parser document with
          | .ok value => .success value
          | .error _ => .failure .unsupportedSchema none

/-- `list_products` of a page and a limit in their ranges. -/
def listProducts [JsonBytes] (page limit : Nat) (sent : Sent) : ReadOutcome ProductsPage :=
  match send sent parseProducts with
  | .success value =>
    if value.page ≠ page ∨ value.limit ≠ limit then .failure .unsupportedSchema none
    else .success value
  | outcome => outcome

end NyanShopBot.Khommo
