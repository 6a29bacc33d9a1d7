import Mathlib.Data.List.Basic
import NyanShopBot.Py.JsonBytes

/-!
# Product documents

`parseProductList` and `parseProductDetail` read the documents of the read routes: every
object has exactly its documented fields, no key twice, and nothing is coerced. What is
wrong with a document, `ResponseValidationError` names with its place. A list has all that
its document has (`parseProductList_ok`).
-/

namespace NyanShopBot.VietShare

open Py

/-! ## Values -/

/-- An invalid response: where it is wrong, and what was expected there. -/
structure ResponseValidationError where
  location : Str
  problem : String
deriving DecidableEq

/-- An amount in VND. -/
structure VndMoney where
  amountMinor : Nat
deriving DecidableEq

/-- A product; `valid` is what `__post_init__` checks beyond the types of the fields. -/
structure VietShareProduct where
  id : Int
  name : Str
  description : Str
  price : VndMoney
  flashSaleId : Option Int
  stock : Nat
  allowQuantity : Bool
  maxQuantity : Nat
  currencies : List Str
  priceUsd : Str
  valid : 0 < maxQuantity

/-- The products, all of them: `count` is their number. -/
structure VietShareProductList where
  count : Nat
  products : List VietShareProduct
  valid : count = products.length

def topLevelFields : List Str := [str "count", str "products"]

def productFields : List Str := [str "id", str "name", str "description", str "price",
  str "flash_sale_id", str "stock", str "allow_quantity", str "max_quantity", str "currency",
  str "price_usd"]

/-! ## Fields -/

/-- A value read at a place of the document. -/
abbrev Read (α : Type) := Except ResponseValidationError α

/-- `_strict_int`. -/
def strictInt (value : Json) (location : Str) : Read Int :=
  match value with
  | .int n => .ok n
  | _ => .error ⟨location, "expected a integer"⟩

/-- `_strict_int(value, minimum=0)`. -/
def strictNat (value : Json) (location : Str) : Read Nat :=
  match value with
  | .int (.ofNat n) => .ok n
  | _ => .error ⟨location, "expected a non-negative integer"⟩

/-- `_strict_int(value, minimum=1)`. -/
def strictPositive (value : Json) (location : Str) : Read {n : Nat // 0 < n} :=
  match value with
  | .int (.ofNat (n + 1)) => .ok ⟨n + 1, n.succ_pos⟩
  | _ => .error ⟨location, "expected a positive integer"⟩

/-- `_strict_string`. -/
def strictString (value : Json) (location : Str) : Read Str :=
  match value with
  | .str s => .ok s
  | _ => .error ⟨location, "expected a string"⟩

def optionalInt (value : Json) (location : Str) : Read (Option Int) :=
  match value with
  | .null => .ok none
  | .int n => .ok (some n)
  | _ => .error ⟨location, "expected an integer or null"⟩

def strictBool (value : Json) (location : Str) : Read Bool :=
  match value with
  | .bool b => .ok b
  | _ => .error ⟨location, "expected a boolean"⟩

/-- The texts of an array that has nothing else. -/
def texts : List Json → Option (List Str)
  | [] => some []
  | .str s :: values => (texts values).map (s :: ·)
  | _ :: _ => none

def stringArray (value : Json) (location : Str) : Read (List Str) :=
  match value with
  | .arr values =>
    match texts values with
    | some ss => .ok ss
    | none => .error ⟨location, "expected an array of strings"⟩
  | _ => .error ⟨location, "expected an array of strings"⟩

/-- The members of an object with exactly the fields. -/
def exactFields (value : Json) (fields : List Str) (location : Str) (problem : String) :
    Read (List (Str × Json)) :=
  match value with
  | .obj members => if Json.hasKeys members fields then .ok members else .error ⟨location, problem⟩
  | _ => .error ⟨location, "expected an object"⟩

/-! ## Products -/

/-- `_parse_product`. -/
def parseProduct (value : Json) (location : Str) : Read VietShareProduct := do
  let data ← exactFields value productFields location "expected exactly the documented fields"
  let flashSaleId ← optionalInt (Json.get data (str "flash_sale_id"))
    (location ++ str ".flash_sale_id")
  let allowQuantity ← strictBool (Json.get data (str "allow_quantity"))
    (location ++ str ".allow_quantity")
  let currencies ← stringArray (Json.get data (str "currency")) (location ++ str ".currency")
  let price ← strictNat (Json.get data (str "price")) (location ++ str ".price")
  let id ← strictInt (Json.get data (str "id")) (location ++ str ".id")
  let name ← strictString (Json.get data (str "name")) (location ++ str ".name")
  let description ← strictString (Json.get data (str "description"))
    (location ++ str ".description")
  let stock ← strictNat (Json.get data (str "stock")) (location ++ str ".stock")
  let maxQuantity ← strictPositive (Json.get data (str "max_quantity"))
    (location ++ str ".max_quantity")
  let priceUsd ← strictString (Json.get data (str "price_usd")) (location ++ str ".price_usd")
  return ⟨id, name, description, ⟨price⟩, flashSaleId, stock, allowQuantity, maxQuantity.1,
    currencies, priceUsd, maxQuantity.2⟩

/-- The place of a product in the list. -/
def productLocation (index : Nat) : Str := str "products[" ++ natStr index ++ str "]"

/-- The products from a place of the list on. -/
def parseFrom : Nat → List Json → Read (List VietShareProduct)
  | _, [] => .ok []
  | index, value :: values => do
    let product ← parseProduct value (productLocation index)
    let products ← parseFrom (index + 1) values
    return product :: products

/-- `VietShareProductList(count=count, products=products)`. -/
def VietShareProductList.make (count : Nat) (products : List VietShareProduct) :
    Read VietShareProductList :=
  if h : count = products.length then .ok ⟨count, products, h⟩
  else .error ⟨str "count", "did not match the product list length"⟩

/-! ## What is read -/

/-- The value is the product: it has exactly the documented fields, of which the product
has the values as they are. -/
def IsProduct (value : Json) (product : VietShareProduct) : Prop :=
  ∃ data, value = .obj data ∧ Json.hasKeys data productFields = true ∧
    Json.get data (str "id") = .int product.id ∧
    Json.get data (str "name") = .str product.name ∧
    Json.get data (str "description") = .str product.description ∧
    Json.get data (str "price") = .int product.price.amountMinor ∧
    Json.get data (str "stock") = .int product.stock ∧
    Json.get data (str "allow_quantity") = .bool product.allowQuantity ∧
    Json.get data (str "max_quantity") = .int product.maxQuantity ∧
    Json.get data (str "price_usd") = .str product.priceUsd

/-- The document is the list: it has exactly the documented fields, its array holds the
products of the list, each in its place, and its count is their number. -/
def IsProductList (document : Json) (value : VietShareProductList) : Prop :=
  ∃ envelope values, document = .obj envelope ∧ Json.hasKeys envelope topLevelFields = true ∧
    Json.get envelope (str "products") = .arr values ∧
    List.Forall₂ IsProduct values value.products ∧
    Json.get envelope (str "count") = .int value.count

theorem exactFields_ok {value : Json} {fields : List Str} {location : Str} {problem : String}
    {members : List (Str × Json)} (h : exactFields value fields location problem = .ok members) :
    value = .obj members ∧ Json.hasKeys members fields = true := by
  unfold exactFields at h
  split at h
  · split at h
    · rename_i hkeys
      cases h
      exact ⟨rfl, hkeys⟩
    · cases h
  · cases h

theorem strictInt_ok {value : Json} {location : Str} {n : Int}
    (h : strictInt value location = .ok n) : value = .int n := by
  unfold strictInt at h
  split at h <;> cases h
  rfl

theorem strictNat_ok {value : Json} {location : Str} {n : Nat}
    (h : strictNat value location = .ok n) : value = .int n := by
  unfold strictNat at h
  split at h <;> cases h
  rfl

theorem strictPositive_ok {value : Json} {location : Str} {n : {n : Nat // 0 < n}}
    (h : strictPositive value location = .ok n) : value = .int n.1 := by
  unfold strictPositive at h
  split at h <;> cases h
  rfl

theorem strictString_ok {value : Json} {location : Str} {s : Str}
    (h : strictString value location = .ok s) : value = .str s := by
  unfold strictString at h
  split at h <;> cases h
  rfl

theorem strictBool_ok {value : Json} {location : Str} {b : Bool}
    (h : strictBool value location = .ok b) : value = .bool b := by
  unfold strictBool at h
  split at h <;> cases h
  rfl

theorem parseProduct_ok {value : Json} {location : Str} {product : VietShareProduct}
    (h : parseProduct value location = .ok product) : IsProduct value product := by
  unfold parseProduct at h
  obtain ⟨data, hdata, h⟩ := except_bind_ok.1 h
  obtain ⟨hvalue, hkeys⟩ := exactFields_ok hdata
  obtain ⟨flashSaleId, -, h⟩ := except_bind_ok.1 h
  obtain ⟨allowQuantity, hallow, h⟩ := except_bind_ok.1 h
  obtain ⟨currencies, -, h⟩ := except_bind_ok.1 h
  obtain ⟨price, hprice, h⟩ := except_bind_ok.1 h
  obtain ⟨id, hid, h⟩ := except_bind_ok.1 h
  obtain ⟨name, hname, h⟩ := except_bind_ok.1 h
  obtain ⟨description, hdescription, h⟩ := except_bind_ok.1 h
  obtain ⟨stock, hstock, h⟩ := except_bind_ok.1 h
  obtain ⟨maxQuantity, hmax, h⟩ := except_bind_ok.1 h
  obtain ⟨priceUsd, husd, h⟩ := except_bind_ok.1 h
  cases h
  exact ⟨data, hvalue, hkeys, strictInt_ok hid, strictString_ok hname,
    strictString_ok hdescription, strictNat_ok hprice, strictNat_ok hstock, strictBool_ok hallow,
    strictPositive_ok hmax, strictString_ok husd⟩

theorem parseFrom_ok : ∀ {values : List Json} {index : Nat} {products : List VietShareProduct},
    parseFrom index values = .ok products → List.Forall₂ IsProduct values products
  | [], _, _, h => by
    cases h
    exact .nil
  | value :: values, index, _, h => by
    unfold parseFrom at h
    obtain ⟨product, hproduct, h⟩ := except_bind_ok.1 h
    obtain ⟨products, hproducts, h⟩ := except_bind_ok.1 h
    cases h
    exact .cons (parseProduct_ok hproduct) (parseFrom_ok hproducts)

/-! ## Documents -/

variable [JsonBytes]

/-- The document of a response. -/
def decodeBody (rawBody : Bytes) : Read Json :=
  match loadsUnique rawBody with
  | some document => .ok document
  | none => .error ⟨str "body", "expected unique-field UTF-8 JSON"⟩

/-- `parse_product_list`. -/
def parseProductList (rawBody : Bytes) : Read VietShareProductList := do
  let document ← decodeBody rawBody
  let envelope ← exactFields document topLevelFields (str "body")
    "expected exactly count and products"
  match Json.get envelope (str "products") with
  | .arr values =>
    let products ← parseFrom 0 values
    let count ← strictNat (Json.get envelope (str "count")) (str "count")
    VietShareProductList.make count products
  | _ => .error ⟨str "products", "expected a list"⟩

/-- **The list has all that the document has**, product by product. -/
theorem parseProductList_ok {rawBody : Bytes} {value : VietShareProductList}
    (h : parseProductList rawBody = .ok value) :
    ∃ document, loadsUnique rawBody = some document ∧ IsProductList document value := by
  unfold parseProductList at h
  obtain ⟨document, hdocument, h⟩ := except_bind_ok.1 h
  obtain ⟨envelope, henvelope, h⟩ := except_bind_ok.1 h
  obtain ⟨hobj, hkeys⟩ := exactFields_ok henvelope
  have hloads : loadsUnique rawBody = some document := by
    unfold decodeBody at hdocument
    split at hdocument
    · rename_i hsome
      cases hdocument
      exact hsome
    · cases hdocument
  split at h
  · rename_i values hvalues
    obtain ⟨products, hproducts, h⟩ := except_bind_ok.1 h
    obtain ⟨count, hcount, h⟩ := except_bind_ok.1 h
    unfold VietShareProductList.make at h
    split at h
    · cases h
      exact ⟨document, hloads, envelope, values, hobj, hkeys, hvalues, parseFrom_ok hproducts,
        strictNat_ok hcount⟩
    · cases h
  · cases h

/-- `parse_product_detail`. -/
def parseProductDetail (rawBody : Bytes) : Read VietShareProduct := do
  let document ← decodeBody rawBody
  parseProduct document (str "product")

end NyanShopBot.VietShare
