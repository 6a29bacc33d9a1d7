import NyanShopBot.Catalog.Curation

/-!
# The KhoMMO catalog reader

`projectProduct` takes a documented KhoMMO product into the catalog: its id can stand in a
path, and its texts are any that the catalog shows.
-/

namespace NyanShopBot.Khommo

open Py Catalog

inductive PaymentMode where
  | credit | vnd | vndOnly
deriving DecidableEq

/-- The fields of a product that the projection reads. -/
structure Product where
  id : Str
  name : Str
  description : Option Str
  priceVnd : Nat
  paymentMode : PaymentMode
  stock : Option Nat
  inStock : Bool
deriving DecidableEq

/-- A `CatalogProduct` with one variant of the same text, price and quantity. -/
def liveProduct (supplier : Supplier) (id name description : Str) (amountMinor quantity : Nat) :
    Except Exc CatalogProduct :=
  if h : isDisplayText id && isDisplayText name && isDisplayText description then
    have hid : isDisplayText id && isDisplayText name := by simp_all
    let price : Money := ⟨amountMinor, str "VND", isCurrencyCode_vnd⟩
    let mapping : SupplierMapping := ⟨supplier.value, id, supplier.value, id, .pending, by
      have hs : isDisplayText supplier.value = true := by cases supplier <;> decide +kernel
      simp_all, rfl⟩
    let variant : CatalogVariant := ⟨id, name, mapping, price, quantity, hid⟩
    .ok ⟨id, name, description, supplier, supplier.mode, price, quantity, [variant], h, by simp,
      by simp [Checks.Pass, productChecks, variant]⟩
  else .error (.validation none)

variable [UnicodeData]

/-- The id can stand in a path. -/
def isPathSafe (id : Str) : Bool :=
  !(strip id).isEmpty && id.length ≤ 128 && id ≠ str "." && id ≠ str ".." &&
    !id.contains (chr '/') && isprintable id

/-- `_project_product`. -/
def projectProduct (product : Product) : Except Exc CatalogProduct :=
  if product.paymentMode = .credit then .error .exception
  else
    match product.description, product.stock with
    | some description, some stock =>
      if !isPathSafe product.id || product.inStock ≠ decide (0 < stock) then .error .exception
      else liveProduct .khommo product.id product.name description product.priceVnd stock
    | _, _ => .error .exception

/-- What a projected product is. -/
theorem projectProduct_ok {product : Product} {item : CatalogProduct}
    (h : projectProduct product = .ok item) :
    isPathSafe product.id = true ∧ item.supplier = .khommo ∧ item.id = product.id ∧
      item.name = product.name ∧ product.description = some item.description := by
  unfold projectProduct at h
  split at h
  · cases h
  split at h
  case h_1 description stock hdesc hstock =>
    by_cases hbad : !isPathSafe product.id || product.inStock ≠ decide (0 < stock)
    · rw [if_pos hbad] at h
      cases h
    · rw [if_neg hbad, liveProduct] at h
      split at h
      · cases h
        exact ⟨by simp_all, rfl, rfl, rfl, hdesc⟩
      · cases h
  case h_2 => cases h

end NyanShopBot.Khommo
