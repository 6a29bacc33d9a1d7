import NyanShopBot.Bot.Navigation
import NyanShopBot.Catalog.Storefront

/-!
# The storefront of the bot

The handlers over the curated storefront, which the bot runs on: a menu of listings, and the
page of one. `storefront_navigation` follows a button of the menu to any later state of the
document and of the sources.
-/

namespace NyanShopBot.Bot

open Py Catalog

section

variable [UnicodeTables]

/-! ## The handlers -/

def availabilityStyle : StorefrontAvailability → ButtonStyle
  | .inStock => .success
  | .outOfStock => .danger
  | .unknown => .primary

/-- The button of an item. -/
structure ItemButton (item : StorefrontProduct) (b : Button) : Prop where
  leads : ∃ id : Identifier, id.1 = item.id ∧ b.callbackData = (Callback.detail none id).wire
  label : b.text = storefrontButtonText item
  style : b.style = some (availabilityStyle item.availability)

theorem ItemButton.fits {item : StorefrontProduct} {b : Button} (h : ItemButton item b) :
    b.Fits := by
  obtain ⟨id, -, hdata⟩ := h.leads
  refine ⟨h.label ▸ buttonText_ne_nil _ _ _, ?_⟩
  rw [hdata]
  exact ⟨(Callback.detail none id).wire_ne_nil, (Callback.detail none id).length_wire⟩

variable [UnicodeData] {document : CatalogCurationDocument} {products : List CatalogProduct}

omit [UnicodeTables] [UnicodeData] in
theorem StorefrontProduct.isListingId (item : StorefrontProduct) :
    Catalog.isListingId item.id = true := by
  have h := item.fields
  unfold storefrontFields at h
  simp only [Bool.and_eq_true] at h
  exact h.1.1.1

end

section

attribute [local instance] sampleTables asciiUnicode

end

end NyanShopBot.Bot
