import NyanShopBot.Bot.Callbacks
import NyanShopBot.Bot.Labels
import NyanShopBot.Catalog.Registry

/-!
# The handlers of the bot

What the bot answers to `/catalog` and to a button, over an injected reader, a registry of
readers or the storefront: each handler gives the one `Message` that it sends. A reader is
what its reads return or raise at the time of the turn.
-/

namespace NyanShopBot.Bot

open Py Catalog

/-! ## Messages -/

def maxMessageChars : Nat := 3500

def maxCatalogItems : Nat := 20

def maxDetailVariants : Nat := 20

def sellerCatalogLabel : Str := str "NYAN SHOP / CHỈ ĐỌC"

def safeRefreshMessage : Str :=
  str "Nút này không còn hợp lệ hoặc dữ liệu " ++ str "đã thay đổi. " ++
    str "Vui lòng dùng /catalog để làm mới; " ++ str "không có thao tác nào được tạo."

def safeCatalogErrorMessage : Str :=
  str "Không thể tải danh mục chỉ đọc lúc này. " ++
    str "Vui lòng thử lại bằng /catalog sau. " ++
    str "Không có đơn hàng hoặc giao dịch nào " ++ str "được tạo."

inductive ButtonStyle where
  | danger | success | primary
deriving DecidableEq

/-- `InlineKeyboardButton`. -/
structure Button where
  text : Str
  callbackData : Str
  style : Option ButtonStyle
deriving DecidableEq

/-- A text and its `InlineKeyboardMarkup`. -/
structure Message where
  text : Str
  keyboard : Option (List (List Button))
deriving DecidableEq

/-- `_bounded_message`. -/
def boundedMessage (lines : List Str) : Str :=
  let text := join [chr '\n'] lines
  if text.length ≤ maxMessageChars then text
  else rstrip (text.take (maxMessageChars - 1)) ++ [ellipsis]

/-- `_keyboard`. -/
def keyboardOf (rows : List (List Button)) : Option (List (List Button)) :=
  if rows = [] then none else some rows

/-- `_send`. -/
def send (lines : List Str) (keyboard : Option (List (List Button))) : Message :=
  ⟨boundedMessage lines, keyboard⟩

/-- The refresh message, which every refusal answers. -/
def refresh : Message := send [safeRefreshMessage] none

/-- `_format_money`. -/
def formatMoney (money : Money) : Str :=
  str "amount_minor=" ++ natStr money.amountMinor ++ str "; currency=" ++ money.currency ++
    str "; unit=minor"

/-- What a handler can raise: what a read raised that is no `Exception`, or what the codec
raised that is none of its own. -/
inductive HandlerExc where
  | catalog (e : Exc)
  | callback (e : CallbackExc)
deriving DecidableEq

/-- `try: callback_data = encode_…; except CallbackCodecError: continue`. -/
def rowOf (encoded : Except CallbackExc Str) (button : Str → Button) :
    Except HandlerExc (Option (List Button)) :=
  match encoded with
  | .ok data => .ok (some [button data])
  | .error (.callbackCodecError _) => .ok none
  | .error e => .error (.callback e)

/-- `try: response = await …; except Exception: …`. -/
def orAnswer (read : Except Exc α) (answer : Message) (next : α → Except HandlerExc Message) :
    Except HandlerExc Message :=
  match read with
  | .ok a => next a
  | .error e => if e.isException then .ok answer else .error (.catalog e)

/-! ## Readers -/

inductive CatalogDetailResponse where
  | found (item : CatalogProduct)
  | notFound (productId : Str)
  | unsupported (productId : Str) (error : CatalogError)
deriving DecidableEq

structure CatalogReader where
  readCatalog : Except Exc CatalogResponse
  getProduct : Str → Except Exc CatalogDetailResponse

/-- The readers of a `CatalogRegistry` by their source. -/
structure ReaderRegistry where
  readers : List (Supplier × CatalogReader)
  readers_ne : readers ≠ []
  unique : (readers.map (·.1)).Nodup

namespace ReaderRegistry

def sources (g : ReaderRegistry) : List Supplier := g.readers.map (·.1)

/-- What the list reads of the readers return. -/
def lists (g : ReaderRegistry) : CatalogRegistry where
  readers := g.readers.map fun r => (r.1, r.2.readCatalog)
  readers_ne := by
    intro h
    exact g.readers_ne (List.map_eq_nil_iff.1 h)
  unique := by
    rw [List.map_map]
    exact g.unique

def selectionRequired (g : ReaderRegistry) : Bool := 1 < g.readers.length

/-- `_default_source`. -/
def defaultSource (g : ReaderRegistry) : Option Supplier :=
  match g.readers with
  | [r] => some r.1
  | _ => none

/-- `_readers[source]`. -/
def reader? (g : ReaderRegistry) (source : Supplier) : Option CatalogReader :=
  (g.readers.find? (·.1 = source)).map (·.2)

def resolve (g : ReaderRegistry) (source : Option Supplier) : Except Exc CatalogReader :=
  match source.or g.defaultSource with
  | none => .error (.lookup "catalog source selection is required")
  | some selected =>
    match g.reader? selected with
    | some reader => .ok reader
    | none => .error (.lookup "catalog source is not configured")

def aggregateAvailable (g : ReaderRegistry) : Bool := g.lists.aggregateAvailable

end ReaderRegistry

/-- `CatalogReader | CatalogRegistry`. -/
inductive CatalogAccess where
  | reader (r : CatalogReader)
  | registry (g : ReaderRegistry)

def khommoSource : LiveCatalogSupplier := ⟨.khommo, by rintro ⟨⟩⟩

def vietshareSource : LiveCatalogSupplier := ⟨.vietshare, by rintro ⟨⟩⟩

/-- `_live_source`. -/
def liveSource : Supplier → Option LiveCatalogSupplier
  | .khommo => some khommoSource
  | .vietshare => some vietshareSource
  | .mock => none

/-- The key of a source among the readers; `"all"` is none. -/
def LiveCatalogSelection.supplier? : LiveCatalogSelection → Option Supplier
  | .all => none
  | .khommo => some .khommo
  | .vietshare => some .vietshare

def LiveCatalogSupplier.object (source : Option LiveCatalogSupplier) : Object :=
  .ofOption (source.map (·.1.value))

section

variable [UnicodeTables]

/-! ## The catalog -/

/-- `_catalog_lines`. -/
def catalogLines (response : CatalogResponse) : List Str :=
  match response.state with
  | .empty => [
      str "DANH MỤC — " ++ sellerCatalogLabel,
      str "Danh mục hiện trống; không có sản phẩm " ++ str "nào để hiển thị.",
      str "Không có đơn hàng hoặc giao dịch nào " ++ str "được tạo."]
  | .error => [safeCatalogErrorMessage]
  | state =>
    [str "DANH MỤC — " ++ sellerCatalogLabel,
      if state = .stale then
        str "⚠ CẢNH BÁO: đang hiển thị dữ liệu bộ nhớ " ++
          str "đệm đã cũ; lần làm mới gần nhất thất bại."
      else str "Dữ liệu mới · Chọn một sản phẩm để xem " ++ str "chi tiết."] ++
    (if response.isPartial then
      [str "⚠ CATALOG PARTIAL: " ++ natStr response.omittedCount ++
        str " sản phẩm bị loại vì nguồn dữ liệu thiếu " ++ str "mô tả hoặc tồn kho; " ++
        str "bot không suy đoán giá trị."]
    else []) ++
    (if (response.items.take maxCatalogItems).length < response.items.length then
      [str "Chỉ hiển thị " ++ natStr (response.items.take maxCatalogItems).length ++
        str " sản phẩm đầu tiên trong menu này."]
    else []) ++
    [if response.supplier = .mock then
      str "Giá và tồn kho chỉ là thông tin MOCK hiện " ++
        str "tại, không phải cam kết bán hàng."
    else
      str "Giá và tồn kho là snapshot chỉ đọc tại " ++ str "thời điểm hiện tại; " ++
        str "không phải cam kết bán hàng và không " ++ str "cấp quyền mua."]

/-- The row of a product in the menu. -/
def productRow (source : Option LiveCatalogSupplier) (product : CatalogProduct) :
    Except HandlerExc (Option (List Button)) :=
  rowOf (encodeDetailCallback (.text product.id) (LiveCatalogSupplier.object source)) fun data =>
    ⟨catalogButtonText product, data,
      some (if product.availableQuantity = 0 then .danger else .success)⟩

/-- `_catalog_keyboard`. -/
def catalogKeyboard (response : CatalogResponse) (source : Option LiveCatalogSupplier) :
    Except HandlerExc (Option (List (List Button))) :=
  if response.state.populated then
    ((response.items.take maxCatalogItems).mapM (productRow source)).map fun rows =>
      keyboardOf (rows.filterMap id)
  else .ok none

def catalogHandler (reader : CatalogReader) (source : Option LiveCatalogSupplier) :
    Except HandlerExc Message :=
  orAnswer reader.readCatalog (send [safeCatalogErrorMessage] none) fun response => do
    let keyboard ← catalogKeyboard response source
    return send (catalogLines response) keyboard

/-- `_aggregate_catalog_lines`. -/
def aggregateCatalogLines (response : AggregateCatalogResponse) : List Str :=
  [str "DANH MỤC — " ++ sellerCatalogLabel,
    match response.state with
    | .error => str "Không thể tải danh mục sản phẩm dùng " ++ str "được lúc này."
    | .empty => str "Danh mục hiện trống; không có sản phẩm " ++ str "nào để hiển thị."
    | .partly => str "⚠ CẢNH BÁO: danh mục đang hiển thị một " ++ str "phần dữ liệu hiện có."
    | .complete => str "Dữ liệu mới · Chọn một sản phẩm để xem " ++ str "chi tiết."] ++
  (if response.omittedCount ≠ 0 then
    [natStr response.omittedCount ++ str " sản phẩm bị loại vì thiếu dữ liệu bắt buộc; " ++
      str "bot không suy đoán giá trị."]
  else []) ++
  (if response.sources.any (·.state = .stale) then
    [str "Một phần danh mục đang sử dụng dữ liệu " ++ str "cache đã cũ."]
  else []) ++
  (if response.sources.any (·.state = .error) then
    [str "Một phần dữ liệu tạm thời không khả dụng; " ++
      str "sản phẩm bị thiếu không được suy đoán."]
  else []) ++
  if response.state = .error ∨ response.state = .empty then
    [str "Không có đơn hàng hoặc giao dịch nào " ++ str "được tạo."]
  else
    (if (response.items.take maxCatalogItems).length < response.items.length then
      [str "Chỉ hiển thị " ++ natStr (response.items.take maxCatalogItems).length ++
        str " sản phẩm đầu tiên trong menu này."]
    else []) ++
    [str "Các mục có tên hoặc giá giống nhau chưa " ++ str "được tự động hợp nhất.",
      str "Giá và tồn kho là snapshot chỉ đọc tại " ++
        str "thời điểm hiện tại; không cấp quyền mua."]

/-- The row of a product in the combined menu; one without a live source has none. -/
def aggregateRow (product : CatalogProduct) : Except HandlerExc (Option (List Button)) :=
  match liveSource product.supplier with
  | none => .ok none
  | some source => productRow (some source) product

/-- `_aggregate_catalog_keyboard`. -/
def aggregateCatalogKeyboard (response : AggregateCatalogResponse) :
    Except HandlerExc (Option (List (List Button))) :=
  if response.state = .complete ∨ response.state = .partly then
    ((response.items.take maxCatalogItems).mapM aggregateRow).map fun rows =>
      keyboardOf (rows.filterMap id)
  else .ok none

def aggregateCatalogHandler (g : ReaderRegistry) : Except HandlerExc Message :=
  orAnswer g.lists.readAggregate (send [safeCatalogErrorMessage] none) fun response => do
    let keyboard ← aggregateCatalogKeyboard response
    return send (aggregateCatalogLines response) keyboard

/-! ## Products and variants -/

def sellerName (name : Str) : Str := sellerDisplay name 120 (str "Sản phẩm không có tên hiển thị")

def sellerDescription (description : Str) : Str :=
  sellerDisplay description 500 (str "Không có mô tả hiển thị")

def variantName (name : Str) : Str :=
  sellerDisplay name 96 (str "Biến thể không có tên hiển thị")

/-- `_detail_lines`. -/
def detailLines (product : CatalogProduct) : List Str :=
  [str "CHI TIẾT SẢN PHẨM — " ++ sellerCatalogLabel,
    str "Tên: " ++ sellerName product.name,
    str "Mô tả: " ++ sellerDescription product.description,
    str "Các biến thể hiện tại:"] ++
  (product.variants.take maxDetailVariants).map (fun variant =>
    str "• " ++ variantName variant.name ++ str " — " ++ formatMoney variant.price ++
      str "; available_quantity=" ++ natStr variant.availableQuantity) ++
  (if (product.variants.take maxDetailVariants).length < product.variants.length then
    [str "Chỉ hiển thị " ++ natStr (product.variants.take maxDetailVariants).length ++
      str " biến thể đầu tiên để giữ tin nhắn an toàn."]
  else []) ++
  [str "Thông tin này không tạo đơn, không giữ chỗ " ++ str "và không cam kết còn hàng."]

/-- `_button_text`. -/
def leadButtonText (lead value : Str) : Str :=
  boundedDisplay (lead ++ value) maxButtonTextChars (rstrip lead)

def quoteLead (supplier : Supplier) : Str :=
  if supplier = .mock then str "Báo giá mô phỏng: " else str "Xem giá: "

/-- The row of a variant. -/
def variantRow (source : Option LiveCatalogSupplier) (product : CatalogProduct)
    (variant : CatalogVariant) : Except HandlerExc (Option (List Button)) :=
  rowOf (encodeQuoteCallback (.text product.id) (.text variant.id)
    (LiveCatalogSupplier.object source)) fun data =>
      ⟨leadButtonText (quoteLead product.supplier) (variantName variant.name), data, none⟩

/-- `_detail_keyboard`. -/
def detailKeyboard (product : CatalogProduct) (source : Option LiveCatalogSupplier) :
    Except HandlerExc (Option (List (List Button))) :=
  ((product.variants.take maxDetailVariants).mapM (variantRow source product)).map fun rows =>
    keyboardOf (rows.filterMap id)

/-- `_quote_lines`. -/
def quoteLines (product : CatalogProduct) (variant : CatalogVariant) : List Str := [
  if product.supplier = .mock then str "BÁO GIÁ MÔ PHỎNG — MOCK / CHỈ ĐỌC"
  else str "THÔNG TIN GIÁ — " ++ sellerCatalogLabel,
  str "Sản phẩm: " ++ sellerName product.name,
  str "Biến thể: " ++ variantName variant.name,
  str "Giá hiện tại: " ++ formatMoney variant.price,
  if variant.availableQuantity = 0 then
    str "Tình trạng hiện tại: hết hàng " ++ str "(available_quantity=0)."
  else
    str "Tồn kho tham khảo hiện tại: " ++ str "available_quantity=" ++
      natStr variant.availableQuantity ++ str "; không bảo đảm sẽ còn hàng.",
  str "Đây chỉ là thông tin đọc tại thời điểm " ++ str "hiện tại, không phải lời hứa " ++
    str "về giá hoặc khả dụng.",
  str "Không tạo hay giữ chỗ, đơn hàng, " ++ str "thanh toán, mua hàng, nạp tiền, " ++
    str "hoàn tiền hoặc giao hàng."]

/-- `_read_detail`: what raises an `Exception` is no response. -/
def readDetail (reader : CatalogReader) (productId : Str) :
    Except HandlerExc (Option CatalogDetailResponse) :=
  match reader.getProduct productId with
  | .ok response => .ok (some response)
  | .error e => if e.isException then .ok none else .error (.catalog e)

def notFoundLines : List Str := [
  str "Không tìm thấy sản phẩm này trong danh " ++ str "mục chỉ đọc hiện tại. " ++
    str "Vui lòng dùng /catalog để làm mới; " ++ str "không có dữ liệu nào được suy đoán."]

def unsupportedLines : List Str := [
  str "Chi tiết sản phẩm này hiện không được " ++ str "hỗ trợ trong chế độ chỉ đọc. " ++
    str "Bot không suy đoán dữ liệu; " ++ str "vui lòng quay lại /catalog."]

/-- The message of a product. -/
def productMessage (source : Option LiveCatalogSupplier) (product : CatalogProduct) :
    Except HandlerExc Message :=
  (detailKeyboard product source).map (send (detailLines product))

/-- `_handle_detail_callback`. -/
def handleDetailCallback (reader : CatalogReader) (productId : Str)
    (source : Option LiveCatalogSupplier) : Except HandlerExc Message := do
  match ← readDetail reader productId with
  | some (.found item) => if item.id ≠ productId then return refresh else productMessage source item
  | some (.notFound _) => return send notFoundLines none
  | some (.unsupported _ _) => return send unsupportedLines none
  | none => return refresh

/-- `_handle_quote_callback`. -/
def handleQuoteCallback (reader : CatalogReader) (productId : Str) (variantId : Option Str) :
    Except HandlerExc Message :=
  match variantId with
  | none => .ok refresh
  | some variantId => do
    match ← readDetail reader productId with
    | some (.found product) =>
      if product.id ≠ productId then return refresh
      else match product.variants.find? (·.id = variantId) with
        | some variant => return send (quoteLines product variant) none
        | none => return refresh
    | _ => return refresh

/-! ## Routing -/

/-- A supplier that a payload names; the selection of all is none. -/
def LiveCatalogSelection.live? (source : LiveCatalogSelection) : Option LiveCatalogSupplier :=
  if h : source = .all then none else some ⟨source, h⟩

/-- A source that the user chose. -/
def selectSource (g : ReaderRegistry) (source : Option LiveCatalogSelection) :
    Except HandlerExc Message :=
  if g.aggregateAvailable then aggregateCatalogHandler g
  else match source.bind LiveCatalogSelection.live? with
    | none => .ok refresh
    | some live =>
      match g.resolve live.1.supplier? with
      | .error _ => .ok refresh
      | .ok reader => catalogHandler reader (some live)

/-- The callback of a product or of a variant, once its reader is found. -/
def answerPayload (reader : CatalogReader) (payload : CatalogCallback) :
    Except HandlerExc Message :=
  match payload.action, payload.productId with
  | .source, _ => .ok refresh
  | _, none => .ok refresh
  | .detail, some productId =>
    handleDetailCallback reader productId (payload.source.bind LiveCatalogSelection.live?)
  | .quote, some productId => handleQuoteCallback reader productId payload.variantId

/-- `callback_handler`, after the payload is decoded. -/
def routePayload (access : CatalogAccess) (payload : CatalogCallback) :
    Except HandlerExc Message :=
  match access with
  | .registry g =>
    if payload.action = .source then selectSource g payload.source
    else if payload.source = some .all then .ok refresh
    else if payload.source = none ∧ g.sources ≠ [.mock] then .ok refresh
    else match g.resolve (payload.source.bind LiveCatalogSelection.supplier?) with
      | .error _ => .ok refresh
      | .ok reader => answerPayload reader payload
  | .reader reader => if payload.source ≠ none then .ok refresh else answerPayload reader payload

/-- `callback_handler`, for a query that has a message. -/
def callbackHandler (access : CatalogAccess) (data : Object) : Except HandlerExc Message :=
  match decodeCallback data with
  | .ok payload => routePayload access payload
  | .error (.callbackCodecError _) => .ok refresh
  | .error e => .error (.callback e)

/-- `injected_catalog_handler`, without a storefront. -/
def injectedCatalogHandler (access : CatalogAccess) : Except HandlerExc Message :=
  match access with
  | .registry g =>
    if g.aggregateAvailable then aggregateCatalogHandler g
    else if g.selectionRequired then .ok (send [safeCatalogErrorMessage] none)
    else match g.resolve none with
      | .error e => .error (.catalog e)
      | .ok reader => catalogHandler reader (g.sources.head?.bind liveSource)
  | .reader reader => catalogHandler reader none

end

end NyanShopBot.Bot
