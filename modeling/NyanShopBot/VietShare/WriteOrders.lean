import NyanShopBot.Py.Json

/-!
# The VietShare write contract

The value objects of the VietShare adapters, an order and its exact bytes
(`OrderPurchase.rawBody`), and what is read from a response: the completed order
(`parseOrderResponse`), the error code (`errorCode`) and the delay that
`Retry-After` asks for (`retryAfter`). `json.loads`, the HTTP dates and the ISO
dates of Python are parameters, `Stdlib`.
-/

namespace NyanShopBot.VietShare

open Py

/-! ## Exceptions -/

/-- What a call can raise: a `GateError`, `WriteContractError`, `JournalConflict` or
`VietShareConfigurationError`, any other `ValueError` or a `TypeError`, a database
error, any other `Exception`, and the `BaseException`s that `except Exception` lets
through. -/
inductive Exc where
  | gate (message : String)
  | contract (message : String)
  | journal (message : String)
  | configuration (message : String)
  | value
  | database
  | exception
  | cancelled
  | fatal
deriving DecidableEq

/-- `isinstance(e, Exception)`. -/
def Exc.isException : Exc → Bool
  | cancelled | fatal => false
  | _ => true

/-- `isinstance(e, (ValueError, TypeError))`. -/
def Exc.isValue : Exc → Bool
  | gate _ | contract _ | journal _ | configuration _ | value => true
  | _ => false

/-- What the modules take from `json`, `email.utils` and `datetime`. -/
class Stdlib where
  /-- `json.loads(raw)`. -/
  jsonLoads : Bytes → Except Exc Json
  /-- `parsedate_to_datetime(text).timestamp()`, as UTC where the date has no zone. -/
  httpDate : Str → Option ℚ
  /-- Whether `datetime.fromisoformat(text)` has a zone, none where it raises. -/
  isoAware : Str → Option Bool

/-! ## Text -/

def isDigit (c : CodePoint) : Bool := 0x30 ≤ c.val && c.val ≤ 0x39

def isUpper (c : CodePoint) : Bool := 0x41 ≤ c.val && c.val ≤ 0x5a

def isLower (c : CodePoint) : Bool := 0x61 ≤ c.val && c.val ≤ 0x7a

/-- The whole text is between `lo` and `hi` characters of `cls`. -/
def fullmatch (cls : CodePoint → Bool) (lo hi : Nat) (s : Str) : Bool :=
  lo ≤ s.length && s.length ≤ hi && s.all cls

/-- `[A-Za-z0-9._:-]`. -/
def isKeyChar (c : CodePoint) : Bool :=
  isUpper c || isLower c || isDigit c || c.val == 0x2e || c.val == 0x5f || c.val == 0x3a ||
    c.val == 0x2d

/-- `_KEY`. -/
def isKey (s : Str) : Bool := fullmatch isKeyChar 8 128 s

/-- `_ORDER_CODE`. -/
def isOrderCode (s : Str) : Bool :=
  fullmatch (fun c => isUpper c || isLower c || isDigit c || c.val == 0x5f || c.val == 0x2d) 1 128 s

/-- `[A-Z_]{1,64}`. -/
def isErrorCode (s : Str) : Bool := fullmatch (fun c => isUpper c || c.val == 0x5f) 1 64 s

/-- `"\r" in s or "\n" in s`. -/
def hasLineBreak (s : Str) : Bool := s.any fun c => c.val == 0x0d || c.val == 0x0a

/-- `s.encode("utf-8")`. -/
def encode (s : Str) : Except Exc Bytes :=
  match encodeUtf8 s with
  | some data => .ok data
  | none => .error .value

/-! ## Requests and responses -/

inductive Secret where
  | text (s : Str)
  | bytes (data : Bytes)
deriving DecidableEq

/-- Signing credentials; `valid` is what `__post_init__` checks. -/
structure VietShareCredentials where
  apiId : Str
  apiSecret : Secret
  valid : apiId ≠ [] ∧ hasLineBreak apiId = false ∧ apiSecret ≠ .text [] ∧ apiSecret ≠ .bytes []

def VietShareCredentials.secretBytes (c : VietShareCredentials) : Except Exc Bytes :=
  match c.apiSecret with
  | .text s => encode s
  | .bytes data => .ok data

/-- A header mapping in its order; `valid` is what the constructor checks. -/
structure SensitiveHeaders where
  values : List (Str × Str)
  valid : (values.all fun h => !hasLineBreak h.1 && !hasLineBreak h.2) = true
deriving DecidableEq

def noHeaders : SensitiveHeaders := ⟨[], rfl⟩

def SensitiveHeaders.make (values : List (Str × Str)) : Except Exc SensitiveHeaders :=
  if h : (values.all fun h => !hasLineBreak h.1 && !hasLineBreak h.2) = true then .ok ⟨values, h⟩
  else .error (.configuration "HTTP headers must not contain line breaks")

def SensitiveHeaders.get? (headers : SensitiveHeaders) (name : Str) : Option Str :=
  (headers.values.find? fun h => h.1 = name).map (·.2)

def lower (c : CodePoint) : CodePoint :=
  if h : isUpper c = true then
    ⟨c.val + 32, by simp only [isUpper, Bool.and_eq_true, decide_eq_true_eq] at h; omega⟩
  else c

/-- The first `Retry-After`. No character outside ASCII folds to a letter of the
name, so `casefold` is compared through the ASCII letters. -/
def SensitiveHeaders.retryAfter? (headers : SensitiveHeaders) : Option Str :=
  (headers.values.find? fun h => h.1.map lower = str "retry-after").map (·.2)

structure VietShareRequest where
  method : Str
  url : Str
  pathWithQuery : Str
  headers : SensitiveHeaders
  body : Bytes
deriving DecidableEq

/-- A transport response; `valid` is what `__post_init__` checks. -/
structure VietShareResponse where
  statusCode : Int
  headers : SensitiveHeaders
  body : Bytes
  valid : 100 ≤ statusCode ∧ statusCode ≤ 599
deriving DecidableEq

theorem ok_isStatus : (100 : Int) ≤ 200 ∧ (200 : Int) ≤ 599 := by decide

/-- The text that a request signs. -/
def canonicalString (timestamp : Int) (nonce method path bodySha256 : Str) : Str :=
  join (str "|") [intStr timestamp, nonce, method, path, bodySha256]

def ordersPath : Str := str "/v1/orders"

/-- A signed request; an order carries its `Idempotency-Key`. -/
def signedRequest [Hashlib] (credentials : VietShareCredentials) (method path : Str)
    (timestamp : Int) (nonce : Str) (key : Option Str) (body : Bytes) (bodySha256 : Str) :
    Except Exc VietShareRequest := do
  let canonical ← encode (canonicalString timestamp nonce method path bodySha256)
  let secret ← credentials.secretBytes
  let headers ← SensitiveHeaders.make
    ([(str "X-Shop-API-ID", credentials.apiId), (str "X-Timestamp", intStr timestamp),
        (str "X-Nonce", nonce), (str "X-Signature", hmacSha256Hex secret canonical)] ++
      match key with
      | some k => [(str "Idempotency-Key", k), (str "Content-Type", str "application/json")]
      | none => [])
  return ⟨method, str "https://token.vietshare.site" ++ path, path, headers, body⟩

/-- The request is signed for a timestamp and a nonce. -/
def Signs (r : VietShareRequest) (timestamp : Int) (nonce : Str) : Prop :=
  r.headers.get? (str "X-Timestamp") = some (intStr timestamp) ∧
    r.headers.get? (str "X-Nonce") = some nonce

theorem get?_cons_ne {name k v : Str} {values : List (Str × Str)} (h : k ≠ name) :
    (((k, v) :: values).find? fun h => h.1 = name) = values.find? fun h => h.1 = name := by
  rw [List.find?_cons, decide_eq_false h]

theorem make_values {values : List (Str × Str)} {headers : SensitiveHeaders}
    (h : SensitiveHeaders.make values = .ok headers) : headers.values = values := by
  unfold SensitiveHeaders.make at h
  split at h
  · cases h; rfl
  · cases h

/-- What a signed request carries. -/
theorem signedRequest_ok [Hashlib] {credentials : VietShareCredentials}
    {method path nonce bodySha256 : Str} {timestamp : Int} {key : Option Str} {body : Bytes}
    {r : VietShareRequest}
    (h : signedRequest credentials method path timestamp nonce key body bodySha256 = .ok r) :
    r.method = method ∧ r.body = body ∧ Signs r timestamp nonce ∧
      ∀ k ∈ key, r.headers.get? (str "Idempotency-Key") = some k := by
  unfold signedRequest at h
  obtain ⟨canonical, -, h⟩ := except_bind_ok.1 h
  obtain ⟨secret, -, h⟩ := except_bind_ok.1 h
  obtain ⟨headers, hh, h⟩ := except_bind_ok.1 h
  cases h
  have hv := make_values hh
  refine ⟨rfl, rfl, ⟨?_, ?_⟩, fun k hk => ?_⟩
  · show (headers.values.find? _).map _ = _
    rw [hv, List.cons_append, get?_cons_ne (by decide), List.cons_append, List.find?_cons]
    rfl
  · show (headers.values.find? _).map _ = _
    rw [hv, List.cons_append, get?_cons_ne (by decide), List.cons_append,
      get?_cons_ne (by decide), List.cons_append, List.find?_cons]
    rfl
  · cases hk
    show (headers.values.find? _).map _ = _
    rw [hv, List.cons_append, get?_cons_ne (by decide), List.cons_append,
      get?_cons_ne (by decide), List.cons_append, get?_cons_ne (by decide), List.cons_append,
      get?_cons_ne (by decide)]
    rfl

/-! ## Orders -/

/-- What `__post_init__` checks, with the message of the first check that fails. -/
def OrderPurchase.checks (productId quantity maxUnitPrice : Int) (currency : Str)
    (supplierEmails : List Str) (couponCode : Option Str) (flashSaleId : Option Int) :
    List (Bool × String) :=
  [(0 < productId && 1 ≤ quantity && quantity ≤ 100 && 0 < maxUnitPrice &&
      (currency = str "VND" || currency = str "USD"), "Invalid documented order fields"),
    (supplierEmails = [] ||
      (supplierEmails.length = quantity && supplierEmails.all (· ≠ [])),
      "Invalid supplier email count"),
    (couponCode.all fun code => 1 ≤ code.length && code.length ≤ 64, "Invalid coupon code"),
    (flashSaleId.all (0 < ·), "Invalid flash sale identifier")]

structure OrderPurchase where
  productId : Int
  quantity : Int
  maxUnitPrice : Int
  currency : Str
  supplierEmails : List Str
  couponCode : Option Str
  flashSaleId : Option Int
  valid : ((OrderPurchase.checks productId quantity maxUnitPrice currency supplierEmails couponCode
    flashSaleId).find? (!·.1)) = none

namespace OrderPurchase

def make (productId quantity maxUnitPrice : Int) (currency : Str) (supplierEmails : List Str)
    (couponCode : Option Str) (flashSaleId : Option Int) : Except Exc OrderPurchase :=
  match h : (checks productId quantity maxUnitPrice currency supplierEmails couponCode
      flashSaleId).find? (!·.1) with
  | none => .ok ⟨productId, quantity, maxUnitPrice, currency, supplierEmails, couponCode,
      flashSaleId, h⟩
  | some c => .error (.contract c.2)

/-- The members of the body, in the order in which they are set. -/
def asDict (p : OrderPurchase) : Json :=
  .obj ([(str "product_id", .int p.productId), (str "quantity", .int p.quantity),
      (str "max_unit_price", .int p.maxUnitPrice), (str "currency", .str p.currency)] ++
    (if p.supplierEmails = [] then []
      else [(str "supplier_emails", .arr (p.supplierEmails.map .str))]) ++
    (p.couponCode.map fun code => (str "coupon_code", Json.str code)).toList ++
    (p.flashSaleId.map fun id => (str "flash_sale_id", Json.int id)).toList)

def rawBody (p : OrderPurchase) : Except Exc Bytes := encode p.asDict.compact

end OrderPurchase

structure CompletedOrder where
  orderCode : Str
  productId : Int
  quantity : Int
  walletCurrency : Str
  supplierReportedTotal : Int
  accounts : List Str
deriving DecidableEq

/-! ## Reading a response -/

/-- `_integer`. -/
def integer (value : Json) (positive : Bool) : Option Int :=
  match value with
  | .int n => if n < (if positive then 1 else 0) then none else some n
  | _ => none

def integer0 (value : Json) : Option Int := integer value false

def text (value : Json) : Option Str :=
  match value with
  | .str s => some s
  | _ => none

def members (value : Json) : Option (List (Str × Json)) :=
  match value with
  | .obj m => some m
  | _ => none

def items (value : Json) : Option (List Json) :=
  match value with
  | .arr l => some l
  | _ => none

def isTrue (value : Json) : Bool :=
  match value with
  | .bool b => b
  | _ => false

/-- A text that is not empty. -/
def nonEmpty (value : Json) : Option Str := (text value).filter (· ≠ [])

section

variable [Stdlib]

/-- A date that names its time zone. -/
def zonedDate (value : Json) : Option Unit := do
  let date ← nonEmpty value
  guard ((← Stdlib.isoAware date) = true)

/-- The unit price, which can be missing. -/
def unitPrice (value : Json) : Option Unit :=
  match value with
  | .null => some ()
  | price => (integer0 price).map fun _ => ()

/-- One tier of the price breakdown. -/
def priceTier (tier : Json) : Option Unit := do
  let fields ← members tier
  let _ ← integer (Json.get fields (str "quantity")) true
  let _ ← integer0 (Json.get fields (str "unit_price"))
  let _ ← integer0 (Json.get fields (str "subtotal"))

/-- The checks of `parse_order_response`; each one that fails raises a
`ValueError`, for which none stands. -/
def completedOrder (document : Json) (key : Str) (purchase : OrderPurchase) :
    Option CompletedOrder := do
  let envelope ← members document
  guard (isTrue (Json.get envelope (str "success")))
  let order ← members (Json.get envelope (str "order"))
  guard (text (Json.get order (str "status")) = some (str "completed"))
  guard (text (Json.get order (str "channel")) = some (str "api"))
  let code ← text (Json.get order (str "order_code"))
  guard (isOrderCode code)
  let product ← members (Json.get order (str "product"))
  guard ((← integer (Json.get product (str "id")) true) = purchase.productId)
  guard (text (Json.get product (str "name"))).isSome
  guard (text (Json.get order (str "idempotency_key")) = some key)
  guard ((← integer (Json.get order (str "quantity")) true) = purchase.quantity)
  let accounts ← items (Json.get order (str "accounts"))
  guard (accounts.length = purchase.quantity)
  let values ← accounts.mapM nonEmpty
  let prices ← items (Json.get order (str "unit_prices"))
  guard (prices.length = purchase.quantity)
  let breakdown ← items (Json.get order (str "price_breakdown"))
  let _ ← prices.mapM integer0
  let _ ← unitPrice (Json.get order (str "unit_price"))
  let _ ← breakdown.mapM priceTier
  let total ← integer0 (Json.get order (str "total_amount"))
  let _ ← integer0 (Json.get order (str "discount_amount"))
  zonedDate (Json.get order (str "created_at"))
  zonedDate (Json.get order (str "delivered_at"))
  return ⟨code, purchase.productId, purchase.quantity, purchase.currency, total, values⟩

/-- Accept only the documented completed order. -/
def parseOrderResponse (rawBody : Bytes) (key : Str) (purchase : OrderPurchase) :
    Except Exc CompletedOrder :=
  match Stdlib.jsonLoads rawBody with
  | .ok document =>
    match completedOrder document key purchase with
    | some order => .ok order
    | none => .error (.contract "Invalid documented order response")
  | .error e =>
    .error (if e.isValue then .contract "Invalid documented order response" else e)

/-- The code of an error document. -/
def detailCode (document : Json) : Option Str := do
  let envelope ← members document
  let detail ← members (Json.get envelope (str "detail"))
  (text (Json.get detail (str "code"))).filter (isErrorCode ·)

/-- `_error_code`. -/
def errorCode (rawBody : Bytes) : Except Exc (Option Str) :=
  match Stdlib.jsonLoads rawBody with
  | .ok document => .ok (detailCode document)
  | .error e => if e.isValue then .ok none else .error e

/-! ## Retry-After -/

/-- `s.isascii() and s.isdecimal()`. -/
def isDecimal (s : Str) : Bool := s ≠ [] && s.all isDigit

def digitsValue (s : Str) : Nat := s.foldl (fun n c => 10 * n + (c.val - 0x30)) 0

/-- `float(int(s))` of decimal digits, none where it raises: Python reads at most
4300 digits. -/
def floatOfDigits (s : Str) : Option PyFloat :=
  if s.length ≤ 4300 then PyFloat.ofInt (digitsValue s) else none

def parseRetryAfter (value : Option Str) (now : PyNum) : Option PyFloat := do
  let stripped := strip (← value)
  if isDecimal stripped then
    floatOfDigits stripped
  else
    let date ← Stdlib.httpDate stripped
    return ((PyFloat.finite date).sub (← now.toFloat)).max0

/-- `_retry_after`. -/
def retryAfter (headers : SensitiveHeaders) (now : PyNum) : Option PyFloat :=
  parseRetryAfter headers.retryAfter? now

end

/-! ## A sample order -/

def samplePurchase : OrderPurchase := ⟨7, 1, 20000, str "VND", [], none, none, by decide⟩

def sampleCredentials : VietShareCredentials :=
  ⟨str "synthetic-shop", .text (str "secret"), by decide⟩

def sampleNonce : Str := str "synthetic-nonce-1"

def sampleHash : Str := hexDigits 64
  0xaec83afd109474d0d292e2cc0d26000facd9dff414cfd6433cdf3415ba4b5798

def sampleBody : Bytes := (encodeUtf8 (str "\x7b\"product_id\":7,\"quantity\":1" ++
  str ",\"max_unit_price\":20000" ++ str ",\"currency\":\"VND\"\x7d")).getD []

def sampleCanonical : Bytes :=
  (encodeUtf8 (str "1000|synthetic-nonce-1|POST|/v1/orders|" ++ sampleHash)).getD []

/-- A block of the key `secret` in the HMAC of the sample. -/
def sampleBlock (pad : UInt8) : Bytes :=
  (([0x73, 0x65, 0x63, 0x72, 0x65, 0x74] ++ List.replicate 58 0 : Bytes)).map (· ^^^ pad)

def sampleInner : BitVec 256 :=
  0x4e5ec709573f4222fc4e172be73d3398d76d6891eda5b29f2f92a092fec79c7e#256

/-- The digests that the sample needs. -/
abbrev sampleDigests : Hashlib where
  sha1 _ := 0
  sha256 data :=
    if data = sampleBody then
      0xaec83afd109474d0d292e2cc0d26000facd9dff414cfd6433cdf3415ba4b5798#256
    else if data = sampleCanonical then
      0x1f1d2aa4974458ef58ff1ea5b77177a17bcd0d6037d12ed5925330faf5f268c2#256
    else if data = sampleBlock 0x36 ++ sampleCanonical then sampleInner
    else if data = sampleBlock 0x5c ++ toBytes 32 sampleInner.toNat then
      0x68eab6390d0d7a32e2f32c33b0d4bdfc428cce8a105f72b3cc714d8f9934f7da#256
    else 0

/-- The sample bodies are empty objects, and its headers hold no date. -/
abbrev sampleStdlib : Stdlib where
  jsonLoads data := if data = [0x7b, 0x7d] then .ok (.obj []) else .error .value
  httpDate _ := none
  isoAware _ := none

end NyanShopBot.VietShare
