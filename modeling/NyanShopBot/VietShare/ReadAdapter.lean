import NyanShopBot.Conc.System
import NyanShopBot.VietShare.Products
import NyanShopBot.VietShare.Signing

/-!
# The read adapter

A read of `VietShareReadAdapter` as a program over what it awaits: the clock, the nonce
source, the transport and the retry sleeper, with the nonces that the adapter has used.
`readResponse` is the bounded retry loop, and `readSystem` runs any number of reads of one
adapter side by side.
-/

namespace NyanShopBot.VietShare

open Py Conc

/-! ## Outcomes -/

inductive ProductListErrorCode where
  | httpError | invalidResponse | transportError | configurationError | retryError
deriving DecidableEq

/-- `ProductListTimeout`, `ProductListRateLimited` and `ProductListError`. -/
inductive ReadFailure where
  | timeout (attempts : Nat)
  | rateLimited (attempts : Nat) (retryAfterSeconds : Option PyFloat)
  | error (code : ProductListErrorCode) (attempts : Nat) (statusCode : Option Int)
      (retryable : Bool)
deriving DecidableEq

def ReadFailure.attempts : ReadFailure → Nat
  | timeout n | rateLimited n _ | error _ n _ _ => n

/-- What the retry loop hands on. -/
inductive RawReadOutcome where
  | success (response : VietShareResponse) (attempts : Nat)
  | failure (f : ReadFailure)

def RawReadOutcome.attempts : RawReadOutcome → Nat
  | success _ n => n
  | failure f => f.attempts

inductive ProductListOutcome where
  | success (value : VietShareProductList) (attempts : Nat)
  | failure (f : ReadFailure)

inductive ProductDetailOutcome where
  | success (value : VietShareProduct) (attempts : Nat)
  | notFound (attempts : Nat)
  | failure (f : ReadFailure)

/-! ## What a read awaits -/

/-- What a read can raise: a `TimeoutError` or anything else. -/
inductive ReadExc where
  | timeout
  | other (e : Exc)
deriving DecidableEq

/-- `isinstance(e, Exception)`. -/
def ReadExc.isException : ReadExc → Bool
  | timeout => true
  | other e => e.isException

inductive ReadOp where
  | clock
  | nonceSource
  | reserve (nonce : Str)
  | send (request : VietShareRequest) (timeoutSeconds : PyFloat)
  | sleep (delay : PyFloat)

/-- The clock may return what is no number, the nonce source what is no text, and the
transport what is no `VietShareResponse`. -/
abbrev ReadOp.Res : ReadOp → Type
  | .clock => Option PyNum
  | .nonceSource => Option Str
  | .reserve _ => Unit
  | .send _ _ => Option VietShareResponse
  | .sleep _ => Unit

abbrev readSig : Sig := ⟨ReadOp, ReadOp.Res⟩

abbrev Retrieval (α : Type) := Prog readSig ReadExc α

abbrev await (op : ReadOp) : Retrieval op.Res := Prog.perform (S := readSig) op

/-- The result of a function that raises no `TimeoutError`. -/
def raised {α : Type} : Except Exc α → Retrieval α
  | .ok a => .ret a
  | .error e => .raise (.other e)

/-! ## The adapter -/

/-- What the constructor checks of a number of seconds. -/
def isDelay : PyFloat → Bool
  | .finite q => 0 ≤ q
  | _ => false

structure VietShareReadAdapter where
  credentials : VietShareCredentials
  timeoutSeconds : PyFloat
  maxRetries : Nat
  retryDelaySeconds : PyFloat
  validTimeout : isDelay timeoutSeconds = true ∧ timeoutSeconds ≠ .finite 0
  validDelay : isDelay retryDelaySeconds = true

def productionBaseUrl : Str := str "https://token.vietshare.site/v1"

/-- The Unix second that `_timestamp` makes of a reading of the clock. -/
def timestampOf (reading : Option PyNum) : Except Exc Int :=
  match reading with
  | none => .error (.configuration "Clock must return Unix seconds")
  | some value =>
    match value.toFloat with
    | some (.finite q) =>
      if q < 0 then .error (.configuration "Clock must return finite non-negative Unix seconds")
      else .ok ⌊q⌋
    | some _ => .error (.configuration "Clock must return finite non-negative Unix seconds")
    | none => .error .exception

/-- What `_nonce` checks of a nonce before it is reserved. -/
def nonceOf (nonce : Option Str) : Except Exc Str :=
  match nonce with
  | none => .error (.configuration "Nonce source must return 12 to 128 characters")
  | some nonce =>
    if ¬ (12 ≤ nonce.length ∧ nonce.length ≤ 128) then
      .error (.configuration "Nonce source must return 12 to 128 characters")
    else if hasLineBreak nonce then
      .error (.configuration "Nonce source must not return line breaks")
    else .ok nonce

namespace VietShareReadAdapter

variable [Stdlib] [Hashlib] [HostChecks]

/-- `_request`. -/
def request (adapter : VietShareReadAdapter) (endpoint : Str) :
    Retrieval (VietShareRequest × Int) := do
  let timestamp ← raised (timestampOf (← await .clock))
  let nonce ← raised (nonceOf (← await .nonceSource))
  await (.reserve nonce)
  let request ← raised (buildSignedReadRequest adapter.credentials productionBaseUrl endpoint
    timestamp nonce [] [])
  return (request, timestamp)

/-- `_sleep_for_retry`, and the next attempt where it returns. -/
def sleepForRetry (delay : PyFloat) (attempts : Nat) (next : Retrieval RawReadOutcome) :
    Retrieval RawReadOutcome := do
  match ← (await (.sleep delay)).attempt with
  | .ok _ => next
  | .error e =>
    if e.isException then return .failure (.error .retryError attempts none false) else .raise e

/-- One reply of the transport to a request of `timestamp`, and the next attempt where it
is retried. -/
def handle (adapter : VietShareReadAdapter) (attempt : Nat) (timestamp : Int)
    (next : Retrieval RawReadOutcome) :
    Except ReadExc (Option VietShareResponse) → Retrieval RawReadOutcome
  | .error .timeout =>
    if attempt = adapter.maxRetries + 1 then return .failure (.timeout attempt)
    else sleepForRetry adapter.retryDelaySeconds attempt next
  | .error (.other e) =>
    if e.isException then return .failure (.error .transportError attempt none false)
    else .raise (.other e)
  | .ok none => return .failure (.error .transportError attempt none false)
  | .ok (some response) =>
    if response.statusCode = 429 then
      let retryAfter := parseRetryAfter response.headers.retryAfter? (.int timestamp)
      if attempt = adapter.maxRetries + 1 then return .failure (.rateLimited attempt retryAfter)
      else sleepForRetry (retryAfter.getD adapter.retryDelaySeconds) attempt next
    else return .success response attempt

/-- The attempts from `attempt` on, of which `left` are left. -/
def readFrom (adapter : VietShareReadAdapter) (endpoint : Str) (attempt : Nat) :
    Nat → Retrieval RawReadOutcome
  | 0 => .raise (.other .exception)
  | left + 1 => do
    match ← (adapter.request endpoint).attempt with
    | .error e =>
      if e.isException then return .failure (.error .configurationError attempt none false)
      else .raise e
    | .ok (request, timestamp) =>
      let reply ← (await (.send request adapter.timeoutSeconds)).attempt
      adapter.handle attempt timestamp (adapter.readFrom endpoint (attempt + 1) left) reply

/-- `_read_response`. -/
def readResponse (adapter : VietShareReadAdapter) (endpoint : Str) : Retrieval RawReadOutcome :=
  adapter.readFrom endpoint 1 (adapter.maxRetries + 1)

end VietShareReadAdapter

/-! ## Reads -/

def httpError (response : VietShareResponse) (attempts : Nat) : ReadFailure :=
  .error .httpError attempts (some response.statusCode) (500 ≤ response.statusCode)

section

variable [JsonBytes]

/-- The part of `_read_product_list` after the retry loop. -/
def productListOutcome : RawReadOutcome → ProductListOutcome
  | .failure f => .failure f
  | .success response attempts =>
    if ¬ (200 ≤ response.statusCode ∧ response.statusCode ≤ 299) then
      .failure (httpError response attempts)
    else
      match parseProductList response.body with
      | .ok products => .success products attempts
      | .error _ => .failure (.error .invalidResponse attempts none false)

/-- The part of `get_product` after the retry loop. -/
def productDetailOutcome (productId : Int) : RawReadOutcome → ProductDetailOutcome
  | .failure f => .failure f
  | .success response attempts =>
    if response.statusCode = 404 then .notFound attempts
    else if ¬ (200 ≤ response.statusCode ∧ response.statusCode ≤ 299) then
      .failure (httpError response attempts)
    else
      match parseProductDetail response.body with
      | .ok product =>
        if product.id = productId then .success product attempts
        else .failure (.error .invalidResponse attempts none false)
      | .error _ => .failure (.error .invalidResponse attempts none false)

end

inductive ReadCall where
  | getProduct (productId : Int)
  | listProducts
  | listCatalog

inductive ReadOutcome where
  | detail (o : ProductDetailOutcome)
  | list (o : ProductListOutcome)

/-- The `attempts` of an outcome. -/
def ReadOutcome.attempts : ReadOutcome → Nat
  | detail (.success _ n) | detail (.notFound n) | list (.success _ n) => n
  | detail (.failure f) | list (.failure f) => f.attempts

/-- The outcome is a configuration error. -/
def ReadOutcome.isUnbuilt : ReadOutcome → Bool
  | detail (.failure (.error .configurationError ..)) => true
  | list (.failure (.error .configurationError ..)) => true
  | _ => false

section

variable [Stdlib] [Hashlib] [HostChecks] [JsonBytes]

/-- A number of more than 4300 digits cannot be written into a path. -/
def ReadCall.body (adapter : VietShareReadAdapter) : ReadCall → Retrieval ReadOutcome
  | .getProduct productId =>
    if productId ≤ 0 then
      .raise (.other (.configuration "Product ID must be a positive integer"))
    else if 4300 < (intStr productId).length then .raise (.other .value)
    else do
      let raw ← adapter.readResponse (str "/products/" ++ intStr productId)
      return .detail (productDetailOutcome productId raw)
  | .listProducts => do
    let raw ← adapter.readResponse (str "/products")
    return .list (productListOutcome raw)
  | .listCatalog => do
    let raw ← adapter.readResponse (str "/catalog")
    return .list (productListOutcome raw)

/-- What one step can return and leave of the used nonces: a reservation refuses a nonce
that was used, and the rest returns or raises what it likes. -/
def ReadEffect (used : List Str) : (op : ReadOp) → Except ReadExc op.Res → List Str → Prop
  | .reserve nonce, r, used' =>
    if nonce ∈ used then
      r = .error (.other (.configuration "Nonce source reused a nonce")) ∧ used' = used
    else r = .ok () ∧ used' = nonce :: used
  | _, _, used' => used' = used

/-- **Any number of reads of one adapter.** -/
abbrev readSystem (adapter : VietShareReadAdapter) : System readSig ReadExc where
  Store := List Str
  Call := ReadCall
  Out := ReadOutcome
  body := ReadCall.body adapter
  eff := ReadEffect

end

end NyanShopBot.VietShare
