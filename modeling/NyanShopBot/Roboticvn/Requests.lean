import Mathlib.Data.List.Infix
import NyanShopBot.Py.Percent
import NyanShopBot.Py.Unicode

/-!
# Requests of the read adapter

`isSafeProductPathSegment` decodes a segment again and again and looks at each form that it
comes to. `RoboticvnRequest.make` checks the target of a request, and `productRequest` is
the request of `get_product`. What is raised is a `RoboticvnConfigurationError`, or the
`UnicodeEncodeError` of a text that cannot be encoded.
-/

namespace NyanShopBot.Roboticvn

open Py

inductive Exc where
  | configuration (message : Str)
  | unicodeEncode
deriving DecidableEq

def apiPrefix : Str := str "/api/v2"

def productionOrigin : Str := str "https://api.roboticvn.com"

/-- `API_PREFIX` and `/products/`. -/
def detailPrefix : Str := apiPrefix ++ str "/products/"

/-! ## Segments -/

section

variable [UnicodeTables]

/-- One form of a segment, in the order of the checks. -/
def isCleanForm (form : Str) : Bool :=
  form ≠ str "." && form ≠ str ".." && chr '/' ∉ form && chr '\\' ∉ form &&
    !form.any fun c => category c = .control || category c = .format || category c = .surrogate

/-- So many rounds of the loop. -/
def decodesClean : Nat → Str → Bool
  | 0, _ => false
  | rounds + 1, candidate =>
    let normalized := normalizeNFKC candidate
    if isCleanForm candidate && isCleanForm normalized then
      match unquote normalized with
      | none => false
      | some decoded => if decoded = candidate then true else decodesClean rounds decoded
    else false

/-- `_is_safe_product_path_segment`. -/
def isSafeProductPathSegment (segment : Str) : Bool :=
  segment ≠ [] && decodesClean (segment.length + 1) segment

/-- `_request_path_is_authorized`. -/
def requestPathIsAuthorized (path : Str) : Bool :=
  if path = apiPrefix ++ str "/products" ∨ path = apiPrefix ++ str "/wallet/balance" ∨
      path = apiPrefix ++ str "/wallet/transactions" then true
  else if detailPrefix.isPrefixOf path then
    isSafeProductPathSegment (path.drop detailPrefix.length)
  else false

/-! ## Requests -/

/-- An API key: text without control characters. -/
structure RoboticvnApiKey where
  value : Str
  valid : (value ≠ [] && value.all fun c => 32 ≤ c.val && c.val ≠ 127) = true

/-- A request, of which the only header is the API key. -/
structure RoboticvnRequest where
  url : Str
  apiKey : RoboticvnApiKey

/-- `_request_target_contains_api_key`. -/
def requestTargetContainsApiKey (url decodedPath : Str) (queryFields : List (Str × Str))
    (apiKey : Str) : Bool :=
  apiKey <:+: url || apiKey <:+: decodedPath ||
    queryFields.any fun pair => apiKey <:+: pair.1 || apiKey <:+: pair.2

variable [HostChecks] [CaseFolding]

/-- `_validate_request_target`. With this `netloc` the host name is the same, and there is
no user. -/
def validateRequestTarget (url apiKey : Str) : Except Exc Unit :=
  let invalid := Exc.configuration (str "Roboticvn request target is invalid")
  match urlsplit url with
  | none => .error invalid
  | some target =>
    match target.port, unquote target.path, parseQsl target.query with
    | some port, some decodedPath, some queryFields =>
      if target.scheme ≠ str "https" ∨ target.netloc ≠ str "api.roboticvn.com" ∨
          port.isSome ∨ target.fragment ≠ [] ∨ !requestPathIsAuthorized target.path then
        .error (.configuration (str "Roboticvn request target is not an authorized read"))
      else if queryFields.any fun pair => casefold pair.1 = str "x-api-key" then
        .error (.configuration (str "API key must not be placed in the request URL"))
      else if requestTargetContainsApiKey url decodedPath queryFields apiKey then
        .error (.configuration (str "API key must not appear in the request URL"))
      else .ok ()
    | _, _, _ => .error invalid

/-- `RoboticvnRequest`, with the method and the header that it demands. -/
def RoboticvnRequest.make (url : Str) (apiKey : RoboticvnApiKey) : Except Exc RoboticvnRequest := do
  validateRequestTarget url apiKey.value
  return ⟨url, apiKey⟩

/-- `_request`. -/
def request (apiKey : RoboticvnApiKey) (path : Str) (query : List (Str × Str)) :
    Except Exc RoboticvnRequest :=
  if query = [] then RoboticvnRequest.make (productionOrigin ++ path) apiKey
  else
    match urlencode query with
    | some encoded => RoboticvnRequest.make (productionOrigin ++ path ++ str "?" ++ encoded) apiKey
    | none => .error .unicodeEncode

end

end NyanShopBot.Roboticvn
