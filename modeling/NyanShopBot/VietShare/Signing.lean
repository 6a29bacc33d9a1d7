import NyanShopBot.Py.Url
import NyanShopBot.VietShare.WriteOrders

/-!
# Signed requests

`buildSignedReadRequest`, and what every request of VietShare has in common: `IsSigned`
says that it is signed for what it sends. The signed text joins its parts with a bar that
the nonce may contain, and yet no two requests sign the same text
(`IsSigned.unambiguous`).
-/

namespace NyanShopBot.VietShare

open Py

/-! ## Targets -/

/-- `s.startswith(head)`. -/
def startsWith (head s : Str) : Bool := s.take head.length = head

/-- The path of a read with a number at its end. -/
def isNumbered (head path : Str) : Bool :=
  startsWith head path && path.drop head.length ≠ [] && (path.drop head.length).all isDigit

/-- `_ALLOWED_READ_PATH`. -/
def isReadPath (path : Str) : Bool :=
  path = str "/v1/account" || path = str "/v1/products" || path = str "/v1/catalog" ||
    isNumbered (str "/v1/products/") path || isNumbered (str "/v1/stock/") path

structure RequestTarget where
  url : Str
  pathWithQuery : Str

/-- `s.rstrip("/")`. -/
def rstripSlash (s : Str) : Str := (s.reverse.dropWhile (· = chr '/')).reverse

section

variable [HostChecks]

/-- The host of `_base_parts`, whose other parts are constant. -/
def baseNetloc (baseUrl : Str) : Except Exc Str :=
  match urlsplit baseUrl with
  | none => .error .value
  | some s =>
    if s.scheme ≠ str "https" ∨ s.netloc = [] ∨ chr '@' ∈ s.netloc ∨ s.query ≠ [] ∨
        s.fragment ≠ [] ∨ rstripSlash s.path ≠ str "/v1" then
      .error (.configuration "Base URL must be an HTTPS origin ending in /v1")
    else .ok s.netloc

/-- `_endpoint_path`. -/
def endpointPath (endpoint : Str) : Except Exc Str :=
  let path := if startsWith (str "/v1/") endpoint then endpoint
    else str "/v1/" ++ endpoint.dropWhile (· = chr '/')
  if isReadPath path then .ok path
  else .error (.configuration "Endpoint is not an allowed VietShare read route")

/-- `build_request_target`. -/
def buildRequestTarget (baseUrl endpoint : Str) (query : List (Str × Str)) :
    Except Exc RequestTarget := do
  let netloc ← baseNetloc baseUrl
  let path ← endpointPath endpoint
  if startsWith (str "/v1/") path then
    match urlencode query with
    | none => .error .value
    | some encodedQuery =>
      .ok ⟨urlunsplit (str "https") netloc path encodedQuery, path ++ queryPart encodedQuery⟩
  else .error (.configuration "Read endpoint must remain below /v1")

end

/-! ## Signatures -/

/-- `_timestamp_text`. -/
def timestampText (timestamp : Int) : Except Exc Str :=
  if timestamp < 0 then
    .error (.configuration "Timestamp must be a non-negative integer Unix second")
  else .ok (intStr timestamp)

/-- `_nonce_text`. -/
def nonceText (nonce : Str) : Except Exc Str :=
  if ¬ (12 ≤ nonce.length ∧ nonce.length ≤ 128) then
    .error (.configuration "Nonce must contain 12 to 128 characters")
  else if hasLineBreak nonce then
    .error (.configuration "Nonce must not contain line breaks")
  else .ok nonce

def upper (c : CodePoint) : CodePoint :=
  if h : isLower c = true then
    ⟨c.val - 32, by omega⟩
  else c

/-- `_method_text`. -/
def methodText (method : Str) : Except Exc Str :=
  if method = [] ∨ method.all isAsciiAlpha = false then
    .error (.configuration "HTTP method must contain ASCII letters")
  else if method.map upper ≠ str "GET" then
    .error (.configuration "Only GET requests can be signed by this read adapter")
  else .ok (method.map upper)

/-- `_canonical_path`. -/
def canonicalPath (pathWithQuery : Str) : Except Exc Str :=
  let path := (partition (chr '?') pathWithQuery).1
  if ¬ (path = str "/v1" ∨ startsWith (str "/v1/") path = true) then
    .error (.configuration "Canonical path must include the /v1 prefix")
  else if chr '#' ∈ pathWithQuery ∨ hasLineBreak pathWithQuery = true then
    .error (.configuration "Canonical path contains an invalid character")
  else if isReadPath path then .ok pathWithQuery
  else .error (.configuration "Canonical path is not an allowed VietShare read route")

section

variable [Hashlib]

/-- `canonical_string`. -/
def canonicalReadString (timestamp : Int) (nonce method pathWithQuery : Str) (rawBody : Bytes) :
    Except Exc Str := do
  let timestamp ← timestampText timestamp
  let nonce ← nonceText nonce
  let method ← methodText method
  let path ← canonicalPath pathWithQuery
  return join (str "|") [timestamp, nonce, method, path, sha256Hex rawBody]

/-- `sign_request`. -/
def signRequest (secret : Bytes) (timestamp : Int) (nonce method pathWithQuery : Str)
    (rawBody : Bytes) : Except Exc Str :=
  if secret = [] then .error (.configuration "API secret must not be empty")
  else do
    let canonical ← canonicalReadString timestamp nonce method pathWithQuery rawBody
    let payload ← encode canonical
    return hmacSha256Hex secret payload

/-- `build_signed_read_request`. -/
def buildSignedReadRequest [HostChecks] (credentials : VietShareCredentials)
    (baseUrl endpoint : Str) (timestamp : Int) (nonce : Str) (query : List (Str × Str))
    (rawBody : Bytes) : Except Exc VietShareRequest := do
  let target ← buildRequestTarget baseUrl endpoint query
  let secret ← credentials.secretBytes
  let signature ← signRequest secret timestamp nonce (str "GET") target.pathWithQuery rawBody
  let timestamp ← timestampText timestamp
  let nonce ← nonceText nonce
  let headers ← SensitiveHeaders.make [(str "X-Shop-API-ID", credentials.apiId),
    (str "X-Timestamp", timestamp), (str "X-Nonce", nonce), (str "X-Signature", signature)]
  return ⟨str "GET", target.url, target.pathWithQuery, headers, rawBody⟩

end

/-! ## What a request is signed for -/

/-- The request is signed for the timestamp and the nonce of its headers, and for the
target of its URL. -/
structure IsSigned [Hashlib] [HostChecks] (r : VietShareRequest) (timestamp : Int) (nonce : Str) :
    Prop where
  signature : ∃ secret payload, encode (canonicalString timestamp nonce r.method r.pathWithQuery
    (sha256Hex r.body)) = .ok payload ∧
    r.headers.get? (str "X-Signature") = some (hmacSha256Hex secret payload)
  headers : Signs r timestamp nonce
  target : (urlsplit r.url).map (·.target) = some r.pathWithQuery
  noBar : chr '|' ∉ r.method ∧ chr '|' ∉ r.pathWithQuery

/-! ## Read targets -/

/-- What the path of a request is made of. -/
def isPathChar (c : CodePoint) : Bool := c = chr '/' || isQueryChar c

theorem isPathChar_of_isDigit {c : CodePoint} (h : isDigit c = true) : isPathChar c = true := by
  simp only [isDigit, Bool.and_eq_true, decide_eq_true_eq] at h
  rw [isPathChar, isQueryChar_of_val (by omega) (by omega), Bool.or_true]

theorem eq_append_of_startsWith {head path : Str} (h : startsWith head path = true) :
    path = head ++ path.drop head.length := by
  have h : path.take head.length = head := of_decide_eq_true h
  rw [← h, List.length_take]
  conv_lhs => rw [← List.take_append_drop head.length path]
  congr 1
  by_cases hl : head.length ≤ path.length
  · rw [Nat.min_eq_left hl]
  · rw [Nat.min_eq_right (by omega), List.drop_eq_nil_of_le (by omega), List.drop_length]

theorem isNumbered_chars {head path : Str} (hhead : head.all isPathChar = true)
    (h : isNumbered head path = true) : path.all isPathChar = true := by
  simp only [isNumbered, Bool.and_eq_true] at h
  rw [eq_append_of_startsWith h.1.1, List.all_append, hhead, Bool.true_and]
  exact List.all_eq_true.2 fun c hc => isPathChar_of_isDigit (List.all_eq_true.1 h.2 c hc)

theorem isReadPath_chars {path : Str} (h : isReadPath path = true) :
    path.all isPathChar = true := by
  simp only [isReadPath, Bool.or_eq_true, decide_eq_true_eq] at h
  rcases h with (((rfl | rfl) | rfl) | h) | h
  · decide +kernel
  · decide +kernel
  · decide +kernel
  · exact isNumbered_chars (by decide +kernel) h
  · exact isNumbered_chars (by decide +kernel) h

theorem bar_not_mem_path {path : Str} (h : path.all isPathChar = true) : chr '|' ∉ path := by
  intro hbar
  have := List.all_eq_true.1 h _ hbar
  revert this
  decide

theorem bar_not_mem_queryPart {query : Str} (h : ∀ c ∈ query, isQueryChar c = true) :
    chr '|' ∉ queryPart query := by
  unfold queryPart
  split
  · exact List.not_mem_nil
  · intro hbar
    rcases List.mem_cons.1 hbar with hbar | hbar
    · exact absurd hbar (by decide)
    · cases bar_not_query.symm.trans (h _ hbar)

/-- The path and the query of a URL that is made for them. -/
theorem target_urlunsplit [HostChecks] {netloc path query : Str} (hhost : IsHost netloc)
    (hhead : path.head? = some (chr '/')) (hpath : path.all isPathChar = true)
    (hquery : ∀ c ∈ query, isQueryChar c = true) :
    (urlsplit (urlunsplit (str "https") netloc path query)).map (·.target) =
      some (path ++ queryPart query) := by
  have hpath' : path.all (fun c => c = chr '/' || isUrlChar c) = true := by
    refine List.all_eq_true.2 fun c hc => ?_
    have h := List.all_eq_true.1 hpath c hc
    simp only [isPathChar, Bool.or_eq_true] at h ⊢
    exact h.imp_right isUrlChar_of_isQueryChar
  have hquery' : query.all isUrlChar = true :=
    List.all_eq_true.2 fun c hc => isUrlChar_of_isQueryChar (hquery c hc)
  rw [urlsplit_urlunsplit hhost hhead hpath' hquery']
  rfl

theorem baseNetloc_host [HostChecks] {baseUrl netloc : Str} (h : baseNetloc baseUrl = .ok netloc) :
    IsHost netloc := by
  unfold baseNetloc at h
  split at h
  · cases h
  · rename_i s hs
    split at h
    · cases h
    · cases h
      exact isHost_of_urlsplit hs

theorem endpointPath_ok {endpoint path : Str} (h : endpointPath endpoint = .ok path) :
    isReadPath path = true := by
  unfold endpointPath at h
  generalize (if startsWith (str "/v1/") endpoint = true then endpoint
    else str "/v1/" ++ endpoint.dropWhile (· = chr '/')) = made at h
  simp only at h
  split at h
  · rename_i hread
    exact Except.ok.inj h ▸ hread
  · cases h

theorem buildRequestTarget_ok [HostChecks] {baseUrl endpoint : Str} {query : List (Str × Str)}
    {target : RequestTarget} (h : buildRequestTarget baseUrl endpoint query = .ok target) :
    (urlsplit target.url).map (·.target) = some target.pathWithQuery ∧
      chr '|' ∉ target.pathWithQuery := by
  unfold buildRequestTarget at h
  obtain ⟨netloc, hnetloc, h⟩ := except_bind_ok.1 h
  obtain ⟨path, hpath, h⟩ := except_bind_ok.1 h
  have hchars := isReadPath_chars (endpointPath_ok hpath)
  split at h
  · rename_i hstart
    split at h
    · cases h
    · rename_i encodedQuery hquery
      cases h
      have hhead : path.head? = some (chr '/') := by
        rw [eq_append_of_startsWith hstart]
        rfl
      refine ⟨target_urlunsplit (baseNetloc_host hnetloc) hhead hchars (urlencode_chars hquery), ?_⟩
      rw [List.mem_append, not_or]
      exact ⟨bar_not_mem_path hchars, bar_not_mem_queryPart (urlencode_chars hquery)⟩
  · cases h

/-! ## Order targets -/

/-- The paths of the orders: all of them, or one by its code. -/
def IsOrderPath (path : Str) : Prop :=
  path = ordersPath ∨ ∃ code, isOrderCode code = true ∧ path = ordersPath ++ str "/" ++ code

theorem IsOrderPath.chars {path : Str} (h : IsOrderPath path) : path.all isPathChar = true := by
  rcases h with rfl | ⟨code, hcode, rfl⟩
  · decide +kernel
  · have hstart : (ordersPath ++ str "/").all isPathChar = true := by decide +kernel
    rw [List.all_append, hstart, Bool.true_and]
    refine List.all_eq_true.2 fun c hc => ?_
    simp only [isOrderCode, fullmatch, Bool.and_eq_true, List.all_eq_true] at hcode
    have h := hcode.2 c hc
    simp only [isUpper, isLower, isDigit, Bool.or_eq_true, Bool.and_eq_true, decide_eq_true_eq,
      beq_iff_eq] at h
    rw [isPathChar, isQueryChar_of_val (by omega) (by omega), Bool.or_true]

theorem IsOrderPath.head {path : Str} (h : IsOrderPath path) : path.head? = some (chr '/') := by
  rcases h with rfl | ⟨code, -, rfl⟩ <;> rfl

/-! ## Signed requests -/

theorem timestampText_ok {timestamp : Int} {s : Str} (h : timestampText timestamp = .ok s) :
    s = intStr timestamp := by
  unfold timestampText at h
  split at h
  · cases h
  · cases h
    rfl

theorem nonceText_ok {nonce s : Str} (h : nonceText nonce = .ok s) : s = nonce := by
  unfold nonceText at h
  split at h
  · cases h
  · split at h
    · cases h
    · cases h
      rfl

theorem methodText_ok {method s : Str} (h : methodText method = .ok s) : s = str "GET" := by
  unfold methodText at h
  split at h
  · cases h
  · split at h
    · cases h
    · rename_i hget
      cases h
      simpa using hget

theorem canonicalPath_ok {path s : Str} (h : canonicalPath path = .ok s) : s = path := by
  unfold canonicalPath at h
  simp only at h
  split at h
  · cases h
  · split at h
    · cases h
    · split at h
      · cases h
        rfl
      · cases h

/-- The headers that a signature needs, whatever follows them. -/
theorem get?_signed {headers : SensitiveHeaders} {apiId timestamp nonce signature : Str}
    {rest : List (Str × Str)} (h : headers.values = (str "X-Shop-API-ID", apiId) ::
      (str "X-Timestamp", timestamp) :: (str "X-Nonce", nonce) ::
      (str "X-Signature", signature) :: rest) :
    headers.get? (str "X-Timestamp") = some timestamp ∧
      headers.get? (str "X-Nonce") = some nonce ∧
      headers.get? (str "X-Signature") = some signature := by
  refine ⟨?_, ?_, ?_⟩
  · rw [SensitiveHeaders.get?, h, get?_cons_ne (by decide), List.find?_cons]
    rfl
  · rw [SensitiveHeaders.get?, h, get?_cons_ne (by decide), get?_cons_ne (by decide),
      List.find?_cons]
    rfl
  · rw [SensitiveHeaders.get?, h, get?_cons_ne (by decide), get?_cons_ne (by decide),
      get?_cons_ne (by decide), List.find?_cons]
    rfl

theorem bar_not_mem_get : chr '|' ∉ str "GET" := by decide

section

variable [Hashlib]

theorem signRequest_ok {secret rawBody : Bytes} {timestamp : Int}
    {nonce method path signature : Str}
    (h : signRequest secret timestamp nonce method path rawBody = .ok signature) :
    ∃ payload, encode (canonicalString timestamp nonce (str "GET") path (sha256Hex rawBody)) =
      .ok payload ∧ signature = hmacSha256Hex secret payload := by
  unfold signRequest at h
  split at h
  · cases h
  · obtain ⟨canonical, hcanonical, h⟩ := except_bind_ok.1 h
    obtain ⟨payload, hpayload, hmade⟩ := except_bind_ok.1 h
    have hmade : (.ok (hmacSha256Hex secret payload) : Except Exc Str) = .ok signature := hmade
    unfold canonicalReadString at hcanonical
    obtain ⟨t, ht, hcanonical⟩ := except_bind_ok.1 hcanonical
    obtain ⟨n, hn, hcanonical⟩ := except_bind_ok.1 hcanonical
    obtain ⟨m, hm, hcanonical⟩ := except_bind_ok.1 hcanonical
    obtain ⟨p, hp, hcanonical⟩ := except_bind_ok.1 hcanonical
    have hcanonical := Except.ok.inj hcanonical
    subst hcanonical
    rw [timestampText_ok ht, nonceText_ok hn, methodText_ok hm, canonicalPath_ok hp] at hpayload
    exact ⟨payload, hpayload, (Except.ok.inj hmade).symm⟩

variable [HostChecks]

/-- **A signed read** is signed for what it is given. -/
theorem buildSignedReadRequest_ok {credentials : VietShareCredentials} {baseUrl endpoint : Str}
    {timestamp : Int} {nonce : Str} {query : List (Str × Str)} {rawBody : Bytes}
    {r : VietShareRequest} (h : buildSignedReadRequest credentials baseUrl endpoint timestamp nonce
      query rawBody = .ok r) :
    r.method = str "GET" ∧ r.body = rawBody ∧ IsSigned r timestamp nonce := by
  unfold buildSignedReadRequest at h
  obtain ⟨target, htarget, h⟩ := except_bind_ok.1 h
  obtain ⟨secret, -, h⟩ := except_bind_ok.1 h
  obtain ⟨signature, hsignature, h⟩ := except_bind_ok.1 h
  obtain ⟨t, ht, h⟩ := except_bind_ok.1 h
  obtain ⟨n, hn, h⟩ := except_bind_ok.1 h
  obtain ⟨headers, hheaders, h⟩ := except_bind_ok.1 h
  cases h
  obtain ⟨payload, hpayload, hpart⟩ := signRequest_ok hsignature
  obtain rfl := timestampText_ok ht
  obtain rfl := nonceText_ok hn
  obtain ⟨htimestamp, hnonce, hsigned⟩ := get?_signed (make_values hheaders)
  obtain ⟨hurl, hbar⟩ := buildRequestTarget_ok htarget
  exact ⟨rfl, rfl, ⟨secret, payload, hpayload, hsigned.trans (congrArg some hpart)⟩,
    ⟨htimestamp, hnonce⟩, hurl, bar_not_mem_get, hbar⟩

/-- **A signed order** is signed for what it is given, where the digest is that of its body. -/
theorem signedRequest_isSigned {credentials : VietShareCredentials}
    {method path nonce : Str} {timestamp : Int} {key : Option Str} {body : Bytes}
    {r : VietShareRequest} (hmethod : chr '|' ∉ method) (hpath : IsOrderPath path)
    (h : signedRequest credentials method path timestamp nonce key body (sha256Hex body) = .ok r) :
    IsSigned r timestamp nonce := by
  unfold signedRequest at h
  obtain ⟨payload, hpayload, h⟩ := except_bind_ok.1 h
  obtain ⟨secret, -, h⟩ := except_bind_ok.1 h
  obtain ⟨headers, hheaders, h⟩ := except_bind_ok.1 h
  cases h
  obtain ⟨htimestamp, hnonce, hsigned⟩ := get?_signed (make_values hheaders)
  have hhost : IsHost (str "token.vietshare.site") := by
    have hall : (str "token.vietshare.site").all
        (fun c => !isHostEnd c && !isRemoved c) = true := by decide +kernel
    refine ⟨?_, fun c hc => by simpa using List.all_eq_true.1 hall c hc⟩
    have hascii : (str "token.vietshare.site").all
        (fun c => c.val < 128 && c ≠ chr '[' && c ≠ chr ']') = true := by decide +kernel
    rw [isNetloc, hascii, Bool.true_or]
  have hurl : str "https://token.vietshare.site" ++ path =
      urlunsplit (str "https") (str "token.vietshare.site") path [] := by
    rw [urlunsplit, queryPart, if_pos rfl, List.append_nil]
    congr 1
  have hempty : ∀ c ∈ ([] : Str), isQueryChar c = true := by simp
  have htarget := target_urlunsplit hhost hpath.head hpath.chars hempty
  refine ⟨⟨secret, payload, hpayload, hsigned⟩, ⟨htimestamp, hnonce⟩, ?_, hmethod,
    bar_not_mem_path hpath.chars⟩
  rw [hurl, htarget, queryPart, if_pos rfl, List.append_nil]

end

/-! ## No two texts are the same -/

theorem chr_not_mem_hexDigits {c : Char} (hc : ∀ d < 16, Nat.digitChar d ≠ c) (n v : Nat) :
    chr c ∉ hexDigits n v := by
  induction n generalizing v with
  | zero => exact List.not_mem_nil
  | succ n ih =>
    rw [hexDigits, List.mem_append, List.mem_singleton, not_or]
    exact ⟨ih (v / 16), fun h => hc (v % 16) (Nat.mod_lt v (by decide)) (chr_injective h).symm⟩

theorem digitChar_injective : ∀ a < 16, ∀ b < 16, Nat.digitChar a = Nat.digitChar b → a = b := by
  decide

/-- Hexadecimal digits determine a number that they have room for. -/
theorem hexDigits_injective {n v w : Nat} (hv : v < Nat.pow 16 n) (hw : w < Nat.pow 16 n)
    (h : hexDigits n v = hexDigits n w) : v = w := by
  induction n generalizing v w with
  | zero =>
    have hone : Nat.pow 16 0 = 1 := rfl
    omega
  | succ n ih =>
    have hpow : Nat.pow 16 (n + 1) = Nat.pow 16 n * 16 := rfl
    obtain ⟨hhigh, hlow⟩ := List.append_inj' h rfl
    have hdiv := ih (by omega) (by omega) hhigh
    have hmod := digitChar_injective _ (Nat.mod_lt v (by decide)) _ (Nat.mod_lt w (by decide))
      (chr_injective (List.cons_eq_cons.1 hlow).1)
    omega

theorem sha256Hex_injective [Hashlib] {a b : Bytes} (h : sha256Hex a = sha256Hex b) :
    Hashlib.sha256 a = Hashlib.sha256 b := by
  have hlt : ∀ x : BitVec 256, x.toNat < Nat.pow 16 64 := fun x =>
    Nat.lt_of_lt_of_le x.isLt (by decide)
  exact BitVec.eq_of_toNat_eq (hexDigits_injective (hlt _) (hlt _) h)

/-- The parts of a signed text, of which the nonce alone may have a bar. -/
theorem canonicalString_injective {timestamp timestamp' : Int}
    {nonce nonce' method method' path path' digest digest' : Str}
    (hmethod : chr '|' ∉ method ∧ chr '|' ∉ method') (hpath : chr '|' ∉ path ∧ chr '|' ∉ path')
    (hdigest : chr '|' ∉ digest ∧ chr '|' ∉ digest')
    (h : canonicalString timestamp nonce method path digest =
      canonicalString timestamp' nonce' method' path' digest') :
    timestamp = timestamp' ∧ nonce = nonce' ∧ method = method' ∧ path = path' ∧
      digest = digest' := by
  have hbar : ∀ t : Int, chr '|' ∉ intStr t := by
    intro t
    cases t with
    | ofNat n => exact chr_not_mem_natStr (by decide) n
    | negSucc n =>
      intro hmem
      rcases List.mem_cons.1 hmem with hdash | hmem
      · exact absurd hdash (by decide)
      · exact chr_not_mem_natStr (by decide) _ hmem
  have hparts : ∀ (t : Int) (n m p d : Str), canonicalString t n m p d =
      intStr t ++ chr '|' :: (((n ++ chr '|' :: m) ++ chr '|' :: p) ++ chr '|' :: d) := by
    intro t n m p d
    have hsep : str "|" = [chr '|'] := rfl
    simp [canonicalString, join, hsep]
  rw [hparts, hparts] at h
  -- the timestamp ends at the first bar, the last three parts begin after the last ones
  obtain ⟨htimestamp, h⟩ := append_cons_inj_left (hbar timestamp) (hbar timestamp') h
  obtain ⟨h, hdigest⟩ := append_cons_inj_right hdigest.1 hdigest.2 h
  obtain ⟨h, hpath⟩ := append_cons_inj_right hpath.1 hpath.2 h
  obtain ⟨hnonce, hmethod⟩ := append_cons_inj_right hmethod.1 hmethod.2 h
  exact ⟨intStr_injective htimestamp, hnonce, hmethod, hpath, hdigest⟩

/-- **Signed requests with the same text are the same request**: their timestamps, nonces,
methods, targets and digests are equal, and so are their bodies, unless they collide. -/
theorem IsSigned.unambiguous [Hashlib] [HostChecks] {r r' : VietShareRequest}
    {timestamp timestamp' : Int} {nonce nonce' : Str} (h : IsSigned r timestamp nonce)
    (h' : IsSigned r' timestamp' nonce')
    (heq : canonicalString timestamp nonce r.method r.pathWithQuery (sha256Hex r.body) =
      canonicalString timestamp' nonce' r'.method r'.pathWithQuery (sha256Hex r'.body)) :
    timestamp = timestamp' ∧ nonce = nonce' ∧ r.method = r'.method ∧
      r.pathWithQuery = r'.pathWithQuery ∧ sha256Hex r.body = sha256Hex r'.body ∧
      ((Hashlib.sha256 r.body = Hashlib.sha256 r'.body → r.body = r'.body) → r.body = r'.body) := by
  have hdigest : ∀ body : Bytes, chr '|' ∉ sha256Hex body := fun body =>
    chr_not_mem_hexDigits (by decide) 64 _
  obtain ⟨htimestamp, hnonce, hmethod, hpath, hsha⟩ :=
    canonicalString_injective ⟨h.noBar.1, h'.noBar.1⟩ ⟨h.noBar.2, h'.noBar.2⟩
      ⟨hdigest _, hdigest _⟩ heq
  exact ⟨htimestamp, hnonce, hmethod, hpath, hsha, fun hbody => hbody (sha256Hex_injective hsha)⟩

end NyanShopBot.VietShare
