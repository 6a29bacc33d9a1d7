import NyanShopBot.Py.Words

/-!
# The callback codec

What the buttons of the bot carry: `encodeCallback` and its source-bound siblings write
it, `decodeCallback` reads it. A `Callback` is what may be written, and its `wire` the
only text for it; both directions are stated through it.
-/

namespace NyanShopBot.Bot

open Py

/-- What the codec could raise. -/
inductive CallbackExc where
  | callbackCodecError (message : String)
  | unicodeEncodeError
deriving DecidableEq

/-- An argument of the codec: `None`, a `str` or anything else. -/
inductive Object where
  | none
  | text (s : Str)
  | other
deriving DecidableEq

def Object.ofOption : Option Str → Object
  | some s => text s
  | Option.none => none

inductive CallbackAction where
  | source | detail | quote
deriving DecidableEq

def CallbackAction.value : CallbackAction → CodePoint
  | source => chr 's'
  | detail => chr 'd'
  | quote => chr 'q'

/-- `CallbackAction(action)`, none where it raises. -/
def CallbackAction.ofObject : Object → Option CallbackAction
  | .text s => [source, detail, quote].find? fun action => decide ([action.value] = s)
  | _ => Option.none

inductive LiveCatalogSelection where
  | all | khommo | vietshare
deriving DecidableEq

namespace LiveCatalogSelection

def value : LiveCatalogSelection → Str
  | all => str "all"
  | khommo => str "khommo"
  | vietshare => str "vietshare"

/-- `_SOURCE_CODE`. -/
def sourceCode : LiveCatalogSelection → CodePoint
  | all => chr 'a'
  | khommo => chr 'k'
  | vietshare => chr 'v'

/-- `_SOURCE_BY_CODE.get`. -/
def byCode (code : CodePoint) : Option LiveCatalogSelection :=
  [all, khommo, vietshare].find? fun source => decide (source.sourceCode = code)

end LiveCatalogSelection

/-- `_validated_source`. -/
def validatedSource (value : Object) : Except CallbackExc LiveCatalogSelection :=
  if value = .text (str "all") then .ok .all
  else if value = .text (str "khommo") then .ok .khommo
  else if value = .text (str "vietshare") then .ok .vietshare
  else .error (.callbackCodecError "unknown catalog source")

structure CatalogCallback where
  action : CallbackAction
  productId : Option Str
  variantId : Option Str
  source : Option LiveCatalogSelection
  version : Str
deriving DecidableEq

/-! ## Identifiers -/

def telegramCallbackDataMaxBytes : Nat := 64

def callbackVersion : Str := str "1"

def multiSourceCallbackVersion : Str := str "2"

def callbackSeparator : CodePoint := chr ':'

def maxCallbackIdentifierBytes : Nat := 29

def isascii (s : Str) : Bool := s.all (·.val < 128)

/-- `s.encode("ascii")`. -/
def encodeAscii (s : Str) : Except CallbackExc Bytes :=
  if isascii s then .ok (s.map (·.val.toUInt8)) else .error .unicodeEncodeError

/-- `[A-Za-z0-9]`. -/
def isAlnum (c : CodePoint) : Bool :=
  (0x41 ≤ c.val && c.val ≤ 0x5a) || (0x61 ≤ c.val && c.val ≤ 0x7a) ||
    (0x30 ≤ c.val && c.val ≤ 0x39)

/-- `[A-Za-z0-9._-]`. -/
def isIdentifierChar (c : CodePoint) : Bool :=
  isAlnum c || c = chr '.' || c = chr '_' || c = chr '-'

/-- `_IDENTIFIER_PATTERN.fullmatch`. -/
def isIdentifier : Str → Bool
  | [] => false
  | c :: s => isAlnum c && s.length ≤ maxCallbackIdentifierBytes - 1 && s.all isIdentifierChar

/-- `_validated_identifier`. -/
def validatedIdentifier : Object → Except CallbackExc Str
  | .text (c :: s) =>
    if !isascii (c :: s) then .error (.callbackCodecError "callback identifier must be ASCII")
    else do
      let bytes ← encodeAscii (c :: s)
      if maxCallbackIdentifierBytes < bytes.length then
        .error (.callbackCodecError "callback identifier is too long")
      else if isIdentifier (c :: s) then .ok (c :: s)
      else .error (.callbackCodecError "callback identifier is not canonical")
  | _ => .error (.callbackCodecError "callback identifier must be a non-empty string")

/-! ## Encoding -/

/-- The parts as one text, within Telegram's limit. -/
def boundedJoin (parts : List Str) : Except CallbackExc Str := do
  let encoded := join [callbackSeparator] parts
  let bytes ← encodeAscii encoded
  if telegramCallbackDataMaxBytes < bytes.length then
    .error (.callbackCodecError "callback data exceeds Telegram's byte limit")
  else .ok encoded

/-- `encode_callback`. -/
def encodeCallback (action productId variantId : Object) : Except CallbackExc Str :=
  match CallbackAction.ofObject action with
  | none => .error (.callbackCodecError "unknown callback action")
  | some .source =>
    .error (.callbackCodecError "source selection requires a source-bound callback")
  | some .detail => do
    let product ← validatedIdentifier productId
    if variantId ≠ .none then
      .error (.callbackCodecError "detail callback cannot contain a variant")
    else boundedJoin [callbackVersion, [CallbackAction.detail.value], product]
  | some .quote => do
    let product ← validatedIdentifier productId
    let variant ← validatedIdentifier variantId
    boundedJoin [callbackVersion, [CallbackAction.quote.value], product, variant]

/-- `_encode_source_bound_callback`. -/
def encodeSourceBoundCallback (action : CallbackAction) (source productId variantId : Object) :
    Except CallbackExc Str := do
  let normalized ← validatedSource source
  let actionCode := [action.value, normalized.sourceCode]
  match action with
  | .source =>
    if productId ≠ .none ∨ variantId ≠ .none then
      .error (.callbackCodecError "source callback cannot contain product identities")
    else boundedJoin [multiSourceCallbackVersion, actionCode]
  | .detail =>
    if normalized = .all then
      .error (.callbackCodecError "aggregate selection cannot identify a product")
    else if variantId ≠ .none then
      .error (.callbackCodecError "detail callback cannot contain a variant")
    else do
      let product ← validatedIdentifier productId
      boundedJoin [multiSourceCallbackVersion, actionCode, product]
  | .quote =>
    if normalized = .all then
      .error (.callbackCodecError "aggregate selection cannot identify a product")
    else do
      let product ← validatedIdentifier productId
      let variant ← validatedIdentifier variantId
      boundedJoin [multiSourceCallbackVersion, actionCode, product, variant]

/-- `encode_source_callback`. -/
def encodeSourceCallback (source : Object) : Except CallbackExc Str :=
  encodeSourceBoundCallback .source source .none .none

/-- `encode_detail_callback`. -/
def encodeDetailCallback (productId source : Object) : Except CallbackExc Str :=
  if source ≠ .none then encodeSourceBoundCallback .detail source productId .none
  else encodeCallback (.text [CallbackAction.detail.value]) productId .none

/-- `encode_quote_callback`. -/
def encodeQuoteCallback (productId variantId source : Object) : Except CallbackExc Str :=
  if source ≠ .none then encodeSourceBoundCallback .quote source productId variantId
  else encodeCallback (.text [CallbackAction.quote.value]) productId variantId

/-! ## Decoding -/

/-- The callback, where its canonical encoding is the data. -/
def ifCanonical (canonical : Except CallbackExc Str) (data : Str) (callback : CatalogCallback) :
    Except CallbackExc CatalogCallback := do
  if (← canonical) = data then .ok callback
  else .error (.callbackCodecError "callback data is not canonical")

/-- `_decode_source_bound`, of the parts after the version. -/
def decodeSourceBound (parts : List Str) (data : Str) : Except CallbackExc CatalogCallback :=
  match parts with
  | [actionCode, sourceCode] :: ids =>
    match CallbackAction.ofObject (.text [actionCode]),
      LiveCatalogSelection.byCode sourceCode with
    | some .source, some source =>
      match ids with
      | [] => ifCanonical (encodeSourceCallback (.text source.value)) data
          ⟨.source, none, none, some source, multiSourceCallbackVersion⟩
      | _ => .error (.callbackCodecError "source callback field count is invalid")
    | some .detail, some source =>
      if source = .all then
        .error (.callbackCodecError "aggregate selection cannot identify a product")
      else match ids with
      | [id] => do
        let product ← validatedIdentifier (.text id)
        ifCanonical (encodeDetailCallback (.text product) (.text source.value)) data
          ⟨.detail, some product, none, some source, multiSourceCallbackVersion⟩
      | _ => .error (.callbackCodecError "detail callback field count is invalid")
    | some .quote, some source =>
      if source = .all then
        .error (.callbackCodecError "aggregate selection cannot identify a product")
      else match ids with
      | [id, id'] => do
        let product ← validatedIdentifier (.text id)
        let variant ← validatedIdentifier (.text id')
        ifCanonical (encodeQuoteCallback (.text product) (.text variant) (.text source.value)) data
          ⟨.quote, some product, some variant, some source, multiSourceCallbackVersion⟩
      | _ => .error (.callbackCodecError "quote callback field count is invalid")
    | _, _ => .error (.callbackCodecError "unknown source-bound callback action")
  | _ => .error (.callbackCodecError "source-bound callback action is invalid")

/-- The version-one branch of `decode_callback`, of the parts after the version. -/
def decodeVersionOne (parts : List Str) (data : Str) : Except CallbackExc CatalogCallback :=
  match parts with
  | [] => .error (.callbackCodecError "callback action is missing")
  | actionText :: ids =>
    match CallbackAction.ofObject (.text actionText) with
    | none => .error (.callbackCodecError "unknown callback action")
    | some .source =>
      .error (.callbackCodecError "version-one callback cannot select a source")
    | some .detail =>
      match ids with
      | [id] => do
        let product ← validatedIdentifier (.text id)
        ifCanonical (encodeCallback (.text [CallbackAction.detail.value]) (.text product) .none)
          data ⟨.detail, some product, none, none, callbackVersion⟩
      | _ => .error (.callbackCodecError "callback field count is invalid")
    | some .quote =>
      match ids with
      | [id, id'] => do
        let product ← validatedIdentifier (.text id)
        let variant ← validatedIdentifier (.text id')
        ifCanonical (encodeCallback (.text [CallbackAction.quote.value]) (.text product)
          (.text variant)) data ⟨.quote, some product, some variant, none, callbackVersion⟩
      | _ => .error (.callbackCodecError "callback field count is invalid")

def isControl (c : CodePoint) : Bool := c.val < 0x20 || c.val = 0x7f

/-- `decode_callback` of a text that is not empty. -/
def decodeText (data : Str) : Except CallbackExc CatalogCallback :=
  if !isascii data then .error (.callbackCodecError "callback data must be ASCII")
  else do
    let bytes ← encodeAscii data
    if telegramCallbackDataMaxBytes < bytes.length then
      .error (.callbackCodecError "callback data exceeds Telegram's byte limit")
    else if data.any isControl then
      .error (.callbackCodecError "callback data contains a control character")
    else match split callbackSeparator data with
      | [] => .error (.callbackCodecError "unknown callback version")
      | version :: parts =>
        if version = multiSourceCallbackVersion then decodeSourceBound parts data
        else if version = callbackVersion then decodeVersionOne parts data
        else .error (.callbackCodecError "unknown callback version")

/-- `decode_callback`. -/
def decodeCallback : Object → Except CallbackExc CatalogCallback
  | .text data =>
    if data = [] then .error (.callbackCodecError "callback data must be a non-empty string")
    else decodeText data
  | _ => .error (.callbackCodecError "callback data must be a non-empty string")

/-- A decoded callback, encoded by the encoder of its action. -/
def reencode (callback : CatalogCallback) : Except CallbackExc Str :=
  let source := Object.ofOption (callback.source.map (·.value))
  match callback.action with
  | .source => encodeSourceCallback source
  | .detail => encodeDetailCallback (.ofOption callback.productId) source
  | .quote =>
    encodeQuoteCallback (.ofOption callback.productId) (.ofOption callback.variantId) source

/-! ## Callbacks -/

/-- A text of the identifier pattern. -/
abbrev Identifier := { s : Str // isIdentifier s = true }

/-- A source that has products of its own. -/
abbrev LiveCatalogSupplier := { source : LiveCatalogSelection // source ≠ .all }

/-- What may be written. -/
inductive Callback where
  | select (source : LiveCatalogSelection)
  | detail (source : Option LiveCatalogSupplier) (product : Identifier)
  | quote (source : Option LiveCatalogSupplier) (product variant : Identifier)

namespace Callback

/-- The first two parts: version, action and source. -/
def head (action : CallbackAction) : Option LiveCatalogSelection → List Str
  | none => [callbackVersion, [action.value]]
  | some source => [multiSourceCallbackVersion, [action.value, source.sourceCode]]

def parts : Callback → List Str
  | select source => head .source (some source)
  | detail source product => head .detail (source.map (·.1)) ++ [product.1]
  | quote source product variant => head .quote (source.map (·.1)) ++ [product.1, variant.1]

/-- The text of a callback. -/
def wire (k : Callback) : Str := join [callbackSeparator] k.parts

def versionOf : Option LiveCatalogSelection → Str
  | none => callbackVersion
  | some _ => multiSourceCallbackVersion

/-- What a callback decodes to. -/
def fields : Callback → CatalogCallback
  | select source => ⟨.source, none, none, some source, multiSourceCallbackVersion⟩
  | detail source product =>
    ⟨.detail, some product.1, none, source.map (·.1), versionOf (source.map (·.1))⟩
  | quote source product variant =>
    ⟨.quote, some product.1, some variant.1, source.map (·.1), versionOf (source.map (·.1))⟩

end Callback

/-! ## Settling -/

/-- The call returns a value with the property, or raises `CallbackCodecError`. -/
def Settles {α : Type} (x : Except CallbackExc α) (P : α → Prop) : Prop :=
  (∃ a, x = .ok a ∧ P a) ∨ ∃ message, x = .error (.callbackCodecError message)

section

variable {α β : Type} {P : α → Prop} {Q : β → Prop}

theorem settles_ok {a : α} (h : P a) : Settles (.ok a) P := .inl ⟨a, rfl, h⟩

theorem settles_error (message : String) :
    Settles (.error (.callbackCodecError message)) P := .inr ⟨message, rfl⟩

theorem Settles.bind {x : Except CallbackExc α} {f : α → Except CallbackExc β}
    (h : Settles x P) (hf : ∀ a, P a → Settles (f a) Q) : Settles (x >>= f) Q := by
  rcases h with ⟨a, rfl, ha⟩ | ⟨message, rfl⟩
  · exact hf a ha
  · exact settles_error message

theorem Settles.of_ok {x : Except CallbackExc α} {a : α} (h : Settles x P) (hx : x = .ok a) :
    P a := by
  rcases h with ⟨b, hb, hP⟩ | ⟨message, he⟩
  · rw [hx] at hb
    cases hb
    exact hP
  · rw [hx] at he
    cases he

end

/-! ## What an identifier is made of -/

theorem isIdentifierChar_bounds {c : CodePoint} (h : isIdentifierChar c = true) :
    c.val < 128 ∧ c ≠ callbackSeparator ∧ isControl c = false := by
  have hsep : ∀ d : CodePoint, d = callbackSeparator → d.val = 0x3a := by
    rintro d rfl
    rfl
  have hval : 0x2d ≤ c.val ∧ c.val < 0x7f ∧ c.val ≠ 0x3a := by
    simp only [isIdentifierChar, isAlnum, Bool.or_eq_true, Bool.and_eq_true,
      decide_eq_true_eq] at h
    rcases h with ((h | rfl) | rfl) | rfl
    · omega
    · decide
    · decide
    · decide
  refine ⟨by omega, fun hc => hval.2.2 (hsep c hc), ?_⟩
  simp only [isControl, Bool.or_eq_false_iff, decide_eq_false_iff_not]
  omega

theorem Identifier.mem_bounds (id : Identifier) {c : CodePoint} (hc : c ∈ id.1) :
    c.val < 128 ∧ c ≠ callbackSeparator ∧ isControl c = false := by
  obtain ⟨s, hs⟩ := id
  cases s with
  | nil => cases hs
  | cons d s =>
    simp only [isIdentifier, Bool.and_eq_true, List.all_eq_true] at hs
    apply isIdentifierChar_bounds
    rcases List.mem_cons.1 hc with rfl | hc
    · simp [isIdentifierChar, hs.1.1]
    · exact hs.2 c hc

theorem Identifier.length_le (id : Identifier) : id.1.length ≤ maxCallbackIdentifierBytes := by
  obtain ⟨s, hs⟩ := id
  cases s with
  | nil => cases hs
  | cons d s =>
    simp only [isIdentifier, Bool.and_eq_true, decide_eq_true_eq] at hs
    have := hs.1.2
    simp only [maxCallbackIdentifierBytes, List.length_cons] at this ⊢
    omega

theorem Identifier.isascii (id : Identifier) : isascii id.1 = true :=
  List.all_eq_true.2 fun _ hc => decide_eq_true (id.mem_bounds hc).1

theorem encodeAscii_ok {s : Str} (h : isascii s = true) :
    encodeAscii s = .ok (s.map (·.val.toUInt8)) := if_pos h

theorem validatedIdentifier_settles (value : Object) :
    Settles (validatedIdentifier value) fun s => value = .text s ∧ isIdentifier s = true := by
  unfold validatedIdentifier
  split
  · rename_i c s
    by_cases hascii : isascii (c :: s) = true
    · rw [hascii, Bool.not_true, if_neg Bool.false_ne_true, encodeAscii_ok hascii]
      simp only [bind, Except.bind]
      split
      · exact settles_error _
      · split
        · rename_i h
          exact settles_ok ⟨rfl, h⟩
        · exact settles_error _
    · rw [if_pos (by simpa using hascii)]
      exact settles_error _
  · exact settles_error _

theorem validatedIdentifier_ok (id : Identifier) : validatedIdentifier (.text id.1) = .ok id.1 := by
  obtain ⟨s, hs⟩ := id
  cases s with
  | nil => cases hs
  | cons c s =>
    have hascii : Bot.isascii (c :: s) = true := Identifier.isascii ⟨c :: s, hs⟩
    have hlen : (c :: s).length ≤ maxCallbackIdentifierBytes := Identifier.length_le ⟨c :: s, hs⟩
    rw [validatedIdentifier, hascii, Bool.not_true, if_neg Bool.false_ne_true,
      encodeAscii_ok hascii]
    simp only [bind, Except.bind]
    rw [List.length_map, if_neg (by omega), if_pos hs]

/-! ## The wire -/

namespace Callback

theorem all_head {action : CallbackAction} {source : Option LiveCatalogSelection} {part : Str}
    (h : part ∈ head action source) : part.all isIdentifierChar = true := by
  cases action <;> rcases source with _ | _ | _ | _ <;>
    simp only [head, List.mem_cons, List.not_mem_nil, or_false] at h <;>
    rcases h with rfl | rfl <;> decide +kernel

theorem mem_head {action : CallbackAction} {source : Option LiveCatalogSelection} {part : Str}
    (h : part ∈ head action source) {c : CodePoint} (hc : c ∈ part) :
    c.val < 128 ∧ c ≠ callbackSeparator ∧ isControl c = false :=
  isIdentifierChar_bounds (List.all_eq_true.1 (all_head h) c hc)

theorem mem_parts {k : Callback} {part : Str} (h : part ∈ k.parts) {c : CodePoint}
    (hc : c ∈ part) : c.val < 128 ∧ c ≠ callbackSeparator ∧ isControl c = false := by
  cases k with
  | select source =>
    have h : part ∈ head .source (some source) := h
    exact mem_head h hc
  | detail source product =>
    rcases List.mem_append.1 h with h | h
    · exact mem_head h hc
    · rw [List.mem_singleton.1 h] at hc
      exact product.mem_bounds hc
  | quote source product variant =>
    rcases List.mem_append.1 h with h | h
    · exact mem_head h hc
    · rcases List.mem_cons.1 h with rfl | h
      · exact product.mem_bounds hc
      · rw [List.mem_singleton.1 h] at hc
        exact variant.mem_bounds hc

theorem mem_wire {k : Callback} {c : CodePoint} (h : c ∈ k.wire) :
    c.val < 128 ∧ isControl c = false := by
  rcases mem_join h with h | ⟨part, hpart, hc⟩
  · rw [List.mem_singleton.1 h]
    decide
  · exact ⟨(mem_parts hpart hc).1, (mem_parts hpart hc).2.2⟩

theorem isascii_wire (k : Callback) : isascii k.wire = true :=
  List.all_eq_true.2 fun _ hc => decide_eq_true (mem_wire hc).1

/-- **No callback is too long**, the longest quotes included. -/
theorem length_wire (k : Callback) : k.wire.length ≤ telegramCallbackDataMaxBytes := by
  cases k with
  | select source => cases source <;> decide
  | detail source product =>
    have hp := product.length_le
    rcases source with _ | source <;>
      simp [wire, parts, head, join, callbackVersion, multiSourceCallbackVersion, str,
        telegramCallbackDataMaxBytes, maxCallbackIdentifierBytes] at hp ⊢ <;> omega
  | quote source product variant =>
    have hp := product.length_le
    have hv := variant.length_le
    rcases source with _ | source <;>
      simp [wire, parts, head, join, callbackVersion, multiSourceCallbackVersion, str,
        telegramCallbackDataMaxBytes, maxCallbackIdentifierBytes] at hp hv ⊢ <;> omega

theorem parts_ne_nil (k : Callback) : k.parts ≠ [] := by
  cases k with
  | select source => exact List.cons_ne_nil _ _
  | detail source product => cases source <;> exact List.cons_ne_nil _ _
  | quote source product variant => cases source <;> exact List.cons_ne_nil _ _

theorem split_wire (k : Callback) : split callbackSeparator k.wire = k.parts :=
  split_join k.parts_ne_nil fun _ hpart hc => (mem_parts hpart hc).2.1 rfl

theorem boundedJoin_parts (k : Callback) : boundedJoin k.parts = .ok k.wire := by
  have hlen := k.length_wire
  rw [boundedJoin]
  simp only [bind, Except.bind]
  rw [show join [callbackSeparator] k.parts = k.wire from rfl, encodeAscii_ok k.isascii_wire]
  simp only [List.length_map]
  rw [if_neg (by omega)]

/-- The arguments of the encoders for a callback. -/
structure Of (k : Callback) (action productId variantId source : Object) : Prop where
  action : action = .text [k.fields.action.value]
  product : productId = .ofOption k.fields.productId
  variant : variantId = .ofOption k.fields.variantId
  source : source = .ofOption (k.fields.source.map (·.value))

theorem version_fields (k : Callback) : k.fields.version = versionOf k.fields.source := by
  cases k <;> rfl

end Callback

/-! ## The encoders -/

theorem CallbackAction.ofObject_value (action : CallbackAction) :
    ofObject (.text [action.value]) = some action := by
  cases action <;> decide +kernel

theorem CallbackAction.of_ofObject {value : Object} {action : CallbackAction}
    (h : ofObject value = some action) : value = .text [action.value] := by
  cases value with
  | none => cases h
  | other => cases h
  | text s =>
    have hs : decide ([action.value] = s) = true :=
      List.find?_some (p := fun action : CallbackAction => decide ([action.value] = s)) h
    rw [of_decide_eq_true hs]

theorem validatedSource_ok (source : LiveCatalogSelection) :
    validatedSource (.text source.value) = .ok source := by
  cases source <;> decide +kernel

theorem validatedSource_settles (value : Object) :
    Settles (validatedSource value) fun source => value = .text source.value := by
  unfold validatedSource
  split
  · rename_i h
    exact settles_ok h
  · split
    · rename_i h
      exact settles_ok h
    · split
      · rename_i h
        exact settles_ok h
      · exact settles_error _

theorem encodeCallback_detail (product : Identifier) :
    encodeCallback (.text [CallbackAction.detail.value]) (.text product.1) .none =
      .ok (Callback.detail none product).wire := by
  rw [encodeCallback, CallbackAction.ofObject_value]
  simp only [validatedIdentifier_ok, bind, Except.bind]
  exact Callback.boundedJoin_parts (.detail none product)

theorem encodeCallback_quote (product variant : Identifier) :
    encodeCallback (.text [CallbackAction.quote.value]) (.text product.1) (.text variant.1) =
      .ok (Callback.quote none product variant).wire := by
  rw [encodeCallback, CallbackAction.ofObject_value]
  simp only [validatedIdentifier_ok, bind, Except.bind]
  exact Callback.boundedJoin_parts (.quote none product variant)

theorem encodeSourceBound_source (source : LiveCatalogSelection) :
    encodeSourceBoundCallback .source (.text source.value) .none .none =
      .ok (Callback.select source).wire := by
  rw [encodeSourceBoundCallback, validatedSource_ok]
  exact Callback.boundedJoin_parts (.select source)

theorem encodeSourceBound_detail (source : LiveCatalogSupplier) (product : Identifier) :
    encodeSourceBoundCallback .detail (.text source.1.value) (.text product.1) .none =
      .ok (Callback.detail (some source) product).wire := by
  rw [encodeSourceBoundCallback, validatedSource_ok]
  simp only [validatedIdentifier_ok, bind, Except.bind, if_neg source.2]
  exact Callback.boundedJoin_parts (.detail (some source) product)

theorem encodeSourceBound_quote (source : LiveCatalogSupplier) (product variant : Identifier) :
    encodeSourceBoundCallback .quote (.text source.1.value) (.text product.1) (.text variant.1) =
      .ok (Callback.quote (some source) product variant).wire := by
  rw [encodeSourceBoundCallback, validatedSource_ok]
  simp only [validatedIdentifier_ok, bind, Except.bind, if_neg source.2]
  exact Callback.boundedJoin_parts (.quote (some source) product variant)

/-- **Every callback can be written**, by the encoder of its action. -/
theorem reencode_fields (k : Callback) : reencode k.fields = .ok k.wire := by
  cases k with
  | select source => exact encodeSourceBound_source source
  | detail source product =>
    rcases source with _ | source
    · exact encodeCallback_detail product
    · exact encodeSourceBound_detail source product
  | quote source product variant =>
    rcases source with _ | source
    · exact encodeCallback_quote product variant
    · exact encodeSourceBound_quote source product variant

/-- `encode_callback` writes version-one callbacks only. -/
theorem encodeCallback_settles (action productId variantId : Object) :
    Settles (encodeCallback action productId variantId) fun e =>
      ∃ k : Callback, e = k.wire ∧ k.Of action productId variantId .none := by
  unfold encodeCallback
  split
  · exact settles_error _
  · exact settles_error _
  · rename_i h
    obtain rfl := CallbackAction.of_ofObject h
    refine (validatedIdentifier_settles productId).bind ?_
    rintro product ⟨rfl, hproduct⟩
    by_cases hvariant : variantId = .none
    · obtain rfl := hvariant
      let k := Callback.detail none ⟨product, hproduct⟩
      rw [if_neg (by simp)]
      exact .inl ⟨k.wire, k.boundedJoin_parts, k, rfl, rfl, rfl, rfl, rfl⟩
    · rw [if_pos hvariant]
      exact settles_error _
  · rename_i h
    obtain rfl := CallbackAction.of_ofObject h
    refine (validatedIdentifier_settles productId).bind ?_
    rintro product ⟨rfl, hproduct⟩
    refine (validatedIdentifier_settles variantId).bind ?_
    rintro variant ⟨rfl, hvariant⟩
    let k := Callback.quote none ⟨product, hproduct⟩ ⟨variant, hvariant⟩
    exact .inl ⟨k.wire, k.boundedJoin_parts, k, rfl, rfl, rfl, rfl, rfl⟩

/-- The source-bound encoder writes version-two callbacks only. -/
theorem encodeSourceBound_settles (action : CallbackAction) (source productId variantId : Object) :
    Settles (encodeSourceBoundCallback action source productId variantId) fun e =>
      ∃ k : Callback, e = k.wire ∧ k.Of (.text [action.value]) productId variantId source ∧
        k.fields.version = multiSourceCallbackVersion := by
  refine (validatedSource_settles source).bind ?_
  rintro source rfl
  cases action with
  | source =>
    by_cases hids : productId ≠ .none ∨ variantId ≠ .none
    · simp only [if_pos hids]
      exact settles_error _
    · simp only [if_neg hids]
      simp only [ne_eq, not_or, not_not] at hids
      obtain ⟨rfl, rfl⟩ := hids
      let k := Callback.select source
      exact .inl ⟨k.wire, k.boundedJoin_parts, k, rfl, ⟨rfl, rfl, rfl, rfl⟩, rfl⟩
  | detail =>
    by_cases hall : source = .all
    · simp only [if_pos hall]
      exact settles_error _
    · by_cases hvariant : variantId = .none
      · obtain rfl := hvariant
        simp only [if_neg hall, ne_eq, not_true_eq_false, if_false]
        refine (validatedIdentifier_settles productId).bind ?_
        rintro product ⟨rfl, hproduct⟩
        let k := Callback.detail (some ⟨source, hall⟩) ⟨product, hproduct⟩
        exact .inl ⟨k.wire, k.boundedJoin_parts, k, rfl, ⟨rfl, rfl, rfl, rfl⟩, rfl⟩
      · simp only [if_neg hall, if_pos hvariant, ne_eq]
        exact settles_error _
  | quote =>
    by_cases hall : source = .all
    · simp only [if_pos hall]
      exact settles_error _
    · simp only [if_neg hall]
      refine (validatedIdentifier_settles productId).bind ?_
      rintro product ⟨rfl, hproduct⟩
      refine (validatedIdentifier_settles variantId).bind ?_
      rintro variant ⟨rfl, hvariant⟩
      let k := Callback.quote (some ⟨source, hall⟩) ⟨product, hproduct⟩ ⟨variant, hvariant⟩
      exact .inl ⟨k.wire, k.boundedJoin_parts, k, rfl, ⟨rfl, rfl, rfl, rfl⟩, rfl⟩

theorem encodeDetail_settles (productId source : Object) :
    Settles (encodeDetailCallback productId source) fun e =>
      ∃ k : Callback, e = k.wire ∧ k.Of (.text [CallbackAction.detail.value]) productId .none source
    := by
  unfold encodeDetailCallback
  split
  · rcases encodeSourceBound_settles .detail source productId .none with ⟨e, he, k, hk, hof, -⟩ | h
    · exact .inl ⟨e, he, k, hk, hof⟩
    · exact .inr h
  · rename_i hsource
    obtain rfl : source = .none := by simpa using hsource
    exact encodeCallback_settles _ productId .none

theorem encodeQuote_settles (productId variantId source : Object) :
    Settles (encodeQuoteCallback productId variantId source) fun e =>
      ∃ k : Callback, e = k.wire ∧
        k.Of (.text [CallbackAction.quote.value]) productId variantId source := by
  unfold encodeQuoteCallback
  split
  · rcases encodeSourceBound_settles .quote source productId variantId with
      ⟨e, he, k, hk, hof, -⟩ | h
    · exact .inl ⟨e, he, k, hk, hof⟩
    · exact .inr h
  · rename_i hsource
    obtain rfl : source = .none := by simpa using hsource
    exact encodeCallback_settles _ productId variantId

/-! ## The decoder -/

/-- A callback is decoded where the data is its text. -/
theorem ifCanonical_settles {canonical : Except CallbackExc Str} {k : Callback}
    (h : canonical = .ok k.wire) (data : Str) :
    Settles (ifCanonical canonical data k.fields) fun c =>
      ∃ k : Callback, data = k.wire ∧ c = k.fields := by
  subst h
  unfold ifCanonical
  simp only [bind, Except.bind]
  split
  · rename_i hdata
    exact settles_ok ⟨k, hdata.symm, rfl⟩
  · exact settles_error _

theorem decodeVersionOne_settles (parts : List Str) (data : Str) :
    Settles (decodeVersionOne parts data) fun c =>
      ∃ k : Callback, data = k.wire ∧ c = k.fields := by
  unfold decodeVersionOne
  split
  · exact settles_error _
  · split
    · exact settles_error _
    · exact settles_error _
    · split
      · refine (validatedIdentifier_settles _).bind ?_
        rintro product ⟨-, hproduct⟩
        exact ifCanonical_settles (encodeCallback_detail ⟨product, hproduct⟩) data
      · exact settles_error _
    · split
      · refine (validatedIdentifier_settles _).bind ?_
        rintro product ⟨-, hproduct⟩
        refine (validatedIdentifier_settles _).bind ?_
        rintro variant ⟨-, hvariant⟩
        exact ifCanonical_settles
          (encodeCallback_quote ⟨product, hproduct⟩ ⟨variant, hvariant⟩) data
      · exact settles_error _

theorem decodeSourceBound_settles (parts : List Str) (data : Str) :
    Settles (decodeSourceBound parts data) fun c =>
      ∃ k : Callback, data = k.wire ∧ c = k.fields := by
  unfold decodeSourceBound
  split
  · split
    · rename_i source _ _
      split
      · exact ifCanonical_settles (encodeSourceBound_source source) data
      · exact settles_error _
    · rename_i source _ _
      split
      · exact settles_error _
      · rename_i hall
        split
        · refine (validatedIdentifier_settles _).bind ?_
          rintro product ⟨-, hproduct⟩
          exact ifCanonical_settles
            (encodeSourceBound_detail ⟨source, hall⟩ ⟨product, hproduct⟩) data
        · exact settles_error _
    · rename_i source _ _
      split
      · exact settles_error _
      · rename_i hall
        split
        · refine (validatedIdentifier_settles _).bind ?_
          rintro product ⟨-, hproduct⟩
          refine (validatedIdentifier_settles _).bind ?_
          rintro variant ⟨-, hvariant⟩
          exact ifCanonical_settles (encodeSourceBound_quote ⟨source, hall⟩ ⟨product, hproduct⟩
            ⟨variant, hvariant⟩) data
        · exact settles_error _
    · exact settles_error _
  · exact settles_error _

/-- **What is decoded is the text of a callback**, and anything else is a codec error. -/
theorem decodeCallback_settles (data : Object) :
    Settles (decodeCallback data) fun c =>
      ∃ k : Callback, data = .text k.wire ∧ c = k.fields := by
  unfold decodeCallback
  split
  · rename_i data
    split
    · exact settles_error _
    · unfold decodeText
      by_cases hascii : isascii data = true
      · rw [hascii, Bool.not_true, if_neg Bool.false_ne_true, encodeAscii_ok hascii]
        simp only [bind, Except.bind]
        split
        · exact settles_error _
        · split
          · exact settles_error _
          · have hparts : ∀ {x}, Settles x (fun c => ∃ k : Callback, data = k.wire ∧ c = k.fields) →
                Settles x fun c => ∃ k : Callback, Object.text data = .text k.wire ∧
                  c = k.fields := by
              intro x hx
              rcases hx with ⟨c, hc, k, hk, hcf⟩ | h
              · exact .inl ⟨c, hc, k, congrArg Object.text hk, hcf⟩
              · exact .inr h
            split
            · exact settles_error _
            · split
              · exact hparts (decodeSourceBound_settles _ data)
              · split
                · exact hparts (decodeVersionOne_settles _ data)
                · exact settles_error _
      · rw [if_pos (by simpa using hascii)]
        exact settles_error _
  · exact settles_error _

namespace Callback

theorem wire_ne_nil (k : Callback) : k.wire ≠ [] := by
  intro h
  have hsplit := k.split_wire
  rw [h] at hsplit
  have hhead : ∀ {action source}, ∀ rest : List Str, [[]] ≠ head action source ++ rest := by
    intro action source rest
    rcases source with _ | source <;> simp [head, callbackVersion, multiSourceCallbackVersion, str]
  cases k with
  | select source => exact @hhead .source (some source) [] hsplit
  | detail source product => exact hhead _ hsplit
  | quote source product variant => exact hhead _ hsplit

theorem byCode_sourceCode (source : LiveCatalogSelection) :
    LiveCatalogSelection.byCode source.sourceCode = some source := by
  cases source <;> decide +kernel

theorem ifCanonical_wire {canonical : Except CallbackExc Str} {k : Callback}
    (h : canonical = .ok k.wire) : ifCanonical canonical k.wire k.fields = .ok k.fields := by
  subst h
  exact if_pos rfl

/-- The branch of the version reads the parts back. -/
theorem decode_parts (k : Callback) :
    ∃ version parts, k.parts = version :: parts ∧
      (version = multiSourceCallbackVersion ∧ decodeSourceBound parts k.wire = .ok k.fields ∨
        version = callbackVersion ∧ decodeVersionOne parts k.wire = .ok k.fields) := by
  have hcanon := reencode_fields k
  cases k with
  | select source =>
    refine ⟨_, [[_, source.sourceCode]], rfl, .inl ⟨rfl, ?_⟩⟩
    rw [decodeSourceBound, CallbackAction.ofObject_value, byCode_sourceCode]
    exact ifCanonical_wire hcanon
  | detail source product =>
    rcases source with _ | source
    · refine ⟨_, [[CallbackAction.detail.value], product.1], rfl, .inr ⟨rfl, ?_⟩⟩
      rw [decodeVersionOne, CallbackAction.ofObject_value]
      simp only [validatedIdentifier_ok, bind, Except.bind]
      exact ifCanonical_wire hcanon
    · refine ⟨_, [[_, source.1.sourceCode], product.1], rfl, .inl ⟨rfl, ?_⟩⟩
      rw [decodeSourceBound, CallbackAction.ofObject_value, byCode_sourceCode]
      simp only [if_neg source.2, validatedIdentifier_ok, bind, Except.bind]
      exact ifCanonical_wire hcanon
  | quote source product variant =>
    rcases source with _ | source
    · refine ⟨_, [[CallbackAction.quote.value], product.1, variant.1], rfl, .inr ⟨rfl, ?_⟩⟩
      rw [decodeVersionOne, CallbackAction.ofObject_value]
      simp only [validatedIdentifier_ok, bind, Except.bind]
      exact ifCanonical_wire hcanon
    · refine ⟨_, [[_, source.1.sourceCode], product.1, variant.1], rfl, .inl ⟨rfl, ?_⟩⟩
      rw [decodeSourceBound, CallbackAction.ofObject_value, byCode_sourceCode]
      simp only [if_neg source.2, validatedIdentifier_ok, bind, Except.bind]
      exact ifCanonical_wire hcanon

/-- **Every callback is read back.** -/
theorem decode_wire (k : Callback) : decodeCallback (.text k.wire) = .ok k.fields := by
  have hascii := k.isascii_wire
  have hlen := k.length_wire
  have hcontrol : k.wire.any isControl = false := by
    rw [List.any_eq_false]
    intro c hc h
    rw [(mem_wire hc).2] at h
    cases h
  obtain ⟨version, parts, hparts, hbranch⟩ := k.decode_parts
  rw [decodeCallback, if_neg k.wire_ne_nil, decodeText, hascii, Bool.not_true,
    if_neg Bool.false_ne_true, encodeAscii_ok hascii]
  simp only [bind, Except.bind, List.length_map]
  rw [if_neg (by omega), hcontrol, if_neg Bool.false_ne_true, k.split_wire, hparts]
  rcases hbranch with ⟨rfl, h⟩ | ⟨rfl, h⟩
  · simp only [if_true, h]
  · rw [← h]
    rfl

theorem wire_injective {k k' : Callback} (h : k.wire = k'.wire) : k.fields = k'.fields := by
  have hk := k.decode_wire
  rw [h, k'.decode_wire] at hk
  exact (Except.ok.inj hk).symm

end Callback

/-! ## The codec -/

/-- The text fits Telegram's limit and gives the arguments back. -/
def RoundTrips (e : Str) (action productId variantId source : Object) : Prop :=
  (∃ bytes, encodeAscii e = .ok bytes ∧ bytes.length ≤ telegramCallbackDataMaxBytes) ∧
    ∃ c, decodeCallback (.text e) = .ok c ∧ .text [c.action.value] = action ∧
      .ofOption c.productId = productId ∧ .ofOption c.variantId = variantId ∧
      .ofOption (c.source.map (·.value)) = source ∧ c.version = Callback.versionOf c.source

theorem Callback.Of.roundTrips {k : Callback} {action productId variantId source : Object}
    (h : k.Of action productId variantId source) :
    RoundTrips k.wire action productId variantId source := by
  refine ⟨⟨_, encodeAscii_ok k.isascii_wire, ?_⟩, k.fields, k.decode_wire, h.action.symm,
    h.product.symm, h.variant.symm, h.source.symm, k.version_fields⟩
  rw [List.length_map]
  exact k.length_wire

/-- **The callback codec**: what is encoded fits the limit and is read back, valid
identifiers are always encoded, what is decoded is canonical, the two versions are
disjoint, and nothing but the codec's own error is raised. -/
theorem callback_codec :
    (∀ action productId variantId e, encodeCallback action productId variantId = .ok e →
      RoundTrips e action productId variantId .none) ∧
    (∀ source e, encodeSourceCallback source = .ok e →
      RoundTrips e (.text [CallbackAction.source.value]) .none .none source) ∧
    (∀ productId source e, encodeDetailCallback productId source = .ok e →
      RoundTrips e (.text [CallbackAction.detail.value]) productId .none source) ∧
    (∀ productId variantId source e, encodeQuoteCallback productId variantId source = .ok e →
      RoundTrips e (.text [CallbackAction.quote.value]) productId variantId source) ∧
    (∀ (product variant : Identifier) (source : Option LiveCatalogSupplier),
      (∃ e, encodeDetailCallback (.text product.1) (.ofOption (source.map (·.1.value))) = .ok e) ∧
      ∃ e, encodeQuoteCallback (.text product.1) (.text variant.1)
        (.ofOption (source.map (·.1.value))) = .ok e) ∧
    (∀ source : LiveCatalogSelection, ∃ e, encodeSourceCallback (.text source.value) = .ok e) ∧
    (∀ data c, decodeCallback data = .ok c → ∃ s, data = .text s ∧ reencode c = .ok s) ∧
    (∀ action productId variantId action' source productId' variantId' e,
      encodeCallback action productId variantId = .ok e →
      encodeSourceBoundCallback action' source productId' variantId' ≠ .ok e) ∧
    ∀ data, (∃ c, decodeCallback data = .ok c) ∨
      ∃ message, decodeCallback data = .error (.callbackCodecError message) := by
  refine ⟨fun action productId variantId e h => ?_, fun source e h => ?_,
    fun productId source e h => ?_, fun productId variantId source e h => ?_,
    fun product variant source => ?_, fun source => ⟨_, encodeSourceBound_source source⟩,
    fun data c h => ?_,
      fun action productId variantId action' source productId' variantId' e h h' =>
      ?_, fun data => ?_⟩
  · obtain ⟨k, rfl, hk⟩ := (encodeCallback_settles action productId variantId).of_ok h
    exact hk.roundTrips
  · obtain ⟨k, rfl, hk, -⟩ := (encodeSourceBound_settles .source source .none .none).of_ok h
    exact hk.roundTrips
  · obtain ⟨k, rfl, hk⟩ := (encodeDetail_settles productId source).of_ok h
    exact hk.roundTrips
  · obtain ⟨k, rfl, hk⟩ := (encodeQuote_settles productId variantId source).of_ok h
    exact hk.roundTrips
  · have hd := reencode_fields (.detail source product)
    have hq := reencode_fields (.quote source product variant)
    simp only [reencode, Callback.fields, Option.map_map] at hd hq
    exact ⟨⟨_, hd⟩, _, hq⟩
  · obtain ⟨k, rfl, rfl⟩ := (decodeCallback_settles data).of_ok h
    exact ⟨_, rfl, reencode_fields k⟩
  · obtain ⟨k, hk, hof⟩ := (encodeCallback_settles action productId variantId).of_ok h
    obtain ⟨k', hk', -, hversion⟩ :=
      (encodeSourceBound_settles action' source productId' variantId').of_ok h'
    have hfields := Callback.wire_injective (hk.symm.trans hk')
    have hsource : k.fields.source = none := by
      have := hof.source
      cases hs : k.fields.source with
      | none => rfl
      | some source => rw [hs] at this; cases this
    rw [← hfields, k.version_fields, hsource] at hversion
    exact absurd hversion (by decide)
  · rcases decodeCallback_settles data with ⟨c, hc, -⟩ | h
    · exact .inl ⟨c, hc⟩
    · exact .inr h

example : encodeQuoteCallback (.text (str "product-1")) (.text (str "variant_2")) .none =
    .ok (str "1:q:product-1:variant_2") := by decide +kernel

end NyanShopBot.Bot
