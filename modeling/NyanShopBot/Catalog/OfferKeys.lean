import NyanShopBot.Catalog.Workspace
import NyanShopBot.Py.Utf8

/-!
# Reading offer keys

`decodeOfferKey` reads a key back and takes none but what `encodeOfferKey` writes. The two
are inverse to each other (`offer_key_encoding`); the key fits its field where the id has at
most `maxKeyBytes` bytes.
-/

namespace NyanShopBot.Catalog

open Py

/-- What reading a key raises. -/
inductive KeyFault where
  | valueError
  | unicodeDecodeError
  | exc (e : Exc)

/-- `isinstance(e, ValueError)`. -/
def KeyFault.isValueError : KeyFault → Bool
  | valueError | unicodeDecodeError | exc (.validation _) => true
  | exc _ => false

/-- `value.split(c, maxsplit=1)`, as two parts. -/
def splitFirst (c : CodePoint) (value : Str) : Option (Str × Str) :=
  if c ∈ value then
    some (value.takeWhile (· ≠ c), (value.dropWhile (· ≠ c)).tail)
  else none

/-- The suppliers that a key names. -/
def keySupplier (text : Str) : Option Supplier :=
  [Supplier.khommo, Supplier.vietshare].find? fun s => s.value = text

theorem splitFirst_append {c : CodePoint} {s t : Str} (h : c ∉ s) :
    splitFirst c (s ++ c :: t) = some (s, t) := by
  have hs : ∀ x ∈ s, decide (x ≠ c) = true := fun x hx =>
    decide_eq_true fun e => h (e ▸ hx)
  rw [splitFirst, if_pos (by simp), List.takeWhile_append_of_pos hs,
    List.dropWhile_append_of_pos hs]
  simp

theorem keySupplier_value {s : Supplier} (h : s.isLive = true) : keySupplier s.value = some s := by
  cases s with
  | mock => cases h
  | khommo => rfl
  | vietshare => rfl

theorem not_mem_value (s : Supplier) : chr '.' ∉ s.value := by
  cases s <;> decide +kernel

theorem elim_error {α ε : Type} {o : Option α} {e e' : ε}
    (h : o.elim (Except.error e) Except.ok = .error e') : e' = e := by
  cases o with
  | none => exact (Except.error.inj h).symm
  | some a => cases h

section

variable [UnicodeData]

/-- What `decode_offer_key` tries. -/
def parseOfferKey (value : Str) : Except KeyFault CatalogCurationOfferRef := do
  let parts ← (splitFirst (chr '.') value).elim (.error .valueError) .ok
  let data ← (b64decode (parts.2 ++ b64Padding parts.2)).elim (.error .valueError) .ok
  let productId ← (decodeUtf8 data).elim (.error .unicodeDecodeError) .ok
  let supplier ← (keySupplier parts.1).elim (.error .valueError) .ok
  (CatalogCurationOfferRef.make supplier productId).mapError .exc

/-- `decode_offer_key`. -/
def decodeOfferKey (value : Str) : Except Exc CatalogCurationOfferRef :=
  match parseOfferKey value with
  | .ok ref =>
    if encodeOfferKey ref ≠ value then
      .error (.unknownOffer "catalog offer key is not canonical")
    else .ok ref
  | .error e =>
    if e.isValueError then .error (.unknownOffer "catalog offer key is invalid")
    else match e with
      | .exc e => .error e
      | _ => .error .exception

/-! ## Round trips -/

theorem parseOfferKey_encodeOfferKey (ref : CatalogCurationOfferRef) :
    parseOfferKey (encodeOfferKey ref) = .ok ref := by
  have hutf8 : encodeUtf8 ref.supplierProductId = some ref.bytes := by
    rw [CatalogCurationOfferRef.bytes, Option.some_get]
  unfold parseOfferKey
  rw [encodeOfferKey_eq, splitFirst_append (not_mem_value _)]
  simp only [Option.elim_some, bind, Except.bind, b64decode_repadded,
    decodeUtf8_of_encodeUtf8 hutf8, keySupplier_value ref.live,
    CatalogCurationOfferRef.make_ok ref.live ref.valid]
  rfl

theorem decodeOfferKey_encodeOfferKey (ref : CatalogCurationOfferRef) :
    decodeOfferKey (encodeOfferKey ref) = .ok ref := by
  rw [decodeOfferKey, parseOfferKey_encodeOfferKey]
  exact if_neg fun h => h rfl

theorem encodeOfferKey_injective : Function.Injective encodeOfferKey := by
  intro ref ref' h
  have h' := decodeOfferKey_encodeOfferKey ref
  rw [h, decodeOfferKey_encodeOfferKey] at h'
  exact (Except.ok.inj h').symm

theorem encodeOfferKey_of_decodeOfferKey {value : Str} {ref : CatalogCurationOfferRef}
    (h : decodeOfferKey value = .ok ref) : encodeOfferKey ref = value := by
  unfold decodeOfferKey at h
  split at h
  · split at h
    · cases h
    · next hkey =>
      cases h
      exact not_not.1 hkey
  · split at h
    · cases h
    · split at h <;> cases h

/-! ## What is raised -/

/-- A reference that is refused is refused by its validation. -/
theorem CatalogCurationOfferRef.make_raises {supplier : Supplier} {id : Str} {e : Exc}
    (h : make supplier id = .error e) : ∃ m, e = .validation m := by
  unfold make at h
  split at h
  · split at h
    · cases h
    · split at h <;> cases h <;> exact ⟨_, rfl⟩
  · cases h
    exact ⟨_, rfl⟩

theorem parseOfferKey_raises {value : Str} {e : KeyFault} (h : parseOfferKey value = .error e) :
    e.isValueError = true := by
  unfold parseOfferKey at h
  rcases except_bind_error.1 h with h | ⟨parts, -, h⟩
  · rw [elim_error h]
    rfl
  rcases except_bind_error.1 h with h | ⟨data, -, h⟩
  · rw [elim_error h]
    rfl
  rcases except_bind_error.1 h with h | ⟨productId, -, h⟩
  · rw [elim_error h]
    rfl
  rcases except_bind_error.1 h with h | ⟨supplier, -, h⟩
  · rw [elim_error h]
    rfl
  cases hmake : CatalogCurationOfferRef.make supplier productId with
  | ok ref =>
    rw [hmake] at h
    cases h
  | error e' =>
    rw [hmake] at h
    cases h
    obtain ⟨m, rfl⟩ := CatalogCurationOfferRef.make_raises hmake
    rfl

theorem decodeOfferKey_raises {value : Str} {e : Exc} (h : decodeOfferKey value = .error e) :
    ∃ m, e = .unknownOffer m := by
  unfold decodeOfferKey at h
  split at h
  · split at h
    · cases h
      exact ⟨_, rfl⟩
    · cases h
  · next hparse =>
    rw [if_pos (parseOfferKey_raises hparse)] at h
    cases h
    exact ⟨_, rfl⟩

/-! ## The encoding -/

/-- **Offer keys are a bijective encoding** of the references whose ids have at most
`maxKeyBytes` bytes, and no valid key of the others: reading a key gives the reference back,
a string that is read is the key of what it is read as, and any other string raises
`UnknownCatalogOffer`. -/
theorem offer_key_encoding :
    (∀ ref : CatalogCurationOfferRef,
      (isOfferKey (encodeOfferKey ref) = true ∧ decodeOfferKey (encodeOfferKey ref) = .ok ref) ↔
        ref.bytes.length ≤ maxKeyBytes ref.supplier) ∧
    (∀ ref, decodeOfferKey (encodeOfferKey ref) = .ok ref) ∧
    (∀ value ref, decodeOfferKey value = .ok ref → encodeOfferKey ref = value) ∧
    Function.Injective encodeOfferKey ∧
    ∀ value e, decodeOfferKey value = .error e → ∃ m, e = .unknownOffer m := by
  refine ⟨fun ref => ?_, decodeOfferKey_encodeOfferKey,
    fun _ _ => encodeOfferKey_of_decodeOfferKey, encodeOfferKey_injective,
    fun _ _ => decodeOfferKey_raises⟩
  rw [and_iff_left (decodeOfferKey_encodeOfferKey ref), isOfferKey_iff, KeyFits]

end

/-! ## A long key -/

section

/-- Every code point from U+00A1 on is printable, and text is in normal form. -/
abbrev wideUnicode : UnicodeData := ⟨fun _ => true, fun s => s⟩

attribute [local instance] wideUnicode

/-- The id is 127 ideographs of three bytes each. -/
def wideOffer : CatalogCurationOfferRef :=
  ⟨.khommo, List.replicate 127 0x4e2d, khommo_isLive, by decide +kernel⟩

/-- A reference of 127 characters has a key of 515. -/
theorem wideOffer_key : isOfferKey (encodeOfferKey wideOffer) = false ∧
    (encodeOfferKey wideOffer).length = 515 := by
  decide +kernel

example : decodeOfferKey (str "khommo.YQ==") =
    .error (.unknownOffer "catalog offer key is not canonical") := by
  decide +kernel

end

end NyanShopBot.Catalog
