import NyanShopBot.Khommo.LiveCatalog
import NyanShopBot.VietShare.CatalogReader

/-!
# Both live readers

A live catalog reader fails closed whatever its supplier answers and its clock reads, if and
only if its greatest age is one of which there is a `timedelta`.
-/

namespace NyanShopBot.Catalog

open Py

/-- Whatever the supplier answers and the clock reads. -/
def VietShareFailsClosed [WordChars : VietShare.WordChars] [JsonBytes] (maxAge : MaxAge) : Prop :=
  ∀ (raw : VietShare.RawReadOutcome) (observedAt evaluatedAt : Reading),
    FailClosed (VietShare.readCatalog maxAge (VietShare.productListOutcome raw) observedAt
      evaluatedAt) (VietShare.Complete raw)

/-- Whatever the transport does and the clock reads. -/
def KhommoFailsClosed [UnicodeData] [JsonBytes] (maxAge : MaxAge) : Prop :=
  ∀ (sent : Khommo.Sent) (observedAt evaluatedAt : Reading),
    FailClosed (Khommo.readCatalog maxAge sent observedAt evaluatedAt) (Khommo.Complete sent)

/-! ## Empty catalogs -/

/-- The document of a VietShare catalog without products. -/
def emptyList : Json := .obj [(str "count", .int 0), (str "products", .arr [])]

/-- The document of a KhoMMO catalog without products. -/
def emptyPage : Json := .obj [(str "ok", .bool true), (str "data", .arr []),
  (str "pagination", .obj [(str "page", .int 1), (str "limit", .int 500), (str "total", .int 0),
    (str "totalPages", .int 0)])]

theorem parse_emptyList [JsonBytes] {body : Bytes} (h : JsonBytes.loads body = some emptyList) :
    VietShare.parseProductList body = .ok ⟨0, [], rfl⟩ := by
  unfold VietShare.parseProductList VietShare.decodeBody loadsUnique
  rw [h]
  rfl

theorem parse_emptyPage : Khommo.parseProducts emptyPage = .ok ⟨[], 1, 500, 0, 0⟩ := rfl

theorem not_failClosed_overflow {Complete : List CatalogProduct → Nat → Prop}
    {read : Except LiveExc CatalogResponse} (h : read = .error .overflow) :
    ¬ FailClosed read Complete := by
  rintro ⟨response, hr, -⟩
  rw [h] at hr
  cases hr

theorem vietshare_age_of_failsClosed [VietShare.WordChars] [JsonBytes] {maxAge : MaxAge}
    {body : Bytes} (hbody : JsonBytes.loads body = some emptyList)
    (h : VietShareFailsClosed maxAge) : maxAge.seconds ≤ maxTimedeltaSeconds := by
  by_contra hage
  exact not_failClosed_overflow
    (VietShare.readCatalog_overflow (not_le.1 hage) (parse_emptyList hbody) rfl 0) (h _ _ _)

theorem khommo_age_of_failsClosed [UnicodeData] [JsonBytes] {maxAge : MaxAge} {body : Bytes}
    (hbody : JsonBytes.loads body = some emptyPage) (h : KhommoFailsClosed maxAge) :
    maxAge.seconds ≤ maxTimedeltaSeconds := by
  by_contra hage
  exact not_failClosed_overflow
    (Khommo.readCatalog_overflow (not_le.1 hage) hbody parse_emptyPage 0) (h _ _ _)

/-- **The live readers fail closed**, and show all that they have read, exactly where their
greatest age is a `timedelta`. -/
theorem live_readers_fail_closed [UnicodeData] [VietShare.WordChars] [JsonBytes] :
    (∀ maxAge : MaxAge, maxAge.seconds ≤ maxTimedeltaSeconds →
      VietShareFailsClosed maxAge ∧ KhommoFailsClosed maxAge) ∧
    (∀ body : Bytes, JsonBytes.loads body = some emptyList → ∀ maxAge : MaxAge,
      VietShareFailsClosed maxAge ↔ maxAge.seconds ≤ maxTimedeltaSeconds) ∧
    ∀ body : Bytes, JsonBytes.loads body = some emptyPage → ∀ maxAge : MaxAge,
      KhommoFailsClosed maxAge ↔ maxAge.seconds ≤ maxTimedeltaSeconds := by
  have hvietshare (maxAge : MaxAge) (hage : maxAge.seconds ≤ maxTimedeltaSeconds) :
      VietShareFailsClosed maxAge := fun raw observedAt evaluatedAt =>
    VietShare.readCatalog_failClosed hage raw observedAt evaluatedAt
  have hkhommo (maxAge : MaxAge) (hage : maxAge.seconds ≤ maxTimedeltaSeconds) :
      KhommoFailsClosed maxAge := fun sent observedAt evaluatedAt =>
    Khommo.readCatalog_failClosed hage sent observedAt evaluatedAt
  refine ⟨fun maxAge hage => ⟨hvietshare maxAge hage, hkhommo maxAge hage⟩, ?_, ?_⟩
  · intro body hbody maxAge
    exact ⟨vietshare_age_of_failsClosed hbody, hvietshare maxAge⟩
  · intro body hbody maxAge
    exact ⟨khommo_age_of_failsClosed hbody, hkhommo maxAge⟩

/-! ## A greatest age that is too great -/

/-- A reader that accepts what is some thirty million years old. -/
def hugeAge : MaxAge := ⟨1000000000000000, by decide⟩

/-- The bytes of a document. -/
def bytesOf (document : Json) : Bytes := (encodeUtf8 document.compact).getD []

/-- The characters of a word in ASCII. -/
abbrev asciiWords : VietShare.WordChars :=
  ⟨fun c => VietShare.isUpper c || VietShare.isLower c || VietShare.isDigit c⟩

theorem loads_bytesOf {document : Json} (h : document.Writable)
    (hbytes : (encodeUtf8 document.compact).isSome = true) :
    @JsonBytes.loads utf8Documents (bytesOf document) = some (document.ordered false) := by
  obtain ⟨body, hbody⟩ := Option.isSome_iff_exists.1 hbytes
  rw [bytesOf, hbody]
  exact utf8Documents_loads h hbody

/-- An object of which the members are written. -/
theorem writable_cons {k : Str} {v : Json} {members : List (Str × Json)}
    (hk : k.any isSurrogate = false) (hv : v.Writable) (h : (Json.obj members).Writable) :
    (Json.obj ((k, v) :: members)).Writable := by
  cases h with
  | obj _ hkeys hvalues =>
    refine .obj _ (fun m hm => ?_) (fun m hm => ?_)
    · rcases List.mem_cons.1 hm with rfl | hm
      · exact hk
      · exact hkeys m hm
    · rcases List.mem_cons.1 hm with rfl | hm
      · exact hv
      · exact hvalues m hm

theorem writable_empty : (Json.obj []).Writable :=
  .obj _ (fun _ h => by cases h) (fun _ h => by cases h)

theorem loads_emptyList :
    @JsonBytes.loads utf8Documents (bytesOf emptyList) = some emptyList := by
  refine loads_bytesOf ?_ (by decide +kernel)
  refine writable_cons (by decide) (.int 0 (by decide +kernel)) ?_
  exact writable_cons (by decide) (.arr _ fun _ h => by cases h) writable_empty

theorem loads_emptyPage :
    @JsonBytes.loads utf8Documents (bytesOf emptyPage) = some emptyPage := by
  refine loads_bytesOf ?_ (by decide +kernel)
  refine writable_cons (by decide) (.bool true) ?_
  refine writable_cons (by decide) (.arr _ fun _ h => by cases h) ?_
  refine writable_cons (by decide) ?_ writable_empty
  refine writable_cons (by decide) (.int 1 (by decide +kernel)) ?_
  refine writable_cons (by decide) (.int 500 (by decide +kernel)) ?_
  refine writable_cons (by decide) (.int 0 (by decide +kernel)) ?_
  exact writable_cons (by decide) (.int 0 (by decide +kernel)) writable_empty

/-- **An empty catalog makes the readers raise** where their greatest age is too great. -/
theorem huge_age_raises :
    @VietShare.readCatalog asciiWords hugeAge
        (@VietShare.productListOutcome utf8Documents
          (.success (VietShare.okResponse (bytesOf emptyList)) 1)) (some 0) (some 0) =
      .error .overflow ∧
    @Khommo.readCatalog asciiUnicode utf8Documents hugeAge
        (.response ⟨200, bytesOf emptyPage⟩) (some 0) (some 0) = .error .overflow ∧
    ¬ @VietShareFailsClosed asciiWords utf8Documents hugeAge ∧
    ¬ @KhommoFailsClosed asciiUnicode utf8Documents hugeAge := by
  have hage : maxTimedeltaSeconds < hugeAge.seconds := by decide
  have hvietshare := @VietShare.readCatalog_overflow asciiWords utf8Documents hugeAge hage _ _
    (@parse_emptyList utf8Documents _ loads_emptyList) rfl 0
  have hkhommo := @Khommo.readCatalog_overflow asciiUnicode utf8Documents hugeAge hage _ _
    loads_emptyPage parse_emptyPage 0
  exact ⟨hvietshare, hkhommo, fun h => not_failClosed_overflow hvietshare (h _ _ _),
    fun h => not_failClosed_overflow hkhommo (h _ _ _)⟩

end NyanShopBot.Catalog
