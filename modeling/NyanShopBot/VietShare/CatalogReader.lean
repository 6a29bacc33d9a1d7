import NyanShopBot.Catalog.CustomerCopy
import NyanShopBot.Catalog.LiveReads
import NyanShopBot.VietShare.ReadAdapter

/-!
# The VietShare catalog reader

`readCatalog` projects the products of a list outcome into the catalog, without the custom
emoji of Telegram in their descriptions, and shows all of them or none
(`readCatalog_failClosed`).
-/

namespace NyanShopBot.VietShare

open Py Catalog

/-! ## Custom emoji -/

/-- `str.isalnum` of one character. -/
class WordChars where
  isAlnum : CodePoint → Bool

/-- The text after the first such character. -/
def after (c : CodePoint) : Str → Option Str
  | [] => none
  | d :: s => if d = c then some s else after c s

/-- The text after white space and the end of a tag. -/
def afterClose : Str → Option Str
  | [] => none
  | c :: s => if c = chr '>' then some s else if isSpace c then afterClose s else none

section

variable [WordChars]

/-- The text after a tag of which the name ends here. -/
def afterTag : Str → Option Str
  | [] => none
  | c :: s => if WordChars.isAlnum c || c = chr '_' then none else after (chr '>') (c :: s)

/-- The text after an element of custom emoji. -/
def afterEmoji (s : Str) : Option Str :=
  ((((dropWord (str "<tg-emoji") s).bind afterTag).bind (after (chr '<'))).bind
    (dropWord (str "/tg-emoji"))).bind afterClose

end

/-- What is recognized does not depend on what follows it. -/
def IsLocal (f : Str → Option Str) : Prop :=
  ∀ s r : Str, f s = some r → ∃ m, s = m ++ r ∧ ∀ r', f (m ++ r') = some r'

theorem IsLocal.bind {f g : Str → Option Str} (hf : IsLocal f) (hg : IsLocal g) :
    IsLocal fun s => (f s).bind g := by
  intro s r h
  obtain ⟨t, ht, hr⟩ := Option.bind_eq_some_iff.1 h
  obtain ⟨m, rfl, hm⟩ := hf s t ht
  obtain ⟨n, rfl, hn⟩ := hg t r hr
  refine ⟨m ++ n, (List.append_assoc _ _ _).symm, fun r' => ?_⟩
  show (f (m ++ n ++ r')).bind g = some r'
  rw [List.append_assoc, hm]
  exact hn r'

theorem after_local (c : CodePoint) : IsLocal (after c) := by
  intro s
  induction s with
  | nil =>
    intro r h
    cases h
  | cons d s ih =>
    intro r h
    unfold after at h
    split at h
    · rename_i hd
      cases h
      exact ⟨[d], rfl, fun r' => if_pos hd⟩
    · rename_i hd
      obtain ⟨m, rfl, hm⟩ := ih r h
      exact ⟨d :: m, rfl, fun r' => (if_neg hd).trans (hm r')⟩

theorem afterClose_local : IsLocal afterClose := by
  intro s
  induction s with
  | nil =>
    intro r h
    cases h
  | cons c s ih =>
    intro r h
    unfold afterClose at h
    split at h
    · rename_i hc
      cases h
      exact ⟨[c], rfl, fun r' => if_pos hc⟩
    · rename_i hc
      split at h
      · rename_i hspace
        obtain ⟨m, rfl, hm⟩ := ih r h
        exact ⟨c :: m, rfl, fun r' => (if_neg hc).trans ((if_pos hspace).trans (hm r'))⟩
      · cases h

theorem dropWord_local (word : Str) : IsLocal (dropWord word) := by
  intro s r h
  obtain ⟨m, rfl, -, hm⟩ := dropWord_spec h
  exact ⟨m, rfl, hm⟩

section

variable [WordChars]

theorem afterTag_local : IsLocal afterTag := by
  intro s r h
  cases s with
  | nil => cases h
  | cons c s =>
    rw [afterTag.eq_def] at h
    dsimp only at h
    split at h
    · cases h
    · rename_i hc
      obtain ⟨m, hs, hm⟩ := after_local (chr '>') (c :: s) r h
      cases m with
      | nil =>
        -- the end of the tag is part of what is recognized
        have hnone := hm []
        cases hnone
      | cons d m =>
        obtain ⟨rfl, rfl⟩ := List.cons_eq_cons.1 hs
        exact ⟨c :: m, rfl, fun r' => (if_neg hc).trans (hm r')⟩

theorem afterEmoji_local : IsLocal afterEmoji :=
  IsLocal.bind (((IsLocal.bind (dropWord_local _) afterTag_local).bind (after_local _)).bind
    (dropWord_local _)) afterClose_local

/-- `_TELEGRAM_CUSTOM_EMOJI_ELEMENT`. -/
def telegramCustomEmoji : Pattern CodePoint where
  rest := afterEmoji
  starts := (· = chr '<')
  letter _ := true
  spec {s r} h := by
    obtain ⟨m, rfl, hm⟩ := afterEmoji_local s r h
    cases m with
    | nil =>
      have hnone := hm []
      cases hnone
    | cons c m =>
      refine ⟨c, m, rfl, ?_, fun _ _ => rfl, hm⟩
      have hword : dropWord (str "<tg-emoji") (c :: m ++ r) ≠ none := by
        intro hnone
        rw [afterEmoji, hnone] at h
        cases h
      have hfold : foldCase c = (chr '<').val := by
        by_contra hne
        exact hword (if_neg hne)
      refine decide_eq_true (Fin.ext ?_)
      unfold foldCase at hfold
      have hvalue : (chr '<').val = 0x3c := rfl
      simp only [Bool.and_eq_true, Bool.or_eq_true, decide_eq_true_eq] at hfold
      split_ifs at hfold <;> omega

/-- `_strip_telegram_custom_emoji`. -/
def stripTelegramCustomEmoji (value : Str) : Str := strip (telegramCustomEmoji.sub [] value)

end

/-! ## Errors -/

def schemaMessage : Str :=
  str "VietShare returned a catalog schema " ++ str "that is not safely supported."

def unavailableMessage : Str := str "VietShare catalog is " ++ str "temporarily unavailable."

def projectionMessage : Str :=
  str "VietShare product data " ++ str "cannot be projected safely."

theorem schemaMessage_text : isDisplayText schemaMessage = true := by decide +kernel

theorem unavailableMessage_text : isDisplayText unavailableMessage = true := by decide +kernel

theorem projectionMessage_text : isDisplayText projectionMessage = true := by decide +kernel

/-- Whether a failed read may be tried again. -/
def ReadFailure.retryable : ReadFailure → Bool
  | error code _ _ retryable => retryable || code = .transportError || code = .retryError
  | timeout _ | rateLimited _ _ => true

/-- `_error_for`. -/
def errorFor (failure : ReadFailure) : CatalogError :=
  match failure with
  | .error .invalidResponse _ _ _ => ⟨.unsupported, schemaMessage, false, schemaMessage_text⟩
  | _ => ⟨.sourceUnavailable, unavailableMessage, failure.retryable, unavailableMessage_text⟩

def projectionError : CatalogError :=
  ⟨.unsupported, projectionMessage, false, projectionMessage_text⟩

/-! ## The reader -/

theorem productListOutcome_success [JsonBytes] {raw : RawReadOutcome} {value : VietShareProductList}
    {attempts : Nat} (h : productListOutcome raw = .success value attempts) :
    ∃ response, raw = .success response attempts ∧ 200 ≤ response.statusCode ∧
      response.statusCode ≤ 299 ∧ parseProductList response.body = .ok value := by
  unfold productListOutcome at h
  split at h
  · cases h
  · rename_i response _
    split at h
    · cases h
    · rename_i hstatus
      obtain ⟨hlow, hhigh⟩ := not_not.1 hstatus
      split at h
      · rename_i hparse
        cases h
        exact ⟨response, rfl, hlow, hhigh, hparse⟩
      · cases h

section

variable [WordChars]

/-- `_project_product`. A number of more than 4300 digits has no text. -/
def projectProduct (product : VietShareProduct) : Except LiveExc CatalogProduct :=
  if product.id ≤ 0 ∨ 4300 < (intStr product.id).length then .error .value
  else
    match Khommo.liveProduct .vietshare (intStr product.id) product.name
        (stripTelegramCustomEmoji product.description) product.price.amountMinor product.stock with
    | .ok item => .ok item
    | .error _ => .error .value

/-- The items of a read and the evidence for them. -/
def projectAll (maxAge : MaxAge) (value : VietShareProductList) (observedAt evaluatedAt : Reading) :
    Except LiveExc (List CatalogProduct × CatalogFreshness) := do
  if (value.products.map (·.id)).Nodup then
    let items ← value.products.mapM projectProduct
    let freshness ← freshNow maxAge observedAt evaluatedAt
    return (items, freshness)
  else .error .value

/-- `read_catalog` of an outcome and two readings of the clock. -/
def readCatalog (maxAge : MaxAge) (outcome : ProductListOutcome)
    (observedAt evaluatedAt : Reading) : Except LiveExc CatalogResponse :=
  match outcome with
  | .failure f => errorResponse .vietshare (errorFor f)
  | .success value _ =>
    match projectAll maxAge value observedAt evaluatedAt with
    | .ok (items, freshness) => liveResponse .vietshare freshness items 0
    | .error .value => errorResponse .vietshare projectionError
    | .error .overflow => .error .overflow

theorem projectProduct_ok {product : VietShareProduct} {item : CatalogProduct}
    (h : projectProduct product = .ok item) : IsLiveItem .vietshare item ∧
      ShowsLive (intStr product.id) product.price.amountMinor product.stock item := by
  unfold projectProduct at h
  split at h
  · cases h
  · split at h
    · rename_i hlive
      cases h
      exact liveProduct_ok hlive
    · cases h

theorem projectProduct_error {product : VietShareProduct} {e : LiveExc}
    (h : projectProduct product = .error e) : e = .value := by
  unfold projectProduct at h
  split at h
  · cases h
    rfl
  · split at h
    · cases h
    · cases h
      rfl

/-- The items are the products of the list, each in its place. -/
theorem projectAll_ok {maxAge : MaxAge} {value : VietShareProductList}
    {observedAt evaluatedAt : Reading} {items : List CatalogProduct}
    {freshness : CatalogFreshness}
    (h : projectAll maxAge value observedAt evaluatedAt = .ok (items, freshness)) :
    (value.products.map (·.id)).Nodup ∧ freshness.status = .fresh ∧
      List.Forall₂ (fun (product : VietShareProduct) item => IsLiveItem .vietshare item ∧
        ShowsLive (intStr product.id) product.price.amountMinor product.stock item)
        value.products items := by
  unfold projectAll at h
  split at h
  · rename_i hnodup
    obtain ⟨items', hitems, h⟩ := except_bind_ok.1 h
    obtain ⟨freshness', hfresh, h⟩ := except_bind_ok.1 h
    cases h
    exact ⟨hnodup, freshNow_status hfresh,
      (forall₂_of_mapM hitems).imp fun _ _ hitem => projectProduct_ok hitem⟩
  · cases h

theorem projectAll_error {maxAge : MaxAge} {value : VietShareProductList}
    {observedAt evaluatedAt : Reading} {e : LiveExc} (hage : maxAge.seconds ≤ maxTimedeltaSeconds)
    (h : projectAll maxAge value observedAt evaluatedAt = .error e) : e = .value := by
  unfold projectAll at h
  split at h
  · rcases except_bind_error.1 h with h | ⟨items, -, h⟩
    · obtain ⟨product, -, he⟩ := mapM_raises h
      exact projectProduct_error he
    · rcases except_bind_error.1 h with h | ⟨freshness, -, h⟩
      · exact freshNow_error hage h
      · cases h
  · cases h
    rfl

variable [JsonBytes]

/-- The body of the response is a list of products that repeats no id, and each of the
values in its array is a product that is shown, in its place. -/
def Complete (raw : RawReadOutcome) (items : List CatalogProduct) (omittedCount : Nat) : Prop :=
  ∃ response attempts document value, raw = .success response attempts ∧
    200 ≤ response.statusCode ∧ response.statusCode ≤ 299 ∧
    loadsUnique response.body = some document ∧ parseProductList response.body = .ok value ∧
    IsProductList document value ∧ (value.products.map (·.id)).Nodup ∧
    List.Forall₂ (fun product => ShowsLive (intStr product.id) product.price.amountMinor
      product.stock) value.products items ∧
    omittedCount = 0 ∧ items.length + omittedCount = value.count

/-- **A read fails closed** as long as its greatest age is a `timedelta`. -/
theorem readCatalog_failClosed {maxAge : MaxAge} (hage : maxAge.seconds ≤ maxTimedeltaSeconds)
    (raw : RawReadOutcome) (observedAt evaluatedAt : Reading) :
    FailClosed (readCatalog maxAge (productListOutcome raw) observedAt evaluatedAt)
      (Complete raw) := by
  unfold readCatalog
  split
  · exact failClosed_error _ _
  · rename_i value attempts houtcome
    split
    · rename_i items freshness hproject
      obtain ⟨response, rfl, hlow, hhigh, hparse⟩ := productListOutcome_success houtcome
      obtain ⟨hnodup, hfresh, hitems⟩ := projectAll_ok hproject
      refine failClosed_live hfresh (fun item hi => ?_) (fun h => absurd h (Nat.lt_irrefl 0)) ?_
      · obtain ⟨product, -, hlive, -⟩ := exists_of_forall₂ hitems hi
        exact hlive
      · obtain ⟨document, hloads, hlist⟩ := parseProductList_ok hparse
        refine ⟨response, attempts, document, value, rfl, hlow, hhigh, hloads, hparse, hlist,
          hnodup, hitems.imp fun _ _ hitem => hitem.2, rfl, ?_⟩
        rw [value.valid, Nat.add_zero]
        exact hitems.length_eq.symm
    · exact failClosed_error _ _
    · rename_i hproject
      cases projectAll_error hage hproject

/-- A response with a body. -/
def okResponse (body : Bytes) : VietShareResponse := ⟨200, noHeaders, body, ok_isStatus⟩

/-- An empty list and a greatest age that is no `timedelta`. -/
theorem readCatalog_overflow {maxAge : MaxAge} (hage : maxTimedeltaSeconds < maxAge.seconds)
    {body : Bytes} {value : VietShareProductList} (hbody : parseProductList body = .ok value)
    (hempty : value.products = []) (now : Int) :
    readCatalog maxAge (productListOutcome (.success (okResponse body) 1)) (some now) (some now) =
      .error .overflow := by
  have houtcome : productListOutcome (.success (okResponse body) 1) = .success value 1 := by
    have hstatus : ¬ ¬ (200 ≤ (okResponse body).statusCode ∧
        (okResponse body).statusCode ≤ 299) :=
      not_not.2 ⟨Int.le_refl 200, show (200 : Int) ≤ 299 by decide⟩
    unfold productListOutcome
    dsimp only
    have hparse : parseProductList (okResponse body).body = .ok value := hbody
    rw [if_neg hstatus, hparse]
  rw [houtcome]
  have hproject : projectAll maxAge value (some now) (some now) = .error .overflow := by
    unfold projectAll
    rw [hempty, List.map_nil, if_pos List.nodup_nil, freshNow_overflow hage]
    rfl
  unfold readCatalog
  dsimp only
  rw [hproject]

end

end NyanShopBot.VietShare
