import NyanShopBot.Bot.Handlers

/-!
# Where the buttons lead

A `Place` is a product of a source, or a variant of one, and `Place.open` what the bot
answers for it. A button leads to a place by the callback that it carries. In a `Chat` every
press is one of a button that was shown before, whatever became of the catalog since.
-/

namespace NyanShopBot.Bot

open Py Catalog

/-! ## Places -/

inductive Place where
  | product (source : Option LiveCatalogSupplier) (id : Identifier)
  | variant (source : Option LiveCatalogSupplier) (id variantId : Identifier)

namespace Place

def source : Place → Option LiveCatalogSupplier
  | product s _ | variant s _ _ => s

/-- The product of a place. -/
def id : Place → Identifier
  | product _ i | variant _ i _ => i

def callback : Place → Callback
  | product s i => .detail s i
  | variant s i v => .quote s i v

end Place

/-- The reader that the places of a source are read from. -/
def CatalogAccess.serving : CatalogAccess → Option LiveCatalogSupplier → Option CatalogReader
  | .reader r, none => some r
  | .reader _, some _ => none
  | .registry g, none => if g.sources = [.mock] then g.reader? .mock else none
  | .registry g, some s => s.1.supplier?.bind g.reader?

/-- The button carries the callback of the place. -/
def Button.LeadsTo (b : Button) (place : Place) : Prop := b.callbackData = place.callback.wire

def Message.offers (m : Message) : List Button := (m.keyboard.getD []).flatten

/-- A message without a product. -/
inductive Notice : Message → Prop
  | refresh : Notice refresh
  | notFound : Notice (send notFoundLines none)
  | unsupported : Notice (send unsupportedLines none)

/-! ## Encoded rows -/

theorem LiveCatalogSelection.value_injective {a b : LiveCatalogSelection}
    (h : a.value = b.value) : a = b := by
  have hb := validatedSource_ok b
  rw [← h, validatedSource_ok] at hb
  exact Except.ok.inj hb

theorem object_injective {a b : Option LiveCatalogSupplier}
    (h : LiveCatalogSupplier.object a = .ofOption ((b.map (·.1)).map (·.value))) : a = b := by
  cases a with
  | none => cases b with
    | none => rfl
    | some b => cases h
  | some a => cases b with
    | none => cases h
    | some b =>
      have hv : a.1.value = b.1.value := Object.text.inj h
      rw [Subtype.ext (LiveCatalogSelection.value_injective hv)]

theorem Callback.Of.action_eq {k : Callback} {a : CallbackAction} {p v s : Object}
    (h : k.Of (.text [a.value]) p v s) : k.fields.action = a := by
  have ha := CallbackAction.ofObject_value a
  rw [h.action, CallbackAction.ofObject_value] at ha
  exact Option.some.inj ha

/-- The callback of a product is encoded if its id is an identifier. -/
theorem encodeDetail_cases (id : Str) (source : Option LiveCatalogSupplier) :
    (∃ p : Identifier, p.1 = id ∧
      encodeDetailCallback (.text id) (LiveCatalogSupplier.object source) =
        .ok (Callback.detail source p).wire) ∨
      ∃ message, encodeDetailCallback (.text id) (LiveCatalogSupplier.object source) =
        .error (.callbackCodecError message) := by
  rcases encodeDetail_settles (.text id) (LiveCatalogSupplier.object source) with
    ⟨e, he, k, rfl, hof⟩ | h
  · cases k with
    | select s => cases hof.action_eq
    | detail s p =>
      have hs : source = s := object_injective hof.source
      refine .inl ⟨p, (Object.text.inj hof.product).symm, ?_⟩
      rw [he, hs]
    | quote s p v => cases hof.action_eq
  · exact .inr h

theorem encodeQuote_cases (id variantId : Str) (source : Option LiveCatalogSupplier) :
    (∃ p v : Identifier, p.1 = id ∧ v.1 = variantId ∧
      encodeQuoteCallback (.text id) (.text variantId) (LiveCatalogSupplier.object source) =
        .ok (Callback.quote source p v).wire) ∨
      ∃ message,
        encodeQuoteCallback (.text id) (.text variantId) (LiveCatalogSupplier.object source) =
          .error (.callbackCodecError message) := by
  rcases encodeQuote_settles (.text id) (.text variantId) (LiveCatalogSupplier.object source) with
    ⟨e, he, k, rfl, hof⟩ | h
  · cases k with
    | select s => cases hof.action_eq
    | detail s p => cases hof.action_eq
    | quote s p v =>
      have hs : source = s := object_injective hof.source
      refine .inl ⟨p, v, (Object.text.inj hof.product).symm, (Object.text.inj hof.variant).symm, ?_⟩
      rw [he, hs]
  · exact .inr h

/-- The rows of a keyboard: one for each element that has a callback. -/
theorem keyboard_rows {α : Type} {row : α → Except HandlerExc (Option (List Button))}
    {P : α → Button → Prop} {l : List α}
    (h : ∀ a ∈ l, row a = .ok none ∨ ∃ b, row a = .ok (some [b]) ∧ P a b) :
    ∃ rows, l.mapM row = .ok rows ∧ (rows.filterMap id).length ≤ l.length ∧
      ∀ r ∈ rows.filterMap id, ∃ b, r = [b] ∧ ∃ a ∈ l, P a b := by
  obtain ⟨rows, hrows, hall⟩ := @mapM_ok _ _ _ row
    (fun a r => ∀ bs, r = some bs → ∃ b, bs = [b] ∧ P a b) l fun a ha => by
      rcases h a ha with hn | ⟨b, hb, hP⟩
      · exact ⟨none, hn, by rintro _ ⟨⟩⟩
      · exact ⟨some [b], hb, by rintro _ ⟨⟩; exact ⟨b, rfl, hP⟩⟩
  refine ⟨rows, hrows, ?_, fun r hr => ?_⟩
  · exact (List.length_filterMap_le _ _).trans (by rw [hall.length_eq])
  · obtain ⟨o, ho, hor⟩ := List.mem_filterMap.1 hr
    obtain ⟨a, ha, hP⟩ := exists_of_forall₂ hall ho
    obtain ⟨b, hb, hPb⟩ := hP r hor
    exact ⟨b, hb, a, ha, hPb⟩

theorem offers_send (lines : List Str) (rows : List (List Button)) :
    (send lines (keyboardOf rows)).offers = rows.flatten := by
  unfold send keyboardOf Message.offers
  by_cases h : rows = []
  · rw [if_pos h, h]
    rfl
  · rw [if_neg h]
    rfl

theorem mem_offers {lines : List Str} {rows : List (List Button)} {b : Button} :
    b ∈ (send lines (keyboardOf rows)).offers ↔ ∃ r ∈ rows, b ∈ r := by
  rw [offers_send, List.mem_flatten]

/-! ## Telegram's limits -/

/-- A row of one button that Telegram takes. -/
structure Button.Fits (b : Button) : Prop where
  text : b.text ≠ []
  data : b.callbackData ≠ [] ∧ b.callbackData.length ≤ telegramCallbackDataMaxBytes

structure Message.Fits (m : Message) : Prop where
  text : m.text ≠ [] ∧ m.text.length ≤ maxMessageChars
  keyboard : ∀ rows ∈ m.keyboard, rows ≠ [] ∧ rows.length ≤ 20 ∧
    ∀ row ∈ rows, ∃ b : Button, row = [b] ∧ b.Fits

theorem boundedMessage_fits {line : Str} (hline : line ≠ []) (lines : List Str) :
    boundedMessage (line :: lines) ≠ [] ∧
      (boundedMessage (line :: lines)).length ≤ maxMessageChars := by
  unfold boundedMessage
  simp only
  split
  · next h =>
    refine ⟨fun hnil => ?_, h⟩
    cases lines with
    | nil => exact hline hnil
    | cons l ls => simp [join, hline] at hnil
  · refine ⟨by simp, ?_⟩
    have hcut := (rstrip_isPrefix
      ((join [chr '\n'] (line :: lines)).take (maxMessageChars - 1))).length_le
    have htake := List.length_take_le (maxMessageChars - 1) (join [chr '\n'] (line :: lines))
    rw [List.length_append, List.length_singleton]
    unfold maxMessageChars at hcut htake ⊢
    omega

theorem send_fits {line : Str} (hline : line ≠ []) (lines : List Str)
    {rows : List (List Button)} (hlen : rows.length ≤ 20)
    (hrows : ∀ row ∈ rows, ∃ b : Button, row = [b] ∧ b.Fits) :
    (send (line :: lines) (keyboardOf rows)).Fits := by
  refine ⟨boundedMessage_fits hline lines, fun rows' h => ?_⟩
  unfold send keyboardOf at h
  by_cases hnil : rows = []
  · simp [hnil] at h
  · simp only [if_neg hnil, Option.mem_some_iff] at h
    subst h
    exact ⟨hnil, hlen, hrows⟩

theorem send_none_fits {line : Str} (hline : line ≠ []) (lines : List Str) :
    (send (line :: lines) none).Fits :=
  ⟨boundedMessage_fits hline lines, by rintro _ ⟨⟩⟩

theorem Button.LeadsTo.data {b : Button} {place : Place} (h : b.LeadsTo place) :
    b.callbackData ≠ [] ∧ b.callbackData.length ≤ telegramCallbackDataMaxBytes := by
  rw [h]
  exact ⟨place.callback.wire_ne_nil, place.callback.length_wire⟩

theorem Notice.fits {m : Message} (h : Notice m) : m.Fits := by
  cases h with
  | refresh => exact send_none_fits (by decide) []
  | notFound => exact send_none_fits (by decide) []
  | unsupported => exact send_none_fits (by decide) []

/-! ## Opening a place -/

theorem LiveCatalogSupplier.live? (s : LiveCatalogSupplier) :
    LiveCatalogSelection.live? s.1 = some s := dif_neg s.2

theorem LiveCatalogSupplier.supplier? (s : LiveCatalogSupplier) :
    ∃ supplier, s.1.supplier? = some supplier := by
  obtain ⟨s, hne⟩ := s
  cases s with
  | all => exact absurd rfl hne
  | khommo => exact ⟨_, rfl⟩
  | vietshare => exact ⟨_, rfl⟩

/-- With one mock reader, no source is its source. -/
theorem ReaderRegistry.resolve_mock {g : ReaderRegistry} (h : g.sources = [.mock]) :
    ∃ reader, g.reader? .mock = some reader ∧ g.resolve none = .ok reader := by
  obtain ⟨readers, hne, huniq⟩ := g
  unfold sources at h
  rcases readers with _ | ⟨⟨s, r⟩, _ | ⟨x, rest⟩⟩
  · cases h
  · obtain rfl : s = .mock := by simpa using h
    exact ⟨r, rfl, rfl⟩
  · simp at h

theorem ReaderRegistry.resolve_some (g : ReaderRegistry) (s : Supplier) :
    (∃ reader, g.reader? s = some reader ∧ g.resolve (some s) = .ok reader) ∨
      (g.reader? s = none ∧ ∃ e, g.resolve (some s) = .error e) := by
  unfold resolve
  rw [Option.some_or]
  cases h : g.reader? s with
  | some reader => exact .inl ⟨reader, rfl, by simp [h]⟩
  | none => exact .inr ⟨rfl, _, by simp [h]; rfl⟩

theorem ReaderRegistry.reader?_of_mem {g : ReaderRegistry} {r : Supplier × CatalogReader}
    (h : r ∈ g.readers) : g.reader? r.1 = some r.2 := by
  unfold reader?
  cases hf : g.readers.find? (·.1 = r.1) with
  | none => exact absurd (List.find?_eq_none.1 hf r h) (by simp)
  | some r' =>
    have hkey : r'.1 = r.1 := by simpa using List.find?_some hf
    have hr : r' = r := List.inj_on_of_nodup_map g.unique (List.mem_of_find?_eq_some hf) h hkey
    rw [Option.map_some, hr]

/-! ## The combined catalog -/

theorem mem_mergeRounds {item : CatalogProduct} : ∀ {n : Nat} {queues : List (List CatalogProduct)},
    item ∈ mergeRounds n queues → ∃ q ∈ queues, item ∈ q
  | 0, _, h => by cases h
  | n + 1, queues, h => by
    rw [mergeRounds] at h
    split at h
    · cases h
    · rcases List.mem_append.1 h with h | h
      · obtain ⟨q, hq, hhead⟩ := List.mem_filterMap.1 h
        exact ⟨q, hq, List.mem_of_mem_head? hhead⟩
      · obtain ⟨q', hq', hitem⟩ := mem_mergeRounds h
        obtain ⟨q, hq, rfl⟩ := List.mem_map.1 hq'
        exact ⟨q, hq, List.mem_of_mem_tail hitem⟩

/-- The queue of a source is what it contributes. -/
theorem sourceResult_queue {reader : Supplier × Except Exc CatalogResponse}
    (hlive : reader.1.isLive = true) {result : AggregateSourceReport × List CatalogProduct}
    (h : sourceResult reader = .ok result) : result.2 = contributed reader := by
  have hexc : ∀ e, reader.2 = .error e → e.isException = true := by
    intro e he
    obtain ⟨source, outcome⟩ := reader
    subst he
    by_contra hfatal
    simp [sourceResult, hfatal] at h
  obtain ⟨report, hres, -⟩ := sourceResult_ok hlive hexc
  rw [hres] at h
  cases h
  rfl

theorem AggregateCatalogResponse.make_items {state : AggregateCatalogState}
    {items : List CatalogProduct} {sources : List AggregateSourceReport} {isPartial : Bool}
    {omittedCount : Nat} {r : AggregateCatalogResponse}
    (h : AggregateCatalogResponse.make state items sources isPartial omittedCount = .ok r) :
    r.items = items := by
  unfold AggregateCatalogResponse.make at h
  split at h
  · split at h
    · cases h
      rfl
    · cases h
  · cases h

/-- What the combined catalog shows, one of its sources contributed. -/
theorem readAggregate_items {c : CatalogRegistry} {r : AggregateCatalogResponse}
    (h : c.readAggregate = .ok r) {item : CatalogProduct} (hitem : item ∈ r.items) :
    ∃ reader ∈ c.readers, reader.1.isLive = true ∧ item ∈ contributed reader := by
  unfold CatalogRegistry.readAggregate at h
  split at h
  · obtain ⟨results, hresults, h⟩ := except_bind_ok.1 h
    rw [AggregateCatalogResponse.make_items h] at hitem
    obtain ⟨q, hq, hitem⟩ := mem_mergeRounds hitem
    obtain ⟨result, hresult, rfl⟩ := List.mem_map.1 hq
    obtain ⟨reader, hreader, hres⟩ := exists_of_forall₂ (forall₂_of_mapM hresults) hresult
    obtain ⟨hreader, hlive⟩ := List.mem_filter.1 hreader
    exact ⟨reader, hreader, hlive, sourceResult_queue hlive hres ▸ hitem⟩
  · cases h

section

variable [UnicodeTables] {access : CatalogAccess} {m : Message}

def Place.read (reader : CatalogReader) : Place → Except HandlerExc Message
  | product source id => handleDetailCallback reader id.1 source
  | variant _ id variantId => handleQuoteCallback reader id.1 (some variantId.1)

/-- What the bot answers for a place. -/
def Place.open (access : CatalogAccess) (place : Place) : Except HandlerExc Message :=
  match access.serving place.source with
  | none => .ok refresh
  | some reader => place.read reader

/-- The message shows the place, as its reader gave it in this turn. -/
inductive Place.Shows (access : CatalogAccess) : Place → Message → Prop
  | product {source : Option LiveCatalogSupplier} {id : Identifier} {reader : CatalogReader}
      {item : CatalogProduct} {m : Message} : access.serving source = some reader →
      reader.getProduct id.1 = .ok (.found item) → item.id = id.1 →
      productMessage source item = .ok m → Shows access (.product source id) m
  | variant {source : Option LiveCatalogSupplier} {id variantId : Identifier}
      {reader : CatalogReader} {item : CatalogProduct} {v : CatalogVariant} :
      access.serving source = some reader → reader.getProduct id.1 = .ok (.found item) →
      item.id = id.1 → v ∈ item.variants → v.id = variantId.1 →
      Shows access (.variant source id variantId) (send (quoteLines item v) none)

/-- The payload of a place is answered from the reader of its source. -/
theorem answerPayload_place {reader : CatalogReader} (place : Place) :
    answerPayload reader place.callback.fields = place.read reader := by
  cases place with
  | product source id =>
    have hsource : (source.map (·.1)).bind LiveCatalogSelection.live? = source := by
      cases source with
      | none => rfl
      | some s => exact s.live?
    show handleDetailCallback reader id.1 ((source.map (·.1)).bind LiveCatalogSelection.live?) = _
    rw [hsource]
    rfl
  | variant source id variantId => rfl

/-- **A press opens the place that the button leads to.** -/
theorem callbackHandler_place (access : CatalogAccess) (place : Place) :
    callbackHandler access (.text place.callback.wire) = place.open access := by
  have haction : place.callback.fields.action ≠ .source := by
    cases place <;> simp [Place.callback, Callback.fields]
  have hsource : place.callback.fields.source = place.source.map (·.1) := by cases place <;> rfl
  unfold callbackHandler Place.open routePayload
  rw [place.callback.decode_wire]
  simp only [hsource]
  cases access with
  | reader r =>
    cases hs : place.source with
    | none => simp [CatalogAccess.serving, answerPayload_place]
    | some s => simp [CatalogAccess.serving]
  | registry g =>
    cases hs : place.source with
    | none =>
      by_cases hmock : g.sources = [.mock]
      · obtain ⟨reader, hr, hres⟩ := g.resolve_mock hmock
        simp [CatalogAccess.serving, haction, hmock, hr, hres, answerPayload_place]
      · simp [CatalogAccess.serving, haction, hmock]
    | some s =>
      have hall : ¬ s.1 = .all := s.2
      obtain ⟨supplier, hsup⟩ := s.supplier?
      rcases g.resolve_some supplier with ⟨reader, hr, hres⟩ | ⟨hr, e, hres⟩
      · simp [CatalogAccess.serving, haction, hall, hsup, hr, hres, answerPayload_place]
      · simp [CatalogAccess.serving, haction, hall, hsup, hr, hres]

/-! ## What is answered -/

/-- The handler answers with such a message, or raises what a read raised that is no
`Exception`. -/
def Answers (x : Except HandlerExc Message) (P : Message → Prop) : Prop :=
  (∃ m, x = .ok m ∧ P m) ∨ ∃ e : Exc, x = .error (.catalog e) ∧ e.isException = false

omit [UnicodeTables] in
theorem answers_ok {P : Message → Prop} (h : P m) : Answers (.ok m) P := .inl ⟨m, rfl, h⟩

omit [UnicodeTables] in
theorem Answers.mono {x : Except HandlerExc Message} {P Q : Message → Prop} (h : Answers x P)
    (hPQ : ∀ m, P m → Q m) : Answers x Q := by
  rcases h with ⟨m, hm, hP⟩ | h
  · exact .inl ⟨m, hm, hPQ m hP⟩
  · exact .inr h

omit [UnicodeTables] in
theorem orAnswer_answers {α : Type} {read : Except Exc α} {answer : Message}
    {next : α → Except HandlerExc Message} {P : Message → Prop} (hanswer : P answer)
    (hnext : ∀ a, read = .ok a → Answers (next a) P) : Answers (orAnswer read answer next) P := by
  unfold orAnswer
  cases read with
  | ok a => exact hnext a rfl
  | error e =>
    by_cases he : e.isException = true
    · simp only [he, if_true]
      exact answers_ok hanswer
    · exact .inr ⟨e, by simp [he], by simpa using he⟩

/-! ## Menus -/

/-- A read of the reader that serves the source listed the product. -/
def Lists (access : CatalogAccess) (source : Option LiveCatalogSupplier) (item : CatalogProduct) :
    Prop :=
  ∃ reader response, access.serving source = some reader ∧ reader.readCatalog = .ok response ∧
    item ∈ response.items

/-- The button of a listed product. -/
structure MenuButton (source : Option LiveCatalogSupplier) (item : CatalogProduct) (b : Button) :
    Prop where
  leads : ∃ id : Identifier, id.1 = item.id ∧ b.LeadsTo (.product source id)
  label : b.text = catalogButtonText item

/-- A menu of products that these sources listed. -/
structure Menu (access : CatalogAccess) (sources : Option LiveCatalogSupplier → Prop)
    (m : Message) : Prop where
  fits : m.Fits
  buttons : ∀ b ∈ m.offers, ∃ source item, sources source ∧ Lists access source item ∧
    MenuButton source item b

theorem Menu.mono {sources sources' : Option LiveCatalogSupplier → Prop} (h : Menu access sources m)
    (hmono : ∀ source, sources source → sources' source) : Menu access sources' m := by
  refine ⟨h.fits, fun b hb => ?_⟩
  obtain ⟨source, item, hsource, hlist, hbutton⟩ := h.buttons b hb
  exact ⟨source, item, hmono source hsource, hlist, hbutton⟩

theorem buttonText_ne_nil (name price availability : Str) :
    buttonText name price availability ≠ [] := by
  unfold buttonText
  simp only
  split
  · exact boundedDisplay_ne_nil _ _ (by decide)
  · simp [labelSuffix, str]

theorem MenuButton.fits {source : Option LiveCatalogSupplier} {item : CatalogProduct} {b : Button}
    (h : MenuButton source item b) : b.Fits := by
  obtain ⟨id, -, hleads⟩ := h.leads
  exact ⟨h.label ▸ buttonText_ne_nil _ _ _, hleads.data⟩

theorem productRow_cases (source : Option LiveCatalogSupplier) (item : CatalogProduct) :
    productRow source item = .ok none ∨
      ∃ b, productRow source item = .ok (some [b]) ∧ MenuButton source item b := by
  unfold productRow
  rcases encodeDetail_cases item.id source with ⟨id, hid, henc⟩ | ⟨message, henc⟩
  · rw [henc]
    exact .inr ⟨_, rfl, ⟨id, hid, rfl⟩, rfl⟩
  · rw [henc]
    exact .inl rfl

variable {sources : Option LiveCatalogSupplier → Prop}

/-- A menu from its rows. -/
theorem menu_of_rows {row : CatalogProduct → Except HandlerExc (Option (List Button))}
    {items : List CatalogProduct} {lines : List Str}
    (hlines : ∃ line rest, lines = line :: rest ∧ line ≠ [])
    (hrow : ∀ item ∈ items, row item = .ok none ∨ ∃ b, row item = .ok (some [b]) ∧
      ∃ source, sources source ∧ Lists access source item ∧ MenuButton source item b) :
    Answers (do
      let keyboard ← ((items.take maxCatalogItems).mapM row).map fun rows =>
        keyboardOf (rows.filterMap id)
      return send lines keyboard) (Menu access sources) := by
  obtain ⟨rows, hrows, hlen, hall⟩ := keyboard_rows fun item hitem =>
    hrow item (List.mem_of_mem_take hitem)
  rw [hrows]
  obtain ⟨line, rest, rfl, hline⟩ := hlines
  have htake : (items.take maxCatalogItems).length ≤ 20 := List.length_take_le _ _
  refine answers_ok ⟨send_fits hline rest (hlen.trans htake) fun r hr => ?_, fun b hb => ?_⟩
  · obtain ⟨b, rfl, item, -, source, -, -, hb⟩ := hall r hr
    exact ⟨b, rfl, hb.fits⟩
  · obtain ⟨r, hr, hbr⟩ := mem_offers.1 hb
    obtain ⟨b', rfl, item, -, source, hsource, hlist, hb'⟩ := hall r hr
    obtain rfl := List.mem_singleton.1 hbr
    exact ⟨source, item, hsource, hlist, hb'⟩

theorem menu_of_lines {lines : List Str} (hlines : ∃ line rest, lines = line :: rest ∧ line ≠ []) :
    Menu access sources (send lines none) := by
  obtain ⟨line, rest, rfl, hline⟩ := hlines
  exact ⟨send_none_fits hline rest, fun b hb => by simp [send, Message.offers] at hb⟩

theorem menu_error : Menu access sources (send [safeCatalogErrorMessage] none) :=
  menu_of_lines ⟨_, [], rfl, by decide⟩

omit [UnicodeTables] in
theorem catalogLines_cons (response : CatalogResponse) :
    ∃ line rest, catalogLines response = line :: rest ∧ line ≠ [] := by
  unfold catalogLines
  split
  · exact ⟨_, _, rfl, by decide⟩
  · exact ⟨_, _, rfl, by decide⟩
  · exact ⟨_, _, rfl, by decide⟩

theorem catalogHandler_answers {reader : CatalogReader} {source : Option LiveCatalogSupplier}
    (hserve : access.serving source = some reader) :
    Answers (catalogHandler reader source) (Menu access (· = source)) := by
  refine orAnswer_answers menu_error fun response hread => ?_
  unfold catalogKeyboard
  split
  · refine menu_of_rows (catalogLines_cons response) fun item hitem => ?_
    rcases productRow_cases source item with h | ⟨b, hb, hbutton⟩
    · exact .inl h
    · exact .inr ⟨b, hb, source, rfl, ⟨reader, response, hserve, hread, hitem⟩, hbutton⟩
  · exact answers_ok (menu_of_lines (catalogLines_cons response))

omit [UnicodeTables] in
theorem aggregateCatalogLines_cons (response : AggregateCatalogResponse) :
    ∃ line rest, aggregateCatalogLines response = line :: rest ∧ line ≠ [] :=
  ⟨_, _, rfl, by decide⟩

omit [UnicodeTables] in
/-- A product of the combined catalog is listed by the reader of its own source. -/
theorem lists_of_aggregate {g : ReaderRegistry} {r : AggregateCatalogResponse}
    (h : g.lists.readAggregate = .ok r) {item : CatalogProduct} (hitem : item ∈ r.items) :
    ∃ source, liveSource item.supplier = some source ∧
      Lists (.registry g) (some source) item := by
  obtain ⟨reader, hreader, hlive, hcon⟩ := readAggregate_items h hitem
  obtain ⟨own, hown, rfl⟩ := List.mem_map.1 hreader
  obtain ⟨response, hread, -, -, -, hin⟩ := mem_contributed.1 hcon
  have hsupplier : item.supplier = own.1 := (contributed_match hcon).1
  have hserve := g.reader?_of_mem hown
  rw [hsupplier]
  cases hs : own.1 with
  | mock => simp [hs, Supplier.isLive] at hlive
  | khommo =>
    rw [hs] at hserve
    exact ⟨khommoSource, rfl, own.2, response, hserve, hread, hin⟩
  | vietshare =>
    rw [hs] at hserve
    exact ⟨vietshareSource, rfl, own.2, response, hserve, hread, hin⟩

theorem aggregateCatalogHandler_answers (g : ReaderRegistry) :
    Answers (aggregateCatalogHandler g) (Menu (.registry g) (·.isSome = true)) := by
  refine orAnswer_answers menu_error fun response hread => ?_
  unfold aggregateCatalogKeyboard
  split
  · refine menu_of_rows (aggregateCatalogLines_cons response) fun item hitem => ?_
    obtain ⟨source, hsource, hlist⟩ := lists_of_aggregate hread hitem
    unfold aggregateRow
    rw [hsource]
    rcases productRow_cases (some source) item with h | ⟨b, hb, hbutton⟩
    · exact .inl h
    · exact .inr ⟨b, hb, some source, rfl, hlist, hbutton⟩
  · exact answers_ok (menu_of_lines (aggregateCatalogLines_cons response))

/-- **`/catalog` answers with a menu**, each button of which leads to a product that its own
source listed. -/
theorem injectedCatalogHandler_answers (access : CatalogAccess) :
    Answers (injectedCatalogHandler access) (Menu access fun _ => True) := by
  cases access with
  | reader r => exact (catalogHandler_answers rfl).mono fun _ hm => hm.mono fun _ _ => trivial
  | registry g =>
    unfold injectedCatalogHandler
    simp only
    split
    · exact (aggregateCatalogHandler_answers g).mono fun _ hm => hm.mono fun _ _ => trivial
    · split
      · exact answers_ok menu_error
      · next hone =>
        obtain ⟨s, r, hreaders⟩ : ∃ s r, g.readers = [(s, r)] := by
          obtain ⟨readers, hne, huniq⟩ := g
          rcases readers with _ | ⟨⟨s, r⟩, _ | ⟨x, rest⟩⟩
          · exact absurd rfl hne
          · exact ⟨s, r, rfl⟩
          · simp [ReaderRegistry.selectionRequired] at hone
        have hres : g.resolve none = .ok r := by
          simp [ReaderRegistry.resolve, ReaderRegistry.defaultSource, ReaderRegistry.reader?,
            hreaders]
        have hsources : g.sources = [s] := by simp [ReaderRegistry.sources, hreaders]
        have hreader : g.reader? s = some r := by simp [ReaderRegistry.reader?, hreaders]
        rw [hres, hsources]
        refine (catalogHandler_answers ?_).mono fun _ hm => hm.mono fun _ _ => trivial
        cases s with
        | mock => simp [liveSource, CatalogAccess.serving, hsources, hreader]
        | khommo => exact hreader
        | vietshare => exact hreader

/-! ## Pages -/

/-- The button of a variant of the product. -/
structure VariantButton (source : Option LiveCatalogSupplier) (item : CatalogProduct)
    (v : CatalogVariant) (b : Button) : Prop where
  leads : ∃ id variantId : Identifier, id.1 = item.id ∧ variantId.1 = v.id ∧
    b.LeadsTo (.variant source id variantId)
  label : b.text = leadButtonText (quoteLead item.supplier) (variantName v.name)

/-- The source of the place gave it in this turn: it listed the product, or has the variant
among those of the product. -/
inductive Place.Given (access : CatalogAccess) : Place → Prop
  | product {source : Option LiveCatalogSupplier} {id : Identifier} {item : CatalogProduct} :
      Lists access source item → item.id = id.1 → Given access (.product source id)
  | variant {source : Option LiveCatalogSupplier} {id variantId : Identifier}
      {reader : CatalogReader} {item : CatalogProduct} {v : CatalogVariant} :
      access.serving source = some reader → reader.getProduct id.1 = .ok (.found item) →
      item.id = id.1 → v ∈ item.variants → v.id = variantId.1 →
      Given access (.variant source id variantId)

/-- What a place answers with: itself or a notice, with buttons to its own variants only. -/
structure Page (access : CatalogAccess) (place : Place) (m : Message) : Prop where
  fits : m.Fits
  shows : place.Shows access m ∨ Notice m
  buttons : ∀ b ∈ m.offers, ∃ variantId, b.LeadsTo (.variant place.source place.id variantId) ∧
    (Place.variant place.source place.id variantId).Given access

theorem leadButtonText_ne_nil (supplier : Supplier) (value : Str) :
    leadButtonText (quoteLead supplier) value ≠ [] :=
  boundedDisplay_ne_nil _ _ (by cases supplier <;> decide)

theorem VariantButton.fits {source : Option LiveCatalogSupplier} {item : CatalogProduct}
    {v : CatalogVariant} {b : Button} (h : VariantButton source item v b) : b.Fits := by
  obtain ⟨id, variantId, -, -, hleads⟩ := h.leads
  exact ⟨h.label ▸ leadButtonText_ne_nil _ _, hleads.data⟩

theorem variantRow_cases (source : Option LiveCatalogSupplier) (item : CatalogProduct)
    (v : CatalogVariant) :
    variantRow source item v = .ok none ∨
      ∃ b, variantRow source item v = .ok (some [b]) ∧ VariantButton source item v b := by
  unfold variantRow
  rcases encodeQuote_cases item.id v.id source with ⟨id, variantId, hid, hv, henc⟩ | ⟨message, henc⟩
  · rw [henc]
    exact .inr ⟨_, rfl, ⟨id, variantId, hid, hv, rfl⟩, rfl⟩
  · rw [henc]
    exact .inl rfl

/-- The message of a product offers its own variants. -/
theorem productMessage_ok (source : Option LiveCatalogSupplier) (item : CatalogProduct) :
    ∃ m, productMessage source item = .ok m ∧ m.Fits ∧
      ∀ b ∈ m.offers, ∃ v ∈ item.variants, VariantButton source item v b := by
  obtain ⟨rows, hrows, hlen, hall⟩ := @keyboard_rows _ (variantRow source item)
    (VariantButton source item) (item.variants.take maxDetailVariants)
    fun v _ => variantRow_cases source item v
  have htake : (item.variants.take maxDetailVariants).length ≤ 20 := List.length_take_le _ _
  refine ⟨send (detailLines item) (keyboardOf (rows.filterMap id)), ?_, ?_, fun b hb => ?_⟩
  · unfold productMessage detailKeyboard
    rw [hrows]
    rfl
  · refine send_fits (by decide) _ (hlen.trans htake) fun r hr => ?_
    obtain ⟨b, rfl, v, -, hb⟩ := hall r hr
    exact ⟨b, rfl, hb.fits⟩
  · obtain ⟨r, hr, hbr⟩ := mem_offers.1 hb
    obtain ⟨b', rfl, v, hv, hb'⟩ := hall r hr
    obtain rfl := List.mem_singleton.1 hbr
    exact ⟨v, List.mem_of_mem_take hv, hb'⟩

theorem Notice.page {place : Place} (h : Notice m) : Page access place m := by
  refine ⟨h.fits, .inr h, fun b hb => ?_⟩
  have hnone : m.keyboard = none := by cases h <;> rfl
  simp [Message.offers, hnone] at hb

/-- **A place answers with its page**, as its reader gives it in this turn, or with a notice. -/
theorem Place.open_answers (access : CatalogAccess) (place : Place) :
    Answers (place.open access) (Page access place) := by
  unfold Place.open
  cases hserve : access.serving place.source with
  | none => exact answers_ok Notice.refresh.page
  | some reader =>
    cases place with
    | product source id =>
      simp only [Place.read, handleDetailCallback, readDetail]
      cases hget : reader.getProduct id.1 with
      | error e =>
        by_cases he : e.isException = true
        · simp only [he, if_true]
          exact answers_ok Notice.refresh.page
        · exact .inr ⟨e, by simp [he, bind, Except.bind], by simpa using he⟩
      | ok response =>
        cases response with
        | notFound _ => exact answers_ok Notice.notFound.page
        | unsupported _ _ => exact answers_ok Notice.unsupported.page
        | found item =>
          by_cases hid : item.id = id.1
          · obtain ⟨m, hm, hfits, hbuttons⟩ := productMessage_ok source item
            refine .inl ⟨m, by simp [bind, Except.bind, hid, hm], hfits,
              .inl (.product hserve hget hid hm), fun b hb => ?_⟩
            obtain ⟨v, hmem, hv⟩ := hbuttons b hb
            obtain ⟨id', variantId, hid', hvid, hleads⟩ := hv.leads
            obtain rfl : id' = id := Subtype.ext (hid'.trans hid)
            exact ⟨variantId, hleads, .variant hserve hget hid hmem hvid.symm⟩
          · simp only [bind, Except.bind, ne_eq, hid, not_false_eq_true, if_true]
            exact answers_ok Notice.refresh.page
    | variant source id variantId =>
      simp only [Place.read, handleQuoteCallback, readDetail]
      cases hget : reader.getProduct id.1 with
      | error e =>
        by_cases he : e.isException = true
        · simp only [he, if_true]
          exact answers_ok Notice.refresh.page
        · exact .inr ⟨e, by simp [he, bind, Except.bind], by simpa using he⟩
      | ok response =>
        cases response with
        | notFound _ => exact answers_ok Notice.refresh.page
        | unsupported _ _ => exact answers_ok Notice.refresh.page
        | found item =>
          by_cases hid : item.id = id.1
          · cases hv : item.variants.find? (·.id = variantId.1) with
            | none =>
              simp only [bind, Except.bind, hid, ne_eq, not_true_eq_false, if_false, hv]
              exact answers_ok Notice.refresh.page
            | some v =>
              simp only [bind, Except.bind, hid, ne_eq, not_true_eq_false, if_false, hv]
              have hkey : v.id = variantId.1 := by simpa using List.find?_some hv
              refine answers_ok ⟨send_none_fits ?_ _, .inl (.variant hserve hget hid
                (List.mem_of_find?_eq_some hv) hkey), fun b hb => ?_⟩
              · split <;> decide
              · simp [send, Message.offers] at hb
          · simp only [bind, Except.bind, ne_eq, hid, not_false_eq_true, if_true]
            exact answers_ok Notice.refresh.page

/-! ## Any data -/

/-- The catalogs of both suppliers are shown as one. -/
def CatalogAccess.combines : CatalogAccess → Bool
  | .reader _ => false
  | .registry g => g.aggregateAvailable

/-- What a press may be answered with: a notice, the page of the place that its data is the text
of, or, for the text of a source, the menu of that source, in place of which there is the
combined menu where the catalogs are shown as one. -/
inductive Reply (access : CatalogAccess) : Object → Message → Prop
  | notice {data : Object} {m : Message} : Notice m → Reply access data m
  | page {place : Place} {m : Message} : Page access place m →
      Reply access (.text place.callback.wire) m
  | menu {source : LiveCatalogSupplier} {m : Message} : access.combines = false →
      Menu access (· = some source) m → Reply access (.text (Callback.select source.1).wire) m
  | combined {source : LiveCatalogSelection} {m : Message} : access.combines = true →
      injectedCatalogHandler access = .ok m → Menu access (·.isSome = true) m →
      Reply access (.text (Callback.select source).wire) m

inductive Event where
  | command
  | press (data : Object)

/-- What the user did, the catalog as it was then, and what the bot answered. -/
structure Turn where
  access : CatalogAccess
  event : Event
  message : Message

/-- A chat, its last turn first: the user asks for the catalog, or presses a button of an
earlier message. -/
inductive Chat : List Turn → Prop
  | start : Chat []
  | command {turns : List Turn} {access : CatalogAccess} {message : Message} : Chat turns →
      injectedCatalogHandler access = .ok message → Chat (⟨access, .command, message⟩ :: turns)
  | press {turns : List Turn} {access : CatalogAccess} {message : Message} {t : Turn} {b : Button} :
      Chat turns → t ∈ turns → b ∈ t.message.offers →
      callbackHandler access (.text b.callbackData) = .ok message →
      Chat (⟨access, .press (.text b.callbackData), message⟩ :: turns)

/-- What a turn keeps to: its buttons lead to what the sources gave in that very turn, and a
press to what they gave in the turn that offered the button. -/
structure Keeps (turns : List Turn) (t : Turn) : Prop where
  fits : t.message.Fits
  buttons : ∀ b ∈ t.message.offers, ∃ place : Place, b.LeadsTo place ∧ place.Given t.access
  press : ∀ data, t.event = .press data → ∃ place : Place, data = .text place.callback.wire ∧
    (∃ t' ∈ turns, place.Given t'.access) ∧ (place.Shows t.access t.message ∨ Notice t.message)

theorem Keeps.cons {turns : List Turn} {t : Turn} (h : Keeps turns t) (t' : Turn) :
    Keeps (t' :: turns) t := by
  refine ⟨h.fits, h.buttons, fun data hdata => ?_⟩
  obtain ⟨place, hdata, ⟨t₀, ht₀, hgiven⟩, hshows⟩ := h.press data hdata
  exact ⟨place, hdata, ⟨t₀, List.mem_cons_of_mem t' ht₀, hgiven⟩, hshows⟩

omit [UnicodeTables] in
theorem Answers.of_ok {x : Except HandlerExc Message} {P : Message → Prop} (h : Answers x P)
    (hx : x = .ok m) : P m := by
  rcases h with ⟨m', hm', hP⟩ | ⟨e, he, -⟩
  · rw [hx] at hm'
    cases hm'
    exact hP
  · rw [hx] at he
    cases he

/-- **Every button leads where it says.** In any chat, whatever the catalogs become between its
turns, every message fits Telegram's limits, every button leads to a product that its source
listed in that turn or to a variant that the product had in that turn, and a press of it is
answered with that product or variant, as that source gives it then, or with a notice. -/
theorem chat_navigates {turns : List Turn} (h : Chat turns) : ∀ t ∈ turns, Keeps turns t := by
  induction h with
  | start => simp
  | @command turns access message _ hm ih =>
    intro t ht
    rcases List.mem_cons.1 ht with rfl | ht
    · have hmenu := (injectedCatalogHandler_answers access).of_ok hm
      refine ⟨hmenu.fits, fun b hb => ?_, by rintro _ ⟨⟩⟩
      obtain ⟨source, item, -, hlist, hbutton⟩ := hmenu.buttons b hb
      obtain ⟨id, hid, hleads⟩ := hbutton.leads
      exact ⟨.product source id, hleads, .product hlist hid.symm⟩
    · exact (ih t ht).cons _
  | @press turns access message t₀ b _ ht₀ hb hm ih =>
    intro t ht
    rcases List.mem_cons.1 ht with rfl | ht
    · obtain ⟨place, hleads, hgiven⟩ := (ih t₀ ht₀).buttons b hb
      rw [hleads, callbackHandler_place] at hm
      have hpage := (Place.open_answers access place).of_ok hm
      refine ⟨hpage.fits, fun b' hb' => ?_, fun data hdata => ?_⟩
      · obtain ⟨variantId, hleads', hgiven'⟩ := hpage.buttons b' hb'
        exact ⟨_, hleads', hgiven'⟩
      · cases hdata
        exact ⟨place, congrArg Object.text hleads, ⟨t₀, List.mem_cons_of_mem _ ht₀, hgiven⟩,
          hpage.shows⟩
    · exact (ih t ht).cons _

end

/-! ## A chat -/

section

attribute [local instance] sampleTables

/-- What a handler that answers sends. -/
def sent (x : Except HandlerExc Message) : Message := x.toOption.getD refresh

theorem ok_sent {x : Except HandlerExc Message} (h : x.toOption.isSome = true) :
    x = .ok (sent x) := by
  cases x with
  | ok m => rfl
  | error e => cases h

def firstButton (m : Message) : Button := m.offers.headD ⟨[], [], none⟩

theorem firstButton_mem {m : Message} (h : m.offers.isEmpty = false) :
    firstButton m ∈ m.offers := by
  unfold firstButton
  cases hm : m.offers with
  | nil => simp [hm] at h
  | cons b bs => exact List.mem_cons_self

def sampleReader : CatalogReader where
  readCatalog := .ok sampleResponse
  getProduct id :=
    if id = str "a" then .ok (.found (sampleProduct (str "a") isDisplayText_a))
    else .ok (.notFound id)

def sampleAccess : CatalogAccess := .registry ⟨[(.khommo, sampleReader)], by simp, by simp⟩

def sampleMenu : Message := sent (injectedCatalogHandler sampleAccess)

def samplePage : Message :=
  sent (callbackHandler sampleAccess (.text (firstButton sampleMenu).callbackData))

def sampleQuote : Message :=
  sent (callbackHandler sampleAccess (.text (firstButton samplePage).callbackData))

/-- The menu, the product of its first button, and the price of its first variant. -/
def sampleChat : List Turn := [
  ⟨sampleAccess, .press (.text (firstButton samplePage).callbackData), sampleQuote⟩,
  ⟨sampleAccess, .press (.text (firstButton sampleMenu).callbackData), samplePage⟩,
  ⟨sampleAccess, .command, sampleMenu⟩]

theorem sampleChat_chat : Chat sampleChat := by
  refine .press (.press (.command .start (ok_sent (by decide +kernel))) List.mem_cons_self
    (firstButton_mem (by decide +kernel)) (ok_sent (by decide +kernel))) List.mem_cons_self
    (firstButton_mem (by decide +kernel)) (ok_sent (by decide +kernel))

theorem chat_navigates_sample :
    (firstButton samplePage).callbackData = str "2:qk:a:a" ∧ sampleQuote.keyboard = none ∧
      ∀ t ∈ sampleChat, Keeps sampleChat t :=
  ⟨by decide +kernel, by decide +kernel, chat_navigates sampleChat_chat⟩

end

end NyanShopBot.Bot
