import Mathlib.Data.List.Nodup
import Mathlib.Data.List.Perm.Basic
import NyanShopBot.Catalog.Models

/-!
# The catalog registry

`CatalogRegistry.readAggregate` merges the two live sources. `alternate` is what the
merge loop makes of two lists; `Merges` says what the response is made of, and
`read_aggregate` that the registry always returns it.
-/

namespace NyanShopBot.Catalog

open Py

/-! ## Alternating lists -/

section alternate

variable {α : Type}

/-- One element of each list in turn, then the rest of the longer one. -/
def alternate : List α → List α → List α
  | [], ys => ys
  | x :: xs, [] => x :: xs
  | x :: xs, y :: ys => x :: y :: alternate xs ys

@[simp] theorem alternate_nil (xs : List α) : alternate xs [] = xs := by
  cases xs <;> rfl

theorem alternate_perm : ∀ xs ys : List α, (alternate xs ys).Perm (xs ++ ys)
  | [], ys => .refl _
  | x :: xs, [] => by simp
  | x :: xs, y :: ys => by
    refine .cons x ?_
    refine ((alternate_perm xs ys).cons y).trans ?_
    exact List.perm_middle.symm

theorem mem_alternate {xs ys : List α} {a : α} : a ∈ alternate xs ys ↔ a ∈ xs ∨ a ∈ ys :=
  (alternate_perm xs ys).mem_iff.trans List.mem_append

/-- A selection that one list passes and no element of the other gives back the list. -/
theorem filter_alternate {p : α → Bool} : ∀ {xs ys : List α}, (∀ x ∈ xs, p x = true) →
    (∀ y ∈ ys, p y = false) → (alternate xs ys).filter p = xs
  | [], ys, _, hy => List.filter_eq_nil_iff.2 fun y h => by simp [hy y h]
  | x :: xs, [], hx, _ => List.filter_eq_self.2 hx
  | x :: xs, y :: ys, hx, hy => by
    have ih := @filter_alternate p xs ys (fun a h => hx a (List.mem_cons_of_mem x h))
      fun a h => hy a (List.mem_cons_of_mem y h)
    simp [alternate, hx x List.mem_cons_self, hy y List.mem_cons_self, ih]

theorem filter_alternate_right {p : α → Bool} : ∀ {xs ys : List α}, (∀ x ∈ xs, p x = false) →
    (∀ y ∈ ys, p y = true) → (alternate xs ys).filter p = ys
  | [], ys, _, hy => List.filter_eq_self.2 hy
  | x :: xs, [], hx, _ => List.filter_eq_nil_iff.2 fun a h => by simp [hx a h]
  | x :: xs, y :: ys, hx, hy => by
    have ih := @filter_alternate_right p xs ys (fun a h => hx a (List.mem_cons_of_mem x h))
      fun a h => hy a (List.mem_cons_of_mem y h)
    simp [alternate, hx x List.mem_cons_self, hy y List.mem_cons_self, ih]

/-- While neither list is exhausted the elements take turns. -/
theorem alternate_turns : ∀ {xs ys : List α} {i : Nat}, i < xs.length → i < ys.length →
    (alternate xs ys)[2 * i]? = xs[i]? ∧ (alternate xs ys)[2 * i + 1]? = ys[i]?
  | [], ys, i, hx, _ => by simp at hx
  | x :: xs, [], i, _, hy => by simp at hy
  | x :: xs, y :: ys, 0, _, _ => ⟨rfl, rfl⟩
  | x :: xs, y :: ys, i + 1, hx, hy => by
    simp only [List.length_cons] at hx hy
    have ih := @alternate_turns xs ys i (by omega) (by omega)
    rw [show 2 * (i + 1) = 2 * i + 1 + 1 by omega]
    simpa [alternate] using ih

end alternate

/-! ## The registry -/

/-- The readers by their source, each with what its read returns or raises. -/
structure CatalogRegistry where
  readers : List (Supplier × Except Exc CatalogResponse)
  readers_ne : readers ≠ []
  unique : (readers.map (·.1)).Nodup

def CatalogRegistry.sources (c : CatalogRegistry) : List Supplier := c.readers.map (·.1)

/-- `set(self.sources) == {"khommo", "vietshare"}`. -/
def CatalogRegistry.aggregateAvailable (c : CatalogRegistry) : Bool :=
  c.sources.all (·.isLive) && c.sources.contains .khommo && c.sources.contains .vietshare

def AggregateSourceReport.make (supplier : Supplier) (mode : Mode) (state : CatalogState)
    (freshness : Option CatalogFreshness) (error : Option CatalogError) (itemCount : Nat)
    (isPartial : Bool) (omittedCount : Nat) : Except Exc AggregateSourceReport :=
  if hlive : supplier.isLive = true then
    if hvalid : (reportChecks supplier mode state freshness error itemCount isPartial
        omittedCount).Pass then
      .ok ⟨supplier, mode, state, freshness, error, itemCount, isPartial, omittedCount, hlive,
        hvalid⟩
    else .error (reportChecks supplier mode state freshness error itemCount isPartial
      omittedCount).failure
  else .error (.validation none)

def AggregateCatalogResponse.make (state : AggregateCatalogState) (items : List CatalogProduct)
    (sources : List AggregateSourceReport) (isPartial : Bool) (omittedCount : Nat) :
    Except Exc AggregateCatalogResponse :=
  if htwo : 2 ≤ sources.length then
    if hvalid : (aggregateChecks state items sources isPartial omittedCount).Pass then
      .ok ⟨state, items, sources, isPartial, omittedCount, htwo, hvalid⟩
    else .error (aggregateChecks state items sources isPartial omittedCount).failure
  else .error (.validation none)

theorem AggregateCatalogResponse.make_ok {state : AggregateCatalogState}
    {items : List CatalogProduct} {sources : List AggregateSourceReport} {isPartial : Bool}
    {omittedCount : Nat} (htwo : 2 ≤ sources.length)
    (hvalid : (aggregateChecks state items sources isPartial omittedCount).Pass) :
    make state items sources isPartial omittedCount =
      .ok ⟨state, items, sources, isPartial, omittedCount, htwo, hvalid⟩ := by
  rw [make, dif_pos htwo, dif_pos hvalid]

def unavailableError : CatalogError where
  code := .sourceUnavailable
  message := str "This read-only catalog source " ++ str "is unavailable."
  retryable := true
  text := by decide

/-- `_unavailable_report`. -/
def unavailableReport (source : Supplier) : Except Exc AggregateSourceReport :=
  AggregateSourceReport.make source source.mode .error none (some unavailableError) 0 false 0

/-- `_report_from_response`. -/
def reportFromResponse (source : Supplier) (response : CatalogResponse) :
    Except Exc AggregateSourceReport :=
  if response.supplier ≠ source ∨ response.mode ≠ source.mode then unavailableReport source
  else AggregateSourceReport.make source response.mode response.state response.freshness
    response.error response.items.length response.isPartial response.omittedCount

/-- The report of a source and the queue of its items. -/
def sourceResult : Supplier × Except Exc CatalogResponse →
    Except Exc (AggregateSourceReport × List CatalogProduct)
  | (source, .error e) =>
    if e.isException then (unavailableReport source).map fun report => (report, [])
    else .error e
  | (source, .ok response) => (reportFromResponse source response).map fun report =>
    (report, if report.state = .error then [] else response.items)

/-- The merge loop: in each round every queue that is not empty gives its first item. -/
def mergeRounds : Nat → List (List CatalogProduct) → List CatalogProduct
  | 0, _ => []
  | n + 1, queues =>
    if queues.all (·.isEmpty) then []
    else queues.filterMap List.head? ++ mergeRounds n (queues.map List.tail)

def mergeQueues (queues : List (List CatalogProduct)) : List CatalogProduct :=
  mergeRounds (queues.map List.length).sum queues

def CatalogRegistry.readAggregate (c : CatalogRegistry) : Except Exc AggregateCatalogResponse :=
  if c.aggregateAvailable then do
    let results ← (c.readers.filter (·.1.isLive)).mapM sourceResult
    let reports := results.map (·.1)
    let items := mergeQueues (results.map (·.2))
    let state := aggregateState (!items.isEmpty) reports
    AggregateCatalogResponse.make state items reports (state = .partly)
      (reports.map (·.omittedCount)).sum
  else .error (.lookup "aggregate catalog is not configured")

/-! ## Reports -/

/-- The response that the merge takes from a source. -/
def accepted : Supplier × Except Exc CatalogResponse → Option CatalogResponse
  | (source, .ok response) =>
    if response.supplier = source ∧ response.mode = source.mode ∧ response.state ≠ .error then
      some response
    else none
  | (_, .error _) => none

/-- The items that a source contributes. -/
def contributed (reader : Supplier × Except Exc CatalogResponse) : List CatalogProduct :=
  (accepted reader).elim [] (·.items)

/-- What the report of a source says of its outcome. -/
structure Reports (reader : Supplier × Except Exc CatalogResponse)
    (report : AggregateSourceReport) : Prop where
  source : report.supplier = reader.1 ∧ report.mode = reader.1.mode
  itemCount : report.itemCount = (contributed reader).length
  /-- A response of the source itself is repeated, -/
  own : ∀ response, reader.2 = .ok response → response.supplier = reader.1 →
    response.mode = reader.1.mode → report.state = response.state ∧
      report.freshness = response.freshness ∧ report.error = response.error ∧
      report.isPartial = response.isPartial ∧ report.omittedCount = response.omittedCount
  /-- any other one and an exception leave the source unavailable. -/
  other : (∀ response, reader.2 = .ok response →
      ¬ (response.supplier = reader.1 ∧ response.mode = reader.1.mode)) →
    report.state = .error ∧ report.freshness = none ∧ report.error = some unavailableError ∧
      report.isPartial = false ∧ report.omittedCount = 0

theorem unavailableReport_ok {source : Supplier} (h : source.isLive = true) :
    ∃ report, unavailableReport source = .ok report ∧ report.supplier = source ∧
      report.mode = source.mode ∧ report.state = .error ∧ report.freshness = none ∧
      report.error = some unavailableError ∧ report.itemCount = 0 ∧ report.isPartial = false ∧
      report.omittedCount = 0 := by
  have hpass :
      (reportChecks source source.mode .error none (some unavailableError) 0 false 0).Pass :=
    by simp [Checks.Pass, reportChecks, reportStateChecks]
  refine ⟨⟨source, source.mode, .error, none, some unavailableError, 0, false, 0, h, hpass⟩, ?_,
    rfl, rfl, rfl, rfl, rfl, rfl, rfl, rfl⟩
  unfold unavailableReport AggregateSourceReport.make
  rw [dif_pos h, dif_pos hpass]

/-- What a valid response shows passes the checks of a report. -/
theorem reportChecks_pass (r : CatalogResponse) :
    (reportChecks r.supplier r.mode r.state r.freshness r.error r.items.length r.isPartial
      r.omittedCount).Pass := by
  have hv := r.valid
  unfold responseChecks at hv
  unfold reportChecks
  cases hs : r.state <;> rw [hs] at hv <;>
    simp [Checks.Pass, responseStateChecks, reportStateChecks, CatalogState.populated] at hv ⊢ <;>
    grind

/-- An erroneous response has no items. -/
theorem items_of_error {r : CatalogResponse} (h : r.state = .error) : r.items = [] := by
  have hv := r.valid
  unfold responseChecks at hv
  rw [h] at hv
  simp [Checks.Pass, responseStateChecks] at hv
  exact hv.2.2.2.2.1.1

theorem omitted_of_error {r : CatalogResponse} (h : r.state = .error) : r.omittedCount = 0 := by
  have hv := r.valid
  unfold responseChecks at hv
  rw [h] at hv
  simp [Checks.Pass, CatalogState.populated] at hv
  obtain ⟨-, -, hpart, hpop, -⟩ := hv
  rw [hpop] at hpart
  simpa using hpart.symm

theorem items_match (r : CatalogResponse) :
    ∀ item ∈ r.items, item.supplier = r.supplier ∧ item.mode = r.mode := by
  have hv := r.valid
  unfold responseChecks at hv
  simp [Checks.Pass] at hv
  exact hv.2.1

/-- The report of a source's own response repeats its evidence. -/
theorem reportFromResponse_own (r : CatalogResponse) (hm : r.mode = r.supplier.mode)
    (hlive : r.supplier.isLive = true) :
    ∃ report, reportFromResponse r.supplier r = .ok report ∧
      report.itemCount = r.items.length ∧ report.supplier = r.supplier ∧
      report.mode = r.mode ∧ report.state = r.state ∧ report.freshness = r.freshness ∧
      report.error = r.error ∧ report.isPartial = r.isPartial ∧
      report.omittedCount = r.omittedCount := by
  refine ⟨⟨r.supplier, r.mode, r.state, r.freshness, r.error, r.items.length, r.isPartial,
    r.omittedCount, hlive, reportChecks_pass r⟩, ?_, rfl, rfl, rfl, rfl, rfl, rfl, rfl, rfl⟩
  unfold reportFromResponse AggregateSourceReport.make
  rw [if_neg (by simp [hm]), dif_pos hlive, dif_pos (reportChecks_pass r)]

/-- **Every outcome gives a report**, and the items that go with it. -/
theorem sourceResult_ok {reader : Supplier × Except Exc CatalogResponse}
    (hlive : reader.1.isLive = true) (hexc : ∀ e, reader.2 = .error e → e.isException = true) :
    ∃ report, sourceResult reader = .ok (report, contributed reader) ∧ Reports reader report := by
  obtain ⟨source, outcome⟩ := reader
  obtain ⟨report, hrep, hsup, hmode, hstate, hfresh, herr, hcount, hpart, homit⟩ :=
    unavailableReport_ok hlive
  cases outcome with
  | error e =>
    refine ⟨report, ?_, ⟨hsup, hmode⟩, hcount, fun r h => (by cases h), fun _ => ?_⟩
    · simp [sourceResult, hexc e rfl, hrep, Except.map, contributed, accepted]
    · exact ⟨hstate, hfresh, herr, hpart, homit⟩
  | ok response =>
    by_cases hmatch : response.supplier = source ∧ response.mode = source.mode
    · obtain ⟨rfl, hm⟩ := hmatch
      obtain ⟨own, hown, hcount, hout⟩ := reportFromResponse_own response hm hlive
      have hitems : contributed (response.supplier, .ok response) = response.items := by
        by_cases he : response.state = .error
        · simp [contributed, accepted, he, items_of_error he]
        · simp [contributed, accepted, he, hm]
      refine ⟨own, ?_, ⟨hout.1, hout.2.1.trans hm⟩, hcount.trans (by rw [hitems]), ?_, ?_⟩
      · rw [sourceResult, hown, hitems]
        by_cases he : response.state = .error
        · simp [Except.map, hout.2.2.1, he, items_of_error he]
        · simp [Except.map, hout.2.2.1, he]
      · intro r hr _ _
        cases hr
        exact hout.2.2
      · intro h
        exact absurd ⟨rfl, hm⟩ (h response rfl)
    · have hother : reportFromResponse source response = .ok report := by
        unfold reportFromResponse
        rw [if_pos (by grind), hrep]
      refine ⟨report, ?_, ⟨hsup, hmode⟩, ?_, ?_, fun _ => ⟨hstate, hfresh, herr, hpart, homit⟩⟩
      · have hno : contributed (source, .ok response) = [] := by
          have hno : accepted (source, .ok response) = none := if_neg fun h => hmatch ⟨h.1, h.2.1⟩
          rw [contributed, hno]
          rfl
        rw [sourceResult, hother, hno]
        simp [Except.map, hstate]
      · have hno : accepted (source, .ok response) = none := if_neg fun h => hmatch ⟨h.1, h.2.1⟩
        rw [hcount, contributed, hno]
        rfl
      · intro r hr hs hm
        cases hr
        exact absurd ⟨hs, hm⟩ hmatch

/-! ## The merge -/

/-- Enough rounds alternate two queues until both are exhausted. -/
theorem mergeRounds_pair : ∀ {n : Nat} {xs ys : List CatalogProduct},
    xs.length + ys.length ≤ n → mergeRounds n [xs, ys] = alternate xs ys
  | 0, xs, ys, h => by
    rw [List.eq_nil_of_length_eq_zero (l := xs) (by omega),
      List.eq_nil_of_length_eq_zero (l := ys) (by omega)]
    rfl
  | n + 1, [], [], _ => rfl
  | n + 1, [], y :: ys, h => by
    simp only [List.length_nil, List.length_cons] at h
    have ih : mergeRounds n [[], ys] = ys := mergeRounds_pair (by simp; omega)
    simp [mergeRounds, alternate, ih, List.filterMap_cons]
  | n + 1, x :: xs, [], h => by
    simp only [List.length_nil, List.length_cons] at h
    have ih : mergeRounds n [xs, []] = xs :=
      (mergeRounds_pair (by simp; omega)).trans (alternate_nil xs)
    simp [mergeRounds, alternate, ih]
  | n + 1, x :: xs, y :: ys, h => by
    simp only [List.length_cons] at h
    have ih : mergeRounds n [xs, ys] = alternate xs ys := mergeRounds_pair (by omega)
    simp [mergeRounds, alternate, ih]

theorem mergeQueues_pair (xs ys : List CatalogProduct) :
    mergeQueues [xs, ys] = alternate xs ys :=
  mergeRounds_pair (by simp)

/-- The state that the outcome of a source stands for. -/
def outcomeState (reader : Supplier × Except Exc CatalogResponse) : CatalogState :=
  (accepted reader).elim .error (·.state)

/-- The source is stale, unavailable or incomplete. -/
def outcomeDegraded (reader : Supplier × Except Exc CatalogResponse) : Bool :=
  (accepted reader).elim true fun response => response.isPartial || response.state = .stale

/-- The items that the source left out. -/
def outcomeOmitted (reader : Supplier × Except Exc CatalogResponse) : Nat :=
  (accepted reader).elim 0 (·.omittedCount)

/-- What the aggregate response is, from the outcomes of the two sources. -/
structure Merges (a b : Supplier × Except Exc CatalogResponse)
    (r : AggregateCatalogResponse) : Prop where
  /-- Exactly the items of the matching sources that did not fail, -/
  exact : ∀ item, item ∈ r.items ↔ ∃ reader ∈ [a, b], ∃ response, reader.2 = .ok response ∧
    response.supplier = reader.1 ∧ response.mode = reader.1.mode ∧ response.state ≠ .error ∧
    item ∈ response.items
  /-- each once, -/
  once : r.items.Nodup
  /-- those of a source in its order, whatever the other one did, -/
  kept : ∀ reader ∈ [a, b], r.items.filter (·.supplier = reader.1) = contributed reader
  /-- and taking turns until one source is exhausted. -/
  turns : ∀ i, i < (contributed a).length → i < (contributed b).length →
    r.items[2 * i]? = (contributed a)[i]? ∧ r.items[2 * i + 1]? = (contributed b)[i]?
  rest : r.items = alternate (contributed a) (contributed b)
  reports : List.Forall₂ Reports [a, b] r.sources
  state : r.state =
    if r.items ≠ [] then
      if outcomeDegraded a ∨ outcomeDegraded b then .partly else .complete
    else if outcomeState a = .empty ∧ outcomeState b = .empty then .empty
    else .error
  isPartial : r.isPartial = decide (r.state = .partly)
  omittedCount : r.omittedCount = outcomeOmitted a + outcomeOmitted b

/-- An outcome either gives an accepted response, or a failed one without items. -/
theorem Reports.cases {reader : Supplier × Except Exc CatalogResponse}
    {report : AggregateSourceReport} (h : Reports reader report) :
    (∃ response, accepted reader = some response ∧ report.state = response.state ∧
      report.isPartial = response.isPartial ∧ report.omittedCount = response.omittedCount ∧
      response.state ≠ .error) ∨
    (accepted reader = none ∧ report.state = .error ∧ report.omittedCount = 0) := by
  obtain ⟨source, outcome⟩ := reader
  cases outcome with
  | error e =>
    obtain ⟨hstate, -, -, -, homit⟩ := h.other fun r hr => by cases hr
    exact .inr ⟨rfl, hstate, homit⟩
  | ok response =>
    by_cases hm : response.supplier = source ∧ response.mode = source.mode
    · obtain ⟨hstate, -, -, hpart, homit⟩ := h.own response rfl hm.1 hm.2
      by_cases he : response.state = .error
      · refine .inr ⟨by simp [accepted, he], hstate.trans he, homit.trans ?_⟩
        exact omitted_of_error he
      · exact .inl ⟨response, by simp [accepted, hm, he], hstate, hpart, homit, he⟩
    · obtain ⟨hstate, -, -, -, homit⟩ := h.other fun r hr hs => by
        cases hr
        exact hm hs
      exact .inr ⟨if_neg fun h => hm ⟨h.1, h.2.1⟩, hstate, homit⟩

theorem Reports.state_eq {reader : Supplier × Except Exc CatalogResponse}
    {report : AggregateSourceReport} (h : Reports reader report) :
    report.state = outcomeState reader := by
  obtain ⟨response, hacc, hstate, -⟩ | ⟨hacc, hstate, -⟩ := h.cases
  · simp [outcomeState, hacc, hstate]
  · simp [outcomeState, hacc, hstate]

theorem Reports.degraded_eq {reader : Supplier × Except Exc CatalogResponse}
    {report : AggregateSourceReport} (h : Reports reader report) :
    report.degraded = outcomeDegraded reader := by
  unfold AggregateSourceReport.degraded outcomeDegraded
  obtain ⟨response, hacc, hstate, hpart, -, he⟩ | ⟨hacc, hstate, -⟩ := h.cases
  · simp [hacc, hstate, hpart, he]
  · simp [hacc, hstate]

theorem Reports.omitted_eq {reader : Supplier × Except Exc CatalogResponse}
    {report : AggregateSourceReport} (h : Reports reader report) :
    report.omittedCount = outcomeOmitted reader := by
  obtain ⟨response, hacc, -, -, homit, -⟩ | ⟨hacc, -, homit⟩ := h.cases
  · simp [outcomeOmitted, hacc, homit]
  · simp [outcomeOmitted, hacc, homit]

/-- Every contributed item is one of the source itself. -/
theorem contributed_match {reader : Supplier × Except Exc CatalogResponse} {item : CatalogProduct}
    (h : item ∈ contributed reader) :
    item.supplier = reader.1 ∧ item.mode = reader.1.mode := by
  obtain ⟨source, outcome⟩ := reader
  cases outcome with
  | error e => simp [contributed, accepted] at h
  | ok response =>
    by_cases hacc : response.supplier = source ∧ response.mode = source.mode ∧
        response.state ≠ .error
    · simp only [contributed, accepted, if_pos hacc, Option.elim_some] at h
      obtain ⟨hs, hm⟩ := items_match response item h
      exact ⟨hs.trans hacc.1, hm.trans hacc.2.1⟩
    · simp [contributed, accepted, hacc] at h

theorem mem_contributed {reader : Supplier × Except Exc CatalogResponse} {item : CatalogProduct} :
    item ∈ contributed reader ↔ ∃ response, reader.2 = .ok response ∧
      response.supplier = reader.1 ∧ response.mode = reader.1.mode ∧ response.state ≠ .error ∧
      item ∈ response.items := by
  obtain ⟨source, outcome⟩ := reader
  cases outcome with
  | error e => simp [contributed, accepted]
  | ok response =>
    by_cases hacc : response.supplier = source ∧ response.mode = source.mode ∧
        response.state ≠ .error
    · simp only [contributed, accepted, if_pos hacc, Option.elim_some]
      exact ⟨fun h => ⟨response, rfl, hacc.1, hacc.2.1, hacc.2.2, h⟩,
        by rintro ⟨r, hr, _, _, _, h⟩; cases hr; exact h⟩
    · simp only [contributed, accepted, if_neg hacc, Option.elim_none]
      refine ⟨fun h => by simp at h, ?_⟩
      rintro ⟨r, hr, hs, hm, he, _⟩
      cases hr
      exact absurd ⟨hs, hm, he⟩ hacc

/-- Ids that are distinct in the response are distinct in what it contributes. -/
theorem contributed_nodup {reader : Supplier × Except Exc CatalogResponse}
    (h : ∀ response, reader.2 = .ok response → (response.items.map (·.id)).Nodup) :
    ((contributed reader).map (·.identity)).Nodup := by
  have hids : ((contributed reader).map (·.id)).Nodup := by
    obtain ⟨source, outcome⟩ := reader
    cases outcome with
    | error e => simp [contributed, accepted]
    | ok response =>
      by_cases hacc : response.supplier = source ∧ response.mode = source.mode ∧
          response.state ≠ .error
      · simpa [contributed, accepted, hacc] using h response rfl
      · simp [contributed, accepted, hacc]
  refine List.Nodup.of_map Prod.snd ?_
  rw [List.map_map]
  exact hids

/-- Two live sources, each once. -/
theorem CatalogRegistry.readers_pair {c : CatalogRegistry} (h : c.aggregateAvailable = true) :
    ∃ a b, c.readers = [a, b] ∧ a.1.isLive = true ∧ b.1.isLive = true ∧ a.1 ≠ b.1 ∧
      ((a.1 = .khommo ∧ b.1 = .vietshare) ∨ (a.1 = .vietshare ∧ b.1 = .khommo)) := by
  obtain ⟨readers, hne, huniq⟩ := c
  simp only [aggregateAvailable, sources] at h huniq
  rcases readers with _ | ⟨a, _ | ⟨b, _ | ⟨x, rest⟩⟩⟩
  · exact absurd rfl hne
  · obtain ⟨source, outcome⟩ := a
    cases source <;> simp [Supplier.isLive] at h
  · refine ⟨a, b, rfl, ?_⟩
    obtain ⟨source, outcome⟩ := a
    obtain ⟨other, outcome'⟩ := b
    cases source <;> cases other <;> simp [Supplier.isLive] at h huniq ⊢
  · obtain ⟨source, outcome⟩ := a
    obtain ⟨other, outcome'⟩ := b
    obtain ⟨third, outcome''⟩ := x
    cases source <;> cases other <;> cases third <;> simp [Supplier.isLive] at h huniq

section pair

variable {a b : Supplier × Except Exc CatalogResponse}

/-- The items of one of two different sources, in the merge of both. -/
theorem filter_merge_left (hne : a.1 ≠ b.1) :
    (alternate (contributed a) (contributed b)).filter (·.supplier = a.1) = contributed a := by
  refine filter_alternate (fun x hx => ?_) fun y hy => ?_
  · simp [(contributed_match hx).1]
  · simp [(contributed_match hy).1, hne.symm]

theorem filter_merge_right (hne : a.1 ≠ b.1) :
    (alternate (contributed a) (contributed b)).filter (·.supplier = b.1) = contributed b := by
  refine filter_alternate_right (fun x hx => ?_) fun y hy => ?_
  · simp [(contributed_match hx).1, hne]
  · simp [(contributed_match hy).1]

/-- Items of different sources differ by their source. -/
theorem merge_nodup (hne : a.1 ≠ b.1)
    (ha : ((contributed a).map (·.identity)).Nodup)
    (hb : ((contributed b).map (·.identity)).Nodup) :
    ((alternate (contributed a) (contributed b)).map (·.identity)).Nodup := by
  refine ((alternate_perm _ _).map _).nodup_iff.2 ?_
  rw [List.map_append]
  refine List.nodup_append.2 ⟨ha, hb, fun x hx y hy hxy => hne ?_⟩
  obtain ⟨p, hp, rfl⟩ := List.mem_map.1 hx
  obtain ⟨q, hq, rfl⟩ := List.mem_map.1 hy
  have hs : p.supplier = q.supplier := congrArg Prod.fst hxy
  rw [← (contributed_match hp).1, ← (contributed_match hq).1, hs]

/-- **The merge passes the checks of the aggregate response.** -/
theorem merge_pass {ra rb : AggregateSourceReport} (hra : Reports a ra) (hrb : Reports b rb)
    (hpair : (a.1 = .khommo ∧ b.1 = .vietshare) ∨ (a.1 = .vietshare ∧ b.1 = .khommo))
    (ha : ((contributed a).map (·.identity)).Nodup)
    (hb : ((contributed b).map (·.identity)).Nodup) {items : List CatalogProduct}
    (hitems : items = alternate (contributed a) (contributed b)) :
    (aggregateChecks (aggregateState (!items.isEmpty) [ra, rb]) items [ra, rb]
      (aggregateState (!items.isEmpty) [ra, rb] = .partly)
      (([ra, rb].map (·.omittedCount)).sum)).Pass := by
  have hne : a.1 ≠ b.1 := by rcases hpair with ⟨h, h'⟩ | ⟨h, h'⟩ <;> simp [h, h']
  have hids := merge_nodup hne ha hb
  have hleft := filter_merge_left (a := a) (b := b) hne
  have hright := filter_merge_right (a := a) (b := b) hne
  rw [← hitems] at hids hleft hright
  have hmode : ∀ item ∈ items, (item.supplier = a.1 ∨ item.supplier = b.1) ∧
      item.mode = if item.supplier = .khommo then .khommoReadonly else .vietshareReadonly := by
    intro item hmem
    rw [hitems, mem_alternate] at hmem
    rcases hmem with hmem | hmem <;> obtain ⟨hs, hm⟩ := contributed_match hmem <;>
      refine ⟨by simp [hs], ?_⟩ <;> rw [hm, hs] <;>
      rcases hpair with ⟨h, h'⟩ | ⟨h, h'⟩ <;> simp [h, h', Supplier.mode]
  intro check hcheck
  simp only [aggregateChecks, List.mem_cons, List.not_mem_nil, or_false] at hcheck
  rcases hcheck with rfl | rfl | rfl | rfl | rfl | rfl | rfl | rfl
  · simp [hra.source.1, hrb.source.1, hne]
  · rcases hpair with ⟨h, h'⟩ | ⟨h, h'⟩ <;>
      simp [hra.source.1, hrb.source.1, h, h', Supplier.isLive]
  · simpa using hids
  · simp only [List.all_cons, List.all_nil, hra.source.1, hrb.source.1, hleft, hright,
      hra.itemCount, hrb.itemCount]
    simp
  · simp only [List.all_eq_true]
    intro item hmem
    have h := hmode item hmem
    simpa [hra.source.1, hrb.source.1] using h
  · simp
  · simp
  · simp

end pair

/-- **The aggregate catalog is a faithful merge of its sources**: whatever the two reads
return or raise, the registry answers, with every item of every source that did not
fail and no other item, in turns, and with the state that the outcomes stand for. -/
theorem read_aggregate (c : CatalogRegistry) (havail : c.aggregateAvailable = true)
    (hexc : ∀ reader ∈ c.readers, ∀ e, reader.2 = .error e → e.isException = true)
    (hids : ∀ reader ∈ c.readers, ∀ response, reader.2 = .ok response →
      (response.items.map (·.id)).Nodup) :
    ∃ a b r, c.readers = [a, b] ∧ c.readAggregate = .ok r ∧ Merges a b r := by
  obtain ⟨a, b, hread, hla, hlb, hne, hpair⟩ := c.readers_pair havail
  rw [hread] at hexc hids
  obtain ⟨ra, hresa, hra⟩ := sourceResult_ok hla (hexc a (by simp))
  obtain ⟨rb, hresb, hrb⟩ := sourceResult_ok hlb (hexc b (by simp))
  have hna := contributed_nodup (hids a (by simp))
  have hnb := contributed_nodup (hids b (by simp))
  have hq := mergeQueues_pair (contributed a) (contributed b)
  have hpass := merge_pass hra hrb hpair hna hnb hq
  have htwo : 2 ≤ [ra, rb].length := Nat.le_refl 2
  refine ⟨a, b, ⟨_, _, _, _, _, htwo, hpass⟩, hread, ?_, ?_⟩
  · have hboth : ([a, b].mapM sourceResult : Except Exc _) =
        .ok [(ra, contributed a), (rb, contributed b)] := by
      simp [hresa, hresb, bind, Except.bind, pure, Except.pure]
    unfold CatalogRegistry.readAggregate
    rw [if_pos havail, hread]
    simp only [List.filter_cons, hla, hlb, if_true, List.filter_nil, hboth]
    exact AggregateCatalogResponse.make_ok htwo hpass
  · have hids := merge_nodup hne hna hnb
    refine ⟨fun item => ?_, ?_, ?_, fun i ha hb => ?_, hq, ?_, ?_, rfl, ?_⟩
    · simp [hq, mem_alternate, mem_contributed]
    · rw [← hq] at hids
      exact List.Nodup.of_map _ hids
    · simp [hq, filter_merge_left hne, filter_merge_right hne]
    · simpa [hq] using alternate_turns ha hb
    · exact .cons hra (.cons hrb .nil)
    · simp [aggregateState, hra.state_eq, hrb.state_eq, hra.degraded_eq, hrb.degraded_eq]
    · simp [hra.omitted_eq, hrb.omitted_eq]

/-! ## A run -/

def sampleMoney : Money := ⟨1200, str "VND", isCurrencyCode_vnd⟩

def sampleVariant (id : Str) (h : isDisplayText id = true) : CatalogVariant where
  id := id
  name := id
  mapping := ⟨str "khommo", id, str "khommo", id, .pending, by
    simp only [h, Bool.and_true]; decide +kernel, rfl⟩
  price := sampleMoney
  availableQuantity := 3
  texts := by simp only [h]; rfl

def sampleProduct (id : Str) (h : isDisplayText id = true) : CatalogProduct where
  id := id
  name := id
  description := id
  supplier := .khommo
  mode := .khommoReadonly
  price := sampleMoney
  availableQuantity := 3
  variants := [sampleVariant id h]
  texts := by simp only [h]; rfl
  variants_ne := by simp
  valid := by simp [Checks.Pass, productChecks, sampleVariant]

theorem isDisplayText_a : isDisplayText (str "a") = true := by decide +kernel

theorem isDisplayText_b : isDisplayText (str "b") = true := by decide +kernel

/-- A fresh read of two products. -/
def sampleResponse : CatalogResponse where
  supplier := .khommo
  mode := .khommoReadonly
  state := .fresh
  freshness := some ⟨.fresh, 0, 5, 60, by decide, by decide, by decide⟩
  items := [sampleProduct (str "a") isDisplayText_a, sampleProduct (str "b") isDisplayText_b]
  error := none
  isPartial := false
  omittedCount := 0
  valid := by decide +kernel

theorem isDisplayText_c : isDisplayText (str "c") = true := by decide +kernel

def vietshareProduct (id : Str) (h : isDisplayText id = true) : CatalogProduct where
  __ := sampleProduct id h
  supplier := .vietshare
  mode := .vietshareReadonly
  variants := [{ sampleVariant id h with
    mapping := ⟨str "vietshare", id, str "vietshare", id, .pending, by
      simp only [h, Bool.and_true]; decide +kernel, rfl⟩ }]
  variants_ne := by simp
  valid := by simp [Checks.Pass, productChecks, sampleProduct, sampleVariant]

def vietshareResponse : CatalogResponse where
  __ := sampleResponse
  supplier := .vietshare
  mode := .vietshareReadonly
  items := [vietshareProduct (str "c") isDisplayText_c]
  valid := by decide +kernel

/-- Both sources have products. -/
def sampleRegistry : CatalogRegistry where
  readers := [(.khommo, .ok sampleResponse), (.vietshare, .ok vietshareResponse)]
  readers_ne := by simp
  unique := by decide

theorem read_aggregate_sample :
    ∃ a b r, sampleRegistry.readers = [a, b] ∧ sampleRegistry.readAggregate = .ok r ∧
      Merges a b r ∧ (alternate (contributed a) (contributed b)).map (·.id) =
        [str "a", str "c", str "b"] := by
  obtain ⟨a, b, r, hreaders, hr, hmerges⟩ := read_aggregate sampleRegistry (by decide)
    (fun reader hmem e he => by
      simp only [sampleRegistry, List.mem_cons, List.not_mem_nil, or_false] at hmem
      rcases hmem with rfl | rfl <;> cases he)
    (fun reader hmem response hr => by
      simp only [sampleRegistry, List.mem_cons, List.not_mem_nil, or_false] at hmem
      rcases hmem with rfl | rfl <;> cases hr <;> decide +kernel)
  refine ⟨a, b, r, hreaders, hr, hmerges, ?_⟩
  cases hreaders
  decide +kernel

end NyanShopBot.Catalog
