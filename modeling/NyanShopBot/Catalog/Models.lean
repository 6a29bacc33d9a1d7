import Mathlib.Algebra.GroupWithZero.Nat
import NyanShopBot.Py.Basic

/-!
# Catalog models

The normalized, read-only catalog values. Each one carries what its validators check,
`checks` and the fields' own constraints, so an invalid value cannot be built. A
count or an amount is a natural number, a time an instant in microseconds.
-/

namespace NyanShopBot.Catalog

open Py

/-- What the catalog code can raise: a `ValidationError` (with the message of its
validator, none for a field), a `LookupError`, an unknown offer, an unavailable
repository, a revision conflict, any other `Exception`, and a `BaseException`. -/
inductive Exc where
  | validation (message : Option String)
  | lookup (message : String)
  | unknownOffer (message : String)
  | unavailable (message : String)
  | revisionConflict
  | exception
  | fatal
deriving DecidableEq

/-- `isinstance(e, Exception)`. -/
def Exc.isException : Exc → Bool
  | fatal => false
  | _ => true

/-- The conditions of a validator in their order, each with its message. -/
abbrev Checks := List (Bool × String)

def Checks.Pass (checks : Checks) : Prop := ∀ c ∈ checks, c.1 = true

instance (checks : Checks) : Decidable checks.Pass :=
  inferInstanceAs (Decidable (∀ c ∈ checks, c.1 = true))

/-- The first condition that fails. -/
def Checks.failure (checks : Checks) : Exc :=
  .validation ((checks.find? (!·.1)).map (·.2))

/-! ## Fields -/

/-- White space of a pattern: the Unicode property. -/
def isWhiteSpace (c : CodePoint) : Bool := isSpace c && !(28 ≤ c.val && c.val ≤ 31)

/-- A text that can be validated. -/
def isUtf8 (s : Str) : Bool := !s.any isSurrogate

/-- `Identifier` and `DisplayText`. -/
def isDisplayText (s : Str) : Bool := isUtf8 s && s.any (!isWhiteSpace ·)

/-- `CurrencyCode`. -/
def isCurrencyCode (s : Str) : Bool :=
  s.length = 3 && s.all fun c => 0x41 ≤ c.val && c.val ≤ 0x5a

/-! ## Sources -/

inductive Supplier where
  | mock | khommo | vietshare
deriving DecidableEq

def Supplier.value : Supplier → Str
  | mock => str "mock"
  | khommo => str "khommo"
  | vietshare => str "vietshare"

/-- `LiveCatalogSupplier`. -/
def Supplier.isLive : Supplier → Bool
  | mock => false
  | khommo | vietshare => true

inductive Mode where
  | mock | khommoReadonly | vietshareReadonly
deriving DecidableEq

/-- `_MODE_BY_SUPPLIER`. -/
def Supplier.mode : Supplier → Mode
  | mock => .mock
  | khommo => .khommoReadonly
  | vietshare => .vietshareReadonly

/-! ## Products -/

/-- An amount in the minor unit of a currency. -/
structure Money where
  amountMinor : Nat
  currency : Str
  valid : isCurrencyCode currency = true
deriving DecidableEq

theorem isCurrencyCode_vnd : isCurrencyCode (str "VND") = true := by decide +kernel

inductive MappingApproval where
  | pending
  | approved (approvedByAdminId : Str) (approvedAt : Int)
deriving DecidableEq

/-- The supplier's identities of a product and of a variant of it. -/
structure SupplierMapping where
  productSupplierId : Str
  supplierProductId : Str
  variantSupplierId : Str
  supplierVariantId : Str
  approval : MappingApproval
  texts : isDisplayText productSupplierId && isDisplayText supplierProductId &&
    isDisplayText variantSupplierId && isDisplayText supplierVariantId
  sameSupplier : productSupplierId = variantSupplierId
deriving DecidableEq

structure CatalogVariant where
  id : Str
  name : Str
  mapping : SupplierMapping
  price : Money
  availableQuantity : Nat
  texts : isDisplayText id && isDisplayText name
deriving DecidableEq

/-- `variants_have_unique_identities`. -/
def productChecks (price : Money) (availableQuantity : Nat) (variants : List CatalogVariant) :
    Checks := [
  ((variants.map (·.id)).Nodup, "catalog variant ids must be unique within a product"),
  ((variants.map fun v => (v.mapping.variantSupplierId, v.mapping.supplierVariantId)).Nodup,
    "supplier variant identities must be unique within a product"),
  (variants.head?.all (·.price = price), "compatibility price must match the primary variant"),
  (variants.head?.all (·.availableQuantity = availableQuantity),
    "compatibility quantity must match the primary variant")]

structure CatalogProduct where
  id : Str
  name : Str
  description : Str
  supplier : Supplier
  mode : Mode
  price : Money
  availableQuantity : Nat
  variants : List CatalogVariant
  texts : isDisplayText id && isDisplayText name && isDisplayText description
  variants_ne : variants ≠ []
  valid : (productChecks price availableQuantity variants).Pass
deriving DecidableEq

/-- The source-qualified identity. -/
def CatalogProduct.identity (p : CatalogProduct) : Supplier × Str := (p.supplier, p.id)

/-! ## One source -/

inductive FreshnessStatus where
  | fresh | stale
deriving DecidableEq

/-- The evidence for fresh or stale, which agrees with its times. -/
structure CatalogFreshness where
  status : FreshnessStatus
  observedAt : Int
  evaluatedAt : Int
  maxAgeSeconds : Nat
  positive : 0 < maxAgeSeconds
  ordered : observedAt ≤ evaluatedAt
  valid : status =
    if maxAgeSeconds * 1000000 < evaluatedAt - observedAt then .stale else .fresh
deriving DecidableEq

inductive CatalogErrorCode where
  | sourceUnavailable | unsupported
deriving DecidableEq

structure CatalogError where
  code : CatalogErrorCode
  message : Str
  retryable : Bool
  text : isDisplayText message = true
deriving DecidableEq

inductive CatalogState where
  | fresh | stale | empty | error
deriving DecidableEq

/-- The states of a catalog with items. -/
def CatalogState.populated : CatalogState → Bool
  | fresh | stale => true
  | empty | error => false

def isStatus (status : FreshnessStatus) (freshness : Option CatalogFreshness) : Bool :=
  freshness.all (·.status = status)

/-- What `CatalogResponse` checks in each state. -/
def responseStateChecks (freshness : Option CatalogFreshness) (hasItems : Bool)
    (error : Option CatalogError) : CatalogState → Checks
  | .fresh => [
      (hasItems && freshness.isSome, "fresh catalog requires items and freshness evidence"),
      (isStatus .fresh freshness && error.isNone,
        "fresh catalog cannot be stale or contain an error")]
  | .stale => [
      (hasItems && freshness.isSome && error.isSome,
        "stale catalog requires cached items, freshness, and an error"),
      (isStatus .stale freshness, "stale catalog requires stale freshness evidence")]
  | .empty => [
      (!hasItems && freshness.isSome, "empty catalog requires no items and freshness evidence"),
      (isStatus .fresh freshness && error.isNone, "empty catalog must be a successful fresh read")]
  | .error => [
      (!hasItems && freshness.isNone && error.isSome, "error catalog requires only error evidence")]

/-- `state_is_consistent` of `CatalogResponse`. -/
def responseChecks (supplier : Supplier) (mode : Mode) (state : CatalogState)
    (freshness : Option CatalogFreshness) (items : List CatalogProduct)
    (error : Option CatalogError) (isPartial : Bool) (omittedCount : Nat) : Checks :=
  ([(mode = supplier.mode, "catalog supplier and mode must describe the same source"),
    (items.all fun item => item.supplier = supplier && item.mode = mode,
      "catalog items must match the envelope source and read-only state"),
    (isPartial = decide (0 < omittedCount),
      "partial catalog state must match omitted item evidence"),
    (!isPartial || state.populated, "only a populated catalog can be partial")] : Checks) ++
  responseStateChecks freshness (!items.isEmpty) error state

structure CatalogResponse where
  supplier : Supplier
  mode : Mode
  state : CatalogState
  freshness : Option CatalogFreshness
  items : List CatalogProduct
  error : Option CatalogError
  isPartial : Bool
  omittedCount : Nat
  valid : (responseChecks supplier mode state freshness items error isPartial omittedCount).Pass
deriving DecidableEq

/-! ## Both sources -/

inductive AggregateCatalogState where
  | complete | partly | empty | error
deriving DecidableEq

/-- What `AggregateSourceReport` checks in each state. -/
def reportStateChecks (freshness : Option CatalogFreshness) (itemCount : Nat)
    (error : Option CatalogError) : CatalogState → Checks
  | .error => [
      (itemCount = 0 && freshness.isNone && error.isSome,
        "aggregate error source requires only safe error evidence")]
  | .empty => [
      (itemCount = 0 && freshness.isSome && error.isNone,
        "aggregate empty source requires successful freshness evidence"),
      (isStatus .fresh freshness, "aggregate empty source requires fresh evidence")]
  | .fresh => [
      (itemCount ≠ 0 && freshness.isSome,
        "aggregate populated source requires items and freshness evidence"),
      (error.isNone, "aggregate fresh source cannot contain an error"),
      (isStatus .fresh freshness, "aggregate fresh source requires fresh evidence")]
  | .stale => [
      (itemCount ≠ 0 && freshness.isSome,
        "aggregate populated source requires items and freshness evidence"),
      (error.isSome, "aggregate stale source requires safe error evidence"),
      (isStatus .stale freshness, "aggregate stale source requires stale evidence")]

/-- `report_is_consistent`, with the type of `supplier`. -/
def reportChecks (supplier : Supplier) (mode : Mode) (state : CatalogState)
    (freshness : Option CatalogFreshness) (error : Option CatalogError) (itemCount : Nat)
    (isPartial : Bool) (omittedCount : Nat) : Checks :=
  ([(mode = supplier.mode, "aggregate source report must match its supplier mode"),
    (isPartial = decide (0 < omittedCount),
      "aggregate source partial state must match omitted item evidence"),
    (!isPartial || state.populated, "only a populated aggregate source can be partial")] :
      Checks) ++
  reportStateChecks freshness itemCount error state

structure AggregateSourceReport where
  supplier : Supplier
  mode : Mode
  state : CatalogState
  freshness : Option CatalogFreshness
  error : Option CatalogError
  itemCount : Nat
  isPartial : Bool
  omittedCount : Nat
  live : supplier.isLive = true
  valid : (reportChecks supplier mode state freshness error itemCount isPartial omittedCount).Pass

namespace AggregateSourceReport

/-- The source is stale, unavailable or incomplete. -/
def degraded (report : AggregateSourceReport) : Bool :=
  report.isPartial || report.state = .stale || report.state = .error

end AggregateSourceReport

/-- The state that the evidence of the sources stands for. -/
def aggregateState (hasItems : Bool) (reports : List AggregateSourceReport) :
    AggregateCatalogState :=
  if hasItems then
    if reports.any (·.degraded) then .partly else .complete
  else if reports.all (·.state = .empty) then .empty
  else .error

/-- `aggregate_is_consistent`. -/
def aggregateChecks (state : AggregateCatalogState) (items : List CatalogProduct)
    (sources : List AggregateSourceReport) (isPartial : Bool) (omittedCount : Nat) : Checks := [
  ((sources.map (·.supplier)).Nodup, "aggregate source reports must be unique"),
  (sources.all (·.supplier.isLive) && sources.any (·.supplier = .khommo) &&
      sources.any (·.supplier = .vietshare),
    "aggregate requires the verified KhoMMO and VietShare sources"),
  ((items.map (·.identity)).Nodup,
    "aggregate products must be unique by source-qualified identity"),
  (sources.all fun report =>
      (items.filter fun item => item.supplier = report.supplier).length = report.itemCount,
    "aggregate item counts must match source reports"),
  (items.all fun item => (sources.map (·.supplier)).contains item.supplier &&
      item.mode = if item.supplier = .khommo then .khommoReadonly else .vietshareReadonly,
    "aggregate items must retain a configured live source"),
  (omittedCount = (sources.map (·.omittedCount)).sum,
    "aggregate omitted count must equal known per-source omissions"),
  (state = aggregateState (!items.isEmpty) sources,
    "aggregate state must match its per-source evidence"),
  (isPartial = decide (state = .partly), "aggregate partial flag must match aggregate state")]

structure AggregateCatalogResponse where
  state : AggregateCatalogState
  items : List CatalogProduct
  sources : List AggregateSourceReport
  isPartial : Bool
  omittedCount : Nat
  twoSources : 2 ≤ sources.length
  valid : (aggregateChecks state items sources isPartial omittedCount).Pass

end NyanShopBot.Catalog
