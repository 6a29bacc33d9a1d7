import NyanShopBot.Catalog.Curation
import NyanShopBot.Conc.System

/-!
# The curation repository

The document is one row, replaced by one statement in a transaction of its own: an
`INSERT` for the first revision, an `UPDATE` for the others. `curationSystem` runs any
number of `save` and `load` calls over it. A statement that writes takes the lock of
the row until its commit, and one that would write waits for the lock.
-/

namespace NyanShopBot.Catalog

open Py Conc

variable [UnicodeData]

/-! ## The table -/

structure CurationRow where
  revision : Nat
  listings : List CatalogCurationListing
deriving DecidableEq

/-- The row, if there is one, and whether a transaction holds its lock. -/
structure CurationDb where
  row : Option CurationRow
  locked : Bool
deriving DecidableEq

def CurationDb.empty : CurationDb := ⟨none, false⟩

/-- The stored revision. -/
def revisionOf : Option CurationRow → Nat
  | none => 0
  | some row => row.revision

/-- The `WHERE` clause of the update; the insert finds no row to conflict with. -/
def statementWrites (row : Option CurationRow) (expectedRevision : Nat) : Bool :=
  if expectedRevision = 0 then row.isNone else row.any (·.revision = expectedRevision)

/-- `json.dumps` writes numbers of at most 4300 digits. -/
def isDumpable (n : Nat) : Bool := n < Nat.pow 10 4300

/-- The parameters of the statement can be bound: the revision fits a `BIGINT`. -/
def isBindable (expectedRevision : Nat) (listings : List CatalogCurationListing) : Bool :=
  expectedRevision + 1 ≤ 0x7fffffffffffffff && listings.all fun listing =>
    isDumpable listing.sortOrder && listing.retailPrice.all (isDumpable ·.amountMinor)

/-! ## The repository -/

/-- What a call does in the database. A statement returns what it wrote, nothing for a
row count of zero, and the transaction commits it. -/
inductive CurationOp where
  | select
  | execute (expectedRevision : Nat) (listings : List CatalogCurationListing)
  | commit (written : Option CurationRow)

abbrev CurationOp.Res : CurationOp → Type
  | .select | .execute _ _ => Option CurationRow
  | .commit _ => Unit

abbrev curationSig : Sig := ⟨CurationOp, CurationOp.Res⟩

abbrev CurationCall (α : Type) := Prog curationSig Exc α

abbrev performSql (op : CurationOp) : CurationCall op.Res := Prog.perform (S := curationSig) op

def writeFailed : Exc := .unavailable "catalog curation database write failed"

def payloadInvalid : Exc := .unavailable "persisted curation payload is invalid"

/-- The document of a row. -/
def documentOf : Option CurationRow → Except Exc CatalogCurationDocument
  | none => CatalogCurationDocument.make 0 []
  | some row => (CatalogCurationDocument.make row.revision row.listings).mapError fun _ =>
      payloadInvalid

namespace PostgresCatalogCurationRepository

def load : CurationCall CatalogCurationDocument := do
  let row ← performSql .select
  .ofExcept (documentOf row)

/-- The document is validated after the transaction. -/
def saved (expectedRevision : Nat) (listings : List CatalogCurationListing) :
    Option CurationRow → Except Exc CatalogCurationDocument
  | none => .error .revisionConflict
  | some _ => CatalogCurationDocument.make (expectedRevision + 1) listings

def save (expectedRevision : Nat) (listings : List CatalogCurationListing) :
    CurationCall CatalogCurationDocument := do
  let written ← performSql (.execute expectedRevision listings)
  performSql (.commit written)
  .ofExcept (saved expectedRevision listings written)

end PostgresCatalogCurationRepository

/-- A call of the repository. -/
inductive RepositoryCall where
  | load
  | save (expectedRevision : Nat) (listings : List CatalogCurationListing)

def RepositoryCall.body : RepositoryCall → CurationCall CatalogCurationDocument
  | .load => PostgresCatalogCurationRepository.load
  | .save expectedRevision listings =>
    PostgresCatalogCurationRepository.save expectedRevision listings

/-- One step of the database. Read committed: a statement sees the committed row, and
one that waited sees the row that was committed meanwhile. -/
inductive CurationEffect : CurationDb → (op : CurationOp) → Except Exc op.Res → CurationDb → Prop
  | select (db : CurationDb) : CurationEffect db .select (.ok db.row) db
  | refuse {db : CurationDb} {expected : Nat} {listings : List CatalogCurationListing} :
      isBindable expected listings = false →
      CurationEffect db (.execute expected listings) (.error writeFailed) db
  | write {row : Option CurationRow} {expected : Nat} {listings : List CatalogCurationListing} :
      isBindable expected listings = true → statementWrites row expected = true →
      CurationEffect ⟨row, false⟩ (.execute expected listings)
        (.ok (some ⟨expected + 1, listings⟩)) ⟨row, true⟩
  | miss {db : CurationDb} {expected : Nat} {listings : List CatalogCurationListing} :
      isBindable expected listings = true → statementWrites db.row expected = false →
      CurationEffect db (.execute expected listings) (.ok none) db
  | commit (db : CurationDb) (row : CurationRow) :
      CurationEffect db (.commit (some row)) (.ok ()) ⟨some row, false⟩
  | done (db : CurationDb) : CurationEffect db (.commit none) (.ok ()) db

/-- **Any number of calls over one database.** -/
abbrev curationSystem : System curationSig Exc where
  Store := CurationDb
  Call := RepositoryCall
  Out := CatalogCurationDocument
  body := RepositoryCall.body
  eff := CurationEffect

/-! ## The repository in memory -/

namespace InMemoryCatalogCurationRepository

def load (document : CatalogCurationDocument) :
    Except Exc CatalogCurationDocument × CatalogCurationDocument :=
  (.ok document, document)

/-- The document is validated before it replaces the other one. -/
def save (expectedRevision : Nat) (listings : List CatalogCurationListing)
    (document : CatalogCurationDocument) :
    Except Exc CatalogCurationDocument × CatalogCurationDocument :=
  if document.revision ≠ expectedRevision then (.error .revisionConflict, document)
  else
    match CatalogCurationDocument.make (expectedRevision + 1) listings with
    | .error e => (.error e, document)
    | .ok next => (.ok next, next)

def exec : RepositoryCall → CatalogCurationDocument →
    Except Exc CatalogCurationDocument × CatalogCurationDocument
  | .load, document => load document
  | .save expectedRevision listings, document => save expectedRevision listings document

end InMemoryCatalogCurationRepository

/-! ## One call after the other -/

/-- What the database answers to a call that runs alone. -/
def answerAlone (db : CurationDb) : (op : CurationOp) → Except Exc op.Res × CurationDb
  | .select => (.ok db.row, db)
  | .execute expected listings =>
    if isBindable expected listings = false then (.error writeFailed, db)
    else if statementWrites db.row expected then
      (.ok (some ⟨expected + 1, listings⟩), { db with locked := true })
    else (.ok none, db)
  | .commit (some row) => (.ok (), ⟨some row, false⟩)
  | .commit none => (.ok (), db)

def execAlone (call : RepositoryCall) (db : CurationDb) :
    Except Exc CatalogCurationDocument × CurationDb :=
  call.body.run answerAlone db

/-- The results of a history of calls, each after the one before. -/
def history {σ : Type} (exec : RepositoryCall → σ → Except Exc CatalogCurationDocument × σ) :
    List RepositoryCall → σ → List (Except Exc CatalogCurationDocument)
  | [], _ => []
  | call :: calls, s => (exec call s).1 :: history exec calls (exec call s).2

end NyanShopBot.Catalog
