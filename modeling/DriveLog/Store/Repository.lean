import DriveLog.Store.Basic
import DriveLog.Store.Table
set_option autoImplicit false

namespace DriveLog

structure Repository where
  table : Table
  /-- Writes that still succeed; all do if there is no number. -/
  writesLeft : Option Nat
  /-- The id of each created record, by the number of records created before it. -/
  idAt : Nat → String
  created : Nat

namespace Repository

def empty (idAt : Nat → String) : Repository :=
  { table := [], writesLeft := none, idAt, created := 0 }

def count (repo : Repository) (kind : RecordKind) : Nat := (repo.table.ids kind []).length

def failWritesAfter (n : Nat) (repo : Repository) : Repository := { repo with writesLeft := some n }

def clearFailures (repo : Repository) : Repository := { repo with writesLeft := none }

def chargeWrite : StoreM Repository Unit := do
  match (← get).writesLeft with
  | none => pure ()
  | some 0 => throw (.database "injected write failure")
  | some (n + 1) => modify fun repo => { repo with writesLeft := some n }

def listIds (kind : RecordKind) (query : List Predicate) : StoreM Repository (List String) := do
  return (← get).table.ids kind query

def get? (kind : RecordKind) (id : String) : StoreM Repository (Option Record) := do
  return (← get).table.get? ⟨kind, id⟩

/-- Stores a record under the next id, whatever its own was. -/
def create (r : Record) : StoreM Repository String := do
  chargeWrite
  let repo ← get
  let id := repo.idAt repo.created
  set { repo with
    table := repo.table.put ⟨r.kind, id⟩ (r.withId id)
    created := repo.created + 1 }
  return id

def insert (id : String) (r : Record) : StoreM Repository Unit := do
  chargeWrite
  let repo ← get
  if (repo.table.get? ⟨r.kind, id⟩).isNone then throw (.notFound r.kind id)
  set { repo with table := repo.table.put ⟨r.kind, id⟩ (r.withId id) }

def erase (kind : RecordKind) (id : String) : StoreM Repository Unit := do
  chargeWrite
  let repo ← get
  if (repo.table.get? ⟨kind, id⟩).isNone then throw (.notFound kind id)
  set { repo with table := repo.table.erase ⟨kind, id⟩ }

instance : RecordStore Repository where
  listIds := listIds
  get? := get?
  create := create
  insert := insert
  erase := erase

end Repository

end DriveLog
