import DriveLog.Record.Query
/-!
Stores of records. A store assigns ids to the records it creates, lists ids by conditions on
fields, and may refuse any call.
-/
set_option autoImplicit false

namespace DriveLog

inductive StorageError where
  | database (text : String)
  | notFound (kind : RecordKind) (id : String)
  | kindMismatch (expected actual : RecordKind)
  deriving DecidableEq, Repr

namespace StorageError

def message : StorageError → String
  | .database text => s!"Database error: {text}"
  | .notFound kind id => s!"{kind.name} with ID {Text.quoted id} not found"
  | .kindMismatch expected actual => s!"Expected {expected.name} record, got {actual.name}"

def isNotFound : StorageError → Bool
  | .notFound _ _ => true
  | _ => false

end StorageError

/-- Calls on a store `σ`. A call that fails leaves the store it failed in. -/
abbrev StoreM (σ : Type) := EStateM StorageError σ

/-- `insert` and `erase` are for ids that are in use, and fail on others. -/
class RecordStore (σ : Type) where
  listIds : RecordKind → List Predicate → StoreM σ (List String)
  get? : RecordKind → String → StoreM σ (Option Record)
  create : Record → StoreM σ String
  insert : String → Record → StoreM σ Unit
  erase : RecordKind → String → StoreM σ Unit

def Stored.ofRecord {α : Type} [Stored α] (r : Record) : Except StorageError α :=
  match Stored.ofRecord? r with
  | some a => .ok a
  | none => .error (.kindMismatch (Stored.kind α) r.kind)

namespace StoreM
variable {σ α : Type} [Stored α]

def decode (r : Record) : StoreM σ α :=
  match Stored.ofRecord r with
  | .ok a => pure a
  | .error e => throw e

variable [RecordStore σ]

def listIds (α : Type) [Stored α] (query : List Predicate) : StoreM σ (List String) :=
  RecordStore.listIds (Stored.kind α) query

def fetch (α : Type) [Stored α] (id : String) : StoreM σ α := do
  match ← RecordStore.get? (Stored.kind α) id with
  | none => throw (.notFound (Stored.kind α) id)
  | some r => decode r

def persist (a : α) : StoreM σ α := do
  let id ← RecordStore.create (Stored.toRecord a)
  decode ((Stored.toRecord a).withId id)

def put (a : α) : StoreM σ Unit :=
  RecordStore.insert (Stored.toRecord a).id (Stored.toRecord a)

def erase (α : Type) [Stored α] (id : String) : StoreM σ Unit :=
  RecordStore.erase (Stored.kind α) id

end StoreM

end DriveLog
