import DriveLog.Focus
import DriveLog.Store.Repository
/-!
A repository whose reads can be disturbed: they fail once a budget is spent, lists of ids come back
empty, and single records are shown as others or as missing.
-/
set_option autoImplicit false

namespace DriveLog

/-- What reads of one record show instead of it. -/
structure Overlay where
  key : RecordKey
  shown : Option Record
  deriving DecidableEq, Repr

structure Interrupted where
  repository : Repository
  /-- Reads that still succeed; all do if there is no number. -/
  readsLeft : Option Nat
  /-- Lists of ids still to come back empty. -/
  blindLists : Nat
  /-- The first overlay of a record counts. -/
  overlays : List Overlay

namespace Interrupted

def ofRepository (repository : Repository) : Interrupted :=
  { repository, readsLeft := none, blindLists := 0, overlays := [] }

def failWritesAfter (n : Nat) (s : Interrupted) : Interrupted :=
  { s with repository := s.repository.failWritesAfter n }

def failReadsAfter (n : Nat) (s : Interrupted) : Interrupted := { s with readsLeft := some n }

def blind (n : Nat) (s : Interrupted) : Interrupted := { s with blindLists := n }

def overlay (o : Overlay) (s : Interrupted) : Interrupted :=
  { s with overlays := s.overlays ++ [o] }

def clearFailures (s : Interrupted) : Interrupted := ofRepository s.repository.clearFailures

def onRepository {α : Type} : StoreM Repository α → StoreM Interrupted α :=
  focus Interrupted.repository (fun repository s => { s with repository }) id

def chargeRead : StoreM Interrupted Unit := do
  match (← get).readsLeft with
  | none => pure ()
  | some 0 => throw (.database "injected read failure")
  | some (n + 1) => modify fun s => { s with readsLeft := some n }

def listIds (kind : RecordKind) (query : List Predicate) : StoreM Interrupted (List String) := do
  chargeRead
  match (← get).blindLists with
  | 0 => onRepository (RecordStore.listIds kind query)
  | n + 1 => modify fun s => { s with blindLists := n }; return []

def get? (kind : RecordKind) (id : String) : StoreM Interrupted (Option Record) := do
  chargeRead
  match (← get).overlays.find? fun o => o.key = ⟨kind, id⟩ with
  | some o => return o.shown
  | none => onRepository (RecordStore.get? kind id)

instance : RecordStore Interrupted where
  listIds := listIds
  get? := get?
  create r := onRepository (RecordStore.create r)
  insert id r := onRepository (RecordStore.insert id r)
  erase kind id := onRepository (RecordStore.erase kind id)

end Interrupted

end DriveLog
