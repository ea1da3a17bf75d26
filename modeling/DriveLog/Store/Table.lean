import DriveLog.Record.Query
set_option autoImplicit false

namespace DriveLog

structure RecordKey where
  kind : RecordKind
  id : String
  deriving DecidableEq, Repr

def RecordKey.Before (a b : RecordKey) : Prop :=
  a.kind.rank < b.kind.rank ∨ a.kind = b.kind ∧ a.id < b.id

instance (a b : RecordKey) : Decidable (a.Before b) := inferInstanceAs (Decidable (_ ∨ _))

abbrev Table := List (RecordKey × Record)

namespace Table

def get? (t : Table) (k : RecordKey) : Option Record := (t.find? fun e => e.1 = k).map Prod.snd

def put (k : RecordKey) (r : Record) : Table → Table
  | [] => [(k, r)]
  | e :: t =>
    if e.1 = k then (k, r) :: t
    else if k.Before e.1 then (k, r) :: e :: t
    else e :: put k r t

def erase (t : Table) (k : RecordKey) : Table := t.filter fun e => e.1 ≠ k

theorem get?_cons (e : RecordKey × Record) (t : Table) (k : RecordKey) :
    get? (e :: t) k = if e.1 = k then some e.2 else get? t k := by
  by_cases h : e.1 = k <;> simp [get?, h]

@[simp] theorem get?_put_self (k : RecordKey) (r : Record) (t : Table) :
    (t.put k r).get? k = some r := by
  induction t with
  | nil => simp [put, get?_cons]
  | cons e t ih =>
    unfold put
    split
    · simp [get?_cons]
    · split
      · simp [get?_cons]
      · simp_all [get?_cons]

theorem get?_put_of_ne {k l : RecordKey} (h : k ≠ l) (r : Record) (t : Table) :
    (t.put k r).get? l = t.get? l := by
  induction t with
  | nil => simp [put, get?_cons, h]
  | cons e t ih =>
    unfold put
    split
    · simp_all [get?_cons]
    · split
      · simp [get?_cons, h]
      · simp [get?_cons, ih]

@[simp] theorem get?_erase_self (t : Table) (k : RecordKey) : (t.erase k).get? k = none := by
  simp [get?, erase]

theorem get?_erase_of_ne {k l : RecordKey} (h : k ≠ l) (t : Table) :
    (t.erase k).get? l = t.get? l := by
  induction t with
  | nil => rfl
  | cons e t ih => by_cases hk : e.1 = k <;> simp_all [get?_cons, erase]

def ids (t : Table) (kind : RecordKind) (query : List Predicate) : List String :=
  (t.filter fun e => e.1.kind = kind && query.all (·.accepts e.2)).map (·.1.id)

def contents (α : Type) [Stored α] (t : Table) : List α := t.filterMap fun e => Stored.ofRecord? e.2

end Table

end DriveLog
