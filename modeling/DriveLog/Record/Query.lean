import DriveLog.Record.Basic
import DriveLog.Text.Quoted
/-!
Conditions on the fields of records. A record without the field, or with a value that the given one
cannot be compared with, meets no condition on it, not even one that asks for a difference.
-/
set_option autoImplicit false

namespace DriveLog

inductive Field where
  | user
  | trip
  | start
  | stop
  | time
  | created
  | email
  deriving DecidableEq, Repr

def Field.name : Field → String
  | .user => "UserId"
  | .trip => "TripId"
  | .start => "StartTimeMs"
  | .stop => "EndTimeMs"
  | .time => "TimestampMs"
  | .created => "CreateTimeMs"
  | .email => "Email"

def Field.all : List Field := [.user, .trip, .start, .stop, .time, .created, .email]

inductive FieldValue where
  | int (n : Int)
  | float (x : Binary64)
  | text (s : String)
  deriving DecidableEq, Repr

namespace FieldValue

/-- An integer is compared with a number as the number nearest to it. -/
def compare? : FieldValue → FieldValue → Option Ordering
  | .int m, .int n => some (compare m n)
  | .float x, .float y => x.compare? y
  | .int m, .float y => (Binary64.ofInt m).compare? y
  | .float x, .int n => x.compare? (Binary64.ofInt n)
  | .text s, .text t => some (compare s t)
  | _, _ => none

def render : FieldValue → String
  | .int n => toString n
  | .float x => x.text
  | .text s => Text.quoted s

end FieldValue

inductive Operator where
  | eq
  | ne
  | lt
  | le
  | gt
  | ge
  deriving DecidableEq, Repr

namespace Operator

def name : Operator → String
  | .eq => "="
  | .ne => "!="
  | .lt => "<"
  | .le => "<="
  | .gt => ">"
  | .ge => ">="

def all : List Operator := [.eq, .ne, .lt, .le, .gt, .ge]

def accepts : Operator → Ordering → Bool
  | .eq, o => o.isEq
  | .ne, o => o.isNe
  | .lt, o => o.isLT
  | .le, o => o.isLE
  | .gt, o => o.isGT
  | .ge, o => o.isGE

def holds (op : Operator) (x y : FieldValue) : Bool := (x.compare? y).any op.accepts

end Operator

def Record.field? : Record → Field → Option FieldValue
  | .user r, .user => some (.text r.id)
  | .user r, .email => some (.text r.email)
  | .user r, .created => some (.int r.created)
  | .trip r, .user => some (.text r.user)
  | .trip r, .start => some (.int r.start)
  | .trip r, .stop => some (.int r.stop)
  | .event r, .user => some (.text r.user)
  | .event r, .trip => some (.text r.trip)
  | .event r, .time => some (.int r.time)
  | .drivingCondition r, .user => some (.text r.user)
  | .drivingCondition r, .trip => some (.text r.trip)
  | .drivingCondition r, .start => some (.int r.start)
  | .drivingCondition r, .stop => some (.int r.stop)
  | .rawVideo r, .user => some (.text r.user)
  | .rawVideo r, .created => some (.int r.created)
  | .rawMotion r, .user => some (.text r.user)
  | .rawMotion r, .time => some (.int r.time)
  | .rawLocation r, .user => some (.text r.user)
  | .rawLocation r, .time => some (.int r.time)
  | _, _ => none

structure Predicate where
  field : Field
  op : Operator
  value : FieldValue
  deriving DecidableEq, Repr

namespace Predicate

def accepts (p : Predicate) (r : Record) : Bool :=
  (r.field? p.field).any fun actual => p.op.holds actual p.value

def text (p : Predicate) : String := s!"{p.field.name} {p.op.name} {p.value.render}"

def ofUser (user : String) : Predicate := ⟨.user, .eq, .text user⟩

def ofTrip (trip : String) : Predicate := ⟨.trip, .eq, .text trip⟩

def touching (user : String) (start stop : Int) : List Predicate :=
  [ofUser user, ⟨.stop, .ge, .int start⟩, ⟨.start, .le, .int stop⟩]

end Predicate

end DriveLog
