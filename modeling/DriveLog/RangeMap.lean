/-!
Maps from disjoint half-open ranges to values. A range is stored if it is disjoint from all stored
ones, and takes a new value if it is one of them.
-/
set_option autoImplicit false

namespace DriveLog

/-- The integers from `lower` up to but not including `upper`. -/
structure Range where
  lower : Int
  upper : Int
  deriving DecidableEq, Repr

def Range.Contains (r : Range) (point : Int) : Prop := r.lower ≤ point ∧ point < r.upper

instance (r : Range) (point : Int) : Decidable (r.Contains point) :=
  inferInstanceAs (Decidable (_ ∧ _))

def Range.text (r : Range) : String := s!"[{r.lower}, {r.upper})"

inductive RangeMapError where
  | lowerBoundOverlap (new existing : Range)
  | upperBoundOverlap (new existing : Range)
  | invalidRange (range : Range)
  | lengthMismatch (keys values : Nat)
  deriving DecidableEq, Repr

def RangeMapError.message : RangeMapError → String
  | .lowerBoundOverlap new existing =>
    s!"range {new.text} lower bound falls inside existing range {existing.text}"
  | .upperBoundOverlap new existing =>
    s!"range {new.text} upper bound overlaps existing range {existing.text}"
  | .invalidRange range => s!"range {range.text} is empty or inverted"
  | .lengthMismatch keys values => s!"keys length {keys} not equal to values length {values}"

structure RangeMap (α : Type) where
  entries : List (Range × α)
  deriving DecidableEq, Repr

namespace RangeMap
variable {α : Type}

def empty : RangeMap α := ⟨[]⟩

instance : EmptyCollection (RangeMap α) := ⟨empty⟩

def size (m : RangeMap α) : Nat := m.entries.length

def ranges (m : RangeMap α) : List Range := m.entries.map Prod.fst

def get? (m : RangeMap α) (point : Int) : Option α :=
  (m.entries.find? fun e => e.1.Contains point).map Prod.snd

/-- Puts `r` at its place among ascending entries, if it meets none of them. -/
def insertEntry (r : Range) (a : α) : List (Range × α) → Except RangeMapError (List (Range × α))
  | [] => .ok [(r, a)]
  | (s, b) :: rest =>
    if s = r then .ok ((r, a) :: rest)
    else if r.upper ≤ s.lower then .ok ((r, a) :: (s, b) :: rest)
    else if s.upper ≤ r.lower then ((s, b) :: ·) <$> insertEntry r a rest
    else if s.lower ≤ r.lower then .error (.lowerBoundOverlap r s)
    else .error (.upperBoundOverlap r s)

def insert (m : RangeMap α) (r : Range) (a : α) : Except RangeMapError (RangeMap α) :=
  if r.lower < r.upper then RangeMap.mk <$> insertEntry r a m.entries
  else .error (.invalidRange r)

/-- Inserts entries in the given order, up to the first one that is refused. -/
def insertAll (m : RangeMap α) (entries : List (Range × α)) : Except RangeMapError (RangeMap α) :=
  entries.foldlM (fun m e => m.insert e.1 e.2) m

def ofEntries (keys : List Range) (values : List α) : Except RangeMapError (RangeMap α) :=
  if keys.length = values.length then empty.insertAll (keys.zip values)
  else .error (.lengthMismatch keys.length values.length)

def text (m : RangeMap α) : String :=
  "\x7b " ++ String.join (m.ranges.map fun r => s!"({r.text}, _) ") ++ "\x7d"

end RangeMap

end DriveLog
