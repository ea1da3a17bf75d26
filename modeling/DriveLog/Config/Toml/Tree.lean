import DriveLog.Config.Toml.Moment
import DriveLog.Config.Value
/-!
The tables of a TOML text while it is read. How a table came to be decides what may still be added
to it, so that nothing is stated twice. Fields keep the order of the text, since the first key of a
table can make a date or a time of it.
-/
set_option autoImplicit false

namespace DriveLog.Config.Toml

inductive TableKind where
  /-- Under a header of its own. -/
  | headed
  /-- On the way to the header of another. -/
  | implied
  /-- On the way of a dotted key. -/
  | dotted
  /-- In braces. -/
  | braced
  deriving DecidableEq, Repr

inductive Node where
  | quoted (s : String)
  | word (s : Scalar)
  | list (items : List Node)
  | table (kind : TableKind) (fields : List (String × Node))
  /-- Tables of one name under headers of their own; only the last of them can still change. -/
  | rows (earlier : List Node) (last : List (String × Node))

abbrev Fields := List (String × Node)

def momentKey : String := "$__toml_private_datetime"

def Node.moment? : Node → Option Value
  | .quoted s => (Moment.parse? .quoted s.toList).map fun text => .scalar (.text text)
  | _ => none

mutual

def Node.toValue? : Node → Option Value
  | .quoted s => some (.scalar (.text s))
  | .word s => some (.scalar s)
  | .list items => .list <$> itemValues? items
  | .table _ fields => tableValue? fields
  | .rows earlier last => do return .list ((← itemValues? earlier) ++ [← tableValue? last])

def itemValues? : List Node → Option (List Value)
  | [] => some []
  | n :: l => do return (← n.toValue?) :: (← itemValues? l)

/-- A table, or the date or time that it is made of; the other fields of that do not count. -/
def tableValue? : List (String × Node) → Option Value
  | [] => some (.table [])
  | (key, n) :: l =>
    if key = momentKey then n.moment?
    else do return .table ((key, ← n.toValue?) :: (← fieldValues? l))

def fieldValues? : List (String × Node) → Option (List (String × Value))
  | [] => some []
  | (key, n) :: l => do return (key, ← n.toValue?) :: (← fieldValues? l)

end

namespace Fields

def alter (key : String) (f : Option Node → Option Node) : Fields → Option Fields
  | [] => do return [(key, ← f none)]
  | e :: l =>
    if e.1 = key then do return (key, ← f (some e.2)) :: l
    else do return e :: (← alter key f l)

/-- Adds a value under a dotted key. The tables on its way are not to have headers, and the one that
holds the value is to be made by dotted keys alone. -/
def add (n : Node) (key : String) : (more : List String) → Fields → Option Fields
  | [], fields => fields.alter key fun
    | none => some n
    | some _ => none
  | next :: more, fields => fields.alter key fun
    | none => Node.table .dotted <$> add n next more []
    | some (.table .dotted l) => Node.table .dotted <$> add n next more l
    | some (.table .implied l) =>
      if more = [] then none else Node.table .implied <$> add n next more l
    | some (.rows earlier l) => if more = [] then none else Node.rows earlier <$> add n next more l
    | _ => none

/-- Changes the table that a header's path leads to. Missing tables are implied by the header, and
of rows the last is meant. -/
def within (f : Fields → Option Fields) : (path : List String) → Fields → Option Fields
  | [], fields => f fields
  | key :: path, fields => fields.alter key fun
    | none => Node.table .implied <$> within f path []
    | some (.table .braced _) => none
    | some (.table kind l) => Node.table kind <$> within f path l
    | some (.rows earlier l) => Node.rows earlier <$> within f path l
    | _ => none

/-- Opens the table of a header. It can only have been implied before, and then it moves to the end.
-/
def openTable (key : String) (fields : Fields) : Option Fields :=
  match fields.lookup key with
  | none => some (fields ++ [(key, .table .headed [])])
  | some (.table .implied l) =>
    some (fields.filter (·.1 ≠ key) ++ [(key, .table .headed l)])
  | _ => none

def openRow (key : String) (fields : Fields) : Option Fields :=
  fields.alter key fun
    | none => some (.rows [] [])
    | some (.rows earlier last) => some (.rows (earlier ++ [.table .headed last]) [])
    | _ => none

end Fields

end DriveLog.Config.Toml
