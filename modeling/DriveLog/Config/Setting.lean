import DriveLog.Config.Path
import DriveLog.Config.Value
/-!
The tree that the settings of several sources are put into. Later values replace earlier ones of the
same path, tables are merged key by key.
-/
set_option autoImplicit false

namespace DriveLog.Config

inductive Origin where
  | file
  | environment
  deriving DecidableEq, Repr

def Origin.text : Origin → String
  | .file => "<file>"
  | .environment => "the environment"

/-- Settings with the source that stated them. What was made only to hold others has no origin. -/
inductive Setting where
  | scalar (origin : Option Origin) (s : Scalar)
  | list (origin : Option Origin) (items : List Setting)
  | table (origin : Option Origin) (fields : List (String × Setting))

namespace Setting

def gap : Setting := .scalar none .null

def origin : Setting → Option Origin
  | .scalar origin _ => origin
  | .list origin _ => origin
  | .table origin _ => origin

def field? (s : Setting) (key : String) : Option Setting :=
  match s with
  | .table _ fields => fields.lookup key
  | _ => none

def alterField (key : String) (f : Option Setting → Setting) :
    List (String × Setting) → List (String × Setting)
  | [] => [(key, f none)]
  | e :: l => if e.1 = key then (key, f (some e.2)) :: l else e :: alterField key f l

/-- The place of an index among `n` items; a negative one counts from their end. -/
def position (n : Nat) (i : Int) : Nat := if 0 ≤ i then i.toNat else n - i.natAbs

/-- Replaces what is at an index; a list that is too short is filled with gaps. -/
def alterItem (i : Int) (f : Option Setting → Setting) (items : List Setting) : List Setting :=
  let k := position items.length i
  items.take k ++ List.replicate (k - items.length) gap ++ f items[k]? :: items.drop (k + 1)

/-- Replaces what is one step away. Whatever is no table, or no list where the step is an index,
gives way to an empty one. -/
def alter (step : PathStep) (f : Option Setting → Setting) (s : Setting) : Setting :=
  match step, s with
  | .key name, .table origin fields => .table origin (alterField name f fields)
  | .key name, _ => .table none (alterField name f [])
  | .index i, .list origin items => .list origin (alterItem i f items)
  | .index i, _ => .list none (alterItem i f [])

mutual

def ofValue (origin : Origin) : Value → Setting
  | .scalar s => .scalar origin s
  | .list items => .list origin (ofItems origin items)
  | .table fields => .table origin (ofFields origin fields)

def ofItems (origin : Origin) : List Value → List Setting
  | [] => []
  | v :: l => ofValue origin v :: ofItems origin l

def ofFields (origin : Origin) : List (String × Value) → List (String × Setting)
  | [] => []
  | (key, v) :: l => (key, ofValue origin v) :: ofFields origin l

end

mutual

/-- Puts a value where `old` is. A table is merged into it, with its keys in small letters, and
leaves it as it is if it is empty; all else replaces it. -/
def merge (origin : Origin) (v : Value) (old : Option Setting) : Setting :=
  match v with
  | .table fields => mergeFields origin fields (old.getD (.table none []))
  | v => ofValue origin v

def mergeFields (origin : Origin) (fields : List (String × Value)) (s : Setting) : Setting :=
  match fields with
  | [] => s
  | (key, v) :: l =>
    mergeFields origin l (s.alter (.key (Text.lowercase key)) fun old => merge origin v old)

end

/-- Sets what the last step leads to. Under a key a value is merged, at an index it is stored whole.
-/
def set (origin : Origin) (v : Value) (step : PathStep) (s : Setting) : Setting :=
  s.alter step fun old =>
    match step with
    | .key _ => merge origin v old
    | .index _ => ofValue origin v

def assign (origin : Origin) (v : Value) (step : PathStep) : List PathStep → Setting → Setting
  | [], s => s.set origin v step
  | next :: steps, s => s.alter step fun old => assign origin v next steps (old.getD gap)

def assignAll (origin : Origin) (l : List (String × Value)) (s : Setting) : Setting :=
  l.foldl
    (fun s a =>
      let path := Path.ofName a.1
      s.assign origin a.2 (.key path.root) path.steps)
    s

end Setting

end DriveLog.Config
