import DriveLog.Text.Lowercase
import DriveLog.Text.Numeral
/-!
Names of settings as paths. A path starts with a key; keys after points and indices in brackets lead
from it into tables and lists.
-/
set_option autoImplicit false

namespace DriveLog.Config

inductive PathStep where
  | key (name : String)
  | index (i : Int)
  deriving DecidableEq, Repr

structure Path where
  root : String
  steps : List PathStep := []
  deriving DecidableEq, Repr

namespace Path

def isKeyChar (c : Char) : Bool := c.isAlphanum || c == ' ' || c == '_' || c == '-'

def isBlank (c : Char) : Bool := c == ' ' || c == '\t'

def key? (l : List Char) : Option (String × List Char) :=
  let name := l.takeWhile isKeyChar
  if name = [] then none else some (String.ofList name, l.dropWhile isKeyChar)

/-- An index of 64 bits, which may be negative and stand between blanks. -/
def index? (l : List Char) : Option (Int × List Char) := do
  let (negative, l) := match l.dropWhile isBlank with
    | '-' :: l => (true, l)
    | l => (false, l)
  let (digits, rest) := Text.takeDigits l
  let n ← ((Text.natural? digits).map (Text.withSign negative)).filter Text.isInt64
  return (n, rest.dropWhile isBlank)

def steps? : (fuel : Nat) → List Char → Option (List PathStep)
  | _, [] => some []
  | 0, _ => none
  | fuel + 1, '.' :: l => do
    let (name, rest) ← key? l
    return .key name :: (← steps? fuel rest)
  | fuel + 1, '[' :: l => do
    match ← index? l with
    | (i, ']' :: rest) => return .index i :: (← steps? fuel rest)
    | _ => none
  | _, _ => none

def parse? (s : String) : Option Path := do
  let (root, rest) ← key? s.toList
  return { root, steps := ← steps? rest.length rest }

/-- The path of a name in any case; a name that is no path is a single key. -/
def ofName (name : String) : Path :=
  let name := Text.lowercase name
  (parse? name).getD { root := name }

end Path

end DriveLog.Config
