import DriveLog.Config.Toml.Moment
import DriveLog.Config.Value
set_option autoImplicit false

namespace DriveLog.Config.Toml

def joinDigits? (isDigit : Char → Bool) : List Char → Option (List Char)
  | [] => some []
  | '_' :: _ => none
  | c :: '_' :: d :: l =>
    if isDigit c && isDigit d then (c :: ·) <$> joinDigits? isDigit (d :: l) else none
  | c :: l => (c :: ·) <$> joinDigits? isDigit l

def based? (base : Nat) (l : List Char) : Option Scalar := do
  let digits ← joinDigits? (fun c => (Text.digit? base c).isSome) l
  let n ← Text.naturalIn? base digits
  if digits ≠ [] && Text.isInt64 n then return .int n else none

/-- An integer of 64 bits or a number. A number too great for a double is refused, one too far below
zero is infinite. -/
def decimal? (l : List Char) : Option Scalar := do
  let (negative, digits) := Text.takeSign l
  match ← Text.Numeral.take? negative (← joinDigits? Char.isDigit digits) with
  | (n, []) =>
    if !n.isStrict then none
    else if n.isInteger then if Text.isInt64 n.integer then return .int n.integer else none
    else if n.number.isFinite || negative then return .float n.number
    else none
  | _ => none

def nan (negative : Bool) : Scalar := .float (Binary64.ofMagnitude negative 0x7ff8000000000000)

def infinity (negative : Bool) : Scalar :=
  .float (Binary64.ofMagnitude negative Binary64.infiniteMagnitude)

def word? (l : List Char) : Option Scalar :=
  match l with
  | '0' :: 'x' :: l => based? 16 l
  | '0' :: 'o' :: l => based? 8 l
  | '0' :: 'b' :: l => based? 2 l
  | l =>
    match String.ofList l with
    | "true" => some (.bool true)
    | "false" => some (.bool false)
    | "nan" | "+nan" => some (nan false)
    | "-nan" => some (nan true)
    | "inf" | "+inf" => some (infinity false)
    | "-inf" => some (infinity true)
    | _ =>
      match Moment.parse? .word l with
      | some text => some (.text text)
      | none => decimal? l

def isWordChar (c : Char) : Bool := c.isAlphanum || c ∈ ['_', '+', '-', '.', ':']

/-- A word at the start of a text, and what follows it. A date and a time after a space are one. -/
def takeWord (l : List Char) : List Char × List Char :=
  let word := l.takeWhile isWordChar
  match l.dropWhile isWordChar with
  | ' ' :: rest =>
    let time := rest.takeWhile isWordChar
    if Moment.isDate word && time ≠ [] then (word ++ ' ' :: time, rest.dropWhile isWordChar)
    else (word, ' ' :: rest)
  | rest => (word, rest)

end DriveLog.Config.Toml
