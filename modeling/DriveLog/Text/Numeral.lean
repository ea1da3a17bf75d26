import DriveLog.Numeric.Binary64
/-!
Reading numerals: a sign, decimal digits, and for numbers a fraction and an exponent. Two readings
are given: a lenient one of whole texts, and a strict one of the start of a text. Natural numbers
are also read to other bases.
-/
set_option autoImplicit false

namespace DriveLog.Text

def digitsValue (l : List Char) : Nat := l.foldl (fun n c => 10 * n + (c.toNat - '0'.toNat)) 0

def takeDigits (l : List Char) : List Char × List Char :=
  (l.takeWhile Char.isDigit, l.dropWhile Char.isDigit)

def takeSign : List Char → Bool × List Char
  | '-' :: l => (true, l)
  | '+' :: l => (false, l)
  | l => (false, l)

def withSign (negative : Bool) (n : Nat) : Int := if negative then -(n : Int) else n

def takeFraction : List Char → Option (List Char) × List Char
  | '.' :: l => (some (takeDigits l).1, (takeDigits l).2)
  | l => (none, l)

def takeExponent? : List Char → Option (Option Int × List Char)
  | [] => some (none, [])
  | c :: l =>
    if c = 'e' ∨ c = 'E' then
      let (negative, l) := takeSign l
      let (digits, rest) := takeDigits l
      if digits = [] then none else some (some (withSign negative (digitsValue digits)), rest)
    else some (none, c :: l)

structure Numeral where
  negative : Bool
  whole : List Char
  fraction : Option (List Char)
  exponent : Option Int
  deriving DecidableEq, Repr

namespace Numeral

def isInteger (n : Numeral) : Bool := n.fraction.isNone && n.exponent.isNone

def integer (n : Numeral) : Int := withSign n.negative (digitsValue n.whole)

def number (n : Numeral) : Binary64 :=
  let fraction := n.fraction.getD []
  Binary64.ofDecimal n.negative (digitsValue (n.whole ++ fraction))
    (n.exponent.getD 0 - fraction.length)

def take? (negative : Bool) (l : List Char) : Option (Numeral × List Char) :=
  let (whole, l) := takeDigits l
  let (fraction, l) := takeFraction l
  (takeExponent? l).map fun p => ({ negative, whole, fraction, exponent := p.1 }, p.2)

/-- Digits on both sides of a point, and no zero before other digits. -/
def isStrict (n : Numeral) : Bool :=
  n.whole ≠ [] && n.fraction ≠ some [] && (n.whole.head? ≠ some '0' || n.whole.length = 1)

def isLenient (n : Numeral) : Bool := n.whole ≠ [] || n.fraction.getD [] ≠ []

end Numeral

def natural? (l : List Char) : Option Nat :=
  if l ≠ [] ∧ l.all Char.isDigit then some (digitsValue l) else none

def digit? (base : Nat) (c : Char) : Option Nat :=
  let value :=
    if c.isDigit then some (c.toNat - '0'.toNat)
    else if 'a' ≤ c ∧ c ≤ 'f' then some (c.toNat - 'a'.toNat + 10)
    else if 'A' ≤ c ∧ c ≤ 'F' then some (c.toNat - 'A'.toNat + 10)
    else none
  value.filter (· < base)

def naturalIn? (base : Nat) (l : List Char) : Option Nat :=
  l.foldlM (fun n c => (digit? base c).map (base * n + ·)) 0

def unsigned? (top : Nat) (s : String) : Option Nat :=
  let digits := match s.toList with
    | '+' :: l => l
    | l => l
  (natural? digits).filter (· ≤ top)

def isInt64 (n : Int) : Bool := Int64.minValue.toInt ≤ n && n ≤ Int64.maxValue.toInt

def integer? (s : String) : Option Int :=
  let (negative, digits) := takeSign s.toList
  ((natural? digits).map (withSign negative)).filter isInt64

/-- A number, which may lack digits on one side of its point, or the name of an infinity or of a NaN
in any case. -/
def number? (s : String) : Option Binary64 :=
  let (negative, l) := takeSign s.toList
  match String.ofList (l.map Char.toLower) with
  | "nan" => some (Binary64.ofMagnitude negative 0x7ff8000000000000)
  | "inf" | "infinity" => some (Binary64.ofMagnitude negative Binary64.infiniteMagnitude)
  | _ =>
    match Numeral.take? negative l with
    | some (n, []) => if n.isLenient then some n.number else none
    | _ => none

end DriveLog.Text
