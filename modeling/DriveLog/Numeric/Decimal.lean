import DriveLog.Numeric.Binary64
/-!
Positional decimal text of numbers: the fewest digits that read back as the same number, and a
fixed count of places. Neither form has an exponent.
-/
set_option autoImplicit false

namespace DriveLog

namespace Decimal

def padded (width n : Nat) : String :=
  let digits := toString n
  String.ofList (List.replicate (width - digits.length) '0') ++ digits

def positional (c : Nat) (p : Int) : String :=
  if 0 ≤ p then toString (c * Nat.pow 10 p.toNat)
  else
    let places := (-p).toNat
    toString (c / Nat.pow 10 places) ++ "." ++ padded places (c % Nat.pow 10 places)

def compareScaled (c : Nat) (p : Int) (b : Nat) (q : Int) : Ordering :=
  compare (c * Nat.pow 10 p.toNat * Nat.pow 2 (-q).toNat)
    (b * Nat.pow 2 q.toNat * Nat.pow 10 (-p).toNat)

def decimalSize (num den : Nat) : Int :=
  if den ≤ num then (toString (num / den)).length
  else 1 - (toString ((den - 1) / num)).length

end Decimal

namespace Binary64
open Decimal

/-- Whether `c · 10 ^ p` rounds to the absolute value of a positive finite number. The reals that do
are within half a unit in the last place, a quarter below a power of two; the ends count if the
significand is even. -/
def readsBack (x : Binary64) (c : Nat) (p : Int) : Bool :=
  let below := if x.significand = leadingBit ∧ 1 < x.exponentField then 1 else 2
  let low := compareScaled c p (4 * x.significand - below) (x.exponent - 2)
  let high := compareScaled c p (4 * x.significand + 2) (x.exponent - 2)
  if x.significand % 2 = 0 then low != .lt && high != .gt else low == .gt && high == .lt

/-- The multiple of `10 ^ p` that reads back as `x`, of two the nearer one, the greater if both are
equally near. -/
def gridPoint? (x : Binary64) (p : Int) : Option (Nat × Int) :=
  let num := x.ratio.1 * Nat.pow 10 (-p).toNat
  let den := x.ratio.2 * Nat.pow 10 p.toNat
  let c := num / den
  match x.readsBack c p, x.readsBack (c + 1) p with
  | true, true => some (if 2 * (num % den) < den then c else c + 1, p)
  | true, false => some (c, p)
  | false, true => some (c + 1, p)
  | false, false => none

def shortestDecimal (x : Binary64) : Nat × Int :=
  let size := decimalSize x.ratio.1 x.ratio.2
  ((List.range 18).findSome? fun k : Nat => x.gridPoint? (size - k)).getD (0, 0)

def render (digits : Binary64 → String) (x : Binary64) : String :=
  if x.isNaN then "NaN"
  else (if x.isNegative then "-" else "") ++ if x.isFinite then digits x else "inf"

def text : Binary64 → String :=
  render fun x =>
    if x.magnitude = 0 then "0"
    else positional x.shortestDecimal.1 x.shortestDecimal.2

def fixedText (places : Nat) : Binary64 → String :=
  render fun x => positional (roundHalfEven (x.ratio.1 * Nat.pow 10 places) x.ratio.2) (-places)

end Binary64

end DriveLog
