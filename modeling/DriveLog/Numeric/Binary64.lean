import DriveLog.Numeric.Rounding
/-!
Double-precision numbers as their 64 bits. Order and equality are those of the numbers: a NaN is
comparable to nothing, and the two zeros are one number.
-/
set_option autoImplicit false

namespace DriveLog

structure Binary64 where
  bits : UInt64
  deriving DecidableEq, Repr

namespace Binary64

def infiniteMagnitude : Nat := 0x7ff0000000000000

def signBit : Nat := 0x8000000000000000

def ofMagnitude (negative : Bool) (magnitude : Nat) : Binary64 :=
  ⟨UInt64.ofNat (magnitude + if negative then signBit else 0)⟩

def zero : Binary64 := ofMagnitude false 0

instance : Inhabited Binary64 := ⟨zero⟩

def isNegative (x : Binary64) : Bool := signBit ≤ x.bits.toNat

def magnitude (x : Binary64) : Nat := x.bits.toNat % signBit

def isNaN (x : Binary64) : Bool := infiniteMagnitude < x.magnitude

def isFinite (x : Binary64) : Bool := x.magnitude < infiniteMagnitude

/-- The place of a number in the numeric order; both zeros are at 0. -/
def key (x : Binary64) : Int := if x.isNegative then -(x.magnitude : Int) else x.magnitude

def compare? (x y : Binary64) : Option Ordering :=
  if x.isNaN || y.isNaN then none else some (compare x.key y.key)

def equals (x y : Binary64) : Bool := x.compare? y == some .eq

def less (x y : Binary64) : Bool := x.compare? y == some .lt

/-- The greater of two numbers, the first one of two equal ones. A NaN gives way to a number. -/
def max (x y : Binary64) : Binary64 :=
  if x.isNaN then y else if x.less y then y else x

theorem equals_iff (x y : Binary64) :
    x.equals y = true ↔ x.isNaN = false ∧ y.isNaN = false ∧ x.key = y.key := by
  cases hx : x.isNaN <;> cases hy : y.isNaN <;> simp [equals, compare?, hx, hy]

theorem less_iff (x y : Binary64) :
    x.less y = true ↔ x.isNaN = false ∧ y.isNaN = false ∧ x.key < y.key := by
  cases hx : x.isNaN <;> cases hy : y.isNaN <;>
    simp [less, compare?, hx, hy, Std.compare_eq_lt]

theorem compare?_swap (x y : Binary64) : y.compare? x = (x.compare? y).map Ordering.swap := by
  unfold compare?
  rw [Bool.or_comm, Std.OrientedOrd.eq_swap]
  split <;> rfl

/-! A finite number is ± significand · 2 ^ exponent. -/

def leadingBit : Nat := 0x10000000000000

def exponentField (x : Binary64) : Nat := x.magnitude / leadingBit

def significand (x : Binary64) : Nat :=
  x.magnitude % leadingBit + if x.exponentField = 0 then 0 else leadingBit

def exponent (x : Binary64) : Int := (Nat.max x.exponentField 1 : Int) - 1075

def ratio (x : Binary64) : Nat × Nat :=
  (x.significand * Nat.pow 2 x.exponent.toNat, Nat.pow 2 (-x.exponent).toNat)

def floorLog2 (num den : Nat) : Int :=
  let e : Int := num.log2 - den.log2
  if den * Nat.pow 2 e.toNat ≤ num * Nat.pow 2 (-e).toNat then e else e - 1

/-- The number nearest to `± num / den`, a half going to the even significand. -/
def ofRatio (negative : Bool) (num den : Nat) : Binary64 :=
  if num = 0 then ofMagnitude negative 0
  else
    let q := Max.max (floorLog2 num den - 52) (-1074)
    let significand := roundHalfEven (num * Nat.pow 2 (-q).toNat) (den * Nat.pow 2 q.toNat)
    ofMagnitude negative (min infiniteMagnitude ((q + 1074).toNat * leadingBit + significand))

def ofInt (n : Int) : Binary64 := ofRatio (decide (n < 0)) n.natAbs 1

/-- The number nearest to `± digits · 10 ^ exponent`. Exponents far outside the range of finite
numbers are decided by size alone. -/
def ofDecimal (negative : Bool) (digits : Nat) (exponent : Int) : Binary64 :=
  if digits = 0 ∨ exponent + (digits.log2 : Int) < -330 then ofMagnitude negative 0
  else if 400 < exponent then ofMagnitude negative infiniteMagnitude
  else ofRatio negative (digits * Nat.pow 10 exponent.toNat) (Nat.pow 10 (-exponent).toNat)

/-- The nearest integer to a finite number, a half going away from zero. -/
def round? (x : Binary64) : Option Int :=
  if x.isFinite then
    let n : Int := roundHalfUp x.ratio.1 x.ratio.2
    some (if x.isNegative then -n else n)
  else none

def saturate (top : Nat) (x : Binary64) : Nat :=
  match x.round? with
  | some n => min top n.toNat
  | none => if x.isNaN || x.isNegative then 0 else top

end Binary64

end DriveLog
