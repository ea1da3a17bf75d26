import DriveLog.Numeric.Decimal
/-!
Instants as milliseconds from the start of 1970, universal time, and their text in the Gregorian
calendar, which is continued backwards before its adoption.
-/
set_option autoImplicit false

namespace DriveLog

/-- Seconds from the start of 1970, and nanoseconds: a billion or more of them in a leap second. -/
structure Timestamp where
  seconds : Int
  nanos : Nat
  deriving DecidableEq, Repr

namespace Timestamp

def le (a b : Timestamp) : Bool :=
  a.seconds < b.seconds || a.seconds == b.seconds && a.nanos ≤ b.nanos

def millis (a : Timestamp) : Int := a.seconds * 1000 + (a.nanos / 1000000 : Nat)

def ofMillis (ms : Int) : Timestamp := ⟨ms / 1000, (ms % 1000).toNat * 1000000⟩

@[simp] theorem millis_ofMillis (ms : Int) : (ofMillis ms).millis = ms := by
  simp only [ofMillis, millis]
  omega

theorem le_iff {a b : Timestamp} :
    a.le b = true ↔ a.seconds < b.seconds ∨ a.seconds = b.seconds ∧ a.nanos ≤ b.nanos := by
  simp [le]

theorem le_total (a b : Timestamp) : a.le b = true ∨ b.le a = true := by
  rw [le_iff, le_iff]
  omega

theorem le_trans {a b c : Timestamp} (hab : a.le b = true) (hbc : b.le c = true) : a.le c = true := by
  rw [le_iff] at hab hbc ⊢
  omega

end Timestamp

namespace Calendar
open Decimal

def millisPerHour : Int := 3600000

def millisPerDay : Int := 24 * millisPerHour

/-- The instants that have a date, in the years from -262143 to 262142. -/
def isInstant (t : Int) : Bool := -8334601228800000 ≤ t && t ≤ 8210266876799999

def startOfDay (t : Int) : Int := t / millisPerDay * millisPerDay

structure Date where
  year : Int
  month : Nat
  day : Nat
  deriving DecidableEq, Repr

def isLeapYear (year : Int) : Bool := year % 4 == 0 && (year % 100 != 0 || year % 400 == 0)

def daysInMonth (year : Int) (month : Nat) : Nat :=
  if month = 2 then if isLeapYear year then 29 else 28
  else if month ∈ [4, 6, 9, 11] then 30
  else 31

/-- The date of a day counted from the first of January 1970. Years are counted from March, so that
the leap day is the last one, in eras of 400 years. -/
def Date.ofDay (n : Int) : Date :=
  let fromMarch := n + 719468
  let era := fromMarch / 146097
  let dayOfEra := (fromMarch % 146097).toNat
  let yearOfEra := (dayOfEra - dayOfEra / 1460 + dayOfEra / 36524 - dayOfEra / 146096) / 365
  let dayOfYear := dayOfEra - (365 * yearOfEra + yearOfEra / 4 - yearOfEra / 100)
  let fromMarchMonth := (5 * dayOfYear + 2) / 153
  let month := if fromMarchMonth < 10 then fromMarchMonth + 3 else fromMarchMonth - 9
  { year := era * 400 + yearOfEra + if month ≤ 2 then 1 else 0
    month
    day := dayOfYear - (153 * fromMarchMonth + 2) / 5 + 1 }

def yearText (year : Int) : String :=
  let mark := if year < 0 then "-" else if 9999 < year then "+" else ""
  mark ++ padded 4 year.natAbs

def Date.text (d : Date) : String :=
  "-".intercalate [yearText d.year, padded 2 d.month, padded 2 d.day]

def clockText (ms : Nat) : String :=
  let clock := ":".intercalate [padded 2 (ms / 3600000), padded 2 (ms / 60000 % 60),
    padded 2 (ms / 1000 % 60)]
  if ms % 1000 = 0 then clock else clock ++ "." ++ padded 3 (ms % 1000)

def text (t : Int) : String :=
  (Date.ofDay (t / millisPerDay)).text ++ " " ++ clockText (t % millisPerDay).toNat ++ " UTC"

end Calendar

end DriveLog
