import DriveLog.Calendar
import DriveLog.Text.Numeral
/-!
Dates and times of TOML. They count as texts, in one form each: a T before the time, a Z for
universal time, and no zeros at the end of a fraction.
-/
set_option autoImplicit false

namespace DriveLog.Config.Toml

structure TimeLimits where
  hour : Nat
  offsetHour : Nat
  offsetMinute : Nat

namespace TimeLimits

def word : TimeLimits := ⟨23, 23, 59⟩

/-- For a time in quotes. A day may end with hour 24, and an offset may have any two digits as its
minutes. -/
def quoted : TimeLimits := ⟨24, 24, 99⟩

end TimeLimits

namespace Moment

def twoDigits? (top : Nat) : List Char → Option (List Char × List Char)
  | a :: b :: rest => do
    let n ← Text.natural? [a, b]
    if n ≤ top then return ([a, b], rest) else none
  | _ => none

def expect? (c : Char) : List Char → Option (List Char)
  | d :: rest => if c = d then some rest else none
  | [] => none

def date? (l : List Char) : Option (List Char × List Char) := do
  let year := l.take 4
  let y ← if year.length = 4 then Text.natural? year else none
  let (month, l) ← twoDigits? 12 (← expect? '-' (l.drop 4))
  let m ← Text.natural? month
  if m = 0 then none
  else
    let (day, rest) ← twoDigits? (Calendar.daysInMonth y m) (← expect? '-' l)
    if day = ['0', '0'] then none else return (year ++ '-' :: month ++ '-' :: day, rest)

def fraction? : List Char → Option (List Char × List Char)
  | '.' :: l =>
    let (digits, rest) := Text.takeDigits l
    let kept := ((digits.take 9).reverse.dropWhile (· = '0')).reverse
    if digits = [] then none else some (if kept = [] then [] else '.' :: kept, rest)
  | l => some ([], l)

/-- A time of day at the start of a text, and what follows it; a minute may have a leap second. -/
def time? (limits : TimeLimits) (l : List Char) : Option (List Char × List Char) := do
  let (hour, l) ← twoDigits? limits.hour l
  let (minute, l) ← twoDigits? 59 (← expect? ':' l)
  let (second, l) ← twoDigits? 60 (← expect? ':' l)
  let (fraction, rest) ← fraction? l
  return (hour ++ ':' :: minute ++ ':' :: second ++ fraction, rest)

def offsetText (sign : Char) (minutes : Nat) : List Char :=
  (if minutes = 0 then '+' else sign) ::
    (Decimal.padded 2 (minutes / 60) ++ ":" ++ Decimal.padded 2 (minutes % 60)).toList

def offset? (limits : TimeLimits) : List Char → Option (List Char)
  | [] => some []
  | ['z'] => some ['Z']
  | ['Z'] => some ['Z']
  | sign :: l => do
    let (hour, l) ← twoDigits? limits.offsetHour l
    let (minute, rest) ← twoDigits? limits.offsetMinute (← expect? ':' l)
    let minutes := 60 * Text.digitsValue hour + Text.digitsValue minute
    if (sign = '+' || sign = '-') && minutes ≤ 24 * 60 && rest = [] then
      return offsetText sign minutes
    else none

def parse? (limits : TimeLimits) (l : List Char) : Option String :=
  match date? l with
  | some (date, []) => some (String.ofList date)
  | some (date, c :: l) => do
    let (time, rest) ← if c = 'T' || c = 't' || c = ' ' then time? limits l else none
    let offset ← offset? limits rest
    return String.ofList (date ++ 'T' :: time ++ offset)
  | none =>
    match time? limits l with
    | some (time, []) => some (String.ofList time)
    | _ => none

def isDate (l : List Char) : Bool :=
  match date? l with
  | some (_, []) => true
  | _ => false

end Moment

end DriveLog.Config.Toml
