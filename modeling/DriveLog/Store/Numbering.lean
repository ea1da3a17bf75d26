import DriveLog.Numeric.Decimal
set_option autoImplicit false

namespace DriveLog

inductive Numbering where
  | ascending
  | descending
  | mixed
  deriving DecidableEq, Repr

def Numbering.number (numbering : Numbering) (created : Nat) : Nat :=
  let n := created + 1
  match numbering with
  | ascending => n % 10000
  | descending => 10000 - n % 10000
  | mixed => n * 3571 % 10000

def Numbering.idAt (numbering : Numbering) (created : Nat) : String :=
  "id" ++ Decimal.padded 4 (numbering.number created)

end DriveLog
