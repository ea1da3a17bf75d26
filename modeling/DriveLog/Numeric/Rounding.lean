set_option autoImplicit false

namespace DriveLog

def roundHalfEven (num den : Nat) : Nat :=
  let q := num / den
  match compare (2 * (num % den)) den with
  | .lt => q
  | .eq => q + q % 2
  | .gt => q + 1

def roundHalfUp (num den : Nat) : Nat := (2 * num + den) / (2 * den)

end DriveLog
