import DriveLog.Record.Basic
/-!
Great-circle distances by the spherical law of cosines, with 60 nautical miles to a degree.
-/
set_option autoImplicit false

namespace DriveLog

def Binary64.toFloat (x : Binary64) : Float := Float.ofBits x.bits

def Binary64.ofFloat (x : Float) : Binary64 := ⟨x.toBits⟩

namespace Distance

def pi : Float := 3.141592653589793

def radians (degrees : Float) : Float := degrees * (pi / 180.0)

def degrees (radians : Float) : Float := radians * (180.0 / pi)

/-- Rounding can take a cosine out of this interval. -/
def clampUnit (x : Float) : Float := if x < -1.0 then -1.0 else if 1.0 < x then 1.0 else x

def statuteMiles (a b : Coordinate) : Float :=
  let latA := radians a.lat.toFloat
  let latB := radians b.lat.toFloat
  let theta := radians (a.lon.toFloat - b.lon.toFloat)
  let cosine := latA.sin * latB.sin + latA.cos * latB.cos * theta.cos
  degrees (clampUnit cosine).acos * 60.0 * 1.1515

def miles (a b : Coordinate) : Binary64 := .ofFloat (statuteMiles a b)

def thousandths? (a b : Coordinate) : Option Int :=
  (Binary64.ofFloat (statuteMiles a b * 1000.0)).round?

end Distance

end DriveLog
