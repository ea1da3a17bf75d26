import DriveLog.Weather.Cache
set_option autoImplicit false

namespace DriveLog

structure PlannedReport where
  start : Int
  stop : Int
  code : Int
  deriving DecidableEq, Repr

inductive WeatherScript where
  /-- A report for every hour of a day, the asked one or one at a distance from it. The codes are
  used in turn. -/
  | hourly (codes : List Int) (dayShift : Int)
  /-- One report around the asked time. -/
  | span (before after code : Int)
  /-- An answer for each query; the last one is repeated. -/
  | answers (responses : List (Except String (List PlannedReport)))
  | silent

namespace WeatherScript

def hour (codes : List Int) (day : Int) (h : Nat) : PlannedReport :=
  { start := day + h * Calendar.millisPerHour
    stop := day + (h + 1) * Calendar.millisPerHour
    code := codes.getD (h % codes.length) 0 }

def planned (script : WeatherScript) (calls : Nat) (time : Int) :
    Except String (List PlannedReport) :=
  match script with
  | hourly codes dayShift =>
    let day := Calendar.startOfDay time + dayShift * Calendar.millisPerDay
    .ok ((List.range 24).reverse.map (hour codes day))
  | span before after code => .ok [{ start := time - before, stop := time + after, code }]
  | answers responses => responses.getD (min calls (responses.length - 1)) (.ok [])
  | silent => .ok []

def check (c : Coordinate) (p : PlannedReport) : Except String WeatherReport :=
  match [p.start, p.stop].find? fun t => !Calendar.isInstant t with
  | some t => .error s!"no report at {t}"
  | none => .ok (.ofMillis p.start p.stop p.code c .fake)

def service (script : WeatherScript) : WeatherService := fun calls time c =>
  (script.planned calls time >>= List.mapM (check c)).mapError .service

end WeatherScript

end DriveLog
