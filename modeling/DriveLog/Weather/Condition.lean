import DriveLog.Sorting
import DriveLog.Weather.Cache
import DriveLog.Weather.Code
/-!
Driving conditions from the weather at places that a user passed. Places in the same weather form one
condition as long as no two neighbours are more than an hour apart.
-/
set_option autoImplicit false

namespace DriveLog

structure WeatherSample where
  location : RawLocation
  weather : WeatherClass
  deriving DecidableEq, Repr

structure WeatherRun where
  first : RawLocation
  last : RawLocation
  deriving DecidableEq, Repr

namespace Weather

def maxGap : Int := Calendar.millisPerHour

def classify (service : WeatherService) (settings : WeatherSettings) (l : RawLocation) :
    WeatherM WeatherSample := do
  let report ← lookup service settings l.time l.coordinate
  match WeatherClass.ofCode? report.code with
  | some weather => return { location := l, weather }
  | none => throw (.unknownCode report.code)

def runsFrom (run : WeatherRun) : List RawLocation → List WeatherRun
  | [] => [run]
  | l :: rest =>
    if l.time - run.last.time ≤ maxGap then runsFrom { run with last := l } rest
    else run :: runsFrom ⟨l, l⟩ rest

def runs : List RawLocation → List WeatherRun
  | [] => []
  | l :: rest => runsFrom ⟨l, l⟩ rest

def classesOf (samples : List WeatherSample) : List WeatherClass :=
  sortBy WeatherClass.le (samples.map WeatherSample.weather).eraseDups

def samplesOf (samples : List WeatherSample) (w : WeatherClass) : List RawLocation :=
  sortBy (fun k l => k.time ≤ l.time)
    ((samples.filter fun s => s.weather = w).map WeatherSample.location)

def conditionOf (user : String) (w : WeatherClass) (run : WeatherRun) : DrivingCondition :=
  { id := ""
    user
    trip := ""
    type := w.type
    severity := w.severity
    start := run.first.time
    stop := run.last.time
    source := ⟨.rawLocation, run.first.id⟩ }

def conditionsOf (user : String) (samples : List WeatherSample) : List DrivingCondition :=
  let conditions := (classesOf samples).flatMap fun w =>
    (runs (samplesOf samples w)).map (conditionOf user w)
  sortBy (fun c d => c.start < d.start || c.start == d.start && c.type.rank ≤ d.type.rank)
    conditions

def generate (service : WeatherService) (settings : WeatherSettings) (user : String)
    (locations : List RawLocation) : WeatherM (List DrivingCondition) := do
  return conditionsOf user (← locations.mapM (classify service settings))

end Weather

end DriveLog
