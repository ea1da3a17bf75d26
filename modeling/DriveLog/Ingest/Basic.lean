import DriveLog.Ingest.Validation
import DriveLog.Timeline.Report
import DriveLog.Trip.Consolidation
import DriveLog.Weather.Condition
/-!
The way of telemetry into the log: facts are validated and recorded, location samples are stored and
give driving conditions, and trips are reported.
-/
set_option autoImplicit false

namespace DriveLog

inductive IngestError where
  | validation (error : ValidationError)
  | consolidation (error : ConsolidationError)
  | timeline (error : TimelineError)
  | weather (error : WeatherError)
  | storage (error : StorageError)
  deriving DecidableEq, Repr

namespace IngestError

def message : IngestError → String
  | .validation error => "Invalid input: " ++ error.message
  | .consolidation error => error.message
  | .timeline error => error.message
  | .weather error => "Weather error: " ++ error.message
  | .storage error => "Storage error: " ++ error.message

def isUserInput : IngestError → Bool
  | .validation _ => true
  | _ => false

def isBadState : IngestError → Bool
  | .consolidation error => error.isBadState
  | .timeline error => error.isBadState
  | _ => false

def isNotFound : IngestError → Bool
  | .consolidation error => error.isNotFound
  | .timeline error => error.isNotFound
  | .storage error => error.isNotFound
  | _ => false

end IngestError

structure IngestSettings where
  weather : WeatherSettings := {}
  /-- Records that a chain of sources may have. -/
  maxHops : Nat := 10
  deriving DecidableEq, Repr

structure Intake (σ : Type) where
  store : σ
  weather : WeatherCache

abbrev IngestM (σ : Type) := EStateM IngestError (Intake σ)

namespace Ingest
variable {σ α : Type}

def validate (v : Validated) : IngestM σ Unit :=
  match v with
  | .ok () => pure ()
  | .error e => throw (.validation e)

def onStore {ε : Type} (wrap : ε → IngestError) : EStateM ε σ α → IngestM σ α :=
  focus Intake.store (fun store s => { s with store }) wrap

def onWeather : WeatherM α → IngestM σ α :=
  focus Intake.weather (fun weather s => { s with weather }) .weather

/-- Runs a report with no links known, and forgets those that it finds. -/
def onTimeline : TimelineM σ α → IngestM σ α :=
  focus (fun s => { store := s.store, links := [] }) (fun t s => { s with store := t.store })
    .timeline

variable [RecordStore σ]

def recordEvent (e : Event) : IngestM σ Event := do
  validate (Validation.event e)
  onStore .consolidation (Consolidation.recordEvent e)

def recordCondition (c : DrivingCondition) : IngestM σ DrivingCondition := do
  validate (Validation.condition c)
  onStore .consolidation (Consolidation.recordCondition c)

def recordLocations (service : WeatherService) (settings : IngestSettings) (user : String)
    (locations : List RawLocation) : IngestM σ (List DrivingCondition) := do
  locations.forM fun l => validate (Validation.location user l)
  let stored ← locations.mapM fun l => onStore .storage (StoreM.persist l)
  let conditions ← onWeather (Weather.generate service settings.weather user stored)
  conditions.mapM fun c => onStore .consolidation (Consolidation.recordCondition c)

def reportTrips (settings : IngestSettings) (user : String) (start stop : Int) :
    IngestM σ (List TripReport) := do
  validate (Validation.requireText "user_id" user)
  validate (Validation.window start stop)
  onTimeline (Timeline.reportTrips settings.maxHops user start stop)

end Ingest

end DriveLog
