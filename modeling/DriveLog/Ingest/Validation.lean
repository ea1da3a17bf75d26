import DriveLog.Record.Query
set_option autoImplicit false

namespace DriveLog

inductive ValidationError where
  | missingField (field : String)
  | outOfRange (field : String) (value low high : Binary64)
  | notFinite (field : String) (value : Binary64)
  | invalidTimeRange (start stop : Int)
  | unknownEventType
  | userMismatch (record expected actual : String)
  deriving DecidableEq, Repr

def ValidationError.message : ValidationError → String
  | .missingField field => s!"Missing required field: {field}"
  | .outOfRange field value low high =>
    s!"{field} value {value.text} is out of range [{low.text}, {high.text}]"
  | .notFinite field value => s!"{field} must be finite, got {value.text}"
  | .invalidTimeRange start stop => s!"Time range starts at {start} after it ends at {stop}"
  | .unknownEventType => "Event type is unknown"
  | .userMismatch record expected actual =>
    s!"Record {Text.quoted record} belongs to user {Text.quoted actual}, " ++
      s!"expected {Text.quoted expected}"

abbrev Validated := Except ValidationError Unit

namespace Validation

def refuseIf (p : Prop) [Decidable p] (e : ValidationError) : Validated :=
  if p then .error e else .ok ()

def requireText (field s : String) : Validated := refuseIf (s = "") (.missingField field)

def requireTime (field : String) (t : Int) : Validated := refuseIf (t = 0) (.missingField field)

def requireFinite (field : String) (x : Binary64) : Validated :=
  refuseIf (x.isFinite = false) (.notFinite field x)

def requireWithin (field : String) (bound : Nat) (x : Binary64) : Validated := do
  let low := Binary64.ofInt (-bound)
  let high := Binary64.ofInt bound
  requireFinite field x
  refuseIf (x.less low ∨ high.less x) (.outOfRange field x low high)

def window (start stop : Int) : Validated := refuseIf (stop < start) (.invalidTimeRange start stop)

def event (e : Event) : Validated := do
  requireText "user_id" e.user
  requireTime "timestamp_ms" e.time
  refuseIf (e.type = .unknown) .unknownEventType
  requireFinite "severity" e.severity
  requireFinite "value" e.value
  requireText "source_id" e.source.id

def condition (c : DrivingCondition) : Validated := do
  requireText "user_id" c.user
  requireTime "start_time_ms" c.start
  requireTime "end_time_ms" c.stop
  window c.start c.stop
  requireFinite "severity" c.severity
  requireText "source_id" c.source.id

def location (user : String) (l : RawLocation) : Validated := do
  requireText "user_id" user
  refuseIf (l.user ≠ user) (.userMismatch l.id user l.user)
  requireTime "timestamp_ms" l.time
  requireWithin "lat" 90 l.coordinate.lat
  requireWithin "lon" 180 l.coordinate.lon

end Validation

end DriveLog
