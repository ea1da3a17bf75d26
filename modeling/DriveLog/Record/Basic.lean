import DriveLog.Numeric.Decimal
set_option autoImplicit false

namespace DriveLog

inductive EventType where
  | unknown
  | fastAcceleration
  | fastDeceleration
  | laneChange
  deriving DecidableEq, Repr, Inhabited

def EventType.name : EventType → String
  | .unknown => "UNKNOWN_EVENT_TYPE"
  | .fastAcceleration => "FAST_ACCELERATION"
  | .fastDeceleration => "FAST_DECELERATION"
  | .laneChange => "LANE_CHANGE"

def EventType.all : List EventType := [.unknown, .fastAcceleration, .fastDeceleration, .laneChange]

/-- `nothing` says that a stretch of road was watched and nothing was notable. -/
inductive ConditionType where
  | nothing
  | snow
  | rain
  | hail
  | sleet
  | fog
  | freezingRain
  | night
  | urban
  | closeFollowingDistance
  deriving DecidableEq, Repr, Inhabited

def ConditionType.name : ConditionType → String
  | .nothing => "NONE_CONDITION_TYPE"
  | .snow => "SNOW"
  | .rain => "RAIN"
  | .hail => "HAIL"
  | .sleet => "SLEET"
  | .fog => "FOG"
  | .freezingRain => "FREEZING_RAIN"
  | .night => "NIGHT"
  | .urban => "URBAN"
  | .closeFollowingDistance => "CLOSE_FOLLOWING_DISTANCE"

def ConditionType.all : List ConditionType :=
  [.nothing, .snow, .rain, .hail, .sleet, .fog, .freezingRain, .night, .urban,
    .closeFollowingDistance]

def ConditionType.rank : ConditionType → Nat
  | .nothing => 0
  | .snow => 1
  | .rain => 2
  | .hail => 3
  | .sleet => 4
  | .fog => 5
  | .freezingRain => 6
  | .night => 7
  | .urban => 8
  | .closeFollowingDistance => 9

theorem ConditionType.rank_injective {a b : ConditionType} (h : a.rank = b.rank) : a = b := by
  cases a <;> cases b <;> simp_all [rank]

inductive SourceType where
  | rawVideo
  | rawMotion
  | rawLocation
  deriving DecidableEq, Repr

def SourceType.name : SourceType → String
  | .rawVideo => "RAW_VIDEO"
  | .rawMotion => "RAW_MOTION"
  | .rawLocation => "RAW_LOCATION"

def SourceType.all : List SourceType := [.rawVideo, .rawMotion, .rawLocation]

/-- A reference to the raw record that a fact was found in. -/
structure Source where
  type : SourceType
  id : String
  deriving DecidableEq, Repr

def Source.key (s : Source) : String := s.type.name ++ "/" ++ s.id

/-- Degrees; north and east are positive. -/
structure Coordinate where
  lat : Binary64
  lon : Binary64
  deriving DecidableEq, Repr

def Coordinate.text (c : Coordinate) : String := c.lat.fixedText 6 ++ "/" ++ c.lon.fixedText 6

structure User where
  id : String
  email : String
  created : Int
  deriving DecidableEq, Repr

/-- A stretch of one user's driving, both ends included. -/
structure Trip where
  id : String
  user : String
  start : Int
  stop : Int
  deriving DecidableEq, Repr

structure Event where
  id : String
  user : String
  trip : String
  time : Int
  type : EventType
  severity : Binary64
  value : Binary64
  source : Source
  deriving DecidableEq, Repr

structure DrivingCondition where
  id : String
  user : String
  trip : String
  type : ConditionType
  severity : Binary64
  start : Int
  stop : Int
  source : Source
  deriving DecidableEq, Repr

/-- Footage; every chain of sources is to end in one. -/
structure RawVideo where
  id : String
  user : String
  created : Int
  duration : Int
  file : String
  deriving DecidableEq, Repr

structure RawMotion where
  id : String
  user : String
  time : Int
  velocity : Binary64
  acceleration : Binary64
  source : Option Source
  deriving DecidableEq, Repr

structure RawLocation where
  id : String
  user : String
  time : Int
  coordinate : Coordinate
  source : Option Source
  deriving DecidableEq, Repr

inductive RecordKind where
  | user
  | trip
  | event
  | drivingCondition
  | rawVideo
  | rawMotion
  | rawLocation
  deriving DecidableEq, Repr

def RecordKind.name : RecordKind → String
  | .user => "Users"
  | .trip => "Trips"
  | .event => "Events"
  | .drivingCondition => "DrivingConditions"
  | .rawVideo => "RawVideos"
  | .rawMotion => "RawMotions"
  | .rawLocation => "RawLocations"

def RecordKind.all : List RecordKind :=
  [.user, .trip, .event, .drivingCondition, .rawVideo, .rawMotion, .rawLocation]

def RecordKind.rank : RecordKind → Nat
  | .user => 0
  | .trip => 1
  | .event => 2
  | .drivingCondition => 3
  | .rawVideo => 4
  | .rawMotion => 5
  | .rawLocation => 6

inductive Record where
  | user (r : User)
  | trip (r : Trip)
  | event (r : Event)
  | drivingCondition (r : DrivingCondition)
  | rawVideo (r : RawVideo)
  | rawMotion (r : RawMotion)
  | rawLocation (r : RawLocation)
  deriving DecidableEq, Repr

namespace Record

def kind : Record → RecordKind
  | .user _ => .user
  | .trip _ => .trip
  | .event _ => .event
  | .drivingCondition _ => .drivingCondition
  | .rawVideo _ => .rawVideo
  | .rawMotion _ => .rawMotion
  | .rawLocation _ => .rawLocation

def id : Record → String
  | .user r => r.id
  | .trip r => r.id
  | .event r => r.id
  | .drivingCondition r => r.id
  | .rawVideo r => r.id
  | .rawMotion r => r.id
  | .rawLocation r => r.id

def withId (i : String) : Record → Record
  | .user r => .user { r with id := i }
  | .trip r => .trip { r with id := i }
  | .event r => .event { r with id := i }
  | .drivingCondition r => .drivingCondition { r with id := i }
  | .rawVideo r => .rawVideo { r with id := i }
  | .rawMotion r => .rawMotion { r with id := i }
  | .rawLocation r => .rawLocation { r with id := i }

@[simp] theorem id_withId (i : String) (r : Record) : (r.withId i).id = i := by cases r <;> rfl

@[simp] theorem kind_withId (i : String) (r : Record) : (r.withId i).kind = r.kind := by
  cases r <;> rfl

end Record

class Stored (α : Type) where
  kind : RecordKind
  toRecord : α → Record
  ofRecord? : Record → Option α

instance : Stored User where
  kind := .user
  toRecord := .user
  ofRecord?
    | .user r => some r
    | _ => none

instance : Stored Trip where
  kind := .trip
  toRecord := .trip
  ofRecord?
    | .trip r => some r
    | _ => none

instance : Stored Event where
  kind := .event
  toRecord := .event
  ofRecord?
    | .event r => some r
    | _ => none

instance : Stored DrivingCondition where
  kind := .drivingCondition
  toRecord := .drivingCondition
  ofRecord?
    | .drivingCondition r => some r
    | _ => none

instance : Stored RawVideo where
  kind := .rawVideo
  toRecord := .rawVideo
  ofRecord?
    | .rawVideo r => some r
    | _ => none

instance : Stored RawMotion where
  kind := .rawMotion
  toRecord := .rawMotion
  ofRecord?
    | .rawMotion r => some r
    | _ => none

instance : Stored RawLocation where
  kind := .rawLocation
  toRecord := .rawLocation
  ofRecord?
    | .rawLocation r => some r
    | _ => none

end DriveLog
