import DriveLog.Text.Quoted
set_option autoImplicit false

namespace DriveLog

inductive Step where
  | listingTripsBetween (start stop : Int) (user : String)
  | listingTripsOf (user : String)
  | gettingTrip (trip : String)
  | creatingTrip
  | updatingTrip (trip : String)
  | deletingTrip (trip : String)
  | listingEvents (trip : String)
  | gettingEvent (event : String)
  | creatingEvent
  | movingEvent (event : String)
  | listingConditions (trip : String)
  | gettingCondition (condition : String)
  | creatingCondition
  | movingCondition (condition : String)
  | gettingVideo (video : String)
  | gettingMotion (motion : String)
  | gettingLocation (location : String)
  deriving DecidableEq, Repr

def Step.text : Step → String
  | .listingTripsBetween start stop user =>
    s!"listing trips between {start} and {stop} for user {Text.quoted user}"
  | .listingTripsOf user => s!"listing trips of user {Text.quoted user}"
  | .gettingTrip trip => s!"getting trip {Text.quoted trip}"
  | .creatingTrip => "creating trip"
  | .updatingTrip trip => s!"updating trip {Text.quoted trip}"
  | .deletingTrip trip => s!"deleting merged trip {Text.quoted trip}"
  | .listingEvents trip => s!"listing events of trip {Text.quoted trip}"
  | .gettingEvent event => s!"getting event {Text.quoted event}"
  | .creatingEvent => "creating event"
  | .movingEvent event => s!"re-parenting event {Text.quoted event}"
  | .listingConditions trip => s!"listing driving conditions of trip {Text.quoted trip}"
  | .gettingCondition condition => s!"getting driving condition {Text.quoted condition}"
  | .creatingCondition => "creating driving condition"
  | .movingCondition condition => s!"re-parenting driving condition {Text.quoted condition}"
  | .gettingVideo video => s!"getting raw video {Text.quoted video}"
  | .gettingMotion motion => s!"getting raw motion {Text.quoted motion}"
  | .gettingLocation location => s!"getting raw location {Text.quoted location}"

end DriveLog
