import DriveLog.Sorting
import DriveLog.Timeline.Link
import DriveLog.Timeline.Segment
set_option autoImplicit false

namespace DriveLog

structure ReportedEvent where
  type : EventType
  severity : Binary64
  value : Binary64
  time : Int
  url : String
  deriving DecidableEq, Repr

structure TripReport where
  trip : String
  start : Int
  stop : Int
  events : List ReportedEvent
  segments : List Segment
  deriving DecidableEq, Repr

namespace Timeline
variable {σ : Type} [RecordStore σ]

def reportEvent (limit : Nat) (trip event : String) : TimelineM σ ReportedEvent := do
  let e ← during (.gettingEvent event) (StoreM.fetch Event event)
  if e.type = .unknown then throw (.badState (.unknownEventType e.id trip))
  if e.time = 0 then throw (.badState (.missingTime e.id trip))
  let url ← findLink limit e.source
  return { type := e.type, severity := e.severity, value := e.value, time := e.time, url }

def resolveCondition (limit : Nat) (condition : String) : TimelineM σ ResolvedCondition := do
  let c ← during (.gettingCondition condition) (StoreM.fetch DrivingCondition condition)
  let url ← findLink limit c.source
  return { type := c.type, severity := c.severity, start := c.start, stop := c.stop, url }

def reportTrip (limit : Nat) (t : Trip) : TimelineM σ TripReport := do
  let eventIds ← during (.listingEvents t.id) (StoreM.listIds Event [.ofTrip t.id])
  let events ← eventIds.mapM (reportEvent limit t.id)
  let conditionIds ← during (.listingConditions t.id)
    (StoreM.listIds DrivingCondition [.ofTrip t.id])
  let conditions ← conditionIds.mapM (resolveCondition limit)
  return {
    trip := t.id
    start := t.start
    stop := t.stop
    events := sortBy (fun a b => a.time ≤ b.time) events
    segments := flatten conditions }

def reportTrips (limit : Nat) (user : String) (start stop : Int) :
    TimelineM σ (List TripReport) := do
  let ids ← during (.listingTripsOf user)
    (StoreM.listIds Trip (Predicate.touching user start stop))
  let trips ← ids.mapM fun id => during (.gettingTrip id) (StoreM.fetch Trip id)
  (sortBy (fun s t => s.start ≤ t.start) trips).mapM (reportTrip limit)

end Timeline

end DriveLog
