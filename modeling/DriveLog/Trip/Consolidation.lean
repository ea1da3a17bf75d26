import DriveLog.Sorting
import DriveLog.Store.Basic
import DriveLog.Store.Step
/-!
Recording events and driving conditions. Each belongs to one trip of its user: an event to the trip
that it lies in, a condition to the trip that all trips it touches are merged into. A fact that
touches no trip opens a new one.
-/
set_option autoImplicit false

namespace DriveLog

inductive TripFault where
  | foreignTrip (trip actual expected : String)
  | overlappingTrips (time : Int) (user : String) (trips : List String)
  | occupiedSpan (start stop : Int) (user : String) (trips : List String)
  | foreignEvent (event trip actual expected : String)
  | foreignCondition (condition trip actual expected : String)
  deriving DecidableEq, Repr

def TripFault.message : TripFault → String
  | .foreignTrip trip actual expected =>
    s!"trip {Text.quoted trip} belongs to user {Text.quoted actual}, " ++
      s!"expected {Text.quoted expected}"
  | .overlappingTrips time user trips =>
    s!"{trips.length} trips overlap timestamp {time} for user {Text.quoted user}: " ++
      Text.quotedList trips
  | .occupiedSpan start stop user trips =>
    s!"trip [{start}, {stop}] for user {Text.quoted user} would overlap existing trips " ++
      Text.quotedList trips
  | .foreignEvent event trip actual expected =>
    s!"event {Text.quoted event} in trip {Text.quoted trip} belongs to user " ++
      s!"{Text.quoted actual}, expected {Text.quoted expected}"
  | .foreignCondition condition trip actual expected =>
    s!"driving condition {Text.quoted condition} in trip {Text.quoted trip} belongs to user " ++
      s!"{Text.quoted actual}, expected {Text.quoted expected}"

inductive ConsolidationError where
  | badState (fault : TripFault)
  | storage (step : Step) (error : StorageError)
  deriving DecidableEq, Repr

namespace ConsolidationError

def message : ConsolidationError → String
  | .badState fault => "Bad state: " ++ fault.message
  | .storage step error => s!"Storage error while {step.text}: {error.message}"

def isBadState : ConsolidationError → Bool
  | .badState _ => true
  | _ => false

def isNotFound : ConsolidationError → Bool
  | .storage _ error => error.isNotFound
  | _ => false

end ConsolidationError

abbrev ConsolidationM (σ : Type) := EStateM ConsolidationError σ

namespace Consolidation
variable {σ α : Type}

def during (step : Step) (act : StoreM σ α) : ConsolidationM σ α := act.adaptExcept (.storage step)

variable [RecordStore σ]

def overlappingTrips (user : String) (start stop : Int) : ConsolidationM σ (List String) :=
  during (.listingTripsBetween start stop user)
    (StoreM.listIds Trip (Predicate.touching user start stop))

def getTrip (user trip : String) : ConsolidationM σ Trip := do
  let t ← during (.gettingTrip trip) (StoreM.fetch Trip trip)
  if t.user ≠ user then throw (.badState (.foreignTrip trip t.user user))
  return t

def openTrip (user : String) (start stop : Int) : ConsolidationM σ String := do
  let existing ← overlappingTrips user start stop
  if existing ≠ [] then throw (.badState (.occupiedSpan start stop user existing))
  let t ← during .creatingTrip (StoreM.persist ({ id := "", user, start, stop } : Trip))
  return t.id

def tripAt (user : String) (time : Int) : ConsolidationM σ String := do
  match ← overlappingTrips user time time with
  | [] => openTrip user time time
  | [trip] => return trip
  | trips => throw (.badState (.overlappingTrips time user trips))

def recordEvent (e : Event) : ConsolidationM σ Event := do
  let trip ← tripAt e.user e.time
  during .creatingEvent (StoreM.persist { e with trip })

def moveEvent (user origin target event : String) : ConsolidationM σ Unit := do
  let e ← during (.gettingEvent event) (StoreM.fetch Event event)
  if e.user ≠ user then throw (.badState (.foreignEvent event origin e.user user))
  during (.movingEvent event) (StoreM.put { e with trip := target })

def moveCondition (user origin target condition : String) : ConsolidationM σ Unit := do
  let c ← during (.gettingCondition condition) (StoreM.fetch DrivingCondition condition)
  if c.user ≠ user then throw (.badState (.foreignCondition condition origin c.user user))
  during (.movingCondition condition) (StoreM.put { c with trip := target })

def moveFacts (user origin target : String) : ConsolidationM σ Unit := do
  let events ← during (.listingEvents origin) (StoreM.listIds Event [.ofTrip origin])
  events.forM (moveEvent user origin target)
  let conditions ← during (.listingConditions origin)
    (StoreM.listIds DrivingCondition [.ofTrip origin])
  conditions.forM (moveCondition user origin target)

/-- Gives all facts of the losing trips to the winner, widens it, and deletes the losers. Facts move
before a trip is deleted, so that a merge that stops midway can be run again. -/
def merge (user winner : String) (losers : List String) (start stop : Int) :
    ConsolidationM σ Unit := do
  losers.forM fun loser => moveFacts user loser winner
  during (.updatingTrip winner) (StoreM.put ({ id := winner, user, start, stop } : Trip))
  losers.forM fun loser => during (.deletingTrip loser) (StoreM.erase Trip loser)

/-- The trip for a condition, given those that it touches: the earliest one, merged with the
others. -/
def tripOver (c : DrivingCondition) (touched : List String) : ConsolidationM σ String := do
  let trips ← touched.mapM (getTrip c.user)
  match sortBy (fun s t => s.start ≤ t.start) trips with
  | [] => openTrip c.user c.start c.stop
  | winner :: others =>
    let losers := (others.map Trip.id).filter (· ≠ winner.id)
    let start := trips.foldl (fun a t => min a t.start) c.start
    let stop := trips.foldl (fun a t => max a t.stop) c.stop
    merge c.user winner.id losers start stop
    return winner.id

def recordCondition (c : DrivingCondition) : ConsolidationM σ DrivingCondition := do
  let touched ← overlappingTrips c.user c.start c.stop
  let trip ← tripOver c touched
  during .creatingCondition (StoreM.persist { c with trip })

end Consolidation

end DriveLog
