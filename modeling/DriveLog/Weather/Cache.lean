import DriveLog.Calendar
import DriveLog.RangeMap
import DriveLog.Sorting
import DriveLog.Weather.Distance
/-!
A cache of weather reports by place and time. Reports are kept in buckets, one for each coordinate
that was first asked for; a bucket also serves coordinates near its own.
-/
set_option autoImplicit false

namespace DriveLog

inductive WeatherSource where
  | weatherStack
  | fake
  deriving DecidableEq, Repr

structure WeatherReport where
  opens : Timestamp
  closes : Timestamp
  code : Int
  coordinate : Coordinate
  source : WeatherSource
  deriving DecidableEq, Repr

namespace WeatherReport

/-- In milliseconds, from `start` up to but not including `stop`. -/
def start (r : WeatherReport) : Int := r.opens.millis

def stop (r : WeatherReport) : Int := r.closes.millis

def ofMillis (start stop code : Int) (coordinate : Coordinate) (source : WeatherSource) :
    WeatherReport :=
  ⟨.ofMillis start, .ofMillis stop, code, coordinate, source⟩

@[simp] theorem start_ofMillis (start stop code : Int) (c : Coordinate) (source : WeatherSource) :
    (ofMillis start stop code c source).start = start := Timestamp.millis_ofMillis start

@[simp] theorem stop_ofMillis (start stop code : Int) (c : Coordinate) (source : WeatherSource) :
    (ofMillis start stop code c source).stop = stop := Timestamp.millis_ofMillis stop

end WeatherReport

inductive WeatherError where
  | service (text : String)
  | emptyResponse (time : Int) (coordinate : Coordinate)
  | cache (error : RangeMapError)
  | callLimit (time : Int) (coordinate : Coordinate) (calls : Nat)
  | unknownCode (code : Int)
  | invalidTime (time : Int)
  deriving DecidableEq, Repr

def WeatherError.message : WeatherError → String
  | .service text => s!"Weather service error: {text}"
  | .emptyResponse time coordinate =>
    s!"Weather service returned no conditions for {coordinate.text} at {Calendar.text time}"
  | .cache error => s!"Cache error: {error.message}"
  | .callLimit time coordinate calls =>
    s!"Lookup for {coordinate.text} at {Calendar.text time} gave up after {calls} calls; " ++
      "fetched reports never cover it"
  | .unknownCode code => s!"Unknown weather code {code}"
  | .invalidTime time => s!"Timestamp {time} ms is out of range"

/-- Which of several near buckets serves a query: the oldest or the nearest one. -/
inductive Proximity where
  | first
  | nearest
  deriving DecidableEq, Repr

structure WeatherSettings where
  /-- Buckets nearer than this, in whole miles, serve a query. -/
  radius : Nat := 3
  proximity : Proximity := .nearest
  maxCalls : Nat := 10000
  deriving DecidableEq, Repr

/-- Answers a query for reports around a time and a place. It may depend on the number of queries
that came before. -/
abbrev WeatherService := (calls : Nat) → (time : Int) → Coordinate →
  Except WeatherError (List WeatherReport)

structure Bucket where
  /-- The text of the anchor. -/
  key : String
  anchor : Coordinate
  reports : RangeMap WeatherReport
  deriving DecidableEq, Repr

structure WeatherCache where
  /-- Queries made to the service. -/
  calls : Nat := 0
  /-- In the order of their creation. -/
  buckets : List Bucket := []
  deriving DecidableEq, Repr

abbrev WeatherM := EStateM WeatherError WeatherCache

namespace Weather

def isNear (radius : Nat) (distance : Binary64) : Bool :=
  distance.round?.any fun miles => decide (miles < (radius : Int))

def nearBuckets (radius : Nat) (c : Coordinate) (buckets : List Bucket) : List (Nat × Binary64) :=
  (buckets.zipIdx.map fun b => (b.2, Distance.miles c b.1.anchor)).filter fun d => isNear radius d.2

/-- The nearest of some places, the first of equally near ones. -/
def nearestOf : List (Nat × Binary64) → Option (Nat × Binary64)
  | [] => none
  | d :: l => some (l.foldl (fun best e => if e.2.less best.2 then e else best) d)

/-- The place of the bucket that serves a coordinate: a near one, or else the one of its text. -/
def bucketFor? (settings : WeatherSettings) (c : Coordinate) (buckets : List Bucket) :
    Option Nat :=
  let near := nearBuckets settings.radius c buckets
  let found := match settings.proximity with
    | .first => near.head?
    | .nearest => nearestOf near
  match found with
  | some d => some d.1
  | none => buckets.findIdx? fun b => b.key = c.text

def reportsAt (place : Option Nat) (buckets : List Bucket) : RangeMap WeatherReport :=
  ((place.bind fun i => buckets[i]?).map Bucket.reports).getD .empty

def store (place : Option Nat) (c : Coordinate) (reports : RangeMap WeatherReport)
    (buckets : List Bucket) : List Bucket :=
  match place with
  | some i => buckets.modify i fun b => { b with reports }
  | none => buckets ++ [{ key := c.text, anchor := c, reports }]

/-- Adds reports, the earliest first, if they meet no stored one nor each other. Their order is by the
nanosecond, while the ranges are in milliseconds. -/
def addReports (reports : List WeatherReport) (known : RangeMap WeatherReport) :
    Except RangeMapError (RangeMap WeatherReport) :=
  known.insertAll ((sortBy (fun a b => a.opens.le b.opens) reports).map fun r =>
    (⟨r.start, r.stop⟩, r))

def ask (service : WeatherService) (time : Int) (c : Coordinate) : WeatherM (List WeatherReport) := do
  let cache ← get
  set { cache with calls := cache.calls + 1 }
  match service cache.calls time c with
  | .error e => throw e
  | .ok [] => throw (.emptyResponse time c)
  | .ok reports => return reports

/-- One query to the service, whose answer goes into the cache as a whole or not at all. -/
def fetch (service : WeatherService) (place : Option Nat) (time : Int) (c : Coordinate) :
    WeatherM Unit := do
  let reports ← ask service time c
  let cache ← get
  match addReports reports (reportsAt place cache.buckets) with
  | .error e => throw (.cache e)
  | .ok filled => set { cache with buckets := store place c filled cache.buckets }

def lookupWithin (service : WeatherService) (settings : WeatherSettings) (time : Int)
    (c : Coordinate) : (rounds : Nat) → WeatherM WeatherReport
  | 0 => throw (.callLimit time c settings.maxCalls)
  | n + 1 => do
    let cache ← get
    let place := bucketFor? settings c cache.buckets
    match (reportsAt place cache.buckets).get? time with
    | some report => return { report with coordinate := c }
    | none =>
      fetch service place time c
      lookupWithin service settings time c n

def lookup (service : WeatherService) (settings : WeatherSettings) (time : Int) (c : Coordinate) :
    WeatherM WeatherReport :=
  if Calendar.isInstant time then lookupWithin service settings time c settings.maxCalls
  else throw (.invalidTime time)

end Weather

end DriveLog
