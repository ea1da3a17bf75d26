import DriveLog.Ingest.Basic
import DriveLog.Store.Interrupted
import DriveLog.Store.Numbering
import DriveLog.Weather.Scripted
set_option autoImplicit false

namespace DriveLog

structure Session where
  store : Interrupted
  links : LinkCache
  /-- Records that a chain of sources may have in reports. -/
  maxHops : Nat
  settings : IngestSettings
  script : WeatherScript
  lookups : WeatherCache
  samples : WeatherCache
  intake : WeatherCache

namespace Session

def start (numbering : Numbering) (settings : IngestSettings) (script : WeatherScript) : Session :=
  { store := .ofRepository (.empty numbering.idAt)
    links := []
    maxHops := settings.maxHops
    settings
    script
    lookups := {}
    samples := {}
    intake := {} }

variable {ε α : Type}

def onStore : EStateM ε Interrupted α → EStateM ε Session α :=
  focus Session.store (fun store s => { s with store }) id

def onTimeline (act : (limit : Nat) → TimelineM Interrupted α) : EStateM TimelineError Session α := do
  focus (fun s => { store := s.store, links := s.links })
    (fun t s => { s with store := t.store, links := t.links }) id (act (← get).maxHops)

def lookup (time : Int) (c : Coordinate) : EStateM WeatherError Session WeatherReport := do
  let s ← get
  focus Session.lookups (fun lookups s => { s with lookups }) id
    (Weather.lookup s.script.service s.settings.weather time c)

def generate (user : String) (locations : List RawLocation) :
    EStateM WeatherError Session (List DrivingCondition) := do
  let s ← get
  focus Session.samples (fun samples s => { s with samples }) id
    (Weather.generate s.script.service s.settings.weather user locations)

def onIntake (act : WeatherService → IngestSettings → IngestM Interrupted α) :
    EStateM IngestError Session α := do
  let s ← get
  focus (fun s => { store := s.store, weather := s.intake })
    (fun t s => { s with store := t.store, intake := t.weather }) id (act s.script.service s.settings)

def renewReports (maxHops : Nat) (s : Session) : Session := { s with links := [], maxHops }

def table (s : Session) : Table := s.store.repository.table

def count (kind : RecordKind) (s : Session) : Nat := s.store.repository.count kind

end Session

end DriveLog
