import DriveLog.Config.Environment
import DriveLog.Config.Error
import DriveLog.Config.Json
import DriveLog.Config.Toml
import DriveLog.Ingest.Basic
set_option autoImplicit false

namespace DriveLog

structure Settings where
  ingest : IngestSettings := {}
  logging : LoggingSettings := {}
  deriving DecidableEq, Repr

namespace Config

structure Entry where
  key : String
  setting : Setting

def wordMeaning? (yes no : List String) (word : String) : Option Bool :=
  if word ∈ yes then some true else if word ∈ no then some false else none

namespace Entry

def wrong {α : Type} (e : Entry) (expected : Expected) : Except ConfigError α :=
  .error (.wrongType (.ofSetting e.setting) expected e.key e.setting.origin)

/-- An unsigned integer of 64 bits. Numbers are rounded into its range, truth values and their words
count as 1 and 0. -/
def natural (e : Entry) : Except ConfigError Nat :=
  match e.setting with
  | .scalar _ (.int n) => if n < 0 then e.wrong .natural else .ok n.toNat
  | .scalar _ (.float x) => .ok (x.saturate (UInt64.size - 1))
  | .scalar _ (.bool b) => .ok b.toNat
  | .scalar _ (.text s) =>
    match wordMeaning? ["true", "on", "yes"] ["false", "off", "no"] (Text.lowercase s) with
    | some b => .ok b.toNat
    | none =>
      match Text.unsigned? (UInt64.size - 1) s with
      | some n => .ok n
      | none => e.wrong .integer
  | _ => e.wrong .integer

def word32 (e : Entry) : Except ConfigError Nat := do
  let n ← e.natural
  if n < UInt32.size then return n else throw (.wrongType (.natural n) .word32 e.key none)

def boolean (e : Entry) : Except ConfigError Bool :=
  match e.setting with
  | .scalar _ (.bool b) => .ok b
  | .scalar _ (.int n) => .ok (n ≠ 0)
  | .scalar _ (.float x) => .ok !(x.equals .zero)
  | .scalar origin (.text s) =>
    let word := Text.lowercase s
    match wordMeaning? ["1", "true", "on", "yes"] ["0", "false", "off", "no"] word with
    | some b => .ok b
    | none => .error (.wrongType (.scalar (.text word)) .boolean e.key origin)
  | _ => e.wrong .boolean

def text (e : Entry) : Except ConfigError String :=
  match e.setting with
  | .scalar _ (.text s) => .ok s
  | .scalar _ (.bool b) => .ok (toString b)
  | .scalar _ (.int n) => .ok (toString n)
  | .scalar _ (.float x) => .ok x.text
  | _ => e.wrong .text

def proximity (e : Entry) : Except ConfigError Proximity :=
  let named (name : String) : Except ConfigError Proximity :=
    match Text.lowercase name with
    | "first" => .ok .first
    | "nearest" => .ok .nearest
    | _ => .error (.unknownProximity name)
  match e.setting with
  | .scalar _ (.text s) => named s
  | .table _ [(name, _)] => named name
  | _ => .error .shapelessProximity

end Entry

abbrev Section := (place : Nat) → (name : String) → Option Entry

/-- A section is a table, or a list of its fields in their order. -/
def openSection (root : Setting) (name title : String) : Except ConfigError Section :=
  match root.field? name with
  | none => .ok fun _ _ => none
  | some (.table _ fields) =>
    .ok fun _ key => (fields.lookup key).map fun s => ⟨s!"{name}.{key}", s⟩
  | some (.list _ items) => .ok fun i _ => items[i]?.map fun s => ⟨s!"{name}[{i}]", s⟩
  | some (.scalar _ s) => .error (.wrongSection s title)

def Section.field {α : Type} (s : Section) (place : Nat) (name : String)
    (read : Entry → Except ConfigError α) (default : α) : Except ConfigError α :=
  match s place name with
  | some e => read e
  | none => .ok default

def readWeather (root : Setting) : Except ConfigError WeatherSettings := do
  let s ← openSection root "weather" "WeatherCacheConfig"
  let d : WeatherSettings := {}
  return {
    radius := ← s.field 0 "radius_miles" Entry.word32 d.radius
    proximity := ← s.field 1 "proximity" Entry.proximity d.proximity
    maxCalls := ← s.field 2 "max_lookup_calls" Entry.natural d.maxCalls }

def readMaxHops (root : Setting) : Except ConfigError Nat := do
  let s ← openSection root "timeline" "TimelineConfig"
  s.field 0 "max_source_hops" Entry.natural ({} : IngestSettings).maxHops

def readLogging (root : Setting) : Except ConfigError LoggingSettings := do
  let s ← openSection root "logging" "LoggingConfig"
  let d : LoggingSettings := {}
  return {
    level := ← s.field 0 "level" Entry.text d.level
    json := ← s.field 1 "json" Entry.boolean d.json }

inductive SettingsFile where
  | json (text : String)
  | toml (text : String)
  | missing (name : String)

def SettingsFile.read (file : SettingsFile) : Except ConfigError (List (String × Value)) := do
  let root ← match file with
    | .json text => pure (Json.parse? text)
    | .toml text => pure (Toml.parse? text)
    | .missing name => throw (.missingFile name)
  match root with
  | some (.table fields) => return fields
  | _ => throw .unreadable

end Config

def Settings.load (file : Option Config.SettingsFile) (environment : List (String × String)) :
    Except ConfigError Settings := do
  let fields ← match file with
    | some f => f.read
    | none => pure []
  let root := (Config.Setting.table none []).assignAll .file fields
    |>.assignAll .environment (Config.Environment.settings environment)
  let weather ← Config.readWeather root
  let maxHops ← Config.readMaxHops root
  let logging ← Config.readLogging root
  match logging.maxLevel with
  | .ok _ => return { ingest := { weather, maxHops }, logging }
  | .error level => throw (.unknownLevel level)

end DriveLog
