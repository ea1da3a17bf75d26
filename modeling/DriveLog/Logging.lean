import DriveLog.Text.Numeral
import DriveLog.Text.Quoted
set_option autoImplicit false

namespace DriveLog

inductive Level where
  | error
  | warn
  | info
  | debug
  | trace
  deriving DecidableEq, Repr

namespace Level

def name : Level → String
  | .error => "ERROR"
  | .warn => "WARN"
  | .info => "INFO"
  | .debug => "DEBUG"
  | .trace => "TRACE"

def all : List Level := [.error, .warn, .info, .debug, .trace]

def number : Level → Nat
  | .error => 1
  | .warn => 2
  | .info => 3
  | .debug => 4
  | .trace => 5

def ofText? (s : String) : Option Level :=
  match (Text.unsigned? (UInt64.size - 1) s).bind fun n => all.find? fun level => level.number = n with
  | some level => some level
  | none => all.find? fun level => level.name = s.toUpper

end Level

structure LoggingSettings where
  level : String := "info"
  json : Bool := false
  deriving DecidableEq, Repr

def LoggingSettings.maxLevel (s : LoggingSettings) : Except String Level :=
  match Level.ofText? s.level with
  | some level => .ok level
  | none => .error s.level

def unknownLevelMessage (level : String) : String :=
  s!"logging.level: unknown level {Text.quoted level}"

structure LogLine where
  level : Level
  target : String
  message : String
  deriving DecidableEq, Repr

/-- The installed level, if any, and the lines written so far. -/
structure Log where
  installed : Option Level := none
  lines : List LogLine := []
  deriving DecidableEq, Repr

namespace Log

def write (level : Level) (target message : String) (log : Log) : Log :=
  if log.installed.any fun top => level.number ≤ top.number then
    { log with lines := log.lines ++ [⟨level, target, message⟩] }
  else log

def target : String := "ingest"

/-- Installs a level, unless one is installed. An unknown level is told of and taken as `info`. -/
def install (settings : LoggingSettings) (log : Log) : Bool × Log :=
  if log.installed.isSome then (false, log)
  else
    let level := settings.maxLevel.toOption.getD .info
    let log := { log with installed := some level }
    let log := match settings.maxLevel with
      | .ok _ => log
      | .error s => log.write .warn target s!"{unknownLevelMessage s}; using {level.name}"
    (true, log.write .info target s!"Logging initialized at level {level.name}")

end Log

end DriveLog
