import DriveLog.Config.Setting
import DriveLog.Logging
import DriveLog.Numeric.Decimal
set_option autoImplicit false

namespace DriveLog

namespace Config

inductive Expected where
  | integer
  | natural
  | word32
  | boolean
  | text
  deriving DecidableEq, Repr

def Expected.name : Expected → String
  | .integer => "an integer"
  | .natural => "an unsigned 64 bit or less integer"
  | .word32 => "an unsigned 32 bit integer"
  | .boolean => "a boolean"
  | .text => "a string"

structure NumberStyle where
  int : String
  natural : String
  /-- Whether a float without a fraction is written with one. -/
  keepsPoint : Bool

namespace NumberStyle

def byWidth : NumberStyle := ⟨"64-bit integer", "64-bit unsigned integer", false⟩

def plainly : NumberStyle := ⟨"integer", "integer", true⟩

def floatText (style : NumberStyle) (x : Binary64) : String :=
  if style.keepsPoint && x.isFinite && !x.text.contains '.' then x.text ++ ".0" else x.text

end NumberStyle

def Scalar.name (style : NumberStyle) : Scalar → String
  | .null => "unit value"
  | .bool b => s!"boolean \x60{b}\x60"
  | .int n => s!"{style.int} \x60{n}\x60"
  | .float x => s!"floating point \x60{style.floatText x}\x60"
  | .text s => s!"string {Text.quoted s}"

inductive Found where
  | scalar (s : Scalar)
  | natural (n : Nat)
  | list
  | table
  deriving DecidableEq, Repr

def Found.ofSetting : Setting → Found
  | .scalar _ s => .scalar s
  | .list _ _ => .list
  | .table _ _ => .table

def Found.name (style : NumberStyle) : Found → String
  | .scalar s => s.name style
  | .natural n => s!"{style.natural} \x60{n}\x60"
  | .list => "sequence"
  | .table => "map"

end Config

inductive ConfigError where
  | unreadable
  | missingFile (name : String)
  | wrongType (found : Config.Found) (expected : Config.Expected) (key : String)
    (origin : Option Config.Origin)
  | unknownProximity (name : String)
  | shapelessProximity
  | wrongSection (found : Config.Scalar) (name : String)
  | unknownLevel (level : String)
  deriving DecidableEq, Repr

def ConfigError.message : ConfigError → String
  | .unreadable => "Configuration error: the file cannot be read"
  | .missingFile name => s!"Configuration error: configuration file \"{name}\" not found"
  | .wrongType found expected key origin =>
    let place := match origin with
      | some origin => s!" in {origin.text}"
      | none => ""
    s!"Configuration error: invalid type: {found.name .byWidth}, expected {expected.name} " ++
      s!"for key \x60{key}\x60{place}"
  | .unknownProximity name =>
    s!"Configuration error: enum ProximityMatch does not have variant constructor {name}"
  | .shapelessProximity =>
    "Configuration error: value of enum ProximityMatch should be represented by either " ++
      "string or table with exactly one key"
  | .wrongSection found name =>
    s!"Configuration error: invalid type: {found.name .plainly}, expected struct {name}"
  | .unknownLevel level => s!"Configuration error: {unknownLevelMessage level}"

end DriveLog
