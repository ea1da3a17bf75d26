import DriveLog.Config.Value
import DriveLog.Text.Lowercase
import DriveLog.Text.Numeral
/-!
Settings from environment variables. Each variable is a path, whose parts are joined by two
underscores after a common first part.
-/
set_option autoImplicit false

namespace DriveLog.Config.Environment

def scalar (s : String) : Scalar :=
  match Text.lowercase s with
  | "true" => .bool true
  | "false" => .bool false
  | _ =>
    match Text.integer? s, Text.number? s with
    | some n, _ => .int n
    | none, some x => .float x
    | none, none => .text s

def rootName : String := "trips__"

def settingName? (name : String) : Option String :=
  let name := Text.lowercase name
  if name.startsWith rootName then
    some ((name.drop rootName.length).toString.replace "__" ".")
  else none

def settings (vars : List (String × String)) : List (String × Value) :=
  vars.filterMap fun v => (settingName? v.1).map fun name => (name, .scalar (scalar v.2))

end DriveLog.Config.Environment
