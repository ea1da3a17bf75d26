import DriveLog.Numeric.Binary64
set_option autoImplicit false

namespace DriveLog.Config

inductive Scalar where
  | null
  | bool (b : Bool)
  | int (n : Int)
  | float (x : Binary64)
  | text (s : String)
  deriving DecidableEq, Repr

inductive Value where
  | scalar (s : Scalar)
  | list (items : List Value)
  | table (fields : List (String × Value))

end DriveLog.Config
