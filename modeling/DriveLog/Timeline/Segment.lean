import DriveLog.Record.Basic
/-!
Flattening of driving conditions that may overlap into consecutive segments. Every segment lists the
conditions that are active during it, each kind of one video once, at its highest severity.
-/
set_option autoImplicit false

namespace DriveLog

/-- A condition whose footage is known. It is active from `start` up to but not including `stop`. -/
structure ResolvedCondition where
  type : ConditionType
  severity : Binary64
  start : Int
  stop : Int
  url : String
  deriving DecidableEq, Repr

structure ActiveCondition where
  type : ConditionType
  url : String
  severity : Binary64
  deriving DecidableEq, Repr

/-- Both ends are included; `active` is ascending by type and video. -/
structure Segment where
  start : Int
  stop : Int
  active : List ActiveCondition
  deriving DecidableEq, Repr

namespace ActiveCondition

def SameKey (a b : ActiveCondition) : Prop := a.type = b.type ∧ a.url = b.url

instance (a b : ActiveCondition) : Decidable (a.SameKey b) := inferInstanceAs (Decidable (_ ∧ _))

def Before (a b : ActiveCondition) : Prop :=
  a.type.rank < b.type.rank ∨ a.type = b.type ∧ a.url < b.url

instance (a b : ActiveCondition) : Decidable (a.Before b) := inferInstanceAs (Decidable (_ ∨ _))

/-- Adds a condition to an ascending list; the higher severity of one key stays. -/
def add (a : ActiveCondition) : List ActiveCondition → List ActiveCondition
  | [] => [a]
  | b :: l =>
    if b.SameKey a then { b with severity := b.severity.max a.severity } :: l
    else if a.Before b then a :: b :: l
    else b :: add a l

def alike : List ActiveCondition → List ActiveCondition → Bool
  | [], [] => true
  | a :: l, b :: m => decide (a.SameKey b) && a.severity.equals b.severity && alike l m
  | _, _ => false

end ActiveCondition

namespace ResolvedCondition

def IsActiveAt (c : ResolvedCondition) (t : Int) : Prop :=
  c.type ≠ .nothing ∧ c.start ≤ t ∧ t < c.stop

instance (c : ResolvedCondition) (t : Int) : Decidable (c.IsActiveAt t) :=
  inferInstanceAs (Decidable (_ ∧ _))

def toActive (c : ResolvedCondition) : ActiveCondition :=
  { type := c.type, url := c.url, severity := c.severity }

end ResolvedCondition

namespace Timeline

def activeAt (conditions : List ResolvedCondition) (t : Int) : List ActiveCondition :=
  (conditions.filter fun c => c.IsActiveAt t).foldl (fun l c => c.toActive.add l) []

def insertPoint (t : Int) : List Int → List Int
  | [] => [t]
  | s :: l => if t < s then t :: s :: l else if t = s then s :: l else s :: insertPoint t l

def breakpoints (conditions : List ResolvedCondition) : List Int :=
  conditions.foldr (fun c l => insertPoint c.start (insertPoint c.stop l)) []

def windows (l : List Int) : List (Int × Int) := l.zip l.tail

def segmentOver (conditions : List ResolvedCondition) (window : Int × Int) : Segment :=
  { start := window.1, stop := window.2 - 1, active := activeAt conditions window.1 }

/-- The segments from `current` on, which is widened over windows with the same active conditions. -/
def segmentsFrom (conditions : List ResolvedCondition) (current : Segment) :
    List (Int × Int) → List Segment
  | [] => [current]
  | w :: ws =>
    let next := segmentOver conditions w
    if ActiveCondition.alike current.active next.active then
      segmentsFrom conditions { current with stop := next.stop } ws
    else current :: segmentsFrom conditions next ws

def flatten (conditions : List ResolvedCondition) : List Segment :=
  match windows (breakpoints conditions) with
  | [] => []
  | w :: ws => segmentsFrom conditions (segmentOver conditions w) ws

end Timeline

end DriveLog
