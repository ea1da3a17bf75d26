import DriveLog.Focus
import DriveLog.Store.Basic
import DriveLog.Store.Step
/-!
Links to footage. A source leads, from record to record, to the video that it came from; the sources
met on a way that ended in a video are remembered with the link of that video.
-/
set_option autoImplicit false

namespace DriveLog

inductive TimelineFault where
  | brokenChain (current origin : Source)
  | endlessChain (origin : Source) (limit : Nat)
  | unknownEventType (event trip : String)
  | missingTime (event trip : String)
  deriving DecidableEq, Repr

def TimelineFault.message : TimelineFault → String
  | .brokenChain current origin =>
    s!"{current.key} has no source; chain from {origin.key} never reaches a video"
  | .endlessChain origin limit =>
    s!"source chain from {origin.key} does not reach a video within {limit} hops"
  | .unknownEventType event trip =>
    s!"event {Text.quoted event} in trip {Text.quoted trip} has unknown type"
  | .missingTime event trip =>
    s!"event {Text.quoted event} in trip {Text.quoted trip} has no timestamp"

inductive TimelineError where
  | badState (fault : TimelineFault)
  | storage (step : Step) (error : StorageError)
  deriving DecidableEq, Repr

namespace TimelineError

def message : TimelineError → String
  | .badState fault => "Bad state: " ++ fault.message
  | .storage step error => s!"Storage error while {step.text}: {error.message}"

def isBadState : TimelineError → Bool
  | .badState _ => true
  | _ => false

def isNotFound : TimelineError → Bool
  | .storage _ error => error.isNotFound
  | _ => false

end TimelineError

/-- Links by the key of the source, each key once. -/
abbrev LinkCache := List (String × String)

namespace LinkCache

def get? (cache : LinkCache) (key : String) : Option String := cache.lookup key

def insert (key url : String) : LinkCache → LinkCache
  | [] => [(key, url)]
  | e :: cache => if e.1 = key then (key, url) :: cache else e :: insert key url cache

theorem get?_cons (e : String × String) (cache : LinkCache) (key : String) :
    get? (e :: cache) key = if e.1 = key then some e.2 else get? cache key := by
  obtain ⟨k, url⟩ := e
  by_cases h : k = key
  · simp [get?, h]
  · simp [get?, List.lookup_cons, h, beq_false_of_ne (Ne.symm h)]

@[simp] theorem get?_insert_self (key url : String) (cache : LinkCache) :
    (cache.insert key url).get? key = some url := by
  induction cache with
  | nil => simp [insert, get?_cons]
  | cons e cache ih =>
    unfold insert
    split <;> simp_all [get?_cons]

theorem get?_insert_of_ne {key k : String} (h : key ≠ k) (url : String) (cache : LinkCache) :
    (cache.insert key url).get? k = cache.get? k := by
  induction cache with
  | nil => simp [insert, get?_cons, h]
  | cons e cache ih =>
    unfold insert
    split <;> simp_all [get?_cons]

def insertAll (keys : List String) (url : String) (cache : LinkCache) : LinkCache :=
  keys.foldl (fun cache key => insert key url cache) cache

end LinkCache

structure Linked (σ : Type) where
  store : σ
  links : LinkCache

abbrev TimelineM (σ : Type) := EStateM TimelineError (Linked σ)

namespace Timeline
variable {σ α : Type}

def during (step : Step) : StoreM σ α → TimelineM σ α :=
  focus Linked.store (fun store s => { s with store }) (.storage step)

variable [RecordStore σ]

/-- A raw record is a video with its link, or points at the next source if it has one. -/
def step (s : Source) : TimelineM σ (String ⊕ Option Source) :=
  match s.type with
  | .rawVideo => return .inl (← during (.gettingVideo s.id) (StoreM.fetch RawVideo s.id)).file
  | .rawMotion => return .inr (← during (.gettingMotion s.id) (StoreM.fetch RawMotion s.id)).source
  | .rawLocation =>
    return .inr (← during (.gettingLocation s.id) (StoreM.fetch RawLocation s.id)).source

def remember (keys : List String) (url : String) : TimelineM σ Unit :=
  modify fun s => { s with links := s.links.insertAll keys url }

def follow (origin : Source) (limit : Nat) :
    Nat → (visited : List String) → (current : Source) → TimelineM σ String
  | 0, _, _ => throw (.badState (.endlessChain origin limit))
  | n + 1, visited, current => do
    match (← get).links.get? current.key with
    | some url => remember visited url; return url
    | none =>
      match ← step current with
      | .inl url => remember (visited ++ [current.key]) url; return url
      | .inr none => throw (.badState (.brokenChain current origin))
      | .inr (some next) => follow origin limit n (visited ++ [current.key]) next

def findLink (limit : Nat) (source : Source) : TimelineM σ String := follow source limit limit [] source

end Timeline

end DriveLog
