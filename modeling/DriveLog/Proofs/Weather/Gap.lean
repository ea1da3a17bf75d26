import DriveLog.Proofs.Subtraction
import DriveLog.Proofs.Weather.Grouping
set_option autoImplicit false

namespace DriveLog

/-- Times of the calendar are not further apart than words reach. -/
theorem Calendar.isWord_sub {t u : Int} (ht : isInstant t = true) (hu : isInstant u = true) :
    IsWord (u - t) := by
  simp only [isInstant, Bool.and_eq_true, decide_eq_true_eq] at ht hu
  rw [isWord_iff]
  omega

namespace Weather
variable {m : Type → Type} [Monad m]

def runsFromBy (arith : Subtraction m) (run : WeatherRun) : List RawLocation → m (List WeatherRun)
  | [] => return [run]
  | l :: rest => do
    let gap ← arith.sub 0 l.time run.last.time
    if gap ≤ maxGap then runsFromBy arith { run with last := l } rest
    else return run :: (← runsFromBy arith ⟨l, l⟩ rest)

def runsBy (arith : Subtraction m) : List RawLocation → m (List WeatherRun)
  | [] => return []
  | l :: rest => runsFromBy arith ⟨l, l⟩ rest

def conditionsBy (arith : Subtraction m) (user : String) (samples : List WeatherSample) :
    m (List DrivingCondition) := do
  let conditions ← (classesOf samples).mapM fun w => do
    return (← runsBy arith (samplesOf samples w)).map (conditionOf user w)
  return sortBy (fun c d => c.start < d.start || c.start == d.start && c.type.rank ≤ d.type.rank)
    conditions.flatten

def generateBy (arith : Subtraction m) (service : WeatherService) (settings : WeatherSettings)
    (user : String) (locations : List RawLocation) : WeatherM (m (List DrivingCondition)) := do
  return conditionsBy arith user (← locations.mapM (classify service settings))

variable [LawfulMonad m] (arith : Subtraction m) {service : WeatherService} {settings : WeatherSettings}
  {l : List RawLocation} {samples : List WeatherSample} {s t : WeatherCache}

theorem runsFromBy_eq {run : WeatherRun}
    (hsorted : (run.last :: l).Pairwise fun k l => k.time ≤ l.time)
    (hinstant : ∀ k ∈ run.last :: l, Calendar.isInstant k.time = true) :
    runsFromBy arith run l = pure (runsFrom run l) := by
  induction l generalizing run with
  | nil => rfl
  | cons k rest ih =>
    obtain ⟨hlast, hinstant⟩ := List.forall_mem_cons.mp hinstant
    have hle : run.last.time ≤ k.time := (List.pairwise_cons.mp hsorted).1 k (by simp)
    have hword : IsWord (k.time - run.last.time) := Calendar.isWord_sub hlast (hinstant k (by simp))
    unfold runsFromBy runsFrom
    rw [arith.sub_eq hword (by omega), pure_bind]
    -- the sample is the last one of a run from here on, of the old one or of one of its own
    split
    · exact @ih { run with last := k } hsorted.of_cons hinstant
    · rw [@ih ⟨k, k⟩ hsorted.of_cons hinstant, pure_bind]

theorem runsBy_eq (hsorted : l.Pairwise fun k l => k.time ≤ l.time)
    (hinstant : ∀ k ∈ l, Calendar.isInstant k.time = true) : runsBy arith l = pure (runs l) := by
  cases l with
  | nil => rfl
  | cons k rest => exact runsFromBy_eq arith hsorted hinstant

/-- Times that are not in the calendar may be too far apart. -/
example : runsBy .checked [⟨"a", "u", Int64.minValue.toInt, sampleCoordinate, none⟩,
    ⟨"b", "u", Int64.maxValue.toInt, sampleCoordinate, none⟩] = none := by decide +kernel

theorem conditionsBy_eq (user : String)
    (hinstant : ∀ k ∈ samples, Calendar.isInstant k.location.time = true) :
    conditionsBy arith user samples = pure (conditionsOf user samples) := by
  have hruns : ∀ w, runsBy arith (samplesOf samples w) = pure (runs (samplesOf samples w)) := by
    intro w
    refine runsBy_eq arith (pairwise_samplesOf samples w) fun k hk => ?_
    obtain ⟨sample, hsample, rfl⟩ := List.mem_map.mp (mem_sortBy.mp hk)
    exact hinstant sample (List.mem_filter.mp hsample).1
  simp only [conditionsBy, conditionsOf, hruns, pure_bind, List.mapM_pure, List.flatMap]

theorem Classified.isInstant (h : Classified service settings s l samples t) :
    ∀ k ∈ samples, Calendar.isInstant k.location.time = true := by
  induction h with
  | nil => simp
  | cons instant _ _ _ ih => exact List.forall_mem_cons.mpr ⟨instant, ih⟩

theorem generateBy_eq (user : String) (locations : List RawLocation) :
    generateBy arith service settings user locations =
      pure <$> generate service settings user locations := by
  funext s
  rw [generate, generateBy, map_bind]
  rcases classified_or_stopped service settings locations s with ⟨samples, t, h⟩ | ⟨e, t, h⟩
  · rw [bind_of_eq_ok h.mapM_eq, bind_of_eq_ok h.mapM_eq, conditionsBy_eq arith user h.isInstant, map_pure]
  · rw [bind_of_eq_error h.mapM_eq, bind_of_eq_error h.mapM_eq]

end Weather

end DriveLog
