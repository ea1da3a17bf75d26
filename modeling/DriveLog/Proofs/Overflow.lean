import DriveLog.Proofs.Timeline.Ending
import DriveLog.Proofs.Weather.Gap
set_option autoImplicit false

namespace DriveLog

/-- Whatever the samples and the weather service, a run that stops at the first gap between samples that is
negative or no word never stops, nor does one that wraps around come to anything else than integers do. The same
holds of conditions over any words, and of a run that stops at the first end that is no word or before the start
of its segment. -/
theorem times_never_overflow :
    (∀ (service : WeatherService) (settings : WeatherSettings) (user : String)
        (locations : List RawLocation),
      Weather.generateBy .checked service settings user locations =
          some <$> Weather.generate service settings user locations ∧
        Weather.generateBy .wrapping service settings user locations =
          Weather.generate service settings user locations) ∧
    ∀ conditions : List ResolvedCondition, (∀ c ∈ conditions, IsWord c.start ∧ IsWord c.stop) →
      Timeline.flattenBy .checked conditions = some (Timeline.flatten conditions) ∧
        Timeline.flattenBy .wrapping conditions = Timeline.flatten conditions := by
  refine ⟨fun service settings user locations => ⟨?_, ?_⟩, fun conditions hword => ⟨?_, ?_⟩⟩
  · exact Weather.generateBy_eq .checked user locations
  · exact (Weather.generateBy_eq .wrapping user locations).trans (id_map _)
  · exact Timeline.flattenBy_eq .checked hword
  · exact Timeline.flattenBy_eq .wrapping hword

def widestConditions : List ResolvedCondition :=
  [⟨.rain, .ofInt 20, Int64.minValue.toInt, 5, "a"⟩, ⟨.nothing, .ofInt 0, 0, Int64.maxValue.toInt, "a"⟩,
    ⟨.snow, .ofInt 30, Int64.maxValue.toInt, Int64.minValue.toInt, "b"⟩]

def widestSegments : List Segment :=
  [⟨Int64.minValue.toInt, 4, [⟨.rain, "a", .ofInt 20⟩]⟩, ⟨5, Int64.maxValue.toInt - 1, []⟩]

def scatteredPlaces : List RawLocation :=
  [⟨"c", "u", 7200001, Weather.sampleCoordinate, none⟩, ⟨"a", "u", 0, Weather.sampleCoordinate, none⟩,
    ⟨"b", "u", 3600000, Weather.sampleCoordinate, none⟩]

def scatteredConditions : List DrivingCondition :=
  [⟨"", "u", "", .nothing, .ofInt 0, 0, 3600000, ⟨.rawLocation, "a"⟩⟩,
    ⟨"", "u", "", .nothing, .ofInt 0, 7200001, 7200001, ⟨.rawLocation, "c"⟩⟩]

theorem times_never_overflow_of_sample :
    (∀ c ∈ widestConditions, IsWord c.start ∧ IsWord c.stop) ∧
      Timeline.flattenBy .checked widestConditions = some widestSegments ∧
      Timeline.flattenBy .wrapping widestConditions = widestSegments ∧
      Weather.generateBy .checked Weather.clearService {} "u" scatteredPlaces {} =
        .ok (some scatteredConditions) (Weather.clearCache Weather.sampleCoordinate) ∧
      Weather.generateBy .wrapping Weather.clearService {} "u" scatteredPlaces {} =
        .ok scatteredConditions (Weather.clearCache Weather.sampleCoordinate) := by
  have hword : ∀ c ∈ widestConditions, IsWord c.start ∧ IsWord c.stop := by decide +kernel
  have hsegments : Timeline.flatten widestConditions = widestSegments := by decide +kernel
  have hconditions : Weather.conditionsOf "u" (scatteredPlaces.map Weather.clearSample) =
      scatteredConditions := by decide +kernel
  have hgenerate : Weather.generate Weather.clearService {} "u" scatteredPlaces {} =
      .ok scatteredConditions (Weather.clearCache Weather.sampleCoordinate) := by
    rw [← hconditions]
    exact Weather.generate_clear (by decide) "u" (by decide)
  obtain ⟨hchecked, hwrapping⟩ := times_never_overflow.2 widestConditions hword
  obtain ⟨hchecked', hwrapping'⟩ :=
    times_never_overflow.1 Weather.clearService {} "u" scatteredPlaces
  rw [hsegments] at hchecked hwrapping
  rw [← bind_pure_comp] at hchecked'
  refine ⟨hword, hchecked, hwrapping, ?_, ?_⟩
  · rw [hchecked', bind_of_eq_ok hgenerate]
    rfl
  · rw [hwrapping', hgenerate]

end DriveLog
