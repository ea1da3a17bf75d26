import DriveLog.Proofs.Weather.Round
import DriveLog.Weather.Condition
set_option autoImplicit false

namespace DriveLog

theorem WeatherClass.percent_le {code : Int} {w : WeatherClass} (h : ofCode? code = some w) :
    w.percent ≤ 100 := by
  unfold ofCode? at h
  split at h <;> simp_all <;> simp [← h]

theorem WeatherClass.isFinite_severity {w : WeatherClass} (h : w.percent ≤ 100) :
    w.severity.isFinite = true := by
  have hall : ∀ n : Fin 101, (Binary64.ofInt n.val).isFinite = true := by decide +kernel
  exact hall ⟨w.percent, by omega⟩

namespace Weather

theorem first_le_last_of_mem_runsFrom {run r : WeatherRun} {l : List RawLocation}
    (hrun : run.first.time ≤ run.last.time)
    (hsorted : (run.last :: l).Pairwise fun k l => k.time ≤ l.time) (hr : r ∈ runsFrom run l) :
    r.first.time ≤ r.last.time := by
  induction l generalizing run with
  | nil =>
    rw [runsFrom, List.mem_singleton] at hr
    rwa [hr]
  | cons k rest ih =>
    obtain ⟨hk, hrest⟩ := List.pairwise_cons.mp hsorted
    have hlast : run.last.time ≤ k.time := hk k (by simp)
    unfold runsFrom at hr
    split at hr
    · refine ih ?_ ?_ hr
      · exact Int.le_trans hrun hlast
      · exact hrest
    · rcases List.mem_cons.mp hr with rfl | hr
      · exact hrun
      · exact ih (Int.le_refl _) hrest hr

theorem first_le_last_of_mem_runs {r : WeatherRun} {l : List RawLocation}
    (hsorted : l.Pairwise fun k l => k.time ≤ l.time) (hr : r ∈ runs l) :
    r.first.time ≤ r.last.time := by
  cases l with
  | nil => simp [runs] at hr
  | cons k rest => exact first_le_last_of_mem_runsFrom (Int.le_refl _) hsorted hr

theorem pairwise_samplesOf (samples : List WeatherSample) (w : WeatherClass) :
    (samplesOf samples w).Pairwise fun k l => k.time ≤ l.time :=
  pairwise_sortBy_le RawLocation.time _

/-- What the log may rely on in a condition. -/
structure Sensible (user : String) (c : DrivingCondition) : Prop where
  user_eq : c.user = user
  start_le : c.start ≤ c.stop
  severity : c.severity.isFinite = true

theorem sensible_of_mem {user : String} {samples : List WeatherSample} {c : DrivingCondition}
    (h : ∀ s ∈ samples, s.weather.percent ≤ 100) (hc : c ∈ conditionsOf user samples) :
    Sensible user c := by
  unfold conditionsOf at hc
  rw [mem_sortBy, List.mem_flatMap] at hc
  obtain ⟨w, hw, hc⟩ := hc
  obtain ⟨run, hrun, rfl⟩ := List.mem_map.mp hc
  have hpercent : w.percent ≤ 100 := by
    rw [classesOf, mem_sortBy, List.mem_eraseDups] at hw
    obtain ⟨s, hs, rfl⟩ := List.mem_map.mp hw
    exact h s hs
  exact ⟨rfl, first_le_last_of_mem_runs (pairwise_samplesOf samples w) hrun,
    WeatherClass.isFinite_severity hpercent⟩

theorem ends_classify (service : WeatherService) (settings : WeatherSettings) (l : RawLocation)
    (cache : WeatherCache) :
    Ends (classify service settings l) cache (fun s _ => s.weather.percent ≤ 100)
      (fun _ _ => True) := by
  unfold classify
  refine Ends.bind (Q := fun _ _ => True) (Ends.trivial _ _) fun report t _ => ?_
  cases hw : WeatherClass.ofCode? report.code with
  | none => exact Ends.throw trivial
  | some w => exact Ends.pure (WeatherClass.percent_le hw)

theorem ends_generate (service : WeatherService) (settings : WeatherSettings) (user : String)
    (locations : List RawLocation) (cache : WeatherCache) :
    Ends (generate service settings user locations) cache
      (fun conditions _ => ∀ c ∈ conditions, Sensible user c) (fun _ _ => True) := by
  unfold generate
  refine (Ends.mapM_each (R := fun _ s => s.weather.percent ≤ 100) (J := fun _ => True)
    (fun l _ t _ => (ends_classify service settings l t).imp fun _ _ h => ⟨h, trivial⟩)
    trivial).bind fun samples t hs => Ends.pure fun c hc => ?_
  refine sensible_of_mem (fun s hmem => ?_) hc
  obtain ⟨_, _, hpercent⟩ := hs.1 s hmem
  exact hpercent

theorem first_mem_of_mem_runsFrom {run r : WeatherRun} {l : List RawLocation}
    (hr : r ∈ runsFrom run l) : r.first = run.first ∨ r.first ∈ l := by
  induction l generalizing run with
  | nil =>
    rw [runsFrom, List.mem_singleton] at hr
    exact .inl (by rw [hr])
  | cons k rest ih =>
    unfold runsFrom at hr
    split at hr
    · exact (ih hr).imp_right fun h => by simp [h]
    · rcases List.mem_cons.mp hr with rfl | hr
      · exact .inl rfl
      · rcases ih hr with h | h
        · exact .inr (by simp [h])
        · exact .inr (by simp [h])

theorem first_mem_of_mem_runs {r : WeatherRun} {l : List RawLocation} (hr : r ∈ runs l) :
    r.first ∈ l := by
  cases l with
  | nil => simp [runs] at hr
  | cons k rest =>
    rcases first_mem_of_mem_runsFrom hr with h | h
    · exact h ▸ List.mem_cons_self
    · exact List.mem_cons_of_mem k h

theorem exists_source_of_mem {user : String} {samples : List WeatherSample} {c : DrivingCondition}
    (hc : c ∈ conditionsOf user samples) :
    ∃ s ∈ samples, c.source = ⟨.rawLocation, s.location.id⟩ := by
  unfold conditionsOf at hc
  rw [mem_sortBy, List.mem_flatMap] at hc
  obtain ⟨w, -, hc⟩ := hc
  obtain ⟨run, hrun, rfl⟩ := List.mem_map.mp hc
  have hfirst := first_mem_of_mem_runs hrun
  unfold samplesOf at hfirst
  rw [mem_sortBy] at hfirst
  obtain ⟨s, hs, hlocation⟩ := List.mem_map.mp hfirst
  exact ⟨s, (List.mem_filter.mp hs).1, by rw [hlocation]; rfl⟩

theorem pairwise_conditionsOf (user : String) (samples : List WeatherSample) :
    (conditionsOf user samples).Pairwise fun c d => c.start ≤ d.start := by
  refine (pairwise_sortBy (fun c d => ?_) (fun b c d => ?_) _).imp fun {c d} h => ?_
  · simp only [Bool.or_eq_true, Bool.and_eq_true, decide_eq_true_eq, beq_iff_eq]
    omega
  · simp only [Bool.or_eq_true, Bool.and_eq_true, decide_eq_true_eq, beq_iff_eq]
    omega
  · simp only [Bool.or_eq_true, Bool.and_eq_true, decide_eq_true_eq, beq_iff_eq] at h
    omega

theorem ends_generate_sources (service : WeatherService) (settings : WeatherSettings) (user : String)
    (locations : List RawLocation) (cache : WeatherCache) :
    Ends (generate service settings user locations) cache
      (fun conditions _ => conditions.Pairwise (fun c d => c.start ≤ d.start) ∧
        ∀ c ∈ conditions, ∃ l ∈ locations, c.source = ⟨.rawLocation, l.id⟩) (fun _ _ => True) := by
  have hclassify : ∀ l cache, Ends (classify service settings l) cache
      (fun s _ => s.location = l) (fun _ _ => True) := by
    intro l cache
    unfold classify
    refine Ends.bind (Ends.trivial _ _) fun report t _ => ?_
    cases WeatherClass.ofCode? report.code with
    | none => exact Ends.throw trivial
    | some w => exact Ends.pure rfl
  unfold generate
  refine (Ends.mapM_each (R := fun l s => s.location = l) (J := fun _ => True)
    (fun l _ t _ => (hclassify l t).imp fun _ _ h => ⟨h, trivial⟩) trivial).bind
      fun samples t hs => Ends.pure ⟨pairwise_conditionsOf user samples, fun c hc => ?_⟩
  obtain ⟨s, hmem, hsource⟩ := exists_source_of_mem hc
  obtain ⟨l, hl, hlocation⟩ := hs.1 s hmem
  exact ⟨l, hl, by rw [hsource, hlocation]⟩

section clear
variable {settings : WeatherSettings} {c : Coordinate}

def clearSample (l : RawLocation) : WeatherSample := ⟨l, ⟨.nothing, 0⟩⟩

theorem classify_of_lookup {service : WeatherService} {l : RawLocation} {s t : WeatherCache}
    {report : WeatherReport} {weather : WeatherClass}
    (h : lookup service settings l.time l.coordinate s = .ok report t)
    (hcode : WeatherClass.ofCode? report.code = some weather) :
    classify service settings l s = .ok ⟨l, weather⟩ t := by
  rw [classify, bind_of_eq_ok h, hcode]
  rfl

theorem classify_clear (hmax : 1 ≤ settings.maxCalls) {locations : List RawLocation}
    (h : ∀ l ∈ locations, l.coordinate = c ∧ 0 ≤ l.time ∧ l.time < 10000000000) :
    locations.mapM (classify clearService settings) (clearCache c) =
      .ok (locations.map clearSample) (clearCache c) := by
  induction locations with
  | nil => rfl
  | cons l rest ih =>
    obtain ⟨rfl, hlo, hhi⟩ := h l (by simp)
    have hfirst : classify clearService settings l (clearCache l.coordinate) =
        .ok (clearSample l) (clearCache l.coordinate) :=
      classify_of_lookup (lookup_clear hlo hhi hmax l.coordinate) rfl
    rw [List.mapM_cons, bind_of_eq_ok hfirst, bind_of_eq_ok (ih fun k hk => h k (by simp [hk]))]
    rfl

theorem generate_clear (hmax : 2 ≤ settings.maxCalls) (user : String) {l : RawLocation}
    {rest : List RawLocation}
    (h : ∀ k ∈ l :: rest, k.coordinate = c ∧ 0 ≤ k.time ∧ k.time < 10000000000) :
    generate clearService settings user (l :: rest) {} =
      .ok (conditionsOf user ((l :: rest).map clearSample)) (clearCache c) := by
  obtain ⟨rfl, hlo, hhi⟩ := h l (by simp)
  have hfirst : classify clearService settings l {} =
      .ok (clearSample l) (clearCache l.coordinate) :=
    classify_of_lookup (lookup_clear_new hlo hhi hmax l.coordinate) rfl
  have hsome : 1 ≤ settings.maxCalls := by omega
  have hrest := classify_clear hsome fun k hk => h k (List.mem_cons_of_mem l hk)
  have hall : (l :: rest).mapM (classify clearService settings) {} =
      .ok ((l :: rest).map clearSample) (clearCache l.coordinate) := by
    rw [List.mapM_cons, bind_of_eq_ok hfirst, bind_of_eq_ok hrest]
    rfl
  rw [generate, bind_of_eq_ok hall]
  rfl

end clear

end Weather

end DriveLog
