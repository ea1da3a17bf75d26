import DriveLog.Proofs.Ingest.Run
import DriveLog.Proofs.Trip.Frame
set_option autoImplicit false

namespace DriveLog.Ingest
variable {s : Intake Repository} {l : List Fact} {user : String}
  {conditions : List DrivingCondition}

/-- What is recorded for the batch so far is stored as it was told, and starts no later than what is
still to come. -/
theorem ends_storeConditions_current (hk : Keeps l s)
    (hsensible : ∀ c ∈ conditions, Weather.Sensible user c)
    (hsorted : conditions.Pairwise fun c d => c.start ≤ d.start) :
    Ends (conditions.mapM fun c => onStore .consolidation (Consolidation.recordCondition c)) s
      (fun cs t => t.store.table.Sound ∧ ∀ c ∈ cs, .condition c ∈ t.store.table.facts)
      (fun _ _ => False) := by
  have hloop := Ends.mapM (l := conditions) (s := s) (E := fun _ _ => False)
    (f := fun c => onStore (σ := Repository) .consolidation (Consolidation.recordCondition c))
    (I := fun _ cs rest t => (∃ m, Keeps m t) ∧
      (∀ c ∈ cs, .condition c ∈ t.store.table.facts ∧ ∀ d ∈ rest, c.start ≤ d.start) ∧
      (∀ d ∈ rest, Weather.Sensible user d) ∧ rest.Pairwise fun c d => c.start ≤ d.start)
    ?step ⟨⟨l, hk⟩, by simp, hsensible, hsorted⟩
  case step =>
    intro done cs d rest t ⟨⟨m, hkt⟩, hstored, hrest, hsorted⟩
    obtain ⟨hfirst, hsorted⟩ := List.pairwise_cons.mp hsorted
    have hd := hrest d (by simp)
    have hsteady : Ends (onStore .consolidation (Consolidation.recordCondition d)) t
        (fun g u => .condition g ∈ u.store.table.facts ∧
          ∀ f ∈ t.store.table.facts, f.span.start ≤ d.start → f ∈ u.store.table.facts)
        (fun _ _ => True) :=
      (Consolidation.ends_recordCondition_steady hd.start_le hkt.ready hkt.holds).focus
        (fun _ _ h => h) fun _ _ _ => trivial
    refine ((ends_storeCondition hkt hd.start_le hd.severity).and_ok hsteady).imp fun g u hu => ?_
    obtain ⟨⟨hku, hcontent⟩, hg, hkept⟩ := hu
    have hstart : g.start = d.start := congrArg Span.start (Fact.span_eq_of_content hcontent)
    refine ⟨⟨_, hku⟩, fun c hc => ?_, fun e he => hrest e (by simp [he]), hsorted⟩
    rcases List.mem_append.mp hc with hc | hc
    · obtain ⟨hmem, hle⟩ := hstored c hc
      exact ⟨hkept _ hmem (hle d (by simp)), fun e he => hle e (by simp [he])⟩
    · obtain rfl := List.mem_singleton.mp hc
      exact ⟨hg, fun e he => hstart ▸ hfirst e he⟩
  refine hloop.imp fun cs t ht => ?_
  obtain ⟨⟨m, hkt⟩, hstored, -⟩ := ht
  exact ⟨hkt.holds.sound, fun c hc => (hstored c hc).1⟩

theorem ends_recordLocations_current (hk : Keeps l s) (service : WeatherService)
    (settings : IngestSettings) (user : String) (samples : List RawLocation) :
    Ends (recordLocations service settings user samples) s
      (fun cs t => t.store.table.Sound ∧ ∀ c ∈ cs, .condition c ∈ t.store.table.facts)
      (fun _ _ => True) :=
  (ends_recordLocations_of hk service settings user samples fun _ _ _ h =>
    ends_storeConditions_current h.keeps h.sensible h.sorted).of_ok

/-- On a repository that holds raw records only and has ids that never repeat, whatever calls have
been made: the conditions that a batch of samples is answered with are stored as they are told, each
in a trip of its user. -/
theorem batch_current (service : WeatherService) (settings : IngestSettings)
    {s₀ : Intake Repository} (hready : s₀.store.Ready true) (hraw : s₀.store.table.IsRaw)
    {calls : List IngestCall} {answers : List (Except IngestError IngestAnswer)}
    {s : Intake Repository} (hserve : serve service settings calls s₀ = (answers, s))
    {user : String} {samples : List RawLocation} {conditions : List DrivingCondition}
    {s' : Intake Repository}
    (hrecord : recordLocations service settings user samples s = .ok conditions s') :
    ∀ c ∈ conditions,
      s'.store.table.get? ⟨.drivingCondition, c.id⟩ = some (.drivingCondition c) ∧
      ∃ T : Trip, s'.store.table.get? ⟨.trip, c.trip⟩ = some (.trip T) ∧ T.user = c.user := by
  intro c hc
  obtain ⟨hk, -⟩ := keeps_of_isRaw service settings hready hraw hserve
  obtain ⟨hsound, hstored⟩ :=
    (ends_recordLocations_current hk service settings user samples).of_eq_ok hrecord
  have hmem := hstored c hc
  obtain ⟨T, hT, hid, huser⟩ := hsound.placed _ hmem
  refine ⟨(Table.mem_facts_iff hsound.wellFormed).mp hmem, T, ?_, huser⟩
  rw [show c.trip = T.id from hid.symm]
  exact (Table.mem_trips_iff hsound.wellFormed).mp hT

theorem recordLocations_eq {service : WeatherService} {settings : IngestSettings}
    {samples stored : List RawLocation} {t : Intake Repository} {w : WeatherCache}
    (hvalid : ∀ sample ∈ samples, Validation.location user sample = .ok ())
    (hstore : samples.mapM (fun sample => onStore .storage (StoreM.persist sample)) s = .ok stored t)
    (hweather : Weather.generate service settings.weather user stored t.weather =
      .ok conditions w) :
    recordLocations service settings user samples s =
      conditions.mapM (fun c => onStore .consolidation (Consolidation.recordCondition c))
        { t with weather := w } := by
  have hrules : samples.forM (fun sample => validate (Validation.location user sample)) s =
      .ok ⟨⟩ s := by
    clear hstore
    induction samples with
    | nil => rfl
    | cons sample rest ih =>
      have hfirst : (validate (Validation.location user sample) : IngestM Repository Unit) s =
          .ok () s := by
        rw [hvalid sample (by simp)]
        rfl
      rw [List.forM_eq_forM, List.forM_cons, bind_of_eq_ok hfirst]
      exact ih fun sample h => hvalid sample (by simp [h])
  have honWeather : (onWeather (Weather.generate service settings.weather user stored) :
      IngestM Repository _) t = .ok conditions { t with weather := w } := by
    unfold onWeather focus
    rw [hweather]
  rw [recordLocations, bind_of_eq_ok hrules, bind_of_eq_ok hstore, bind_of_eq_ok honWeather]

theorem answer_locations {service : WeatherService} {settings : IngestSettings}
    {samples : List RawLocation} {s' : Intake Repository}
    (h : recordLocations service settings user samples s = .ok conditions s') :
    answer service settings (.locations user samples) s = .ok (.locations conditions) s' := by
  rw [answer, ← bind_pure_comp, bind_of_eq_ok h]
  rfl

theorem recordLocations_clear {settings : IngestSettings} (hmax : 2 ≤ settings.weather.maxCalls)
    {samples rest : List RawLocation} {k : RawLocation} {t : Intake Repository} {c : Coordinate}
    (hvalid : ∀ sample ∈ samples, Validation.location user sample = .ok ())
    (hstore : samples.mapM (fun sample => onStore .storage (StoreM.persist sample)) s =
      .ok (k :: rest) t) (hnew : t.weather = {})
    (hplace : ∀ j ∈ k :: rest, j.coordinate = c ∧ 0 ≤ j.time ∧ j.time < 10000000000) :
    recordLocations Weather.clearService settings user samples s =
      (Weather.conditionsOf user ((k :: rest).map Weather.clearSample)).mapM
        (fun c => onStore .consolidation (Consolidation.recordCondition c))
        { t with weather := Weather.clearCache c } :=
  recordLocations_eq hvalid hstore (hnew ▸ Weather.generate_clear hmax user hplace)

def sampleBatch : List RawLocation :=
  [⟨"", "ann", 4, Weather.sampleCoordinate, none⟩,
    ⟨"", "ann", 7200004, Weather.sampleCoordinate, none⟩]

def sampleStored : List RawLocation :=
  [⟨"ii", "ann", 4, Weather.sampleCoordinate, none⟩,
    ⟨"iii", "ann", 7200004, Weather.sampleCoordinate, none⟩]

def sampleDriven : List (Except IngestError IngestAnswer) × Intake Repository :=
  serve Weather.clearService {} [.condition ⟨"", "ann", "", .rain, ⟨0⟩, 2, 9, ⟨.rawVideo, "v"⟩⟩]
    sampleIntake

def sampleSaved : Intake Repository :=
  match sampleBatch.mapM (fun sample => onStore (σ := Repository) .storage (StoreM.persist sample))
      sampleDriven.2 with
  | .ok _ t => t
  | .error _ t => t

def sampleCurrent : EStateM.Result IngestError (Intake Repository) (List DrivingCondition) :=
  (Weather.conditionsOf "ann" (sampleStored.map Weather.clearSample)).mapM
    (fun c => onStore .consolidation (Consolidation.recordCondition c))
    { sampleSaved with weather := Weather.clearCache Weather.sampleCoordinate }

theorem recordLocations_sample :
    recordLocations Weather.clearService {} "ann" sampleBatch sampleDriven.2 = sampleCurrent := by
  have hvalid : ∀ sample ∈ sampleBatch, Validation.location "ann" sample = .ok () := by
    decide +kernel
  have hstore : sampleBatch.mapM (fun sample => onStore .storage (StoreM.persist sample))
      sampleDriven.2 = .ok sampleStored sampleSaved := rfl
  exact recordLocations_clear (by decide) hvalid hstore rfl (by decide)

theorem batch_current_of_sample :
    sampleIntake.store.Ready true ∧ sampleIntake.store.table.IsRaw ∧
      ∃ conditions s, recordLocations Weather.clearService {} "ann" sampleBatch sampleDriven.2 =
          .ok conditions s ∧ conditions.length = 2 ∧
        ∀ c ∈ conditions,
          s.store.table.get? ⟨.drivingCondition, c.id⟩ = some (.drivingCondition c) := by
  refine ⟨sampleIntake_ready, sampleIntake_isRaw, ?_⟩
  have hlength : (match sampleCurrent with
      | .ok conditions _ => conditions.length
      | .error _ _ => 0) = 2 := by decide +kernel
  cases hcurrent : sampleCurrent with
  | error e s => simp [hcurrent] at hlength
  | ok conditions s =>
    have hrecord := recordLocations_sample.trans hcurrent
    refine ⟨conditions, s, hrecord, by simpa [hcurrent] using hlength, fun c hc => ?_⟩
    exact (batch_current Weather.clearService {} sampleIntake_ready sampleIntake_isRaw rfl hrecord
      c hc).1

end DriveLog.Ingest
