import DriveLog.Proofs.Ingest.Current
import DriveLog.Proofs.Timeline.Reach
/-!
What stands behind the facts of a log. Raw records stay for good, so that a source which leads to a
video does so ever after, and a condition of the weather names a sample that is stored. Main statement:
where the sources that were told lead to videos, a report fails only for a condition that names a sample
without a source.
-/
set_option autoImplicit false

namespace DriveLog

/-- Records that are neither trips nor facts stay. -/
def Table.Grows (t u : Table) : Prop :=
  ∀ k r, ¬ k.IsLogged → t.get? k = some r → u.get? k = some r

namespace Table
variable {t u v : Table}

theorem Grows.refl (t : Table) : t.Grows t := fun _ _ _ h => h

theorem Grows.trans (h : t.Grows u) (h' : u.Grows v) : t.Grows v :=
  fun k r hk hr => h' k r hk (h k r hk hr)

theorem SameBut.grows (h : t.SameBut RecordKey.IsLogged u) : t.Grows u :=
  fun k _ hk hr => (h k hk).trans hr

theorem Kept.grows (h : t.Kept u) : t.Grows u := fun k r _ hr => h k r hr

theorem Grows.videoWithin {n : Nat} {source : Source} (h : t.Grows u)
    (hv : VideoWithin t n source) : VideoWithin u n source := by
  induction hv with
  | video hget => exact .video (h _ _ (by simp [RecordKey.IsLogged]) hget)
  | motion hget hm _ ih => exact .motion (h _ _ (by simp [RecordKey.IsLogged]) hget) hm ih
  | location hget hl _ ih => exact .location (h _ _ (by simp [RecordKey.IsLogged]) hget) hl ih

end Table

def IngestCall.sources : IngestCall → List Source
  | .event e => [e.source]
  | .condition c => [c.source]
  | .locations _ samples => samples.filterMap RawLocation.source
  | .report _ _ _ => []

namespace Ingest
variable {s : Intake Repository} {l : List Fact} {t u : Table} {call : IngestCall}
  {a : IngestAnswer} {samples : List RawLocation} {user : String}

/-- What stands behind the facts that an accepted call has recorded. -/
inductive Vouched (t : Table) : IngestCall → IngestAnswer → Prop
  | event {e e' : Event} (hvalid : Validation.event e = .ok ())
      (h : (Fact.event e').content = (Fact.event e).content) : Vouched t (.event e) (.event e')
  | condition {c c' : DrivingCondition} (h : (Fact.condition c').content = (Fact.condition c).content) :
      Vouched t (.condition c) (.condition c')
  | locations {user : String} {samples : List RawLocation} {conditions : List DrivingCondition}
      (h : ∀ c ∈ conditions, Traced t samples c) :
      Vouched t (.locations user samples) (.locations conditions)
  | report {user : String} {start stop : Int} {reports : List TripReport} :
      Vouched t (.report user start stop) (.report reports)

theorem Traced.grow {c : DrivingCondition} (h : Traced t samples c) (hu : t.Grows u) :
    Traced u samples c := by
  obtain ⟨k, ⟨hk, hget⟩, hsource⟩ := h
  exact ⟨k, ⟨hk, hu _ _ (by simp [RecordKey.IsLogged]) hget⟩, hsource⟩

theorem Traced.of_source {c d : DrivingCondition} (h : Traced t samples c)
    (hsource : d.source = c.source) : Traced t samples d := by
  obtain ⟨k, hk, hc⟩ := h
  exact ⟨k, hk, hsource.trans hc⟩

theorem Vouched.grow (h : Vouched t call a) (hu : t.Grows u) : Vouched u call a := by
  cases h with
  | event hvalid h => exact .event hvalid h
  | condition h => exact .condition h
  | locations h => exact .locations fun c hc => (h c hc).grow hu
  | report => exact .report

theorem Fails.grows {service : WeatherService} {settings : IngestSettings} {e : IngestError}
    {s' : Intake Repository} (h : Fails service settings call s e s') :
    s.store.table.Grows s'.store.table := by
  cases h with
  | validation => exact .refl _
  | timeline h => exact (show s'.store.table = s.store.table from h) ▸ .refl _
  | weather stores => exact stores.kept.grows

theorem ends_onStore_grows {ε α : Type} {act : EStateM ε Repository α} {wrap : ε → IngestError}
    (h : Repository.ChangesOnly RecordKey.IsLogged act) (s : Intake Repository) :
    Ends (onStore wrap act) s (fun _ t => s.store.table.Grows t.store.table) (fun _ _ => True) :=
  (h s.store).focus (fun _ _ ht => ht.grows) fun _ _ _ => trivial

theorem ends_validated_grows {ε α : Type} {act : EStateM ε Repository α} {wrap : ε → IngestError}
    (h : Repository.ChangesOnly RecordKey.IsLogged act) (v : Validated) (s : Intake Repository) :
    Ends (do validate v; onStore wrap act) s
      (fun _ t => v = .ok () ∧ s.store.table.Grows t.store.table) (fun _ _ => True) := by
  refine ends_validate.of_ok.bind fun _ t ht => ?_
  obtain ⟨rfl, hv⟩ := ht
  exact (ends_onStore_grows h t).imp fun _ _ hu => ⟨hv, hu⟩

theorem ends_storeConditions_sources {conditions : List DrivingCondition} (hk : Keeps l s)
    (h : ∀ c ∈ conditions, Weather.Sensible user c) :
    Ends (conditions.mapM fun c => onStore .consolidation (Consolidation.recordCondition c)) s
      (fun cs t => s.store.table.Grows t.store.table ∧ ∀ d ∈ cs, ∃ c ∈ conditions, d.source = c.source)
      (fun _ _ => False) := by
  refine (Ends.mapM_each (R := fun c d : DrivingCondition => d.source = c.source)
    (J := fun t => (∃ m, Keeps m t) ∧ s.store.table.Grows t.store.table) (fun c hc t ht => ?_)
    ⟨⟨l, hk⟩, .refl _⟩).imp fun cs t ht => ⟨ht.2.2.2, ht.1⟩
  obtain ⟨⟨m, hkt⟩, hgrows⟩ := ht
  refine ((ends_storeCondition hkt (h c hc).start_le (h c hc).severity).and_ok
    (ends_onStore_grows (Consolidation.changesOnly_recordCondition c) t)).imp fun d u hu => ?_
  obtain ⟨⟨hku, hcontent⟩, hgrows'⟩ := hu
  have hsource := (DrivingCondition.mk.inj (Fact.condition.inj hcontent)).2.2.2.2.2.2.2
  exact ⟨hsource, ⟨_, hku⟩, hgrows.trans hgrows'⟩

theorem ends_recordLocations_vouched (hk : Keeps l s) (service : WeatherService)
    (settings : IngestSettings) (user : String) (samples : List RawLocation) :
    Ends (recordLocations service settings user samples) s
      (fun cs t => s.store.table.Grows t.store.table ∧
        Vouched t.store.table (.locations user samples) (.locations cs)) (fun _ _ => True) := by
  refine (ends_recordLocations_of hk service settings user samples fun _ conditions t h => ?_).of_ok
  refine (ends_storeConditions_sources h.keeps h.sensible).imp fun cs u hu => ?_
  obtain ⟨hgrows, hcs⟩ := hu
  refine ⟨h.stores.kept.grows.trans hgrows, .locations fun d hd => ?_⟩
  obtain ⟨c, hc, hsource⟩ := hcs d hd
  exact ((h.traced c hc).of_source hsource).grow hgrows

theorem ends_reportTrips_steady (hk : Keeps l s) {settings : IngestSettings} {start stop : Int}
    (huser : user ≠ "") (hle : start ≤ stop)
    (hfacts : ∀ T ∈ s.store.table.trips, T.span.Touches ⟨user, start, stop⟩ →
      ∀ f ∈ s.store.table.facts, f.trip = T.id → f.Reportable s.store.table settings.maxHops) :
    Ends (reportTrips settings user start stop) s (fun _ _ => True) (fun _ _ => False) := by
  have htext : Validation.requireText "user_id" user = .ok () :=
    Validation.refuseIf_eq_ok_iff.mpr huser
  have hwindow : Validation.window start stop = .ok () :=
    Validation.refuseIf_eq_ok_iff.mpr (Int.not_lt.mpr hle)
  have hreport := Timeline.ends_reportTrips_steady hk.holds.sound.wellFormed hk.knows hfacts
  rw [reportTrips, htext, hwindow]
  exact Ends.focus (s := s) hreport (fun _ _ _ => trivial) fun _ _ h => h

theorem not_deadEnd_of_reportTrips (hk : Keeps l s) (service : WeatherService)
    {settings : IngestSettings} {start stop : Int}
    {reports : List TripReport} {s' : Intake Repository}
    (hreport : reportTrips settings user start stop s = .ok reports s') :
    ∀ T ∈ s.store.table.trips, T.span.Touches ⟨user, start, stop⟩ →
      ∀ f ∈ s.store.table.facts, f.trip = T.id → ¬ f.DeadEnd s.store.table := by
  obtain ⟨-, trips, htouching, -, hall⟩ :=
    (ends_reportTouching hk service settings user start stop).of_eq_ok hreport
  intro T hT htouches f hf htrip hdead
  obtain ⟨r, -, hof⟩ := (Ends.exists_of_forall₂ hall).2 T ((htouching.mem_iff T).mpr ⟨hT, htouches⟩)
  obtain ⟨conditions, -, hconditions⟩ := hof.segments
  cases f with
  | event e => exact hdead
  | condition c =>
    obtain ⟨d, -, hresolves⟩ := hconditions.all c hf htrip
    exact hdead.not_linkOf hresolves.url

theorem ends_answer_vouched (hk : Keeps l s) (service : WeatherService) (settings : IngestSettings)
    (call : IngestCall) :
    Ends (answer service settings call) s
      (fun a t => s.store.table.Grows t.store.table ∧ Vouched t.store.table call a)
      (fun _ t => s.store.table.Grows t.store.table) := by
  have hrefused : Ends (answer service settings call) s (fun _ _ => True)
      (fun _ t => s.store.table.Grows t.store.table) :=
    (ends_answer hk service settings call).mono (fun _ _ _ => trivial) fun _ _ h => h.2.grows
  have haccepted : Ends (answer service settings call) s
      (fun a t => s.store.table.Grows t.store.table ∧ Vouched t.store.table call a)
      (fun _ _ => True) := by
    cases call with
    | event e =>
      have hgrows : Ends (recordEvent e) s _ _ :=
        ends_validated_grows (Consolidation.changesOnly_recordEvent e) (Validation.event e) s
      refine (hgrows.and_ok (ends_recordEvent hk service settings e)).map fun e' t ht => ?_
      obtain ⟨⟨hvalid, hgrows⟩, -, hcontent⟩ := ht
      exact ⟨hgrows, .event hvalid hcontent⟩
    | condition c =>
      have hgrows : Ends (recordCondition c) s _ _ :=
        ends_validated_grows (Consolidation.changesOnly_recordCondition c) (Validation.condition c) s
      refine (hgrows.and_ok (ends_recordCondition hk service settings c)).map fun c' t ht => ?_
      obtain ⟨⟨-, hgrows⟩, -, hcontent⟩ := ht
      exact ⟨hgrows, .condition hcontent⟩
    | locations user samples =>
      exact (ends_recordLocations_vouched hk service settings user samples).map fun _ _ h => h
    | report user start stop =>
      refine (ends_reportTouching hk service settings user start stop).of_ok.map fun _ t ht => ?_
      obtain ⟨⟨-, htable⟩, -⟩ := ht
      have htable' : t.store.table = s.store.table := htable
      exact ⟨htable' ▸ .refl _, .report⟩
  exact (hrefused.and haccepted).mono (fun _ _ h => h.2) fun _ _ h => h.1

theorem serve_append {σ : Type} [RecordStore σ] (service : WeatherService)
    (settings : IngestSettings) (calls more : List IngestCall) (s : Intake σ) :
    (serve service settings (calls ++ more) s).2 =
      (serve service settings more (serve service settings calls s).2).2 := by
  induction calls generalizing s with
  | nil => rfl
  | cons call rest ih =>
    simp only [List.cons_append, serve]
    cases answer service settings call s with
    | ok a t => exact ih t
    | error e t => exact ih t

theorem grows_serve (hk : Keeps l s) (service : WeatherService) (settings : IngestSettings)
    (calls : List IngestCall) :
    s.store.table.Grows (serve service settings calls s).2.store.table := by
  induction calls generalizing s l with
  | nil => exact .refl _
  | cons call rest ih =>
    have hkeeps := ends_answer hk service settings call
    have hgrows := ends_answer_vouched hk service settings call
    unfold serve
    cases hanswer : answer service settings call s with
    | ok a t => exact (hgrows.of_eq_ok hanswer).1.trans (ih (hkeeps.of_eq_ok hanswer).1)
    | error e t => exact (hgrows.of_eq_error hanswer).trans (ih (hkeeps.of_eq_error hanswer).1)

theorem grows_of_prefix (hk : Keeps l s) (service : WeatherService) (settings : IngestSettings)
    {earlier calls : List IngestCall} (h : earlier <+: calls) :
    (serve service settings earlier s).2.store.table.Grows
      (serve service settings calls s).2.store.table := by
  obtain ⟨more, rfl⟩ := h
  rw [serve_append]
  exact grows_serve (keeps_serve hk service settings earlier) service settings more

/-- What stands behind a fact when it is recorded does so at the end of the run. -/
theorem vouched_serve (hk : Keeps l s) (service : WeatherService) (settings : IngestSettings)
    (calls : List IngestCall) :
    List.Forall₂ (fun call answer => ∀ a, answer = .ok a →
        Vouched (serve service settings calls s).2.store.table call a)
      calls (serve service settings calls s).1 := by
  induction calls generalizing s l with
  | nil => exact .nil
  | cons call rest ih =>
    have hkeeps := ends_answer hk service settings call
    have hvouched := ends_answer_vouched hk service settings call
    unfold serve
    cases hanswer : answer service settings call s with
    | ok a t =>
      have hkt := (hkeeps.of_eq_ok hanswer).1
      refine .cons (fun a' ha => ?_) (ih hkt)
      obtain rfl := Except.ok.inj ha
      exact (hvouched.of_eq_ok hanswer).2.grow (grows_serve hkt service settings rest)
    | error e t =>
      refine .cons (fun a ha => ?_) (ih (hkeeps.of_eq_error hanswer).1)
      cases ha

theorem mem_recorded {answers : List (Except IngestError IngestAnswer)} {f : Fact} :
    f ∈ recorded answers ↔ ∃ a, .ok a ∈ answers ∧ f ∈ a.recorded := by
  simp only [recorded, List.mem_flatMap]
  constructor
  · rintro ⟨answer, hmem, hf⟩
    cases answer with
    | ok a => exact ⟨a, hmem, hf⟩
    | error e => simp at hf
  · rintro ⟨a, hmem, hf⟩
    exact ⟨.ok a, hmem, hf⟩

/-- A condition of the weather is one record further from the video than the sample that it names. -/
theorem Vouched.reportable {limit : Nat} (h : Vouched t call a)
    (hsources : ∀ source ∈ call.sources, ∃ n < limit, VideoWithin t n source) {f : Fact}
    (hf : f ∈ a.recorded) (hopen : ¬ f.DeadEnd t) : f.Reportable t limit := by
  cases h with
  | @event e e' hvalid hcontent =>
    obtain rfl := List.mem_singleton.mp hf
    obtain ⟨n, hlt, hvideo⟩ := hsources e.source (by simp [IngestCall.sources])
    obtain ⟨htype, htime⟩ := Validation.of_event hvalid
    have he : (Fact.event e).Reportable t limit := ⟨htype, htime, hvideo.mono (Nat.le_of_lt hlt)⟩
    exact he.of_content hcontent
  | @condition c c' hcontent =>
    obtain rfl := List.mem_singleton.mp hf
    obtain ⟨n, hlt, hvideo⟩ := hsources c.source (by simp [IngestCall.sources])
    have hc : (Fact.condition c).Reportable t limit := hvideo.mono (Nat.le_of_lt hlt)
    exact hc.of_content hcontent
  | @locations user samples conditions htraced =>
    obtain ⟨c, hc, rfl⟩ := List.mem_map.mp hf
    obtain ⟨k, ⟨⟨sample, hsample, id, rfl⟩, hget⟩, hsource⟩ := htraced c hc
    have hsome : sample.source ≠ none := fun hnone => hopen ⟨_, hsource, hget, hnone⟩
    obtain ⟨next, hnext⟩ := Option.ne_none_iff_exists'.mp hsome
    have hmem : next ∈ IngestCall.sources (.locations user samples) :=
      List.mem_filterMap.mpr ⟨sample, hsample, hnext⟩
    obtain ⟨n, hlt, hvideo⟩ := hsources next hmem
    have hwithin : VideoWithin t (n + 1) c.source := hsource ▸ .location hget hnext hvideo
    exact hwithin.mono hlt
  | report => cases hf

theorem reportable_of_recorded {s₀ : Intake Repository} (hk : Keeps l s₀) (service : WeatherService)
    (settings : IngestSettings) {calls : List IngestCall}
    {answers : List (Except IngestError IngestAnswer)}
    (hserve : serve service settings calls s₀ = (answers, s))
    (hsources : ∀ call a, (call, .ok a) ∈ calls.zip answers → ∀ source ∈ call.sources,
      ∃ earlier, earlier <+: calls ∧ ∃ n < settings.maxHops,
        VideoWithin (serve service settings earlier s₀).2.store.table n source)
    {f : Fact} (hf : f ∈ recorded answers) (hopen : ¬ f.DeadEnd s.store.table) :
    f.Reportable s.store.table settings.maxHops := by
  have hvouched := vouched_serve hk service settings calls
  rw [hserve] at hvouched
  obtain ⟨hlength, hvouched⟩ := List.forall₂_iff_zip.mp hvouched
  have hpairs : List.Forall₂ (fun call answer => (call, answer) ∈ calls.zip answers) calls answers :=
    List.forall₂_iff_zip.mpr ⟨hlength, fun h => h⟩
  obtain ⟨a, ha, hf⟩ := mem_recorded.mp hf
  obtain ⟨call, -, hmem⟩ := (Ends.exists_of_forall₂ hpairs).1 _ ha
  refine (hvouched hmem a rfl).reportable (fun source hsource => ?_) hf hopen
  obtain ⟨earlier, hprefix, n, hlt, hvideo⟩ := hsources call a hmem source hsource
  have hgrows := grows_of_prefix hk service settings hprefix
  rw [hserve] at hgrows
  exact ⟨n, hlt, hgrows.videoWithin hvideo⟩

/-- On a repository that holds raw records only and has ids that never repeat, whatever calls have
been made: if what the accepted ones named as sources has led to a video in fewer records than the
limit, then a report succeeds just where no condition of the trips that it is about names a sample
without a source. -/
theorem reports_succeed_iff (service : WeatherService) (settings : IngestSettings)
    {s₀ : Intake Repository} (hready : s₀.store.Ready true) (hraw : s₀.store.table.IsRaw)
    {calls : List IngestCall} {answers : List (Except IngestError IngestAnswer)}
    {s : Intake Repository} (hserve : serve service settings calls s₀ = (answers, s))
    (hsources : ∀ call a, (call, .ok a) ∈ calls.zip answers → ∀ source ∈ call.sources,
      ∃ earlier, earlier <+: calls ∧ ∃ n < settings.maxHops,
        VideoWithin (serve service settings earlier s₀).2.store.table n source)
    {user : String} (huser : user ≠ "") {start stop : Int} (hle : start ≤ stop) :
    (∃ reports s', reportTrips settings user start stop s = .ok reports s') ↔
      ∀ T ∈ s.store.table.trips, T.span.Touches ⟨user, start, stop⟩ →
        ∀ f ∈ s.store.table.facts, f.trip = T.id → ¬ f.DeadEnd s.store.table := by
  have hstart := Keeps.of_isRaw hready hraw
  obtain ⟨hk, -⟩ := keeps_of_isRaw service settings hready hraw hserve
  have hfacts : ∀ f ∈ s.store.table.facts, ¬ f.DeadEnd s.store.table →
      f.Reportable s.store.table settings.maxHops := by
    intro f hf hopen
    obtain ⟨g, hg, hcontent⟩ := hk.exists_content hf
    have hopen' : ¬ g.DeadEnd s.store.table := by
      rwa [← Fact.deadEnd_content, ← hcontent, Fact.deadEnd_content]
    exact (reportable_of_recorded hstart service settings hserve hsources hg hopen').of_content hcontent
  constructor
  · rintro ⟨reports, s', hreport⟩
    exact not_deadEnd_of_reportTrips hk service hreport
  · intro hopen
    obtain ⟨reports, s', hreport, -⟩ := (ends_reportTrips_steady hk huser hle
      fun T hT htouches f hf htrip => hfacts f hf (hopen T hT htouches f hf htrip)).eq_ok
    exact ⟨reports, s', hreport⟩

theorem serve_locations {service : WeatherService} {settings : IngestSettings}
    {conditions : List DrivingCondition} {s' : Intake Repository}
    (h : recordLocations service settings user samples s = .ok conditions s') :
    serve service settings [.locations user samples] s = ([.ok (.locations conditions)], s') := by
  simp only [serve, answer_locations h]

def sampleTrack (source : Option Source) : List RawLocation :=
  [⟨"", "ann", 4, Weather.sampleCoordinate, source⟩,
    ⟨"i", "ann", 5, Weather.sampleCoordinate, none⟩]

def sampleTracked (source : Option Source) : Intake Repository :=
  match (sampleTrack source).mapM (fun sample => onStore (σ := Repository) .storage
      (StoreM.persist sample)) sampleIntake with
  | .ok _ t => t
  | .error _ t => t

def sampleWeathered (source : Option Source) :
    EStateM.Result IngestError (Intake Repository) (List DrivingCondition) :=
  (Weather.conditionsOf "ann" ((sampleTrack source).map Weather.clearSample)).mapM
    (fun c => onStore .consolidation (Consolidation.recordCondition c))
    { sampleTracked source with weather := Weather.clearCache Weather.sampleCoordinate }

theorem recordLocations_track (source : Option Source) :
    recordLocations Weather.clearService {} "ann" (sampleTrack source) sampleIntake =
      sampleWeathered source := by
  have hvalid : ∀ sample ∈ sampleTrack source, Validation.location "ann" sample = .ok () :=
    List.forall_mem_cons.mpr ⟨rfl, List.forall_mem_singleton.mpr rfl⟩
  have hstore : (sampleTrack source).mapM (fun sample => onStore .storage (StoreM.persist sample))
      sampleIntake = .ok (sampleTrack source) (sampleTracked source) := rfl
  exact recordLocations_clear (by decide) hvalid hstore rfl (by simp)

theorem reports_succeed_iff_of_sample :
    sampleIntake.store.Ready true ∧ sampleIntake.store.table.IsRaw ∧
      ∃ conditions s, serve Weather.clearService {}
          [.locations "ann" (sampleTrack (some ⟨.rawVideo, "v"⟩))] sampleIntake =
          ([.ok (.locations conditions)], s) ∧
        ∃ reports s', reportTrips {} "ann" 4 5 s = .ok reports s' := by
  refine ⟨sampleIntake_ready, sampleIntake_isRaw, ?_⟩
  have hcheck : (match sampleWeathered (some ⟨.rawVideo, "v"⟩) with
      | .ok _ s => decide (s.store.table.facts =
            [.condition ⟨"iii", "ann", "ii", .nothing, ⟨0⟩, 4, 5, ⟨.rawLocation, ""⟩⟩] ∧
          s.store.table.get? ⟨.rawLocation, ""⟩ = some (.rawLocation
            ⟨"", "ann", 4, Weather.sampleCoordinate, some ⟨.rawVideo, "v"⟩⟩))
      | .error _ _ => false) = true := by decide +kernel
  cases hweathered : sampleWeathered (some ⟨.rawVideo, "v"⟩) with
  | error e s => simp [hweathered] at hcheck
  | ok conditions s =>
    simp only [hweathered, decide_eq_true_eq] at hcheck
    obtain ⟨hfacts, hget⟩ := hcheck
    have hserve := serve_locations ((recordLocations_track _).trans hweathered)
    refine ⟨conditions, s, hserve, (reports_succeed_iff Weather.clearService {}
      sampleIntake_ready sampleIntake_isRaw hserve ?_ (by decide) (by decide)).mpr ?_⟩
    · intro call a hmem source hsource
      obtain rfl := List.mem_singleton.mp (List.of_mem_zip hmem).1
      obtain rfl : source = ⟨.rawVideo, "v"⟩ := by simpa [IngestCall.sources, sampleTrack] using hsource
      exact ⟨[], List.nil_prefix, 1, by decide, .video (v := ⟨"v", "ann", 1, 9, "drive.mp4"⟩) rfl⟩
    · intro T _ _ f hf _ hdead
      rw [hfacts] at hf
      obtain rfl := List.mem_singleton.mp hf
      obtain ⟨k, hsource, hk, hnone⟩ := hdead
      have hid : "" = k.id := (Source.mk.inj hsource).2
      rw [← hid, hget] at hk
      obtain rfl := Record.rawLocation.inj (Option.some.inj hk)
      cases hnone

def sampleFault : Option IngestError :=
  match sampleWeathered none with
  | .error _ _ => none
  | .ok _ s =>
    match reportTrips {} "ann" 4 5 s with
    | .ok _ _ => none
    | .error e _ => some e

theorem report_of_sourceless :
    ∃ conditions s s', serve Weather.clearService {} [.locations "ann" (sampleTrack none)]
        sampleIntake = ([.ok (.locations conditions)], s) ∧
      reportTrips {} "ann" 4 5 s =
        .error (.timeline (.badState (.brokenChain ⟨.rawLocation, ""⟩ ⟨.rawLocation, ""⟩))) s' := by
  have hfault : sampleFault =
      some (.timeline (.badState (.brokenChain ⟨.rawLocation, ""⟩ ⟨.rawLocation, ""⟩))) := by
    decide +kernel
  unfold sampleFault at hfault
  cases hweathered : sampleWeathered none with
  | error e s => simp [hweathered] at hfault
  | ok conditions s =>
    simp only [hweathered] at hfault
    cases hreport : reportTrips {} "ann" 4 5 s with
    | ok reports s' => simp [hreport] at hfault
    | error e s' =>
      simp only [hreport, Option.some.injEq] at hfault
      have hserve := serve_locations ((recordLocations_track _).trans hweathered)
      exact ⟨conditions, s, s', hserve, by rw [← hfault, hreport]⟩

/-- What the accepted calls name as sources does not settle it: a batch may name none at all, and
still give a condition that no report can be made of. -/
theorem told_sources_insufficient :
    ¬ ∀ (service : WeatherService) (settings : IngestSettings) (s₀ s : Intake Repository)
      (calls : List IngestCall) (answers : List (Except IngestError IngestAnswer)) (user : String)
      (start stop : Int), s₀.store.Ready true → s₀.store.table.IsRaw →
      serve service settings calls s₀ = (answers, s) →
      (∀ call a, (call, .ok a) ∈ calls.zip answers → ∀ source ∈ call.sources,
        ∃ earlier, earlier <+: calls ∧ ∃ n < settings.maxHops,
          VideoWithin (serve service settings earlier s₀).2.store.table n source) →
      user ≠ "" → start ≤ stop →
      ∃ reports s', reportTrips settings user start stop s = .ok reports s' := by
  intro h
  obtain ⟨conditions, s, s', hserve, hreport⟩ := report_of_sourceless
  have hnone : ∀ source, source ∉ IngestCall.sources (.locations "ann" (sampleTrack none)) := by
    simp [IngestCall.sources, sampleTrack]
  obtain ⟨reports, s'', hok⟩ := h Weather.clearService {} sampleIntake s _ _ "ann" 4 5
    sampleIntake_ready sampleIntake_isRaw hserve (fun call a hmem source hsource => by
      obtain rfl := List.mem_singleton.mp (List.of_mem_zip hmem).1
      exact absurd hsource (hnone source)) (by decide) (by decide)
  rw [hreport] at hok
  cases hok

end Ingest

end DriveLog
