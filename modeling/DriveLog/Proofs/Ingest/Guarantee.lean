import DriveLog.Proofs.Ingest.Current
set_option autoImplicit false

namespace DriveLog

def IngestError.IsOfStore : IngestError → Prop
  | .consolidation _ => True
  | .storage _ => True
  | _ => False

namespace Ingest
variable {service : WeatherService} {settings : IngestSettings} {call : IngestCall}
  {calls : List IngestCall} {answers : List (Except IngestError IngestAnswer)} {e : IngestError}
  {s t : Intake Repository}

theorem Fails.not_ofStore (h : Fails service settings call s e t) : ¬ e.IsOfStore := by
  cases h <;> simp [IngestError.IsOfStore]

theorem Fails.get?_eq {key : RecordKey} (h : Fails service settings call s e t)
    (hkind : key.kind ≠ .rawLocation) : t.store.table.get? key = s.store.table.get? key := by
  cases h with
  | validation => rfl
  | timeline htable => exact congrArg (Table.get? · key) htable
  | weather stores => exact stores.get?_eq hkind

theorem Served.not_ofStore (h : Served service settings calls s answers t)
    (he : .error e ∈ answers) : ¬ e.IsOfStore := by
  induction h with
  | done => cases he
  | accepted _ _ _ ih => exact ih (by simpa using he)
  | failed _ hfails _ ih =>
    rcases List.mem_cons.mp he with heq | he
    · exact Except.error.inj heq ▸ hfails.not_ofStore
    · exact ih he

/-- On a repository that holds raw records only and has ids that never repeat, whatever calls have
been made and whatever the weather service has answered: the trips are the components of what has been
recorded. This is what the calls told, and of each batch of samples that was accepted all the weather
there. No call has failed in the store or in consolidation, and the next one that fails leaves all but raw
locations as it was. -/
theorem calls_settled (service : WeatherService) (settings : IngestSettings)
    {s₀ : Intake Repository} (hready : s₀.store.Ready true) (hraw : s₀.store.table.IsRaw)
    {calls : List IngestCall} {answers : List (Except IngestError IngestAnswer)}
    {s : Intake Repository} (hserve : serve service settings calls s₀ = (answers, s)) :
    s.store.table.Settled (recorded answers) ∧
      Served service settings calls s₀ answers s ∧ (∀ e, .error e ∈ answers → ¬ e.IsOfStore) ∧
      ∀ call e s', answer service settings call s = .error e s' →
        ¬ e.IsOfStore ∧ Fails service settings call s e s' ∧
        ∀ key : RecordKey, key.kind ≠ .rawLocation →
          s'.store.table.get? key = s.store.table.get? key := by
  obtain ⟨hk, hserved⟩ := keeps_of_isRaw service settings hready hraw hserve
  have hholds : s.store.table.Holds [] ((recorded answers).map Fact.unplaced) := hk.holds
  refine ⟨hholds.settled, hserved, fun e => hserved.not_ofStore, fun call e s' hanswer => ?_⟩
  obtain ⟨-, hfails⟩ := (ends_answer hk service settings call).of_eq_error hanswer
  exact ⟨hfails.not_ofStore, hfails, fun key hkind => hfails.get?_eq hkind⟩

def sampleInverted : DrivingCondition := ⟨"", "ann", "", .rain, ⟨0⟩, 5, 2, ⟨.rawVideo, "v"⟩⟩

def sampleCalls : List IngestCall :=
  [.event ⟨"", "ann", "", 4, .laneChange, ⟨0⟩, ⟨0⟩, ⟨.rawVideo, "v"⟩⟩,
    .locations "ann" [⟨"", "ann", 5, ⟨⟨0⟩, ⟨0⟩⟩, none⟩],
    .condition sampleInverted]

def sampleAnswered : List (Except IngestError IngestAnswer) × Intake Repository :=
  serve sampleService {} sampleCalls sampleIntake

theorem answer_inverted (service : WeatherService) (settings : IngestSettings)
    (s : Intake Repository) : ∃ error,
    answer service settings (.condition sampleInverted) s = .error (.validation error) s :=
  ⟨_, rfl⟩

/-- Both runs end with a condition that breaks a rule. The first one has no weather for its samples; the
second one records a condition for each of the two. -/
theorem calls_settled_of_sample :
    sampleIntake.store.Ready true ∧ sampleIntake.store.table.IsRaw ∧
      (sampleAnswered.1.map Except.toBool = [true, false, false] ∧
        sampleAnswered.2.store.table.Settled (recorded sampleAnswered.1) ∧
        ∀ e, .error e ∈ sampleAnswered.1 → ¬ e.IsOfStore) ∧
      ∃ drive conditions error s, serve Weather.clearService {}
          [.condition ⟨"", "ann", "", .rain, ⟨0⟩, 2, 9, ⟨.rawVideo, "v"⟩⟩,
            .locations "ann" sampleBatch, .condition sampleInverted] sampleIntake =
          ([.ok (.condition drive), .ok (.locations conditions), .error error], s) ∧
        conditions.length = 2 ∧ ¬ error.IsOfStore ∧
        s.store.table.Settled (.condition drive :: conditions.map .condition) := by
  have hanswers : sampleAnswered.1.map Except.toBool = [true, false, false] := by decide +kernel
  have hserve : serve sampleService {} sampleCalls sampleIntake =
      (sampleAnswered.1, sampleAnswered.2) := rfl
  obtain ⟨hsettled, -, herrors, -⟩ :=
    calls_settled sampleService {} sampleIntake_ready sampleIntake_isRaw hserve
  refine ⟨sampleIntake_ready, sampleIntake_isRaw, ⟨hanswers, hsettled, herrors⟩, ?_⟩
  have hlength : (match sampleCurrent with
      | .ok conditions _ => conditions.length
      | .error _ _ => 0) = 2 := by decide +kernel
  cases hcurrent : sampleCurrent with
  | error e s => simp [hcurrent] at hlength
  | ok conditions s =>
    have hdrive : answer Weather.clearService {} (.condition ⟨"", "ann", "", .rain, ⟨0⟩, 2, 9,
        ⟨.rawVideo, "v"⟩⟩) sampleIntake = .ok (.condition ⟨"i", "ann", "", .rain, ⟨0⟩, 2, 9,
        ⟨.rawVideo, "v"⟩⟩) sampleDriven.2 := rfl
    have hbatch := answer_locations (recordLocations_sample.trans hcurrent)
    obtain ⟨error, hinverted⟩ := answer_inverted Weather.clearService {} s
    have hrun : serve Weather.clearService {}
        [.condition ⟨"", "ann", "", .rain, ⟨0⟩, 2, 9, ⟨.rawVideo, "v"⟩⟩,
          .locations "ann" sampleBatch, .condition sampleInverted] sampleIntake =
        ([.ok (.condition ⟨"i", "ann", "", .rain, ⟨0⟩, 2, 9, ⟨.rawVideo, "v"⟩⟩),
          .ok (.locations conditions), .error (.validation error)], s) := by
      simp only [serve, hdrive, hbatch, hinverted]
    obtain ⟨hsettled, -, herrors, -⟩ :=
      calls_settled Weather.clearService {} sampleIntake_ready sampleIntake_isRaw hrun
    refine ⟨_, conditions, .validation error, s, hrun, by simpa [hcurrent] using hlength,
      herrors _ (by simp), ?_⟩
    simpa [recorded, IngestAnswer.recorded] using hsettled

end Ingest

end DriveLog
