import DriveLog.Proofs.RangeMap.Filling
import DriveLog.Proofs.Weather.Cache
/-!
What one answer of the service does. It is refused exactly if its reports and those that are stored for the
place cannot be kept together; else each of its ranges has the report that prevails for it, and all else
stays. Main statements: a good answer is enough for a lookup, and refused ones leave no trace.
-/
set_option autoImplicit false

namespace DriveLog

inductive WeatherErrorKind where
  | service
  | emptyResponse
  | cache
  | callLimit
  | unknownCode
  | invalidTime
  deriving DecidableEq, Repr

def WeatherError.kind : WeatherError → WeatherErrorKind
  | .service _ => .service
  | .emptyResponse _ _ => .emptyResponse
  | .cache _ => .cache
  | .callLimit _ _ _ => .callLimit
  | .unknownCode _ => .unknownCode
  | .invalidTime _ => .invalidTime

def WeatherReport.range (r : WeatherReport) : Range := ⟨r.start, r.stop⟩

namespace Weather
variable {service : WeatherService} {settings : WeatherSettings} {time : Int} {c : Coordinate}
  {s t u : WeatherCache} {k n : Nat} {reports reports' : List WeatherReport}
  {known filled : RangeMap WeatherReport} {e : Range × WeatherReport}

inductive Reachable (settings : WeatherSettings) : WeatherCache → Prop
  | new : Reachable settings {}
  | lookup {s : WeatherCache} (h : Reachable settings s) (service : WeatherService) (time : Int)
      (c : Coordinate) : Reachable settings (turn service settings time c s).after

theorem Reachable.lawful (h : Reachable settings s) : Lawful settings s := by
  induction h with
  | new => exact lawful_empty settings
  | @lookup s h service time c ih =>
    have hlearned := (sound_turn service settings time c s).learned
    rw [before_turn] at hlearned
    exact hlearned.lawful ih

/-- Whether a report is kept of those of its stretch: it starts latest, to the nanosecond, and is the last
one that is listed of those that start together. -/
def Prevails : List WeatherReport → WeatherReport → Prop :=
  Newest (fun a b => a.opens.le b.opens) WeatherReport.range

theorem mem_ranges_sorted (reports : List WeatherReport) (range : Range) :
    range ∈ ((sortBy (fun a b => a.opens.le b.opens) reports).map fun r =>
      (Range.mk r.start r.stop, r)).map Prod.fst ↔ range ∈ reports.map WeatherReport.range := by
  simp [WeatherReport.range]

theorem latest_sortBy_opens {r : WeatherReport} :
    Latest WeatherReport.range (sortBy (fun a b => a.opens.le b.opens) reports) r ↔
      Prevails reports r :=
  latest_sortBy (fun a b => Timestamp.le_total a.opens b.opens) fun _ _ _ => Timestamp.le_trans

theorem latest_sorted : Latest Prod.fst ((sortBy (fun a b => a.opens.le b.opens) reports).map fun r =>
      (Range.mk r.start r.stop, r)) e ↔ Prevails reports e.2 ∧ e.1 = e.2.range := by
  have hinjective : Function.Injective fun r : WeatherReport => (Range.mk r.start r.stop, r) :=
    fun r r' heq => (Prod.mk.inj heq).2
  constructor
  · intro h
    obtain ⟨r, -, rfl⟩ := List.mem_map.mp h.mem
    exact ⟨latest_sortBy_opens.mp ((latest_map hinjective).mp h), rfl⟩
  · rintro ⟨h, heq⟩
    rw [show e = (Range.mk e.2.start e.2.stop, e.2) from Prod.ext heq rfl]
    exact (latest_map hinjective).mpr (latest_sortBy_opens.mpr h)

theorem exists_prevails {r : WeatherReport} (hr : r ∈ reports) :
    ∃ kept, Prevails reports kept ∧ kept.range = r.range := by
  obtain ⟨kept, hkept, hrange⟩ :
      ∃ kept, Latest WeatherReport.range (sortBy (fun a b => a.opens.le b.opens) reports) kept ∧
        kept.range = r.range := exists_latest (mem_sortBy.mpr hr)
  exact ⟨kept, latest_sortBy_opens.mp hkept, hrange⟩

theorem addReports_ok_iff (h : known.Ordered) (reports : List WeatherReport) :
    (∃ filled, addReports reports known = .ok filled) ↔
      Coherent (reports.map WeatherReport.range ++ known.ranges) := by
  unfold addReports
  rw [h.insertAll_ok_iff]
  constructor
  · exact fun hc => hc.mono fun range hr => by rwa [List.mem_append, mem_ranges_sorted, ← List.mem_append]
  · exact fun hc => hc.mono fun range hr => by rwa [List.mem_append, ← mem_ranges_sorted, ← List.mem_append]

/-- What known reports are together with those of an answer: of each range that is listed the report that
prevails, and of the other ranges what was known. -/
structure Gains (reports : List WeatherReport) (known filled : RangeMap WeatherReport) : Prop where
  ordered : filled.Ordered
  mem_iff : ∀ e, e ∈ filled.entries ↔ Prevails reports e.2 ∧ e.1 = e.2.range ∨
    e.1 ∉ reports.map WeatherReport.range ∧ e ∈ known.entries

theorem Gains.exists_get? (h : Gains reports known filled) {r : WeatherReport} (hr : r ∈ reports)
    (hcontains : r.range.Contains time) :
    ∃ kept, filled.get? time = some kept ∧ Prevails reports kept ∧ kept.range.Contains time := by
  obtain ⟨kept, hkept, hrange⟩ := exists_prevails hr
  have hmem : (kept.range, kept) ∈ filled.entries := (h.mem_iff _).mpr (.inl ⟨hkept, rfl⟩)
  rw [← hrange] at hcontains
  exact ⟨kept, h.ordered.get?_eq_some_iff.mpr ⟨_, hmem, hcontains⟩, hkept, hcontains⟩

theorem reachable_clear : Reachable {} (clearCache sampleCoordinate) := by
  have hlookup : lookup clearService {} 0 sampleCoordinate {} =
      .ok (clearReport sampleCoordinate) (clearCache sampleCoordinate) :=
    lookup_clear_new (by decide) (by decide) (by decide) sampleCoordinate
  have hturn : (turn clearService {} 0 sampleCoordinate {}).after = clearCache sampleCoordinate := by
    rw [turn, hlookup]
  exact hturn ▸ Reachable.new.lookup clearService 0 sampleCoordinate

def lateReport (code : Int) (c : Coordinate) : WeatherReport :=
  .ofMillis 10000000000 20000000000 code c .fake

/-- Why an answer is not stored: a stretch of it is empty, or shares a moment with another one that it
tells about, or with one that is stored. -/
inductive Clashes (reports : List WeatherReport) (stored : List Range) : Prop
  | empty {r : WeatherReport} (hr : r ∈ reports) (h : r.stop ≤ r.start)
  | among {r r' : WeatherReport} (hr : r ∈ reports) (hr' : r' ∈ reports) (hne : r.range ≠ r'.range)
      (h : ¬ r.range.Disjoint r'.range)
  | known {r : WeatherReport} {range : Range} (hr : r ∈ reports) (hrange : range ∈ stored)
      (hne : r.range ≠ range) (h : ¬ r.range.Disjoint range)

theorem clashes_iff {stored : List Range} (h : Coherent stored) :
    Clashes reports stored ↔ ¬ Coherent (reports.map WeatherReport.range ++ stored) := by
  have hreport : ∀ {r}, r ∈ reports → r.range ∈ reports.map WeatherReport.range ++ stored :=
    fun hr => List.mem_append_left _ (List.mem_map_of_mem hr)
  constructor
  · rintro hclashes ⟨hlt, happart⟩
    cases hclashes with
    | empty hr hempty => exact absurd (hlt _ (hreport hr)) (Int.not_lt.mpr hempty)
    | among hr hr' hne hmeet => exact (happart _ (hreport hr) _ (hreport hr')).elim hne hmeet
    | known hr hrange hne hmeet =>
      exact (happart _ (hreport hr) _ (List.mem_append_right _ hrange)).elim hne hmeet
  · intro hnot
    by_contra hnone
    have hknown : ∀ r ∈ reports, ∀ range ∈ stored, r.range = range ∨ r.range.Disjoint range :=
      fun r hr range hrange => or_iff_not_imp_left.mpr fun hne => by_contra fun hmeet =>
        hnone (.known hr hrange hne hmeet)
    refine hnot ⟨fun range hrange => ?_, fun range hrange other hother => ?_⟩
    · rcases List.mem_append.mp hrange with hnew | hold
      · obtain ⟨r, hr, rfl⟩ := List.mem_map.mp hnew
        exact Int.not_le.mp fun hempty => hnone (.empty hr hempty)
      · exact h.lower_lt range hold
    · rcases List.mem_append.mp hrange with hnew | hold
      · obtain ⟨r, hr, rfl⟩ := List.mem_map.mp hnew
        rcases List.mem_append.mp hother with hnew' | hold'
        · obtain ⟨r', hr', rfl⟩ := List.mem_map.mp hnew'
          exact or_iff_not_imp_left.mpr fun hne => by_contra fun hmeet =>
            hnone (.among hr hr' hne hmeet)
        · exact hknown r hr other hold'
      · rcases List.mem_append.mp hother with hnew' | hold'
        · obtain ⟨r', hr', rfl⟩ := List.mem_map.mp hnew'
          exact (hknown r' hr' range hold).imp Eq.symm fun hdisjoint point hp hp' => hdisjoint point hp' hp
        · exact h.same_or_disjoint range hold other hold'

theorem Round.unique (h : Round service settings time c s t)
    (h' : Round service settings time c s u) : t = u := by
  cases h with
  | stored missed answered told added =>
    cases h' with
    | stored missed' answered' told' added' =>
      cases answered.symm.trans answered'
      cases added.symm.trans added'
      rfl

theorem Rounds.unique (h : Rounds service settings time c k s t)
    (h' : Rounds service settings time c k s u) : t = u := by
  induction h with
  | start s =>
    cases h'
    rfl
  | cons hround hrest ih =>
    cases h' with
    | cons hround' hrest' => exact ih (hround.unique hround' ▸ hrest')

theorem exists_refused {e : WeatherError} (hlookup : lookup service settings time c s = .error e t)
    (hkind : e.kind ∈ [WeatherErrorKind.service, .emptyResponse, .cache]) :
    ∃ k u, Rounds service settings time c k s u ∧ Refused service settings time c u e ∧
      t = { u with calls := u.calls + 1 } := by
  unfold lookup at hlookup
  split at hlookup
  · rcases (ends_lookupWithin service settings time c settings.maxCalls s).of_eq_error hlookup with
      ⟨rfl, -⟩ | ⟨k, -, u, hrounds, hrefused, ht⟩
    · exact absurd hkind (by simp [WeatherError.kind])
    · exact ⟨k, u, hrounds, hrefused, ht⟩
  · cases hlookup
    exact absurd hkind (by simp [WeatherError.kind])

/-- Refused answers leave no trace: where a lookup fails at a query, the buckets are those that the answers
to the queries before it have made, each stored as a whole. An answer is refused by the cache exactly if
it clashes with itself or with what is stored for the place. -/
theorem refused_answers_leave_no_trace (h : Reachable settings s) (service : WeatherService)
    (time : Int) (c : Coordinate) :
    (∀ e t, lookup service settings time c s = .error e t →
      e.kind ∈ [WeatherErrorKind.service, .emptyResponse, .cache] →
      ∃ k u, Rounds service settings time c k s u ∧ Refused service settings time c u e ∧
        t.calls = s.calls + (k + 1) ∧ t.buckets = u.buckets ∧ (k = 0 → t.buckets = s.buckets)) ∧
      ∀ k u reports, k < settings.maxCalls → Calendar.isInstant time = true →
        Rounds service settings time c k s u → (serving settings c u).get? time = none →
        service u.calls time c = .ok reports →
        ((∃ x t, lookup service settings time c s = .error (.cache x) t ∧
          t.calls = s.calls + (k + 1)) ↔ Clashes reports (serving settings c u).ranges) := by
  constructor
  · intro e t hlookup hkind
    obtain ⟨k, u, hrounds, hrefused, rfl⟩ := exists_refused hlookup hkind
    refine ⟨k, u, hrounds, hrefused, by rw [hrounds.calls_eq, Nat.add_assoc], rfl, ?_⟩
    rintro rfl
    cases hrounds
    rfl
  · intro k u reports hk htime hrounds missed answered
    have hordered := (hrounds.learned.lawful h.lawful).serving c
    rw [clashes_iff hordered.coherent, ← addReports_ok_iff hordered]
    constructor
    · rintro ⟨x, t, hlookup, hcalls⟩ ⟨filled, hadded⟩
      obtain ⟨j, v, hrounds', hrefused, rfl⟩ := exists_refused hlookup (by simp [WeatherError.kind])
      obtain rfl : j = k := by
        have hcalls' := hrounds'.calls_eq
        simp only at hcalls
        omega
      obtain rfl := hrounds.unique hrounds'
      cases hrefused with
      | failed hfailed => cases answered.symm.trans hfailed
      | rejected answered' hrejected =>
        cases answered.symm.trans answered'
        cases hadded.symm.trans hrejected
    · intro hnone
      cases hadded : addReports reports (serving settings c u) with
      | ok filled => exact absurd ⟨filled, hadded⟩ hnone
      | error x =>
        obtain ⟨n, hn⟩ : ∃ n, settings.maxCalls = n + 1 + k := ⟨settings.maxCalls - k - 1, by omega⟩
        refine ⟨x, { u with calls := u.calls + 1 }, ?_, by rw [hrounds.calls_eq, Nat.add_assoc]⟩
        rw [lookup, if_pos htime, hn, lookupWithin_of_rounds hrounds]
        exact lookupWithin_of_refused missed (.rejected answered hadded)

def clashingReport (c : Coordinate) : WeatherReport :=
  .ofMillis 5 20000000000 113 c .fake

def clashingService : WeatherService := fun _ _ c => .ok [lateReport 113 c, clashingReport c]

theorem refused_answers_leave_no_trace_of_sample : Reachable {} (clearCache sampleCoordinate) ∧
    ∃ x t, lookup clashingService {} 10000000000 sampleCoordinate (clearCache sampleCoordinate) =
        .error (.cache x) t ∧ t.calls = 2 ∧ t.buckets = (clearCache sampleCoordinate).buckets := by
  have hserving := serving_clear {} sampleCoordinate
  obtain ⟨hrefused, hcache⟩ :=
    refused_answers_leave_no_trace reachable_clear clashingService 10000000000 sampleCoordinate
  have hmeet : ¬ (clashingReport sampleCoordinate).range.Disjoint ⟨0, 10000000000⟩ :=
    fun hdisjoint => hdisjoint 5 (by decide) (by decide)
  have hclashes : Clashes [lateReport 113 sampleCoordinate, clashingReport sampleCoordinate]
      (serving {} sampleCoordinate (clearCache sampleCoordinate)).ranges := by
    rw [hserving]
    exact .known (r := clashingReport sampleCoordinate) (by simp) (by simp [RangeMap.ranges])
      (by decide) hmeet
  obtain ⟨x, t, hlookup, hcalls⟩ := (hcache 0 _ _ (by decide) (by decide) (.start _)
    (by rw [hserving]; rfl) rfl).mpr hclashes
  obtain ⟨k, u, hrounds, -, hcalls', -, hsame⟩ := hrefused _ t hlookup (by simp [WeatherError.kind])
  exact ⟨reachable_clear, x, t, hlookup, hcalls, hsame (by omega)⟩

end Weather
end DriveLog
