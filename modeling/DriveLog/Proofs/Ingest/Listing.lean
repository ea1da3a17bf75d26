import DriveLog.Proofs.Ingest.Run
import DriveLog.Proofs.Trip.Parts
import Mathlib.Data.List.Perm.Basic
set_option autoImplicit false

namespace DriveLog
variable {t : Table} {T : Trip} {part l m : List Fact} {r : TripReport} {x : ReportedEvent}
  {events : List ReportedEvent}

/-- A report covers the facts of a part, no more and no less. -/
structure Covers (t : Table) (part : List Fact) (r : TripReport) : Prop where
  reaches : Reaches part r.start r.stop
  events : Reported t part r.events
  ordered : r.events.Pairwise fun x y => x.time ≤ y.time
  inside : ∀ x ∈ r.events, r.start ≤ x.time ∧ x.time ≤ r.stop

theorem shown_withTrip {e : Event} {trip : String} : Shown t { e with trip } x ↔ Shown t e x := by
  constructor
  · rintro ⟨htype, hseverity, hvalue, htime, hurl⟩
    exact ⟨htype, hseverity, hvalue, htime, hurl⟩
  · rintro ⟨htype, hseverity, hvalue, htime, hurl⟩
    exact ⟨htype, hseverity, hvalue, htime, hurl⟩

theorem forall₂_shown_unplaced :
    List.Forall₂ (Shown t) (eventsOf (l.map Fact.unplaced)) events ↔
      List.Forall₂ (Shown t) (eventsOf l) events := by
  induction l generalizing events with
  | nil => simp [eventsOf]
  | cons f l ih =>
    cases f with
    | condition c => exact ih
    | event e =>
      have hmap : eventsOf ((Fact.event e :: l).map Fact.unplaced) =
          { e with trip := "" } :: eventsOf (l.map Fact.unplaced) := rfl
      have hcons : eventsOf (.event e :: l) = e :: eventsOf l := rfl
      rw [hmap, hcons, List.forall₂_cons_left_iff, List.forall₂_cons_left_iff]
      simp only [shown_withTrip, ih]

namespace Reported

theorem perm (h : Reported t l events) (hlm : (l.map Fact.unplaced).Perm (m.map Fact.unplaced)) :
    Reported t m events := by
  obtain ⟨shown, hshown, hperm⟩ := h
  have hevents : (eventsOf (m.map Fact.unplaced)).Perm (eventsOf (l.map Fact.unplaced)) :=
    hlm.symm.filterMap _
  obtain ⟨shown', hshown', hperm'⟩ :=
    List.perm_comp_forall₂ hevents (forall₂_shown_unplaced.mpr hshown)
  exact ⟨shown', forall₂_shown_unplaced.mp hshown', hperm.trans hperm'.symm⟩

theorem exists_event (h : Reported t l events) (hx : x ∈ events) :
    ∃ e, .event e ∈ l ∧ Shown t e x := by
  obtain ⟨shown, hshown, hperm⟩ := h
  obtain ⟨e, he, hex⟩ := (Ends.exists_of_forall₂ hshown).1 x (hperm.mem_iff.mp hx)
  exact ⟨e, mem_eventsOf.mp he, hex⟩

theorem flatMap {parts : List (List Fact)} {reports : List TripReport}
    (h : List.Forall₂ (Covers t) parts reports) :
    Reported t parts.flatten (reports.flatMap TripReport.events) := by
  induction h with
  | nil => exact ⟨[], .nil, .refl _⟩
  | @cons part r parts reports hr _ ih =>
    obtain ⟨shown, hshown, hperm⟩ := hr.events
    obtain ⟨others, hothers, hperm'⟩ := ih
    have hevents : eventsOf (part ++ parts.flatten) = eventsOf part ++ eventsOf parts.flatten := by
      simp [eventsOf]
    refine ⟨shown ++ others, ?_, hperm.append hperm'⟩
    rw [List.flatten_cons, hevents]
    exact List.rel_append hshown hothers

end Reported

theorem ReportOf.covers {recorded : List Fact} (h : ReportOf t T r)
    (hholds : t.Holds [] (recorded.map Fact.unplaced)) (hT : T ∈ t.trips) :
    Covers t (t.partOf recorded T) r := by
  have hreaches : Reaches (t.partOf recorded T) r.start r.stop := by
    rw [h.start, h.stop]
    exact hholds.reaches_partOf hT
  have hevents : Reported t (t.partOf recorded T) r.events := h.events.perm (hholds.perm_partOf T)
  refine ⟨hreaches, hevents, h.ordered, fun x hx => ?_⟩
  obtain ⟨e, he, hex⟩ := hevents.exists_event hx
  rw [hex.time]
  exact ⟨hreaches.start.2 ⟨_, he, rfl⟩, hreaches.stop.2 ⟨_, he, rfl⟩⟩

theorem pairwise_reports {trips : List Trip} {reports : List TripReport}
    (h : List.Forall₂ (ReportOf t) trips reports)
    (hpair : trips.Pairwise fun S T => S.stop < T.start) :
    reports.Pairwise fun r r' => r.stop < r'.start := by
  have hends : trips.map (fun T => (T.start, T.stop)) = reports.map fun r => (r.start, r.stop) := by
    refine List.forall₂_eq_eq_eq ▸ List.forall₂_map_left_iff.mpr (List.forall₂_map_right_iff.mpr ?_)
    exact h.imp fun T r hr => by rw [hr.start, hr.stop]
  have hmap : (trips.map fun T => (T.start, T.stop)).Pairwise fun a b => a.2 < b.1 :=
    List.pairwise_map.mpr hpair
  rw [hends] at hmap
  exact List.pairwise_map.mp hmap

namespace Ingest

/-- On a repository that holds raw records only and has ids that never repeat, whatever calls have
been made: the reports are of the components of recorded facts that touch the window, one of each,
and lie one after the other; each has the events of its component. A window over all that is recorded
for the user has each of the user's events reported once. -/
theorem reports_eq_components (service : WeatherService) (settings : IngestSettings)
    {s₀ : Intake Repository} (hready : s₀.store.Ready true) (hraw : s₀.store.table.IsRaw)
    {calls : List IngestCall} {answers : List (Except IngestError IngestAnswer)}
    {s : Intake Repository} (hserve : serve service settings calls s₀ = (answers, s))
    {user : String} {start stop : Int} {reports : List TripReport} {s' : Intake Repository}
    (hreport : reportTrips settings user start stop s = .ok reports s') :
    Served service settings calls s₀ answers s ∧
    (∃ parts, parts.Nodup ∧
      (∀ part, part ∈ parts ↔ TouchedPart (recorded answers) user start stop part) ∧
      List.Forall₂ (Covers s.store.table) parts reports) ∧
    reports.Pairwise (fun r r' => r.stop < r'.start) ∧
    ((∀ f ∈ recorded answers, f.user = user → start ≤ f.span.start ∧ f.span.stop ≤ stop) →
      Reported s.store.table ((recorded answers).filter fun f => f.user = user)
        (reports.flatMap TripReport.events)) := by
  obtain ⟨hk, hserved⟩ := keeps_of_isRaw service settings hready hraw hserve
  have hholds : s.store.table.Holds [] ((recorded answers).map Fact.unplaced) := hk.holds
  obtain ⟨-, trips, htouching, hsorted, hall⟩ :=
    (ends_reportTouching hk service settings user start stop).of_eq_ok hreport
  have hcovers : List.Forall₂ (Covers s.store.table)
      (trips.map (s.store.table.partOf (recorded answers))) reports := by
    have hmem : ∀ T ∈ trips, T ∈ s.store.table.trips := fun T hT => ((htouching.mem_iff T).mp hT).1
    have hboth := (List.forall₂_and_left _ _).mpr ⟨hmem, hall⟩
    exact List.forall₂_map_left_iff.mpr (hboth.imp fun T r hr => hr.2.covers hholds hr.1)
  refine ⟨hserved, ⟨_, hholds.nodup_parts htouching, fun part => hholds.mem_parts_iff htouching,
    hcovers⟩, pairwise_reports hall (hholds.pairwise_stop_lt htouching hsorted), fun hcover => ?_⟩
  have hparts := hholds.perm_parts htouching hcover
  rw [List.flatMap_def] at hparts
  exact (Reported.flatMap hcovers).perm (hparts.map _)

def sampleDrives : List IngestCall :=
  [.event ⟨"", "ann", "", 4, .laneChange, ⟨0⟩, ⟨0⟩, ⟨.rawVideo, "v"⟩⟩,
    .condition ⟨"", "ann", "", .rain, ⟨0⟩, 2, 5, ⟨.rawVideo, "v"⟩⟩,
    .event ⟨"", "ann", "", 8, .laneChange, ⟨0⟩, ⟨0⟩, ⟨.rawVideo, "v"⟩⟩]

def sampleListed : List (Except IngestError IngestAnswer) × Intake Repository :=
  serve sampleService {} sampleDrives sampleIntake

def sampleListing : List TripReport :=
  match reportTrips {} "ann" 0 9 sampleListed.2 with
  | .ok reports _ => reports
  | .error _ _ => []

theorem reports_eq_components_of_sample :
    sampleIntake.store.Ready true ∧ sampleIntake.store.table.IsRaw ∧
      ∃ reports s, reportTrips {} "ann" 0 9 sampleListed.2 = .ok reports s ∧
        reports.length = 2 ∧ reports.Pairwise (fun r r' => r.stop < r'.start) ∧
        Reported sampleListed.2.store.table
          ((recorded sampleListed.1).filter fun f => f.user = "ann")
          (reports.flatMap TripReport.events) := by
  have hok : sampleListing.length = 2 := by decide +kernel
  have hcover : ∀ f ∈ recorded sampleListed.1, f.user = "ann" →
      0 ≤ f.span.start ∧ f.span.stop ≤ 9 := by decide +kernel
  refine ⟨sampleIntake_ready, sampleIntake_isRaw, ?_⟩
  cases hreport : reportTrips {} "ann" 0 9 sampleListed.2 with
  | ok reports s =>
    have hlength : reports.length = 2 := by simpa [sampleListing, hreport] using hok
    obtain ⟨-, -, hpair, hall⟩ :=
      reports_eq_components sampleService {} sampleIntake_ready sampleIntake_isRaw rfl hreport
    exact ⟨reports, s, rfl, hlength, hpair, hall hcover⟩
  | error e s => simp [sampleListing, hreport] at hok

end Ingest

end DriveLog
