import DriveLog.Proofs.Trip.Merge
import DriveLog.Proofs.Trip.Placing
set_option autoImplicit false

namespace DriveLog

/-- An event is refused when its time is in a trip that is inside another. -/
def Fact.Blocked (t : Table) (f : Fact) (error : ConsolidationError) : Prop :=
  (∃ e trips, f = .event e ∧ error = .badState (.overlappingTrips e.time e.user trips)) ∧
    ∃ S ∈ t.trips, ∃ T ∈ t.trips, S.Inside T ∧ S.span.Touches f.span

namespace Table
variable {t : Table} {pending pending' : List Span} {l : List Fact} {c : Span} {T W : Trip}
  {g : Fact} {id : String}

theorem Houses.outermost (h : t.Houses c id) (hcle : c.start ≤ c.stop) :
    ∃ W ∈ t.trips, W.id = id ∧ t.Outermost W ∧ W.user = c.user := by
  obtain ⟨W, hW, hid, hin, honly⟩ := h
  have htouch : W.span.Touches c := ((Span.touches_self hcle).of_within hin).symm
  refine ⟨W, hW, hid, Sound.outermost_of_leads ⟨hW, htouch, fun T hT hTc => ?_⟩, hin.1.symm⟩
  exact Int.le_of_eq (congrArg Trip.start (honly T hT hTc).symm)

theorem Holds.openTrip (h : t.Holds pending l) (hnew : t.get? (Record.trip W).key = none)
    (hW : W.span ∈ pending) (hle : W.start ≤ W.stop)
    (hfree : ∀ T ∈ t.trips, ¬ T.span.Touches W.span) :
    (t.put (Record.trip W).key (.trip W)).Holds pending l where
  sound := h.sound.openTrip hnew hle hfree
  accounted := h.accounted.openTrip h.sound hnew hW hle hfree
  facts := ((facts_put_perm h.sound.wellFormed rfl).map _).trans h.facts

theorem houses_openTrip (hwf : t.WellFormed) (hfree : ∀ T ∈ t.trips, ¬ T.span.Touches W.span) :
    (t.put (Record.trip W).key (.trip W)).Houses W.span W.id := by
  refine ⟨W, (mem_trips_put_trip hwf).mpr (.inl rfl), rfl, .refl _, fun T hT htouch => ?_⟩
  rcases (mem_trips_put_trip hwf).mp hT with rfl | ⟨_, hT⟩
  · rfl
  · exact absurd htouch (hfree T hT)

theorem Holds.addFact (h : t.Holds pending l)
    (hpending : ∀ s ∈ pending, s = g.span ∨ s ∈ pending') (hle : g.span.start ≤ g.span.stop)
    (hhouse : t.Houses g.span g.trip) (hnew : t.get? g.toRecord.key = none) :
    (t.put g.toRecord.key g.toRecord).Holds pending' (g.unplaced :: l) := by
  obtain ⟨W, hW, hid, hout, hu⟩ := hhouse.outermost hle
  obtain ⟨W', hW', hid', hin, honly⟩ := hhouse
  obtain rfl := eq_of_trip_id h.sound.wellFormed hW hW' (hid.trans hid'.symm)
  constructor
  case sound => exact h.sound.addFact hle hout hid.symm (hu.trans (Fact.span_user g))
  case accounted => exact h.accounted.addFact h.sound hpending hout hid.symm hin honly hnew
  case facts =>
    refine ((facts_put_fresh_perm h.sound.wellFormed hnew).map _).trans ?_
    exact h.facts.cons g.unplaced

end Table

namespace Consolidation
variable {σ : Type} [RecordStore σ] [LawfulStore σ] {b : Bool} {s : σ} {pending pending' : List Span}
  {l : List Fact} {T W : Trip} {f : Fact} {t : Table} {user : String} {start stop : Int}
open LawfulStore (table Ready)

def Fails (steady : Bool) (pending : List Span) (l : List Fact) (f : Fact) (t : Table)
    (e : ConsolidationError) (s : σ) : Prop :=
  Ready steady s ∧ (table s).Holds pending l ∧ (e.IsInjected ∧ steady = false ∨ f.Blocked t e)

theorem Stops.fails {e : ConsolidationError} (h : Stops b pending l e s) :
    Fails b pending l f t e s := ⟨h.1, h.2.1, .inl h.2.2⟩

theorem ends_openTrip_holds (hc : (⟨user, start, stop⟩ : Span) ∈ pending) (hle : start ≤ stop)
    (h : Ready b s) (hk : (table s).Holds pending l)
    (hfree : ∀ T ∈ (table s).trips, ¬ T.span.Touches ⟨user, start, stop⟩) :
    Ends (openTrip user start stop) s
      (fun id t => Ready b t ∧ (table t).Holds pending l ∧
        (table t).Houses ⟨user, start, stop⟩ id) (Stops b pending l) := by
  refine (ends_openTrip h hk hfree).mono (fun id t ht => ?_) fun _ _ => Halts.refused
  obtain ⟨hready, hfresh, htable⟩ := ht
  rw [htable]
  exact ⟨hready, hk.openTrip (W := ⟨id, user, start, stop⟩) (hfresh .trip) hc hle hfree,
    Table.houses_openTrip (W := ⟨id, user, start, stop⟩) hk.sound.wellFormed hfree⟩

/-- Two trips over one moment are one inside the other. -/
theorem inside_of_both {t : Table} (h : t.Sound) {c : Span} {S T : Trip} (hc : c.stop ≤ c.start)
    (hS : S ∈ t.trips) (hT : T ∈ t.trips) (hSc : S.span.Touches c) (hTc : T.span.Touches c)
    (hne : S.id ≠ T.id) :
    ∃ S ∈ t.trips, ∃ T ∈ t.trips, S.Inside T ∧ S.span.Touches c := by
  have htouch : S.span.Touches T.span := by
    obtain ⟨hSu, hS₁, hS₂⟩ := hSc
    obtain ⟨hTu, hT₁, hT₂⟩ := hTc
    exact ⟨hSu.trans hTu.symm, by omega, by omega⟩
  rcases h.nested S hS T hT hne htouch with hin | hin
  · exact ⟨S, hS, T, hT, hin, hSc⟩
  · exact ⟨T, hT, S, hS, hin, hTc⟩

theorem ends_place_holds {f : Fact} (hf : f.span ∈ pending) (hle : f.span.start ≤ f.span.stop)
    (h : Ready b s) (hk : (table s).Holds pending l) :
    Ends f.place s
      (fun trip t => Ready b t ∧ (table t).Holds pending l ∧ (table t).Houses f.span trip)
      (Fails b pending l f (table s)) := by
  refine Ways.ends_place keptByReads_true h ?_
  constructor
  case refused =>
    exact fun e t ht hinjected hb => ⟨ht.ready, ht.table_eq ▸ hk, .inl ⟨hinjected, hb⟩⟩
  case opened =>
    intro t ht hfree
    rw [← ht.table_eq] at hk hfree
    exact (ends_openTrip_holds hf hle ht.ready hk hfree).mono (fun _ _ ha => ha) fun _ _ => Stops.fails
  case held =>
    rintro e rfl t T ht hT htouch honly
    rw [ht.table_eq]
    exact ⟨ht.ready, hk, T, hT, rfl, ⟨htouch.1.symm, htouch.2⟩, honly⟩
  case doubled =>
    rintro e rfl t ids S T ht hS hT hSf hTf hne
    exact ⟨ht.ready, ht.table_eq ▸ hk, .inr ⟨⟨e, ids, rfl, rfl⟩,
      inside_of_both hk.sound (Int.le_refl _) hS hT hSf hTf hne⟩⟩
  case merged =>
    intro d _ t W losers a z ht hW hlosers hhull
    rw [← ht.table_eq] at hk hW hlosers hhull
    exact (ends_merge_holds hf hle ht.ready hk hW.leads hlosers hhull).mono (fun _ _ ha => ha)
      fun _ _ => Stops.fails

theorem ends_record {f : Fact} (hpending : ∀ s ∈ pending, s = f.span ∨ s ∈ pending')
    (hle : f.span.start ≤ f.span.stop) (h : Ready b s) (hk : (table s).Holds pending l) :
    Ends f.record s
      (fun g t => Ready b t ∧ (table t).Holds pending' (g.unplaced :: l) ∧ g ∈ (table t).facts ∧
        g.content = f.content)
      (Fails b (f.span :: pending) l f (table s)) := by
  have hk' : (table s).Holds (f.span :: pending) l := hk.mono fun s hs => by simp [hs]
  have hpending' : ∀ s ∈ f.span :: pending, s = f.span ∨ s ∈ pending' := by simpa using hpending
  refine (ends_record_of_place (R := fun _ => False)
    (P := fun trip t => t.Holds (f.span :: pending) l ∧ t.Houses f.span trip)
    (ends_place_holds (by simp) hle h hk') fun trip e t he =>
      (he.stops (fun _ ht => ht.1) fun _ _ => not_false).fails).imp fun g t hg => ?_
  obtain ⟨hready, trip, u, id, ⟨hku, hhouse⟩, rfl, hfresh, htable⟩ := hg
  rw [htable]
  refine ⟨hready, hku.addFact ?_ ?_ ?_ ?_,
    (Table.mem_facts_put_fact hku.sound.wellFormed).mpr (.inl rfl), by simp⟩
  · rwa [Fact.span_withId, Fact.span_withTrip]
  · rwa [Fact.span_withId, Fact.span_withTrip]
  · rwa [Fact.span_withId, Fact.span_withTrip, Fact.trip_withId, Fact.trip_withTrip]
  · rw [Fact.key_withId]
    exact hfresh _

end Consolidation

end DriveLog
