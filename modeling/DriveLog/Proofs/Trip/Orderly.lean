import DriveLog.Proofs.Trip.Halfway
set_option autoImplicit false

namespace DriveLog
namespace Table

/-- A trip whose ends are the wrong way round holds no moment, and may lie anywhere. -/
structure Orderly (t : Table) : Prop where
  placed : ∀ f ∈ t.facts, ∃ T ∈ t.trips, T.id = f.trip ∧ T.user = f.user
  apart : ∀ S ∈ t.trips, ∀ T ∈ t.trips, S.start ≤ S.stop → T.start ≤ T.stop →
    S.span.Touches T.span → S = T

namespace Orderly
variable {t u : Table} {c : Span} {S T W : Trip} {g : Fact}

theorem empty : Orderly [] where
  placed := by simp [facts, view]
  apart := by simp [trips, contents]

theorem congr (h : t.Orderly) (htrips : ∀ T, T ∈ u.trips ↔ T ∈ t.trips)
    (hfacts : ∀ f, f ∈ u.facts ↔ f ∈ t.facts) : u.Orderly where
  placed := by simpa only [htrips, hfacts] using h.placed
  apart := by simpa only [htrips] using h.apart

theorem fit (h : t.Orderly) (hwf : t.WellFormed) (f : Fact) : t.Fit f where
  owned V _ g hg htouched _ := by
    obtain ⟨S, hS, hid, htouch⟩ := mem_touched.mp htouched
    obtain ⟨T, hT, hid', hu⟩ := h.placed g hg
    obtain rfl := eq_of_trip_id hwf hS hT (hid.trans hid'.symm)
    exact hu.symm.trans (htouch.1.trans f.span_user)
  single e he S hS T hT hSf hTf := by
    subst he
    simp only [Span.Touches, Trip.span, Fact.span] at hSf hTf
    refine h.apart S hS T hT (by omega) (by omega) ⟨hSf.1.trans hTf.1.symm, ?_, ?_⟩
    · rw [Trip.span_start, Trip.span_stop]
      omega
    · rw [Trip.span_start, Trip.span_stop]
      omega

/-- A trip that meets the trip for a stretch touches the stretch. -/
theorem touches_of_hosts (h : t.Orderly) (hW : t.Hosts c W) (hT : T ∈ t.trips) (hle : T.start ≤ T.stop)
    (htouch : T.span.Touches W.span) : T.span.Touches c := by
  by_cases hnil : t.touched c = []
  · obtain ⟨hstart, hstop, -⟩ := hW.opened hnil
    simpa only [Span.Touches, Trip.span, hstart, hstop, hW.user] using htouch
  obtain ⟨-, hhull⟩ := hW.grown hnil
  have hmeet : T.span.Touches ⟨c.user, W.start, W.stop⟩ := ⟨htouch.1.trans hW.user, htouch.2⟩
  rcases hhull.touches hle hmeet with hc | ⟨S, hS, hSc, hTS⟩
  · exact hc
  by_cases hSle : S.start ≤ S.stop
  · rw [h.apart T hT S hS hle hSle hTS]
    exact hSc
  · -- the stretch reaches over `S` on both sides, and so does `T`
    simp only [Span.Touches, Trip.span] at hSc hTS ⊢
    exact ⟨hTS.1.trans hSc.1, by omega, by omega⟩

theorem joining (h : t.Orderly) (hj : t.Joining c W [] u) (ht : t.WellFormed) (hu : u.WellFormed) :
    u.Orderly where
  placed f hf := by
    obtain ⟨g, hg, rfl⟩ := (hj.mem_facts_iff ht hu).mp hf
    obtain ⟨T, hT, hid, huser⟩ := h.placed g hg
    rw [Fact.user_given]
    by_cases htouched : g.trip ∈ t.touched c
    · obtain ⟨S, hS, hSid, htouch⟩ := mem_touched.mp htouched
      obtain rfl := eq_of_trip_id ht hS hT (hSid.trans hid.symm)
      refine ⟨W, (hj.mem_trips_joined_iff ht hu).mpr (.inl rfl), ?_, ?_⟩
      · rw [Fact.given, if_pos htouched, Fact.trip_withTrip]
      · rw [hj.trip.user, ← huser]
        exact htouch.1.symm
    · rw [Fact.given, if_neg htouched]
      have hfree : ¬ T.span.Touches c := fun htouch =>
        htouched (mem_touched.mpr ⟨T, hT, hid, htouch⟩)
      have hne : T.id ≠ W.id := fun hTW => hfree (hj.trip.touches_of_id ht hT hTW)
      exact ⟨T, (hj.mem_trips_joined_iff ht hu).mpr (.inr ⟨hne, hT, hfree⟩), hid, huser⟩
  apart S hS T hT hSle hTle htouch := by
    rcases (hj.mem_trips_joined_iff ht hu).mp hS with rfl | ⟨-, hSt, hSc⟩
    · rcases (hj.mem_trips_joined_iff ht hu).mp hT with rfl | ⟨-, hTt, hTc⟩
      · rfl
      · exact absurd (h.touches_of_hosts hj.trip hTt hTle htouch.symm) hTc
    · rcases (hj.mem_trips_joined_iff ht hu).mp hT with rfl | ⟨-, hTt, -⟩
      · exact absurd (h.touches_of_hosts hj.trip hSt hSle htouch) hSc
      · exact h.apart S hSt T hTt hSle hTle htouch

theorem addFact (h : t.Orderly) (hwf : t.WellFormed) (hW : W ∈ t.trips) (hid : W.id = g.trip)
    (hu : W.user = g.user) : (t.put g.toRecord.key g.toRecord).Orderly where
  placed f hf := by
    simp only [mem_trips_put_fact hwf]
    rcases (mem_facts_put_fact hwf).mp hf with rfl | ⟨-, hf⟩
    · exact ⟨W, hW, hid, hu⟩
    · exact h.placed f hf
  apart := by simpa only [mem_trips_put_fact hwf] using h.apart

end Orderly

end Table

namespace Consolidation
variable {σ : Type} [RecordStore σ] [LawfulStore σ] {b : Bool} {s : σ} {f : Fact}
open LawfulStore (table Ready)
open Table (Orderly)

theorem ends_record_orderly (h : Ready b s) (horderly : (table s).Orderly) :
    Ends f.record s (fun _ t => Ready b t ∧ (table t).Orderly) (fun e _ => e.IsInjected ∧ b = false) := by
  have hwf := LawfulStore.wellFormed h
  refine (ends_record_joining h (horderly.fit hwf f)).imp fun g t ht => ?_
  obtain ⟨hready, -, u, id, ⟨hu, W, rfl, hjoining⟩, rfl, -, htable⟩ := ht
  rw [htable]
  refine ⟨hready, (horderly.joining hjoining hwf hu).addFact hu
    ((hjoining.mem_trips_joined_iff hwf hu).mpr (.inl rfl)) ?_ ?_⟩
  · rw [Fact.trip_withId, Fact.trip_withTrip]
  · rw [hjoining.trip.user, Fact.user_withId, Fact.user_withTrip, Fact.span_user]

end Consolidation

end DriveLog
