import DriveLog.Proofs.Trip.Halfway
set_option autoImplicit false

namespace DriveLog
namespace Table

/-- The trips of a user are apart, and no other user has facts in them. -/
structure Tidy (t : Table) (user : String) : Prop where
  trip_le : ∀ T ∈ t.trips, T.user = user → T.start ≤ T.stop
  apart : ∀ S ∈ t.trips, ∀ T ∈ t.trips, S.user = user → S.id ≠ T.id → ¬ S.span.Touches T.span
  owned : ∀ f ∈ t.facts, ∀ T ∈ t.trips, T.user = user → f.trip = T.id → f.user = user

/-- The effect on `t` of the condition `c`, recorded as `d` in the trip `W`. -/
structure Effect (t : Table) (c d : DrivingCondition) (W : Trip) (u : Table) : Prop where
  condition : d = { c with id := d.id, trip := W.id }
  fresh : t.get? ⟨.drivingCondition, d.id⟩ = none
  trip : t.Hosts (Fact.condition c).span W
  stored : ∀ k, u.get? k = if k = ⟨.drivingCondition, d.id⟩ then some (.drivingCondition d) else
    t.joined? (Fact.condition c).span W k
  apart : ∀ T ∈ u.trips, T.id ≠ W.id → ¬ T.span.Touches W.span

variable {t : Table} {c : Span} {W T : Trip} {user : String} {f : Fact}

/-- The trip for a stretch reaches no trip that the stretch does not touch. -/
theorem Hosts.apart (h : t.Hosts c W) (ht : t.WellFormed) (htidy : t.Tidy c.user) (hT : T ∈ t.trips)
    (hfree : ¬ T.span.Touches c) : ¬ T.span.Touches W.span := by
  intro htouch
  have hu : T.user = c.user := htouch.1.trans h.user
  by_cases hnil : t.touched c = []
  · obtain ⟨hstart, hstop, -⟩ := h.opened hnil
    refine hfree ⟨hu, ?_, ?_⟩
    · exact hstop ▸ htouch.2.1
    · exact hstart ▸ htouch.2.2
  · obtain ⟨-, hhull⟩ := h.grown hnil
    have hmeet : T.span.Touches ⟨c.user, W.start, W.stop⟩ := ⟨hu, htouch.2⟩
    rcases hhull.touches (htidy.trip_le T hT hu) hmeet with hc | ⟨S, hS, hSc, hTS⟩
    · exact hfree hc
    · refine htidy.apart T hT S hS hu (fun hid => hfree ?_) hTS
      exact eq_of_trip_id ht hT hS hid ▸ hSc

theorem Tidy.fit (h : t.Tidy f.user) (hf : ∀ e, f ≠ .event e) : t.Fit f where
  owned V _ g hg htouched _ := by
    obtain ⟨T, hT, hid, htouch⟩ := mem_touched.mp htouched
    exact h.owned g hg T hT (htouch.1.trans f.span_user) hid.symm
  single e he := absurd he (hf e)

end Table

namespace Consolidation
variable {σ : Type} [RecordStore σ] [LawfulStore σ] {b : Bool} {s : σ}
open LawfulStore (table Ready)
open Table (Joining Effect Tidy)

theorem ends_recordCondition_effect {c : DrivingCondition} (h : Ready b s)
    (htidy : (table s).Tidy c.user) :
    Ends (recordCondition c) s
      (fun d u => Ready b u ∧ ∃ W, (table s).Effect c d W (table u))
      (fun e _ => e.IsInjected ∧ b = false) := by
  have hwf := LawfulStore.wellFormed h
  have hrecord := ends_record_joining h (f := .condition c) (htidy.fit (by simp))
  have hrecord' : Ends (recordCondition c) s _ _ := hrecord.of_map
  refine hrecord'.imp fun d u hu => ?_
  obtain ⟨hready, trip, v, id, ⟨hv, W, rfl, hjoined⟩, hd, hfresh, htable⟩ := hu
  obtain rfl : d = { c with id, trip := W.id } := Fact.condition.inj hd
  have hnew := hfresh .drivingCondition
  rw [hjoined.get?_of_ne (by simp), Option.map_eq_none_iff] at hnew
  refine ⟨hready, W, rfl, hnew, hjoined.trip, fun k => ?_, ?_⟩
  · rw [htable, Table.get?_put, hjoined.get?_joined]
    by_cases hk : (⟨.drivingCondition, id⟩ : RecordKey) = k
    · rw [if_pos hk.symm]
      exact if_pos hk
    · rw [if_neg (Ne.symm hk)]
      exact if_neg hk
  · intro T hT hne
    rw [htable, Table.mem_trips_put_fact hv] at hT
    obtain ⟨-, hTt, hfree⟩ := ((hjoined.mem_trips_joined_iff hwf hv).mp hT).resolve_left
      fun hTW => hne (congrArg Trip.id hTW)
    exact hjoined.trip.apart hwf htidy hTt hfree

/-- On a store without failures, a condition of a user whose trips are apart is recorded, and its effect is
what is said of it. -/
theorem recordCondition_effect (h : Ready true s) (c : DrivingCondition)
    (htidy : (table s).Tidy c.user) :
    ∃ d u, recordCondition c s = .ok d u ∧ ∃ W, (table s).Effect c d W (table u) := by
  have hends : Ends (recordCondition c) s _ (fun _ _ => False) :=
    (ends_recordCondition_effect h htidy).mono (fun _ _ ha => ha) fun _ _ he => by cases he.2
  obtain ⟨d, u, hrun, -, W, heffect⟩ := hends.eq_ok
  exact ⟨d, u, hrun, W, heffect⟩

def sampleRoad : Repository :=
  Repository.planted
    [.trip ⟨"", "ann", 0, 2⟩, .trip ⟨"", "ann", 4, 6⟩, .trip ⟨"", "bob", 0, 9⟩,
      .event ⟨"", "ann", "i", 5, .laneChange, ⟨0⟩, ⟨0⟩, ⟨.rawVideo, "v"⟩⟩]
    (Repository.empty Repository.unaryId)

theorem sampleRoad_tidy : sampleRoad.table.Tidy "ann" :=
  ⟨by decide +kernel, by decide +kernel, by decide +kernel⟩

def sampleBridge : DrivingCondition := ⟨"", "ann", "", .rain, ⟨0⟩, 1, 4, ⟨.rawVideo, "v"⟩⟩

theorem recordCondition_effect_of_sample :
    Ready true sampleRoad ∧ sampleRoad.table.Tidy "ann" ∧
      ∃ d u, recordCondition sampleBridge sampleRoad = .ok d u ∧
        u.table.trips = [⟨"", "ann", 0, 6⟩, ⟨"ii", "bob", 0, 9⟩] ∧
        ∃ W, sampleRoad.table.Effect sampleBridge d W u.table := by
  have hready : Ready true sampleRoad :=
    Repository.ready_planted (Repository.ready_empty Repository.unaryId_injective) _
  have htrips : (match recordCondition sampleBridge sampleRoad with
    | .ok _ u => u.table.trips
    | .error _ _ => []) = [⟨"", "ann", 0, 6⟩, ⟨"ii", "bob", 0, 9⟩] := by decide +kernel
  obtain ⟨d, u, hrun, heffect⟩ := recordCondition_effect hready sampleBridge sampleRoad_tidy
  rw [hrun] at htrips
  exact ⟨hready, sampleRoad_tidy, d, u, hrun, htrips, heffect⟩

end Consolidation

end DriveLog
