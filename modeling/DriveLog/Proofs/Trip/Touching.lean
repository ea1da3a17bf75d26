import DriveLog.Proofs.Outcome
import DriveLog.Proofs.Trip.Nesting
import Mathlib.Data.List.Basic
set_option autoImplicit false

namespace DriveLog

structure Touching (t : Table) (c : Span) (trips : List Trip) : Prop where
  nodup : (trips.map Trip.id).Nodup
  mem_iff : ∀ T, T ∈ trips ↔ T ∈ t.trips ∧ T.span.Touches c

namespace Table

structure Losers (t : Table) (c : Span) (W : Trip) (losers : List String) : Prop where
  nodup : losers.Nodup
  mem_iff : ∀ id, id ∈ losers ↔ ∃ S ∈ t.trips, S.id = id ∧ S.span.Touches c ∧ S.id ≠ W.id

theorem Losers.not_mem {t : Table} {c : Span} {W : Trip} {losers : List String}
    (h : t.Losers c W losers) : W.id ∉ losers := by
  intro hlost
  obtain ⟨S, -, hid, -, hne⟩ := (h.mem_iff W.id).mp hlost
  exact hne hid

/-- The trip that the others are merged into: the first that touches `c`, and of trips with one start the
one of the least id. -/
structure Chosen (t : Table) (c : Span) (W : Trip) : Prop where
  mem : W ∈ t.trips
  touches : W.span.Touches c
  first : ∀ T ∈ t.trips, T.span.Touches c → T ≠ W →
    W.start < T.start ∨ W.start = T.start ∧ W.id < T.id

theorem Chosen.leads {t : Table} {c : Span} {W : Trip} (h : t.Chosen c W) : t.Leads c W := by
  refine ⟨h.mem, h.touches, fun T hT htouch => ?_⟩
  by_cases hTW : T = W
  · exact Int.le_of_eq (congrArg Trip.start hTW.symm)
  · have hfirst := h.first T hT htouch hTW
    omega

theorem Chosen.unique {t : Table} {c : Span} {V W : Trip} (hV : t.Chosen c V) (hW : t.Chosen c W) :
    V = W := by
  by_contra hne
  rcases hV.first W hW.mem hW.touches (Ne.symm hne) with hlt | ⟨heq, hid⟩
  · have hfirst := hW.first V hV.mem hV.touches hne
    omega
  · rcases hW.first V hV.mem hV.touches hne with hlt | ⟨-, hid'⟩
    · omega
    · exact String.lt_irrefl _ (String.lt_trans hid hid')

theorem Hull.unique {t : Table} {c : Span} {a a' z z' : Int} (h : t.Hull c a z) (h' : t.Hull c a' z') :
    a = a' ∧ z = z' := by
  have hstart : ∀ {a a' z z' : Int}, t.Hull c a z → t.Hull c a' z' → a ≤ a' := by
    intro a a' z z' h h'
    rcases h'.start_eq with rfl | ⟨T, hT, htouch, rfl⟩
    · exact h.start_le
    · exact (h.trip T hT htouch).1
  have hstop : ∀ {a a' z z' : Int}, t.Hull c a z → t.Hull c a' z' → z' ≤ z := by
    intro a a' z z' h h'
    rcases h'.stop_eq with rfl | ⟨T, hT, htouch, rfl⟩
    · exact h.le_stop
    · exact (h.trip T hT htouch).2
  exact ⟨Int.le_antisymm (hstart h h') (hstart h' h), Int.le_antisymm (hstop h' h) (hstop h h')⟩

section sameTrips
variable {t u : Table} {c : Span} {W : Trip} {losers : List String} {a z : Int}
  (htrips : ∀ T, T ∈ u.trips ↔ T ∈ t.trips)
include htrips

theorem Chosen.congr (h : u.Chosen c W) : t.Chosen c W where
  mem := (htrips W).mp h.mem
  touches := h.touches
  first := by simpa only [htrips] using h.first

theorem Losers.congr (h : u.Losers c W losers) : t.Losers c W losers :=
  ⟨h.nodup, by simpa only [htrips] using h.mem_iff⟩

theorem Hull.congr (h : u.Hull c a z) : t.Hull c a z where
  start_le := h.start_le
  le_stop := h.le_stop
  trip := by simpa only [htrips] using h.trip
  start_eq := by simpa only [htrips] using h.start_eq
  stop_eq := by simpa only [htrips] using h.stop_eq

end sameTrips

end Table

theorem foldl_extreme (r : Int → Int → Prop) (pick : Int → Int → Int) (hrefl : ∀ a, r a a)
    (htrans : ∀ a b c, r a b → r b c → r a c)
    (hpick : ∀ a b, r (pick a b) a ∧ r (pick a b) b ∧ (pick a b = a ∨ pick a b = b))
    (bound : Trip → Int) (l : List Trip) (x : Int) :
    r (l.foldl (fun a T => pick a (bound T)) x) x ∧
      (∀ T ∈ l, r (l.foldl (fun a T => pick a (bound T)) x) (bound T)) ∧
      (l.foldl (fun a T => pick a (bound T)) x = x ∨
        ∃ T ∈ l, bound T = l.foldl (fun a T => pick a (bound T)) x) := by
  induction l generalizing x with
  | nil => simp [hrefl]
  | cons T l ih =>
    obtain ⟨hx, hall, hend⟩ := ih (pick x (bound T))
    obtain ⟨hleft, hright, heq⟩ := hpick x (bound T)
    simp only [List.foldl_cons, List.forall_mem_cons, List.exists_mem_cons_iff]
    refine ⟨htrans _ _ _ hx hleft, ⟨htrans _ _ _ hx hright, hall⟩, ?_⟩
    rcases hend with hend | hend
    · rw [hend]
      exact heq.imp_right fun h => .inl h.symm
    · exact .inr (.inr hend)

namespace Touching
variable {t : Table} {c : Span} {W : Trip} {trips trips' others : List Trip}

theorem perm (h : Touching t c trips) (hperm : trips'.Perm trips) : Touching t c trips' :=
  ⟨((hperm.map Trip.id).nodup_iff).mpr h.nodup, fun T => hperm.mem_iff.trans (h.mem_iff T)⟩

theorem map_id_of_ids (h : List.Forall₂ (fun id T => id = T.id ∧ T ∈ t.trips)
    (t.ids .trip (Predicate.touching c.user c.start c.stop)) trips) :
    trips.map Trip.id = t.ids .trip (Predicate.touching c.user c.start c.stop) := by
  have hids : t.ids .trip (Predicate.touching c.user c.start c.stop) = trips.map Trip.id :=
    List.forall₂_eq_eq_eq ▸ List.forall₂_map_right_iff.mpr (h.imp fun _ _ hT => hT.1)
  exact hids.symm

theorem of_ids (hwf : t.WellFormed) (h : List.Forall₂ (fun id T => id = T.id ∧ T ∈ t.trips)
    (t.ids .trip (Predicate.touching c.user c.start c.stop)) trips) : Touching t c trips := by
  have hids := (map_id_of_ids h).symm
  have hmem : ∀ T ∈ trips, T ∈ t.trips := by
    intro T hT
    obtain ⟨-, -, -, hT⟩ := (Ends.exists_of_forall₂ h).1 T hT
    exact hT
  refine ⟨hids ▸ Table.nodup_ids hwf _ _, fun T => ⟨fun hT => ?_, fun ⟨hT, htouch⟩ => ?_⟩⟩
  · have hid : T.id ∈ trips.map Trip.id := List.mem_map_of_mem hT
    rw [← hids] at hid
    obtain ⟨V, hV, hVid, htouch⟩ := (Table.mem_ids_touching_iff hwf).mp hid
    obtain rfl := Table.eq_of_trip_id hwf hV (hmem T hT) hVid
    exact ⟨hV, htouch⟩
  · have hid : T.id ∈ trips.map Trip.id :=
      hids ▸ (Table.mem_ids_touching_iff hwf).mpr ⟨T, hT, rfl, htouch⟩
    obtain ⟨V, hV, hVid⟩ := List.mem_map.mp hid
    exact Table.eq_of_trip_id hwf (hmem V hV) hT hVid ▸ hV

theorem not_touches (h : Touching t c []) : ∀ T ∈ t.trips, ¬ T.span.Touches c := by
  intro T hT htouch
  have hmem := (h.mem_iff T).mpr ⟨hT, htouch⟩
  simp at hmem

theorem chosen (h : Touching t c (W :: others)) (hsorted : (W :: others).Pairwise fun S T =>
    S.start < T.start ∨ S.start = T.start ∧ S.id < T.id) : t.Chosen c W := by
  obtain ⟨hW, htouch⟩ := (h.mem_iff W).mp (by simp)
  refine ⟨hW, htouch, fun T hT hTc hne => ?_⟩
  rcases List.mem_cons.mp ((h.mem_iff T).mpr ⟨hT, hTc⟩) with rfl | hmem
  · exact absurd rfl hne
  · exact (List.pairwise_cons.mp hsorted).1 T hmem

theorem losers (h : Touching t c (W :: others)) :
    t.Losers c W ((others.map Trip.id).filter (· ≠ W.id)) := by
  refine ⟨(List.nodup_cons.mp h.nodup).2.filter _, fun id => ?_⟩
  simp only [List.mem_filter, List.mem_map, decide_eq_true_eq]
  constructor
  · rintro ⟨⟨S, hS, rfl⟩, hne⟩
    obtain ⟨hSt, htouch⟩ := (h.mem_iff S).mp (by simp [hS])
    exact ⟨S, hSt, rfl, htouch, hne⟩
  · rintro ⟨S, hS, rfl, htouch, hne⟩
    rcases List.mem_cons.mp ((h.mem_iff S).mpr ⟨hS, htouch⟩) with rfl | hmem
    · exact absurd rfl hne
    · exact ⟨⟨S, hmem, rfl⟩, hne⟩

theorem hull (h : Touching t c trips) :
    t.Hull c (trips.foldl (fun a T => min a T.start) c.start)
      (trips.foldl (fun a T => max a T.stop) c.stop) := by
  obtain ⟨hmin, hminAll, hminEnd⟩ := foldl_extreme (· ≤ ·) min Int.le_refl
    (fun _ _ _ => Int.le_trans) (fun a b => by omega) Trip.start trips c.start
  obtain ⟨hmax, hmaxAll, hmaxEnd⟩ := foldl_extreme (· ≥ ·) max Int.le_refl
    (fun _ _ _ hab hbc => Int.le_trans hbc hab) (fun a b => by omega) Trip.stop trips c.stop
  have found : ∀ {p : Trip → Prop}, (∃ T ∈ trips, p T) →
      ∃ T ∈ t.trips, T.span.Touches c ∧ p T := fun ⟨T, hT, hp⟩ =>
    ⟨T, ((h.mem_iff T).mp hT).1, ((h.mem_iff T).mp hT).2, hp⟩
  constructor
  case start_le => exact hmin
  case le_stop => exact hmax
  case trip =>
    intro T hT htouch
    have hmem := (h.mem_iff T).mpr ⟨hT, htouch⟩
    exact ⟨hminAll T hmem, hmaxAll T hmem⟩
  case start_eq => exact hminEnd.imp_right found
  case stop_eq => exact hmaxEnd.imp_right found

end Touching

end DriveLog
