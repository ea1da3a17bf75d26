import DriveLog.Proofs.Trip.Fact
/-!
Trips while they are merged. A merge that stops midway can leave a trip inside another one of its
user; such a trip starts later and has no facts. Each write of a merge keeps this, whatever state it
meets, as long as facts only go to trips that are inside no other.
-/
set_option autoImplicit false

namespace DriveLog

/-- `S` is part of `T` and starts later. -/
def Trip.Inside (S T : Trip) : Prop := S.user = T.user ∧ T.start < S.start ∧ S.stop ≤ T.stop

instance (S T : Trip) : Decidable (S.Inside T) := inferInstanceAs (Decidable (_ ∧ _))

theorem Trip.Inside.within {S T : Trip} (h : S.Inside T) : S.span.Within T.span :=
  ⟨h.1, Int.le_of_lt h.2.1, h.2.2⟩

theorem Trip.not_inside_self (T : Trip) : ¬ T.Inside T := fun h => Int.lt_irrefl _ h.2.1

theorem Trip.Inside.touches {S T : Trip} (h : S.Inside T) (hle : S.start ≤ S.stop) :
    S.span.Touches T.span :=
  (Span.touches_self (a := S.span) hle).of_within h.within

namespace Table

/-- What holds of a table however many merges have stopped midway. -/
structure Sound (t : Table) : Prop where
  wellFormed : t.WellFormed
  trip_le : ∀ T ∈ t.trips, T.start ≤ T.stop
  fact_le : ∀ f ∈ t.facts, f.span.start ≤ f.span.stop
  placed : ∀ f ∈ t.facts, ∃ T ∈ t.trips, T.id = f.trip ∧ T.user = f.user
  nested : ∀ S ∈ t.trips, ∀ T ∈ t.trips, S.id ≠ T.id → S.span.Touches T.span →
    S.Inside T ∨ T.Inside S
  empty : ∀ S ∈ t.trips, ∀ T ∈ t.trips, S.Inside T → ∀ f ∈ t.facts, f.trip ≠ S.id

def Outermost (t : Table) (W : Trip) : Prop := W ∈ t.trips ∧ ∀ T ∈ t.trips, ¬ W.Inside T

structure Leads (t : Table) (c : Span) (W : Trip) : Prop where
  mem : W ∈ t.trips
  touches : W.span.Touches c
  first : ∀ T ∈ t.trips, T.span.Touches c → W.start ≤ T.start

/-- `a` and `b` are the outer ends of `c` and the trips that touch it. -/
structure Hull (t : Table) (c : Span) (a b : Int) : Prop where
  start_le : a ≤ c.start
  le_stop : c.stop ≤ b
  trip : ∀ T ∈ t.trips, T.span.Touches c → a ≤ T.start ∧ T.stop ≤ b
  start_eq : a = c.start ∨ ∃ T ∈ t.trips, T.span.Touches c ∧ T.start = a
  stop_eq : b = c.stop ∨ ∃ T ∈ t.trips, T.span.Touches c ∧ T.stop = b

variable {t u : Table} {c : Span} {S T W : Trip} {f g : Fact} {a b : Int}

theorem sound_nil : Sound [] where
  wellFormed := wellFormed_nil
  trip_le := by simp [trips, contents]
  fact_le := by simp [facts, view]
  placed := by simp [facts, view]
  nested := by simp [trips, contents]
  empty := by simp [trips, contents]

theorem Hull.touches (hh : t.Hull c a b) (hle : S.start ≤ S.stop)
    (htouch : S.span.Touches ⟨c.user, a, b⟩) :
    S.span.Touches c ∨ ∃ T ∈ t.trips, T.span.Touches c ∧ S.span.Touches T.span := by
  obtain ⟨hu, hSb, haS⟩ := htouch
  by_cases hc : S.span.Touches c
  · exact .inl hc
  -- the trip that gives the hull its end on that side reaches over `S`
  refine .inr ?_
  simp only [Trip.span] at hu hSb haS
  by_cases hbefore : S.stop < c.start
  · rcases hh.start_eq with rfl | ⟨T, hT, htouch, hTa⟩
    · omega
    · have hTc := htouch.2.2
      simp only [Trip.span] at hTc
      refine ⟨T, hT, htouch, hu.trans htouch.1.symm, ?_, ?_⟩
      · simp only [Trip.span]
        omega
      · simp only [Trip.span]
        omega
  · have hafter : c.stop < S.start := Int.not_le.mp fun hle => hc ⟨hu, hle, Int.not_lt.mp hbefore⟩
    rcases hh.stop_eq with rfl | ⟨T, hT, htouch, hTb⟩
    · omega
    · have hTc := htouch.2.1
      simp only [Trip.span] at hTc
      refine ⟨T, hT, htouch, hu.trans htouch.1.symm, ?_, ?_⟩
      · simp only [Trip.span]
        omega
      · simp only [Trip.span]
        omega

namespace Sound

theorem congr (h : t.Sound) (hwf : u.WellFormed) (htrips : ∀ T, T ∈ u.trips ↔ T ∈ t.trips)
    (hfacts : ∀ f, f ∈ u.facts ↔ f ∈ t.facts) : u.Sound where
  wellFormed := hwf
  trip_le := by simpa only [htrips] using h.trip_le
  fact_le := by simpa only [hfacts] using h.fact_le
  placed := by simpa only [htrips, hfacts] using h.placed
  nested := by simpa only [htrips] using h.nested
  empty := by simpa only [htrips, hfacts] using h.empty

theorem eq_of_start (h : t.Sound) (hS : S ∈ t.trips) (hT : T ∈ t.trips) (hu : S.user = T.user)
    (hstart : S.start = T.start) : S = T := by
  have hSle := h.trip_le S hS
  have hTle := h.trip_le T hT
  refine eq_of_trip_id h.wellFormed hS hT (Decidable.by_contra fun hne => ?_)
  have htouch : S.span.Touches T.span := ⟨hu, by simp only [Trip.span]; omega,
    by simp only [Trip.span]; omega⟩
  rcases h.nested S hS T hT hne htouch with hin | hin
  · have := hin.2.1
    omega
  · have := hin.2.1
    omega

theorem lt_of_leads (h : t.Sound) (hW : t.Leads c W) (hT : T ∈ t.trips)
    (htouch : T.span.Touches c) (hne : T.id ≠ W.id) : W.start < T.start := by
  have hle := hW.first T hT htouch
  have hstart : W.start ≠ T.start := fun hstart =>
    hne (congrArg Trip.id (h.eq_of_start hW.mem hT (hW.touches.1.trans htouch.1.symm) hstart)).symm
  omega

theorem outermost_of_leads (hW : t.Leads c W) : t.Outermost W := by
  refine ⟨hW.mem, fun T hT hin => ?_⟩
  have hle := hW.first T hT (hW.touches.symm.of_within hin.within).symm
  have := hin.2.1
  omega

/-- What meets the hull of `c` without touching it is inside a trip that does. -/
theorem touches_or_inside_of_hull (h : t.Sound) (hh : t.Hull c a b) (hS : S ∈ t.trips)
    (htouch : S.span.Touches ⟨c.user, a, b⟩) :
    S.span.Touches c ∨ ∃ T ∈ t.trips, T.span.Touches c ∧ S.Inside T := by
  by_cases hc : S.span.Touches c
  · exact .inl hc
  obtain ⟨T, hT, hTc, hST⟩ := (hh.touches (h.trip_le S hS) htouch).resolve_left hc
  have hne : S.id ≠ T.id := fun hid => hc (eq_of_trip_id h.wellFormed hS hT hid ▸ hTc)
  rcases h.nested S hS T hT hne hST with hin | hin
  · exact .inr ⟨T, hT, hTc, hin⟩
  · exact .inl (hTc.symm.of_within hin.within).symm

theorem inside_of_hull (h : t.Sound) (hW : t.Leads c W) (hh : t.Hull c a b) (hS : S ∈ t.trips)
    (hne : S.id ≠ W.id) (htouch : S.span.Touches ⟨c.user, a, b⟩) :
    S.Inside { W with start := a, stop := b } := by
  have hu : S.user = W.user := htouch.1.trans hW.touches.1.symm
  have haW := (hh.trip W hW.mem hW.touches).1
  rcases h.touches_or_inside_of_hull hh hS htouch with hc | ⟨T, hT, hc, hin⟩
  · have hlt := h.lt_of_leads hW hS hc hne
    exact ⟨hu, by simp only; omega, (hh.trip S hS hc).2⟩
  · have haT := hh.trip T hT hc
    have hST := hin.2
    exact ⟨hu, by simp only; omega, by simp only; omega⟩

/-- A trip around the hull of `c` would start before all that touches `c`. -/
theorem hull_not_inside (h : t.Sound) (hW : t.Leads c W) (hh : t.Hull c a b) (hc : c.start ≤ c.stop)
    (hT : T ∈ t.trips) (hne : T.id ≠ W.id) : ¬ Trip.Inside { W with start := a, stop := b } T := by
  rintro ⟨hu, hlt, hge⟩
  simp only at hu hlt hge
  have ha := hh.start_le
  have hb := hh.le_stop
  have htouch : T.span.Touches ⟨c.user, a, b⟩ :=
    ⟨hu.symm.trans hW.touches.1, by simp only [Trip.span]; omega, by simp only [Trip.span]; omega⟩
  have hstart := (h.inside_of_hull hW hh hT hne htouch).2.1
  simp only at hstart
  omega

theorem of_inside_hull (h : t.Sound) (hW : t.Leads c W) (hh : t.Hull c a b) (hS : S ∈ t.trips)
    (hin : S.Inside { W with start := a, stop := b }) :
    S.span.Touches c ∨ ∃ T ∈ t.trips, T.span.Touches c ∧ S.Inside T := by
  have hle := h.trip_le S hS
  obtain ⟨hu, hlt, hge⟩ := hin
  simp only at hu hlt hge
  exact h.touches_or_inside_of_hull hh hS
    ⟨hu.trans hW.touches.1, by simp only [Trip.span]; omega, by simp only [Trip.span]; omega⟩

theorem move (h : t.Sound) (hf : f ∈ t.facts) (hW : t.Outermost W) (hu : W.user = f.user) :
    (t.put (f.withTrip W.id).toRecord.key (f.withTrip W.id).toRecord).Sound where
  wellFormed := h.wellFormed.put rfl
  trip_le T hT := h.trip_le T ((mem_trips_put_fact h.wellFormed).mp hT)
  fact_le g hg := by
    rcases (mem_facts_put_fact h.wellFormed).mp hg with rfl | ⟨_, hg⟩
    · simpa using h.fact_le f hf
    · exact h.fact_le g hg
  placed g hg := by
    simp only [mem_trips_put_fact h.wellFormed]
    rcases (mem_facts_put_fact h.wellFormed).mp hg with rfl | ⟨_, hg⟩
    · exact ⟨W, hW.1, by simp, by simpa using hu⟩
    · exact h.placed g hg
  nested S hS T hT := h.nested S ((mem_trips_put_fact h.wellFormed).mp hS) T
    ((mem_trips_put_fact h.wellFormed).mp hT)
  empty S hS T hT hin g hg := by
    have hS := (mem_trips_put_fact h.wellFormed).mp hS
    have hT := (mem_trips_put_fact h.wellFormed).mp hT
    rcases (mem_facts_put_fact h.wellFormed).mp hg with rfl | ⟨_, hg⟩
    · rw [Fact.trip_withTrip]
      intro hid
      exact hW.2 T hT (eq_of_trip_id h.wellFormed hW.1 hS hid ▸ hin)
    · exact h.empty S hS T hT hin g hg

/-- The first trip that touches `c` grows to the hull of `c`, the others having no facts. -/
theorem widen (h : t.Sound) (hW : t.Leads c W) (hh : t.Hull c a b) (hc : c.start ≤ c.stop)
    (hempty : ∀ T ∈ t.trips, T.span.Touches c → T.id ≠ W.id → ∀ f ∈ t.facts, f.trip ≠ T.id) :
    (t.put (Record.trip { W with start := a, stop := b }).key
      (.trip { W with start := a, stop := b })).Sound where
  wellFormed := h.wellFormed.put rfl
  trip_le T hT := by
    rcases (mem_trips_put_trip h.wellFormed).mp hT with rfl | ⟨_, hT⟩
    · have := hh.start_le
      have := hh.le_stop
      simp only
      omega
    · exact h.trip_le T hT
  fact_le f hf := h.fact_le f ((mem_facts_put_trip h.wellFormed).mp hf)
  placed f hf := by
    obtain ⟨T, hT, hid, hu⟩ := h.placed f ((mem_facts_put_trip h.wellFormed).mp hf)
    simp only [mem_trips_put_trip h.wellFormed]
    by_cases hTW : T.id = W.id
    · obtain rfl := eq_of_trip_id h.wellFormed hT hW.mem hTW
      exact ⟨_, .inl rfl, hid, hu⟩
    · exact ⟨T, .inr ⟨hTW, hT⟩, hid, hu⟩
  nested S hS T hT hne htouch := by
    have hu := hW.touches.1
    rcases (mem_trips_put_trip h.wellFormed).mp hS with rfl | ⟨hSW, hS⟩
    · rcases (mem_trips_put_trip h.wellFormed).mp hT with rfl | ⟨hTW, hT⟩
      · exact absurd rfl hne
      · refine .inr (h.inside_of_hull hW hh hT hTW ?_)
        rw [← hu]
        exact htouch.symm
    · rcases (mem_trips_put_trip h.wellFormed).mp hT with rfl | ⟨_, hT⟩
      · refine .inl (h.inside_of_hull hW hh hS hSW ?_)
        rw [← hu]
        exact htouch
      · exact h.nested S hS T hT hne htouch
  empty S hS T hT hin f hf := by
    have hf := (mem_facts_put_trip h.wellFormed).mp hf
    rcases (mem_trips_put_trip h.wellFormed).mp hS with rfl | ⟨hSW, hS⟩
    · rcases (mem_trips_put_trip h.wellFormed).mp hT with rfl | ⟨hTW, hT⟩
      · exact absurd hin (Trip.not_inside_self _)
      · exact absurd hin (h.hull_not_inside hW hh hc hT hTW)
    · rcases (mem_trips_put_trip h.wellFormed).mp hT with rfl | ⟨_, hT⟩
      · rcases h.of_inside_hull hW hh hS hin with htouch | ⟨T, hT, _, hin⟩
        · exact hempty S hS htouch hSW f hf
        · exact h.empty S hS T hT hin f hf
      · exact h.empty S hS T hT hin f hf

theorem drop (h : t.Sound) (hS : S ∈ t.trips) (hT : T ∈ t.trips) (hin : S.Inside T) :
    (t.erase ⟨.trip, S.id⟩).Sound where
  wellFormed := h.wellFormed.erase _
  trip_le T hT := h.trip_le T ((mem_trips_erase h.wellFormed).mp hT).2
  fact_le f hf := h.fact_le f ((mem_facts_erase h.wellFormed).mp hf)
  placed f hf := by
    have hf := (mem_facts_erase h.wellFormed).mp hf
    obtain ⟨T', hT', hid, hu⟩ := h.placed f hf
    simp only [mem_trips_erase h.wellFormed]
    exact ⟨T', ⟨fun hS' => h.empty S hS T hT hin f hf (hid ▸ hS'), hT'⟩, hid, hu⟩
  nested S hS T hT := h.nested S ((mem_trips_erase h.wellFormed).mp hS).2 T
    ((mem_trips_erase h.wellFormed).mp hT).2
  empty S hS T hT hin f hf := h.empty S ((mem_trips_erase h.wellFormed).mp hS).2 T
    ((mem_trips_erase h.wellFormed).mp hT).2 hin f ((mem_facts_erase h.wellFormed).mp hf)

theorem openTrip (h : t.Sound) (hnew : t.get? (Record.trip W).key = none) (hle : W.start ≤ W.stop)
    (hfree : ∀ T ∈ t.trips, ¬ T.span.Touches W.span) :
    (t.put (Record.trip W).key (.trip W)).Sound where
  wellFormed := h.wellFormed.put rfl
  trip_le T hT := by
    rcases (mem_trips_put_fresh h.wellFormed hnew).mp hT with rfl | hT
    · exact hle
    · exact h.trip_le T hT
  fact_le f hf := h.fact_le f ((mem_facts_put_trip h.wellFormed).mp hf)
  placed f hf := by
    obtain ⟨T, hT, hplace⟩ := h.placed f ((mem_facts_put_trip h.wellFormed).mp hf)
    exact ⟨T, (mem_trips_put_fresh h.wellFormed hnew).mpr (.inr hT), hplace⟩
  nested S hS T hT hne htouch := by
    rcases (mem_trips_put_fresh h.wellFormed hnew).mp hS with rfl | hS'
    · rcases (mem_trips_put_fresh h.wellFormed hnew).mp hT with rfl | hT'
      · exact absurd rfl hne
      · exact absurd htouch.symm (hfree T hT')
    · rcases (mem_trips_put_fresh h.wellFormed hnew).mp hT with rfl | hT'
      · exact absurd htouch (hfree S hS')
      · exact h.nested S hS' T hT' hne htouch
  empty S hS T hT hin f hf := by
    rcases (mem_trips_put_fresh h.wellFormed hnew).mp hS with rfl | hS'
    · rcases (mem_trips_put_fresh h.wellFormed hnew).mp hT with rfl | hT'
      · exact absurd hin (Trip.not_inside_self _)
      · exact absurd (hin.touches hle).symm (hfree T hT')
    · rcases (mem_trips_put_fresh h.wellFormed hnew).mp hT with rfl | hT'
      · exact absurd (hin.touches (h.trip_le S hS')) (hfree S hS')
      · exact h.empty S hS' T hT' hin f ((mem_facts_put_trip h.wellFormed).mp hf)

theorem addFact (h : t.Sound) (hle : g.span.start ≤ g.span.stop) (hW : t.Outermost W)
    (hid : g.trip = W.id) (hu : W.user = g.user) :
    (t.put g.toRecord.key g.toRecord).Sound where
  wellFormed := h.wellFormed.put rfl
  trip_le T hT := h.trip_le T ((mem_trips_put_fact h.wellFormed).mp hT)
  fact_le f hf := by
    rcases (mem_facts_put_fact h.wellFormed).mp hf with rfl | ⟨_, hf⟩
    · exact hle
    · exact h.fact_le f hf
  placed f hf := by
    simp only [mem_trips_put_fact h.wellFormed]
    rcases (mem_facts_put_fact h.wellFormed).mp hf with rfl | ⟨_, hf⟩
    · exact ⟨W, hW.1, hid.symm, hu⟩
    · exact h.placed f hf
  nested S hS T hT := h.nested S ((mem_trips_put_fact h.wellFormed).mp hS) T
    ((mem_trips_put_fact h.wellFormed).mp hT)
  empty S hS T hT hin f hf := by
    have hS' := (mem_trips_put_fact h.wellFormed).mp hS
    have hT' := (mem_trips_put_fact h.wellFormed).mp hT
    rcases (mem_facts_put_fact h.wellFormed).mp hf with rfl | ⟨_, hf'⟩
    · intro hfid
      exact hW.2 T hT' (eq_of_trip_id h.wellFormed hW.1 hS' (hid.symm.trans hfid) ▸ hin)
    · exact h.empty S hS' T hT' hin f hf'

end Sound

end Table

end DriveLog
