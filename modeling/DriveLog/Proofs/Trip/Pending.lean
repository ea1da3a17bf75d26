import DriveLog.Proofs.Trip.Nesting
/-!
What trips owe to facts. Every trip is made up of the spans of recorded facts and of pending ones,
whose recording has been tried and has failed; whatever is out of place is so because of a pending
span. Each write on the way to a fact keeps this while its span is pending, and the last write, which
records the fact, ends its being pending.
-/
set_option autoImplicit false

namespace DriveLog

namespace Table
open DriveLog.Span

def tripSpans (t : Table) (pending : List Span) : List Span := t.trips.map Trip.span ++ pending

def factSpans (t : Table) (pending : List Span) : List Span := t.facts.map Fact.span ++ pending

structure Accounted (pending : List Span) (t : Table) : Prop where
  /-- Nothing but trips and pending spans is between a fact and its trip. -/
  reached : ∀ f ∈ t.facts, ∀ T ∈ t.trips, T.id = f.trip → Joined (t.tripSpans pending) T.span f.span
  made : ∀ T ∈ t.trips, MadeOf (t.factSpans pending) T.span
  /-- A trip inside another is left over from a pending span. -/
  leftover : ∀ S ∈ t.trips, ∀ T ∈ t.trips, S.Inside T → ∃ s ∈ pending, s.Touches S.span

variable {t u : Table} {pending : List Span} {c s : Span} {S T W : Trip} {f g : Fact} {a b : Int}

theorem mem_tripSpans : s ∈ t.tripSpans pending ↔ (∃ T ∈ t.trips, T.span = s) ∨ s ∈ pending := by
  simp [tripSpans]

theorem mem_factSpans : s ∈ t.factSpans pending ↔ (∃ f ∈ t.facts, f.span = s) ∨ s ∈ pending := by
  simp [factSpans]

theorem trip_mem_tripSpans (hT : T ∈ t.trips) : T.span ∈ t.tripSpans pending :=
  mem_tripSpans.mpr (.inl ⟨T, hT, rfl⟩)

theorem tripSpans_covered {pending' : List Span}
    (htrips : ∀ T ∈ t.trips, ∃ U ∈ u.trips, T.span.Within U.span)
    (hpending : ∀ s ∈ pending, ∃ s' ∈ u.tripSpans pending', s.Within s') :
    Covered (t.tripSpans pending) (u.tripSpans pending') := by
  intro s hs
  rcases mem_tripSpans.mp hs with ⟨T, hT, rfl⟩ | hs
  · obtain ⟨U, hU, hin⟩ := htrips T hT
    exact ⟨U.span, trip_mem_tripSpans hU, hin⟩
  · exact hpending s hs

theorem pending_covered (u : Table) (pending : List Span) :
    ∀ s ∈ pending, ∃ s' ∈ u.tripSpans pending, s.Within s' := fun s hs =>
  ⟨s, mem_tripSpans.mpr (.inr hs), .refl s⟩

theorem factSpans_subset (h : ∀ f ∈ t.facts, ∃ g ∈ u.facts, g.span = f.span) :
    ∀ s ∈ t.factSpans pending, s ∈ u.factSpans pending := by
  intro s hs
  rw [mem_factSpans] at hs ⊢
  rcases hs with ⟨f, hf, rfl⟩ | hs
  · exact .inl (h f hf)
  · exact .inr hs

theorem accounted_nil : Accounted pending [] where
  reached := by simp [facts, view]
  made := by simp [trips, contents]
  leftover := by simp [trips, contents]

namespace Accounted

theorem mono (h : t.Accounted pending) {pending' : List Span} (hsub : ∀ s ∈ pending, s ∈ pending') :
    t.Accounted pending' := by
  have htrips : Covered (t.tripSpans pending) (t.tripSpans pending') := .of_subset fun s hs =>
    mem_tripSpans.mpr ((mem_tripSpans.mp hs).imp_right (hsub s))
  have hfacts : ∀ s ∈ t.factSpans pending, s ∈ t.factSpans pending' := fun s hs =>
    mem_factSpans.mpr ((mem_factSpans.mp hs).imp_right (hsub s))
  constructor
  case reached => exact fun f hf T hT hid => (h.reached f hf T hT hid).mono htrips
  case made => exact fun T hT => (h.made T hT).mono hfacts
  case leftover =>
    intro S hS T hT hin
    obtain ⟨s, hs, htouch⟩ := h.leftover S hS T hT hin
    exact ⟨s, hsub s hs, htouch⟩

theorem congr (h : t.Accounted pending) (htrips : ∀ T, T ∈ u.trips ↔ T ∈ t.trips)
    (hfacts : ∀ f, f ∈ u.facts ↔ f ∈ t.facts) : u.Accounted pending := by
  have hcover := tripSpans_covered (fun T hT => ⟨T, (htrips T).mpr hT, .refl _⟩)
    (pending_covered _ pending)
  have hspans : ∀ s ∈ t.factSpans pending, s ∈ u.factSpans pending :=
    factSpans_subset fun f hf => ⟨f, (hfacts f).mpr hf, rfl⟩
  constructor
  case reached =>
    intro f hf T hT hid
    exact (h.reached f ((hfacts f).mp hf) T ((htrips T).mp hT) hid).mono hcover
  case made => exact fun T hT => (h.made T ((htrips T).mp hT)).mono hspans
  case leftover => simpa only [htrips] using h.leftover

theorem move (h : t.Accounted pending) (hs : t.Sound) (hc : c ∈ pending) (hcle : c.start ≤ c.stop)
    (hf : f ∈ t.facts) (hS : S ∈ t.trips) (hSf : S.id = f.trip) (hSc : S.span.Touches c)
    (hW : W ∈ t.trips) (hWc : W.span.Touches c) :
    (t.put (f.withTrip W.id).toRecord.key (f.withTrip W.id).toRecord).Accounted pending := by
  have htrips : ∀ T, T ∈ (t.put (f.withTrip W.id).toRecord.key (f.withTrip W.id).toRecord).trips ↔
      T ∈ t.trips := fun T => mem_trips_put_fact hs.wellFormed
  have hcover := tripSpans_covered (fun T hT => ⟨T, (htrips T).mpr hT, .refl _⟩)
    (pending_covered _ pending)
  have self : ∀ T ∈ t.trips, Joined (t.tripSpans pending) T.span T.span := fun T hT =>
    joined_self_of_mem (trip_mem_tripSpans hT)
  have hcc : Joined (t.tripSpans pending) c c := joined_self_of_mem (mem_tripSpans.mpr (.inr hc))
  constructor
  case reached =>
    intro g hg T hT' hid
    have hT := (htrips T).mp hT'
    rcases (mem_facts_put_fact hs.wellFormed).mp hg with rfl | ⟨_, hg⟩
    · rw [Fact.trip_withTrip] at hid
      obtain rfl := eq_of_trip_id hs.wellFormed hT hW hid
      rw [Fact.span_withTrip]
      have hTc := hWc.joined (self T hT) hcc
      have hcS := hSc.symm.joined hcc (self S hS)
      have hTS := hTc.trans hcS hcle
      exact (hTS.trans (h.reached f hf S hS hSf) (hs.trip_le S hS)).mono hcover
    · exact (h.reached g hg T hT hid).mono hcover
  case made =>
    intro T hT
    refine (h.made T ((htrips T).mp hT)).mono (factSpans_subset fun g hg => ?_)
    by_cases hkey : (f.withTrip W.id).toRecord.key = g.toRecord.key
    · obtain rfl := eq_of_fact_key hs.wellFormed hf hg ((Fact.key_withTrip W.id f).symm.trans hkey)
      exact ⟨_, (mem_facts_put_fact hs.wellFormed).mpr (.inl rfl), by simp⟩
    · exact ⟨g, (mem_facts_put_fact hs.wellFormed).mpr (.inr ⟨hkey, hg⟩), rfl⟩
  case leftover =>
    exact fun S hS T hT => h.leftover S ((htrips S).mp hS) T ((htrips T).mp hT)

theorem joined_hull {l : List Span} (hh : t.Hull c a b) (hc : Joined l c c)
    (htrips : ∀ T ∈ t.trips, Joined l T.span T.span) : Joined l ⟨c.user, a, b⟩ ⟨c.user, a, b⟩ := by
  refine ⟨rfl, fun time hlo hhi => ?_⟩
  simp only at hlo hhi
  have of_trip : ∀ T ∈ t.trips, T.span.Touches c → T.start ≤ time → time < T.stop →
      CrossedBy l c.user time := by
    intro T hT htouch h₁ h₂
    rw [← htouch.1]
    exact (htrips T hT).2 time (by simpa using h₁) (by simpa using h₂)
  -- before `c` it is the trip that starts the hull, after `c` the one that ends it
  by_cases hbefore : time < c.start
  · rcases hh.start_eq with rfl | ⟨T, hT, htouch, hTa⟩
    · omega
    · have hmeet : c.start ≤ T.stop := htouch.2.2
      exact of_trip T hT htouch (by omega) (by omega)
  · by_cases hafter : c.stop ≤ time
    · rcases hh.stop_eq with rfl | ⟨T, hT, htouch, hTb⟩
      · omega
      · have hmeet : T.start ≤ c.stop := htouch.2.1
        exact of_trip T hT htouch (by omega) (by omega)
    · exact hc.2 time (by omega) (by omega)

theorem madeOf_hull {l : List Span} (hh : t.Hull c a b) (hc : c ∈ l)
    (htrips : ∀ T ∈ t.trips, MadeOf l T.span) : MadeOf l ⟨c.user, a, b⟩ where
  filled := joined_hull hh (joined_self_of_mem hc) fun T hT => (htrips T hT).filled
  started := by
    rcases hh.start_eq with rfl | ⟨T, hT, htouch, rfl⟩
    · exact ⟨c, hc, rfl, rfl⟩
    · obtain ⟨s, hs, hu, hstart⟩ := (htrips T hT).started
      exact ⟨s, hs, hu.trans htouch.1, hstart⟩
  stopped := by
    rcases hh.stop_eq with rfl | ⟨T, hT, htouch, rfl⟩
    · exact ⟨c, hc, rfl, rfl⟩
    · obtain ⟨s, hs, hu, hstop⟩ := (htrips T hT).stopped
      exact ⟨s, hs, hu.trans htouch.1, hstop⟩

/-- The first trip that touches the pending `c` grows to the hull of `c`. -/
theorem widen (h : t.Accounted pending) (hs : t.Sound) (hc : c ∈ pending) (hcle : c.start ≤ c.stop)
    (hW : t.Leads c W) (hh : t.Hull c a b) {V : Trip} (hV : V = { W with start := a, stop := b })
    (hput : u = t.put (Record.trip V).key (.trip V)) : u.Accounted pending := by
  have hid : V.id = W.id := by rw [hV]
  have hspan : V.span = ⟨c.user, a, b⟩ := by
    rw [hV, ← hW.touches.1]
    rfl
  have hWV : W.span.Within V.span := by rw [hV]; exact ⟨rfl, hh.trip W hW.mem hW.touches⟩
  have htrips : ∀ T, T ∈ u.trips ↔ T = V ∨ T.id ≠ W.id ∧ T ∈ t.trips := by
    intro T
    rw [hput, mem_trips_put_trip hs.wellFormed, hid]
  have hfacts : ∀ f, f ∈ u.facts ↔ f ∈ t.facts := fun f => by
    rw [hput, mem_facts_put_trip hs.wellFormed]
  have hspans : ∀ s ∈ t.factSpans pending, s ∈ u.factSpans pending :=
    factSpans_subset fun f hf => ⟨f, (hfacts f).mpr hf, rfl⟩
  have hVmem : V ∈ u.trips := (htrips V).mpr (.inl rfl)
  have hcover : Covered (t.tripSpans pending) (u.tripSpans pending) := by
    refine tripSpans_covered (fun T hT => ?_) (pending_covered _ pending)
    by_cases hTW : T.id = W.id
    · obtain rfl := eq_of_trip_id hs.wellFormed hT hW.mem hTW
      exact ⟨V, hVmem, hWV⟩
    · exact ⟨T, (htrips T).mpr (.inr ⟨hTW, hT⟩), .refl _⟩
  constructor
  case reached =>
    intro f hf T hT hTf
    have hf := (hfacts f).mp hf
    rcases (htrips T).mp hT with rfl | ⟨_, hT⟩
    · have hold := (h.reached f hf W hW.mem (hid.symm.trans hTf)).mono hcover
      have hself : Joined (u.tripSpans pending) T.span W.span :=
        ((joined_self_of_mem (trip_mem_tripSpans hVmem)).of_within hWV).symm
      exact hself.trans hold (hs.trip_le W hW.mem)
    · exact (h.reached f hf T hT hTf).mono hcover
  case made =>
    intro T hT
    rcases (htrips T).mp hT with rfl | ⟨_, hT⟩
    · rw [hspan]
      exact (madeOf_hull hh (mem_factSpans.mpr (.inr hc)) h.made).mono hspans
    · exact (h.made T hT).mono hspans
  case leftover =>
    intro S hS T hT hin
    rcases (htrips S).mp hS with rfl | ⟨_, hS⟩
    · rcases (htrips T).mp hT with rfl | ⟨hTW, hT⟩
      · exact absurd hin (Trip.not_inside_self _)
      · exact absurd (hV ▸ hin) (hs.hull_not_inside hW hh hcle hT hTW)
    · rcases (htrips T).mp hT with rfl | ⟨_, hT⟩
      · rcases hs.of_inside_hull hW hh hS (hV ▸ hin) with htouch | ⟨T', hT', _, hin'⟩
        · exact ⟨c, hc, htouch.symm⟩
        · exact h.leftover S hS T' hT' hin'
      · exact h.leftover S hS T hT hin

theorem drop (h : t.Accounted pending) (hs : t.Sound) (hS : S ∈ t.trips) (hT : T ∈ t.trips)
    (hin : S.Inside T) : (t.erase ⟨.trip, S.id⟩).Accounted pending := by
  have hne : T.id ≠ S.id := fun hid => by
    obtain rfl := eq_of_trip_id hs.wellFormed hT hS hid
    exact T.not_inside_self hin
  have htrips : ∀ W, W ∈ (t.erase ⟨.trip, S.id⟩).trips ↔ W.id ≠ S.id ∧ W ∈ t.trips := fun W =>
    mem_trips_erase hs.wellFormed
  have hspans : ∀ s ∈ t.factSpans pending, s ∈ (t.erase ⟨.trip, S.id⟩).factSpans pending :=
    factSpans_subset fun f hf => ⟨f, (mem_facts_erase hs.wellFormed).mpr hf, rfl⟩
  have hcover :
      Covered (t.tripSpans pending) ((t.erase ⟨.trip, S.id⟩).tripSpans pending) := by
    refine tripSpans_covered (fun W hW => ?_) (pending_covered _ pending)
    by_cases hWS : W.id = S.id
    · obtain rfl := eq_of_trip_id hs.wellFormed hW hS hWS
      exact ⟨T, (htrips T).mpr ⟨hne, hT⟩, hin.within⟩
    · exact ⟨W, (htrips W).mpr ⟨hWS, hW⟩, .refl _⟩
  constructor
  case reached =>
    exact fun f hf W hW hid => (h.reached f ((mem_facts_erase hs.wellFormed).mp hf) W
      ((htrips W).mp hW).2 hid).mono hcover
  case made => exact fun W hW => (h.made W ((htrips W).mp hW).2).mono hspans
  case leftover =>
    exact fun R hR W hW => h.leftover R ((htrips R).mp hR).2 W ((htrips W).mp hW).2

theorem openTrip (h : t.Accounted pending) (hs : t.Sound) (hnew : t.get? (Record.trip W).key = none)
    (hW : W.span ∈ pending) (hle : W.start ≤ W.stop)
    (hfree : ∀ T ∈ t.trips, ¬ T.span.Touches W.span) :
    (t.put (Record.trip W).key (.trip W)).Accounted pending := by
  have htrips : ∀ T, T ∈ (t.put (Record.trip W).key (.trip W)).trips ↔ T = W ∨ T ∈ t.trips :=
    fun T => mem_trips_put_fresh hs.wellFormed hnew
  have hspans : ∀ s ∈ t.factSpans pending,
      s ∈ (t.put (Record.trip W).key (.trip W)).factSpans pending :=
    factSpans_subset fun f hf => ⟨f, (mem_facts_put_trip hs.wellFormed).mpr hf, rfl⟩
  have hcover := tripSpans_covered (fun T hT => ⟨T, (htrips T).mpr (.inr hT), .refl _⟩)
    (pending_covered _ pending)
  constructor
  case reached =>
    intro f hf T hT hid
    have hf := (mem_facts_put_trip hs.wellFormed).mp hf
    -- an old fact is in an old trip, even if the new one had its id
    obtain ⟨V, hV, hVf, _⟩ := hs.placed f hf
    obtain rfl : V = T := eq_of_trip_id (hs.wellFormed.put rfl) ((htrips V).mpr (.inr hV)) hT
      (hVf.trans hid.symm)
    exact (h.reached f hf V hV hid).mono hcover
  case made =>
    intro T hT
    rcases (htrips T).mp hT with rfl | hT
    · exact madeOf_self (hspans T.span (mem_factSpans.mpr (.inr hW)))
    · exact (h.made T hT).mono hspans
  case leftover =>
    intro S hS T hT hin
    rcases (htrips S).mp hS with rfl | hS'
    · rcases (htrips T).mp hT with rfl | hT'
      · exact absurd hin (Trip.not_inside_self _)
      · exact absurd (hin.touches hle).symm (hfree T hT')
    · rcases (htrips T).mp hT with rfl | hT'
      · exact absurd (hin.touches (hs.trip_le S hS')) (hfree S hS')
      · exact h.leftover S hS' T hT' hin

/-- A fact is recorded in the only trip that touches it, and its span is pending no more. -/
theorem addFact (h : t.Accounted pending) (hs : t.Sound) {pending' : List Span}
    (hpending : ∀ s ∈ pending, s = g.span ∨ s ∈ pending') (hW : t.Outermost W) (hid : g.trip = W.id)
    (hin : g.span.Within W.span) (honly : ∀ T ∈ t.trips, T.span.Touches g.span → T = W)
    (hnew : t.get? g.toRecord.key = none) :
    (t.put g.toRecord.key g.toRecord).Accounted pending' := by
  have hfacts : ∀ f, f ∈ (t.put g.toRecord.key g.toRecord).facts ↔ f = g ∨ f ∈ t.facts := fun f =>
    mem_facts_put_fresh hs.wellFormed hnew
  have htrips : ∀ T, T ∈ (t.put g.toRecord.key g.toRecord).trips ↔ T ∈ t.trips := fun T =>
    mem_trips_put_fact hs.wellFormed
  have hspans : ∀ s ∈ t.factSpans pending,
      s ∈ (t.put g.toRecord.key g.toRecord).factSpans pending' := by
    intro s hs'
    rcases mem_factSpans.mp hs' with ⟨f, hf, rfl⟩ | hp
    · exact mem_factSpans.mpr (.inl ⟨f, (hfacts f).mpr (.inr hf), rfl⟩)
    · rcases hpending s hp with rfl | hp
      · exact mem_factSpans.mpr (.inl ⟨g, (hfacts g).mpr (.inl rfl), rfl⟩)
      · exact mem_factSpans.mpr (.inr hp)
  have hWmem : W.span ∈ (t.put g.toRecord.key g.toRecord).tripSpans pending' :=
    trip_mem_tripSpans ((htrips W).mpr hW.1)
  have hcover : Covered (t.tripSpans pending)
      ((t.put g.toRecord.key g.toRecord).tripSpans pending') := by
    refine tripSpans_covered (fun T hT => ⟨T, (htrips T).mpr hT, .refl _⟩) fun s hp => ?_
    -- the trip of the fact takes the place of its pending span
    rcases hpending s hp with rfl | hp
    · exact ⟨W.span, hWmem, hin⟩
    · exact ⟨s, mem_tripSpans.mpr (.inr hp), .refl s⟩
  constructor
  case reached =>
    intro f hf T hT hTf
    have hT' := (htrips T).mp hT
    rcases (hfacts f).mp hf with rfl | hf'
    · obtain rfl := eq_of_trip_id hs.wellFormed hT' hW.1 (hTf.trans hid)
      exact ((joined_self_of_mem hWmem).of_within hin).symm
    · exact (h.reached f hf' T hT' hTf).mono hcover
  case made => exact fun T hT => (h.made T ((htrips T).mp hT)).mono hspans
  case leftover =>
    intro S hS T hT hin'
    have hT' := (htrips T).mp hT
    obtain ⟨s, hp, htouch⟩ := h.leftover S ((htrips S).mp hS) T hT' hin'
    rcases hpending s hp with rfl | hp'
    · obtain rfl := honly S ((htrips S).mp hS) htouch.symm
      exact absurd hin' (hW.2 T hT')
    · exact ⟨s, hp', htouch⟩

end Accounted

end Table

end DriveLog
