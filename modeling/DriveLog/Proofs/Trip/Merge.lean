import DriveLog.Proofs.Trip.Calls
import DriveLog.Proofs.Trip.Pending
set_option autoImplicit false

namespace DriveLog

namespace Table

/-- A table with the facts `l`, whatever their trips. -/
structure Holds (pending : List Span) (l : List Fact) (t : Table) : Prop where
  sound : t.Sound
  accounted : t.Accounted pending
  facts : (t.facts.map Fact.unplaced).Perm l

structure Moved (W : Trip) (t u : Table) : Prop where
  trips : ∀ T, T ∈ u.trips ↔ T ∈ t.trips
  facts : ∀ f ∈ u.facts, f.trip = W.id ∨ f ∈ t.facts

structure LeftOver (t : Table) (c : Span) (V : Trip) (rest : List String) : Prop where
  mem : V ∈ t.trips
  nodup : rest.Nodup
  inside : ∀ id ∈ rest, ∃ S ∈ t.trips, S.id = id ∧ S.Inside V
  only : ∀ T ∈ t.trips, T.span.Touches c → T = V ∨ T.id ∈ rest

def Houses (t : Table) (c : Span) (id : String) : Prop :=
  ∃ W ∈ t.trips, W.id = id ∧ c.Within W.span ∧ ∀ T ∈ t.trips, T.span.Touches c → T = W

variable {t u v : Table} {pending : List Span} {l : List Fact} {c : Span} {S T W : Trip} {f : Fact}
  {a b : Int}

theorem holds_nil : Holds pending [] [] := ⟨sound_nil, accounted_nil, .nil⟩

theorem Holds.mono (h : t.Holds pending l) {pending' : List Span}
    (hsub : ∀ s ∈ pending, s ∈ pending') : t.Holds pending' l :=
  ⟨h.sound, h.accounted.mono hsub, h.facts⟩

theorem Moved.refl (W : Trip) (t : Table) : Moved W t t := ⟨fun _ => .rfl, fun _ hf => .inr hf⟩

theorem Moved.trans (h : Moved W t u) (h' : Moved W u v) : Moved W t v := by
  refine ⟨fun T => (h'.trips T).trans (h.trips T), fun f hf => ?_⟩
  rcases h'.facts f hf with hid | hf
  · exact .inl hid
  · exact h.facts f hf

theorem Moved.leads (h : Moved W t u) (hW : t.Leads c W) : u.Leads c W :=
  ⟨(h.trips W).mpr hW.mem, hW.touches, fun T hT => hW.first T ((h.trips T).mp hT)⟩

theorem Moved.hull (h : Moved W t u) (hh : t.Hull c a b) : u.Hull c a b :=
  hh.congr fun T => (h.trips T).symm

theorem Moved.losers {losers : List String} (h : Moved W t u) (hl : t.Losers c W losers) :
    u.Losers c W losers :=
  hl.congr fun T => (h.trips T).symm

theorem moved_put (h : t.WellFormed) :
    Moved W t (t.put (f.withTrip W.id).toRecord.key (f.withTrip W.id).toRecord) := by
  refine ⟨fun T => mem_trips_put_fact h, fun g hg => ?_⟩
  rcases (mem_facts_put_fact h).mp hg with rfl | ⟨_, hg⟩
  · exact .inl (Fact.trip_withTrip _ _)
  · exact .inr hg

theorem Sound.user_eq (h : t.Sound) (hf : f ∈ t.facts) (hS : S ∈ t.trips) (htrip : f.trip = S.id) :
    f.user = S.user := by
  obtain ⟨T, hT, hid, hu⟩ := h.placed f hf
  obtain rfl := eq_of_trip_id h.wellFormed hT hS (hid.trans htrip)
  exact hu.symm

theorem Holds.move (h : t.Holds pending l) (hc : c ∈ pending) (hcle : c.start ≤ c.stop)
    (hW : t.Leads c W) (hf : f ∈ t.facts) (hS : S ∈ t.trips) (hSc : S.span.Touches c)
    (htrip : f.trip = S.id) :
    (t.put (f.withTrip W.id).toRecord.key (f.withTrip W.id).toRecord).Holds pending l where
  sound := by
    refine h.sound.move hf (Sound.outermost_of_leads hW) ?_
    rw [h.sound.user_eq hf hS htrip]
    exact hW.touches.1.trans hSc.1.symm
  accounted := h.accounted.move h.sound hc hcle hf hS htrip.symm hSc hW.mem hW.touches
  facts := by
    rw [Fact.key_withTrip]
    exact (unplaced_put_perm h.sound.wellFormed hf W.id).trans h.facts

theorem Holds.widen (h : t.Holds pending l) (hc : c ∈ pending) (hcle : c.start ≤ c.stop)
    (hW : t.Leads c W) (hh : t.Hull c a b)
    (hempty : ∀ T ∈ t.trips, T.span.Touches c → T.id ≠ W.id → ∀ f ∈ t.facts, f.trip ≠ T.id) :
    (t.put (Record.trip { W with start := a, stop := b }).key
      (.trip { W with start := a, stop := b })).Holds pending l where
  sound := h.sound.widen hW hh hcle hempty
  accounted := h.accounted.widen h.sound hc hcle hW hh rfl rfl
  facts := ((facts_put_perm h.sound.wellFormed rfl).map _).trans h.facts

theorem Holds.drop (h : t.Holds pending l) (hS : S ∈ t.trips) (hT : T ∈ t.trips)
    (hin : S.Inside T) : (t.erase ⟨.trip, S.id⟩).Holds pending l where
  sound := h.sound.drop hS hT hin
  accounted := h.accounted.drop h.sound hS hT hin
  facts := ((facts_erase_trip_perm h.sound.wellFormed hS).map _).trans h.facts

section leftOver
variable {V : Trip} {losers rest : List String} {id : String}

/-- Grown to the hull of `c`, the first trip that touches `c` has the others inside. -/
theorem Losers.leftOver (hl : t.Losers c W losers) (h : t.Sound) (hW : t.Leads c W)
    (hh : t.Hull c a b) (hV : V = { W with start := a, stop := b }) :
    (t.put (Record.trip V).key (.trip V)).LeftOver c V losers := by
  have hid : V.id = W.id := by rw [hV]
  have htrips : ∀ T, T ∈ (t.put (Record.trip V).key (.trip V)).trips ↔
      T = V ∨ T.id ≠ W.id ∧ T ∈ t.trips := fun T => by
    rw [mem_trips_put_trip h.wellFormed, hid]
  constructor
  case mem => exact (htrips V).mpr (.inl rfl)
  case nodup => exact hl.nodup
  case inside =>
    intro id hid
    obtain ⟨S, hS, rfl, hSc, hne⟩ := (hl.mem_iff id).mp hid
    have hmeet : S.span.Touches ⟨c.user, a, b⟩ :=
      hSc.of_within ⟨rfl, hh.start_le, hh.le_stop⟩
    exact ⟨S, (htrips S).mpr (.inr ⟨hne, hS⟩), rfl, hV ▸ h.inside_of_hull hW hh hS hne hmeet⟩
  case only =>
    intro T hT htouch
    rcases (htrips T).mp hT with rfl | ⟨hne, hT⟩
    · exact .inl rfl
    · exact .inr ((hl.mem_iff T.id).mpr ⟨T, hT, rfl, htouch, hne⟩)

theorem LeftOver.erase (h : t.LeftOver c V (id :: rest)) (hwf : t.WellFormed) :
    (t.erase ⟨.trip, id⟩).LeftOver c V rest := by
  have htrips : ∀ T, T ∈ (t.erase ⟨.trip, id⟩).trips ↔ T.id ≠ id ∧ T ∈ t.trips := fun T =>
    mem_trips_erase hwf
  obtain ⟨hfresh, hnodup⟩ := List.nodup_cons.mp h.nodup
  constructor
  case mem =>
    obtain ⟨S, hS, hid, hin⟩ := h.inside id (by simp)
    refine (htrips V).mpr ⟨fun hV => ?_, h.mem⟩
    obtain rfl := eq_of_trip_id hwf h.mem hS (hV.trans hid.symm)
    exact V.not_inside_self hin
  case nodup => exact hnodup
  case inside =>
    intro id' hid'
    obtain ⟨S, hS, rfl, hin⟩ := h.inside id' (by simp [hid'])
    exact ⟨S, (htrips S).mpr ⟨fun hid => hfresh (hid ▸ hid'), hS⟩, rfl, hin⟩
  case only =>
    intro T hT htouch
    obtain ⟨hne, hT⟩ := (htrips T).mp hT
    simpa [hne] using h.only T hT htouch

end leftOver

end Table

namespace Consolidation
variable {σ : Type} [RecordStore σ] [LawfulStore σ]
open LawfulStore (table Ready)

def Stops (steady : Bool) (pending : List Span) (l : List Fact) (e : ConsolidationError) (s : σ) :
    Prop :=
  Ready steady s ∧ (table s).Holds pending l ∧ e.IsInjected ∧ steady = false

variable {b : Bool} {s : σ} {pending : List Span} {l : List Fact} {c : Span} {W : Trip}
  {losers : List String} {a z : Int} {J R : Table → Prop}

theorem Halts.stops {e : ConsolidationError} (h : Halts b J R e s)
    (hJ : ∀ t, J t → t.Holds pending l) (hR : ∀ t, J t → ¬ R t) : Stops b pending l e s :=
  ⟨h.1, hJ _ h.2.1, h.2.2.resolve_right (hR _ h.2.1)⟩

theorem Halts.refused {e : ConsolidationError}
    (h : Halts b (Table.Holds pending l) (fun _ => False) e s) : Stops b pending l e s :=
  h.stops (fun _ hk => hk) fun _ _ => not_false

theorem ends_merge_holds (hc : c ∈ pending) (hcle : c.start ≤ c.stop) (h : Ready b s)
    (hk : (table s).Holds pending l) (hW : (table s).Leads c W)
    (hlosers : (table s).Losers c W losers) (hh : (table s).Hull c a z) :
    Ends (merge c.user W.id losers a z) s
      (fun _ t => Ready b t ∧ (table t).Holds pending l ∧ (table t).Houses c W.id)
      (Stops b pending l) := by
  have hwinner : ({ id := W.id, user := c.user, start := a, stop := z } : Trip) =
      { W with start := a, stop := z } := by rw [← hW.touches.1]; rfl
  have hmerge : Ends (merge c.user W.id losers a z) s _ _ := ends_merge
    (J := fun u => u.Holds pending l ∧ Table.Moved W (table s) u)
    (K := fun rest u => u.Holds pending l ∧ u.LeftOver c { W with start := a, stop := z } rest)
    hlosers.nodup hlosers.not_mem ?move ?widen ?drop ?there h ⟨hk, .refl W _⟩
  case move =>
    rintro t f hwf ⟨hkt, hmoved⟩ hf htrip hu
    obtain ⟨S, hS, hid, hSc, -⟩ := (hlosers.mem_iff f.trip).mp htrip
    exact ⟨hkt.move hc hcle (hmoved.leads hW) hf ((hmoved.trips S).mpr hS) hSc hid.symm,
      hmoved.trans (Table.moved_put hwf)⟩
  case widen =>
    rintro t hwf ⟨hkt, hmoved⟩ hnone
    rw [hwinner]
    refine ⟨hkt.widen hc hcle (hmoved.leads hW) (hmoved.hull hh) fun T hT htouch hne f hf htrip => ?_,
      (hmoved.losers hlosers).leftOver hkt.sound (hmoved.leads hW) (hmoved.hull hh) rfl⟩
    exact hnone f hf (((hmoved.losers hlosers).mem_iff f.trip).mpr ⟨T, hT, htrip.symm, htouch, hne⟩)
  case drop =>
    rintro t id rest hwf - - ⟨hkt, hleft⟩
    obtain ⟨S, hS, rfl, hin⟩ := hleft.inside id (by simp)
    exact ⟨hkt.drop hS hleft.mem hin, hleft.erase hwf⟩
  case there =>
    intro id hid
    obtain ⟨T, hT, rfl⟩ : ∃ T ∈ (table s).trips, T.id = id := by
      rcases List.mem_cons.mp hid with rfl | hid
      · exact ⟨W, hW.mem, rfl⟩
      · obtain ⟨S, hS, hSid, -⟩ := (hlosers.mem_iff id).mp hid
        exact ⟨S, hS, hSid⟩
    rw [(Table.mem_trips_iff hk.sound.wellFormed).mp hT]
    exact Option.some_ne_none _
  refine hmerge.mono (fun _ t ht => ?_) fun e t he => he.stops ?_ ?_
  · obtain ⟨hready, hkt, hleft⟩ := ht
    refine ⟨hready, hkt, _, hleft.mem, rfl, ⟨hW.touches.1.symm, hh.start_le, hh.le_stop⟩, ?_⟩
    exact fun T hT htouch => by simpa using hleft.only T hT htouch
  · rintro t (ht | ⟨rest, ht⟩)
    · exact ht.1
    · exact ht.1
  · -- the facts in trips of the user are the user's
    rintro t - ⟨⟨hkt, hmoved⟩, f, hf, htrip, hu⟩
    obtain ⟨S, hS, hid, hSc, -⟩ := (hlosers.mem_iff f.trip).mp htrip
    exact hu ((hkt.sound.user_eq hf ((hmoved.trips S).mpr hS) hid.symm).trans hSc.1)

end Consolidation

end DriveLog
