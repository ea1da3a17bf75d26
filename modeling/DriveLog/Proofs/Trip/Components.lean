import DriveLog.Proofs.Trip.Recording
import Mathlib.Data.Multiset.Filter
import Mathlib.Order.Bounds.Basic
/-!
Trips as the components of facts. With no span pending, two facts share a trip exactly if a way of
facts leads from one to the other, each touching the next, and a trip reaches from the least start to
the greatest stop of its facts. Such trips are fixed by what the facts tell, so that neither the ids
nor the order of recording matter.
-/
set_option autoImplicit false

namespace DriveLog

structure Components (trips : List Trip) (facts : List Fact) : Prop where
  ids : (trips.map Trip.id).Nodup
  trip_of_fact : ∀ f ∈ facts, ∃ T ∈ trips, T.id = f.trip ∧ T.user = f.user
  together_iff : ∀ f ∈ facts, ∀ g ∈ facts, f.trip = g.trip ↔ Span.Linked Fact.span facts f g
  least_start : ∀ T ∈ trips, IsLeast {a | ∃ f ∈ facts, f.trip = T.id ∧ f.span.start = a} T.start
  greatest_stop : ∀ T ∈ trips,
    IsGreatest {a | ∃ f ∈ facts, f.trip = T.id ∧ f.span.stop = a} T.stop

def Apart (trips : List Trip) : Prop :=
  ∀ S ∈ trips, ∀ T ∈ trips, S.id ≠ T.id → ¬ S.span.Touches T.span

namespace Table

/-- Each trip with what its facts tell, without regard to ids. -/
def groups (t : Table) : Multiset (Span × Multiset Fact) :=
  (t.trips : Multiset Trip).map fun T =>
    (T.span, ((t.facts.filter fun f => f.trip = T.id).map Fact.content : List Fact))

/-- What the calls that gave `recorded` have come to. -/
structure Settled (t : Table) (recorded : List Fact) : Prop where
  stored : (t.facts.map Fact.unplaced).Perm (recorded.map Fact.unplaced)
  keys : (recorded.map fun f => f.toRecord.key).Nodup
  components : Components t.trips t.facts
  apart : Apart t.trips

variable {t u : Table} {S T : Trip} {f g : Fact} {l : List Fact}

theorem Sound.apart (h : t.Sound) (ha : t.Accounted []) : Apart t.trips := by
  intro S hS T hT hne htouch
  rcases h.nested S hS T hT hne htouch with hin | hin
  · obtain ⟨s, hs, _⟩ := ha.leftover S hS T hT hin
    simp at hs
  · obtain ⟨s, hs, _⟩ := ha.leftover T hT S hS hin
    simp at hs

theorem eq_of_apart (h : Apart t.trips) (hwf : t.WellFormed) (hS : S ∈ t.trips) (hT : T ∈ t.trips)
    (htouch : S.span.Touches T.span) : S = T :=
  eq_of_trip_id hwf hS hT (Decidable.by_contra fun hne => h S hS T hT hne htouch)

/-- No trip crosses the edge of another, so a fact is all in its trip. -/
theorem Sound.within (h : t.Sound) (ha : t.Accounted []) (hf : f ∈ t.facts) (hT : T ∈ t.trips)
    (hid : T.id = f.trip) : f.span.Within T.span := by
  have hle := h.trip_le T hT
  have hjoin := ha.reached f hf T hT hid
  have crossed : ∀ time, min T.start f.span.start ≤ time → time < max T.stop f.span.stop →
      ∃ V ∈ t.trips, V.user = T.user ∧ V.start ≤ time ∧ time < V.stop := by
    intro time hlo hhi
    obtain ⟨s, hs, hcross⟩ := hjoin.2 time hlo hhi
    have hspan := mem_tripSpans.mp hs
    simp only [List.not_mem_nil, or_false] at hspan
    obtain ⟨V, hV, rfl⟩ := hspan
    exact ⟨V, hV, hcross⟩
  have only : ∀ V ∈ t.trips, V.user = T.user → V.start ≤ T.stop → T.start ≤ V.stop → V = T :=
    fun V hV hu h₁ h₂ => eq_of_apart (h.apart ha) h.wellFormed hV hT ⟨hu, h₁, h₂⟩
  refine ⟨hjoin.1.symm, Int.not_lt.mp fun hlt => ?_, Int.not_lt.mp fun hlt => ?_⟩
  · simp only [Trip.span] at hlt
    obtain ⟨V, hV, hu, hlo, hhi⟩ := crossed (T.start - 1) (by omega) (by omega)
    obtain rfl := only V hV hu (by omega) (by omega)
    omega
  · simp only [Trip.span] at hlt
    obtain ⟨V, hV, hu, hlo, hhi⟩ := crossed T.stop (by omega) (by omega)
    obtain rfl := only V hV hu (by omega) (by omega)
    omega

theorem Sound.trip_eq (h : t.Sound) (ha : t.Accounted []) (hf : f ∈ t.facts) (hT : T ∈ t.trips)
    (htouch : f.span.Touches T.span) : T.id = f.trip := by
  obtain ⟨S, hS, hid, _⟩ := h.placed f hf
  have hin := h.within ha hf hS hid
  have hmeet := htouch.symm.of_within hin
  rw [eq_of_apart (h.apart ha) h.wellFormed hT hS hmeet, hid]

theorem Sound.trip_of_moment (h : t.Sound) (ha : t.Accounted []) (hf : f ∈ t.facts)
    (hT : T ∈ t.trips) (hu : f.span.user = T.user) (time : Int) (hstart : f.span.start ≤ time)
    (hstop : time ≤ f.span.stop) (hlo : T.start ≤ time) (hhi : time ≤ T.stop) : f.trip = T.id := by
  have htouch : f.span.Touches T.span :=
    ⟨hu, Int.le_trans hstart hhi, Int.le_trans hlo hstop⟩
  exact (h.trip_eq ha hf hT htouch).symm

theorem factSpans_nil : t.factSpans [] = t.facts.map Fact.span := by simp [factSpans]

theorem Sound.together_iff (h : t.Sound) (ha : t.Accounted []) (hf : f ∈ t.facts)
    (hg : g ∈ t.facts) : f.trip = g.trip ↔ Span.Linked Fact.span t.facts f g := by
  obtain ⟨T, hT, hid, _⟩ := h.placed f hf
  have hfT := h.within ha hf hT hid
  constructor
  · intro htrip
    have hgT := h.within ha hg hT (hid.trans htrip)
    rw [Span.linked_iff_joined h.fact_le hf hg, ← factSpans_nil]
    have hfill := (ha.made T hT).filled
    exact (hfill.of_within hfT).trans (hfill.of_within hgT).symm (h.trip_le T hT)
  · intro hlink
    have both : g ∈ t.facts ∧ f.trip = g.trip := by
      clear hg
      induction hlink with
      | refl => exact ⟨hf, rfl⟩
      | tail _ hstep ih =>
        obtain ⟨hc, htouch⟩ := hstep
        obtain ⟨T, hT, hid, _⟩ := h.placed _ ih.1
        have hTc := h.trip_eq ha hc hT (htouch.symm.of_within (h.within ha ih.1 hT hid))
        exact ⟨hc, ih.2.trans (hid.symm.trans hTc)⟩
    exact both.2

theorem Sound.components (h : t.Sound) (ha : t.Accounted []) : Components t.trips t.facts := by
  have inside : ∀ T ∈ t.trips, ∀ f ∈ t.facts, f.trip = T.id → f.span.Within T.span :=
    fun T hT f hf hid => h.within ha hf hT hid.symm
  constructor
  case ids => exact nodup_trip_ids h.wellFormed
  case trip_of_fact => exact h.placed
  case together_iff => exact fun f hf g hg => h.together_iff ha hf hg
  case least_start =>
    intro T hT
    constructor
    · obtain ⟨s, hs, hu, hstart⟩ := (ha.made T hT).started
      rw [factSpans_nil] at hs
      obtain ⟨f, hf, rfl⟩ := List.mem_map.mp hs
      have hstart : f.span.start = T.start := hstart
      have hle := h.trip_le T hT
      have hfle := h.fact_le f hf
      have hid := h.trip_of_moment ha hf hT hu T.start (by omega) (by omega) (by omega) hle
      exact ⟨f, hf, hid, hstart⟩
    · rintro a ⟨f, hf, hid, rfl⟩
      exact (inside T hT f hf hid).2.1
  case greatest_stop =>
    intro T hT
    constructor
    · obtain ⟨s, hs, hu, hstop⟩ := (ha.made T hT).stopped
      rw [factSpans_nil] at hs
      obtain ⟨f, hf, rfl⟩ := List.mem_map.mp hs
      have hstop : f.span.stop = T.stop := hstop
      have hle := h.trip_le T hT
      have hfle := h.fact_le f hf
      have hid := h.trip_of_moment ha hf hT hu T.stop (by omega) (by omega) hle (by omega)
      exact ⟨f, hf, hid, hstop⟩
    · rintro a ⟨f, hf, hid, rfl⟩
      exact (inside T hT f hf hid).2.2

theorem Holds.settled {recorded : List Fact} (h : t.Holds [] (recorded.map Fact.unplaced)) :
    t.Settled recorded where
  stored := h.facts
  keys := by
    have hkeys := nodup_fact_keys h.sound.wellFormed
    have hperm := h.facts.map fun f => f.toRecord.key
    simp only [List.map_map, Function.comp_def, Fact.unplaced, Fact.key_withTrip] at hperm
    exact hperm.nodup_iff.mp hkeys
  components := h.sound.components h.accounted
  apart := h.sound.apart h.accounted

/-! The groups depend on the contents of facts alone. -/

theorem Sound.filter_trip (h : t.Sound) (ha : t.Accounted []) (hf : f ∈ t.facts)
    (hid : T.id = f.trip) : ∀ g ∈ t.facts, g.trip = T.id ↔
      Span.Joined ((t.facts.map Fact.content).map Fact.span) f.content.span g.content.span := by
  intro g hg
  have hspans : (t.facts.map Fact.content).map Fact.span = t.facts.map Fact.span := by simp
  rw [hspans, Fact.span_content, Fact.span_content, ← Span.linked_iff_joined h.fact_le hf hg,
    ← h.together_iff ha hf hg, hid]
  exact eq_comm

open Classical in
theorem Sound.group_eq (h : t.Sound) (ha : t.Accounted []) (hf : f ∈ t.facts)
    (hid : T.id = f.trip) :
    (t.facts.filter fun g => g.trip = T.id).map Fact.content =
      (t.facts.map Fact.content).filter fun x =>
        Span.Joined ((t.facts.map Fact.content).map Fact.span) f.content.span x.span := by
  rw [List.filter_map]
  congr 1
  refine List.filter_congr fun g hg => ?_
  simpa using h.filter_trip ha hf hid g hg

theorem joined_congr {l m : List Span} (h : l.Perm m) {a b : Span} :
    Span.Joined l a b ↔ Span.Joined m a b :=
  ⟨fun hj => hj.mono (.of_subset fun _ hs => h.mem_iff.mp hs),
    fun hj => hj.mono (.of_subset fun _ hs => h.mem_iff.mpr hs)⟩

theorem Sound.nodup_groups (h : t.Sound) (ha : t.Accounted []) : t.groups.Nodup := by
  have htrips : t.trips.Nodup := (nodup_trip_ids h.wellFormed).of_map
  refine Multiset.Nodup.map_on (fun S hS T hT heq => ?_) (Multiset.coe_nodup.mpr htrips)
  have hspan : S.span = T.span := congrArg Prod.fst heq
  have hself : S.span.Touches S.span := Span.touches_self (h.trip_le S hS)
  exact eq_of_apart (h.apart ha) h.wellFormed hS hT (hspan ▸ hself)

theorem exists_mem_group {P : Span → Prop} :
    (∃ x ∈ (t.facts.filter fun f => f.trip = T.id).map Fact.content, P x.span) ↔
      ∃ f ∈ t.facts, f.trip = T.id ∧ P f.span := by
  simp [and_assoc]

theorem span_eq_of_group (ht : Components t.trips t.facts) (hu : Components u.trips u.facts)
    {U : Trip} (hT : T ∈ t.trips) (hU : U ∈ u.trips) (huser : T.user = U.user)
    (hgroup : ((t.facts.filter fun f => f.trip = T.id).map Fact.content).Perm
      ((u.facts.filter fun f => f.trip = U.id).map Fact.content)) : T.span = U.span := by
  have same : ∀ P : Span → Prop, (∃ f ∈ t.facts, f.trip = T.id ∧ P f.span) ↔
      ∃ f ∈ u.facts, f.trip = U.id ∧ P f.span := fun P => by
    simp only [← exists_mem_group, hgroup.mem_iff]
  have hstart := ht.least_start T hT
  have hstop := ht.greatest_stop T hT
  rw [Set.ext fun a => same fun s => s.start = a] at hstart
  rw [Set.ext fun a => same fun s => s.stop = a] at hstop
  have h₁ : T.start = U.start := hstart.unique (hu.least_start U hU)
  have h₂ : T.stop = U.stop := hstop.unique (hu.greatest_stop U hU)
  simp [Trip.span, huser, h₁, h₂]

theorem Sound.mem_groups (ht : t.Sound) (hta : t.Accounted []) (hu : u.Sound) (hua : u.Accounted [])
    (hperm : (t.facts.map Fact.content).Perm (u.facts.map Fact.content))
    {x : Span × Multiset Fact} (hx : x ∈ t.groups) : x ∈ u.groups := by
  have hct := ht.components hta
  have hcu := hu.components hua
  obtain ⟨T, hT, rfl⟩ := Multiset.mem_map.mp hx
  obtain ⟨⟨f, hf, hid, -⟩, -⟩ := hct.least_start T hT
  obtain ⟨g, hg, hgf⟩ := List.mem_map.mp (hperm.mem_iff.mp (List.mem_map_of_mem hf))
  obtain ⟨U, hU, hUid, hUu⟩ := hcu.trip_of_fact g hg
  have hspan : g.span = f.span := Fact.span_eq_of_content hgf
  have hgroup : ((t.facts.filter fun f => f.trip = T.id).map Fact.content).Perm
      ((u.facts.filter fun f => f.trip = U.id).map Fact.content) := by
    classical
    rw [ht.group_eq hta hf hid.symm, hu.group_eq hua hg hUid, hgf]
    refine (hperm.filter _).trans (.of_eq (List.filter_congr fun x _ => ?_))
    rw [joined_congr (hperm.map Fact.span)]
  have huser : T.user = U.user := by
    obtain ⟨V, hV, hVid, hVu⟩ := hct.trip_of_fact f hf
    obtain rfl := eq_of_trip_id ht.wellFormed hV hT (hVid.trans hid)
    rw [hVu, hUu, ← Fact.span_user, ← Fact.span_user, hspan]
  refine Multiset.mem_map.mpr ⟨U, hU, Prod.ext ?_ (Multiset.coe_eq_coe.mpr hgroup.symm)⟩
  exact (span_eq_of_group hct hcu hT hU huser hgroup).symm

/-- Tables with nothing pending whose facts tell the same have the same trips. -/
theorem Holds.groups_eq {m : List Fact} (ht : t.Holds [] l) (hu : u.Holds [] m)
    (hlm : (l.map Fact.content).Perm (m.map Fact.content)) : t.groups = u.groups := by
  have contents : ∀ {t : Table} {l : List Fact}, t.Holds [] l →
      (t.facts.map Fact.content).Perm (l.map Fact.content) := fun h => by
    have hperm := h.facts.map Fact.content
    simpa only [List.map_map, Function.comp_def, Fact.content_unplaced] using hperm
  have hperm := (contents ht).trans (hlm.trans (contents hu).symm)
  refine (Multiset.Nodup.ext (ht.sound.nodup_groups ht.accounted)
    (hu.sound.nodup_groups hu.accounted)).mpr fun x => ⟨fun hx => ?_, fun hx => ?_⟩
  · exact ht.sound.mem_groups ht.accounted hu.sound hu.accounted hperm hx
  · exact hu.sound.mem_groups hu.accounted ht.sound ht.accounted hperm.symm hx

end Table

end DriveLog
