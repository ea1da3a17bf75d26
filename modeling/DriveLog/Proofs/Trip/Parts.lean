import DriveLog.Proofs.Trip.Components
import Mathlib.Data.List.Dedup
import Mathlib.Data.List.Nodup
set_option autoImplicit false

namespace DriveLog

open Classical in
/-- The facts that a way of facts leads to from `f`. -/
noncomputable def component (facts : List Fact) (f : Fact) : List Fact :=
  facts.filter fun g => Span.Linked Fact.span facts f g

structure Reaches (part : List Fact) (a b : Int) : Prop where
  start : IsLeast {x | ∃ f ∈ part, f.span.start = x} a
  stop : IsGreatest {x | ∃ f ∈ part, f.span.stop = x} b

/-- A component of the user's facts that touches the stretch from `start` to `stop`. -/
def TouchedPart (facts : List Fact) (user : String) (start stop : Int) (part : List Fact) : Prop :=
  ∃ f ∈ facts, f.user = user ∧ part = component facts f ∧
    ∃ a b, Reaches part a b ∧ a ≤ stop ∧ start ≤ b

namespace Fact
variable {f g : Fact}

theorem span_eq_of_unplaced (h : f.unplaced = g.unplaced) : f.span = g.span := by
  rw [← span_withTrip "" f, ← span_withTrip "" g]
  exact congrArg span h

theorem user_eq_of_unplaced (h : f.unplaced = g.unplaced) : f.user = g.user := by
  rw [← span_user, ← span_user, span_eq_of_unplaced h]

end Fact

namespace Table
variable {t : Table} {recorded : List Fact} {S T : Trip} {f g f₀ g₀ : Fact}

def partOf (t : Table) (recorded : List Fact) (T : Trip) : List Fact :=
  recorded.filter fun g => ∃ f ∈ t.facts, f.unplaced = g.unplaced ∧ f.trip = T.id

theorem mem_partOf : g ∈ t.partOf recorded T ↔
    g ∈ recorded ∧ ∃ f ∈ t.facts, f.unplaced = g.unplaced ∧ f.trip = T.id := by
  simp [partOf]

theorem eq_of_unplaced (hwf : t.WellFormed) (hf : f ∈ t.facts) (hg : g ∈ t.facts)
    (h : f.unplaced = g.unplaced) : f = g := by
  refine eq_of_fact_key hwf hf hg ?_
  rw [← Fact.key_withTrip "" f, ← Fact.key_withTrip "" g]
  exact congrArg (fun f => f.toRecord.key) h

namespace Holds
variable (h : t.Holds [] (recorded.map Fact.unplaced))
include h

theorem exists_stored (hg : g ∈ recorded) : ∃ f ∈ t.facts, f.unplaced = g.unplaced :=
  List.mem_map.mp (h.facts.mem_iff.mpr (List.mem_map_of_mem hg))

theorem exists_recorded (hf : f ∈ t.facts) : ∃ g ∈ recorded, f.unplaced = g.unplaced := by
  obtain ⟨g, hg, hsame⟩ := List.mem_map.mp (h.facts.mem_iff.mp (List.mem_map_of_mem hf))
  exact ⟨g, hg, hsame.symm⟩

/-- Recorded facts are linked exactly if they are stored in one trip. -/
theorem linked_iff (hf : f ∈ t.facts) (hg : g ∈ t.facts) (hf₀ : f₀ ∈ recorded) (hg₀ : g₀ ∈ recorded)
    (hff₀ : f.unplaced = f₀.unplaced) (hgg₀ : g.unplaced = g₀.unplaced) :
    Span.Linked Fact.span recorded f₀ g₀ ↔ f.trip = g.trip := by
  have hle : ∀ x ∈ recorded, x.span.start ≤ x.span.stop := by
    intro x hx
    obtain ⟨y, hy, hyx⟩ := h.exists_stored hx
    rw [← Fact.span_eq_of_unplaced hyx]
    exact h.sound.fact_le y hy
  have hspans : (t.facts.map Fact.span).Perm (recorded.map Fact.span) := by
    simpa [Function.comp_def, Fact.unplaced] using h.facts.map Fact.span
  -- being joined depends on the spans alone
  rw [Span.linked_iff_joined hle hf₀ hg₀, ← joined_congr hspans, ← Fact.span_eq_of_unplaced hff₀,
    ← Fact.span_eq_of_unplaced hgg₀, ← Span.linked_iff_joined h.sound.fact_le hf hg,
    h.sound.together_iff h.accounted hf hg]

theorem partOf_eq (hf : f ∈ t.facts) (hf₀ : f₀ ∈ recorded) (hff₀ : f.unplaced = f₀.unplaced)
    (hid : f.trip = T.id) : t.partOf recorded T = component recorded f₀ := by
  refine List.filter_congr fun g₀ hg₀ => decide_eq_decide.mpr ?_
  obtain ⟨g, hg, hgg₀⟩ := h.exists_stored hg₀
  rw [h.linked_iff hf hg hf₀ hg₀ hff₀ hgg₀, hid]
  constructor
  · rintro ⟨d, hd, hdg₀, htrip⟩
    rw [eq_of_unplaced h.sound.wellFormed hg hd (hgg₀.trans hdg₀.symm), htrip]
  · exact fun htrip => ⟨g, hg, hgg₀, htrip.symm⟩

theorem perm_partOf (T : Trip) : ((t.facts.filter fun f => f.trip = T.id).map Fact.unplaced).Perm
    ((t.partOf recorded T).map Fact.unplaced) := by
  have hleft : (t.facts.filter fun f => f.trip = T.id).map Fact.unplaced =
      (t.facts.map Fact.unplaced).filter fun x => ∃ f ∈ t.facts, f.unplaced = x ∧ f.trip = T.id := by
    rw [List.filter_map]
    congr 1
    refine List.filter_congr fun f hf => decide_eq_decide.mpr ⟨fun htrip => ⟨f, hf, rfl, htrip⟩, ?_⟩
    rintro ⟨g, hg, hgf, htrip⟩
    rwa [← eq_of_unplaced h.sound.wellFormed hg hf hgf]
  have hright : (t.partOf recorded T).map Fact.unplaced =
      (recorded.map Fact.unplaced).filter fun x =>
        ∃ f ∈ t.facts, f.unplaced = x ∧ f.trip = T.id := by
    rw [List.filter_map]
    rfl
  rw [hleft, hright]
  exact h.facts.filter _

theorem exists_mem_partOf {P : Span → Prop} : (∃ g ∈ t.partOf recorded T, P g.span) ↔
    ∃ f ∈ t.facts, f.trip = T.id ∧ P f.span := by
  constructor
  · rintro ⟨g, hg, hP⟩
    obtain ⟨-, f, hf, hfg, htrip⟩ := mem_partOf.mp hg
    exact ⟨f, hf, htrip, Fact.span_eq_of_unplaced hfg ▸ hP⟩
  · rintro ⟨f, hf, htrip, hP⟩
    obtain ⟨g, hg, hfg⟩ := h.exists_recorded hf
    exact ⟨g, mem_partOf.mpr ⟨hg, f, hf, hfg, htrip⟩, Fact.span_eq_of_unplaced hfg ▸ hP⟩

theorem reaches_partOf (hT : T ∈ t.trips) : Reaches (t.partOf recorded T) T.start T.stop := by
  have hcomponents := h.sound.components h.accounted
  constructor
  case start =>
    have hset := Set.ext fun x => h.exists_mem_partOf (T := T) (P := fun s => s.start = x)
    rw [hset]
    exact hcomponents.least_start T hT
  case stop =>
    have hset := Set.ext fun x => h.exists_mem_partOf (T := T) (P := fun s => s.stop = x)
    rw [hset]
    exact hcomponents.greatest_stop T hT

theorem user_of_mem_partOf (hT : T ∈ t.trips) (hg : g ∈ t.partOf recorded T) : g.user = T.user := by
  obtain ⟨-, f, hf, hfg, htrip⟩ := mem_partOf.mp hg
  rw [← Fact.user_eq_of_unplaced hfg, h.sound.user_eq hf hT htrip]

theorem eq_of_mem_partOf (hS : S ∈ t.trips) (hT : T ∈ t.trips) (hgS : g ∈ t.partOf recorded S)
    (hgT : g ∈ t.partOf recorded T) : S = T := by
  obtain ⟨-, f, hf, hfg, hfS⟩ := mem_partOf.mp hgS
  obtain ⟨-, d, hd, hdg, hdT⟩ := mem_partOf.mp hgT
  obtain rfl := eq_of_unplaced h.sound.wellFormed hf hd (hfg.trans hdg.symm)
  exact eq_of_trip_id h.sound.wellFormed hS hT (hfS.symm.trans hdT)

theorem exists_mem_of_trip (hT : T ∈ t.trips) : ∃ g, g ∈ t.partOf recorded T := by
  obtain ⟨g, hg, -⟩ := (h.reaches_partOf hT).start.1
  exact ⟨g, hg⟩

section touching
variable {user : String} {start stop : Int} {trips : List Trip}
  (htouching : Touching t ⟨user, start, stop⟩ trips)
include htouching

theorem nodup_parts : (trips.map (t.partOf recorded)).Nodup := by
  have heq : ∀ S ∈ trips, ∀ T ∈ trips, t.partOf recorded S = t.partOf recorded T → S = T := by
    intro S hS T hT hpart
    have hS := ((htouching.mem_iff S).mp hS).1
    obtain ⟨g, hg⟩ := h.exists_mem_of_trip hS
    exact h.eq_of_mem_partOf hS ((htouching.mem_iff T).mp hT).1 hg (hpart ▸ hg)
  exact List.Nodup.map_on heq htouching.nodup.of_map

theorem mem_parts_iff {part : List Fact} :
    part ∈ trips.map (t.partOf recorded) ↔ TouchedPart recorded user start stop part := by
  rw [List.mem_map]
  constructor
  · rintro ⟨T, hT, rfl⟩
    obtain ⟨hT, huser, hlo, hhi⟩ := (htouching.mem_iff T).mp hT
    obtain ⟨g, hg⟩ := h.exists_mem_of_trip hT
    obtain ⟨hgr, f, hf, hfg, htrip⟩ := mem_partOf.mp hg
    refine ⟨g, hgr, (h.user_of_mem_partOf hT hg).trans huser, h.partOf_eq hf hgr hfg htrip, ?_⟩
    exact ⟨T.start, T.stop, h.reaches_partOf hT, hlo, hhi⟩
  · rintro ⟨g, hg, rfl, rfl, a, b, hreaches, hlo, hhi⟩
    obtain ⟨f, hf, hfg⟩ := h.exists_stored hg
    obtain ⟨T, hT, hid, huser⟩ := h.sound.placed f hf
    have hpart := h.partOf_eq hf hg hfg hid.symm
    have hends := h.reaches_partOf hT
    rw [hpart] at hends
    obtain rfl : T.start = a := hends.start.unique hreaches.start
    obtain rfl : T.stop = b := hends.stop.unique hreaches.stop
    refine ⟨T, (htouching.mem_iff T).mpr ⟨hT, ?_, hlo, hhi⟩, hpart⟩
    exact huser.trans (Fact.user_eq_of_unplaced hfg)

theorem pairwise_stop_lt (hsorted : trips.Pairwise fun S T => S.start ≤ T.start) :
    trips.Pairwise fun S T => S.stop < T.start := by
  have hne : trips.Pairwise fun S T => S.id ≠ T.id := List.pairwise_map.mp htouching.nodup
  refine (hsorted.and hne).imp_of_mem fun {S T} hS hT hST => ?_
  obtain ⟨hS, huser, -⟩ := (htouching.mem_iff S).mp hS
  obtain ⟨hT, huser', -⟩ := (htouching.mem_iff T).mp hT
  have hle := h.sound.trip_le T hT
  refine Int.not_le.mp fun hmeet => h.sound.apart h.accounted S hS T hT hST.2 ?_
  refine ⟨huser.trans huser'.symm, ?_, hmeet⟩
  exact Int.le_trans hST.1 hle

theorem perm_parts (hcover : ∀ f ∈ recorded, f.user = user →
      start ≤ f.span.start ∧ f.span.stop ≤ stop) :
    (trips.flatMap (t.partOf recorded)).Perm (recorded.filter fun f => f.user = user) := by
  have hnodup : recorded.Nodup := h.settled.keys.of_map
  have hparts : (trips.flatMap (t.partOf recorded)).Nodup := by
    refine List.nodup_flatMap.mpr ⟨fun T _ => hnodup.filter _, ?_⟩
    refine htouching.nodup.of_map.imp_of_mem fun {S T} hS hT hne g hgS hgT => ?_
    exact hne (h.eq_of_mem_partOf ((htouching.mem_iff S).mp hS).1 ((htouching.mem_iff T).mp hT).1
      hgS hgT)
  refine (List.perm_ext_iff_of_nodup hparts (hnodup.filter _)).mpr fun g => ?_
  simp only [List.mem_flatMap, List.mem_filter, decide_eq_true_eq]
  constructor
  · rintro ⟨T, hT, hg⟩
    obtain ⟨hT, huser, -⟩ := (htouching.mem_iff T).mp hT
    exact ⟨(mem_partOf.mp hg).1, (h.user_of_mem_partOf hT hg).trans huser⟩
  · rintro ⟨hg, huser⟩
    obtain ⟨f, hf, hfg⟩ := h.exists_stored hg
    obtain ⟨T, hT, hid, hTuser⟩ := h.sound.placed f hf
    have hspan := Fact.span_eq_of_unplaced hfg
    have hwithin := h.sound.within h.accounted hf hT hid
    have hle := h.sound.fact_le f hf
    obtain ⟨hlo, hhi⟩ := hcover g hg huser
    rw [← hspan] at hlo hhi
    obtain ⟨-, hTlo, hThi⟩ := hwithin
    simp only [Trip.span_start, Trip.span_stop] at hTlo hThi
    refine ⟨T, (htouching.mem_iff T).mpr ⟨hT, ?_, ?_, ?_⟩, mem_partOf.mpr ⟨hg, f, hf, hfg, hid.symm⟩⟩
    · exact (hTuser.trans (Fact.user_eq_of_unplaced hfg)).trans huser
    · show T.start ≤ stop
      omega
    · show start ≤ T.stop
      omega

end touching

end Holds

end Table

end DriveLog
