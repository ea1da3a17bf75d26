import DriveLog.Proofs.Store.Frame
import DriveLog.Proofs.Trip.Calls
set_option autoImplicit false

namespace DriveLog

theorem keptByReads_true {σ : Type} [RecordStore σ] : KeptByReads fun _ _ : σ => True where
  refl _ := trivial
  trans _ _ _ _ _ := trivial
  listIds kind query := Ends.trivial (RecordStore.listIds kind query)
  get? kind id := Ends.trivial (RecordStore.get? kind id)

namespace Consolidation
variable {σ : Type} [RecordStore σ] {I : σ → σ → Prop} {user : String} {start stop : Int}

section reads

omit [RecordStore σ] in
theorem throughout_during {α : Type} {step : Step} {act : StoreM σ α} (h : Throughout I act) :
    Throughout I (during step act) := .adaptExcept h

theorem throughout_overlappingTrips (h : KeptByReads I) :
    Throughout I (overlappingTrips user start stop) := throughout_during (h.listIds _ _)

theorem throughout_getTrip (h : KeptByReads I) (trip : String) : Throughout I (getTrip user trip) := by
  refine .bind h.trans (throughout_during (h.fetch trip)) fun T => ?_
  split
  · exact .throw h.refl _
  · exact .pure h.refl _

end reads

variable [LawfulStore σ] {b : Bool} {s t : σ} {f : Fact} {Q : String → σ → Prop}
  {E : ConsolidationError → σ → Prop}
open LawfulStore (table Ready)

structure OnlyRead (I : σ → σ → Prop) (steady : Bool) (s t : σ) : Prop where
  ready : Ready steady t
  table_eq : table t = table s
  kept : I s t

theorem OnlyRead.trans (hI : KeptByReads I) {u : σ} (h : OnlyRead I b s t) (h' : OnlyRead I b t u) :
    OnlyRead I b s u :=
  ⟨h'.ready, h'.table_eq.trans h.table_eq, hI.trans s t u h.kept h'.kept⟩

structure Ways (I : σ → σ → Prop) (steady : Bool) (s : σ) (f : Fact) (Q : String → σ → Prop)
    (E : ConsolidationError → σ → Prop) : Prop where
  refused : ∀ e t, OnlyRead I steady s t → e.IsInjected → steady = false → E e t
  opened : ∀ t, OnlyRead I steady s t → (∀ T ∈ (table s).trips, ¬ T.span.Touches f.span) →
    Ends (openTrip f.span.user f.span.start f.span.stop) t Q E
  held : ∀ e, f = .event e → ∀ t T, OnlyRead I steady s t → T ∈ (table s).trips →
    T.span.Touches f.span → (∀ S ∈ (table s).trips, S.span.Touches f.span → S = T) → Q T.id t
  doubled : ∀ e, f = .event e → ∀ t ids S T, OnlyRead I steady s t → S ∈ (table s).trips →
    T ∈ (table s).trips → S.span.Touches f.span → T.span.Touches f.span → S.id ≠ T.id →
      E (.badState (.overlappingTrips e.time e.user ids)) t
  merged : ∀ d, f = .condition d → ∀ t W losers a z, OnlyRead I steady s t →
    (table s).Chosen f.span W → (table s).Losers f.span W losers → (table s).Hull f.span a z →
      Ends (merge f.span.user W.id losers a z) t (fun _ u => Q W.id u) E

namespace Ways

theorem reads {α : Type} {act : ConsolidationM σ α} {P : α → Prop} (hw : Ways I b s f Q E)
    (hquiet : Throughout I act)
    (hact : Ends act s (fun a t => Ready b t ∧ table t = table s ∧ P a)
      (Halts b (fun u => u = table s) fun _ => False)) :
    Ends act s (fun a t => OnlyRead I b s t ∧ P a) E := by
  refine (hact.and (hquiet s)).mono (fun a t ht => ?_) fun e t he => ?_
  · obtain ⟨⟨hready, htable, hP⟩, hkept⟩ := ht
    exact ⟨⟨hready, htable, hkept⟩, hP⟩
  · obtain ⟨⟨hready, htable, hstop⟩, hkept⟩ := he
    obtain ⟨hinjected, hb⟩ := hstop.resolve_right not_false
    exact hw.refused e t ⟨hready, htable, hkept⟩ hinjected hb

variable {e : Event} {d : DrivingCondition} (hI : KeptByReads I)
include hI

/-- Reading the trips comes first and changes nothing, so that the ways lead on from there. -/
theorem of_onlyRead (hw : Ways I b s f Q E) (ht : OnlyRead I b s t) : Ways I b t f Q E where
  refused e u hu := hw.refused e u (ht.trans hI hu)
  opened u hu := ht.table_eq ▸ hw.opened u (ht.trans hI hu)
  held e he u T hu := ht.table_eq ▸ hw.held e he u T (ht.trans hI hu)
  doubled e he u ids S T hu := ht.table_eq ▸ hw.doubled e he u ids S T (ht.trans hI hu)
  merged d hd u W losers a z hu := ht.table_eq ▸ hw.merged d hd u W losers a z (ht.trans hI hu)

variable (h : Ready b s)
include h

theorem ends_overlappingTrips (hw : Ways I b s f Q E) :
    Ends (overlappingTrips user start stop) s
      (fun ids t => OnlyRead I b s t ∧ ids = (table s).ids .trip (Predicate.touching user start stop))
      E :=
  hw.reads (throughout_overlappingTrips hI) (Consolidation.ends_overlappingTrips h rfl)

theorem ends_tripAt (hw : Ways I b s (.event e) Q E) : Ends (tripAt e.user e.time) s Q E := by
  have hwf := LawfulStore.wellFormed h
  unfold tripAt
  refine (hw.ends_overlappingTrips hI h).bind fun ids t ht => ?_
  obtain ⟨hread, hids⟩ := ht
  have hmem : ∀ id, id ∈ ids ↔
      ∃ T ∈ (table s).trips, T.id = id ∧ T.span.Touches (Fact.event e).span := fun id =>
    hids ▸ Table.mem_ids_touching_iff hwf
  have hnodup : ids.Nodup := hids ▸ Table.nodup_ids hwf _ _
  match ids with
  | [] =>
    refine hw.opened t hread fun T hT htouch => ?_
    exact List.not_mem_nil ((hmem T.id).mpr ⟨T, hT, rfl, htouch⟩)
  | [id] =>
    obtain ⟨T, hT, rfl, htouch⟩ := (hmem id).mp (by simp)
    refine Ends.pure (hw.held e rfl t T hread hT htouch fun S hS hSf => ?_)
    exact Table.eq_of_trip_id hwf hS hT (List.mem_singleton.mp ((hmem S.id).mpr ⟨S, hS, rfl, hSf⟩))
  | id :: id' :: rest =>
    obtain ⟨S, hS, rfl, hSf⟩ := (hmem id).mp (by simp)
    obtain ⟨T, hT, rfl, hTf⟩ := (hmem id').mp (by simp)
    have hne : S.id ≠ T.id := fun hid => (List.nodup_cons.mp hnodup).1 (by simp [hid])
    exact Ends.throw (hw.doubled e rfl t _ S T hread hS hT hSf hTf hne)

theorem ends_getTrips (hw : Ways I b s f Q E) :
    Ends (((table s).ids .trip (Predicate.touching user start stop)).mapM (getTrip user)) s
      (fun trips t => OnlyRead I b s t ∧ Touching (table s) ⟨user, start, stop⟩ trips ∧
        trips.Pairwise fun S T => S.id < T.id) E :=
  hw.reads (.mapM hI.refl hI.trans fun trip _ => throughout_getTrip hI trip)
    (Consolidation.ends_getTrips h rfl)

theorem ends_tripOver (hw : Ways I b s (.condition d) Q E) :
    Ends (tripOver d ((table s).ids .trip (Predicate.touching d.user d.start d.stop))) s Q E := by
  unfold tripOver
  refine (hw.ends_getTrips hI h).bind fun trips t ht => ?_
  obtain ⟨hread, htrips, hids⟩ := ht
  have hall := htrips.perm (sortBy_perm (fun S T : Trip => decide (S.start ≤ T.start)) trips)
  have hsorted := pairwise_sortBy_lt Trip.start hids
  cases hsort : sortBy (fun S T : Trip => decide (S.start ≤ T.start)) trips with
  | nil => exact hw.opened t hread (hsort ▸ hall).not_touches
  | cons W others =>
    rw [hsort] at hall hsorted
    have hmerged := hw.merged d rfl t W _ _ _ hread (hall.chosen hsorted) hall.losers htrips.hull
    exact hmerged.bind fun _ u hu => Ends.pure hu

theorem ends_place (hw : Ways I b s f Q E) : Ends f.place s Q E := by
  cases f with
  | event e => exact hw.ends_tripAt hI h
  | condition d =>
    refine (hw.ends_overlappingTrips hI h).bind fun touched t ht => ?_
    obtain ⟨hread, rfl⟩ := ht
    rw [← hread.table_eq]
    exact (hw.of_onlyRead hI hread).ends_tripOver hI hread.ready

end Ways

end Consolidation

end DriveLog
