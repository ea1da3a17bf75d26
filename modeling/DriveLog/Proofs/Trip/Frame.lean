import DriveLog.Proofs.Store.Frame
import DriveLog.Proofs.Trip.Parts
import DriveLog.Proofs.Trip.Run
set_option autoImplicit false

namespace DriveLog
open LawfulStore (table Ready)

def RecordKey.IsLogged (k : RecordKey) : Prop :=
  k.kind = .trip ∨ k.kind = .event ∨ k.kind = .drivingCondition

theorem Fact.eq_of_unplaced_of_trip {f g : Fact} (h : f.unplaced = g.unplaced)
    (htrip : f.trip = g.trip) : f = g := by
  have hplace : ∀ f : Fact, f.unplaced.withTrip f.trip = f := by
    intro f
    cases f <;> rfl
  rw [← hplace f, ← hplace g, h, htrip]

namespace Table

/-- Trips that `c` does not touch, or touches first, are there and as long as before. -/
def Lasts (c : Span) (t u : Table) : Prop :=
  ∀ T ∈ t.trips, (T.span.Touches c → t.Leads c T) →
    ∃ T', u.get? ⟨.trip, T.id⟩ = some (.trip T') ∧ T.span.Within T'.span

variable {t u v : Table} {c : Span} {T W : Trip} {losers : List String} {a z : Int} {f g : Fact}
  {l m : List Fact} {pending : List Span}

theorem Lasts.keep (h : t.Lasts c u) (hkept : u.Kept v) : t.Lasts c v := by
  intro T hT hleads
  obtain ⟨T', hT', hwithin⟩ := h T hT hleads
  exact ⟨T', hkept _ _ hT', hwithin⟩

theorem Kept.lasts (h : t.Kept u) (hwf : t.WellFormed) : t.Lasts c u :=
  fun T hT _ => ⟨T, h _ _ ((mem_trips_iff hwf).mp hT), .refl _⟩

theorem Sound.lasts (h : t.Sound) (hW : t.Leads c W) (hl : t.Losers c W losers)
    (hh : t.Hull c a z)
    (hwinner : u.get? ⟨.trip, W.id⟩ = some (.trip ⟨W.id, c.user, a, z⟩))
    (hsame : t.SameBut (fun k => k.kind = .trip → k.id = W.id ∨ k.id ∈ losers) u) :
    t.Lasts c u := by
  intro T hT hleads
  by_cases hid : T.id = W.id
  · obtain rfl := eq_of_trip_id h.wellFormed hT hW.mem hid
    exact ⟨_, hwinner, hW.touches.1, hh.trip T hT hW.touches⟩
  · have hstays : T.id ∉ losers := by
      intro hlost
      obtain ⟨S, hS, hSid, htouch, -⟩ := (hl.mem_iff T.id).mp hlost
      obtain rfl := eq_of_trip_id h.wellFormed hS hT hSid
      have hlt := h.lt_of_leads hW hS htouch hid
      have hle := (hleads htouch).first W hW.mem hW.touches
      omega
    refine ⟨T, ?_, .refl _⟩
    rw [hsame _ (by simp [hid, hstays])]
    exact (mem_trips_iff h.wellFormed).mp hT

/-- What starts no later than a stretch, and is in a trip that the stretch touches, is in the first
of these. -/
theorem Sound.leads_of_start_le (h : t.Sound) (ha : t.Accounted []) (hT : T ∈ t.trips)
    (hle : T.start ≤ c.start) (htouch : T.span.Touches c) : t.Leads c T := by
  refine ⟨hT, htouch, fun S hS hSc => Int.not_lt.mp fun hlt => ?_⟩
  have hmeet : S.span.Touches T.span := by
    have hTle := h.trip_le T hT
    have hSstop : c.start ≤ S.stop := hSc.2.2
    refine ⟨hSc.1.trans htouch.1.symm, ?_, ?_⟩
    · rw [Trip.span_start, Trip.span_stop]
      omega
    · rw [Trip.span_start, Trip.span_stop]
      omega
  obtain rfl := eq_of_apart (h.apart ha) h.wellFormed hS hT hmeet
  omega

theorem Holds.mem_facts_of_lasts (ht : t.Holds [] l) (hu : u.Holds [] m) (hsub : ∀ f ∈ l, f ∈ m)
    (hlasts : t.Lasts c u) (hf : f ∈ t.facts) (hle : f.span.start ≤ c.start) : f ∈ u.facts := by
  obtain ⟨T, hT, hid, -⟩ := ht.sound.placed f hf
  have hwithin := ht.sound.within ht.accounted hf hT hid
  have hleads : T.span.Touches c → t.Leads c T := by
    refine ht.sound.leads_of_start_le ht.accounted hT ?_
    have hstart := hwithin.2.1
    simp only [Trip.span] at hstart
    omega
  obtain ⟨T', hget, hT'⟩ := hlasts T hT hleads
  have hid' : T'.id = T.id := congrArg RecordKey.id (hu.sound.wellFormed.key_of_get? hget)
  have hmem : T' ∈ u.trips := (mem_trips_iff hu.sound.wellFormed).mpr (hid' ▸ hget)
  have hfu : f.unplaced ∈ u.facts.map Fact.unplaced := hu.facts.mem_iff.mpr
    (hsub _ (ht.facts.mem_iff.mp (List.mem_map_of_mem hf)))
  obtain ⟨g, hg, hgf⟩ := List.mem_map.mp hfu
  have htrip : T'.id = g.trip := by
    refine hu.sound.trip_eq hu.accounted hg hmem ?_
    rw [Fact.span_eq_of_unplaced hgf]
    exact ((Span.touches_self (ht.sound.fact_le f hf)).of_within hwithin).of_within hT'
  have hgf' : g = f := Fact.eq_of_unplaced_of_trip hgf (by rw [← htrip, hid', hid])
  exact hgf' ▸ hg

end Table

namespace Consolidation

section reads
variable {σ : Type} [RecordStore σ] {R : σ → σ → Prop} {user origin target : String} {start stop : Int}

theorem throughout_moveFacts (h : KeptByReads R) (hevent : ∀ e : Event, Throughout R (StoreM.put e))
    (hcondition : ∀ d : DrivingCondition, Throughout R (StoreM.put d)) :
    Throughout R (moveFacts user origin target) := by
  unfold moveFacts
  refine .bind h.trans (throughout_during (h.listIds _ _)) fun events => ?_
  refine .bind h.trans (.forM h.refl h.trans fun event _ => ?_) fun _ => ?_
  · refine .bind h.trans (throughout_during (h.fetch event)) fun e => ?_
    split
    · exact .throw h.refl _
    · exact throughout_during (hevent _)
  · refine .bind h.trans (throughout_during (h.listIds _ _)) fun conditions => ?_
    refine .forM h.refl h.trans fun condition _ => ?_
    refine .bind h.trans (throughout_during (h.fetch condition)) fun d => ?_
    split
    · exact .throw h.refl _
    · exact throughout_during (hcondition _)

theorem throughout_merge (h : KeptByReads R) {winner : String} {losers : List String}
    (hevent : ∀ e : Event, Throughout R (StoreM.put e))
    (hcondition : ∀ d : DrivingCondition, Throughout R (StoreM.put d))
    (htrip : ∀ T : Trip, Throughout R (StoreM.put T))
    (herase : ∀ id, Throughout R (StoreM.erase (σ := σ) Trip id)) :
    Throughout R (merge user winner losers start stop) := by
  unfold merge
  refine .bind h.trans (.forM h.refl h.trans fun loser _ => throughout_moveFacts h hevent hcondition)
    fun _ => ?_
  refine .bind h.trans (throughout_during (htrip _)) fun _ => ?_
  exact .forM h.refl h.trans fun loser _ => throughout_during (herase loser)

end reads

open Repository (ChangesOnly keptByReads_sameBut)
variable {K : RecordKey → Prop} {user origin target : String} {start stop : Int}

theorem changesOnly_overlappingTrips : ChangesOnly K (overlappingTrips user start stop) :=
  throughout_overlappingTrips (keptByReads_sameBut K)

theorem changesOnly_openTrip (htrip : ∀ id, K ⟨.trip, id⟩) :
    ChangesOnly K (openTrip user start stop) := by
  refine changesOnly_overlappingTrips.bind fun existing => ?_
  split
  · exact .throw _
  · exact .bind (throughout_during (StoreM.changesOnly_persist htrip)) fun _ => .pure _

theorem changesOnly_moveFacts (hevent : ∀ id, K ⟨.event, id⟩)
    (hcondition : ∀ id, K ⟨.drivingCondition, id⟩) : ChangesOnly K (moveFacts user origin target) :=
  throughout_moveFacts (keptByReads_sameBut K) (fun e => StoreM.changesOnly_put (hevent e.id))
    fun d => StoreM.changesOnly_put (hcondition d.id)

theorem changesOnly_merge {winner : String} {losers : List String} :
    ChangesOnly RecordKey.IsLogged (merge user winner losers start stop) :=
  throughout_merge (keptByReads_sameBut _) (fun _ => StoreM.changesOnly_put (.inr (.inl rfl)))
    (fun _ => StoreM.changesOnly_put (.inr (.inr rfl))) (fun _ => StoreM.changesOnly_put (.inl rfl))
    fun _ => StoreM.changesOnly_erase (.inl rfl)

theorem changesOnly_tripOver (c : DrivingCondition) (touched : List String) :
    ChangesOnly RecordKey.IsLogged (tripOver c touched) := by
  refine .bind (.mapM fun trip _ => throughout_getTrip (keptByReads_sameBut _) trip) fun trips => ?_
  split
  · exact changesOnly_openTrip fun _ => .inl rfl
  · exact changesOnly_merge.bind fun _ => .pure _

theorem changesOnly_tripAt (user : String) (time : Int) :
    ChangesOnly RecordKey.IsLogged (tripAt user time) := by
  refine changesOnly_overlappingTrips.bind fun trips => ?_
  match trips with
  | [] => exact changesOnly_openTrip fun _ => .inl rfl
  | [trip] => exact .pure _
  | _ :: _ :: _ => exact .throw _

theorem changesOnly_recordEvent (e : Event) : ChangesOnly RecordKey.IsLogged (recordEvent e) :=
  (changesOnly_tripAt e.user e.time).bind fun _ =>
    throughout_during (StoreM.changesOnly_persist fun _ => .inr (.inl rfl))

theorem changesOnly_recordCondition (c : DrivingCondition) :
    ChangesOnly RecordKey.IsLogged (recordCondition c) :=
  changesOnly_overlappingTrips.bind fun touched => (changesOnly_tripOver c touched).bind fun _ =>
    throughout_during (StoreM.changesOnly_persist fun _ => .inr (.inr rfl))

variable {b : Bool} {repo : Repository} {c : Span} {W : Trip} {losers : List String} {a z : Int}
  {l : List Fact} {pending : List Span}

/-- Facts are moved first, which leaves the trips alone; then the winner is written, and only losers
are deleted. -/
theorem ends_merge_lasts (h : repo.table.Sound) (hW : repo.table.Leads c W)
    (hl : repo.table.Losers c W losers) (hh : repo.table.Hull c a z) :
    Ends (merge c.user W.id losers a z) repo (fun _ t => repo.table.Lasts c t.table)
      (fun _ _ => True) := by
  have hmove : ChangesOnly (fun k => k.kind ≠ .trip)
      (losers.forM fun loser => moveFacts c.user loser W.id) :=
    .forM fun loser _ => changesOnly_moveFacts (by simp) (by simp)
  have hdrop : ChangesOnly (fun k => k.kind = .trip ∧ k.id ∈ losers)
      (losers.forM fun loser => during (.deletingTrip loser) (StoreM.erase Trip loser)) :=
    .forM fun loser hmem => throughout_during (StoreM.changesOnly_erase ⟨rfl, hmem⟩)
  unfold merge
  refine (hmove repo).of_ok.bind fun _ t₁ h₁ => ?_
  refine ((StoreM.ends_put_stored _ t₁).adaptExcept fun _ _ _ => trivial).bind fun _ t₂ h₂ => ?_
  obtain ⟨hsame, hwinner⟩ := h₂
  refine (hdrop t₂).mono (fun _ t ht => ?_) fun _ _ _ => trivial
  refine h.lasts hW hl hh ((ht _ fun hlost => hl.not_mem hlost.2).trans hwinner) fun k hk => ?_
  rw [Classical.not_imp, not_or] at hk
  obtain ⟨hkind, hid, hlost⟩ := hk
  rw [ht k fun hk => hlost hk.2, hsame k fun hk => hid (congrArg RecordKey.id hk),
    h₁ k fun hk => hk hkind]

theorem ends_place_lasts {d : DrivingCondition} (h : Ready b repo)
    (hk : repo.table.Holds pending l) :
    Ends (Fact.condition d).place repo
      (fun _ t => repo.table.Lasts (Fact.condition d).span t.table) (fun _ _ => True) := by
  refine Ways.ends_place keptByReads_true h ?_
  constructor
  case refused => exact fun _ _ _ _ _ => trivial
  case held => exact fun _ he => nomatch he
  case doubled => exact fun _ he => nomatch he
  case opened =>
    intro t ht hfree
    have htable : t.table = repo.table := ht.table_eq
    rw [← htable] at hk ⊢
    rw [← ht.table_eq] at hfree
    refine (ends_openTrip (J := fun _ => True) (R := fun _ => True) ht.ready trivial hfree).mono
      (fun id u hu => ?_) fun _ _ _ => trivial
    obtain ⟨-, hfresh, hput⟩ := hu
    have hkept : t.table.Kept (table u) := by
      rw [hput]
      exact .put (hfresh .trip) _
    exact hkept.lasts hk.sound.wellFormed
  case merged =>
    intro _ _ t W losers a z ht hchosen hlosers hhull
    have htable : t.table = repo.table := ht.table_eq
    rw [← htable] at hk ⊢
    rw [← ht.table_eq] at hchosen hlosers hhull
    exact ends_merge_lasts hk.sound hchosen.leads hlosers hhull

theorem ends_recordCondition_lasts {d : DrivingCondition} (hle : d.start ≤ d.stop)
    (h : Ready b repo) (hk : repo.table.Holds pending l) :
    Ends (recordCondition d) repo
      (fun _ t => repo.table.Lasts (Fact.condition d).span t.table) (fun _ _ => True) := by
  have hk' : repo.table.Holds ((Fact.condition d).span :: pending) l :=
    hk.mono fun s hs => by simp [hs]
  have hplace := ends_place_holds (f := .condition d) List.mem_cons_self hle h hk'
  have hrecord : Ends (Fact.condition d).record repo
      (fun _ t => repo.table.Lasts (Fact.condition d).span t.table) (fun _ _ => True) := by
    rw [Fact.record_eq]
    refine (hplace.and (ends_place_lasts h hk)).of_ok.bind fun trip t ht => ?_
    obtain ⟨⟨hready, -, -⟩, hlasts⟩ := ht
    refine (ends_create (R := fun _ => True) hready).mono (fun g u hu => ?_) fun _ _ _ => trivial
    obtain ⟨-, id, rfl, hfresh, hput⟩ := hu
    have hkept : t.table.Kept (table u) := by
      rw [hput]
      exact .put (hfresh _) _
    exact hlasts.keep hkept
  exact hrecord.of_map

/-- Recording a condition moves no fact that starts no later. -/
theorem ends_recordCondition_steady {d : DrivingCondition} (hle : d.start ≤ d.stop)
    (h : Ready true repo) (hk : repo.table.Holds [] l) :
    Ends (recordCondition d) repo
      (fun g t => .condition g ∈ t.table.facts ∧
        ∀ f ∈ repo.table.facts, f.span.start ≤ d.start → f ∈ t.table.facts)
      (fun _ _ => True) := by
  have hnone : ∀ s ∈ ([] : List Span), s = (Fact.condition d).span ∨ s ∈ ([] : List Span) := by simp
  have hrecord : Ends (recordCondition d) repo _ _ := (ends_record hnone hle h hk).of_map
  refine (hrecord.and (ends_recordCondition_lasts hle h hk)).mono (fun g t ht => ?_)
    fun _ _ _ => trivial
  obtain ⟨⟨-, hkt, hmem, -⟩, hlasts⟩ := ht
  have hkt' : t.table.Holds [] ((Fact.condition g).unplaced :: l) := hkt
  refine ⟨hmem, fun f hf hstart => ?_⟩
  exact hk.mem_facts_of_lasts hkt' (fun f hf => List.mem_cons_of_mem _ hf) hlasts hf hstart

end Consolidation

end DriveLog
