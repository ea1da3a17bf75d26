import DriveLog.Proofs.Agreement
import DriveLog.Proofs.Timeline.Question
import DriveLog.Proofs.Timeline.Report
set_option autoImplicit false

namespace DriveLog
open LawfulStore (table Ready)

/-- The same record, of another user. Users and trips stay. -/
def Record.handed (user : String) : Record → Record
  | .event e => .event { e with user }
  | .drivingCondition c => .drivingCondition { c with user }
  | .rawVideo v => .rawVideo { v with user }
  | .rawMotion m => .rawMotion { m with user }
  | .rawLocation l => .rawLocation { l with user }
  | r => r

namespace Record
variable {user : String}

@[simp] theorem kind_handed (r : Record) : (r.handed user).kind = r.kind := by cases r <;> rfl

theorem key_handed (r : Record) : (r.handed user).key = r.key := by cases r <;> rfl

theorem handed_of_kind {r : Record} (h : r.kind = .trip) : r.handed user = r := by
  cases r <;> first | rfl | cases h

theorem field?_handed {field : Field} (h : field ≠ .user) (r : Record) :
    (r.handed user).field? field = r.field? field := by
  cases r <;> cases field <;> first | rfl | exact absurd rfl h

end Record

def Table.handed (owner : RecordKey → String) (t : Table) : Table :=
  t.map fun e => (e.1, e.2.handed (owner e.1))

namespace Table
variable {owner : RecordKey → String} {t : Table}

theorem get?_handed (t : Table) (k : RecordKey) :
    (t.handed owner).get? k = (t.get? k).map (Record.handed (owner k)) := by
  induction t with
  | nil => rfl
  | cons e t ih =>
    have hcons : handed owner (e :: t) = (e.1, e.2.handed (owner e.1)) :: handed owner t := rfl
    rw [hcons, get?_cons, get?_cons]
    by_cases hk : e.1 = k
    · rw [if_pos hk, if_pos hk, ← hk]
      rfl
    · rw [if_neg hk, if_neg hk, ih]

theorem ids_handed {kind : RecordKind} {query : List Predicate}
    (h : ∀ e ∈ t, e.1.kind = kind →
      query.all (·.accepts (e.2.handed (owner e.1))) = query.all (·.accepts e.2)) :
    (t.handed owner).ids kind query = t.ids kind query := by
  unfold ids handed
  rw [List.filter_map, List.map_map]
  refine congrArg (List.map fun e : RecordKey × Record => e.1.id) (List.filter_congr fun e he => ?_)
  by_cases hkind : e.1.kind = kind
  · simp only [Function.comp_apply, hkind, decide_true, Bool.true_and, h e he hkind]
  · simp only [Function.comp_apply, hkind, decide_false, Bool.false_and]

theorem ids_ofTrip_handed (kind : RecordKind) (trip : String) :
    (t.handed owner).ids kind [.ofTrip trip] = t.ids kind [.ofTrip trip] := by
  refine ids_handed fun e _ _ => ?_
  have hfield : (e.2.handed (owner e.1)).field? .trip = e.2.field? .trip :=
    Record.field?_handed (by simp) e.2
  simp only [List.all_cons, List.all_nil, Predicate.accepts, Predicate.ofTrip, hfield]

theorem ids_trip_handed (h : t.WellFormed) (query : List Predicate) :
    (t.handed owner).ids .trip query = t.ids .trip query := by
  refine ids_handed fun e he hkind => ?_
  have htrip : e.2.kind = .trip := (congrArg RecordKey.kind (h.keyed e he)).trans hkind
  rw [Record.handed_of_kind htrip]

end Table

def Handed {α : Type} [Stored α] (a a' : α) : Prop :=
  ∃ user, Stored.toRecord a' = (Stored.toRecord a).handed user

namespace Handed

theorem trip {T T' : Trip} (h : Handed T T') : T' = T := by
  obtain ⟨_, h⟩ := h
  exact Record.trip.inj h

theorem event {e e' : Event} (h : Handed e e') : ∃ user, e' = { e with user } := by
  obtain ⟨user, h⟩ := h
  exact ⟨user, Record.event.inj h⟩

theorem condition {c c' : DrivingCondition} (h : Handed c c') : ∃ user, c' = { c with user } := by
  obtain ⟨user, h⟩ := h
  exact ⟨user, Record.drivingCondition.inj h⟩

theorem file_eq {v v' : RawVideo} (h : Handed v v') : v'.file = v.file := by
  obtain ⟨user, h⟩ := h
  rw [Record.rawVideo.inj h]

theorem motionSource_eq {m m' : RawMotion} (h : Handed m m') : m'.source = m.source := by
  obtain ⟨user, h⟩ := h
  rw [Record.rawMotion.inj h]

theorem locationSource_eq {l l' : RawLocation} (h : Handed l l') : l'.source = l.source := by
  obtain ⟨user, h⟩ := h
  rw [Record.rawLocation.inj h]

end Handed

/-- Stores without failures, of which the second has the records of the first, in other hands. -/
structure HandedOver {σ : Type} [RecordStore σ] [LawfulStore σ] (owner : RecordKey → String) (s s' : σ) :
    Prop where
  ready : Ready true s
  ready' : Ready true s'
  table_eq : table s' = (table s).handed owner

namespace StoreM
variable {σ α : Type} [Stored α]

theorem agree_decode [Stored.Lawful α] {P : σ → σ → Prop} (r : Record) (user : String) :
    Agree P Handed (decode r : StoreM σ α) (decode (r.handed user)) := by
  unfold decode Stored.ofRecord
  by_cases hkind : r.kind = Stored.kind α
  · obtain ⟨a, rfl⟩ := Stored.Lawful.kind_eq_iff.mp hkind
    have hkind' : ((Stored.toRecord a).handed user).kind = Stored.kind α := by
      rw [Record.kind_handed, hkind]
    obtain ⟨a', ha'⟩ := Stored.Lawful.kind_eq_iff.mp hkind'
    rw [ha', Stored.Lawful.ofRecord?_eq_some_iff.mpr rfl, Stored.Lawful.ofRecord?_eq_some_iff.mpr rfl]
    exact .pure ⟨user, ha'.symm⟩
  · have hnone : ∀ q : Record, q.kind = r.kind → (Stored.ofRecord? q : Option α) = none := by
      intro q hq
      refine Option.eq_none_iff_forall_ne_some.mpr fun a ha => hkind ?_
      exact hq.symm.trans (Stored.Lawful.kind_eq_iff.mpr ⟨a, Stored.Lawful.ofRecord?_eq_some_iff.mp ha⟩)
    rw [hnone r rfl, hnone (r.handed user) (by simp), Record.kind_handed]
    exact .throw _

variable [RecordStore σ] [LawfulStore σ] {owner : RecordKey → String}

theorem agree_of_reads {β : Type} {act : StoreM σ β} {R : β → β → Prop} (read : Table → β)
    (h : ∀ s, Ready true s → Ends act s
      (fun b u => Ready true u ∧ table u = table s ∧ b = read (table s)) (Refused table Ready true s))
    (hR : ∀ t : Table, t.WellFormed → R (read t) (read (t.handed owner))) :
    Agree (HandedOver (σ := σ) owner) R act act := by
  have hreads : ∀ s, Ready true s →
      ∃ u, act s = .ok (read (table s)) u ∧ Ready true u ∧ table u = table s := by
    intro s hs
    obtain ⟨b, u, heq, hu, htable, rfl⟩ := ((h s hs).mono (fun _ _ hb => hb)
      fun _ _ he => Bool.noConfusion he.2.2.2).eq_ok
    exact ⟨u, heq, hu, htable⟩
  intro s s' hs
  obtain ⟨u, heq, hu, htable⟩ := hreads s hs.ready
  obtain ⟨u', heq', hu', htable'⟩ := hreads s' hs.ready'
  rw [heq, heq', hs.table_eq]
  refine .ok (hR _ (LawfulStore.wellFormed hs.ready)) ⟨hu, hu', ?_⟩
  rw [htable', htable, hs.table_eq]

theorem agree_listIds {query : List Predicate}
    (h : ∀ t : Table, t.WellFormed →
      (t.handed owner).ids (Stored.kind α) query = t.ids (Stored.kind α) query) :
    Agree (HandedOver (σ := σ) owner) Eq (listIds α query) (listIds α query) :=
  agree_of_reads (fun t => t.ids (Stored.kind α) query) (fun _ hs => ends_listIds hs query)
    fun t ht => (h t ht).symm

theorem agree_fetch [Stored.Lawful α] (id : String) :
    Agree (HandedOver (σ := σ) owner) Handed (fetch α id) (fetch α id) := by
  unfold fetch
  refine (agree_of_reads (R := fun r r' => r' = r.map (Record.handed (owner ⟨Stored.kind α, id⟩)))
    (fun t => t.get? ⟨Stored.kind α, id⟩) (fun _ hs => LawfulStore.ends_get? hs _ _)
    fun t _ => t.get?_handed _).bind fun r r' hr => ?_
  subst hr
  cases r with
  | none => exact .throw _
  | some r => exact agree_decode r _

end StoreM

namespace Timeline
variable {σ : Type} [RecordStore σ] [LawfulStore σ] {owner : RecordKey → String}

def LinkedAlike (owner : RecordKey → String) (s s' : Linked σ) : Prop :=
  HandedOver owner s.store s'.store ∧ s'.links = s.links

theorem agree_during {α : Type} {R : α → α → Prop} {act act' : StoreM σ α} (step : Step)
    (h : Agree (HandedOver owner) R act act') :
    Agree (LinkedAlike owner) R (during step act) (during step act') :=
  h.focus (fun _ _ hs => hs.1) fun _ _ hs _ _ hu => ⟨hu, hs.2⟩

theorem agree_step (source : Source) :
    Agree (LinkedAlike (σ := σ) owner) Eq (step source) (step source) := by
  obtain ⟨type, id⟩ := source
  unfold step
  cases type with
  | rawVideo =>
    refine (agree_during (.gettingVideo id) (StoreM.agree_fetch id)).bind fun v v' hv => .pure ?_
    rw [hv.file_eq]
  | rawMotion =>
    refine (agree_during (.gettingMotion id) (StoreM.agree_fetch id)).bind fun m m' hm => .pure ?_
    rw [hm.motionSource_eq]
  | rawLocation =>
    refine (agree_during (.gettingLocation id) (StoreM.agree_fetch id)).bind fun l l' hl => .pure ?_
    rw [hl.locationSource_eq]

theorem agree_remember (keys : List String) (url : String) :
    Agree (LinkedAlike (σ := σ) owner) Eq (remember keys url) (remember keys url) :=
  .modify fun _ _ hs => ⟨hs.1, congrArg (LinkCache.insertAll keys url) hs.2⟩

theorem agree_follow (origin : Source) (limit n : Nat) (visited : List String) (current : Source) :
    Agree (LinkedAlike (σ := σ) owner) Eq (follow origin limit n visited current)
      (follow origin limit n visited current) := by
  -- by induction on the records that may still be read
  induction n generalizing visited current with
  | zero => exact .throw _
  | succ n ih =>
    unfold follow
    refine .get_bind fun s s' hs => ?_
    rw [hs.2]
    cases s.links.get? current.key with
    | some url => exact (agree_remember _ _).bind fun _ _ _ => .pure rfl
    | none =>
      refine (agree_step current).bind fun found _ heq => ?_
      subst heq
      rcases found with url | _ | next
      · exact (agree_remember _ _).bind fun _ _ _ => .pure rfl
      · exact .throw _
      · exact ih _ next

theorem agree_findLink (limit : Nat) (source : Source) :
    Agree (LinkedAlike (σ := σ) owner) Eq (findLink limit source) (findLink limit source) :=
  agree_follow source limit limit [] source

theorem agree_reportEvent (limit : Nat) (trip event : String) :
    Agree (LinkedAlike (σ := σ) owner) Eq (reportEvent limit trip event)
      (reportEvent limit trip event) := by
  unfold reportEvent
  refine (agree_during (.gettingEvent event) (StoreM.agree_fetch event)).bind fun e e' he => ?_
  obtain ⟨user, rfl⟩ := he.event
  by_cases htype : e.type = .unknown
  · simp only [if_pos htype]
    exact .throw_bind _
  by_cases htime : e.time = 0
  · simp only [if_neg htype, if_pos htime]
    exact .throw_bind _
  simp only [if_neg htype, if_neg htime]
  refine (agree_findLink limit e.source).bind fun url _ hurl => ?_
  subst hurl
  exact .pure rfl

theorem agree_resolveCondition (limit : Nat) (condition : String) :
    Agree (LinkedAlike (σ := σ) owner) Eq (resolveCondition limit condition)
      (resolveCondition limit condition) := by
  unfold resolveCondition
  refine (agree_during (.gettingCondition condition) (StoreM.agree_fetch condition)).bind
    fun c c' hc => ?_
  obtain ⟨user, rfl⟩ := hc.condition
  refine (agree_findLink limit c.source).bind fun url _ hurl => ?_
  subst hurl
  exact .pure rfl

theorem agree_reportTrip (limit : Nat) (T : Trip) :
    Agree (LinkedAlike (σ := σ) owner) Eq (reportTrip limit T) (reportTrip limit T) := by
  have hlist : ∀ (α : Type) [Stored α] (step : Step), Agree (LinkedAlike (σ := σ) owner) Eq
      (during step (StoreM.listIds α [.ofTrip T.id])) (during step (StoreM.listIds α [.ofTrip T.id])) :=
    fun α _ step => agree_during step (StoreM.agree_listIds fun _ _ => Table.ids_ofTrip_handed _ _)
  unfold reportTrip
  refine (hlist Event _).bind fun eventIds _ heq => ?_
  subst heq
  refine (Agree.mapM (agree_reportEvent limit T.id) eventIds).bind fun events _ heq => ?_
  subst heq
  refine (hlist DrivingCondition _).bind fun conditionIds _ heq => ?_
  subst heq
  refine (Agree.mapM (agree_resolveCondition limit) conditionIds).bind fun conditions _ heq => ?_
  subst heq
  exact .pure rfl

theorem agree_reportTrips (limit : Nat) (user : String) (start stop : Int) :
    Agree (LinkedAlike (σ := σ) owner) Eq (reportTrips limit user start stop)
      (reportTrips limit user start stop) := by
  unfold reportTrips
  refine (agree_during _ (StoreM.agree_listIds fun _ ht => Table.ids_trip_handed ht _)).bind
    fun ids _ heq => ?_
  subst heq
  refine (Agree.mapM (fun id => ?_) ids).bind fun trips _ heq => ?_
  · exact (agree_during _ (StoreM.agree_fetch id)).imp fun _ _ hT => hT.trip.symm
  · subst heq
    exact .mapM (agree_reportTrip limit) _

/-- Reports show the facts of the user's trips, whoever they are of, with links that walks find. If facts
and footage are handed over to others, the outcome is the same. -/
theorem reports_of_any_owner {b : Bool} {s : Linked σ} (h : Ready b s.store) (limit : Nat) (user : String)
    (start stop : Int) :
    (∀ rs, outcome (reportTrips limit user start stop) s = .ok rs →
      ∃ trips, Touching (table s.store) ⟨user, start, stop⟩ trips ∧
        trips.Pairwise (fun S T => S.start ≤ T.start) ∧
        List.Forall₂ (ReportBy (LinkVia (table s.store) s.links) (table s.store)) trips rs) ∧
    ∀ owner s', HandedOver owner s.store s'.store → s'.links = s.links →
      outcome (reportTrips limit user start stop) s' = outcome (reportTrips limit user start stop) s := by
  constructor
  · intro rs hrs
    obtain ⟨u, hrun⟩ := outcome_eq_ok_iff.mp hrs
    have hreads : Reads b (table s.store) (LinkVia (table s.store) s.links) s :=
      ⟨h, rfl, fun _ _ hget => .known hget⟩
    exact ((ends_reportTrips_of_closed (LawfulStore.wellFormed h) (linkClosed_linkVia _ _) hreads limit
      user start stop).of_eq_ok hrun).1
  · intro owner s' hover hlinks
    obtain ⟨rs, t, _, t', hrun, hrun', rfl, -⟩ | ⟨e, t, t', hrun, hrun', -⟩ :=
      (agree_reportTrips limit user start stop s s' ⟨hover, hlinks⟩).ends
    · rw [outcome_eq_ok_iff.mpr ⟨t', hrun'⟩, outcome_eq_ok_iff.mpr ⟨t, hrun⟩]
    · rw [outcome_eq_error_iff.mpr ⟨t', hrun'⟩, outcome_eq_error_iff.mpr ⟨t, hrun⟩]

end Timeline

namespace Repository
variable {b : Bool} {repo : Repository}

theorem Ready.handed (h : repo.Ready b) (owner : RecordKey → String) :
    Ready b { repo with table := repo.table.handed owner } := by
  refine h.withTable ⟨?_, ?_⟩ fun k hk => by rw [Table.get?_handed, hk]; rfl
  · exact List.pairwise_map.mpr h.wellFormed.ascending
  · intro e he
    obtain ⟨d, hd, rfl⟩ := List.mem_map.mp he
    exact (Record.key_handed _).trans (h.wellFormed.keyed d hd)

theorem handedOver (h : repo.Ready true) (owner : RecordKey → String) :
    HandedOver owner repo { repo with table := repo.table.handed owner } :=
  ⟨h, h.handed owner, rfl⟩

end Repository

namespace Timeline

def sampleRide : Repository :=
  Repository.planted
    [.rawVideo ⟨"", "ann", 1, 9, "drive.mp4"⟩, .trip ⟨"", "ann", 1000, 2000⟩,
      .event ⟨"", "ann", "i", 1500, .laneChange, ⟨0⟩, ⟨0⟩, ⟨.rawVideo, ""⟩⟩,
      .drivingCondition ⟨"", "ann", "i", .rain, ⟨0⟩, 1000, 2000, ⟨.rawVideo, ""⟩⟩]
    (Repository.empty Repository.unaryId)

def sampleTaken : Repository :=
  { sampleRide with table := sampleRide.table.handed fun _ => "bob" }

theorem handedOver_sampleTaken : HandedOver (fun _ => "bob") sampleRide sampleTaken := by
  have hready : sampleRide.Ready true :=
    Repository.ready_planted (Repository.ready_empty Repository.unaryId_injective) _
  exact Repository.handedOver hready _

theorem reports_of_any_owner_of_sample :
    HandedOver (fun _ => "bob") sampleRide sampleTaken ∧
      outcome (reportTrips 1 "ann" 0 3000) ⟨sampleTaken, []⟩ =
        .ok [⟨"i", 1000, 2000, [⟨.laneChange, ⟨0⟩, ⟨0⟩, 1500, "drive.mp4"⟩],
          [⟨1000, 1999, [⟨.rain, "drive.mp4", ⟨0⟩⟩]⟩]⟩] := by
  have hover := handedOver_sampleTaken
  have hrun : outcome (reportTrips 1 "ann" 0 3000) ⟨sampleRide, []⟩ =
        .ok [⟨"i", 1000, 2000, [⟨.laneChange, ⟨0⟩, ⟨0⟩, 1500, "drive.mp4"⟩],
          [⟨1000, 1999, [⟨.rain, "drive.mp4", ⟨0⟩⟩]⟩]⟩] := by rfl
  exact ⟨hover, ((reports_of_any_owner (s := ⟨sampleRide, []⟩) hover.ready 1 "ann" 0 3000).2 _
    ⟨sampleTaken, []⟩ hover rfl).trans hrun⟩

/-- A report can show what is not the user's. -/
theorem reports_not_separate :
    ¬ ∀ (store : Repository) (links : LinkCache) (limit : Nat) (user : String) (start stop : Int)
      (rs : List TripReport), store.Ready true →
      outcome (reportTrips limit user start stop) ⟨store, links⟩ = .ok rs →
      ∀ T ∈ store.table.trips, T.span.Touches ⟨user, start, stop⟩ →
        ∀ f ∈ store.table.facts, f.trip = T.id → f.user = user := by
  intro h
  have hsame := h sampleTaken [] 1 "ann" 0 3000 _ handedOver_sampleTaken.ready' rfl
    ⟨"i", "ann", 1000, 2000⟩ (by decide +kernel) (by decide)
    (.event ⟨"ii", "bob", "i", 1500, .laneChange, ⟨0⟩, ⟨0⟩, ⟨.rawVideo, ""⟩⟩) (by decide +kernel) rfl
  simp [Fact.user] at hsame

end Timeline

end DriveLog
