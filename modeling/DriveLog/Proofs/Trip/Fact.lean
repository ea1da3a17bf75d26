import DriveLog.Proofs.Store.Table
import DriveLog.Proofs.Trip.Span
import DriveLog.Trip.Consolidation
set_option autoImplicit false

namespace DriveLog

def Trip.span (t : Trip) : Span := ⟨t.user, t.start, t.stop⟩

@[simp] theorem Trip.span_start (t : Trip) : t.span.start = t.start := rfl

@[simp] theorem Trip.span_stop (t : Trip) : t.span.stop = t.stop := rfl

inductive Fact where
  | event (e : Event)
  | condition (c : DrivingCondition)
  deriving DecidableEq, Repr

namespace Fact

def user : Fact → String
  | .event e => e.user
  | .condition c => c.user

def trip : Fact → String
  | .event e => e.trip
  | .condition c => c.trip

def id : Fact → String
  | .event e => e.id
  | .condition c => c.id

def span : Fact → Span
  | .event e => ⟨e.user, e.time, e.time⟩
  | .condition c => ⟨c.user, c.start, c.stop⟩

def toRecord : Fact → Record
  | .event e => .event e
  | .condition c => .drivingCondition c

def ofRecord? : Record → Option Fact
  | .event e => some (.event e)
  | .drivingCondition c => some (.condition c)
  | _ => none

def withTrip (trip : String) : Fact → Fact
  | .event e => .event { e with trip }
  | .condition c => .condition { c with trip }

def withId (id : String) : Fact → Fact
  | .event e => .event { e with id }
  | .condition c => .condition { c with id }

def unplaced (f : Fact) : Fact := f.withTrip ""

/-- All that a fact tells but its id and its trip. -/
def content (f : Fact) : Fact := (f.withTrip "").withId ""

def event? : Fact → Option Event
  | .event e => some e
  | .condition _ => none

theorem ofRecord?_eq_some_iff {r : Record} {f : Fact} : ofRecord? r = some f ↔ r = f.toRecord := by
  cases r <;> cases f <;> simp [ofRecord?, toRecord]

theorem exists_of_kind {r : Record} (h : r.kind = .event ∨ r.kind = .drivingCondition) :
    ∃ f : Fact, r = f.toRecord := by
  cases r with
  | event e => exact ⟨.event e, rfl⟩
  | drivingCondition c => exact ⟨.condition c, rfl⟩
  | _ => simp [Record.kind] at h

theorem kind_toRecord (f : Fact) : f.toRecord.kind = .event ∨ f.toRecord.kind = .drivingCondition := by
  cases f with
  | event e => exact .inl rfl
  | condition c => exact .inr rfl

theorem toRecord_injective {f g : Fact} (h : f.toRecord = g.toRecord) : f = g := by
  cases f <;> cases g <;> simp_all [toRecord]

@[simp] theorem span_user (f : Fact) : f.span.user = f.user := by cases f <;> rfl

@[simp] theorem user_withTrip (trip : String) (f : Fact) : (f.withTrip trip).user = f.user := by
  cases f <;> rfl

@[simp] theorem trip_withTrip (trip : String) (f : Fact) : (f.withTrip trip).trip = trip := by
  cases f <;> rfl

@[simp] theorem span_withTrip (trip : String) (f : Fact) : (f.withTrip trip).span = f.span := by
  cases f <;> rfl

@[simp] theorem unplaced_withTrip (trip : String) (f : Fact) :
    (f.withTrip trip).unplaced = f.unplaced := by
  cases f <;> rfl

@[simp] theorem content_withTrip (trip : String) (f : Fact) :
    (f.withTrip trip).content = f.content := by
  cases f <;> rfl

@[simp] theorem content_withId (id : String) (f : Fact) : (f.withId id).content = f.content := by
  cases f <;> rfl

theorem content_unplaced (f : Fact) : f.unplaced.content = f.content := content_withTrip "" f

@[simp] theorem span_content (f : Fact) : f.content.span = f.span := by cases f <;> rfl

theorem key_withTrip (trip : String) (f : Fact) :
    (f.withTrip trip).toRecord.key = f.toRecord.key := by
  cases f <;> rfl

@[simp] theorem user_withId (id : String) (f : Fact) : (f.withId id).user = f.user := by cases f <;> rfl

@[simp] theorem trip_withId (id : String) (f : Fact) : (f.withId id).trip = f.trip := by cases f <;> rfl

@[simp] theorem span_withId (id : String) (f : Fact) : (f.withId id).span = f.span := by cases f <;> rfl

theorem id_withId (id : String) (f : Fact) : (f.withId id).id = id := by cases f <;> rfl

theorem key_withId (id : String) (f : Fact) : (f.withId id).toRecord.key = ⟨f.toRecord.kind, id⟩ := by
  cases f <;> rfl

theorem span_eq_of_content {f g : Fact} (h : f.content = g.content) : f.span = g.span := by
  rw [← span_content f, h, span_content]

theorem condition_of_content {c : DrivingCondition} {f : Fact}
    (h : (Fact.condition c).content = f.content) :
    ∃ d, f = .condition d ∧ c.severity = d.severity := by
  cases f with
  | event e => simp [content, withTrip, withId] at h
  | condition d =>
    have hfields : { c with trip := "", id := "" } = { d with trip := "", id := "" } :=
      Fact.condition.inj h
    exact ⟨d, rfl, (DrivingCondition.mk.inj hfields).2.2.2.2.1⟩

end Fact

/-- Records that are neither trips nor facts. -/
def Record.IsRaw (r : Record) : Prop :=
  r.kind = .rawVideo ∨ r.kind = .rawMotion ∨ r.kind = .rawLocation

instance (r : Record) : Decidable r.IsRaw := inferInstanceAs (Decidable (_ ∨ _))

namespace Record.IsRaw
variable {r : Record}

theorem ne_trip {T : Trip} (h : r.IsRaw) : r.key ≠ (Record.trip T).key := by
  intro hkey
  have hkind : r.kind = .trip := congrArg RecordKey.kind hkey
  simp [IsRaw, hkind] at h

theorem ne_fact {f : Fact} (h : r.IsRaw) : r.key ≠ f.toRecord.key := by
  intro hkey
  cases f with
  | event e =>
    have hkind : r.kind = .event := congrArg RecordKey.kind hkey
    simp [IsRaw, hkind] at h
  | condition c =>
    have hkind : r.kind = .drivingCondition := congrArg RecordKey.kind hkey
    simp [IsRaw, hkind] at h

end Record.IsRaw

def eventsOf (facts : List Fact) : List Event := facts.filterMap Fact.event?

theorem mem_eventsOf {facts : List Fact} {e : Event} : e ∈ eventsOf facts ↔ .event e ∈ facts := by
  simp only [eventsOf, List.mem_filterMap]
  constructor
  · rintro ⟨f, hf, he⟩
    cases f <;> simp_all [Fact.event?]
  · exact fun he => ⟨.event e, he, rfl⟩

namespace Table

def trips (t : Table) : List Trip := t.contents Trip

def facts (t : Table) : List Fact := t.view Fact.ofRecord?

variable {t : Table} {r : Record} {T W : Trip} {f g : Fact}

theorem ofRecord?_trip_iff : (Stored.ofRecord? r : Option Trip) = some T ↔ r = .trip T := by
  cases r <;> simp [Stored.ofRecord?]

theorem mem_trips_iff (h : t.WellFormed) :
    T ∈ t.trips ↔ t.get? ⟨.trip, T.id⟩ = some (.trip T) := by
  have hview : T ∈ t.trips ↔ _ := mem_view_iff (p := Stored.ofRecord?) h
  rw [hview]
  constructor
  · rintro ⟨r, hr, hT⟩
    rw [ofRecord?_trip_iff] at hT
    subst hT
    exact hr
  · exact fun hr => ⟨.trip T, hr, rfl⟩

theorem mem_facts_iff (h : t.WellFormed) :
    f ∈ t.facts ↔ t.get? f.toRecord.key = some f.toRecord := by
  have hview : f ∈ t.facts ↔ _ := mem_view_iff (p := Fact.ofRecord?) h
  rw [hview]
  constructor
  · rintro ⟨r, hr, hf⟩
    rw [Fact.ofRecord?_eq_some_iff] at hf
    subst hf
    exact hr
  · exact fun hr => ⟨f.toRecord, hr, Fact.ofRecord?_eq_some_iff.mpr rfl⟩

theorem eq_of_trip_id (h : t.WellFormed) (hT : T ∈ t.trips) (hW : W ∈ t.trips)
    (hid : T.id = W.id) : T = W := by
  rw [mem_trips_iff h] at hT hW
  rw [hid, hW] at hT
  exact (Record.trip.inj (Option.some.inj hT)).symm

theorem eq_of_fact_key (h : t.WellFormed) (hf : f ∈ t.facts) (hg : g ∈ t.facts)
    (hkey : f.toRecord.key = g.toRecord.key) : f = g := by
  rw [mem_facts_iff h] at hf hg
  rw [hkey, hg] at hf
  exact (Fact.toRecord_injective (Option.some.inj hf)).symm

theorem nodup_trip_ids (h : t.WellFormed) : (t.trips.map Trip.id).Nodup := by
  have hpair : t.trips.Pairwise fun T W => T.id ≠ W.id := by
    refine pairwise_view h fun r r' T W hT hW hlt hid => ?_
    rw [ofRecord?_trip_iff] at hT hW
    have hkey : r.key = r'.key := by
      rw [hT, hW]
      exact congrArg (RecordKey.mk .trip) hid
    exact RecordKey.not_before_self _ (hkey ▸ hlt)
  exact List.pairwise_map.mpr hpair

theorem nodup_fact_keys (h : t.WellFormed) : (t.facts.map fun f => f.toRecord.key).Nodup := by
  have hpair : t.facts.Pairwise fun f g => f.toRecord.key ≠ g.toRecord.key := by
    refine pairwise_view h fun r r' f g hf hg hlt hkey => ?_
    rw [Fact.ofRecord?_eq_some_iff] at hf hg
    rw [hf, hg, hkey] at hlt
    exact RecordKey.not_before_self _ hlt
  exact List.pairwise_map.mpr hpair

theorem mem_trips_put (h : t.WellFormed) :
    T ∈ (t.put r.key r).trips ↔ r = .trip T ∨ r.key ≠ (Record.trip T).key ∧ T ∈ t.trips := by
  rw [mem_trips_iff (h.put rfl), mem_trips_iff h, get?_put]
  have hkey : (Record.trip T).key = ⟨.trip, T.id⟩ := rfl
  rw [hkey]
  by_cases hk : r.key = ⟨.trip, T.id⟩
  · simp [hk]
  · rw [if_neg hk]
    constructor
    · exact fun hT => .inr ⟨hk, hT⟩
    · rintro (rfl | hT)
      · exact absurd rfl hk
      · exact hT.2

theorem mem_facts_put (h : t.WellFormed) :
    f ∈ (t.put r.key r).facts ↔ r = f.toRecord ∨ r.key ≠ f.toRecord.key ∧ f ∈ t.facts := by
  rw [mem_facts_iff (h.put rfl), mem_facts_iff h, get?_put]
  by_cases hk : r.key = f.toRecord.key
  · simp [hk]
  · rw [if_neg hk]
    constructor
    · exact fun hf => .inr ⟨hk, hf⟩
    · rintro (rfl | hf)
      · exact absurd rfl hk
      · exact hf.2

theorem trip_key_ne_fact_key : (Record.trip T).key ≠ f.toRecord.key := by
  cases f <;> simp [Record.key, Record.kind, Fact.toRecord]

theorem mem_trips_put_trip (h : t.WellFormed) :
    T ∈ (t.put (Record.trip W).key (.trip W)).trips ↔ T = W ∨ T.id ≠ W.id ∧ T ∈ t.trips := by
  rw [mem_trips_put h]
  simp [Record.key, Record.kind, Record.id, eq_comm]

theorem mem_facts_put_trip (h : t.WellFormed) :
    f ∈ (t.put (Record.trip W).key (.trip W)).facts ↔ f ∈ t.facts := by
  rw [mem_facts_put h]
  have hne : Record.trip W ≠ f.toRecord := by cases f <;> simp [Fact.toRecord]
  simp [hne, trip_key_ne_fact_key]

theorem mem_trips_put_fact (h : t.WellFormed) :
    T ∈ (t.put g.toRecord.key g.toRecord).trips ↔ T ∈ t.trips := by
  rw [mem_trips_put h]
  have hne : g.toRecord ≠ Record.trip T := by cases g <;> simp [Fact.toRecord]
  simp [hne, trip_key_ne_fact_key.symm]

theorem mem_facts_put_fact (h : t.WellFormed) :
    f ∈ (t.put g.toRecord.key g.toRecord).facts ↔
      f = g ∨ g.toRecord.key ≠ f.toRecord.key ∧ f ∈ t.facts := by
  rw [mem_facts_put h]
  exact or_congr_left ⟨fun he => (Fact.toRecord_injective he).symm, fun he => he ▸ rfl⟩

theorem mem_trips_put_raw (h : t.WellFormed) (hr : r.IsRaw) :
    T ∈ (t.put r.key r).trips ↔ T ∈ t.trips := by
  have hne : r ≠ .trip T := fun he => hr.ne_trip (T := T) (he ▸ rfl)
  simp [mem_trips_put h, hne, hr.ne_trip]

theorem mem_facts_put_raw (h : t.WellFormed) (hr : r.IsRaw) :
    f ∈ (t.put r.key r).facts ↔ f ∈ t.facts := by
  have hne : r ≠ f.toRecord := fun he => hr.ne_fact (congrArg Record.key he)
  simp [mem_facts_put h, hne, hr.ne_fact]

theorem mem_trips_put_fresh (h : t.WellFormed) (hnew : t.get? (Record.trip W).key = none) :
    T ∈ (t.put (Record.trip W).key (.trip W)).trips ↔ T = W ∨ T ∈ t.trips := by
  rw [mem_trips_put_trip h]
  refine or_congr_right ⟨And.right, fun hT => ⟨fun hid => ?_, hT⟩⟩
  have hget := (mem_trips_iff h).mp hT
  rw [hid] at hget
  exact absurd (hget.symm.trans hnew) (by simp)

theorem mem_facts_put_fresh (h : t.WellFormed) (hnew : t.get? g.toRecord.key = none) :
    f ∈ (t.put g.toRecord.key g.toRecord).facts ↔ f = g ∨ f ∈ t.facts := by
  rw [mem_facts_put_fact h]
  refine or_congr_right ⟨And.right, fun hf => ⟨fun hkey => ?_, hf⟩⟩
  have hget := (mem_facts_iff h).mp hf
  rw [← hkey, hnew] at hget
  exact absurd hget (by simp)

theorem mem_trips_erase (h : t.WellFormed) {id : String} :
    T ∈ (t.erase ⟨.trip, id⟩).trips ↔ T.id ≠ id ∧ T ∈ t.trips := by
  rw [mem_trips_iff (h.erase _), mem_trips_iff h, get?_erase]
  by_cases hid : id = T.id
  · simp [hid]
  · simp [hid, Ne.symm hid]

theorem mem_facts_erase (h : t.WellFormed) {id : String} :
    f ∈ (t.erase ⟨.trip, id⟩).facts ↔ f ∈ t.facts := by
  rw [mem_facts_iff (h.erase _), mem_facts_iff h, get?_erase, if_neg]
  cases f <;> simp [Record.key, Record.kind, Fact.toRecord]

theorem facts_put_perm (h : t.WellFormed) (hr : Fact.ofRecord? r = none) :
    ((t.put r.key r).facts).Perm t.facts := by
  cases hk : t.get? r.key with
  | none =>
    have hperm := view_put_of_fresh (p := Fact.ofRecord?) (r := r) h hk
    rwa [hr] at hperm
  | some q =>
    obtain ⟨rest, hold, hnew⟩ := view_put_of_get? (p := Fact.ofRecord?) (r := r) h hk
    have hkind : q.kind = r.kind := congrArg RecordKey.kind (h.key_of_get? hk)
    have hq : Fact.ofRecord? q = none := by
      cases r <;> cases q <;> simp_all [Fact.ofRecord?, Record.kind]
    rw [hq] at hold
    rw [hr] at hnew
    exact hnew.trans hold.symm

theorem facts_erase_trip_perm (h : t.WellFormed) (hT : T ∈ t.trips) :
    ((t.erase ⟨.trip, T.id⟩).facts).Perm t.facts :=
  (view_erase (p := Fact.ofRecord?) h ((mem_trips_iff h).mp hT)).symm

theorem facts_put_fresh_perm (h : t.WellFormed) (hf : t.get? f.toRecord.key = none) :
    ((t.put f.toRecord.key f.toRecord).facts).Perm (f :: t.facts) := by
  have hperm := view_put_of_fresh (p := Fact.ofRecord?) (r := f.toRecord) h hf
  rwa [Fact.ofRecord?_eq_some_iff.mpr rfl] at hperm

theorem unplaced_put_perm (h : t.WellFormed) (hf : f ∈ t.facts) (trip : String) :
    ((t.put f.toRecord.key (f.withTrip trip).toRecord).facts.map Fact.unplaced).Perm
      (t.facts.map Fact.unplaced) := by
  obtain ⟨rest, hold, hnew⟩ := view_put_of_get? (p := Fact.ofRecord?)
    (r := (f.withTrip trip).toRecord) h ((mem_facts_iff h).mp hf)
  rw [Fact.ofRecord?_eq_some_iff.mpr rfl] at hold hnew
  refine (hnew.map _).trans (.trans (.of_eq ?_) (hold.map _).symm)
  simp

theorem accepts_touching {user : String} {start stop : Int} :
    (Predicate.touching user start stop).all (·.accepts (.trip T)) = true ↔
      T.span.Touches ⟨user, start, stop⟩ := by
  simp only [Predicate.touching, Predicate.ofUser, List.all_cons, List.all_nil, Bool.and_true,
    Bool.and_eq_true, Predicate.accepts, Record.field?, Option.any_some, Operator.holds,
    FieldValue.compare?, Operator.accepts, Span.Touches, Trip.span]
  rw [Ordering.isEq_iff_eq_eq, Std.compare_eq_iff_eq, Std.isGE_compare, Std.isLE_compare]
  exact and_congr_right fun _ => and_comm

theorem mem_ids_touching_iff (h : t.WellFormed) {user id : String} {start stop : Int} :
    id ∈ t.ids .trip (Predicate.touching user start stop) ↔
      ∃ T ∈ t.trips, T.id = id ∧ T.span.Touches ⟨user, start, stop⟩ := by
  rw [mem_ids_iff h]
  constructor
  · rintro ⟨r, hr, hq⟩
    have hkey := h.key_of_get? hr
    cases r with
    | trip T =>
      obtain rfl : T.id = id := congrArg RecordKey.id hkey
      exact ⟨T, (mem_trips_iff h).mpr hr, rfl, accepts_touching.mp hq⟩
    | _ => simp [Record.key, Record.kind] at hkey
  · rintro ⟨T, hT, rfl, htouch⟩
    exact ⟨.trip T, (mem_trips_iff h).mp hT, accepts_touching.mpr htouch⟩

theorem accepts_ofTrip {trip : String} :
    [Predicate.ofTrip trip].all (·.accepts f.toRecord) = true ↔ f.trip = trip := by
  cases f <;> simp [Predicate.ofTrip, Predicate.accepts, Fact.toRecord, Record.field?,
    Operator.holds, FieldValue.compare?, Operator.accepts, Fact.trip]

theorem mem_ids_ofTrip_iff (h : t.WellFormed) {kind : RecordKind}
    (hkind : kind = .event ∨ kind = .drivingCondition) {trip id : String} :
    id ∈ t.ids kind [.ofTrip trip] ↔
      ∃ f ∈ t.facts, f.toRecord.key = ⟨kind, id⟩ ∧ f.trip = trip := by
  rw [mem_ids_iff h]
  constructor
  · rintro ⟨r, hr, hq⟩
    have hkey := h.key_of_get? hr
    have hrkind : r.kind = kind := congrArg RecordKey.kind hkey
    obtain ⟨f, rfl⟩ := Fact.exists_of_kind (r := r) (by rwa [hrkind])
    exact ⟨f, (mem_facts_iff h).mpr (by rwa [hkey]), hkey, accepts_ofTrip.mp hq⟩
  · rintro ⟨f, hf, hkey, htrip⟩
    exact ⟨f.toRecord, hkey ▸ (mem_facts_iff h).mp hf, accepts_ofTrip.mpr htrip⟩

end Table

end DriveLog
