import DriveLog.Proofs.Timeline.Chain
import DriveLog.Proofs.Timeline.Sweep
import DriveLog.Proofs.Trip.Components
import DriveLog.Timeline.Report
set_option autoImplicit false

namespace DriveLog

structure Resolves (t : Table) (c : DrivingCondition) (d : ResolvedCondition) : Prop where
  type : d.type = c.type
  severity : d.severity = c.severity
  start : d.start = c.start
  stop : d.stop = c.stop
  url : LinkOf t c.source d.url

structure ConditionsOf (t : Table) (T : Trip) (conditions : List ResolvedCondition) : Prop where
  of_trip : ∀ d ∈ conditions, ∃ c, .condition c ∈ t.facts ∧ c.trip = T.id ∧ Resolves t c d
  all : ∀ c, .condition c ∈ t.facts → c.trip = T.id → ∃ d ∈ conditions, Resolves t c d

structure Shown (t : Table) (e : Event) (x : ReportedEvent) : Prop where
  type : x.type = e.type
  severity : x.severity = e.severity
  value : x.value = e.value
  time : x.time = e.time
  url : LinkOf t e.source x.url

/-- Each event of the facts is reported once. -/
def Reported (t : Table) (facts : List Fact) (events : List ReportedEvent) : Prop :=
  ∃ shown, List.Forall₂ (Shown t) (eventsOf facts) shown ∧ events.Perm shown

structure ReportOf (t : Table) (T : Trip) (r : TripReport) : Prop where
  trip : r.trip = T.id
  start : r.start = T.start
  stop : r.stop = T.stop
  events : Reported t (t.facts.filter fun f => f.trip = T.id) r.events
  ordered : r.events.Pairwise fun x y => x.time ≤ y.time
  segments : ∃ conditions, r.segments = Timeline.flatten conditions ∧ ConditionsOf t T conditions

structure Event.ShownBy (L : Source → String → Prop) (e : Event) (x : ReportedEvent) : Prop where
  type : x.type = e.type
  severity : x.severity = e.severity
  value : x.value = e.value
  time : x.time = e.time
  url : L e.source x.url

structure DrivingCondition.ResolvedBy (L : Source → String → Prop) (c : DrivingCondition)
    (d : ResolvedCondition) : Prop where
  type : d.type = c.type
  severity : d.severity = c.severity
  start : d.start = c.start
  stop : d.stop = c.stop
  url : L c.source d.url

/-- The report shows the facts of the trip, by their trip alone, with links of which `L` holds. -/
structure ReportBy (L : Source → String → Prop) (t : Table) (T : Trip) (r : TripReport) : Prop where
  trip : r.trip = T.id
  start : r.start = T.start
  stop : r.stop = T.stop
  events : ∃ shown, List.Forall₂ (Event.ShownBy L)
    (eventsOf (t.facts.filter fun f => f.trip = T.id)) shown ∧ r.events.Perm shown
  ordered : r.events.Pairwise fun x y => x.time ≤ y.time
  segments : ∃ conditions, r.segments = Timeline.flatten conditions ∧
    (∀ d ∈ conditions, ∃ c, .condition c ∈ t.facts ∧ c.trip = T.id ∧ c.ResolvedBy L d) ∧
    ∀ c, .condition c ∈ t.facts → c.trip = T.id → ∃ d ∈ conditions, c.ResolvedBy L d

section right
variable {t : Table} {T : Trip}

theorem Event.ShownBy.shown {e : Event} {x : ReportedEvent} (h : e.ShownBy (LinkOf t) x) :
    Shown t e x :=
  ⟨h.type, h.severity, h.value, h.time, h.url⟩

theorem DrivingCondition.ResolvedBy.resolves {c : DrivingCondition} {d : ResolvedCondition}
    (h : c.ResolvedBy (LinkOf t) d) : Resolves t c d :=
  ⟨h.type, h.severity, h.start, h.stop, h.url⟩

theorem ReportBy.reportOf {r : TripReport} (h : ReportBy (LinkOf t) t T r) : ReportOf t T r := by
  obtain ⟨shown, hshown, hperm⟩ := h.events
  obtain ⟨conditions, hsegments, hof, hall⟩ := h.segments
  refine ⟨h.trip, h.start, h.stop, ⟨shown, hshown.imp fun _ _ hx => hx.shown, hperm⟩, h.ordered,
    conditions, hsegments, fun d hd => ?_, fun c hc htrip => ?_⟩
  · obtain ⟨c, hc, htrip, hd⟩ := hof d hd
    exact ⟨c, hc, htrip, hd.resolves⟩
  · obtain ⟨d, hd, hres⟩ := hall c hc htrip
    exact ⟨d, hd, hres.resolves⟩

end right

namespace Timeline

section programs
variable {σ : Type} [RecordStore σ] [LawfulStore σ] {b : Bool} {t : Table} {L : Source → String → Prop}
  {s : Linked σ}

theorem ends_reportEvent (hL : LinkClosed t L) (hk : Reads b t L s) (limit : Nat)
    (trip event : String) :
    Ends (reportEvent limit trip event) s
      (fun x u => (∃ e, t.get? ⟨.event, event⟩ = some (.event e) ∧ e.ShownBy L x) ∧ Reads b t L u)
      (fun _ u => Reads b t L u) := by
  unfold reportEvent
  refine (ends_fetch (α := Event) hk (.gettingEvent event) event).bind fun e u hu => ?_
  by_cases htype : e.type = .unknown
  · rw [if_pos htype]
    exact Ends.throw_bind hu.1
  · rw [if_neg htype]
    by_cases htime : e.time = 0
    · rw [if_pos htime]
      exact Ends.throw_bind hu.1
    · rw [if_neg htime]
      refine (ends_findLink_of_closed hL hu.1 limit e.source).bind fun _ v hv => Ends.pure ?_
      exact ⟨⟨e, hu.2, rfl, rfl, rfl, rfl, hv.2⟩, hv.1⟩

theorem ends_resolveCondition (hL : LinkClosed t L) (hk : Reads b t L s) (limit : Nat)
    (condition : String) :
    Ends (resolveCondition limit condition) s
      (fun d u => (∃ c, t.get? ⟨.drivingCondition, condition⟩ = some (.drivingCondition c) ∧
        c.ResolvedBy L d) ∧ Reads b t L u) (fun _ u => Reads b t L u) := by
  unfold resolveCondition
  refine (ends_fetch (α := DrivingCondition) hk (.gettingCondition condition) condition).bind
    fun c u hu => ?_
  refine (ends_findLink_of_closed hL hu.1 limit c.source).bind fun url v hv => Ends.pure ?_
  exact ⟨⟨c, hu.2, rfl, rfl, rfl, rfl, hv.2⟩, hv.1⟩

theorem exists_of_ids (hwf : t.WellFormed) {β : Type} {R : DrivingCondition → β → Prop} {trip : String}
    {ds : List β}
    (hleft : ∀ d ∈ ds, ∃ id ∈ t.ids .drivingCondition [.ofTrip trip],
      ∃ c, t.get? ⟨.drivingCondition, id⟩ = some (.drivingCondition c) ∧ R c d)
    (hright : ∀ id ∈ t.ids .drivingCondition [.ofTrip trip], ∃ d ∈ ds,
      ∃ c, t.get? ⟨.drivingCondition, id⟩ = some (.drivingCondition c) ∧ R c d) :
    (∀ d ∈ ds, ∃ c, .condition c ∈ t.facts ∧ c.trip = trip ∧ R c d) ∧
      ∀ c, .condition c ∈ t.facts → c.trip = trip → ∃ d ∈ ds, R c d := by
  have hids : ∀ id, id ∈ t.ids .drivingCondition [.ofTrip trip] ↔
      ∃ f ∈ t.facts, f.toRecord.key = ⟨.drivingCondition, id⟩ ∧ f.trip = trip := fun id =>
    Table.mem_ids_ofTrip_iff hwf (.inr rfl)
  constructor
  · intro d hd
    obtain ⟨id, hid, c, hget, hres⟩ := hleft d hd
    obtain ⟨f, hf, hkey, htrip⟩ := (hids id).mp hid
    have hgetf := (Table.mem_facts_iff hwf).mp hf
    rw [hkey, hget] at hgetf
    obtain rfl : Fact.condition c = f := Fact.toRecord_injective (Option.some.inj hgetf)
    exact ⟨c, hf, htrip, hres⟩
  · intro c hc htrip
    obtain ⟨d, hd, c', hget, hres⟩ := hright c.id ((hids c.id).mpr ⟨.condition c, hc, rfl, htrip⟩)
    have hgetc : t.get? ⟨.drivingCondition, c.id⟩ = some (.drivingCondition c) :=
      (Table.mem_facts_iff hwf).mp hc
    obtain rfl : c' = c := by simpa [hget] using hgetc
    exact ⟨d, hd, hres⟩

theorem perm_ids_ofTrip (hwf : t.WellFormed) (trip : String) :
    ((eventsOf (t.facts.filter fun f => f.trip = trip)).map Event.id).Perm
      (t.ids .event [.ofTrip trip]) := by
  have hkeys : ((eventsOf (t.facts.filter fun f => f.trip = trip)).map Event.id).Nodup := by
    have hpair := List.pairwise_map.mp (Table.nodup_fact_keys hwf)
    refine List.pairwise_map.mpr (List.pairwise_filterMap.mpr ((hpair.filter _).imp ?_))
    intro f g hne e he d hd hid
    cases f <;> cases g <;> simp_all [Fact.event?, Fact.toRecord, Record.key, Record.kind, Record.id]
  refine (List.perm_ext_iff_of_nodup hkeys (Table.nodup_ids hwf _ _)).mpr fun id => ?_
  rw [Table.mem_ids_ofTrip_iff hwf (.inl rfl), List.mem_map]
  constructor
  · rintro ⟨e, he, rfl⟩
    obtain ⟨he, htrip⟩ := List.mem_filter.mp (mem_eventsOf.mp he)
    exact ⟨.event e, he, rfl, of_decide_eq_true htrip⟩
  · rintro ⟨f, hf, hkey, htrip⟩
    cases f with
    | event e =>
      refine ⟨e, mem_eventsOf.mpr (List.mem_filter.mpr ⟨hf, decide_eq_true htrip⟩), ?_⟩
      exact congrArg RecordKey.id hkey
    | condition c => cases hkey

theorem forall₂_of_ids (hwf : t.WellFormed) {β : Type} {R : Event → β → Prop} {trip : String}
    {xs : List β} (h : List.Forall₂ (fun id x => ∃ e, t.get? ⟨.event, id⟩ = some (.event e) ∧ R e x)
      (t.ids .event [.ofTrip trip]) xs) :
    ∃ shown, List.Forall₂ R (eventsOf (t.facts.filter fun f => f.trip = trip)) shown ∧
      xs.Perm shown := by
  obtain ⟨shown, hshown, hperm⟩ := List.perm_comp_forall₂ (perm_ids_ofTrip hwf trip) h
  refine ⟨shown, ?_, hperm.symm⟩
  have hmem : ∀ e ∈ eventsOf (t.facts.filter fun f => f.trip = trip),
      t.get? ⟨.event, e.id⟩ = some (.event e) := fun e he =>
    (Table.mem_facts_iff hwf).mp (List.mem_filter.mp (mem_eventsOf.mp he)).1
  have hboth := (List.forall₂_and_left _ _).mpr ⟨hmem, List.forall₂_map_left_iff.mp hshown⟩
  refine hboth.imp fun e x hx => ?_
  obtain ⟨hget, d, hd, hx⟩ := hx
  obtain rfl : e = d := by simpa [hget] using hd
  exact hx

theorem ends_reportTrip (hwf : t.WellFormed) (hL : LinkClosed t L) (hk : Reads b t L s) (limit : Nat)
    (T : Trip) :
    Ends (reportTrip limit T) s (fun r u => ReportBy L t T r ∧ Reads b t L u)
      (fun _ u => Reads b t L u) := by
  unfold reportTrip
  refine (ends_listIds hk (.listingEvents T.id) _).bind fun ids s₁ h₁ => ?_
  obtain ⟨hk₁, rfl⟩ := h₁
  refine (Ends.mapM_forall₂ (J := fun u => Reads b t L u)
    (R := fun id x => ∃ e, t.get? ⟨.event, id⟩ = some (.event e) ∧ e.ShownBy L x)
    (fun id _ u hu => ends_reportEvent hL hu limit T.id id) hk₁).bind fun events s₂ h₂ => ?_
  obtain ⟨hevents, hk₂⟩ := h₂
  refine (ends_listIds hk₂ (.listingConditions T.id) _).bind fun ids s₃ h₃ => ?_
  obtain ⟨hk₃, rfl⟩ := h₃
  refine (Ends.mapM_each (J := fun u => Reads b t L u)
    (R := fun id d => ∃ c, t.get? ⟨.drivingCondition, id⟩ = some (.drivingCondition c) ∧
      c.ResolvedBy L d) (fun id _ u hu => ends_resolveCondition hL hu limit id) hk₃).bind
    fun conditions s₄ h₄ => Ends.pure ?_
  obtain ⟨hleft, hright, hk₄⟩ := h₄
  obtain ⟨shown, hshown, hperm⟩ := forall₂_of_ids hwf hevents
  obtain ⟨hof, hall⟩ := exists_of_ids hwf hleft hright
  refine ⟨⟨rfl, rfl, rfl, ?_, ?_, conditions, rfl, hof, hall⟩, hk₄⟩
  · exact ⟨shown, hshown, (sortBy_perm _ _).trans hperm⟩
  · exact pairwise_sortBy_le ReportedEvent.time events

theorem ends_reportTrips_of_closed (hwf : t.WellFormed) (hL : LinkClosed t L) (hk : Reads b t L s)
    (limit : Nat) (user : String) (start stop : Int) :
    Ends (reportTrips limit user start stop) s
      (fun rs u => (∃ trips, Touching t ⟨user, start, stop⟩ trips ∧
        trips.Pairwise (fun S T => S.start ≤ T.start) ∧ List.Forall₂ (ReportBy L t) trips rs) ∧
        Reads b t L u)
      (fun _ u => Reads b t L u) := by
  unfold reportTrips
  refine (ends_listIds hk (.listingTripsOf user) _).bind fun ids s₁ h₁ => ?_
  obtain ⟨hk₁, rfl⟩ := h₁
  refine (Ends.mapM_forall₂ (J := fun u => Reads b t L u) (R := fun id T => id = T.id ∧ T ∈ t.trips)
    (fun id _ u hu => (ends_fetch (α := Trip) hu (.gettingTrip id) id).imp fun T _ hT => ?_)
    hk₁).bind fun trips s₂ h₂ => ?_
  · obtain ⟨hku, hget⟩ := hT
    obtain rfl : T.id = id := congrArg RecordKey.id (hwf.key_of_get? hget)
    exact ⟨⟨rfl, (Table.mem_trips_iff hwf).mpr hget⟩, hku⟩
  · obtain ⟨htrips, hk₂⟩ := h₂
    refine (Ends.mapM_forall₂ (R := ReportBy L t) (J := fun u => Reads b t L u)
      (fun T _ u hu => ends_reportTrip hwf hL hu limit T) hk₂).imp fun rs u hu => ?_
    have htouching := Touching.of_ids (c := ⟨user, start, stop⟩) hwf htrips
    have hsorted := pairwise_sortBy_le Trip.start trips
    exact ⟨⟨_, htouching.perm (sortBy_perm _ _), hsorted, hu.1⟩, hu.2⟩

/-- The trips that touch the stretch are reported, each once, by start. -/
theorem ends_reportTrips (hwf : t.WellFormed) (hk : Knows b t s) (limit : Nat) (user : String)
    (start stop : Int) :
    Ends (reportTrips limit user start stop) s
      (fun rs u => (∃ trips, Touching t ⟨user, start, stop⟩ trips ∧
        trips.Pairwise (fun S T => S.start ≤ T.start) ∧ List.Forall₂ (ReportOf t) trips rs) ∧
        Knows b t u)
      (fun _ u => Knows b t u) := by
  refine (ends_reportTrips_of_closed hwf (linkClosed_linkOf t) hk.reads limit user start stop).mono
    (fun rs u hu => ⟨?_, hu.2.knows⟩) fun _ _ hu => hu.knows
  obtain ⟨trips, htouching, hsorted, hreports⟩ := hu.1
  exact ⟨trips, htouching, hsorted, hreports.imp fun _ _ h => h.reportOf⟩

end programs

end Timeline

/-- The condition is one of the user's among the facts, and is active at the moment. -/
def IsNoted (facts : List Fact) (user : String) (time : Int) (c : DrivingCondition) : Prop :=
  .condition c ∈ facts ∧ c.user = user ∧ c.type ≠ .nothing ∧ c.start ≤ time ∧ time < c.stop

def notedAt (t : Table) (facts : List Fact) (user : String) (time : Int) : Set ActiveCondition :=
  {g | ∃ c, IsNoted facts user time c ∧ g.type = c.type ∧ g.severity = c.severity ∧
    LinkOf t c.source g.url}

theorem IsNoted.of_unplaced {facts l : List Fact} {user : String} {time : Int}
    {c : DrivingCondition} (h : IsNoted facts user time c)
    (hl : ∀ f ∈ facts, ∃ g ∈ l, g.unplaced = f.unplaced) :
    ∃ d, IsNoted l user time d ∧ d.type = c.type ∧ d.severity = c.severity ∧
      d.source = c.source := by
  obtain ⟨hc, hactive⟩ := h
  obtain ⟨g, hg, hsame⟩ := hl _ hc
  cases g with
  | event e => simp [Fact.unplaced, Fact.withTrip] at hsame
  | condition d =>
    have hfields := DrivingCondition.mk.inj (Fact.condition.inj hsame)
    obtain ⟨-, huser, -, htype, hseverity, hstart, hstop, hsource⟩ := hfields
    refine ⟨d, ⟨hg, ?_⟩, htype, hseverity, hsource⟩
    rwa [huser, htype, hstart, hstop]

theorem notedAt_subset {t : Table} {facts l : List Fact} {user : String} {time : Int}
    (h : ∀ f ∈ facts, ∃ g ∈ l, g.unplaced = f.unplaced) :
    notedAt t facts user time ⊆ notedAt t l user time := by
  rintro a ⟨c, hc, htype, hseverity, hurl⟩
  obtain ⟨d, hd, htype', hseverity', hsource⟩ := hc.of_unplaced h
  exact ⟨d, hd, htype.trans htype'.symm, hseverity.trans hseverity'.symm, hsource ▸ hurl⟩

theorem notedAt_congr {t : Table} {facts l : List Fact} {user : String} {time : Int}
    (h : (facts.map Fact.unplaced).Perm (l.map Fact.unplaced)) :
    notedAt t facts user time = notedAt t l user time := by
  refine Set.Subset.antisymm (notedAt_subset fun f hf => ?_) (notedAt_subset fun f hf => ?_)
  · exact List.mem_map.mp (h.mem_iff.mp (List.mem_map_of_mem hf))
  · exact List.mem_map.mp (h.mem_iff.mpr (List.mem_map_of_mem hf))

section content
variable {t : Table} {T : Trip} {r : TripReport} {c : DrivingCondition} {time : Int}

/-- A trip that is wider than a point has a condition over each of its moments. -/
theorem Table.Sound.exists_condition (h : t.Sound) (ha : t.Accounted []) (hT : T ∈ t.trips)
    (hlo : T.start ≤ time) (hhi : time < T.stop) :
    ∃ c, .condition c ∈ t.facts ∧ c.trip = T.id ∧ c.start ≤ time ∧ time < c.stop := by
  have hcross := (ha.made T hT).filled.2 time (by simpa using hlo) (by simpa using hhi)
  rw [Table.factSpans_nil] at hcross
  obtain ⟨s, hs, hu, hstart, hstop⟩ := hcross
  obtain ⟨f, hf, rfl⟩ := List.mem_map.mp hs
  have hid := h.trip_of_moment ha hf hT hu time hstart (Int.le_of_lt hstop) hlo (Int.le_of_lt hhi)
  cases f with
  | event e =>
    -- an event is not over two moments
    simp only [Fact.span] at hstart hstop
    omega
  | condition c => exact ⟨c, hf, hid, hstart, hstop⟩

variable {conditions : List ResolvedCondition}

namespace ConditionsOf

theorem isNaN (h : ConditionsOf t T conditions)
    (hseverity : ∀ c, .condition c ∈ t.facts → c.severity.isNaN = false) :
    ∀ d ∈ conditions, d.severity.isNaN = false := by
  intro d hd
  obtain ⟨c, hc, -, hres⟩ := h.of_trip d hd
  rw [hres.severity]
  exact hseverity c hc

theorem flatten_spec (h : ConditionsOf t T conditions) (hs : t.Sound) (ha : t.Accounted [])
    (hseverity : ∀ c, .condition c ∈ t.facts → c.severity.isNaN = false) (hT : T ∈ t.trips) :
    Tiles T.start T.stop (Timeline.flatten conditions) ∧
      ∀ s ∈ Timeline.flatten conditions, Timeline.Faithful conditions s := by
  have hin : ∀ c, .condition c ∈ t.facts → c.trip = T.id → T.start ≤ c.start ∧ c.stop ≤ T.stop :=
    fun c hc htrip => (hs.within ha hc hT htrip.symm).2
  have hwithin : ∀ d ∈ conditions, T.start ≤ d.start ∧ d.start ≤ d.stop ∧ d.stop ≤ T.stop := by
    intro d hd
    obtain ⟨c, hc, htrip, hres⟩ := h.of_trip d hd
    have hends := hin c hc htrip
    have hle : c.start ≤ c.stop := hs.fact_le _ hc
    rw [hres.start, hres.stop]
    exact ⟨hends.1, hle, hends.2⟩
  refine Timeline.flatten_spec (h.isNaN hseverity) (hs.trip_le T hT) hwithin fun hlt => ?_
  constructor
  · obtain ⟨c, hc, htrip, hstart, -⟩ := hs.exists_condition ha hT (Int.le_refl _) hlt
    obtain ⟨d, hd, hres⟩ := h.all c hc htrip
    exact ⟨d, hd, hres.start.trans (Int.le_antisymm hstart (hin c hc htrip).1)⟩
  · have hlast : T.start ≤ T.stop - 1 := by omega
    obtain ⟨c, hc, htrip, -, hstop⟩ := hs.exists_condition ha hT hlast (by omega)
    obtain ⟨d, hd, hres⟩ := h.all c hc htrip
    have hend := (hin c hc htrip).2
    exact ⟨d, hd, hres.stop.trans (by omega)⟩

/-- No condition of another trip is active during a trip. -/
theorem of_noted (h : ConditionsOf t T conditions) (hs : t.Sound) (ha : t.Accounted [])
    (hT : T ∈ t.trips) (hlo : T.start ≤ time) (hhi : time < T.stop)
    (hc : IsNoted t.facts T.user time c) : ∃ d ∈ conditions, Resolves t c d := by
  obtain ⟨hmem, hu, -, hstart, hstop⟩ := hc
  have hid := hs.trip_of_moment ha hmem hT hu time hstart (Int.le_of_lt hstop) hlo (Int.le_of_lt hhi)
  exact h.all c hmem hid

theorem givenAt_eq (h : ConditionsOf t T conditions) (hs : t.Sound) (ha : t.Accounted [])
    (hT : T ∈ t.trips) (hlo : T.start ≤ time) (hhi : time < T.stop) :
    Timeline.givenAt conditions time = notedAt t t.facts T.user time := by
  ext g
  constructor
  · rintro ⟨d, hd, ⟨htype, hstart, hstop⟩, rfl⟩
    obtain ⟨c, hc, htrip, hres⟩ := h.of_trip d hd
    exact ⟨c, ⟨hc, hs.user_eq hc hT htrip, hres.type ▸ htype, hres.start ▸ hstart,
      hres.stop ▸ hstop⟩, hres.type, hres.severity, hres.url⟩
  · rintro ⟨c, hc, hgtype, hgseverity, hurl⟩
    obtain ⟨d, hd, hres⟩ := h.of_noted hs ha hT hlo hhi hc
    obtain ⟨-, -, htype, hstart, hstop⟩ := hc
    refine ⟨d, hd, ⟨hres.type ▸ htype, hres.start ▸ hstart, hres.stop ▸ hstop⟩, ?_⟩
    obtain ⟨type, url, severity⟩ := g
    simp only at hgtype hgseverity hurl
    simp only [ResolvedCondition.toActive, hres.type, hres.severity, hgtype, hgseverity,
      hres.url.unique hurl]

end ConditionsOf

theorem ReportOf.lists (h : ReportOf t T r) (hs : t.Sound) (ha : t.Accounted [])
    (hseverity : ∀ c, .condition c ∈ t.facts → c.severity.isNaN = false) (hT : T ∈ t.trips) :
    Tiles r.start r.stop r.segments ∧
      ∀ s ∈ r.segments, ∀ time, s.start ≤ time → time ≤ s.stop →
        (∀ c, IsNoted t.facts T.user time c → ∃ url, LinkOf t c.source url) ∧
        ActiveCondition.Lists s.active (notedAt t t.facts T.user time) := by
  obtain ⟨conditions, hsegments, hof⟩ := h.segments
  obtain ⟨htiles, hfaithful⟩ := hof.flatten_spec hs ha hseverity hT
  rw [h.start, h.stop, hsegments]
  refine ⟨htiles, fun s hsmem time hlo hhi => ?_⟩
  have hends := htiles.within s hsmem
  have hlow : T.start ≤ time := by omega
  have hhigh : time < T.stop := by omega
  constructor
  · intro c hc
    obtain ⟨d, -, hres⟩ := hof.of_noted hs ha hT hlow hhigh hc
    exact ⟨d.url, hres.url⟩
  · rw [← hof.givenAt_eq hs ha hT hlow hhigh]
    have hgathers := Timeline.gathers_activeAt (hof.isNaN hseverity) time
    exact hgathers.lists_of_alike (hfaithful s hsmem time hlo hhi)

end content

end DriveLog
