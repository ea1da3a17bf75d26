import DriveLog.Proofs.Timeline.Report
set_option autoImplicit false

namespace DriveLog

/-- One of the first `n` records of the chain from a source is a video. -/
inductive VideoWithin (t : Table) : Nat → Source → Prop
  | video {n : Nat} {id : String} {v : RawVideo}
      (h : t.get? ⟨.rawVideo, id⟩ = some (.rawVideo v)) : VideoWithin t (n + 1) ⟨.rawVideo, id⟩
  | motion {n : Nat} {id : String} {m : RawMotion} {next : Source}
      (h : t.get? ⟨.rawMotion, id⟩ = some (.rawMotion m)) (hm : m.source = some next)
      (hnext : VideoWithin t n next) : VideoWithin t (n + 1) ⟨.rawMotion, id⟩
  | location {n : Nat} {id : String} {l : RawLocation} {next : Source}
      (h : t.get? ⟨.rawLocation, id⟩ = some (.rawLocation l)) (hl : l.source = some next)
      (hnext : VideoWithin t n next) : VideoWithin t (n + 1) ⟨.rawLocation, id⟩

theorem VideoWithin.mono {t : Table} {m n : Nat} {source : Source} (h : VideoWithin t m source)
    (hle : m ≤ n) : VideoWithin t n source := by
  induction h generalizing n with
  | video h =>
    cases n with
    | zero => omega
    | succ n => exact .video h
  | motion h hm _ ih =>
    cases n with
    | zero => omega
    | succ n => exact .motion h hm (ih (Nat.le_of_succ_le_succ hle))
  | location h hl _ ih =>
    cases n with
    | zero => omega
    | succ n => exact .location h hl (ih (Nat.le_of_succ_le_succ hle))

/-- The source is a sample that has none itself. -/
def Source.DeadEnd (t : Table) (source : Source) : Prop :=
  ∃ k : RawLocation, source = ⟨.rawLocation, k.id⟩ ∧
    t.get? ⟨.rawLocation, k.id⟩ = some (.rawLocation k) ∧ k.source = none

theorem Source.DeadEnd.not_linkOf {t : Table} {source : Source} {url : String}
    (h : source.DeadEnd t) : ¬ LinkOf t source url := by
  obtain ⟨k, rfl, hget, hnone⟩ := h
  intro hlink
  cases hlink with
  | location hget' hsome _ =>
    obtain rfl := Record.rawLocation.inj (Option.some.inj (hget.symm.trans hget'))
    rw [hnone] at hsome
    cases hsome

/-- A report can be made of the fact. -/
def Fact.Reportable (t : Table) (limit : Nat) : Fact → Prop
  | .event e => e.type ≠ .unknown ∧ e.time ≠ 0 ∧ VideoWithin t limit e.source
  | .condition c => VideoWithin t limit c.source

theorem Fact.reportable_content {t : Table} {limit : Nat} (f : Fact) :
    f.content.Reportable t limit ↔ f.Reportable t limit := by
  cases f <;> exact Iff.rfl

def Fact.DeadEnd (t : Table) : Fact → Prop
  | .event _ => False
  | .condition c => c.source.DeadEnd t

theorem Fact.deadEnd_content {t : Table} (f : Fact) : f.content.DeadEnd t ↔ f.DeadEnd t := by
  cases f <;> exact Iff.rfl

theorem Fact.Reportable.of_content {t : Table} {limit : Nat} {f g : Fact}
    (hf : f.Reportable t limit) (h : g.content = f.content) : g.Reportable t limit := by
  rwa [← Fact.reportable_content, h, Fact.reportable_content]

namespace Timeline
variable {σ : Type} [RecordStore σ] [LawfulStore σ] {t : Table} {s : Linked σ} {limit : Nat}

theorem ends_fetch_steady {α : Type} [Stored α] [Stored.Lawful α] (hk : Knows true t s) (step : Step)
    {id : String} {a : α} (ha : t.get? ⟨Stored.kind α, id⟩ = some (Stored.toRecord a)) :
    Ends (during step (StoreM.fetch α id)) s (fun a' u => Knows true t u ∧ a' = a)
      (fun _ _ => False) := by
  have hfetch := StoreM.ends_fetch hk.ready (hk.table_eq ▸ ha)
  refine hfetch.focus (fun a' u hu => ?_) fun e u he => ?_
  · obtain ⟨hready, htable, ha'⟩ := hu
    exact ⟨⟨hready, htable.trans hk.table_eq, hk.links⟩, ha'⟩
  · exact absurd he.2.2.2 (by simp)

theorem ends_listIds_steady {α : Type} [Stored α] (hk : Knows true t s) (step : Step)
    (query : List Predicate) :
    Ends (during step (StoreM.listIds α query)) s
      (fun ids u => Knows true t u ∧ ids = t.ids (Stored.kind α) query) (fun _ _ => False) := by
  have hlist := StoreM.ends_listIds (α := α) hk.ready query
  rw [hk.table_eq] at hlist
  refine hlist.focus (fun ids u hu => ?_) fun e u he => ?_
  · exact ⟨⟨hu.1, hu.2.1, hk.links⟩, hu.2.2⟩
  · exact absurd he.2.2.2 (by simp)

theorem ends_step_steady (hk : Knows true t s) {n : Nat} {source : Source}
    (h : VideoWithin t (n + 1) source) :
    Ends (step source) s
      (fun found u => Knows true t u ∧
        ∀ next?, found = .inr next? → ∃ next, next? = some next ∧ VideoWithin t n next)
      (fun _ _ => False) := by
  cases h with
  | video h =>
    refine (ends_fetch_steady hk _ h).bind fun v u hu => Ends.pure ⟨hu.1, ?_⟩
    simp
  | motion h hm hnext =>
    refine (ends_fetch_steady hk _ h).bind fun m u hu => Ends.pure ⟨hu.1, fun next? hfound => ?_⟩
    exact ⟨_, by rw [← Sum.inr.inj hfound, hu.2, hm], hnext⟩
  | location h hl hnext =>
    refine (ends_fetch_steady hk _ h).bind fun l u hu => Ends.pure ⟨hu.1, fun next? hfound => ?_⟩
    exact ⟨_, by rw [← Sum.inr.inj hfound, hu.2, hl], hnext⟩

theorem ends_follow_steady (origin : Source) (limit : Nat) {n : Nat} {visited : List String}
    {current : Source} (hk : Knows true t s) (h : VideoWithin t n current) :
    Ends (follow origin limit n visited current) s (fun _ _ => True) (fun _ _ => False) := by
  induction n generalizing visited current s with
  | zero => cases h
  | succ n ih =>
    unfold follow
    refine Ends.get_bind ?_
    cases s.links.get? current.key with
    | some url => exact trivial
    | none =>
      refine (ends_step_steady hk h).bind fun found u hu => ?_
      obtain ⟨hku, hnext⟩ := hu
      cases found with
      | inl url => exact trivial
      | inr next? =>
        obtain ⟨next, rfl, hwithin⟩ := hnext next? rfl
        exact ih hku hwithin

theorem ends_findLink_steady (hk : Knows true t s) {source : Source}
    (h : VideoWithin t limit source) :
    Ends (findLink limit source) s (fun _ u => Knows true t u) (fun _ _ => False) :=
  ((ends_follow_steady source limit hk h).and_ok (ends_findLink hk limit source)).imp
    fun _ _ hu => hu.2.1

theorem ends_reportEvent_steady (hk : Knows true t s) (trip : String) {event : String} {e : Event}
    (hget : t.get? ⟨.event, event⟩ = some (.event e)) (he : (Fact.event e).Reportable t limit) :
    Ends (reportEvent limit trip event) s (fun _ u => Knows true t u) (fun _ _ => False) := by
  obtain ⟨htype, htime, hvideo⟩ := he
  unfold reportEvent
  refine (ends_fetch_steady (a := e) hk (.gettingEvent event) hget).bind fun d u hu => ?_
  obtain ⟨hku, rfl⟩ := hu
  rw [if_neg htype, if_neg htime]
  exact (ends_findLink_steady hku hvideo).bind fun _ v hv => Ends.pure hv

theorem ends_resolveCondition_steady (hk : Knows true t s) {condition : String}
    {c : DrivingCondition}
    (hget : t.get? ⟨.drivingCondition, condition⟩ = some (.drivingCondition c))
    (hc : (Fact.condition c).Reportable t limit) :
    Ends (resolveCondition limit condition) s (fun _ u => Knows true t u) (fun _ _ => False) := by
  unfold resolveCondition
  refine (ends_fetch_steady (a := c) hk (.gettingCondition condition) hget).bind fun d u hu => ?_
  obtain ⟨hku, rfl⟩ := hu
  exact (ends_findLink_steady hku hc).bind fun _ v hv => Ends.pure hv

theorem ends_reportTrip_steady (hwf : t.WellFormed) (hk : Knows true t s) {T : Trip}
    (hfacts : ∀ f ∈ t.facts, f.trip = T.id → f.Reportable t limit) :
    Ends (reportTrip limit T) s (fun _ u => Knows true t u) (fun _ _ => False) := by
  unfold reportTrip
  refine (ends_listIds_steady hk (.listingEvents T.id) _).bind fun ids s₁ h₁ => ?_
  obtain ⟨hk₁, rfl⟩ := h₁
  refine (Ends.mapM_keeps (fun id hid u hu => ?reported) hk₁).bind fun events s₂ hk₂ => ?_
  case reported =>
    obtain ⟨f, hf, hkey, htrip⟩ := (Table.mem_ids_ofTrip_iff hwf (.inl rfl)).mp hid
    have hget := (Table.mem_facts_iff hwf).mp hf
    rw [hkey] at hget
    cases f with
    | event e => exact ends_reportEvent_steady hu T.id hget (hfacts _ hf htrip)
    | condition c => cases hkey
  refine (ends_listIds_steady hk₂ (.listingConditions T.id) _).bind fun ids s₃ h₃ => ?_
  obtain ⟨hk₃, rfl⟩ := h₃
  refine (Ends.mapM_keeps (fun id hid u hu => ?resolved) hk₃).bind fun _ _ h => Ends.pure h
  case resolved =>
    obtain ⟨f, hf, hkey, htrip⟩ := (Table.mem_ids_ofTrip_iff hwf (.inr rfl)).mp hid
    have hget := (Table.mem_facts_iff hwf).mp hf
    rw [hkey] at hget
    cases f with
    | event e => cases hkey
    | condition c => exact ends_resolveCondition_steady hu hget (hfacts _ hf htrip)

theorem ends_reportTrips_steady (hwf : t.WellFormed) (hk : Knows true t s) {user : String}
    {start stop : Int}
    (hfacts : ∀ T ∈ t.trips, T.span.Touches ⟨user, start, stop⟩ →
      ∀ f ∈ t.facts, f.trip = T.id → f.Reportable t limit) :
    Ends (reportTrips limit user start stop) s (fun _ u => Knows true t u) (fun _ _ => False) := by
  unfold reportTrips
  refine (ends_listIds_steady hk (.listingTripsOf user) _).bind fun ids s₁ h₁ => ?_
  obtain ⟨hk₁, rfl⟩ := h₁
  refine (Ends.mapM_each (J := fun u => Knows true t u)
    (R := fun (_ : String) T => T ∈ t.trips ∧ T.span.Touches ⟨user, start, stop⟩)
    (fun id hid u hu => ?trip) hk₁).bind fun trips s₂ h₂ => ?_
  case trip =>
    obtain ⟨T, hT, rfl, htouches⟩ := (Table.mem_ids_touching_iff hwf).mp hid
    have hget := (Table.mem_trips_iff hwf).mp hT
    refine (ends_fetch_steady (a := T) hu (.gettingTrip T.id) hget).imp fun _ _ h => ?_
    exact ⟨h.2 ▸ ⟨hT, htouches⟩, h.1⟩
  obtain ⟨htrips, -, hk₂⟩ := h₂
  refine Ends.mapM_keeps (fun T hT u hu => ?_) hk₂
  obtain ⟨-, -, hmem, htouches⟩ := htrips T ((sortBy_perm _ _).mem_iff.mp hT)
  exact ends_reportTrip_steady hwf hu (hfacts T hmem htouches)

end Timeline

end DriveLog
