import DriveLog.Proofs.Store.Law
import DriveLog.Proofs.Trip.Touching
set_option autoImplicit false

namespace DriveLog

def ConsolidationError.IsInjected (e : ConsolidationError) : Prop :=
  ∃ step error, e = .storage step error ∧ error.IsInjected

def Fact.record {σ : Type} [RecordStore σ] : Fact → ConsolidationM σ Fact
  | .event e => .event <$> Consolidation.recordEvent e
  | .condition c => .condition <$> Consolidation.recordCondition c

def Fact.place {σ : Type} [RecordStore σ] : Fact → ConsolidationM σ String
  | .event e => Consolidation.tripAt e.user e.time
  | .condition c => do
    let touched ← Consolidation.overlappingTrips c.user c.start c.stop
    Consolidation.tripOver c touched

def Fact.create {σ : Type} [RecordStore σ] : Fact → ConsolidationM σ Fact
  | .event e => .event <$> Consolidation.during .creatingEvent (StoreM.persist e)
  | .condition c => .condition <$> Consolidation.during .creatingCondition (StoreM.persist c)

theorem Fact.record_eq {σ : Type} [RecordStore σ] (f : Fact) :
    f.record (σ := σ) = f.place >>= fun trip => (f.withTrip trip).create := by
  cases f with
  | event e => simp only [record, place, create, withTrip, Consolidation.recordEvent, map_bind]
  | condition c =>
    simp only [record, place, create, withTrip, Consolidation.recordCondition, map_bind, bind_assoc]

namespace Table

structure IdsOf (t : Table) (kind : RecordKind) (trip : String) (rest : List String) : Prop where
  nodup : rest.Nodup
  mem_iff : ∀ id, id ∈ rest ↔ ∃ f ∈ t.facts, f.toRecord.key = ⟨kind, id⟩ ∧ f.trip = trip

def Shared (user : String) (origins : List String) (t : Table) : Prop :=
  ∃ f ∈ t.facts, f.trip ∈ origins ∧ f.user ≠ user

def KeptByMoves (user : String) (origins : List String) (target : String) (J : Table → Prop) : Prop :=
  ∀ t f, t.WellFormed → J t → f ∈ t.facts → f.trip ∈ origins → f.user = user →
    J (t.put (f.withTrip target).toRecord.key (f.withTrip target).toRecord)

section moves
variable {t : Table} {kind : RecordKind} {user id trip target : String} {origins rest : List String}
  {f : Fact} {J K : Table → Prop}

theorem idsOf_ids (hwf : t.WellFormed) (hkind : kind = .event ∨ kind = .drivingCondition) :
    t.IdsOf kind trip (t.ids kind [.ofTrip trip]) :=
  ⟨nodup_ids hwf _ _, fun _ => mem_ids_ofTrip_iff hwf hkind⟩

theorem IdsOf.move (h : t.IdsOf kind trip (id :: rest)) (hwf : t.WellFormed)
    (hkey : f.toRecord.key = ⟨kind, id⟩) (hne : trip ≠ target) :
    (t.put (f.withTrip target).toRecord.key (f.withTrip target).toRecord).IdsOf kind trip rest := by
  obtain ⟨hfresh, hnodup⟩ := List.nodup_cons.mp h.nodup
  have hfacts : ∀ g, g ∈ (t.put (f.withTrip target).toRecord.key
      (f.withTrip target).toRecord).facts ↔
        g = f.withTrip target ∨ (⟨kind, id⟩ : RecordKey) ≠ g.toRecord.key ∧ g ∈ t.facts :=
    fun g => by rw [mem_facts_put_fact hwf, Fact.key_withTrip, hkey]
  refine ⟨hnodup, fun id' => ?_⟩
  simp only [hfacts]
  constructor
  · intro hid'
    obtain ⟨g, hg, hgkey, hgtrip⟩ := (h.mem_iff id').mp (by simp [hid'])
    refine ⟨g, .inr ⟨fun hsame => ?_, hg⟩, hgkey, hgtrip⟩
    have hid : id = id' := congrArg RecordKey.id (hsame.trans hgkey)
    exact hfresh (hid ▸ hid')
  · rintro ⟨g, rfl | ⟨hgne, hg⟩, hgkey, hgtrip⟩
    · exact absurd (hgtrip.symm.trans (Fact.trip_withTrip _ _)) hne
    · have hmem := (h.mem_iff id').mpr ⟨g, hg, hgkey, hgtrip⟩
      rcases List.mem_cons.mp hmem with rfl | hmem
      · exact absurd hgkey.symm hgne
      · exact hmem

theorem IdsOf.trip_ne (h : t.IdsOf kind trip []) (hf : f ∈ t.facts)
    (hkind : f.toRecord.kind = kind) : f.trip ≠ trip := by
  intro htrip
  have hmem := (h.mem_iff f.toRecord.id).mpr ⟨f, hf, by rw [Record.key, hkind], htrip⟩
  simp at hmem

theorem KeptByMoves.and (hJ : KeptByMoves user origins target J)
    (hK : KeptByMoves user origins target K) :
    KeptByMoves user origins target fun t => J t ∧ K t :=
  fun t f hwf h hf htrip hu => ⟨hJ t f hwf h.1 hf htrip hu, hK t f hwf h.2 hf htrip hu⟩

theorem keptByMoves_forall {P : Fact → Prop} (hP : ∀ f : Fact, P (f.withTrip target)) :
    KeptByMoves user origins target fun t => ∀ f ∈ t.facts, P f := by
  intro t f hwf h hf htrip hu g hg
  rcases (mem_facts_put_fact hwf).mp hg with rfl | ⟨-, hg⟩
  · exact hP f
  · exact h g hg

theorem keptByMoves_trips : KeptByMoves user origins target fun u =>
    ∀ id, u.get? ⟨.trip, id⟩ = t.get? ⟨.trip, id⟩ := by
  intro u f hwf h hf htrip hu id
  rw [← h id]
  refine get?_put_of_ne ?_ _ _
  cases f <;> simp [Fact.withTrip, Fact.toRecord, Record.key, Record.kind]

end moves
end Table

namespace Consolidation
variable {σ : Type} [RecordStore σ] [LawfulStore σ] {b : Bool} {s : σ} {J J' R R' : Table → Prop}
  {user : String} {start stop : Int}
open LawfulStore (table Ready)
open Table (KeptByMoves Shared)

/-- A call has ended early on a table with `J`, by a failure of the store or because the table has `R`. -/
def Halts (steady : Bool) (J R : Table → Prop) (e : ConsolidationError) (s : σ) : Prop :=
  Ready steady s ∧ J (table s) ∧ (e.IsInjected ∧ steady = false ∨ R (table s))

theorem Halts.mono {e : ConsolidationError} (h : Halts b J R e s) (hJ : ∀ t, J t → J' t)
    (hR : ∀ t, t.WellFormed → J t → R t → R' t) : Halts b J' R' e s :=
  ⟨h.1, hJ _ h.2.1, h.2.2.imp_right (hR _ (LawfulStore.wellFormed h.1) h.2.1)⟩

theorem ends_during {α : Type} {act : StoreM σ α} {Q : α → σ → Prop} {step : Step} (hs : J (table s))
    (h : Ends act s Q (Refused table Ready b s)) : Ends (during step act) s Q (Halts b J R) := by
  refine h.adaptExcept fun e t he => ?_
  obtain ⟨hready, htable, hinjected, hb⟩ := he
  exact ⟨hready, htable ▸ hs, .inl ⟨⟨step, e, rfl, hinjected⟩, hb⟩⟩

theorem ends_overlappingTrips (h : Ready b s) (hs : J (table s)) :
    Ends (overlappingTrips user start stop) s
      (fun ids t => Ready b t ∧ table t = table s ∧
        ids = (table s).ids .trip (Predicate.touching user start stop)) (Halts b J R) :=
  ends_during hs (StoreM.ends_listIds h _)

theorem ends_getTrip {T : Trip} (h : Ready b s) (hs : J (table s)) (hT : T ∈ (table s).trips)
    (hu : T.user = user) :
    Ends (getTrip user T.id) s (fun T' t => Ready b t ∧ table t = table s ∧ T' = T) (Halts b J R) := by
  have hget := (Table.mem_trips_iff (LawfulStore.wellFormed h)).mp hT
  unfold getTrip
  refine (ends_during hs (StoreM.ends_fetch (a := T) h hget)).bind fun _ t ht => ?_
  obtain ⟨hready, htable, rfl⟩ := ht
  rw [if_neg (not_not_intro hu)]
  exact Ends.pure ⟨hready, htable, rfl⟩

theorem ends_getTrips (h : Ready b s) (hs : J (table s)) :
    Ends (((table s).ids .trip (Predicate.touching user start stop)).mapM (getTrip user)) s
      (fun trips t => Ready b t ∧ table t = table s ∧ Touching (table s) ⟨user, start, stop⟩ trips ∧
        trips.Pairwise fun S T => S.id < T.id) (Halts b J R) := by
  have hwf := LawfulStore.wellFormed h
  have hloop := Ends.mapM_forall₂ (f := getTrip (σ := σ) user) (E := Halts b J R)
    (J := fun t => Ready b t ∧ table t = table s) (R := fun id T => id = T.id ∧ T ∈ (table s).trips)
    (l := (table s).ids .trip (Predicate.touching user start stop)) (s := s) ?step ⟨h, rfl⟩
  case step =>
    intro id hid t ⟨ht, htable⟩
    obtain ⟨T, hT, rfl, htouch⟩ := (Table.mem_ids_touching_iff hwf).mp hid
    have hu : T.user = user := htouch.1
    refine (ends_getTrip ht (htable ▸ hs) (htable ▸ hT) hu).imp fun T' u hread => ?_
    obtain ⟨hready, htable', rfl⟩ := hread
    exact ⟨⟨rfl, hT⟩, hready, htable'.trans htable⟩
  refine hloop.imp fun trips t ht => ⟨ht.2.1, ht.2.2, Touching.of_ids hwf ht.1, ?_⟩
  rw [← List.pairwise_map, Touching.map_id_of_ids (c := ⟨user, start, stop⟩) ht.1]
  exact Table.pairwise_ids hwf _ _

theorem ids_touching_eq_nil_iff {t : Table} (hwf : t.WellFormed) :
    t.ids .trip (Predicate.touching user start stop) = [] ↔
      ∀ T ∈ t.trips, ¬ T.span.Touches ⟨user, start, stop⟩ := by
  rw [List.eq_nil_iff_forall_not_mem]
  constructor
  · intro h T hT htouch
    exact h T.id ((Table.mem_ids_touching_iff hwf).mpr ⟨T, hT, rfl, htouch⟩)
  · intro h id hid
    obtain ⟨T, hT, -, htouch⟩ := (Table.mem_ids_touching_iff hwf).mp hid
    exact h T hT htouch

theorem ends_openTrip (h : Ready b s) (hs : J (table s))
    (hfree : ∀ T ∈ (table s).trips, ¬ T.span.Touches ⟨user, start, stop⟩) :
    Ends (openTrip user start stop) s
      (fun id t => Ready b t ∧ (∀ kind, (table s).get? ⟨kind, id⟩ = none) ∧
        table t = (table s).put ⟨.trip, id⟩ (.trip { id, user, start, stop })) (Halts b J R) := by
  unfold openTrip
  refine (ends_overlappingTrips h hs).bind fun ids t₁ ht₁ => ?_
  obtain ⟨h₁, htable₁, rfl⟩ := ht₁
  rw [← htable₁] at hs hfree ⊢
  rw [if_neg (not_not_intro ((ids_touching_eq_nil_iff (LawfulStore.wellFormed h₁)).mpr hfree))]
  refine (ends_during hs (StoreM.ends_persist h₁ _)).bind fun W t ht => Ends.pure ?_
  obtain ⟨hready, id, hrecord, htable, hfresh⟩ := ht
  obtain rfl : W = { id := id, user, start, stop } := by
    simpa [Stored.toRecord, Record.withId] using hrecord
  exact ⟨hready, hfresh, htable⟩

theorem ends_change {α : Type} [Stored α] [Stored.Lawful α] (h : Ready b s) (hs : J (table s)) {x : α}
    {id : String} {fetching putting : Step} {owner : α → String} {fault : α → TripFault}
    {change : α → α} (hget : (table s).get? ⟨Stored.kind α, id⟩ = some (Stored.toRecord x))
    (hkey : (Stored.toRecord (change x)).key = ⟨Stored.kind α, id⟩)
    (hR : owner x ≠ user → R (table s)) :
    Ends (do
        let y ← during fetching (StoreM.fetch α id)
        if owner y ≠ user then throw (.badState (fault y))
        during putting (StoreM.put (change y))) s
      (fun _ t => owner x = user ∧ Ready b t ∧
        table t = (table s).put (Stored.toRecord (change x)).key (Stored.toRecord (change x)))
      (Halts b J R) := by
  refine (ends_during hs (StoreM.ends_fetch h hget)).bind fun y t ht => ?_
  obtain ⟨hready, htable, rfl⟩ := ht
  rw [← htable] at hs hget hR ⊢
  by_cases hu : owner y = user
  · rw [if_neg (not_not_intro hu)]
    refine (ends_during hs (StoreM.ends_put hready ?_)).imp fun _ u hput => ⟨hu, hput⟩
    rw [hkey, hget]
    exact Option.some_ne_none _
  · rw [if_pos hu]
    exact Ends.throw_bind ⟨hready, hs, .inr (hR hu)⟩

section moves
variable {origins : List String} {origin target : String}

def Moves (user : String) (origins : List String) (target : String) (J : Table → Prop) (b : Bool)
    (f : Fact) (s : σ) (move : ConsolidationM σ Unit) : Prop :=
  Ends move s
    (fun _ t => f.user = user ∧ Ready b t ∧
      table t = (table s).put (f.withTrip target).toRecord.key (f.withTrip target).toRecord)
    (Halts b J (Shared user origins))

theorem moves_event (h : Ready b s) (hs : J (table s)) {e : Event} (he : .event e ∈ (table s).facts)
    (htrip : e.trip ∈ origins) :
    Moves user origins target J b (.event e) s (moveEvent user origin target e.id) :=
  ends_change h hs ((Table.mem_facts_iff (LawfulStore.wellFormed h)).mp he) rfl
    fun hu => ⟨.event e, he, htrip, hu⟩

theorem moves_condition (h : Ready b s) (hs : J (table s)) {d : DrivingCondition}
    (hd : .condition d ∈ (table s).facts) (htrip : d.trip ∈ origins) :
    Moves user origins target J b (.condition d) s (moveCondition user origin target d.id) :=
  ends_change h hs ((Table.mem_facts_iff (LawfulStore.wellFormed h)).mp hd) rfl
    fun hu => ⟨.condition d, hd, htrip, hu⟩

/-- Moving the facts of one kind out of a trip, one after the other. -/
theorem ends_moveAll {kind : RecordKind} (hkind : kind = .event ∨ kind = .drivingCondition)
    {move : String → ConsolidationM σ Unit} (horigin : origin ∈ origins) (htarget : target ∉ origins)
    (hJ : KeptByMoves user origins target J)
    (hmove : ∀ s : σ, Ready b s → J (table s) → ∀ f ∈ (table s).facts, f.trip ∈ origins → ∀ id,
      f.toRecord.key = ⟨kind, id⟩ → Moves user origins target J b f s (move id))
    (h : Ready b s) (hs : J (table s)) :
    Ends (((table s).ids kind [.ofTrip origin]).forM move) s
      (fun _ t => Ready b t ∧ J (table t) ∧
        ∀ f ∈ (table t).facts, f.toRecord.kind = kind → f.trip ≠ origin)
      (Halts b J (Shared user origins)) := by
  -- the ids still to come are those of the facts that are still there
  have hloop := Ends.forM
    (I := fun rest t => Ready b t ∧ J (table t) ∧ (table t).IdsOf kind origin rest)
    (f := move) (E := Halts b J (Shared user origins)) (l := (table s).ids kind [.ofTrip origin])
    (s := s) ?step ⟨h, hs, Table.idsOf_ids (LawfulStore.wellFormed h) hkind⟩
  case step =>
    intro id rest t ⟨ht, hJt, hrest⟩
    have hwf := LawfulStore.wellFormed ht
    obtain ⟨f, hf, hkey, rfl⟩ := (hrest.mem_iff id).mp (by simp)
    refine (hmove t ht hJt f hf horigin id hkey).imp fun _ u hu => ?_
    obtain ⟨huser, hready, htable⟩ := hu
    rw [htable]
    refine ⟨hready, hJ _ f hwf hJt hf horigin huser, hrest.move hwf hkey fun hsame => ?_⟩
    exact htarget (hsame ▸ horigin)
  refine hloop.imp fun _ t ht => ?_
  exact ⟨ht.1, ht.2.1, fun f hf hkind => ht.2.2.trip_ne hf hkind⟩

theorem ends_moveFacts (horigin : origin ∈ origins) (htarget : target ∉ origins)
    (hJ : KeptByMoves user origins target J) (h : Ready b s) (hs : J (table s)) :
    Ends (moveFacts user origin target) s
      (fun _ t => Ready b t ∧ J (table t) ∧ ∀ f ∈ (table t).facts, f.trip ≠ origin)
      (Halts b J (Shared user origins)) := by
  have hne : target ≠ origin := fun hsame => htarget (hsame ▸ horigin)
  -- no event comes back while the conditions are moved
  have hJ' := hJ.and (Table.keptByMoves_forall
    (P := fun f => f.toRecord.kind = .event → f.trip ≠ origin)
    fun f _ => by rwa [Fact.trip_withTrip])
  unfold moveFacts
  refine (ends_during hs (StoreM.ends_listIds h _)).bind fun events t₁ ht₁ => ?_
  obtain ⟨h₁, htable₁, rfl⟩ := ht₁
  rw [← htable₁] at hs ⊢
  refine (ends_moveAll (.inl rfl) horigin htarget hJ ?_ h₁ hs).bind fun _ t₂ ht₂ => ?_
  · intro s h hs f hf htrip id hkey
    cases f with
    | event e =>
      obtain rfl : e.id = id := congrArg RecordKey.id hkey
      exact moves_event h hs hf htrip
    | condition d => simp [Record.key, Record.kind, Fact.toRecord] at hkey
  obtain ⟨h₂, hJ₂, hnone₂⟩ := ht₂
  refine (ends_during hJ₂ (StoreM.ends_listIds h₂ _)).bind fun conditions t₃ ht₃ => ?_
  obtain ⟨h₃, htable₃, rfl⟩ := ht₃
  rw [← htable₃] at hJ₂ hnone₂ ⊢
  refine (ends_moveAll (.inr rfl) horigin htarget hJ' ?_ h₃ ⟨hJ₂, hnone₂⟩).mono (fun _ t₄ ht₄ => ?_)
    fun _ _ he => he.mono (fun _ => And.left) fun _ _ _ hR => hR
  · intro s h hs f hf htrip id hkey
    cases f with
    | event e => simp [Record.key, Record.kind, Fact.toRecord] at hkey
    | condition d =>
      obtain rfl : d.id = id := congrArg RecordKey.id hkey
      exact moves_condition h hs hf htrip
  obtain ⟨h₄, ⟨hJ₄, hevents⟩, hconditions⟩ := ht₄
  refine ⟨h₄, hJ₄, fun f hf => ?_⟩
  cases f with
  | event e => exact hevents _ hf rfl
  | condition d => exact hconditions _ hf rfl

theorem ends_emptyLosers (htarget : target ∉ origins) (hJ : KeptByMoves user origins target J)
    (h : Ready b s) (hs : J (table s)) :
    Ends (origins.forM fun origin => moveFacts user origin target) s
      (fun _ t => Ready b t ∧ J (table t) ∧ ∀ f ∈ (table t).facts, f.trip ∉ origins)
      (Halts b J (Shared user origins)) := by
  have hloop := Ends.forM
    (I := fun rest t => Ready b t ∧ J (table t) ∧ (∀ id ∈ rest, id ∈ origins) ∧
      ∀ f ∈ (table t).facts, f.trip ∈ origins → f.trip ∈ rest)
    (f := fun origin => moveFacts user origin target) (E := Halts b J (Shared user origins))
    (l := origins) (s := s) ?step ⟨h, hs, fun _ hid => hid, fun _ _ htrip => htrip⟩
  case step =>
    intro id rest t ⟨ht, hJt, hsub, hrest⟩
    have hJ' := hJ.and (Table.keptByMoves_forall
      (P := fun f => f.trip ∈ origins → f.trip ∈ id :: rest)
      fun f htrip => absurd (by rwa [Fact.trip_withTrip] at htrip) htarget)
    refine (ends_moveFacts (hsub id (by simp)) htarget hJ' ht ⟨hJt, hrest⟩).mono (fun _ u hu => ?_)
      fun _ _ he => he.mono (fun _ => And.left) fun _ _ _ hR => hR
    obtain ⟨hready, ⟨hJu, hrest⟩, hnone⟩ := hu
    refine ⟨hready, hJu, fun id hid => hsub id (by simp [hid]), fun f hf htrip => ?_⟩
    exact (List.mem_cons.mp (hrest f hf htrip)).resolve_left (hnone f hf)
  refine hloop.imp fun _ t ht => ?_
  obtain ⟨ht, hJt, -, hrest⟩ := ht
  exact ⟨ht, hJt, fun f hf htrip => by simpa using hrest f hf htrip⟩

end moves

section merge
variable {K : List String → Table → Prop} {losers : List String} {winner : String} {a z : Int}

theorem ends_dropLosers (hnodup : losers.Nodup)
    (hdrop : ∀ t id rest, t.WellFormed → id ∈ losers → id ∉ rest → K (id :: rest) t →
      K rest (t.erase ⟨.trip, id⟩))
    (hthere : ∀ id ∈ losers, (table s).get? ⟨.trip, id⟩ ≠ none) (h : Ready b s)
    (hs : K losers (table s)) :
    Ends (losers.forM fun loser => during (.deletingTrip loser) (StoreM.erase Trip loser)) s
      (fun _ t => Ready b t ∧ K [] (table t)) (Halts b (fun t => ∃ rest, K rest t) R) := by
  have hloop := Ends.forM
    (I := fun rest t => Ready b t ∧ K rest (table t) ∧ rest.Nodup ∧
      ∀ id ∈ rest, id ∈ losers ∧ (table t).get? ⟨.trip, id⟩ ≠ none)
    (f := fun loser => during (.deletingTrip loser) (StoreM.erase (σ := σ) Trip loser))
    (E := Halts b (fun t => ∃ rest, K rest t) R) (l := losers) (s := s) ?step
    ⟨h, hs, hnodup, fun id hid => ⟨hid, hthere id hid⟩⟩
  case step =>
    intro id rest t ⟨ht, hK, hnodup, hrest⟩
    obtain ⟨hfresh, hnodup⟩ := List.nodup_cons.mp hnodup
    obtain ⟨hid, hget⟩ := hrest id (by simp)
    refine (ends_during ⟨_, hK⟩ (StoreM.ends_erase (α := Trip) ht hget)).imp fun _ u hu => ?_
    obtain ⟨hready, htable⟩ := hu
    rw [htable]
    refine ⟨hready, hdrop _ id rest (LawfulStore.wellFormed ht) hid hfresh hK, hnodup, fun id' hid' => ?_⟩
    obtain ⟨hmem, hget'⟩ := hrest id' (by simp [hid'])
    refine ⟨hmem, ?_⟩
    have hne : id ≠ id' := fun hsame => hfresh (hsame ▸ hid')
    rwa [Table.get?_erase_of_ne fun hkey => hne (congrArg RecordKey.id hkey)]
  exact hloop.imp fun _ t ht => ⟨ht.1, ht.2.1⟩

theorem ends_merge (hnodup : losers.Nodup) (hwinner : winner ∉ losers)
    (hmove : KeptByMoves user losers winner J)
    (hwiden : ∀ t, t.WellFormed → J t → (∀ f ∈ t.facts, f.trip ∉ losers) →
      K losers (t.put ⟨.trip, winner⟩ (.trip ⟨winner, user, a, z⟩)))
    (hdrop : ∀ t id rest, t.WellFormed → id ∈ losers → id ∉ rest → K (id :: rest) t →
      K rest (t.erase ⟨.trip, id⟩))
    (hthere : ∀ id ∈ winner :: losers, (table s).get? ⟨.trip, id⟩ ≠ none) (h : Ready b s)
    (hs : J (table s)) :
    Ends (merge user winner losers a z) s (fun _ t => Ready b t ∧ K [] (table t))
      (Halts b (fun t => J t ∨ ∃ rest, K rest t) fun t => J t ∧ Shared user losers t) := by
  have hmove' := hmove.and (Table.keptByMoves_trips (t := table s))
  unfold merge
  refine ((ends_emptyLosers hwinner hmove' h ⟨hs, fun _ => rfl⟩).mono (fun _ _ ha => ha)
    fun _ _ he => he.mono (fun _ ht => .inl ht.1) fun _ _ ht hR => ⟨ht.1, hR⟩).bind fun _ t₁ ht₁ => ?_
  obtain ⟨h₁, ⟨hJ₁, htrips₁⟩, hnone₁⟩ := ht₁
  have hget₁ : ∀ id ∈ winner :: losers, (table t₁).get? ⟨.trip, id⟩ ≠ none := fun id hid =>
    htrips₁ id ▸ hthere id hid
  have hput := StoreM.ends_put (a := ({ id := winner, user, start := a, stop := z } : Trip)) h₁
    (hget₁ winner (by simp))
  refine (ends_during (.inl hJ₁) hput).bind fun _ t₂ ht₂ => ?_
  obtain ⟨h₂, htable₂⟩ := ht₂
  have hK₂ := hwiden _ (LawfulStore.wellFormed h₁) hJ₁ hnone₁
  refine (ends_dropLosers hnodup hdrop (fun id hid => ?_) h₂ (htable₂ ▸ hK₂)).mono (fun _ _ ht => ht)
    fun _ _ he => he.mono (fun _ ht => .inr ht) fun _ _ _ hR => hR
  have hne : winner ≠ id := fun hsame => hwinner (hsame ▸ hid)
  rw [htable₂, Table.get?_put_of_ne fun hkey => hne (congrArg RecordKey.id hkey)]
  exact hget₁ id (by simp [hid])

end merge

section record
variable {f : Fact} {P : String → Table → Prop} {E : ConsolidationError → σ → Prop}

def Adds (steady : Bool) (P : String → Table → Prop) (f g : Fact) (s : σ) : Prop :=
  Ready steady s ∧ ∃ trip t id, P trip t ∧ g = (f.withTrip trip).withId id ∧
    (∀ kind, t.get? ⟨kind, id⟩ = none) ∧ table s = t.put g.toRecord.key g.toRecord

theorem ends_persistFact {α : Type} [Stored α] [Stored.Lawful α] {a : α} (wrap : α → Fact)
    (hwrap : ∀ a, (wrap a).toRecord = Stored.toRecord a) (ha : f = wrap a) (step : Step) (h : Ready b s) :
    Ends (wrap <$> during step (StoreM.persist a)) s
      (fun g t => Ready b t ∧ ∃ id, g = f.withId id ∧ (∀ kind, (table s).get? ⟨kind, id⟩ = none) ∧
        table t = (table s).put g.toRecord.key g.toRecord)
      (Halts b (fun u => u = table s) R) := by
  refine Ends.map (ends_during rfl (StoreM.ends_persist h a)) fun a' t ht => ?_
  obtain ⟨hready, id, hrecord, htable, hfresh⟩ := ht
  rw [← hwrap a'] at htable
  refine ⟨hready, id, Fact.toRecord_injective ?_, hfresh, htable⟩
  rw [hwrap, hrecord, ← hwrap, ha]
  cases wrap a <;> rfl

theorem ends_create (h : Ready b s) :
    Ends f.create s
      (fun g t => Ready b t ∧ ∃ id, g = f.withId id ∧ (∀ kind, (table s).get? ⟨kind, id⟩ = none) ∧
        table t = (table s).put g.toRecord.key g.toRecord)
      (Halts b (fun u => u = table s) R) := by
  cases f with
  | event e => exact ends_persistFact Fact.event (fun _ => rfl) rfl _ h
  | condition c => exact ends_persistFact Fact.condition (fun _ => rfl) rfl _ h

theorem ends_record_of_place (hplace : Ends f.place s (fun trip t => Ready b t ∧ P trip (table t)) E)
    (hstop : ∀ trip e t, Halts b (P trip) R e t → E e t) :
    Ends f.record s (fun g t => Adds b P f g t) E := by
  rw [Fact.record_eq]
  refine hplace.bind fun trip t ht => ?_
  obtain ⟨hready, hP⟩ := ht
  refine (ends_create hready).mono (fun g u hu => ?_) fun e u he =>
    hstop trip e u (he.mono (fun _ heq => heq ▸ hP) fun _ _ _ hR => hR)
  obtain ⟨hreadyu, id, hg, hfresh, htable⟩ := hu
  exact ⟨hreadyu, trip, table t, id, hP, hg, hfresh, htable⟩

end record

end Consolidation

end DriveLog
