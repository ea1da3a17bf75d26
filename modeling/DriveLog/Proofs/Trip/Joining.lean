import DriveLog.Proofs.Trip.Calls
/-!
The trips that a stretch touches, joined into one. Facts are given from trip to trip and keep all else; once
none is left in the losers, the winner grows and the losers go. Seen record by record, so that each state on
the way is known by what has moved and which losers are left.
-/
set_option autoImplicit false

namespace DriveLog

def Fact.given (origins : List String) (target : String) (f : Fact) : Fact :=
  if f.trip ∈ origins then f.withTrip target else f

def Record.given (origins : List String) (target : String) (r : Record) : Record :=
  match Fact.ofRecord? r with
  | some f => (f.given origins target).toRecord
  | none => r

section given
variable {origins origins' : List String} {target : String} {f : Fact} {r : Record}

theorem Fact.given_toRecord (f : Fact) :
    f.toRecord.given origins target = (f.given origins target).toRecord := by
  have hof : Fact.ofRecord? f.toRecord = some f := Fact.ofRecord?_eq_some_iff.mpr rfl
  simp only [Record.given, hof]

theorem Fact.key_given (f : Fact) : (f.given origins target).toRecord.key = f.toRecord.key := by
  unfold given
  split
  · exact f.key_withTrip target
  · rfl

theorem Fact.user_given (f : Fact) : (f.given origins target).user = f.user := by
  unfold given
  split
  · exact f.user_withTrip target
  · rfl

theorem Record.given_eq_self (h : ∀ f : Fact, r = f.toRecord → f.trip ∉ origins) :
    r.given origins target = r := by
  unfold given
  split
  · rename_i f hf
    rw [Fact.ofRecord?_eq_some_iff] at hf
    rw [Fact.given, if_neg (h f hf), hf]
  · rfl

theorem Record.given_of_kind (h : r.kind = .trip) : r.given origins target = r := by
  refine given_eq_self fun f hf => ?_
  rw [hf] at h
  cases f <;> cases h

theorem Fact.given_cons (f : Fact) : f.given (target :: origins) target = f.given origins target := by
  unfold given
  by_cases htrip : f.trip = target
  · have hself : f.withTrip target = f := by
      rw [← htrip]
      cases f <;> rfl
    rw [hself, ite_self, ite_self]
  · simp only [List.mem_cons, htrip, false_or]

theorem Record.given_cons (r : Record) :
    r.given (target :: origins) target = r.given origins target := by
  simp only [given, Fact.given_cons]

theorem Record.map_given_nil (r : Option Record) : r.map (Record.given [] target) = r := by
  cases r with
  | none => rfl
  | some r => rw [Option.map_some, Record.given_eq_self fun _ _ => List.not_mem_nil]

theorem Fact.given_given (f : Fact) :
    (f.given origins target).given origins' target = f.given (origins' ++ origins) target := by
  have htwice : (f.withTrip target).withTrip target = f.withTrip target := by cases f <;> rfl
  unfold given
  by_cases h : f.trip ∈ origins
  · rw [if_pos h, htwice, ite_self, if_pos (List.mem_append.mpr (.inr h))]
  · simp only [h, if_false, List.mem_append, or_false]

theorem Record.given_given (r : Record) :
    (r.given origins target).given origins' target = r.given (origins' ++ origins) target := by
  cases hr : Fact.ofRecord? r with
  | none => simp only [given, hr]
  | some f =>
    rw [Fact.ofRecord?_eq_some_iff] at hr
    rw [hr, Fact.given_toRecord, Fact.given_toRecord, Fact.given_toRecord, Fact.given_given]

theorem Record.given_congr (h : ∀ id, id ∈ origins ↔ id ∈ origins') :
    r.given origins target = r.given origins' target := by
  simp only [given, Fact.given, h]

end given

namespace Table

def Given (origins : List String) (target : String) (t u : Table) : Prop :=
  ∀ k, u.get? k = t.get? k ∨ u.get? k = (t.get? k).map (Record.given origins target)

/-- What is under a key once the trips `losers` have been merged into `W`. -/
def merged? (t : Table) (losers : List String) (W : Trip) (k : RecordKey) : Option Record :=
  if k.kind = .trip ∧ k.id ∈ losers then none
  else if k = ⟨.trip, W.id⟩ then some (.trip W)
  else (t.get? k).map (Record.given losers W.id)

/-- The trips `losers` have been merged into `W`, but `rest` are still to be deleted. -/
def Merging (losers : List String) (W : Trip) (t : Table) (rest : List String) (u : Table) : Prop :=
  ∀ k, u.get? k = if k.kind = .trip ∧ k.id ∈ rest then t.get? k else t.merged? losers W k

def touched (t : Table) (c : Span) : List String :=
  (t.trips.filter fun T => T.span.Touches c).map Trip.id

/-- What is under a key once the trips that touch a stretch have become `W`. -/
def joined? (t : Table) (c : Span) (W : Trip) (k : RecordKey) : Option Record :=
  if k = ⟨.trip, W.id⟩ then some (.trip W)
  else if k.kind = .trip ∧ k.id ∈ t.touched c then none
  else (t.get? k).map (Record.given (t.touched c) W.id)

/-- The trip for a stretch: a new one over the stretch, if it touches none; else the first of those that it
touches, grown to the outer ends of all. -/
structure Hosts (t : Table) (c : Span) (W : Trip) : Prop where
  user : W.user = c.user
  opened : t.touched c = [] →
    W.start = c.start ∧ W.stop = c.stop ∧ ∀ kind, t.get? ⟨kind, W.id⟩ = none
  grown : t.touched c ≠ [] → (∃ V, t.Leads c V ∧ V.id = W.id) ∧ t.Hull c W.start W.stop

/-- From `t` to `u`, the trips that a stretch touches have become `W`, but those with ids in `rest` are still
to be deleted. -/
structure Joining (t : Table) (c : Span) (W : Trip) (rest : List String) (u : Table) : Prop where
  trip : t.Hosts c W
  chosen : t.touched c ≠ [] → ∃ V, t.Chosen c V ∧ V.id = W.id
  left : ∀ id ∈ rest, id ∈ t.touched c ∧ id ≠ W.id
  stored : ∀ k, u.get? k = if k.kind = .trip ∧ k.id ∈ rest then t.get? k else t.joined? c W k

variable {t u : Table} {origins losers rest : List String} {user target id : String} {c : Span}
  {V W T : Trip} {f : Fact} {a z : Int} {k : RecordKey}

theorem mem_touched : id ∈ t.touched c ↔ ∃ T ∈ t.trips, T.id = id ∧ T.span.Touches c := by
  simp only [touched, List.mem_map, List.mem_filter, decide_eq_true_eq]
  constructor
  · rintro ⟨T, ⟨hT, htouch⟩, rfl⟩
    exact ⟨T, hT, rfl, htouch⟩
  · rintro ⟨T, hT, rfl, htouch⟩
    exact ⟨T, ⟨hT, htouch⟩, rfl⟩

theorem touched_eq_nil_iff : t.touched c = [] ↔ ∀ T ∈ t.trips, ¬ T.span.Touches c := by
  rw [List.eq_nil_iff_forall_not_mem]
  constructor
  · exact fun h T hT htouch => h T.id (mem_touched.mpr ⟨T, hT, rfl, htouch⟩)
  · intro h id hid
    obtain ⟨T, hT, -, htouch⟩ := mem_touched.mp hid
    exact h T hT htouch

theorem joined?_of_ne (hk : k.kind ≠ .trip) :
    t.joined? c W k = (t.get? k).map (Record.given (t.touched c) W.id) := by
  have hkW : k ≠ ⟨.trip, W.id⟩ := fun hkW => hk (congrArg RecordKey.kind hkW)
  rw [joined?, if_neg hkW, if_neg fun hk' => hk hk'.1]

theorem touched_ne_nil (hT : T ∈ t.trips) (htouch : T.span.Touches c) : t.touched c ≠ [] :=
  List.ne_nil_of_mem (mem_touched.mpr ⟨T, hT, rfl, htouch⟩)

theorem map_given_of_trip (hwf : t.WellFormed) (hk : k.kind = .trip) :
    (t.get? k).map (Record.given origins target) = t.get? k := by
  cases hr : t.get? k with
  | none => rfl
  | some r =>
    have hkind : r.kind = .trip := hk ▸ congrArg RecordKey.kind (hwf.key_of_get? hr)
    rw [Option.map_some, Record.given_of_kind hkind]

namespace Given

theorem refl (origins : List String) (target : String) (t : Table) : Given origins target t t :=
  fun _ => .inl rfl

theorem mem_facts (h : Given origins target t u) (ht : t.WellFormed) (hu : u.WellFormed)
    (htarget : target ∉ origins) (hf : f ∈ u.facts) (htrip : f.trip ∈ origins) : f ∈ t.facts := by
  rw [mem_facts_iff hu] at hf
  rw [mem_facts_iff ht]
  rcases h f.toRecord.key with heq | heq
  · exact heq.symm.trans hf
  · obtain ⟨r, hr, hgiven⟩ := Option.map_eq_some_iff.mp (heq.symm.trans hf)
    have hrf : r = f.toRecord := by
      unfold Record.given at hgiven
      split at hgiven
      · rename_i g hg
        obtain rfl := Fact.toRecord_injective hgiven
        rw [Fact.ofRecord?_eq_some_iff] at hg
        by_cases hgtrip : g.trip ∈ origins
        · rw [Fact.given, if_pos hgtrip, Fact.trip_withTrip] at htrip
          exact absurd htrip htarget
        · rw [hg, Fact.given, if_neg hgtrip]
      · exact hgiven
    rw [hr, hrf]

theorem keptByMoves (ht : t.WellFormed) (htarget : target ∉ origins) :
    KeptByMoves user origins target (Given origins target t) := by
  intro u f hu h hf htrip _ k
  have hft := (mem_facts_iff ht).mp (h.mem_facts ht hu htarget hf htrip)
  rw [Fact.key_withTrip, get?_put]
  by_cases hk : f.toRecord.key = k
  · rw [if_pos hk, ← hk, hft, Option.map_some, Fact.given_toRecord, Fact.given, if_pos htrip]
    exact .inr rfl
  · rw [if_neg hk]
    exact h k

theorem complete (h : Given origins target t u) (hu : u.WellFormed)
    (hnone : ∀ f ∈ u.facts, f.trip ∉ origins) (k : RecordKey) :
    u.get? k = (t.get? k).map (Record.given origins target) := by
  rcases h k with heq | heq
  · cases hr : t.get? k with
    | none => exact heq.trans hr
    | some r =>
      have hru := heq.trans hr
      rw [hru, Option.map_some, Record.given_eq_self]
      rintro f rfl
      refine hnone f ((mem_facts_iff hu).mpr ?_)
      rw [hu.key_of_get? hru, hru]
  · exact heq

theorem merging (h : Given losers W.id t u) (ht : t.WellFormed) (hu : u.WellFormed)
    (hnone : ∀ f ∈ u.facts, f.trip ∉ losers) (hW : W.id ∉ losers) :
    Merging losers W t losers (u.put ⟨.trip, W.id⟩ (.trip W)) := by
  intro k
  rw [get?_put]
  by_cases hk : ⟨.trip, W.id⟩ = k
  · subst hk
    simp [merged?, hW]
  · rw [if_neg hk, h.complete hu hnone]
    by_cases hlost : k.kind = .trip ∧ k.id ∈ losers
    · rw [if_pos hlost, map_given_of_trip ht hlost.1]
    · rw [if_neg hlost, merged?, if_neg hlost, if_neg (Ne.symm hk)]

end Given

theorem Merging.drop (h : Merging losers W t (id :: rest) u) (hid : id ∈ losers) (hfresh : id ∉ rest) :
    Merging losers W t rest (u.erase ⟨.trip, id⟩) := by
  intro k
  rw [get?_erase]
  by_cases hk : ⟨.trip, id⟩ = k
  · subst hk
    simp [merged?, hid, hfresh]
  · have hiff : k.kind = .trip ∧ k.id ∈ id :: rest ↔ k.kind = .trip ∧ k.id ∈ rest := by
      refine and_congr_right fun hkind => List.mem_cons.trans (or_iff_right fun hkid => hk ?_)
      rw [← hkind, ← hkid]
    rw [if_neg hk, h k]
    simp only [hiff]

theorem Losers.mem_touched_iff (hl : t.Losers c V losers) (hV : t.Leads c V) :
    id ∈ t.touched c ↔ id ∈ V.id :: losers := by
  rw [mem_touched, List.mem_cons, hl.mem_iff]
  constructor
  · rintro ⟨T, hT, rfl, htouch⟩
    by_cases hid : T.id = V.id
    · exact .inl hid
    · exact .inr ⟨T, hT, rfl, htouch, hid⟩
  · rintro (rfl | ⟨T, hT, rfl, htouch, -⟩)
    · exact ⟨V, hV.mem, rfl, hV.touches⟩
    · exact ⟨T, hT, rfl, htouch⟩

theorem Losers.merged?_eq (hl : t.Losers c V losers) (hV : t.Leads c V) (hid : W.id = V.id)
    (k : RecordKey) : t.merged? losers W k = t.joined? c W k := by
  have htouched : ∀ id, id ∈ t.touched c ↔ id ∈ W.id :: losers := fun id => by
    rw [hid]
    exact hl.mem_touched_iff hV
  unfold merged? joined?
  by_cases hk : k = ⟨.trip, W.id⟩
  · have hstays : ¬ (k.kind = .trip ∧ k.id ∈ losers) := by
      rw [hk, hid]
      exact fun h => hl.not_mem h.2
    rw [if_neg hstays, if_pos hk, if_pos hk]
  · have hiff : k.kind = .trip ∧ k.id ∈ t.touched c ↔ k.kind = .trip ∧ k.id ∈ losers := by
      refine and_congr_right fun hkind => (htouched k.id).trans ?_
      refine List.mem_cons.trans (or_iff_right fun hkid => hk ?_)
      rw [← hkind, ← hkid]
    have hgiven : Record.given (t.touched c) W.id = Record.given losers W.id :=
      funext fun r => (Record.given_congr htouched).trans r.given_cons
    rw [if_neg hk, if_neg hk, hgiven]
    simp only [hiff]

theorem Hosts.of_hull (hV : t.Chosen c V) (hid : V.id = W.id) (hu : W.user = c.user)
    (hh : t.Hull c W.start W.stop) : t.Hosts c W :=
  ⟨hu, fun hnil => absurd hnil (touched_ne_nil hV.mem hV.touches), fun _ => ⟨⟨V, hV.leads, hid⟩, hh⟩⟩

theorem Merging.joining (h : Merging losers W t rest u) (hrest : ∀ id ∈ rest, id ∈ losers)
    (hV : t.Chosen c V) (hl : t.Losers c V losers) (hid : W.id = V.id) (hu : W.user = c.user)
    (hh : t.Hull c W.start W.stop) : t.Joining c W rest u := by
  constructor
  case trip => exact .of_hull hV hid.symm hu hh
  case chosen => exact fun _ => ⟨V, hV, hid.symm⟩
  case left =>
    intro id hmem
    have hlost := hrest id hmem
    refine ⟨(hl.mem_touched_iff hV.leads).mpr (List.mem_cons_of_mem _ hlost), fun hW => hl.not_mem ?_⟩
    rwa [← hid, ← hW]
  case stored =>
    intro k
    rw [h k, hl.merged?_eq hV.leads hid]

theorem Hosts.covers (h : t.Hosts c W) : W.user = c.user ∧ W.start ≤ c.start ∧ c.stop ≤ W.stop := by
  by_cases hnil : t.touched c = []
  · obtain ⟨hstart, hstop, -⟩ := h.opened hnil
    exact ⟨h.user, by omega, by omega⟩
  · obtain ⟨-, hhull⟩ := h.grown hnil
    exact ⟨h.user, hhull.start_le, hhull.le_stop⟩

theorem Hosts.touches (h : t.Hosts c W) (hle : c.start ≤ c.stop) : W.span.Touches c := by
  obtain ⟨hu, hstart, hstop⟩ := h.covers
  refine ⟨hu, ?_, ?_⟩
  · rw [Trip.span_start]
    omega
  · rw [Trip.span_stop]
    omega

theorem Hosts.touches_of_id (h : t.Hosts c W) (ht : t.WellFormed) (hT : T ∈ t.trips)
    (hid : T.id = W.id) : T.span.Touches c := by
  by_cases hnil : t.touched c = []
  · obtain ⟨-, -, hfresh⟩ := h.opened hnil
    rw [mem_trips_iff ht, hid, hfresh] at hT
    cases hT
  · obtain ⟨⟨V, hV, hVW⟩, -⟩ := h.grown hnil
    exact eq_of_trip_id ht hV.mem hT (hVW.trans hid.symm) ▸ hV.touches

namespace Joining

theorem of_joined (htrip : t.Hosts c W) (hchosen : t.touched c ≠ [] → ∃ V, t.Chosen c V ∧ V.id = W.id)
    (h : ∀ k, u.get? k = t.joined? c W k) : t.Joining c W [] u :=
  ⟨htrip, hchosen, by simp, fun k => by rw [h, if_neg fun hk => List.not_mem_nil hk.2]⟩

theorem get?_joined (h : t.Joining c W [] u) (k : RecordKey) : u.get? k = t.joined? c W k := by
  rw [h.stored, if_neg fun hk => List.not_mem_nil hk.2]

theorem opened (hnil : t.touched c = []) (hfresh : ∀ kind, t.get? ⟨kind, id⟩ = none) :
    t.Joining c ⟨id, c.user, c.start, c.stop⟩ []
      (t.put ⟨.trip, id⟩ (.trip ⟨id, c.user, c.start, c.stop⟩)) := by
  refine .of_joined ⟨rfl, fun _ => ⟨rfl, rfl, hfresh⟩, fun h => absurd hnil h⟩
    (fun h => absurd hnil h) fun k => ?_
  have hnone : ¬ (k.kind = .trip ∧ k.id ∈ ([] : List String)) := fun hk => List.not_mem_nil hk.2
  rw [get?_put, joined?, hnil, Record.map_given_nil, if_neg hnone]
  simp only [eq_comm]

theorem self (hT : T ∈ t.trips) (htouch : T.span.Touches c) (hin : c.Within T.span)
    (honly : ∀ S ∈ t.trips, S.span.Touches c → S = T) (ht : t.WellFormed) : t.Joining c T [] t := by
  have hchosen : t.Chosen c T := ⟨hT, htouch, fun S hS hSc hST => absurd (honly S hS hSc) hST⟩
  have htouched : ∀ id, id ∈ t.touched c ↔ id ∈ [T.id] := by
    intro id
    rw [mem_touched, List.mem_singleton]
    constructor
    · rintro ⟨S, hS, rfl, hSc⟩
      rw [honly S hS hSc]
    · rintro rfl
      exact ⟨T, hT, rfl, htouch⟩
  have hhull : t.Hull c T.start T.stop := by
    refine ⟨hin.2.1, hin.2.2, fun S hS hSc => ?_, .inr ⟨T, hT, htouch, rfl⟩, .inr ⟨T, hT, htouch, rfl⟩⟩
    rw [honly S hS hSc]
    exact ⟨Int.le_refl _, Int.le_refl _⟩
  refine .of_joined (.of_hull hchosen rfl htouch.1 hhull) (fun _ => ⟨T, hchosen, rfl⟩) fun k => ?_
  have hgiven : Record.given (t.touched c) T.id = Record.given [] T.id :=
    funext fun r => (Record.given_congr htouched).trans r.given_cons
  rw [joined?, hgiven, Record.map_given_nil]
  by_cases hk : k = ⟨.trip, T.id⟩
  · rw [if_pos hk, hk, (Table.mem_trips_iff ht).mp hT]
  · rw [if_neg hk, if_neg]
    rintro ⟨hkind, hid⟩
    exact hk (by rw [← hkind, ← List.mem_singleton.mp ((htouched _).mp hid)])

theorem get?_winner (h : t.Joining c W rest u) : u.get? ⟨.trip, W.id⟩ = some (.trip W) := by
  have hstays : ¬ (RecordKind.trip = .trip ∧ W.id ∈ rest) := fun hW => (h.left W.id hW.2).2 rfl
  rw [h.stored, if_neg hstays, joined?, if_pos rfl]

theorem get?_of_ne (h : t.Joining c W rest u) (hk : k.kind ≠ .trip) :
    u.get? k = (t.get? k).map (Record.given (t.touched c) W.id) := by
  rw [h.stored, if_neg fun hk' => hk hk'.1, joined?_of_ne hk]

theorem mem_trips_iff (h : t.Joining c W rest u) (ht : t.WellFormed) (hu : u.WellFormed) :
    T ∈ u.trips ↔
      T = W ∨ T.id ≠ W.id ∧ T ∈ t.trips ∧ (T.id ∈ t.touched c → T.id ∈ rest) := by
  by_cases hid : T.id = W.id
  · have hstored := h.get?_winner
    rw [Table.mem_trips_iff hu, hid, hstored]
    simp [eq_comm]
  · have hne : T ≠ W := fun hT => hid (congrArg Trip.id hT)
    have hkW : (⟨.trip, T.id⟩ : RecordKey) ≠ ⟨.trip, W.id⟩ := fun hk => hid (congrArg RecordKey.id hk)
    rw [or_iff_right hne, and_iff_right hid, Table.mem_trips_iff hu, Table.mem_trips_iff ht, h.stored]
    by_cases hrest : T.id ∈ rest
    · simp [hrest]
    · by_cases htouched : T.id ∈ t.touched c
      · simp [joined?, hkW, hrest, htouched]
      · simp [joined?, hkW, hrest, htouched, map_given_of_trip ht]

theorem mem_trips_joined_iff (h : t.Joining c W [] u) (ht : t.WellFormed) (hu : u.WellFormed) :
    T ∈ u.trips ↔ T = W ∨ T.id ≠ W.id ∧ T ∈ t.trips ∧ ¬ T.span.Touches c := by
  rw [h.mem_trips_iff ht hu]
  refine or_congr_right (and_congr_right fun _ => and_congr_right fun hT => ?_)
  refine ⟨fun hleft htouch => List.not_mem_nil (hleft (mem_touched.mpr ⟨T, hT, rfl, htouch⟩)),
    fun hfree htouched => absurd ?_ hfree⟩
  obtain ⟨S, hS, hid, htouch⟩ := mem_touched.mp htouched
  exact eq_of_trip_id ht hS hT hid ▸ htouch

theorem mem_facts_iff (h : t.Joining c W rest u) (ht : t.WellFormed) (hu : u.WellFormed) :
    f ∈ u.facts ↔ ∃ g ∈ t.facts, f = g.given (t.touched c) W.id := by
  have hkey : f.toRecord.key.kind ≠ .trip := by
    rcases f.kind_toRecord with hkind | hkind <;> simp [Record.key, hkind]
  rw [Table.mem_facts_iff hu, h.get?_of_ne hkey, Option.map_eq_some_iff]
  constructor
  · rintro ⟨r, hr, hgiven⟩
    have hrkind : r.kind = f.toRecord.kind := congrArg RecordKey.kind (ht.key_of_get? hr)
    obtain ⟨g, rfl⟩ := Fact.exists_of_kind (hrkind ▸ f.kind_toRecord)
    refine ⟨g, (Table.mem_facts_iff ht).mpr (by rwa [ht.key_of_get? hr]), ?_⟩
    rw [Fact.given_toRecord] at hgiven
    exact (Fact.toRecord_injective hgiven).symm
  · rintro ⟨g, hg, rfl⟩
    rw [Fact.key_given]
    exact ⟨g.toRecord, (Table.mem_facts_iff ht).mp hg, Fact.given_toRecord g⟩

end Joining

end Table

end DriveLog
