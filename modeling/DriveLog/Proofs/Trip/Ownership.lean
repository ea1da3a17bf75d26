import DriveLog.Proofs.Trip.Attempt
set_option autoImplicit false

namespace DriveLog
open LawfulStore (table Ready)

def Record.logger? : Record → Option String
  | .trip T => some T.user
  | .event e => some e.user
  | .drivingCondition c => some c.user
  | _ => none

theorem Fact.logger?_toRecord (f : Fact) : f.toRecord.logger? = some f.user := by cases f <;> rfl

namespace Table

def LoggedFor (t : Table) (user : String) (k : RecordKey) : Prop :=
  ∀ r, t.get? k = some r → r.logger? = some user

/-- From `t` to `u` only what is logged for the user has changed. -/
def ChangedFor (user : String) (t u : Table) : Prop :=
  ∀ k, u.get? k = t.get? k ∨ t.LoggedFor user k ∧ u.LoggedFor user k

/-- From `t` to `u` all that is not logged for the user is as it was, and whatever has come or gone is. -/
structure Isolates (user : String) (t u : Table) : Prop where
  kept : ∀ k r, t.get? k = some r → r.logger? ≠ some user → u.get? k = some r
  came : ∀ k r, u.get? k = some r → t.get? k ≠ some r → r.logger? = some user
  went : ∀ k r, t.get? k = some r → u.get? k ≠ some r → r.logger? = some user

variable {t u v : Table} {user target : String} {origins losers : List String} {k : RecordKey}
  {r : Record} {W : Trip} {a z : Int}

theorem loggedFor_of_get? (h : t.get? k = some r) (hr : r.logger? = some user) : t.LoggedFor user k := by
  intro r' hr'
  obtain rfl := Option.some.inj (h.symm.trans hr')
  exact hr

theorem loggedFor_of_none (h : t.get? k = none) : t.LoggedFor user k := by
  intro r hr
  rw [h] at hr
  cases hr

theorem loggedFor_trip (hwf : t.WellFormed) (hW : W ∈ t.trips) (hu : W.user = user) :
    t.LoggedFor user ⟨.trip, W.id⟩ :=
  loggedFor_of_get? ((mem_trips_iff hwf).mp hW) (congrArg some hu)

theorem LoggedFor.congr (h : t.LoggedFor user k) (heq : u.get? k = t.get? k) : u.LoggedFor user k :=
  fun r hr => h r (heq ▸ hr)

namespace ChangedFor

theorem refl (user : String) (t : Table) : ChangedFor user t t := fun _ => .inl rfl

theorem loggedFor (h : ChangedFor user t u) (hk : t.LoggedFor user k) : u.LoggedFor user k := by
  rcases h k with heq | ⟨-, hu⟩
  · exact hk.congr heq
  · exact hu

theorem trans (h : ChangedFor user t u) (h' : ChangedFor user u v) : ChangedFor user t v := by
  intro k
  rcases h' k with hvu | ⟨hu, hv⟩
  · rcases h k with hut | ⟨ht, hu⟩
    · exact .inl (hvu.trans hut)
    · exact .inr ⟨ht, hu.congr hvu⟩
  · rcases h k with hut | ⟨ht, -⟩
    · exact .inr ⟨hu.congr hut.symm, hv⟩
    · exact .inr ⟨ht, hv⟩

theorem put (hk : t.LoggedFor user k) (hr : r.logger? = some user) : ChangedFor user t (t.put k r) := by
  intro l
  by_cases hl : k = l
  · subst hl
    exact .inr ⟨hk, loggedFor_of_get? (get?_put_self k r t) hr⟩
  · exact .inl (get?_put_of_ne hl r t)

theorem erase (hk : t.LoggedFor user k) : ChangedFor user t (t.erase k) := by
  intro l
  by_cases hl : k = l
  · subst hl
    exact .inr ⟨hk, loggedFor_of_none (get?_erase_self t k)⟩
  · exact .inl (get?_erase_of_ne hl t)

theorem keptByMoves : KeptByMoves user origins target (ChangedFor user t) := by
  intro u f hwf h hf htrip hu
  refine h.trans (put ?_ ?_)
  · rw [Fact.key_withTrip]
    exact loggedFor_of_get? ((mem_facts_iff hwf).mp hf) (hu ▸ f.logger?_toRecord)
  · rw [Fact.logger?_toRecord, Fact.user_withTrip, hu]

theorem isolates (h : ChangedFor user t u) : t.Isolates user u := by
  constructor
  case kept =>
    intro k r hr hother
    rcases h k with heq | ⟨ht, -⟩
    · exact heq.trans hr
    · exact absurd (ht r hr) hother
  case came =>
    intro k r hr hnew
    rcases h k with heq | ⟨-, hu⟩
    · exact absurd (heq ▸ hr) hnew
    · exact hu r hr
  case went =>
    intro k r hr hgone
    rcases h k with heq | ⟨ht, -⟩
    · exact absurd (heq.trans hr) hgone
    · exact ht r hr

end ChangedFor
end Table

namespace Consolidation
variable {σ : Type} [RecordStore σ] [LawfulStore σ] {b : Bool} {s : σ} {user : String} {start stop : Int}
open Table (ChangedFor)

def Within (steady : Bool) (user : String) (t : Table) (s : σ) : Prop :=
  Ready steady s ∧ ChangedFor user t (table s)

theorem Halts.within {R : Table → Prop} {t : Table} {e : ConsolidationError}
    (h : Halts b (ChangedFor user t) R e s) : Within b user t s := ⟨h.1, h.2.1⟩

theorem ends_openTrip_within (h : Ready b s)
    (hfree : ∀ T ∈ (table s).trips, ¬ T.span.Touches ⟨user, start, stop⟩) :
    Ends (openTrip user start stop) s (fun _ t => Within b user (table s) t)
      (fun _ t => Within b user (table s) t) := by
  refine (ends_openTrip (R := fun _ => True) h (.refl user _) hfree).mono (fun id t ht => ?_)
    fun _ _ => Halts.within
  obtain ⟨hready, hfresh, htable⟩ := ht
  refine ⟨hready, htable ▸ .put (Table.loggedFor_of_none (hfresh .trip)) rfl⟩

theorem ends_merge_within {c : Span} {W : Trip} {losers : List String} {a z : Int} (h : Ready b s)
    (hW : (table s).Leads c W) (hlosers : (table s).Losers c W losers) :
    Ends (merge c.user W.id losers a z) s (fun _ t => Within b c.user (table s) t)
      (fun _ t => Within b c.user (table s) t) := by
  have hwf := LawfulStore.wellFormed h
  have hmem : ∀ id ∈ W.id :: losers, ∃ T ∈ (table s).trips, T.id = id ∧ T.user = c.user := by
    intro id hid
    rcases List.mem_cons.mp hid with rfl | hid
    · exact ⟨W, hW.mem, rfl, hW.touches.1⟩
    · obtain ⟨S, hS, hSid, hSc, -⟩ := (hlosers.mem_iff id).mp hid
      exact ⟨S, hS, hSid, hSc.1⟩
  have hlogged : ∀ id ∈ W.id :: losers, (table s).LoggedFor c.user ⟨.trip, id⟩ := by
    intro id hid
    obtain ⟨T, hT, rfl, hu⟩ := hmem id hid
    exact Table.loggedFor_trip hwf hT hu
  refine (ends_merge (J := ChangedFor c.user (table s)) (K := fun _ => ChangedFor c.user (table s))
    hlosers.nodup hlosers.not_mem ChangedFor.keptByMoves ?widen ?drop ?there h (.refl _ _)).mono
    (fun _ _ ht => ht) fun _ _ he => ⟨he.1, ?_⟩
  case widen => exact fun t _ ht _ => ht.trans (.put (ht.loggedFor (hlogged W.id (by simp))) rfl)
  case drop =>
    exact fun t id _ _ hid _ ht => ht.trans (.erase (ht.loggedFor (hlogged id (by simp [hid]))))
  case there =>
    intro id hid
    obtain ⟨T, hT, rfl, -⟩ := hmem id hid
    rw [(Table.mem_trips_iff hwf).mp hT]
    exact Option.some_ne_none _
  · rcases he.2.1 with ht | ⟨-, ht⟩
    · exact ht
    · exact ht

theorem ends_place_within (h : Ready b s) (f : Fact) :
    Ends f.place s (fun _ t => Within b f.user (table s) t) (fun _ t => Within b f.user (table s) t) := by
  rw [← f.span_user]
  have hread : ∀ t, OnlyRead (fun _ _ => True) b s t → Within b f.span.user (table s) t := fun t ht =>
    ⟨ht.ready, ht.table_eq ▸ .refl _ _⟩
  refine Ways.ends_place keptByReads_true h ?_
  constructor
  case refused => exact fun _ t ht _ _ => hread t ht
  case held => exact fun _ _ t _ ht _ _ _ => hread t ht
  case doubled => exact fun _ _ t _ _ _ ht _ _ _ _ _ => hread t ht
  case opened =>
    intro t ht hfree
    rw [← ht.table_eq] at hfree ⊢
    exact ends_openTrip_within ht.ready hfree
  case merged =>
    intro d _ t W losers a z ht hW hlosers _
    rw [← ht.table_eq] at hW hlosers ⊢
    exact ends_merge_within ht.ready hW.leads hlosers

theorem ends_record_within (h : Ready b s) (f : Fact) :
    Ends f.record s (fun _ t => Within b f.user (table s) t) (fun _ t => Within b f.user (table s) t) := by
  refine (ends_record_of_place (R := fun _ => True) (P := fun _ => ChangedFor f.user (table s))
    (ends_place_within h f) fun _ _ _ => Halts.within).imp fun g t hg => ?_
  obtain ⟨hready, trip, u, id, hu, rfl, hfresh, htable⟩ := hg
  refine ⟨hready, htable ▸ hu.trans (.put ?_ ?_)⟩
  · rw [Fact.key_withId]
    exact Table.loggedFor_of_none (hfresh _)
  · rw [Fact.logger?_toRecord, Fact.user_withId, Fact.user_withTrip]

/-- A recording leaves the records of other users alone, and all that are neither trips nor facts. -/
theorem record_isolates (h : Ready b s) (f : Fact) :
    Ends f.record s (fun _ t => (table s).Isolates f.user (table t))
      (fun _ t => (table s).Isolates f.user (table t)) :=
  (ends_record_within h f).mono (fun _ _ ht => ht.2.isolates) fun _ _ ht => ht.2.isolates

def sampleTangle : Repository :=
  Repository.planted
    [.trip ⟨"", "ann", 0, 10⟩, .trip ⟨"", "ann", 5, 20⟩, .trip ⟨"", "bob", 0, 30⟩,
      .event ⟨"", "ann", "i", 6, .laneChange, ⟨0⟩, ⟨0⟩, ⟨.rawVideo, "v"⟩⟩,
      .event ⟨"", "bob", "i", 7, .laneChange, ⟨0⟩, ⟨0⟩, ⟨.rawVideo, "v"⟩⟩]
    (Repository.empty Repository.unaryId)

def sampleRain : Fact := .condition ⟨"", "ann", "", .rain, ⟨0⟩, 8, 9, ⟨.rawVideo, "v"⟩⟩

theorem record_isolates_of_sample :
    Ready true sampleTangle ∧ ∃ e t, sampleRain.record sampleTangle = .error e t ∧
      t.table ≠ sampleTangle.table ∧ sampleTangle.table.Isolates "ann" t.table := by
  have hready : Ready true sampleTangle :=
    Repository.ready_planted (Repository.ready_empty Repository.unaryId_injective) _
  have hends := record_isolates hready sampleRain
  have hstops : (match sampleRain.record sampleTangle with
    | .ok _ _ => true
    | .error _ t => decide (t.table = sampleTangle.table)) = false := by decide +kernel
  refine ⟨hready, ?_⟩
  cases hrun : sampleRain.record sampleTangle with
  | ok g t => simp [hrun] at hstops
  | error e t =>
    rw [hrun] at hstops
    exact ⟨e, t, rfl, of_decide_eq_false hstops, hends.of_eq_error hrun⟩

end Consolidation

end DriveLog
