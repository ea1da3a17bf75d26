import DriveLog.Proofs.Store.Issue
import DriveLog.Proofs.Trip.Attempt
import DriveLog.Proofs.Trip.Effect
import DriveLog.Proofs.Trip.Frame
import DriveLog.Proofs.Trip.Orderly
/-!
A recording that has failed, made again at once. Main statement: however often it is stopped by a failure of
the store, and wherever, once it is made again without failures the store is the one that it would be had
the first call not failed, ids included.
-/
set_option autoImplicit false

namespace DriveLog
open LawfulStore (table Ready)

namespace Interrupted

/-- In between, failures may have been laid down or used up, but no record has changed and no id is taken. -/
structure SameStore (s t : Interrupted) : Prop where
  table : t.table = s.table
  ids : s.SameIds t

structure Takes (s : Interrupted) (c : Span) (id : String) (u : Interrupted) : Prop where
  opened : s.table.touched c = [] → s.Issues id u
  grown : s.table.touched c ≠ [] → s.SameIds u

structure Reaches (s : Interrupted) (c : Span) (W : Trip) (u : Interrupted) : Prop where
  joining : s.table.Joining c W [] u.table
  ids : s.Takes c W.id u

/-- What a call may reach from `t` for a stretch, it might have reached from `s`. -/
def Covers (c : Span) (s t : Interrupted) : Prop := ∀ W u, t.Reaches c W u → s.Reaches c W u

/-- From `s` to `v` the fact `f` has been recorded as `g`. -/
def Completes (s : Interrupted) (f g : Fact) (v : Interrupted) : Prop :=
  ∃ W u, s.Reaches f.span W u ∧ g = (f.withTrip W.id).withId g.id ∧ u.Issues g.id v ∧
    v.table = u.table.put g.toRecord.key g.toRecord

variable {s t u v v' : Interrupted} {c : Span} {W W' : Trip} {f g g' : Fact} {b : Bool}

theorem sameStore_clearFailures (s : Interrupted) : s.SameStore s.clearFailures := ⟨rfl, rfl, rfl⟩

theorem sameStore_disturb (s : Interrupted) (d : Disturbance) : s.SameStore (s.disturb d) := by
  obtain ⟨reads, writes⟩ := d
  cases reads <;> cases writes <;> exact ⟨rfl, rfl, rfl⟩

theorem Ready.unsteady (h : s.Ready true) : s.Ready false :=
  ⟨⟨h.repository.wellFormed, h.repository.injective, h.repository.fresh, by simp⟩, by simp, h.sighted,
    h.uncovered⟩

theorem Ready.clearFailures (h : s.Ready b) : s.clearFailures.Ready true :=
  ready_ofRepository
    ⟨h.repository.wellFormed, h.repository.injective, h.repository.fresh, fun _ => rfl⟩

/-- Stores without failures differ in their records and their ids only. -/
theorem SameStore.eq (h : s.SameStore t) (hs : s.Ready true) (ht : t.Ready true) : s = t := by
  obtain ⟨⟨records, writesLeft, idAt, created⟩, readsLeft, blindLists, overlays⟩ := s
  obtain ⟨⟨records', writesLeft', idAt', created'⟩, readsLeft', blindLists', overlays'⟩ := t
  obtain rfl : records' = records := h.table
  obtain rfl : idAt' = idAt := h.ids.idAt
  obtain rfl : created' = created := h.ids.created
  obtain rfl : writesLeft = none := hs.repository.unlimited rfl
  obtain rfl : writesLeft' = none := ht.repository.unlimited rfl
  obtain rfl : readsLeft = none := hs.unlimited rfl
  obtain rfl : readsLeft' = none := ht.unlimited rfl
  obtain rfl : blindLists = 0 := hs.sighted
  obtain rfl : blindLists' = 0 := ht.sighted
  obtain rfl : overlays = [] := hs.uncovered
  obtain rfl : overlays' = [] := ht.uncovered
  rfl

theorem Takes.sameIds {id : String} (h : s.Takes c id u) (hsame : u.SameIds v) : s.Takes c id v :=
  ⟨fun hnil => (h.opened hnil).sameIds hsame, fun hne => (h.grown hne).trans hsame⟩

theorem SameStore.takes {id : String} (h : s.SameStore t) (ht : t.Takes c id u) : s.Takes c id u := by
  obtain ⟨hopened, hgrown⟩ := ht
  rw [h.table] at hopened hgrown
  exact ⟨fun hnil => h.ids.issues (hopened hnil), fun hne => h.ids.trans (hgrown hne)⟩

namespace Reaches

theorem of_sameStore (h : s.Reaches c W u) (hsame : u.SameStore v) : s.Reaches c W v :=
  ⟨hsame.table ▸ h.joining, h.ids.sameIds hsame.ids⟩

theorem unique (h : s.Reaches c W u) (h' : s.Reaches c W' v) :
    W = W' ∧ (∀ k, u.table.get? k = v.table.get? k) ∧ u.SameIds v := by
  have hids : W.id = W'.id ∧ u.SameIds v := by
    by_cases hnil : s.table.touched c = []
    · exact (h.ids.opened hnil).unique (h'.ids.opened hnil)
    · exact ⟨h.joining.id_eq h'.joining hnil, (h.ids.grown hnil).symm.trans (h'.ids.grown hnil)⟩
  obtain rfl := h.joining.trip.unique h'.joining.trip hids.1
  exact ⟨rfl, fun k => (h.joining.get?_joined k).trans (h'.joining.get?_joined k).symm, hids.2⟩

/-- Once the trip is there, a further call finds it and changes nothing. -/
theorem covers (h : s.Reaches c W t) (hs : s.table.WellFormed) (ht : t.table.WellFormed)
    (hle : c.start ≤ c.stop) : Covers c s t := by
  intro W' u h'
  obtain ⟨rfl, hjoining⟩ := h.joining.trans hs ht hle h'.joining
  have hW := h.joining.winner_chosen hs ht hle
  exact ⟨hjoining, h.ids.sameIds (h'.ids.grown (Table.touched_ne_nil hW.mem hW.touches))⟩

end Reaches

theorem covers_of_halfway (h : s.table.Halfway c t.table) (hids : s.SameIds t)
    (hs : s.table.WellFormed) (ht : t.table.WellFormed) (hle : c.start ≤ c.stop) : Covers c s t := by
  intro W u h'
  have hnil := h.touched_eq_nil_iff hs ht hle
  exact ⟨h.trans hs ht hle h'.joining, fun h => hids.issues (h'.ids.opened (hnil.mpr h)),
    fun h => hids.trans (h'.ids.grown (mt hnil.mp h))⟩

theorem Completes.unique (h : s.Completes f g v) (h' : s.Completes f g' v') (hv : v.Ready true)
    (hv' : v'.Ready true) : g = g' ∧ v = v' := by
  obtain ⟨W, u, hreaches, hg, hissues, htable⟩ := h
  obtain ⟨W', u', hreaches', hg', hissues', htable'⟩ := h'
  obtain ⟨rfl, hget, hids⟩ := hreaches.unique hreaches'
  obtain ⟨hid, hsame⟩ := hissues.unique (hids.issues hissues')
  obtain rfl : g = g' := by rw [hg, hg', hid]
  refine ⟨rfl, SameStore.eq ⟨?_, hsame⟩ hv hv'⟩
  refine hv'.repository.wellFormed.ext hv.repository.wellFormed fun k => ?_
  have hk : v'.table.get? k = v.table.get? k := by
    rw [htable, htable', Table.get?_put, Table.get?_put, hget]
  exact hk

end Interrupted

namespace Consolidation
open Interrupted (SameIds Issues SameStore Takes Reaches Covers Completes keptByReads_sameIds)
open Table (Halfway Fit)
variable {s t : Interrupted} {c : Span} {user : String} {start stop : Int} {f : Fact} {b : Bool}

/-! The ids that the steps of a recording take. -/

theorem ends_openTrip_issues (s : Interrupted) :
    Ends (openTrip user start stop) s (fun id t => s.Issues id t) (fun _ t => s.SameIds t) := by
  refine (throughout_overlappingTrips keptByReads_sameIds s).bind fun existing t ht => ?_
  split
  · exact Ends.throw_bind ht
  · refine ((Interrupted.ends_persist_issues t _).adaptExcept fun _ u hu => ?_).bind fun T u hu => ?_
    · exact ht.trans hu
    · exact Ends.pure (ht.issues hu)

theorem ends_openTrip_takes (hst : s.SameIds t) (hnil : s.table.touched c = []) :
    Ends (openTrip user start stop) t (fun id u => s.Takes c id u) (fun _ u => s.SameIds u) :=
  (ends_openTrip_issues t).mono
    (fun _ _ hu => ⟨fun _ => hst.issues hu, fun hne => absurd hnil hne⟩) fun _ _ hu => hst.trans hu

theorem sameIds_merge {winner : String} {losers : List String} :
    Throughout SameIds (merge user winner losers start stop) :=
  throughout_merge keptByReads_sameIds (fun _ => Interrupted.throughout_put _)
    (fun _ => Interrupted.throughout_put _) (fun _ => Interrupted.throughout_put _)
    fun _ => Interrupted.throughout_erase _

theorem ends_place_takes (h : s.Ready b) :
    Ends f.place s (fun id t => s.Takes f.span id t) (fun _ t => s.SameIds t) := by
  have takes_none : ∀ {T : Trip} {t : Interrupted}, T ∈ s.table.trips → T.span.Touches f.span →
      s.SameIds t → s.Takes f.span T.id t := fun hT htouch hsame =>
    ⟨fun hnil => absurd hnil (Table.touched_ne_nil hT htouch), fun _ => hsame⟩
  refine Ways.ends_place keptByReads_sameIds h ?_
  constructor
  case refused => exact fun _ _ ht _ _ => ht.kept
  case opened =>
    exact fun t ht hfree => ends_openTrip_takes ht.kept (Table.touched_eq_nil_iff.mpr hfree)
  case held => exact fun _ _ _ _ ht hT htouch _ => takes_none hT htouch ht.kept
  case doubled => exact fun _ _ _ _ _ _ ht _ _ _ _ _ => ht.kept
  case merged =>
    intro _ _ t W losers a z ht hW _ _
    refine (sameIds_merge t).mono (fun _ u hu => ?_) fun _ _ hu => ht.kept.trans hu
    exact takes_none hW.mem hW.touches (ht.kept.trans hu)

theorem ends_create_issues (s : Interrupted) :
    Ends f.create s (fun g t => s.Issues g.id t) (fun _ t => s.SameIds t) := by
  cases f with
  | event e =>
    refine Ends.map (Ends.adaptExcept (Interrupted.ends_persist_issues s e) ?_) ?_
    · exact fun _ _ ht => ht
    · exact fun _ _ ht => ht
  | condition c =>
    refine Ends.map (Ends.adaptExcept (Interrupted.ends_persist_issues s c) ?_) ?_
    · exact fun _ _ ht => ht
    · exact fun _ _ ht => ht

/-- A call finds the trip and records the fact; or it fails, and then it may be made again and will reach
what it might have reached. -/
theorem ends_record_retry (h : s.Ready b) (hfit : s.table.Fit f) (hle : f.span.start ≤ f.span.stop) :
    Ends f.record s (fun g t => t.Ready b ∧ s.Completes f g t)
      (fun _ t => t.Ready b ∧ b = false ∧ t.table.Fit f ∧ Covers f.span s t) := by
  have hwf := h.repository.wellFormed
  rw [Fact.record_eq]
  have hplace : Ends f.place s _ (Halts b (s.table.Halfway f.span) fun _ => False) :=
    ends_place_joining h hfit
  refine ((hplace.and (ends_place_takes h)).mono (fun _ _ ha => ha) fun e t he => ?_).bind
    fun id u hu => ?_
  · obtain ⟨⟨hready, hhalfway, hstop⟩, hids⟩ := he
    have hwft := hready.repository.wellFormed
    exact ⟨hready, (hstop.resolve_right not_false).2, hfit.halfway hwf hwft hle hhalfway,
      Interrupted.covers_of_halfway hhalfway hids hwf hwft hle⟩
  obtain ⟨⟨hready, W, rfl, hjoining⟩, hids⟩ := hu
  have hreaches : s.Reaches f.span W u := ⟨hjoining, hids⟩
  have hcreate : Ends (f.withTrip W.id).create u _ (Halts b (fun v => v = u.table) fun _ => False) :=
    ends_create hready
  refine (hcreate.and (ends_create_issues u)).mono (fun g v hg => ?_) fun e v he => ?_
  · obtain ⟨⟨hreadyv, id, hg, -, htable⟩, hissues⟩ := hg
    have hid : g.id = id := hg ▸ Fact.id_withId id _
    exact ⟨hreadyv, W, u, hreaches, hid ▸ hg, hissues, htable⟩
  · obtain ⟨⟨hreadyv, htable, hstop⟩, hids'⟩ := he
    have hwfv := hreadyv.repository.wellFormed
    have hreachesv : s.Reaches f.span W v := hreaches.of_sameStore ⟨htable, hids'⟩
    exact ⟨hreadyv, (hstop.resolve_right not_false).2, hfit.joining hwf hwfv hle hreachesv.joining,
      hreachesv.covers hwf hwfv hle⟩

end Consolidation

namespace Interrupted
open Consolidation (ends_record_retry)

/-- The states of a run without failures, in which facts are recorded and records created that are neither
trips nor facts. -/
inductive Reached : Interrupted → Prop
  | start {idAt : Nat → String} (hid : Function.Injective idAt) :
      Reached (ofRepository (Repository.empty idAt))
  | recorded {s t : Interrupted} {f g : Fact} (h : Reached s) (hrun : f.record s = .ok g t) : Reached t
  | created {s t : Interrupted} {r : Record} {id : String} (h : Reached s) (hr : r.IsRaw)
      (hrun : RecordStore.create r s = .ok id t) : Reached t

variable {s t u v : Interrupted} {f g : Fact}

theorem Reached.orderly (h : s.Reached) : s.Ready true ∧ s.table.Orderly := by
  induction h with
  | start hid => exact ⟨ready_ofRepository (Repository.ready_empty hid), .empty⟩
  | recorded _ hrun ih =>
    obtain ⟨hready, horderly⟩ := ih
    exact (Consolidation.ends_record_orderly hready horderly).of_eq_ok hrun
  | @created s t r id _ hr hrun ih =>
    obtain ⟨hready, horderly⟩ := ih
    have hcreate := LawfulStore.ends_create (σ := Interrupted) hready r
    obtain ⟨hreadyt, htable, -⟩ := hcreate.of_eq_ok hrun
    have hwf : s.table.WellFormed := hready.repository.wellFormed
    have hraw : (r.withId id).IsRaw := by
      rwa [Record.IsRaw, Record.kind_withId]
    have htable' : t.table = s.table.put (r.withId id).key (r.withId id) := by
      rw [Record.key_withId]
      exact htable
    refine ⟨hreadyt, htable' ▸ horderly.congr (fun T => ?_) fun f => ?_⟩
    · exact Table.mem_trips_put_raw hwf hraw
    · exact Table.mem_facts_put_raw hwf hraw

/-- From `s` on, calls for `f` have failed, and one may be made again in `t`. -/
structure Retriable (s : Interrupted) (f : Fact) (t : Interrupted) : Prop where
  ready : t.Ready false
  fit : t.table.Fit f
  covers : Covers f.span s t

namespace Retriable

theorem of_sameStore (h : s.Retriable f t) (hsame : t.SameStore u) (hu : u.Ready false) :
    s.Retriable f u where
  ready := hu
  fit := hsame.table ▸ h.fit
  covers W v hv := h.covers W v ⟨hsame.table ▸ hv.joining, hsame.takes hv.ids⟩

theorem of_error {e : ConsolidationError} (h : s.Retriable f t) (hle : f.span.start ≤ f.span.stop)
    (hrun : f.record t = .error e u) : s.Retriable f u := by
  obtain ⟨hready, -, hfit, hcovers⟩ := (ends_record_retry h.ready h.fit hle).of_eq_error hrun
  exact ⟨hready, hfit, fun W v hv => h.covers W v (hcovers W v hv)⟩

theorem attempts (h : s.Retriable f t) (hle : f.span.start ≤ f.span.stop) (ds : List Disturbance)
    (hfailed : ∀ o ∈ (attempts id (ds.map fun d => (f, d)) t).1, o.2.isOk = false) :
    s.Retriable f (Interrupted.attempts id (ds.map fun d => (f, d)) t).2 := by
  -- by induction on the failures
  induction ds generalizing t with
  | nil => exact h
  | cons d ds ih =>
    have hd : s.Retriable f (t.disturb d) := h.of_sameStore (sameStore_disturb t d) (h.ready.disturb d).1
    rw [List.map_cons, Interrupted.attempts] at hfailed ⊢
    cases hrun : (id f : Fact).record (t.disturb d) with
    | ok g u =>
      rw [hrun] at hfailed
      exact absurd (hfailed (f, .ok g) (by simp)) (by simp [Except.isOk, Except.toBool])
    | error e u =>
      rw [hrun] at hfailed
      exact ih (hd.of_error hle hrun) fun o ho => hfailed o (by simp [ho])

end Retriable

theorem record_completes (h : s.Ready true) (hfit : s.table.Fit f) (hle : f.span.start ≤ f.span.stop) :
    ∃ g t, f.record s = .ok g t ∧ t.Ready true ∧ s.Completes f g t := by
  have hends : Ends f.record s _ (fun _ _ => False) :=
    (ends_record_retry h hfit hle).mono (fun _ _ ha => ha) fun _ _ he => Bool.noConfusion he.2.1
  exact hends.eq_ok

/-- A call that fails any number of times, wherever, and is then made without failures gives the fact and
leaves the store that it would have given and left at once. -/
theorem retry_exact (h : s.Reached) (hle : f.span.start ≤ f.span.stop) :
    ∃ g u, f.record s = .ok g u ∧ ∀ (ds : List Disturbance) outcomes t,
      attempts id (ds.map fun d => (f, d)) s = (outcomes, t) → (∀ o ∈ outcomes, o.2.isOk = false) →
        f.record t.clearFailures = .ok g u := by
  obtain ⟨hready, horderly⟩ := h.orderly
  have hfit := horderly.fit hready.repository.wellFormed f
  obtain ⟨g, u, hrun, hu, hcompletes⟩ := record_completes hready hfit hle
  refine ⟨g, u, hrun, fun ds outcomes t hattempts hfailed => ?_⟩
  have hstart : s.Retriable f s := ⟨hready.unsteady, hfit, fun _ _ hv => hv⟩
  have ht := hstart.attempts hle ds (by rwa [hattempts])
  rw [hattempts] at ht
  have hcleared : s.Retriable f t.clearFailures :=
    ht.of_sameStore (sameStore_clearFailures t) ht.ready.clearFailures.unsteady
  obtain ⟨g', u', hrun', hu', W, v, hreaches, hg', hissues, htable⟩ :=
    record_completes ht.ready.clearFailures hcleared.fit hle
  obtain ⟨rfl, rfl⟩ := hcompletes.unique ⟨W, v, hcleared.covers W v hreaches, hg', hissues, htable⟩ hu hu'
  exact hrun'

def driven : List Fact → Interrupted → Interrupted
  | [], s => s
  | f :: rest, s =>
    match f.record s with
    | .ok _ t => driven rest t
    | .error _ _ => s

theorem reached_driven (h : s.Reached) (facts : List Fact) : (driven facts s).Reached := by
  induction facts generalizing s with
  | nil => exact h
  | cons f rest ih =>
    unfold driven
    cases hrun : f.record s with
    | ok g t => exact ih (h.recorded hrun)
    | error e t => exact h

def sampleDrive : Interrupted :=
  driven
    [.condition ⟨"", "ann", "", .snow, ⟨0⟩, 0, 2, ⟨.rawVideo, "v"⟩⟩,
      .condition ⟨"", "ann", "", .snow, ⟨0⟩, 4, 6, ⟨.rawVideo, "v"⟩⟩,
      .event ⟨"", "ann", "", 5, .laneChange, ⟨0⟩, ⟨0⟩, ⟨.rawVideo, "v"⟩⟩]
    (ofRepository (Repository.empty Repository.unaryId))

def sampleStops : List Disturbance :=
  [⟨none, some 1⟩, ⟨some 5, none⟩, ⟨none, some 2⟩, ⟨none, some 2⟩]

def sampleStopped :
    List (Fact × Except ConsolidationError Fact) × Interrupted :=
  attempts id (sampleStops.map fun d => (.condition Consolidation.sampleBridge, d)) sampleDrive

theorem retry_exact_of_sample :
    sampleDrive.Reached ∧ (∀ o ∈ sampleStopped.1, o.2.isOk = false) ∧
      sampleStopped.2.table ≠ sampleDrive.table ∧
      ∃ g u, Fact.record (.condition Consolidation.sampleBridge) sampleDrive = .ok g u ∧
        Fact.record (.condition Consolidation.sampleBridge) sampleStopped.2.clearFailures = .ok g u := by
  have hreached : sampleDrive.Reached := reached_driven (.start Repository.unaryId_injective) _
  have hfailed : ∀ o ∈ sampleStopped.1, o.2.isOk = false := by decide +kernel
  have hmoved : sampleStopped.2.table ≠ sampleDrive.table := by decide +kernel
  have hstopped : attempts id (sampleStops.map fun d => (.condition Consolidation.sampleBridge, d))
      sampleDrive = (sampleStopped.1, sampleStopped.2) := Prod.mk.eta.symm
  obtain ⟨g, u, hrun, hretry⟩ :=
    retry_exact (f := .condition Consolidation.sampleBridge) hreached (by decide)
  exact ⟨hreached, hfailed, hmoved, g, u, hrun, hretry sampleStops _ _ hstopped hfailed⟩

end Interrupted

end DriveLog
