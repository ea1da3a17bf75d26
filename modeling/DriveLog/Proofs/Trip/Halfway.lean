import DriveLog.Proofs.Trip.Joining
import DriveLog.Proofs.Trip.Placing
/-!
Where the joining of trips may stop, and what becomes of it. Main statements: finding the trip for a fact
either joins the trips that the fact touches, or stops halfway; and from halfway on, the trips are joined
into the very trip, and the very table, that they would have been joined into from the start.
-/
set_option autoImplicit false

namespace DriveLog
namespace Table

/-- Where the joining of the trips that `c` touches may have stopped: before it has begun, when some facts
have moved, or when the winner has grown and some losers are still there. -/
inductive Halfway (t : Table) (c : Span) : Table → Prop
  | unchanged : Halfway t c t
  | moving {V : Trip} {losers : List String} {u : Table} (hV : t.Chosen c V)
      (hlosers : t.Losers c V losers) (h : Given losers V.id t u) : Halfway t c u
  | joining {W : Trip} {rest : List String} {u : Table} (hne : t.touched c ≠ [])
      (h : t.Joining c W rest u) : Halfway t c u

/-- A trip is found for the fact unless the store fails: the facts that would be moved are the user's own,
and an event is in one trip at most. -/
structure Fit (t : Table) (f : Fact) : Prop where
  owned : ∀ V, t.Chosen f.span V → ∀ g ∈ t.facts, g.trip ∈ t.touched f.span → g.trip ≠ V.id →
    g.user = f.user
  single : ∀ e, f = .event e → ∀ S ∈ t.trips, ∀ T ∈ t.trips,
    S.span.Touches f.span → T.span.Touches f.span → S = T

variable {t u v : Table} {c : Span} {V W W' S T : Trip} {f : Fact} {losers rest : List String}
  {id : String} {k : RecordKey}

theorem Hosts.unique (h : t.Hosts c W) (h' : t.Hosts c W') (hid : W.id = W'.id) : W = W' := by
  have hends : W.start = W'.start ∧ W.stop = W'.stop := by
    by_cases hnil : t.touched c = []
    · obtain ⟨hstart, hstop, -⟩ := h.opened hnil
      obtain ⟨hstart', hstop', -⟩ := h'.opened hnil
      exact ⟨hstart.trans hstart'.symm, hstop.trans hstop'.symm⟩
    · exact (h.grown hnil).2.unique (h'.grown hnil).2
  cases W
  cases W'
  rw [Trip.mk.injEq]
  exact ⟨hid, h.user.trans h'.user.symm, hends⟩

theorem Joining.id_eq {rest' : List String} (h : t.Joining c W rest u) (h' : t.Joining c W' rest' v)
    (hne : t.touched c ≠ []) : W.id = W'.id := by
  obtain ⟨V, hV, hid⟩ := h.chosen hne
  obtain ⟨V', hV', hid'⟩ := h'.chosen hne
  rw [← hid, ← hid', hV.unique hV']

section sameTrips
variable (htrips : ∀ T, T ∈ u.trips ↔ T ∈ t.trips)
include htrips

theorem mem_touched_congr : id ∈ u.touched c ↔ id ∈ t.touched c := by
  simp only [mem_touched, htrips]

theorem touched_eq_nil_congr : u.touched c = [] ↔ t.touched c = [] := by
  simp only [touched_eq_nil_iff, htrips]

end sameTrips

namespace Given

theorem mem_trips_iff {target : String} {origins : List String} (h : Given origins target t u)
    (ht : t.WellFormed) (hu : u.WellFormed) (T : Trip) : T ∈ u.trips ↔ T ∈ t.trips := by
  have hget : u.get? ⟨.trip, T.id⟩ = t.get? ⟨.trip, T.id⟩ := by
    rcases h ⟨.trip, T.id⟩ with heq | heq
    · exact heq
    · rw [heq, map_given_of_trip ht rfl]
  rw [Table.mem_trips_iff hu, Table.mem_trips_iff ht, hget]

/-- What the facts that have moved would be given later, they have already. -/
theorem joined?_eq (h : Given losers W.id t u) (htrips : ∀ T, T ∈ u.trips ↔ T ∈ t.trips)
    (hlosers : ∀ id ∈ losers, id ∈ t.touched c) (k : RecordKey) :
    u.joined? c W k = t.joined? c W k := by
  have htouched : ∀ id, id ∈ u.touched c ↔ id ∈ t.touched c := fun id => mem_touched_congr htrips
  have hgiven : (u.get? k).map (Record.given (u.touched c) W.id) =
      (t.get? k).map (Record.given (t.touched c) W.id) := by
    rcases h k with heq | heq
    · rw [heq]
      exact congrArg (Option.map · _) (funext fun r => Record.given_congr htouched)
    · have happend : ∀ id, id ∈ u.touched c ++ losers ↔ id ∈ t.touched c := by
        intro id
        rw [List.mem_append, htouched]
        exact or_iff_left_of_imp (hlosers id)
      rw [heq, Option.map_map]
      exact congrArg (Option.map · _) (funext fun r => r.given_given.trans (Record.given_congr happend))
  simp only [joined?, htouched, hgiven]

end Given

namespace Joining
variable (h : t.Joining c W rest u) (ht : t.WellFormed) (hu : u.WellFormed) (hle : c.start ≤ c.stop)
include h ht hu hle

theorem mem_touched_iff : id ∈ u.touched c ↔ id = W.id ∨ id ∈ rest := by
  rw [mem_touched]
  constructor
  · rintro ⟨T, hT, rfl, htouch⟩
    rcases (h.mem_trips_iff ht hu).mp hT with rfl | ⟨-, hTt, hrest⟩
    · exact .inl rfl
    · exact .inr (hrest (mem_touched.mpr ⟨T, hTt, rfl, htouch⟩))
  · rintro (rfl | hid)
    · exact ⟨W, (h.mem_trips_iff ht hu).mpr (.inl rfl), rfl, h.trip.touches hle⟩
    · obtain ⟨htouched, hne⟩ := h.left id hid
      obtain ⟨T, hT, rfl, htouch⟩ := mem_touched.mp htouched
      exact ⟨T, (h.mem_trips_iff ht hu).mpr (.inr ⟨hne, hT, fun _ => hid⟩), rfl, htouch⟩

theorem winner_chosen : u.Chosen c W := by
  refine ⟨(h.mem_trips_iff ht hu).mpr (.inl rfl), h.trip.touches hle, fun T hT htouch hTW => ?_⟩
  obtain ⟨hne, hTt, -⟩ := ((h.mem_trips_iff ht hu).mp hT).resolve_left hTW
  have htouched := touched_ne_nil hTt htouch
  obtain ⟨V, hV, hid⟩ := h.chosen htouched
  obtain ⟨-, hhull⟩ := h.trip.grown htouched
  have hWV := (hhull.trip V hV.mem hV.touches).1
  rcases hV.first T hTt htouch (fun hTV => hne (hTV ▸ hid)) with hlt | ⟨heq, hlt⟩
  · exact .inl (by omega)
  · by_cases hstart : W.start = T.start
    · exact .inr ⟨hstart, hid ▸ hlt⟩
    · exact .inl (by omega)

theorem winner_hull : u.Hull c W.start W.stop := by
  have hW := h.winner_chosen ht hu hle
  obtain ⟨-, hstart, hstop⟩ := h.trip.covers
  constructor
  case start_le => exact hstart
  case le_stop => exact hstop
  case start_eq => exact .inr ⟨W, hW.mem, hW.touches, rfl⟩
  case stop_eq => exact .inr ⟨W, hW.mem, hW.touches, rfl⟩
  case trip =>
    intro T hT htouch
    rcases (h.mem_trips_iff ht hu).mp hT with rfl | ⟨-, hTt, -⟩
    · exact ⟨Int.le_refl _, Int.le_refl _⟩
    · exact (h.trip.grown (touched_ne_nil hTt htouch)).2.trip T hTt htouch

theorem winner_eq (h' : u.Joining c W' [] v) : W' = W := by
  have hW := h.winner_chosen ht hu hle
  obtain ⟨V, hV, hid⟩ := h'.chosen (touched_ne_nil hW.mem hW.touches)
  obtain rfl := hV.unique hW
  exact h'.trip.unique (.of_hull hV rfl h.trip.user (h.winner_hull ht hu hle)) hid.symm

/-- The losers that are left go, and nothing else moves any more. -/
theorem joined?_eq (k : RecordKey) : u.joined? c W k = t.joined? c W k := by
  by_cases hkind : k.kind = .trip
  · by_cases hkW : k = ⟨.trip, W.id⟩
    · rw [joined?, if_pos hkW, joined?, if_pos hkW]
    have hkid : k.id ≠ W.id := fun hid => hkW (by rw [← hid, ← hkind])
    have htouched : k.id ∈ u.touched c ↔ k.id = W.id ∨ k.id ∈ rest := h.mem_touched_iff ht hu hle
    rw [joined?, if_neg hkW, map_given_of_trip hu hkind, h.stored]
    by_cases hrest : k.id ∈ rest
    · rw [if_pos ⟨hkind, htouched.mpr (.inr hrest)⟩, joined?, if_neg hkW,
        if_pos ⟨hkind, (h.left _ hrest).1⟩]
    · rw [if_neg fun hk => (htouched.mp hk.2).elim hkid hrest, if_neg fun hk => hrest hk.2]
  · have happend : ∀ id, id ∈ u.touched c ++ t.touched c ↔ id ∈ W.id :: t.touched c := by
      intro id
      rw [List.mem_append, h.mem_touched_iff ht hu hle, List.mem_cons, or_assoc]
      exact or_congr_right (or_iff_right_of_imp fun hid => (h.left id hid).1)
    rw [joined?_of_ne hkind, joined?_of_ne hkind, h.get?_of_ne hkind, Option.map_map]
    refine congrArg (Option.map · _) (funext fun r => r.given_given.trans ?_)
    exact (Record.given_congr happend).trans r.given_cons

theorem trans (h' : u.Joining c W' [] v) : W' = W ∧ t.Joining c W [] v := by
  obtain rfl := h.winner_eq ht hu hle h'
  exact ⟨rfl, .of_joined h.trip h.chosen fun k =>
    (h'.get?_joined k).trans (h.joined?_eq ht hu hle k)⟩

end Joining

namespace Halfway
variable (h : t.Halfway c u) (ht : t.WellFormed) (hu : u.WellFormed) (hle : c.start ≤ c.stop)
include h ht hu hle

theorem touched_eq_nil_iff : u.touched c = [] ↔ t.touched c = [] := by
  cases h with
  | unchanged => rfl
  | moving _ _ h => exact touched_eq_nil_congr (h.mem_trips_iff ht hu)
  | joining hne h =>
    have hW := h.winner_chosen ht hu hle
    exact iff_of_false (touched_ne_nil hW.mem hW.touches) hne

/-- From halfway on, the trips are joined as from the start. -/
theorem trans (h' : u.Joining c W [] v) : t.Joining c W [] v := by
  cases h with
  | unchanged => exact h'
  | moving hV hlosers h =>
    have htrips := h.mem_trips_iff ht hu
    have hne := touched_ne_nil hV.mem hV.touches
    have hneu : u.touched c ≠ [] := mt (touched_eq_nil_congr htrips).mp hne
    obtain ⟨V', hV', hid⟩ := h'.chosen hneu
    obtain rfl := (hV'.congr htrips).unique hV
    have hhull := (h'.trip.grown hneu).2.congr htrips
    refine .of_joined (.of_hull hV hid h'.trip.user hhull) (fun _ => ⟨V', hV, hid⟩) fun k => (h'.get?_joined k).trans ?_
    exact Given.joined?_eq (hid ▸ h) htrips
      (fun id hmem => (hlosers.mem_touched_iff hV.leads).mpr (List.mem_cons_of_mem _ hmem)) k
  | joining _ h =>
    obtain ⟨rfl, hjoining⟩ := h.trans ht hu hle h'
    exact hjoining

end Halfway

namespace Fit
variable (hfit : t.Fit f) (ht : t.WellFormed) (hu : u.WellFormed) (hle : f.span.start ≤ f.span.stop)
include hfit ht hu hle

theorem joining (h : t.Joining f.span W rest u) : u.Fit f where
  owned V hV g hg htouched hne := by
    obtain rfl := hV.unique (h.winner_chosen ht hu hle)
    have hrest := ((h.mem_touched_iff ht hu hle).mp htouched).resolve_left hne
    obtain ⟨g', -, rfl⟩ := (h.mem_facts_iff ht hu).mp hg
    -- what is in a loser has been given to the winner
    unfold Fact.given at hne hrest
    split at hne
    · exact absurd (Fact.trip_withTrip _ _) hne
    · rename_i hfree
      rw [if_neg hfree] at hrest
      exact absurd (h.left _ hrest).1 hfree
  single e he S hS T hT hSf hTf := by
    have hwinner : ∀ T ∈ u.trips, T.span.Touches f.span → T = W := by
      intro T hT htouch
      refine ((h.mem_trips_iff ht hu).mp hT).resolve_right fun ⟨hne, hTt, _⟩ => ?_
      obtain ⟨V, hV, hid⟩ := h.chosen (touched_ne_nil hTt htouch)
      exact hne (hfit.single e he V hV.mem T hTt hV.touches htouch ▸ hid)
    rw [hwinner S hS hSf, hwinner T hT hTf]

theorem halfway (h : t.Halfway f.span u) : u.Fit f := by
  cases h with
  | unchanged => exact hfit
  | joining _ h => exact hfit.joining ht hu hle h
  | moving hV hlosers h =>
    have htrips := h.mem_trips_iff ht hu
    refine ⟨fun V' hV' g hg htouched hne => ?_, by simpa only [htrips] using hfit.single⟩
    obtain rfl := (hV'.congr htrips).unique hV
    rw [mem_touched_congr htrips] at htouched
    have hlost := (List.mem_cons.mp ((hlosers.mem_touched_iff hV.leads).mp htouched)).resolve_left hne
    exact hfit.owned V' hV g (h.mem_facts ht hu hlosers.not_mem hg hlost) htouched hne

end Fit

end Table

namespace Consolidation
variable {σ : Type} [RecordStore σ] [LawfulStore σ] {b : Bool} {s : σ} {c : Span} {V : Trip}
  {losers : List String} {a z : Int} {f : Fact}
open LawfulStore (table Ready)
open Table (Given Merging Joining Halfway Fit)

theorem ends_openTrip_joining (h : Ready b s) (hfree : ∀ T ∈ (table s).trips, ¬ T.span.Touches c) :
    Ends (openTrip c.user c.start c.stop) s
      (fun id u => Ready b u ∧ (table s).Joining c ⟨id, c.user, c.start, c.stop⟩ [] (table u))
      (Halts b ((table s).Halfway c) fun _ => False) := by
  refine (ends_openTrip h .unchanged hfree).imp fun id u hu => ?_
  obtain ⟨hready, hfresh, htable⟩ := hu
  exact ⟨hready, htable ▸ .opened (Table.touched_eq_nil_iff.mpr hfree) hfresh⟩

/-- Until a merge is done, some facts have moved, or all have and some losers are gone. -/
theorem ends_merge_joining (h : Ready b s) (hV : (table s).Chosen c V)
    (hlosers : (table s).Losers c V losers) (hh : (table s).Hull c a z)
    (howned : ∀ f ∈ (table s).facts, f.trip ∈ losers → f.user = c.user) :
    Ends (merge c.user V.id losers a z) s
      (fun _ u => Ready b u ∧ (table s).Joining c ⟨V.id, c.user, a, z⟩ [] (table u))
      (Halts b ((table s).Halfway c) fun _ => False) := by
  have hwf := LawfulStore.wellFormed h
  have hjoining : ∀ {rest u}, (∀ id ∈ rest, id ∈ losers) →
      Merging losers ⟨V.id, c.user, a, z⟩ (table s) rest u →
      (table s).Joining c ⟨V.id, c.user, a, z⟩ rest u := fun hrest hmerging =>
    hmerging.joining hrest hV hlosers rfl rfl hh
  have hmerge : Ends (merge c.user V.id losers a z) s _ _ := ends_merge
    (J := Given losers V.id (table s))
    (K := fun rest u => (∀ id ∈ rest, id ∈ losers) ∧
      Merging losers ⟨V.id, c.user, a, z⟩ (table s) rest u)
    hlosers.nodup hlosers.not_mem (Given.keptByMoves hwf hlosers.not_mem)
    (fun t ht hgiven hnone => ⟨fun _ hid => hid,
      hgiven.merging (W := ⟨V.id, c.user, a, z⟩) hwf ht hnone hlosers.not_mem⟩)
    (fun t id rest _ hid hfresh hmerging => ⟨fun id hmem => hmerging.1 id (by simp [hmem]),
      hmerging.2.drop hid hfresh⟩) ?there h (.refl losers V.id _)
  case there =>
    intro id hid
    obtain ⟨T, hT, rfl, -⟩ := Table.mem_touched.mp ((hlosers.mem_touched_iff hV.leads).mpr hid)
    rw [(Table.mem_trips_iff hwf).mp hT]
    exact Option.some_ne_none _
  refine hmerge.mono (fun _ u hu => ?_) fun e u he => he.mono ?_ ?_
  · exact ⟨hu.1, hjoining hu.2.1 hu.2.2⟩
  · rintro t (hgiven | ⟨rest, hrest, hmerging⟩)
    · exact .moving hV hlosers hgiven
    · exact .joining (Table.touched_ne_nil hV.mem hV.touches) (hjoining hrest hmerging)
  · rintro t ht - ⟨hgiven, f, hf, htrip, hu⟩
    exact hu (howned f (hgiven.mem_facts hwf ht hlosers.not_mem hf htrip) htrip)

theorem ends_place_joining (h : Ready b s) (hfit : (table s).Fit f) :
    Ends f.place s
      (fun id u => Ready b u ∧ ∃ W : Trip, W.id = id ∧ (table s).Joining f.span W [] (table u))
      (Halts b ((table s).Halfway f.span) fun _ => False) := by
  refine Ways.ends_place keptByReads_true h ?_
  constructor
  case refused =>
    exact fun e t ht hinjected hb => ⟨ht.ready, ht.table_eq ▸ .unchanged, .inl ⟨hinjected, hb⟩⟩
  case opened =>
    intro t ht hfree
    rw [← ht.table_eq] at hfree ⊢
    exact (ends_openTrip_joining ht.ready hfree).imp fun id u hu => ⟨hu.1, _, rfl, hu.2⟩
  case held =>
    rintro e rfl t T ht hT htouch honly
    rw [ht.table_eq]
    exact ⟨ht.ready, T, rfl,
      .self hT htouch ⟨htouch.1.symm, htouch.2⟩ honly (LawfulStore.wellFormed h)⟩
  case doubled =>
    rintro e rfl t ids S T ht hS hT hSf hTf hne
    exact absurd (congrArg Trip.id (hfit.single e rfl S hS T hT hSf hTf)) hne
  case merged =>
    rintro d - t V losers a z ht hV hlosers hh
    rw [← ht.table_eq] at hfit hV hlosers hh ⊢
    refine (ends_merge_joining ht.ready hV hlosers hh fun g hg htrip => ?_).imp
      fun _ u hu => ⟨hu.1, ⟨V.id, f.span.user, a, z⟩, rfl, hu.2⟩
    have htouched := (hlosers.mem_touched_iff hV.leads).mpr (List.mem_cons_of_mem _ htrip)
    have hu := hfit.owned V hV g hg htouched fun hid => hlosers.not_mem (hid ▸ htrip)
    exact hu.trans f.span_user.symm

theorem ends_record_joining (h : Ready b s) (hfit : (table s).Fit f) :
    Ends f.record s
      (fun g t => Adds b (fun id u => u.WellFormed ∧
        ∃ W : Trip, W.id = id ∧ (table s).Joining f.span W [] u) f g t)
      (fun e _ => e.IsInjected ∧ b = false) := by
  have hstop : ∀ {J : Table → Prop} e (t : σ), Halts b J (fun _ => False) e t →
      e.IsInjected ∧ b = false := fun e t he => he.2.2.resolve_right not_false
  exact ends_record_of_place ((ends_place_joining h hfit).mono
    (fun _ _ ht => ⟨ht.1, LawfulStore.wellFormed ht.1, ht.2⟩) hstop) fun _ => hstop

end Consolidation

end DriveLog
