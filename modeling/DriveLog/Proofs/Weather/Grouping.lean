import DriveLog.Proofs.Weather.Condition
import DriveLog.Proofs.Weather.Order
import Mathlib.Data.List.Nodup
/-!
How samples are grouped. The places in one weather, in order of time, are cut where two neighbours are more
than an hour apart. Main statement: there is one condition for each piece, and each sample is in one piece;
if the weather of a sample is not found out, there is no condition at all.
-/
set_option autoImplicit false

namespace DriveLog

theorem map_sortBy {α β : Type} (le : β → β → Bool) (f : α → β) (l : List α) :
    sortBy le (l.map f) = (sortBy (fun a b => le (f a) (f b)) l).map f := by
  have hinsert : ∀ (a : α) (l : List α),
      insertBy le (f a) (l.map f) = (insertBy (fun a b => le (f a) (f b)) a l).map f := by
    intro a l
    induction l with
    | nil => rfl
    | cons b l ih =>
      simp only [List.map_cons, insertBy]
      split
      · rfl
      · rw [ih, List.map_cons]
  induction l with
  | nil => rfl
  | cons a l ih => rw [List.map_cons, sortBy, sortBy, ih, hinsert]

theorem nodup_eraseDups {α : Type} [DecidableEq α] : (l : List α) → l.eraseDups.Nodup
  | [] => List.nodup_nil
  | a :: l => by
    have hlength : (l.filter fun b => !b == a).length < (a :: l).length :=
      Nat.lt_succ_of_le (List.length_filter_le _ _)
    rw [List.eraseDups_cons]
    exact List.nodup_cons.mpr ⟨by simp, nodup_eraseDups _⟩
termination_by l => l.length
decreasing_by exact hlength

namespace WeatherClass

def Before (v w : WeatherClass) : Prop :=
  v.type.rank < w.type.rank ∨ v.type = w.type ∧ v.percent < w.percent

/-- Classes of codes are told apart by their types and severities. -/
theorem eq_of_severity {v w : WeatherClass} (hv : v.percent ≤ 100) (hw : w.percent ≤ 100)
    (htype : v.type = w.type) (h : v.severity = w.severity) : v = w := by
  have hround : ∀ n : Fin 101, (Binary64.ofInt n.val).round? = some n.val := by decide +kernel
  have hv' : v.severity.round? = some v.percent := hround ⟨v.percent, by omega⟩
  have hw' : w.severity.round? = some w.percent := hround ⟨w.percent, by omega⟩
  rw [h, hw'] at hv'
  have hpercent : w.percent = v.percent := Int.ofNat.inj (Option.some.inj hv')
  cases v
  cases w
  simp_all

end WeatherClass

/-- Places that were passed in one weather, one after the other. -/
structure WeatherSpell where
  weather : WeatherClass
  first : RawLocation
  rest : List RawLocation
  deriving DecidableEq, Repr

namespace WeatherSpell

def places (g : WeatherSpell) : List RawLocation := g.first :: g.rest

def last (g : WeatherSpell) : RawLocation := g.places.getLast (List.cons_ne_nil _ _)

def condition (user : String) (g : WeatherSpell) : DrivingCondition :=
  Weather.conditionOf user g.weather ⟨g.first, g.last⟩

def Before (g h : WeatherSpell) : Prop :=
  g.first.time < h.first.time ∨ g.first.time = h.first.time ∧ g.weather.Before h.weather

theorem first_le_last {g : WeatherSpell} (h : g.places.Pairwise fun k l => k.time ≤ l.time) :
    g.first.time ≤ g.last.time := by
  rcases List.mem_cons.mp (List.getLast_mem (List.cons_ne_nil g.first g.rest)) with heq | hmem
  · exact Int.le_of_eq (congrArg RawLocation.time heq).symm
  · exact (List.pairwise_cons.mp h).1 _ hmem

end WeatherSpell

namespace Weather
open WeatherSpell (places)
variable {service : WeatherService} {settings : WeatherSettings} {user : String} {w : WeatherClass}
  {l : List RawLocation} {samples : List WeatherSample} {g h : WeatherSpell}

/-- Places in one weather, cut between neighbours that are more than an hour apart. -/
def spells (w : WeatherClass) : List RawLocation → List WeatherSpell
  | [] => []
  | a :: l =>
    match spells w l with
    | [] => [⟨w, a, []⟩]
    | g :: later =>
      if g.first.time - a.time ≤ maxGap then ⟨w, a, g.places⟩ :: later else ⟨w, a, []⟩ :: g :: later

theorem exists_spells_cons (w : WeatherClass) (a : RawLocation) (l : List RawLocation) :
    ∃ rest later, spells w (a :: l) = ⟨w, a, rest⟩ :: later := by
  unfold spells
  split
  · exact ⟨_, _, rfl⟩
  · split <;> exact ⟨_, _, rfl⟩

/-- The runs are the ends of the pieces. -/
theorem runs_eq (w : WeatherClass) (l : List RawLocation) :
    runs l = (spells w l).map fun g => ⟨g.first, g.last⟩ := by
  have hfrom : ∀ (l : List RawLocation) (f a : RawLocation) (g : WeatherSpell) (later : List WeatherSpell),
      spells w (a :: l) = g :: later →
      runsFrom ⟨f, a⟩ l = ⟨f, g.last⟩ :: later.map fun g => ⟨g.first, g.last⟩ := by
    intro l
    induction l with
    | nil =>
      intro f a g later h
      cases h
      rfl
    | cons b l ih =>
      intro f a g later h
      obtain ⟨rest, later', hrest⟩ := exists_spells_cons w b l
      rw [spells, hrest] at h
      unfold runsFrom
      simp only at h
      split
      · rename_i hclose
        rw [if_pos hclose] at h
        obtain ⟨rfl, rfl⟩ := List.cons.inj h
        exact ih f b ⟨w, b, rest⟩ later' hrest
      · rename_i hfar
        rw [if_neg hfar] at h
        obtain ⟨rfl, rfl⟩ := List.cons.inj h
        rw [ih b b _ _ hrest]
        rfl
  cases l with
  | nil => rfl
  | cons a l =>
    obtain ⟨rest, later, hspells⟩ := exists_spells_cons w a l
    rw [runs, hfrom l a a _ _ hspells, hspells]
    rfl

theorem flatMap_spells (w : WeatherClass) (l : List RawLocation) : (spells w l).flatMap places = l := by
  induction l with
  | nil => rfl
  | cons a l ih =>
    unfold spells
    split
    · rename_i hnone
      rw [hnone] at ih
      rw [← ih]
      rfl
    · rename_i g later hsome
      rw [hsome] at ih
      rw [← ih]
      split <;> rfl

theorem weather_of_mem_spells (hg : g ∈ spells w l) : g.weather = w := by
  induction l generalizing g with
  | nil => cases hg
  | cons a l ih =>
    unfold spells at hg
    split at hg
    · rw [List.mem_singleton.mp hg]
    · rename_i first later hsome
      split at hg
      · rcases List.mem_cons.mp hg with rfl | hg
        · rfl
        · exact ih (hsome ▸ List.mem_cons_of_mem _ hg)
      · rcases List.mem_cons.mp hg with rfl | hg
        · rfl
        · exact ih (hsome ▸ hg)

theorem close_of_mem_spells (hg : g ∈ spells w l) :
    g.places.IsChain fun k l => l.time - k.time ≤ maxGap := by
  induction l generalizing g with
  | nil => cases hg
  | cons a l ih =>
    unfold spells at hg
    split at hg
    · rw [List.mem_singleton.mp hg]
      exact List.IsChain.singleton _
    · rename_i first later hsome
      split at hg
      · rename_i hclose
        rcases List.mem_cons.mp hg with rfl | hg
        · exact List.isChain_cons_cons.mpr ⟨hclose, ih (hsome ▸ List.mem_cons_self)⟩
        · exact ih (hsome ▸ List.mem_cons_of_mem _ hg)
      · rcases List.mem_cons.mp hg with rfl | hg
        · exact List.IsChain.singleton _
        · exact ih (hsome ▸ hg)

theorem apart_spells (hl : l.Pairwise fun k l => k.time ≤ l.time) :
    (spells w l).Pairwise fun g h => maxGap < h.first.time - g.last.time := by
  induction l with
  | nil => exact .nil
  | cons a l ih =>
    have hapart := ih hl.of_cons
    unfold spells
    split
    · exact List.pairwise_singleton _ _
    · rename_i g later hsome
      rw [hsome] at hapart
      obtain ⟨hg, hlater⟩ := List.pairwise_cons.mp hapart
      split
      · exact hlater.cons hg
      · rename_i hfar
        refine hapart.cons fun h hh => ?_
        have hall := flatMap_spells w l
        rw [hsome, List.flatMap_cons] at hall
        have hle : g.first.time ≤ h.first.time := by
          rcases List.mem_cons.mp hh with rfl | hh
          · exact Int.le_refl _
          · have hsorted := hl.of_cons
            rw [← hall, places, List.cons_append] at hsorted
            refine (List.pairwise_cons.mp hsorted).1 _ (List.mem_append_right _ ?_)
            exact List.mem_flatMap.mpr ⟨h, hh, List.mem_cons_self⟩
        show maxGap < h.first.time - a.time
        omega

theorem ascending_of_mem_spells (hl : l.Pairwise fun k l => k.time ≤ l.time) (hg : g ∈ spells w l) :
    g.places.Pairwise fun k l => k.time ≤ l.time := by
  rw [← flatMap_spells w l] at hl
  exact (List.pairwise_flatMap.mp hl).1 g hg

theorem pairwise_spells (hl : l.Pairwise fun k l => k.time ≤ l.time) :
    (spells w l).Pairwise fun g h => g.first.time < h.first.time := by
  refine (apart_spells hl).imp_of_mem fun {g h} hg _ hgap => ?_
  have hfirst := WeatherSpell.first_le_last (ascending_of_mem_spells hl hg)
  have hpos : 0 < maxGap := by decide
  omega

/-- The places in order of time, those of one time in the order in which they came. -/
structure Chronological (l sorted : List RawLocation) : Prop where
  perm : sorted.Perm l
  ascending : sorted.Pairwise fun k l => k.time ≤ l.time
  stable : ∀ time, sorted.filter (fun k => k.time = time) = l.filter fun k => k.time = time

def placesIn (samples : List WeatherSample) (w : WeatherClass) : List RawLocation :=
  (samples.filter fun s => s.weather = w).map WeatherSample.location

theorem chronological_samplesOf (samples : List WeatherSample) (w : WeatherClass) :
    Chronological (placesIn samples w) (samplesOf samples w) where
  perm := sortBy_perm _ _
  ascending := pairwise_samplesOf samples w
  stable time := by
    refine filter_sortBy (fun k l hk hl => decide_eq_true ?_) _
    exact Int.le_of_eq ((of_decide_eq_true hk).trans (of_decide_eq_true hl).symm)

/-- Samples are grouped: in each weather every place is in one of the spells, in order of time, neighbours
in a spell are at most an hour apart and those in different spells are more. -/
structure Grouped (samples : List WeatherSample) (groups : List WeatherSpell) : Prop where
  chronological : ∀ w,
    Chronological (placesIn samples w) ((groups.filter fun g => g.weather = w).flatMap places)
  close : ∀ g ∈ groups, g.places.IsChain fun k l => l.time - k.time ≤ maxGap
  apart : ∀ w, (groups.filter fun g => g.weather = w).Pairwise fun g h =>
    maxGap < h.first.time - g.last.time
  ordered : groups.Pairwise WeatherSpell.Before

def spellsOf (samples : List WeatherSample) : List WeatherSpell :=
  (classesOf samples).flatMap fun w => spells w (samplesOf samples w)

def startsFirst (g h : WeatherSpell) : Bool :=
  g.first.time < h.first.time ||
    g.first.time == h.first.time && g.weather.type.rank ≤ h.weather.type.rank

theorem startsFirst_iff : startsFirst g h = true ↔ g.first.time < h.first.time ∨
    g.first.time = h.first.time ∧ g.weather.type.rank ≤ h.weather.type.rank := by
  simp [startsFirst]

theorem conditionsOf_eq (user : String) (samples : List WeatherSample) :
    conditionsOf user samples = (sortBy startsFirst (spellsOf samples)).map fun g => g.condition user := by
  have hall : ((classesOf samples).flatMap fun w => (runs (samplesOf samples w)).map (conditionOf user w)) =
      (spellsOf samples).map fun g => g.condition user := by
    unfold spellsOf
    rw [List.map_flatMap]
    refine List.flatMap_congr fun w _ => ?_
    rw [runs_eq w, List.map_map]
    refine List.map_congr_left fun g hg => ?_
    rw [WeatherSpell.condition, weather_of_mem_spells hg]
    rfl
  unfold conditionsOf
  rw [hall, map_sortBy]
  rfl

theorem pairwise_classesOf (samples : List WeatherSample) :
    (classesOf samples).Pairwise WeatherClass.Before := by
  have hle : ∀ v w : WeatherClass, v.le w = true ↔
      v.type.rank < w.type.rank ∨ v.type.rank = w.type.rank ∧ v.percent ≤ w.percent := by
    simp [WeatherClass.le]
  refine (pairwise_sortBy_stable ?total ?trans (nodup_eraseDups _)).imp ?_
  case total =>
    intro v w
    rw [hle, hle]
    omega
  case trans =>
    intro u v w
    rw [hle, hle, hle]
    omega
  intro v w ⟨hvw, hne⟩
  rw [hle] at hvw hne
  rcases hvw with hlt | ⟨hrank, hpercent⟩
  · exact .inl hlt
  · have htype := ConditionType.rank_injective hrank
    refine .inr ⟨htype, Nat.lt_of_le_of_ne hpercent fun heq => ?_⟩
    refine hne (.inr ⟨hrank.symm, Nat.le_of_eq heq.symm⟩) ?_
    cases v
    cases w
    simp_all

theorem pairwise_spellsOf (samples : List WeatherSample) :
    (spellsOf samples).Pairwise fun g h =>
      g.weather.Before h.weather ∨ g.weather = h.weather ∧ g.first.time < h.first.time := by
  refine List.pairwise_flatMap.mpr ⟨fun w _ => ?_, ?_⟩
  · refine (pairwise_spells (pairwise_samplesOf samples w)).imp_of_mem fun {g h} hg hh hlt => .inr ⟨?_, hlt⟩
    rw [weather_of_mem_spells hg, weather_of_mem_spells hh]
  · refine (pairwise_classesOf samples).imp fun {v w} hvw g hg h hh => .inl ?_
    rwa [weather_of_mem_spells hg, weather_of_mem_spells hh]

theorem filter_flatMap_of_weather {ws : List WeatherClass} {f : WeatherClass → List WeatherSpell}
    (hnodup : ws.Nodup) (hf : ∀ v, ∀ g ∈ f v, g.weather = v) (hnone : w ∉ ws → f w = []) :
    (ws.flatMap f).filter (fun g => g.weather = w) = f w := by
  have hall : ∀ v, (f v).filter (fun g => g.weather = w) = if v = w then f v else [] := by
    intro v
    split
    · rename_i h
      exact List.filter_eq_self.mpr fun g hg => decide_eq_true ((hf v g hg).trans h)
    · rename_i h
      exact List.filter_eq_nil_iff.mpr fun g hg heq => h ((hf v g hg).symm.trans (of_decide_eq_true heq))
  have hothers : ∀ vs : List WeatherClass, w ∉ vs →
      (vs.flatMap f).filter (fun g => g.weather = w) = [] := by
    intro vs hw
    rw [List.filter_flatMap, List.flatMap_eq_nil_iff]
    intro v hv
    rw [hall, if_neg (ne_of_mem_of_not_mem hv hw)]
  by_cases hw : w ∈ ws
  · obtain ⟨before, later, rfl⟩ := List.append_of_mem hw
    obtain ⟨-, hlater, hdisjoint⟩ := List.nodup_append.mp hnodup
    have hbefore : w ∉ before := fun hmem => hdisjoint w hmem w List.mem_cons_self rfl
    rw [List.flatMap_append, List.flatMap_cons, List.filter_append, List.filter_append, hall, if_pos rfl,
      hothers before hbefore, hothers later (List.nodup_cons.mp hlater).1, List.append_nil, List.nil_append]
  · rw [hothers ws hw, hnone hw]

theorem samplesOf_eq_nil (hw : w ∉ classesOf samples) : samplesOf samples w = [] := by
  have hnone : placesIn samples w = [] := by
    refine List.map_eq_nil_iff.mpr (List.filter_eq_nil_iff.mpr fun s hs heq => hw ?_)
    rw [classesOf, mem_sortBy, List.mem_eraseDups, ← of_decide_eq_true heq]
    exact List.mem_map_of_mem hs
  have hperm := (chronological_samplesOf samples w).perm
  rw [hnone] at hperm
  exact List.perm_nil.mp hperm

theorem filter_spellsOf (samples : List WeatherSample) (w : WeatherClass) :
    (spellsOf samples).filter (fun g => g.weather = w) = spells w (samplesOf samples w) := by
  have hnodup : (classesOf samples).Nodup :=
    (sortBy_perm _ _).nodup_iff.mpr (nodup_eraseDups _)
  refine filter_flatMap_of_weather hnodup (fun v g hg => weather_of_mem_spells hg) fun hw => ?_
  rw [samplesOf_eq_nil hw]
  rfl

theorem pairwise_before (samples : List WeatherSample) :
    (sortBy startsFirst (spellsOf samples)).Pairwise WeatherSpell.Before := by
  refine (pairwise_sortBy_stable ?total ?trans (pairwise_spellsOf samples)).imp ?_
  case total =>
    intro g h
    rw [startsFirst_iff, startsFirst_iff]
    omega
  case trans =>
    intro f g h
    rw [startsFirst_iff, startsFirst_iff, startsFirst_iff]
    omega
  intro g h ⟨hgh, hstable⟩
  rw [startsFirst_iff] at hgh hstable
  rcases hgh with hlt | ⟨htime, hrank⟩
  · exact .inl hlt
  · refine .inr ⟨htime, ?_⟩
    rcases Nat.lt_or_eq_of_le hrank with hlt | heq
    · exact .inl hlt
    · rcases hstable (.inr ⟨htime.symm, Nat.le_of_eq heq.symm⟩) with hbefore | ⟨-, hlt⟩
      · exact hbefore
      · omega

theorem filter_sorted (samples : List WeatherSample) (w : WeatherClass) :
    (sortBy startsFirst (spellsOf samples)).filter (fun g => g.weather = w) =
      spells w (samplesOf samples w) := by
  have hperm := (sortBy_perm startsFirst (spellsOf samples)).filter fun g => g.weather = w
  rw [filter_spellsOf] at hperm
  have hspells := pairwise_spells (w := w) (pairwise_samplesOf samples w)
  refine hperm.eq_of_pairwise (fun g h _ _ hgh hhg => absurd hgh (Int.lt_asymm hhg)) ?_ hspells
  refine ((pairwise_before samples).filter _).imp_of_mem fun {g h} hg hh hbefore => ?_
  have hweather : g.weather = h.weather :=
    (of_decide_eq_true (List.mem_filter.mp hg).2).trans (of_decide_eq_true (List.mem_filter.mp hh).2).symm
  rcases hbefore with hlt | ⟨-, hlt | ⟨-, hlt⟩⟩
  · exact hlt
  · rw [hweather] at hlt
    exact absurd hlt (Nat.lt_irrefl _)
  · rw [hweather] at hlt
    exact absurd hlt (Nat.lt_irrefl _)

theorem grouped_sorted (samples : List WeatherSample) :
    Grouped samples (sortBy startsFirst (spellsOf samples)) where
  chronological w := by
    rw [filter_sorted, flatMap_spells]
    exact chronological_samplesOf samples w
  close g hg := by
    have hmem : g ∈ (sortBy startsFirst (spellsOf samples)).filter fun h => h.weather = g.weather :=
      List.mem_filter.mpr ⟨hg, by simp⟩
    rw [filter_sorted] at hmem
    exact close_of_mem_spells hmem
  apart w := by
    rw [filter_sorted]
    exact apart_spells (pairwise_samplesOf samples w)
  ordered := pairwise_before samples

namespace Grouped
variable {groups : List WeatherSpell}

theorem first_le_last (hgrouped : Grouped samples groups) (hg : g ∈ groups) :
    g.first.time ≤ g.last.time := by
  have hmem : g ∈ groups.filter fun h => h.weather = g.weather := List.mem_filter.mpr ⟨hg, by simp⟩
  have hascending := (hgrouped.chronological g.weather).ascending
  exact WeatherSpell.first_le_last ((List.pairwise_flatMap.mp hascending).1 g hmem)

theorem exists_sample (hgrouped : Grouped samples groups) (hg : g ∈ groups) :
    ∃ s ∈ samples, s.weather = g.weather := by
  have hmem : g ∈ groups.filter fun h => h.weather = g.weather := List.mem_filter.mpr ⟨hg, by simp⟩
  have hplace : g.first ∈ placesIn samples g.weather :=
    (hgrouped.chronological g.weather).perm.subset
      (List.mem_flatMap.mpr ⟨g, hmem, List.mem_cons_self⟩)
  obtain ⟨s, hs, -⟩ := List.mem_map.mp hplace
  exact ⟨s, (List.mem_filter.mp hs).1, of_decide_eq_true (List.mem_filter.mp hs).2⟩

theorem pairwise_apart (hgrouped : Grouped samples groups) :
    groups.Pairwise fun g h => g.weather = h.weather → maxGap < h.first.time - g.last.time := by
  have hfrom : ∀ l : List WeatherSpell, (∀ w, (l.filter fun g => g.weather = w).Pairwise fun g h =>
        maxGap < h.first.time - g.last.time) →
      l.Pairwise fun g h => g.weather = h.weather → maxGap < h.first.time - g.last.time := by
    intro l
    induction l with
    | nil => exact fun _ => .nil
    | cons g l ih =>
      intro hapart
      refine List.pairwise_cons.mpr ⟨fun h hh hweather => ?_, ih fun w => ?_⟩
      · have hg := hapart g.weather
        rw [List.filter_cons, if_pos (by simp)] at hg
        exact (List.pairwise_cons.mp hg).1 h (List.mem_filter.mpr ⟨hh, decide_eq_true hweather.symm⟩)
      · exact (hapart w).sublist ((List.sublist_cons_self g l).filter _)
  exact hfrom groups hgrouped.apart

end Grouped

/-- The weather of each place is found out, one after the other: its time is one of the calendar, the
lookup has an answer, and the code of this is known. -/
inductive Classified (service : WeatherService) (settings : WeatherSettings) :
    WeatherCache → List RawLocation → List WeatherSample → WeatherCache → Prop
  | nil (s : WeatherCache) : Classified service settings s [] [] s
  | cons {s t u : WeatherCache} {l : RawLocation} {rest : List RawLocation} {report : WeatherReport}
      {weather : WeatherClass} {samples : List WeatherSample}
      (instant : Calendar.isInstant l.time = true)
      (answered : lookup service settings l.time l.coordinate s = .ok report t)
      (known : WeatherClass.ofCode? report.code = some weather)
      (later : Classified service settings t rest samples u) :
      Classified service settings s (l :: rest) (⟨l, weather⟩ :: samples) u

inductive Stopped (service : WeatherService) (settings : WeatherSettings) :
    WeatherCache → List RawLocation → WeatherError → WeatherCache → Prop
  | time {s : WeatherCache} {l : RawLocation} {rest : List RawLocation}
      (h : Calendar.isInstant l.time = false) :
      Stopped service settings s (l :: rest) (.invalidTime l.time) s
  | failed {s t : WeatherCache} {l : RawLocation} {rest : List RawLocation} {e : WeatherError}
      (instant : Calendar.isInstant l.time = true)
      (h : lookup service settings l.time l.coordinate s = .error e t) :
      Stopped service settings s (l :: rest) e t
  | unknown {s t : WeatherCache} {l : RawLocation} {rest : List RawLocation} {report : WeatherReport}
      (instant : Calendar.isInstant l.time = true)
      (answered : lookup service settings l.time l.coordinate s = .ok report t)
      (h : WeatherClass.ofCode? report.code = none) :
      Stopped service settings s (l :: rest) (.unknownCode report.code) t
  | later {s t u : WeatherCache} {l : RawLocation} {rest : List RawLocation} {report : WeatherReport}
      {weather : WeatherClass} {e : WeatherError} (instant : Calendar.isInstant l.time = true)
      (answered : lookup service settings l.time l.coordinate s = .ok report t)
      (known : WeatherClass.ofCode? report.code = some weather)
      (h : Stopped service settings t rest e u) : Stopped service settings s (l :: rest) e u

section generate
variable {locations : List RawLocation} {s t : WeatherCache} {e : WeatherError}

theorem Classified.mapM_eq (h : Classified service settings s locations samples t) :
    locations.mapM (classify service settings) s = .ok samples t := by
  induction h with
  | nil => rfl
  | cons _ answered known _ ih =>
    rw [List.mapM_cons, bind_of_eq_ok (classify_of_lookup answered known), bind_of_eq_ok ih]
    rfl

theorem Classified.percent_le (h : Classified service settings s locations samples t) :
    ∀ k ∈ samples, k.weather.percent ≤ 100 := by
  induction h with
  | nil => simp
  | cons _ _ known _ ih => exact List.forall_mem_cons.mpr ⟨WeatherClass.percent_le known, ih⟩

theorem Stopped.mapM_eq (h : Stopped service settings s locations e t) :
    locations.mapM (classify service settings) s = .error e t := by
  induction h with
  | @time s l rest h =>
    have hlookup : lookup service settings l.time l.coordinate s = .error (.invalidTime l.time) s := by
      unfold lookup
      rw [h]
      rfl
    rw [List.mapM_cons, classify]
    exact bind_of_eq_error (bind_of_eq_error hlookup)
  | failed _ h =>
    rw [List.mapM_cons, classify]
    exact bind_of_eq_error (bind_of_eq_error h)
  | unknown _ answered h =>
    rw [List.mapM_cons, classify]
    refine bind_of_eq_error ?_
    rw [bind_of_eq_ok answered, h]
    rfl
  | later _ answered known _ ih =>
    rw [List.mapM_cons, bind_of_eq_ok (classify_of_lookup answered known)]
    exact bind_of_eq_error ih

theorem classified_or_stopped (service : WeatherService) (settings : WeatherSettings)
    (locations : List RawLocation) (s : WeatherCache) :
    (∃ samples t, Classified service settings s locations samples t) ∨
      ∃ e t, Stopped service settings s locations e t := by
  induction locations generalizing s with
  | nil => exact .inl ⟨[], s, .nil s⟩
  | cons l rest ih =>
    cases hinstant : Calendar.isInstant l.time with
    | false => exact .inr ⟨_, s, .time hinstant⟩
    | true =>
      cases hlookup : lookup service settings l.time l.coordinate s with
      | error e t => exact .inr ⟨e, t, .failed hinstant hlookup⟩
      | ok report t =>
        cases hcode : WeatherClass.ofCode? report.code with
        | none => exact .inr ⟨_, t, .unknown hinstant hlookup hcode⟩
        | some weather =>
          rcases ih t with ⟨samples, u, hrest⟩ | ⟨e, u, hrest⟩
          · exact .inl ⟨_, u, .cons hinstant hlookup hcode hrest⟩
          · exact .inr ⟨e, u, .later hinstant hlookup hcode hrest⟩

theorem Classified.generate_eq (h : Classified service settings s locations samples t) (user : String) :
    generate service settings user locations s = .ok (conditionsOf user samples) t :=
  bind_of_eq_ok h.mapM_eq

theorem Stopped.generate_eq (h : Stopped service settings s locations e t) (user : String) :
    generate service settings user locations s = .error e t :=
  bind_of_eq_error h.mapM_eq

theorem Grouped.apart_conditions {groups : List WeatherSpell} (hgrouped : Grouped samples groups)
    (hpercent : ∀ k ∈ samples, k.weather.percent ≤ 100) (user : String) :
    (groups.map fun g => g.condition user).Pairwise fun c d =>
      c.type = d.type → c.severity = d.severity → maxGap < d.start - c.stop := by
  have hpercent : ∀ g ∈ groups, g.weather.percent ≤ 100 := fun g hg => by
    obtain ⟨k, hk, hweather⟩ := hgrouped.exists_sample hg
    exact hweather ▸ hpercent k hk
  refine List.pairwise_map.mpr (hgrouped.pairwise_apart.imp_of_mem ?_)
  intro g h hg hh hgap htype hseverity
  exact hgap (WeatherClass.eq_of_severity (hpercent g hg) (hpercent h hh) htype hseverity)

theorem Grouped.ordered_conditions {groups : List WeatherSpell} (hgrouped : Grouped samples groups)
    (user : String) : (groups.map fun g => g.condition user).Pairwise fun c d =>
      c.start < d.start ∨ c.start = d.start ∧ c.type.rank ≤ d.type.rank := by
  refine List.pairwise_map.mpr (hgrouped.ordered.imp fun {g h} hbefore => ?_)
  refine hbefore.imp id fun ⟨htime, hclass⟩ => ⟨htime, ?_⟩
  rcases hclass with hlt | ⟨htype, -⟩
  · exact Nat.le_of_lt hlt
  · exact Nat.le_of_eq (congrArg ConditionType.rank htype)

/-- Where the weather of all places is found out, there is one condition for each spell: it lasts from
the first to the last of the places, it names the first one as its source, and it is more than an hour
away from all others of its type and severity. Conditions come by start and type. Where the weather of
some place is not found out there are no conditions, and the error tells why. -/
theorem generate_grouped (service : WeatherService) (settings : WeatherSettings) (user : String)
    (locations : List RawLocation) (s : WeatherCache) :
    (∀ samples t, Classified service settings s locations samples t →
      ∃ groups, Grouped samples groups ∧
        generate service settings user locations s = .ok (groups.map fun g => g.condition user) t ∧
        (∀ g ∈ groups, g.first.time ≤ g.last.time) ∧
        ((groups.map fun g => g.condition user).Pairwise fun c d =>
          c.type = d.type → c.severity = d.severity → maxGap < d.start - c.stop) ∧
        (groups.map fun g => g.condition user).Pairwise fun c d =>
          c.start < d.start ∨ c.start = d.start ∧ c.type.rank ≤ d.type.rank) ∧
    (∀ conditions t, generate service settings user locations s = .ok conditions t →
      ∃ samples, Classified service settings s locations samples t) ∧
    ∀ e t, generate service settings user locations s = .error e t ↔
      Stopped service settings s locations e t := by
  refine ⟨fun samples t hall => ?_, fun conditions t hok => ?_, fun e t => ⟨fun herror => ?_, ?_⟩⟩
  · have hgrouped := grouped_sorted samples
    have hgenerate := hall.generate_eq user
    rw [conditionsOf_eq] at hgenerate
    exact ⟨_, hgrouped, hgenerate, fun g => hgrouped.first_le_last,
      hgrouped.apart_conditions hall.percent_le user, hgrouped.ordered_conditions user⟩
  · rcases classified_or_stopped service settings locations s with ⟨samples, u, h⟩ | ⟨e, u, h⟩
    · rw [h.generate_eq] at hok
      cases hok
      exact ⟨samples, h⟩
    · rw [h.generate_eq] at hok
      cases hok
  · rcases classified_or_stopped service settings locations s with ⟨samples, u, h⟩ | ⟨e, u, h⟩
    · rw [h.generate_eq] at herror
      cases herror
    · rw [h.generate_eq] at herror
      cases herror
      exact h
  · exact fun h => h.generate_eq user

end generate

def hourPlaces : List RawLocation :=
  [⟨"d", "u", 10003600000, sampleCoordinate, none⟩, ⟨"b", "u", 9999999999, sampleCoordinate, none⟩,
    ⟨"c", "u", 10000000000, sampleCoordinate, none⟩, ⟨"a", "u", 9999999999, sampleCoordinate, none⟩,
    ⟨"e", "u", 10007200001, sampleCoordinate, none⟩]

def hourConditions : List DrivingCondition :=
  [⟨"", "u", "", .nothing, .ofInt 0, 9999999999, 9999999999, ⟨.rawLocation, "b"⟩⟩,
    ⟨"", "u", "", .rain, .ofInt 0, 10000000000, 10003600000, ⟨.rawLocation, "c"⟩⟩,
    ⟨"", "u", "", .rain, .ofInt 0, 10007200001, 10007200001, ⟨.rawLocation, "e"⟩⟩]

def hourReports : RangeMap WeatherReport :=
  ⟨[(⟨0, 10000000000⟩, clearReport sampleCoordinate),
    (⟨10000000000, 20000000000⟩, lateReport 176 sampleCoordinate)]⟩

def hourCache : WeatherCache := ⟨1, [⟨sampleCoordinate.text, sampleCoordinate, hourReports⟩]⟩

theorem lookup_hour {time : Int} {r : WeatherReport} (htime : Calendar.isInstant time = true)
    (h : hourReports.get? time = some r) : lookup forwardService {} time sampleCoordinate hourCache =
      .ok { r with coordinate := sampleCoordinate } hourCache := by
  have hserving : serving {} sampleCoordinate hourCache = hourReports := serving_new {} _ 1 _
  exact lookup_of_found htime (by decide) (by rw [hserving, h])

theorem lookup_hour_new : lookup forwardService {} 10003600000 sampleCoordinate {} =
    .ok (lateReport 176 sampleCoordinate) hourCache := by
  have hanswer : forwardService 0 10003600000 sampleCoordinate =
      .ok [clearReport sampleCoordinate, lateReport 176 sampleCoordinate] := rfl
  have hround : Round forwardService {} 10003600000 sampleCoordinate {} hourCache :=
    round_new {} hanswer (List.cons_ne_nil _ _) rfl
  have hserving : serving {} sampleCoordinate hourCache = hourReports := serving_new {} _ 1 _
  have hlate : hourReports.get? 10003600000 = some (lateReport 176 sampleCoordinate) := rfl
  exact lookup_of_round rfl (by decide) hround (by rw [hserving, hlate])

theorem generate_grouped_of_sample : ∃ samples groups,
    Classified forwardService {} {} hourPlaces samples hourCache ∧ Grouped samples groups ∧
    generate forwardService {} "u" hourPlaces {} = .ok (groups.map fun g => g.condition "u") hourCache ∧
    groups.map (fun g => g.condition "u") = hourConditions := by
  have hclear : WeatherClass.ofCode? 113 = some ⟨.nothing, 0⟩ := rfl
  have hrain : WeatherClass.ofCode? 176 = some ⟨.rain, 0⟩ := rfl
  have hclassified : Classified forwardService {} {} hourPlaces _ hourCache :=
    .cons rfl lookup_hour_new hrain <| .cons rfl (lookup_hour rfl rfl) hclear <|
      .cons rfl (lookup_hour rfl rfl) hrain <| .cons rfl (lookup_hour rfl rfl) hclear <|
      .cons rfl (lookup_hour rfl rfl) hrain <| .nil hourCache
  obtain ⟨groups, hgrouped, hgenerate, -⟩ :=
    (generate_grouped forwardService {} "u" hourPlaces {}).1 _ hourCache hclassified
  have hconditions := hclassified.generate_eq "u"
  rw [hgenerate] at hconditions
  injection hconditions with hconditions
  exact ⟨_, groups, hclassified, hgrouped, hgenerate, hconditions.trans (by decide +kernel)⟩

end Weather
end DriveLog
