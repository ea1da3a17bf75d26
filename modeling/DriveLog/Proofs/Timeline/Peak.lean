import DriveLog.Proofs.Timeline.Sweep
import Mathlib.Data.List.Induction
import Mathlib.Data.Set.Finite.Lemmas
import Mathlib.Data.Set.Finite.List
import Mathlib.Order.Bounds.Basic
/-!
The peaks of severities. At a moment a key, the type of a condition and its video, has the severities
of all conditions under it that are active, and their peak is taken one after the other. Main
statement: whatever the conditions are, the sweep goes from the first start or end to the last, and
the one segment over a moment has the keys that are active then, each at its peak.
-/
set_option autoImplicit false

namespace DriveLog

namespace Binary64
variable {x : Binary64} {l : List Binary64}

def peak? : List Binary64 → Option Binary64
  | [] => none
  | x :: l => some (l.foldl max x)

theorem peak?_concat (l : List Binary64) (x : Binary64) :
    peak? (l ++ [x]) = some ((peak? l).elim x (·.max x)) := by
  cases l <;> simp [peak?]

theorem peak?_eq_none_iff : peak? l = none ↔ l = [] := by
  cases l <;> simp [peak?]

end Binary64

namespace ActiveCondition
variable {a b : ActiveCondition} {l m : List ActiveCondition} {type : ConditionType} {url : String}
  {x : Binary64}

def severity? (l : List ActiveCondition) (type : ConditionType) (url : String) : Option Binary64 :=
  (l.find? fun a => a.type = type ∧ a.url = url).map severity

theorem severity?_cons : severity? (a :: l) type url =
    if a.type = type ∧ a.url = url then some a.severity else severity? l type url := by
  by_cases h : a.type = type ∧ a.url = url <;> simp [severity?, h]

theorem severity?_eq_none (h : ∀ a ∈ l, ¬ (a.type = type ∧ a.url = url)) :
    severity? l type url = none := by
  simpa [severity?] using h

theorem severity?_eq_none_of_before (h : ∀ b ∈ l, a.Before b) :
    severity? l a.type a.url = none :=
  severity?_eq_none fun b hb hkey => (h b hb).not_sameKey (SameKey.symm hkey)

theorem severity?_of_mem (h : l.Pairwise Before) (ha : a ∈ l) :
    severity? l a.type a.url = some a.severity := by
  induction l with
  | nil => simp at ha
  | cons b l ih =>
    obtain ⟨hb, hl⟩ := List.pairwise_cons.mp h
    rw [severity?_cons]
    rcases List.mem_cons.mp ha with rfl | ha
    · simp
    · have hkey : ¬ (b.type = a.type ∧ b.url = a.url) := (hb a ha).not_sameKey
      rw [if_neg hkey, ih hl ha]

theorem severity?_add (h : l.Pairwise Before) : severity? (add a l) type url =
    if a.type = type ∧ a.url = url then
      some ((severity? l type url).elim a.severity (·.max a.severity))
    else severity? l type url := by
  induction l with
  | nil => simp [add, severity?]
  | cons b l ih =>
    obtain ⟨hb, hl⟩ := List.pairwise_cons.mp h
    unfold add
    split
    · rename_i hkey
      obtain ⟨htype, hurl⟩ := hkey
      by_cases hk : a.type = type ∧ a.url = url
      · simp [severity?_cons, htype, hurl, hk]
      · simp [severity?_cons, htype, hurl, hk]
    · rename_i hkey
      split
      · rename_i hab
        -- nothing from `b` on has the key of `a`
        have hnone : a.type = type ∧ a.url = url → severity? (b :: l) type url = none := by
          rintro ⟨rfl, rfl⟩
          refine severity?_eq_none_of_before (List.forall_mem_cons.mpr ⟨hab, fun c hc => ?_⟩)
          exact hab.trans (hb c hc)
        rw [severity?_cons]
        split
        · rename_i hk
          simp [hnone hk]
        · rfl
      · rw [severity?_cons, severity?_cons, ih hl]
        by_cases hk : a.type = type ∧ a.url = url
        · have hbk : ¬ (b.type = type ∧ b.url = url) := by
            rwa [← hk.1, ← hk.2]
          simp [hk, hbk]
        · simp [hk]

theorem forall₂_of_severity? {R : Binary64 → Binary64 → Prop} (hl : l.Pairwise Before)
    (hm : m.Pairwise Before)
    (h : ∀ type url, Option.Rel R (severity? l type url) (severity? m type url)) :
    List.Forall₂ (fun a b => a.SameKey b ∧ R a.severity b.severity) l m := by
  induction l generalizing m with
  | nil =>
    cases m with
    | nil => exact .nil
    | cons b m =>
      have hrel := h b.type b.url
      rw [severity?_of_mem hm List.mem_cons_self] at hrel
      cases hrel
  | cons a l ih =>
    obtain ⟨ha, hl'⟩ := List.pairwise_cons.mp hl
    have hhead := h a.type a.url
    rw [severity?_of_mem hl List.mem_cons_self] at hhead
    cases m with
    | nil => cases hhead
    | cons b m =>
      obtain ⟨hb, hm'⟩ := List.pairwise_cons.mp hm
      by_cases hkey : a.SameKey b
      · obtain ⟨htype, hurl⟩ := hkey
        rw [htype, hurl, severity?_of_mem hm List.mem_cons_self] at hhead
        cases hhead with
        | some hR =>
          refine .cons ⟨⟨htype, hurl⟩, hR⟩ (ih hl' hm' fun type url => ?_)
          by_cases hk : a.type = type ∧ a.url = url
          · obtain ⟨rfl, rfl⟩ := hk
            rw [severity?_eq_none_of_before ha, htype, hurl, severity?_eq_none_of_before hb]
            exact .none
          · have hrest := h type url
            rwa [severity?_cons, severity?_cons, if_neg hk, if_neg (htype ▸ hurl ▸ hk)] at hrest
      · -- the first of two different keys is missing in the other list
        rcases before_or_before hkey with hab | hba
        · have hnone := severity?_eq_none_of_before (a := a)
            (List.forall_mem_cons.mpr ⟨hab, fun c hc => hab.trans (hb c hc)⟩)
          rw [hnone] at hhead
          cases hhead
        · have hrel := h b.type b.url
          have hnone := severity?_eq_none_of_before (a := b)
            (List.forall_mem_cons.mpr ⟨hba, fun c hc => hba.trans (ha c hc)⟩)
          rw [severity?_of_mem hm List.mem_cons_self, hnone] at hrel
          cases hrel

end ActiveCondition

namespace Timeline
variable {conditions : List ResolvedCondition} {c : ResolvedCondition} {a b t : Int}
  {type : ConditionType} {url : String}

/-- The severities of a key that are active at a moment, in the order of the conditions. -/
def severitiesAt (conditions : List ResolvedCondition) (t : Int) (type : ConditionType)
    (url : String) : List Binary64 :=
  (conditions.filter fun c => c.IsActiveAt t ∧ c.type = type ∧ c.url = url).map
    ResolvedCondition.severity

/-- The active map: to each key that is active at a moment, the peak of its severities. -/
def peakAt (conditions : List ResolvedCondition) (t : Int) (type : ConditionType) (url : String) :
    Option Binary64 := Binary64.peak? (severitiesAt conditions t type url)

theorem activeAt_concat : activeAt (conditions ++ [c]) t =
    if c.IsActiveAt t then c.toActive.add (activeAt conditions t) else activeAt conditions t := by
  by_cases h : c.IsActiveAt t <;> simp [activeAt, List.filter_append, h]

theorem peakAt_concat : peakAt (conditions ++ [c]) t type url =
    if c.IsActiveAt t ∧ c.type = type ∧ c.url = url then
      some ((peakAt conditions t type url).elim c.severity (·.max c.severity))
    else peakAt conditions t type url := by
  by_cases h : c.IsActiveAt t ∧ c.type = type ∧ c.url = url
  · simp [peakAt, severitiesAt, List.filter_append, h, Binary64.peak?_concat]
  · simp [peakAt, severitiesAt, List.filter_append, h]

theorem pairwise_activeAt : (activeAt conditions t).Pairwise ActiveCondition.Before := by
  induction conditions using List.reverseRecOn with
  | nil => exact .nil
  | append_singleton conditions c ih =>
    rw [activeAt_concat]
    split
    · exact ActiveCondition.pairwise_add ih
    · exact ih

theorem severity?_activeAt : ActiveCondition.severity? (activeAt conditions t) type url =
    peakAt conditions t type url := by
  induction conditions using List.reverseRecOn with
  | nil => rfl
  | append_singleton conditions c ih =>
    rw [activeAt_concat, peakAt_concat]
    by_cases hactive : c.IsActiveAt t
    · rw [if_pos hactive, ActiveCondition.severity?_add pairwise_activeAt, ih]
      exact if_congr (and_iff_right hactive).symm rfl rfl
    · simp [hactive, ih]

theorem peakAt_eq_none_iff : peakAt conditions t type url = none ↔
    ¬ ∃ c ∈ conditions, c.IsActiveAt t ∧ c.type = type ∧ c.url = url := by
  rw [peakAt, Binary64.peak?_eq_none_iff]
  simp [severitiesAt]

def times (conditions : List ResolvedCondition) : Set Int :=
  {x | ∃ c ∈ conditions, x = c.start ∨ x = c.stop}

/-- The list has the keys that are active at the moment, in order, each at its peak; a severity may
be another zero than the peak. -/
structure Tells (conditions : List ResolvedCondition) (t : Int) (l : List ActiveCondition) :
    Prop where
  ascending : l.Pairwise ActiveCondition.Before
  keys : ∀ type url, (∃ a ∈ l, a.type = type ∧ a.url = url) ↔
    ∃ c ∈ conditions, c.IsActiveAt t ∧ c.type = type ∧ c.url = url
  peaks : ∀ a ∈ l, ∃ x, peakAt conditions t a.type a.url = some x ∧
    (a.severity = x ∨ a.severity.equals x = true)

theorem tells_activeAt : Tells conditions t (activeAt conditions t) := by
  have hasc : (activeAt conditions t).Pairwise ActiveCondition.Before := pairwise_activeAt
  constructor
  case ascending => exact hasc
  case keys =>
    intro type url
    rw [← not_iff_not, ← peakAt_eq_none_iff, ← severity?_activeAt]
    constructor
    · intro h
      exact ActiveCondition.severity?_eq_none fun a ha hkey => h ⟨a, ha, hkey⟩
    · rintro h ⟨a, ha, rfl, rfl⟩
      rw [ActiveCondition.severity?_of_mem hasc ha] at h
      cases h
  case peaks =>
    intro a ha
    rw [← severity?_activeAt, ActiveCondition.severity?_of_mem hasc ha]
    exact ⟨a.severity, rfl, .inl rfl⟩

theorem tells_of_alike {l : List ActiveCondition}
    (h : ActiveCondition.alike l (activeAt conditions t) = true) : Tells conditions t l := by
  have htells : Tells conditions t (activeAt conditions t) := tells_activeAt
  constructor
  case ascending => exact ActiveCondition.pairwise_of_alike h htells.ascending
  case keys =>
    intro type url
    rw [← htells.keys]
    constructor
    · rintro ⟨a, ha, rfl, rfl⟩
      obtain ⟨b, hb, hkey, -⟩ := ActiveCondition.exists_of_alike h ha
      exact ⟨b, hb, hkey.1.symm, hkey.2.symm⟩
    · rintro ⟨b, hb, rfl, rfl⟩
      obtain ⟨a, ha, hkey, -⟩ := ActiveCondition.exists_of_alike (ActiveCondition.alike_symm h) hb
      exact ⟨a, ha, hkey.1.symm, hkey.2.symm⟩
  case peaks =>
    intro a ha
    obtain ⟨b, hb, hkey, hequal⟩ := ActiveCondition.exists_of_alike h ha
    refine ⟨b.severity, ?_, .inr hequal⟩
    rw [hkey.1, hkey.2, ← severity?_activeAt,
      ActiveCondition.severity?_of_mem htells.ascending hb]

theorem Shows.tells {s : Segment} (h : Shows conditions s) (hlo : s.start ≤ t) (hhi : t ≤ s.stop) :
    Tells conditions t s.active := by
  rcases h t hlo hhi with heq | halike
  · exact heq ▸ tells_activeAt
  · exact tells_of_alike halike

theorem eq_or_exists_ends (conditions : List ResolvedCondition) :
    (∀ x ∈ times conditions, ∀ y ∈ times conditions, x = y) ∨
      ∃ a b, IsLeast (times conditions) a ∧ IsGreatest (times conditions) b ∧ a < b := by
  by_cases hone : ∀ x ∈ times conditions, ∀ y ∈ times conditions, x = y
  · exact .inl hone
  · push Not at hone
    obtain ⟨x, hx, y, hy, hne⟩ := hone
    have hfinite : (times conditions).Finite :=
      (breakpoints conditions).finite_toSet.subset fun _ h => mem_breakpoints.mpr h
    obtain ⟨a, ha, hmin⟩ := Set.exists_min_image _ id hfinite ⟨x, hx⟩
    obtain ⟨b, hb, hmax⟩ := Set.exists_max_image _ id hfinite ⟨x, hx⟩
    have hxa : a ≤ x := hmin x hx
    have hya : a ≤ y := hmin y hy
    have hxb : x ≤ b := hmax x hx
    have hyb : y ≤ b := hmax y hy
    exact .inr ⟨a, b, ⟨ha, hmin⟩, ⟨hb, hmax⟩, by omega⟩

theorem flatten_eq_nil_of_times (h : ∀ x ∈ times conditions, ∀ y ∈ times conditions, x = y) :
    flatten conditions = [] := by
  by_cases hnone : ∃ x, x ∈ times conditions
  · obtain ⟨a, ha⟩ := hnone
    exact flatten_eq_nil (a := a) fun x hx => h x (mem_breakpoints.mp hx) a ha
  · exact flatten_eq_nil (a := 0) fun x hx => absurd ⟨x, mem_breakpoints.mp hx⟩ hnone

theorem swept_of_times (ha : IsLeast (times conditions) a) (hb : IsGreatest (times conditions) b)
    (hlt : a < b) : Swept conditions a b (flatten conditions) :=
  swept_flatten hlt (mem_breakpoints.mpr ha.1) (mem_breakpoints.mpr hb.1) fun _ hx =>
    ⟨ha.2 (mem_breakpoints.mp hx), hb.2 (mem_breakpoints.mp hx)⟩

/-- Whatever the conditions are, their segments follow one another from the first start or end to
the last, and the only segment over a moment tells the peaks of what is active then. -/
theorem flatten_tells (conditions : List ResolvedCondition) :
    ((∀ x ∈ times conditions, ∀ y ∈ times conditions, x = y) → flatten conditions = []) ∧
      ((∃ x ∈ times conditions, ∃ y ∈ times conditions, x ≠ y) →
        ∃ a b, IsLeast (times conditions) a ∧ IsGreatest (times conditions) b ∧
          Tiles a b (flatten conditions) ∧
          ∀ t, a ≤ t → t < b → ∃ s ∈ flatten conditions, (s.start ≤ t ∧ t ≤ s.stop) ∧
            Tells conditions t s.active ∧
            ∀ s' ∈ flatten conditions, s'.start ≤ t → t ≤ s'.stop → s' = s) := by
  refine ⟨flatten_eq_nil_of_times, ?_⟩
  rintro ⟨x, hx, y, hy, hne⟩
  rcases eq_or_exists_ends conditions with hone | ⟨a, b, ha, hb, hlt⟩
  · exact absurd (hone x hx y hy) hne
  · have hswept := swept_of_times ha hb hlt
    refine ⟨a, b, ha, hb, hswept.tiles, fun t hlo hhi => ?_⟩
    obtain ⟨s, hs, hover⟩ := hswept.tiles.exists_mem hlo hhi
    refine ⟨s, hs, hover, (hswept.shows s hs).tells hover.1 hover.2, fun s' hs' hlo' hhi' => ?_⟩
    exact hswept.tiles.eq_of_over hs' hs ⟨hlo', hhi'⟩ hover

example :
    let one : Binary64 := ⟨0x3ff0000000000000⟩
    flatten [⟨.rain, ⟨0⟩, 0, 4, "v"⟩, ⟨.nothing, one, 3, 6, "v"⟩, ⟨.rain, one, 2, 5, "v"⟩] =
      [⟨0, 1, [⟨.rain, "v", ⟨0⟩⟩]⟩, ⟨2, 4, [⟨.rain, "v", one⟩]⟩, ⟨5, 5, []⟩] := by
  decide +kernel

end Timeline

end DriveLog
