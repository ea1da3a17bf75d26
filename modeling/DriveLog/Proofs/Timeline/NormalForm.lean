import DriveLog.Proofs.Timeline.Peak
/-!
The segments as a normal form. Two neighbours never tell the same, and conditions that are between the
same ends and active alike at every moment come to the same segments. Main statement: this, and that a
condition that is split in two and conditions of no type within the ends leave no trace.
-/
set_option autoImplicit false

namespace DriveLog

namespace ActiveCondition
variable {l m n : List ActiveCondition}

theorem alike_trans (hlm : alike l m = true) (hmn : alike m n = true) : alike l n = true := by
  induction l generalizing m n with
  | nil => cases m <;> simp_all [alike]
  | cons a l ih =>
    cases m with
    | nil => simp [alike] at hlm
    | cons b m =>
      cases n with
      | nil => simp [alike] at hmn
      | cons c n =>
        simp only [alike, Bool.and_eq_true, decide_eq_true_eq, Binary64.equals_iff] at hlm hmn ⊢
        obtain ⟨⟨hab, ha, hb, hkey⟩, hlm⟩ := hlm
        obtain ⟨⟨hbc, -, hc, hkey'⟩, hmn⟩ := hmn
        exact ⟨⟨hab.trans hbc, ha, hc, hkey.trans hkey'⟩, ih hlm hmn⟩

theorem eq_of_severity? (hl : l.Pairwise Before) (hm : m.Pairwise Before)
    (h : ∀ type url, severity? l type url = severity? m type url) : l = m := by
  have hrel : ∀ type url, Option.Rel Eq (severity? l type url) (severity? m type url) := by
    intro type url
    rw [h]
    cases severity? m type url with
    | none => exact .none
    | some x => exact .some rfl
  refine List.forall₂_eq_eq_eq ▸ (forall₂_of_severity? hl hm hrel).imp ?_
  rintro ⟨⟩ ⟨⟩ ⟨⟨rfl, rfl⟩, rfl⟩
  rfl

end ActiveCondition

attribute [ext] Segment

/-- The same segment, severities being compared as numbers. -/
structure Segment.Alike (s s' : Segment) : Prop where
  start : s.start = s'.start
  stop : s.stop = s'.stop
  active : ActiveCondition.alike s.active s'.active = true

namespace Timeline
variable {xs ys conditions : List ResolvedCondition} {a b t : Int} {l m : List Segment}
  {s s' : Segment} {type : ConditionType} {url : String}

theorem Swept.tail (h : Swept conditions a b (s :: l)) : Swept conditions (s.stop + 1) b l where
  tiles := h.tiles.2.2
  started := (List.forall_mem_cons.mp h.started).2
  shows := (List.forall_mem_cons.mp h.shows).2
  parted := h.parted.tail

theorem Swept.active (h : Swept conditions a b (s :: l)) : s.active = activeAt conditions a := by
  rw [h.started s (by simp), h.tiles.1]

/-- Between two sweeps over conditions that are active alike, none of the first segments stops early:
the next one would tell something else. -/
theorem Swept.stop_le (hl : Swept xs a b (s :: l)) (hm : Swept ys a b (s' :: m))
    (hsame : ∀ t, ActiveCondition.alike (activeAt xs t) (activeAt ys t) = true) :
    s'.stop ≤ s.stop := by
  by_contra hlt
  have hwithin := hm.tiles.within s' (by simp)
  obtain ⟨hstart, hle, hrest⟩ := hl.tiles
  cases l with
  | nil =>
    have hend : s.stop + 1 = b := hrest
    omega
  | cons n l =>
    have hparted := (List.isChain_cons_cons.mp hl.parted).1
    -- `s'` is still there when `n` starts, so that the same is told at both moments
    have hshown : s'.active = activeAt ys (s.stop + 1) ∨
        ActiveCondition.alike s'.active (activeAt ys (s.stop + 1)) = true :=
      hm.shows s' (by simp) _ (by have := hm.tiles.1; omega) (by omega)
    have halike : ActiveCondition.alike (activeAt xs a) (activeAt ys (s.stop + 1)) = true := by
      rw [hm.active] at hshown
      rcases hshown with heq | halike
      · exact heq ▸ hsame a
      · exact ActiveCondition.alike_trans (hsame a) halike
    have hnext := ActiveCondition.alike_trans halike (ActiveCondition.alike_symm (hsame _))
    rw [hl.active, hl.tail.active] at hparted
    simp [hnext] at hparted

structure Paired (xs ys : List ResolvedCondition) (s s' : Segment) : Prop where
  start : s.start = s'.start
  stop : s.stop = s'.stop
  left : s.active = activeAt xs s.start
  right : s'.active = activeAt ys s'.start

theorem Swept.forall₂ (hl : Swept xs a b l) (hm : Swept ys a b m)
    (hsame : ∀ t, ActiveCondition.alike (activeAt xs t) (activeAt ys t) = true) :
    List.Forall₂ (Paired xs ys) l m := by
  induction l generalizing a m with
  | nil =>
    obtain rfl : a = b := hl.tiles
    rw [hm.tiles.eq_nil]
    exact .nil
  | cons s l ih =>
    cases m with
    | nil =>
      obtain rfl : a = b := hm.tiles
      cases hl.tiles.eq_nil
    | cons s' m =>
      have hstop : s.stop = s'.stop := Int.le_antisymm
        (hm.stop_le hl fun t => ActiveCondition.alike_symm (hsame t)) (hl.stop_le hm hsame)
      have hstart : s.start = s'.start := hl.tiles.1.trans hm.tiles.1.symm
      refine .cons ⟨hstart, hstop, hl.started s (by simp), hm.started s' (by simp)⟩ ?_
      exact ih hl.tail (hstop ▸ hm.tail)

structure SameEnds (xs ys : List ResolvedCondition) : Prop where
  least : ∀ a, IsLeast (times xs) a ↔ IsLeast (times ys) a
  greatest : ∀ b, IsGreatest (times xs) b ↔ IsGreatest (times ys) b

theorem SameEnds.of_between (hsub : times xs ⊆ times ys)
    (hbetween : ∀ t ∈ times ys, ∃ lo ∈ times xs, ∃ hi ∈ times xs, lo ≤ t ∧ t ≤ hi) :
    SameEnds xs ys := by
  constructor
  case least =>
    intro a
    constructor
    · rintro ⟨ha, hmin⟩
      refine ⟨hsub ha, fun t ht => ?_⟩
      obtain ⟨lo, hlo, -, -, hle, -⟩ := hbetween t ht
      exact Int.le_trans (hmin hlo) hle
    · rintro ⟨ha, hmin⟩
      obtain ⟨lo, hlo, -, -, hle, -⟩ := hbetween a ha
      obtain rfl : lo = a := Int.le_antisymm hle (hmin (hsub hlo))
      exact ⟨hlo, fun t ht => hmin (hsub ht)⟩
  case greatest =>
    intro b
    constructor
    · rintro ⟨hb, hmax⟩
      refine ⟨hsub hb, fun t ht => ?_⟩
      obtain ⟨-, -, hi, hhi, -, hle⟩ := hbetween t ht
      exact Int.le_trans hle (hmax hhi)
    · rintro ⟨hb, hmax⟩
      obtain ⟨-, -, hi, hhi, -, hle⟩ := hbetween b hb
      obtain rfl : hi = b := Int.le_antisymm (hmax (hsub hhi)) hle
      exact ⟨hhi, fun t ht => hmax (hsub ht)⟩

theorem SameEnds.forall₂ (h : SameEnds xs ys)
    (hsame : ∀ t, ActiveCondition.alike (activeAt xs t) (activeAt ys t) = true) :
    List.Forall₂ (Paired xs ys) (flatten xs) (flatten ys) := by
  rcases eq_or_exists_ends xs with hone | ⟨a, b, ha, hb, hlt⟩
  · rcases eq_or_exists_ends ys with hone' | ⟨a, b, ha, hb, hlt⟩
    · rw [flatten_eq_nil_of_times hone, flatten_eq_nil_of_times hone']
      exact .nil
    · have := hone a ((h.least a).mpr ha).1 b ((h.greatest b).mpr hb).1
      omega
  · have hswept := swept_of_times ((h.least a).mp ha) ((h.greatest b).mp hb) hlt
    exact (swept_of_times ha hb hlt).forall₂ hswept hsame

def Numeric (conditions : List ResolvedCondition) : Prop :=
  ∀ c ∈ conditions, c.type ≠ .nothing → c.severity.isNaN = false

def SameActive (xs ys : List ResolvedCondition) : Prop :=
  ∀ t type url, peakAt xs t type url = peakAt ys t type url

/-- At every moment the same keys are active, at peaks that are equal as numbers. -/
def AlikeActive (xs ys : List ResolvedCondition) : Prop :=
  ∀ t type url, Option.Rel (fun x y => x.equals y = true) (peakAt xs t type url)
    (peakAt ys t type url)

theorem Numeric.of_peakAt {x : Binary64} (h : Numeric conditions)
    (hx : peakAt conditions t type url = some x) : x.isNaN = false := by
  induction conditions using List.reverseRecOn generalizing x with
  | nil => simp [peakAt, severitiesAt, Binary64.peak?] at hx
  | append_singleton conditions c ih =>
    have hnumeric : Numeric conditions := fun d hd => h d (by simp [hd])
    rw [peakAt_concat] at hx
    split at hx
    · rename_i hactive
      have hc : c.severity.isNaN = false := h c (by simp) hactive.1.1
      cases hpeak : peakAt conditions t type url with
      | none =>
        obtain rfl : c.severity = x := by simpa [hpeak] using hx
        exact hc
      | some y =>
        obtain rfl : y.max c.severity = x := by simpa [hpeak] using hx
        rcases Binary64.max_eq_or y c.severity with hmax | hmax
        · rw [hmax]
          exact ih hnumeric hpeak
        · rw [hmax]
          exact hc
    · exact ih hnumeric hx

theorem SameActive.alikeActive (h : SameActive xs ys) (hx : Numeric xs) : AlikeActive xs ys := by
  intro t type url
  rw [← h t type url]
  cases hpeak : peakAt xs t type url with
  | none => exact .none
  | some x =>
    have hnumber := hx.of_peakAt hpeak
    exact .some ((Binary64.equals_iff _ _).mpr ⟨hnumber, hnumber, rfl⟩)

theorem SameActive.activeAt_eq (h : SameActive xs ys) (t : Int) : activeAt xs t = activeAt ys t := by
  refine ActiveCondition.eq_of_severity? pairwise_activeAt pairwise_activeAt fun type url => ?_
  rw [severity?_activeAt, severity?_activeAt, h]

theorem AlikeActive.alike (h : AlikeActive xs ys) (t : Int) :
    ActiveCondition.alike (activeAt xs t) (activeAt ys t) = true := by
  refine ActiveCondition.alike_iff.mpr (ActiveCondition.forall₂_of_severity?
    (R := fun x y => x.equals y = true) pairwise_activeAt pairwise_activeAt fun type url => ?_)
  rw [severity?_activeAt, severity?_activeAt]
  exact h t type url

theorem AlikeActive.flatten_alike (h : AlikeActive xs ys) (hends : SameEnds xs ys) :
    List.Forall₂ Segment.Alike (flatten xs) (flatten ys) := by
  refine (hends.forall₂ h.alike).imp fun s s' hs => ⟨hs.start, hs.stop, ?_⟩
  rw [hs.left, hs.right, hs.start]
  exact h.alike _

theorem SameActive.flatten_eq (h : SameActive xs ys) (hx : Numeric xs) (hends : SameEnds xs ys) :
    flatten xs = flatten ys := by
  refine List.forall₂_eq_eq_eq ▸ (hends.forall₂ (h.alikeActive hx).alike).imp fun s s' hs => ?_
  have hactive : s.active = s'.active := by rw [hs.left, hs.right, hs.start, h.activeAt_eq]
  exact Segment.ext hs.start hs.stop hactive

theorem parted_flatten (conditions : List ResolvedCondition) :
    (flatten conditions).IsChain fun s s' =>
      ActiveCondition.alike s.active s'.active = false := by
  rcases eq_or_exists_ends conditions with hone | ⟨a, b, ha, hb, hlt⟩
  · rw [flatten_eq_nil_of_times hone]
    exact .nil
  · exact (swept_of_times ha hb hlt).parted

theorem severitiesAt_append (xs ys : List ResolvedCondition) :
    severitiesAt (xs ++ ys) t type url =
      severitiesAt xs t type url ++ severitiesAt ys t type url := by
  simp [severitiesAt]

theorem severitiesAt_cons (c : ResolvedCondition) (xs : List ResolvedCondition) :
    severitiesAt (c :: xs) t type url =
      if c.IsActiveAt t ∧ c.type = type ∧ c.url = url then c.severity :: severitiesAt xs t type url
      else severitiesAt xs t type url := by
  by_cases h : c.IsActiveAt t ∧ c.type = type ∧ c.url = url <;> simp [severitiesAt, h]

theorem severitiesAt_split {before after : List ResolvedCondition} {c : ResolvedCondition} {p : Int}
    (hlo : c.start < p) (hhi : p < c.stop) :
    severitiesAt (before ++ { c with stop := p } :: { c with start := p } :: after) t type url =
      severitiesAt (before ++ c :: after) t type url := by
  have hfirst : ({ c with stop := p } : ResolvedCondition).IsActiveAt t ↔ c.IsActiveAt t ∧ t < p := by
    simp only [ResolvedCondition.IsActiveAt, and_assoc]
    refine and_congr_right fun _ => ?_
    omega
  have hsecond : ({ c with start := p } : ResolvedCondition).IsActiveAt t ↔
      c.IsActiveAt t ∧ ¬ t < p := by
    simp only [ResolvedCondition.IsActiveAt, and_assoc]
    refine and_congr_right fun _ => ?_
    omega
  by_cases ht : t < p <;> simp [severitiesAt_append, severitiesAt_cons, hfirst, hsecond, ht]

theorem mem_times_split {before after : List ResolvedCondition} {c : ResolvedCondition} {p x : Int} :
    x ∈ times (before ++ { c with stop := p } :: { c with start := p } :: after) ↔
      x = p ∨ x ∈ times (before ++ c :: after) := by
  by_cases hx : x = p <;> simp [times, or_and_right, exists_or, or_assoc, hx]

theorem flatten_split {before after : List ResolvedCondition} {c : ResolvedCondition} {p : Int}
    (hnumeric : Numeric (before ++ c :: after)) (hlo : c.start < p) (hhi : p < c.stop) :
    flatten (before ++ { c with stop := p } :: { c with start := p } :: after) =
      flatten (before ++ c :: after) := by
  have hactive : SameActive (before ++ c :: after)
      (before ++ { c with stop := p } :: { c with start := p } :: after) := by
    intro t type url
    rw [peakAt, peakAt, severitiesAt_split hlo hhi]
  have hends : SameEnds (before ++ c :: after)
      (before ++ { c with stop := p } :: { c with start := p } :: after) := by
    refine SameEnds.of_between (fun x hx => mem_times_split.mpr (.inr hx)) fun x hx => ?_
    have hc : c ∈ before ++ c :: after := by simp
    rcases mem_times_split.mp hx with rfl | hx
    · exact ⟨c.start, ⟨c, hc, .inl rfl⟩, c.stop, ⟨c, hc, .inr rfl⟩, by omega, by omega⟩
    · exact ⟨x, hx, x, hx, Int.le_refl _, Int.le_refl _⟩
  exact (hactive.flatten_eq hnumeric hends).symm

-- without numbers a split shows: a NaN is not alike to itself
example :
    let c : ResolvedCondition := ⟨.rain, ⟨0x7ff8000000000000⟩, 0, 2, "v"⟩
    (flatten [c]).length = 1 ∧ (flatten [{ c with stop := 1 }, { c with start := 1 }]).length = 2 := by
  decide +kernel

theorem severitiesAt_filter (conditions : List ResolvedCondition) :
    severitiesAt (conditions.filter fun c => c.type ≠ .nothing) t type url =
      severitiesAt conditions t type url := by
  unfold severitiesAt
  rw [List.filter_filter]
  congr 1
  refine List.filter_congr fun c _ => ?_
  by_cases htype : c.type = .nothing <;> simp [ResolvedCondition.IsActiveAt, htype]

theorem flatten_fill (hnumeric : Numeric xs) (hsub : xs.Sublist ys)
    (htyped : ys.filter (fun c => c.type ≠ .nothing) = xs.filter fun c => c.type ≠ .nothing)
    (hbetween : ∀ t ∈ times ys, ∃ lo ∈ times xs, ∃ hi ∈ times xs, lo ≤ t ∧ t ≤ hi) :
    flatten ys = flatten xs := by
  have hactive : SameActive xs ys := by
    intro t type url
    rw [peakAt, peakAt, ← severitiesAt_filter xs, ← severitiesAt_filter ys, htyped]
  have htimes : times xs ⊆ times ys := by
    rintro x ⟨c, hc, hx⟩
    exact ⟨c, hsub.mem hc, hx⟩
  exact (hactive.flatten_eq hnumeric (SameEnds.of_between htimes hbetween)).symm

/-- The segments are a normal form of the ends and of what is active at every moment. In particular
neither a condition that is split in two nor conditions of no type leave a trace. -/
theorem flatten_normal :
    (∀ conditions, (flatten conditions).IsChain fun s s' =>
      ActiveCondition.alike s.active s'.active = false) ∧
    (∀ xs ys, SameEnds xs ys →
      (Numeric xs → Numeric ys → SameActive xs ys → flatten xs = flatten ys) ∧
      (AlikeActive xs ys → List.Forall₂ Segment.Alike (flatten xs) (flatten ys))) ∧
    (∀ (before after : List ResolvedCondition) (c : ResolvedCondition) (p : Int),
      Numeric (before ++ c :: after) → c.start < p → p < c.stop →
      flatten (before ++ { c with stop := p } :: { c with start := p } :: after) =
        flatten (before ++ c :: after)) ∧
    ∀ xs ys, Numeric xs → xs.Sublist ys →
      (ys.filter fun c => c.type ≠ .nothing) = (xs.filter fun c => c.type ≠ .nothing) →
      (∀ t ∈ times ys, ∃ lo ∈ times xs, ∃ hi ∈ times xs, lo ≤ t ∧ t ≤ hi) →
      flatten ys = flatten xs := by
  refine ⟨parted_flatten, fun xs ys hends => ⟨?_, ?_⟩, ?_, ?_⟩
  · intro hx _ hactive
    exact hactive.flatten_eq hx hends
  · intro hactive
    exact hactive.flatten_alike hends
  · intro before after c p hnumeric hlo hhi
    exact flatten_split hnumeric hlo hhi
  · intro xs ys hnumeric hsub htyped hbetween
    exact flatten_fill hnumeric hsub htyped hbetween

end Timeline

end DriveLog
