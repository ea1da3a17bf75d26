import DriveLog.Proofs.Timeline.Active
import Mathlib.Data.List.Chain
set_option autoImplicit false

namespace DriveLog

/-- The segments follow one another from `a` up to but not including `b`. -/
def Tiles (a b : Int) : List Segment → Prop
  | [] => a = b
  | s :: rest => s.start = a ∧ s.start ≤ s.stop ∧ Tiles (s.stop + 1) b rest

theorem Tiles.le {a b : Int} {l : List Segment} (h : Tiles a b l) : a ≤ b := by
  induction l generalizing a with
  | nil => exact Int.le_of_eq h
  | cons s rest ih =>
    obtain ⟨rfl, hle, hrest⟩ := h
    have := ih hrest
    omega

theorem Tiles.within {a b : Int} {l : List Segment} (h : Tiles a b l) :
    ∀ s ∈ l, a ≤ s.start ∧ s.stop < b := by
  induction l generalizing a with
  | nil => simp
  | cons s rest ih =>
    obtain ⟨rfl, hle, hrest⟩ := h
    have hstop := hrest.le
    refine List.forall_mem_cons.mpr ⟨⟨Int.le_refl _, by omega⟩, fun s' hs' => ?_⟩
    have := ih hrest s' hs'
    omega

theorem Tiles.exists_mem {a b t : Int} {l : List Segment} (h : Tiles a b l) (hlo : a ≤ t)
    (hhi : t < b) : ∃ s ∈ l, s.start ≤ t ∧ t ≤ s.stop := by
  induction l generalizing a with
  | nil =>
    have hab : a = b := h
    omega
  | cons s rest ih =>
    obtain ⟨rfl, hle, hrest⟩ := h
    by_cases hstop : t ≤ s.stop
    · exact ⟨s, by simp, hlo, hstop⟩
    · obtain ⟨s', hs', hover⟩ := ih hrest (by omega)
      exact ⟨s', by simp [hs'], hover⟩

theorem Tiles.eq_of_over {a b t : Int} {l : List Segment} {s s' : Segment} (h : Tiles a b l)
    (hs : s ∈ l) (hs' : s' ∈ l) (hover : s.start ≤ t ∧ t ≤ s.stop)
    (hover' : s'.start ≤ t ∧ t ≤ s'.stop) : s = s' := by
  induction l generalizing a with
  | nil => simp at hs
  | cons d rest ih =>
    obtain ⟨-, -, hrest⟩ := h
    have hafter := hrest.within
    rcases List.mem_cons.mp hs with heq | hmem
    · rcases List.mem_cons.mp hs' with heq' | hmem'
      · rw [heq, heq']
      · have := hafter s' hmem'
        subst heq
        omega
    · rcases List.mem_cons.mp hs' with heq' | hmem'
      · have := hafter s hmem
        subst heq'
        omega
      · exact ih hrest hmem hmem'

theorem Tiles.eq_nil {a : Int} {l : List Segment} (h : Tiles a a l) : l = [] := by
  cases l with
  | nil => rfl
  | cons s rest =>
    obtain ⟨hstart, hle, hrest⟩ := h
    have := hrest.le
    omega

namespace Timeline
variable {conditions : List ResolvedCondition} {a b p q t x : Int} {l : List Int}

theorem gathers_foldl {l : List ActiveCondition} {given : Set ActiveCondition}
    (h : ActiveCondition.Gathers l given) (hgiven : ∀ g ∈ given, g.severity.isNaN = false)
    (hc : ∀ c ∈ conditions, c.severity.isNaN = false) :
    ActiveCondition.Gathers (conditions.foldl (fun l c => c.toActive.add l) l)
      {g | g ∈ given ∨ ∃ c ∈ conditions, c.toActive = g} := by
  induction conditions generalizing l given with
  | nil => simpa using h
  | cons c rest ih =>
    obtain ⟨hc, hrest⟩ := List.forall_mem_cons.mp hc
    have hset : {g | g ∈ insert c.toActive given ∨ ∃ c ∈ rest, c.toActive = g} =
        {g | g ∈ given ∨ ∃ d ∈ c :: rest, d.toActive = g} := by
      ext g
      simp only [Set.mem_insert_iff, Set.mem_ofPred_eq, List.exists_mem_cons_iff]
      tauto
    rw [← hset]
    refine ih (h.add hgiven hc) (fun g hg => ?_) hrest
    rcases Set.mem_insert_iff.mp hg with rfl | hg
    · exact hc
    · exact hgiven g hg

def givenAt (conditions : List ResolvedCondition) (t : Int) : Set ActiveCondition :=
  {g | ∃ c ∈ conditions, c.IsActiveAt t ∧ c.toActive = g}

theorem gathers_activeAt (h : ∀ c ∈ conditions, c.severity.isNaN = false) (t : Int) :
    ActiveCondition.Gathers (activeAt conditions t) (givenAt conditions t) := by
  have hactive : ∀ c ∈ conditions.filter fun c => c.IsActiveAt t, c.severity.isNaN = false :=
    fun c hc => h c (List.mem_filter.mp hc).1
  have hfold := gathers_foldl ActiveCondition.gathers_nil (by simp) hactive
  have hset : {g | g ∈ (∅ : Set ActiveCondition) ∨
      ∃ c ∈ conditions.filter fun c => c.IsActiveAt t, c.toActive = g} = givenAt conditions t := by
    ext g
    simp [givenAt, and_assoc]
  rwa [hset] at hfold

theorem mem_insertPoint : x ∈ insertPoint t l ↔ x = t ∨ x ∈ l := by
  induction l with
  | nil => simp [insertPoint]
  | cons s l ih =>
    unfold insertPoint
    split
    · simp
    · split
      · simp_all
      · rw [List.mem_cons, ih, List.mem_cons]
        tauto

theorem pairwise_insertPoint (h : l.Pairwise (· < ·)) : (insertPoint t l).Pairwise (· < ·) := by
  induction l with
  | nil => simp [insertPoint]
  | cons s l ih =>
    obtain ⟨hs, hl⟩ := List.pairwise_cons.mp h
    unfold insertPoint
    split
    · rename_i hlt
      exact h.cons (List.forall_mem_cons.mpr ⟨hlt, fun x hx => Int.lt_trans hlt (hs x hx)⟩)
    · split
      · exact h
      · refine (ih hl).cons fun x hx => ?_
        rcases mem_insertPoint.mp hx with rfl | hx
        · omega
        · exact hs x hx

theorem mem_breakpoints : x ∈ breakpoints conditions ↔ ∃ c ∈ conditions, x = c.start ∨ x = c.stop := by
  unfold breakpoints
  induction conditions with
  | nil => simp
  | cons c rest ih =>
    rw [List.foldr_cons, mem_insertPoint, mem_insertPoint, ih]
    simp [or_assoc]

theorem pairwise_breakpoints : (breakpoints conditions).Pairwise (· < ·) := by
  unfold breakpoints
  induction conditions with
  | nil => exact .nil
  | cons c rest ih => exact pairwise_insertPoint (pairwise_insertPoint ih)

/-- Between two neighbouring breakpoints nothing starts or ends. -/
theorem activeAt_eq (h : ∀ x ∈ breakpoints conditions, x ≤ q ∨ p ≤ x) (hq : q ≤ t) (hp : t < p) :
    activeAt conditions t = activeAt conditions q := by
  unfold activeAt
  congr 1
  refine List.filter_congr fun c hc => decide_eq_decide.mpr (and_congr_right fun _ => ?_)
  have hstart := h c.start (mem_breakpoints.mpr ⟨c, hc, .inl rfl⟩)
  have hstop := h c.stop (mem_breakpoints.mpr ⟨c, hc, .inr rfl⟩)
  omega

/-- The segment tells, at every moment that it is over, what is active then, up to equality of
numbers. -/
def Faithful (conditions : List ResolvedCondition) (s : Segment) : Prop :=
  ∀ t, s.start ≤ t → t ≤ s.stop → ActiveCondition.alike s.active (activeAt conditions t) = true

def Shows (conditions : List ResolvedCondition) (s : Segment) : Prop :=
  ∀ t, s.start ≤ t → t ≤ s.stop → s.active = activeAt conditions t ∨
    ActiveCondition.alike s.active (activeAt conditions t) = true

theorem Shows.faithful {s : Segment} (h : Shows conditions s)
    (hc : ∀ c ∈ conditions, c.severity.isNaN = false) : Faithful conditions s := by
  intro t hlo hhi
  rcases h t hlo hhi with heq | halike
  · rw [heq]
    refine ActiveCondition.alike_refl ((gathers_activeAt hc t).isNaN ?_)
    rintro g ⟨c, hmem, -, rfl⟩
    exact hc c hmem
  · exact halike

theorem shows_segmentOver (h : ∀ x ∈ breakpoints conditions, x ≤ q ∨ p ≤ x) :
    Shows conditions (segmentOver conditions (q, p)) := by
  intro t hlo hhi
  simp only [segmentOver] at hlo hhi ⊢
  exact .inl (activeAt_eq h hlo (by omega)).symm

structure Remaining (conditions : List ResolvedCondition) (q : Int) (rest : List Int) (b : Int) :
    Prop where
  ascending : (q :: rest).Pairwise (· < ·)
  points : ∀ x ∈ breakpoints conditions, x ≤ q ∨ x ∈ rest
  last : (q :: rest).getLast? = some b

theorem Remaining.tail {rest : List Int} (h : Remaining conditions q (p :: rest) b) :
    Remaining conditions p rest b where
  ascending := h.ascending.of_cons
  points := by
    intro x hx
    have hqp : q < p := (List.pairwise_cons.mp h.ascending).1 p (by simp)
    rcases h.points x hx with hle | hmem
    · exact .inl (by omega)
    · exact (List.mem_cons.mp hmem).imp_left Int.le_of_eq
  last := by simpa using h.last

theorem Remaining.gap {rest : List Int} (h : Remaining conditions q (p :: rest) b) :
    ∀ x ∈ breakpoints conditions, x ≤ q ∨ p ≤ x := by
  intro x hx
  have hrest := (List.pairwise_cons.mp h.ascending.of_cons).1
  refine (h.points x hx).imp_right fun hmem => ?_
  rcases List.mem_cons.mp hmem with rfl | hmem
  · exact Int.le_refl _
  · exact Int.le_of_lt (hrest x hmem)

/-- What a sweep from `a` to `b` comes to. Each segment tells what is active at its start and keeps to
it, and the next one tells something else. -/
structure Swept (conditions : List ResolvedCondition) (a b : Int) (l : List Segment) : Prop where
  tiles : Tiles a b l
  started : ∀ s ∈ l, s.active = activeAt conditions s.start
  shows : ∀ s ∈ l, Shows conditions s
  parted : l.IsChain fun s s' => ActiveCondition.alike s.active s'.active = false

theorem active_of_head {ws : List (Int × Int)} {current s : Segment}
    (h : s ∈ (segmentsFrom conditions current ws).head?) : s.active = current.active := by
  induction ws generalizing current with
  | nil => simp_all [segmentsFrom]
  | cons w ws ih =>
    unfold segmentsFrom at h
    simp only at h
    split at h
    · have hsame : s.active = ({ current with stop := w.2 - 1 } : Segment).active := ih h
      exact hsame
    · simp_all

theorem windows_cons_cons (q p : Int) (rest : List Int) :
    windows (q :: p :: rest) = (q, p) :: windows (p :: rest) := rfl

theorem swept_segmentsFrom {rest : List Int} (hrest : Remaining conditions q rest b)
    {current : Segment} (hle : current.start ≤ current.stop) (hstop : current.stop + 1 = q)
    (hstart : current.active = activeAt conditions current.start)
    (hshows : Shows conditions current) :
    Swept conditions current.start b (segmentsFrom conditions current (windows (q :: rest))) := by
  induction rest generalizing q current with
  | nil =>
    have hqb : q = b := by simpa using hrest.last
    simp only [windows, segmentsFrom, List.tail_cons, List.zip_nil_right]
    exact ⟨⟨rfl, hle, hstop.trans hqb⟩, by simpa using hstart, by simpa using hshows, .singleton _⟩
  | cons p rest ih =>
    have hqp : q < p := (List.pairwise_cons.mp hrest.ascending).1 p (by simp)
    rw [windows_cons_cons]
    unfold segmentsFrom
    simp only
    split
    · rename_i halike
      -- the current segment goes on over the window
      have hwidened : Shows conditions { current with stop := p - 1 } := by
        intro t hlo hhi
        by_cases hold : t ≤ current.stop
        · exact hshows t hlo hold
        · simp only at hhi ⊢
          rw [activeAt_eq hrest.gap (by omega) (by omega)]
          exact .inr halike
      have hlong : current.start ≤ p - 1 := by omega
      show Swept conditions ({ current with stop := p - 1 } : Segment).start b _
      exact ih hrest.tail hlong (by simp) hstart hwidened
    · rename_i hdiffer
      have hlong : q ≤ p - 1 := by omega
      have hnext : Swept conditions (segmentOver conditions (q, p)).start b _ :=
        ih hrest.tail hlong (by simp [segmentOver]) rfl (shows_segmentOver hrest.gap)
      constructor
      case tiles => exact ⟨rfl, hle, hstop ▸ hnext.tiles⟩
      case started => exact List.forall_mem_cons.mpr ⟨hstart, hnext.started⟩
      case shows => exact List.forall_mem_cons.mpr ⟨hshows, hnext.shows⟩
      case parted =>
        refine List.isChain_cons.mpr ⟨fun s hs => ?_, hnext.parted⟩
        rw [active_of_head hs]
        exact Bool.eq_false_iff.mpr hdiffer

theorem flatten_eq_nil (h : ∀ x ∈ breakpoints conditions, x = a) : flatten conditions = [] := by
  have hasc : (breakpoints conditions).Pairwise (· < ·) := pairwise_breakpoints
  unfold flatten
  match hl : breakpoints conditions with
  | [] => rfl
  | [p] => rfl
  | p :: q :: rest =>
    rw [hl] at hasc h
    have hpq : p < q := (List.pairwise_cons.mp hasc).1 q (by simp)
    have hp := h p (by simp)
    have hq := h q (by simp)
    omega

theorem getLast?_eq_some (hasc : l.Pairwise (· < ·)) (hb : b ∈ l) (hmax : ∀ x ∈ l, x ≤ b) :
    l.getLast? = some b := by
  induction l with
  | nil => simp at hb
  | cons p rest ih =>
    cases rest with
    | nil => simpa [eq_comm] using hb
    | cons q rest =>
      have hpq : p < q := (List.pairwise_cons.mp hasc).1 q (by simp)
      have hq := hmax q (by simp)
      have hb' : b ∈ q :: rest := (List.mem_cons.mp hb).resolve_left (by omega)
      simpa using ih hasc.of_cons hb' fun x hx => hmax x (List.mem_cons_of_mem p hx)

theorem exists_breakpoints (hlt : a < b) (ha : a ∈ breakpoints conditions)
    (hb : b ∈ breakpoints conditions) (hpoints : ∀ x ∈ breakpoints conditions, a ≤ x ∧ x ≤ b) :
    ∃ q rest, breakpoints conditions = a :: q :: rest := by
  have hasc : (breakpoints conditions).Pairwise (· < ·) := pairwise_breakpoints
  match hl : breakpoints conditions with
  | [] => simp [hl] at ha
  | [p] =>
    simp only [hl, List.mem_singleton] at ha hb
    omega
  | p :: q :: rest =>
    rw [hl] at hasc ha hpoints
    have hap := (hpoints p (by simp)).1
    rcases List.mem_cons.mp ha with heq | hmem
    · exact ⟨q, rest, by rw [heq]⟩
    · have hpa := (List.pairwise_cons.mp hasc).1 a hmem
      omega

theorem swept_flatten (hlt : a < b) (ha : a ∈ breakpoints conditions)
    (hb : b ∈ breakpoints conditions) (hpoints : ∀ x ∈ breakpoints conditions, a ≤ x ∧ x ≤ b) :
    Swept conditions a b (flatten conditions) := by
  have hlast := getLast?_eq_some pairwise_breakpoints hb fun x hx => (hpoints x hx).2
  obtain ⟨q, rest, hl⟩ := exists_breakpoints hlt ha hb hpoints
  have hall : Remaining conditions a (q :: rest) b :=
    ⟨hl ▸ pairwise_breakpoints,
      fun x hx => (List.mem_cons.mp (hl ▸ hx)).imp_left Int.le_of_eq, hl ▸ hlast⟩
  have hflat : flatten conditions = segmentsFrom conditions (segmentOver conditions (a, q))
      (windows (q :: rest)) := by
    simp [flatten, hl, windows]
  have hlong : a ≤ q - 1 := by
    have := (List.pairwise_cons.mp hall.ascending).1 q (by simp)
    omega
  rw [hflat]
  exact swept_segmentsFrom hall.tail hlong (by simp [segmentOver]) rfl (shows_segmentOver hall.gap)

theorem flatten_spec (hc : ∀ c ∈ conditions, c.severity.isNaN = false) (hab : a ≤ b)
    (hwithin : ∀ c ∈ conditions, a ≤ c.start ∧ c.start ≤ c.stop ∧ c.stop ≤ b)
    (hends : a < b → (∃ c ∈ conditions, c.start = a) ∧ ∃ c ∈ conditions, c.stop = b) :
    Tiles a b (flatten conditions) ∧ ∀ s ∈ flatten conditions, Faithful conditions s := by
  have hpoints : ∀ x ∈ breakpoints conditions, a ≤ x ∧ x ≤ b := by
    intro x hx
    obtain ⟨c, hmem, hxc⟩ := mem_breakpoints.mp hx
    have := hwithin c hmem
    omega
  by_cases hlt : a < b
  · obtain ⟨⟨c, hmem, rfl⟩, ⟨d, hmem', rfl⟩⟩ := hends hlt
    have hswept := swept_flatten hlt (mem_breakpoints.mpr ⟨c, hmem, .inl rfl⟩)
      (mem_breakpoints.mpr ⟨d, hmem', .inr rfl⟩) hpoints
    exact ⟨hswept.tiles, fun s hs => (hswept.shows s hs).faithful hc⟩
  · have hnil : flatten conditions = [] := flatten_eq_nil (a := a) fun x hx => by
      have := hpoints x hx
      omega
    rw [hnil]
    exact ⟨Int.le_antisymm hab (Int.not_lt.mp hlt), by simp⟩

end Timeline

end DriveLog
