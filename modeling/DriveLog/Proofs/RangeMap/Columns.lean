import DriveLog.Proofs.RangeMap
/-!
Maps in two columns, one of ranges and one of values. Here an insertion looks at no more than two ranges:
the last one that starts no later than the new one, and the one after it. Main statement: in columns that
are in order this is the same as looking at every entry.
-/
set_option autoImplicit false

namespace DriveLog

/-- Ranges and their values, in the same places. -/
structure Columns (α : Type) where
  ranges : List Range
  values : List α
  deriving DecidableEq, Repr

namespace Columns
variable {α : Type}

def empty : Columns α := ⟨[], []⟩

/-- The place of the first range that starts after the point. -/
def upperIndex (c : Columns α) (point : Int) : Nat := c.ranges.findIdx fun r => point < r.lower

def valueBefore? (c : Columns α) (point : Int) : Nat → Option α
  | 0 => none
  | i + 1 => if (c.ranges[i]?).any fun r => r.Contains point then c.values[i]? else none

def get? (c : Columns α) (point : Int) : Option α := c.valueBefore? point (c.upperIndex point)

def insertAt (c : Columns α) (r : Range) (a : α) (i : Nat) : Except RangeMapError (Columns α) :=
  match c.ranges[i]? with
  | some next =>
    if next.lower < r.upper then .error (.upperBoundOverlap r next)
    else .ok ⟨c.ranges.insertIdx i r, c.values.insertIdx i a⟩
  | none => .ok ⟨c.ranges.insertIdx i r, c.values.insertIdx i a⟩

/-- Puts a range after the one before the place `i`, or replaces its value if it is the same. -/
def insertAfter (c : Columns α) (r : Range) (a : α) : Nat → Except RangeMapError (Columns α)
  | 0 => c.insertAt r a 0
  | i + 1 =>
    match c.ranges[i]? with
    | some prev =>
      if prev = r then .ok { c with values := c.values.set i a }
      else if r.lower < prev.upper then .error (.lowerBoundOverlap r prev)
      else c.insertAt r a (i + 1)
    | none => c.insertAt r a (i + 1)

def insert (c : Columns α) (r : Range) (a : α) : Except RangeMapError (Columns α) :=
  if r.upper ≤ r.lower then .error (.invalidRange r)
  else c.insertAfter r a (c.upperIndex r.lower)

def attempt (c : Columns α) (e : Range × α) : Columns α :=
  match c.insert e.1 e.2 with
  | .ok d => d
  | .error _ => c

def attempts (tried : List (Range × α)) : Columns α := tried.foldl attempt empty

def cons (e : Range × α) (c : Columns α) : Columns α := ⟨e.1 :: c.ranges, e.2 :: c.values⟩

variable {c : Columns α} {e : Range × α} {r : Range} {a : α} {point : Int} {i : Nat}

theorem upperIndex_cons : (c.cons e).upperIndex point =
    if point < e.1.lower then 0 else c.upperIndex point + 1 := by
  by_cases h : point < e.1.lower
  · simp [upperIndex, cons, List.findIdx_cons, h]
  · simp [upperIndex, cons, List.findIdx_cons, h]

theorem upperIndex_eq_zero (h : ∀ s ∈ c.ranges, point < s.lower) : c.upperIndex point = 0 := by
  unfold upperIndex
  cases hranges : c.ranges with
  | nil => rfl
  | cons s rest => simp [List.findIdx_cons, h s (by simp [hranges])]

theorem valueBefore?_cons (h : e.1.upper ≤ point) :
    (c.cons e).valueBefore? point (i + 1) = c.valueBefore? point i := by
  cases i with
  | zero =>
    have hnot : ¬ e.1.Contains point := fun hcontains => by
      have hlt := hcontains.2
      omega
    simp [valueBefore?, cons, hnot]
  | succ i => rfl

theorem insertAt_cons : (c.cons e).insertAt r a (i + 1) = cons e <$> c.insertAt r a i := by
  unfold insertAt
  simp only [cons, List.getElem?_cons_succ, List.insertIdx_succ_cons]
  cases c.ranges[i]? with
  | none => rfl
  | some next =>
    by_cases h : next.lower < r.upper
    · simp only [if_pos h]
      rfl
    · simp only [if_neg h]
      rfl

theorem insertAfter_cons (he : e.1.lower < e.1.upper) (h : e.1.upper ≤ r.lower) :
    (c.cons e).insertAfter r a (i + 1) = cons e <$> c.insertAfter r a i := by
  cases i with
  | zero =>
    have hne : e.1 ≠ r := by
      rintro rfl
      omega
    have hlower : ¬ r.lower < e.1.upper := by omega
    have hfirst : (c.cons e).ranges[0]? = some e.1 := rfl
    simp only [insertAfter, hfirst, if_neg hne, if_neg hlower, insertAt_cons]
  | succ i =>
    have hprev : (c.cons e).ranges[i + 1]? = c.ranges[i]? := rfl
    simp only [insertAfter, hprev, insertAt_cons]
    cases c.ranges[i]? with
    | none => rfl
    | some prev =>
      by_cases hsame : prev = r
      · simp only [if_pos hsame]
        rfl
      simp only [if_neg hsame]
      by_cases hlower : r.lower < prev.upper
      · simp only [if_pos hlower]
        rfl
      · simp only [if_neg hlower]

end Columns

namespace RangeMap
variable {α : Type} {m : RangeMap α} {r : Range} {a : α}

def columns (m : RangeMap α) : Columns α := ⟨m.ranges, m.entries.map Prod.snd⟩

theorem columns_cons (e : Range × α) (rest : List (Range × α)) :
    (RangeMap.mk (e :: rest)).columns = (RangeMap.mk rest).columns.cons e := rfl

/-- What is found next to the point is what is found among all entries. -/
theorem Ordered.columns_get? (h : m.Ordered) (point : Int) : m.columns.get? point = m.get? point := by
  obtain ⟨entries⟩ := m
  induction entries with
  | nil => rfl
  | cons e rest ih =>
    have hrest := ih h.of_cons
    have hupper : ∀ s ∈ (RangeMap.mk rest).columns.ranges, e.1.upper ≤ s.lower := fun s hs =>
      (h.upper_le hs).2
    have hlt : e.1.lower < e.1.upper := h.lower_lt e.1 List.mem_cons_self
    have hskip : ¬ e.1.Contains point →
        (RangeMap.mk (e :: rest)).get? point = (RangeMap.mk rest).get? point :=
      fun hnot => by simp [RangeMap.get?, hnot]
    rw [columns_cons, Columns.get?, Columns.upperIndex_cons]
    by_cases hlow : point < e.1.lower
    · -- all ranges start after the point
      rw [if_pos hlow, hskip fun hcontains => by have hle := hcontains.1; omega]
      refine (get?_eq_none_iff.mpr fun s hs hcontains => ?_).symm
      have hle := hupper s hs
      have hle' := hcontains.1
      omega
    rw [if_neg hlow]
    by_cases hafter : e.1.upper ≤ point
    · rw [Columns.valueBefore?_cons hafter, hskip fun hcontains => by have hlt := hcontains.2; omega]
      exact hrest
    · have hcontains : e.1.Contains point := ⟨by omega, by omega⟩
      have hzero : (RangeMap.mk rest).columns.upperIndex point = 0 :=
        Columns.upperIndex_eq_zero fun s hs => by
          have hle := hupper s hs
          omega
      simp [hzero, Columns.valueBefore?, Columns.cons, RangeMap.get?, hcontains]

section insertEntry
variable {e : Range × α} {rest : List (Range × α)}

theorem insertEntry_before (he : e.1.lower < e.1.upper) (h : r.lower < e.1.lower) :
    insertEntry r a (e :: rest) =
      if e.1.lower < r.upper then .error (.upperBoundOverlap r e.1) else .ok ((r, a) :: e :: rest) := by
  have hne : e.1 ≠ r := by
    rintro rfl
    omega
  unfold insertEntry
  rw [if_neg hne]
  by_cases hup : r.upper ≤ e.1.lower
  · rw [if_pos hup, if_neg (by omega)]
  · rw [if_neg hup, if_neg (by omega), if_neg (by omega), if_pos (by omega)]

theorem insertEntry_holding (hr : r.lower < r.upper) (h : e.1.Contains r.lower) :
    insertEntry r a (e :: rest) =
      if e.1 = r then .ok ((r, a) :: rest) else .error (.lowerBoundOverlap r e.1) := by
  obtain ⟨hle, hlt⟩ := h
  unfold insertEntry
  by_cases hsame : e.1 = r
  · rw [if_pos hsame, if_pos hsame]
  · rw [if_neg hsame, if_neg hsame, if_neg (by omega), if_neg (by omega), if_pos hle]

theorem insertEntry_after (hr : r.lower < r.upper) (he : e.1.lower < e.1.upper)
    (h : e.1.upper ≤ r.lower) : insertEntry r a (e :: rest) = (e :: ·) <$> insertEntry r a rest := by
  have hne : e.1 ≠ r := by
    rintro rfl
    omega
  rw [insertEntry, if_neg hne, if_neg (by omega), if_pos h]

end insertEntry

/-- The neighbours of a range decide of it what all entries do. -/
theorem Ordered.insertAfter_columns (h : m.Ordered) (hr : r.lower < r.upper) (a : α) :
    m.columns.insertAfter r a (m.columns.upperIndex r.lower) =
      (fun l => (RangeMap.mk l).columns) <$> insertEntry r a m.entries := by
  obtain ⟨entries⟩ := m
  induction entries with
  | nil => rfl
  | cons e rest ih =>
    have hrest := ih h.of_cons
    have hlt : e.1.lower < e.1.upper := h.lower_lt e.1 List.mem_cons_self
    have hfirst : ((RangeMap.mk rest).columns.cons e).ranges[0]? = some e.1 := rfl
    rw [columns_cons, Columns.upperIndex_cons]
    by_cases hlow : r.lower < e.1.lower
    · -- the first range is the one after the new one
      rw [if_pos hlow, insertEntry_before hlt hlow]
      simp only [Columns.insertAfter, Columns.insertAt, hfirst]
      by_cases hup : e.1.lower < r.upper
      · rw [if_pos hup, if_pos hup]
        rfl
      · rw [if_neg hup, if_neg hup]
        rfl
    rw [if_neg hlow]
    by_cases hafter : e.1.upper ≤ r.lower
    · rw [Columns.insertAfter_cons hlt hafter, hrest, insertEntry_after hr hlt hafter]
      cases insertEntry r a rest <;> rfl
    · -- the first range is the one before the new one, and holds its lower bound
      have hlower : r.lower < e.1.upper := by omega
      have hzero : (RangeMap.mk rest).columns.upperIndex r.lower = 0 :=
        Columns.upperIndex_eq_zero fun s hs => Int.lt_of_lt_of_le hlower (h.upper_le hs).2
      rw [insertEntry_holding hr ⟨by omega, hlower⟩]
      simp only [hzero, Columns.insertAfter, hfirst, if_pos hlower]
      by_cases hsame : e.1 = r
      · rw [if_pos hsame, if_pos hsame, ← hsame]
        rfl
      · rw [if_neg hsame, if_neg hsame]
        rfl

theorem Ordered.columns_insert (h : m.Ordered) (r : Range) (a : α) :
    m.columns.insert r a = columns <$> m.insert r a := by
  unfold Columns.insert RangeMap.insert
  by_cases hr : r.lower < r.upper
  · rw [if_neg (by omega), if_pos hr, h.insertAfter_columns hr]
    cases insertEntry r a m.entries <;> rfl
  · rw [if_pos (by omega), if_neg hr]
    rfl

end RangeMap

end DriveLog
