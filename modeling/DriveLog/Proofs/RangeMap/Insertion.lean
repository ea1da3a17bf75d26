import DriveLog.Proofs.RangeMap.Columns
import Mathlib.Data.List.Nodup
set_option autoImplicit false

namespace DriveLog

def Range.Disjoint (r s : Range) : Prop := ∀ point, r.Contains point → ¬ s.Contains point

theorem Range.disjoint_iff {r s : Range} (hr : r.lower < r.upper) (hs : s.lower < s.upper) :
    r.Disjoint s ↔ r.upper ≤ s.lower ∨ s.upper ≤ r.lower := by
  constructor
  · intro h
    have hmax := h (max r.lower s.lower)
    simp only [Contains] at hmax
    omega
  · rintro h point ⟨hr₁, hr₂⟩ ⟨hs₁, hs₂⟩
    omega

namespace RangeMap
variable {α : Type} {m n : RangeMap α} {r s : Range} {a : α} {e : Range × α} {point : Int}
  {l entries : List (Range × α)} {error : RangeMapError}

/-- What a map is after an insertion has been tried: a refused entry changes nothing. -/
def attempt (m : RangeMap α) (e : Range × α) : RangeMap α :=
  match m.insert e.1 e.2 with
  | .ok n => n
  | .error _ => m

def attempts (tried : List (Range × α)) : RangeMap α := tried.foldl attempt empty

/-- Which entry stops an insertion. -/
inductive Refused (r : Range) : List (Range × α) → RangeMapError → Prop
  | lower {e : Range × α} (hne : e.1 ≠ r) (h : e.1.Contains r.lower) (rest : List (Range × α)) :
      Refused r (e :: rest) (.lowerBoundOverlap r e.1)
  | upper {e : Range × α} (hlo : r.lower < e.1.lower) (hhi : e.1.lower < r.upper)
      (rest : List (Range × α)) : Refused r (e :: rest) (.upperBoundOverlap r e.1)
  | after {e : Range × α} {rest : List (Range × α)} {error : RangeMapError}
      (h : e.1.upper ≤ r.lower) (hrest : Refused r rest error) : Refused r (e :: rest) error

/-- What is told of a range that is not put among others: that it is empty, which of them holds its lower
bound, or, where none does, the first one that it meets. -/
inductive Tells (ranges : List Range) (r : Range) : RangeMapError → Prop
  | empty (h : r.upper ≤ r.lower) : Tells ranges r (.invalidRange r)
  | lower {s : Range} (hr : r.lower < r.upper) (hs : s ∈ ranges) (h : s.Contains r.lower) :
      Tells ranges r (.lowerBoundOverlap r s)
  | upper {s : Range} (hr : r.lower < r.upper) (hfree : ∀ q ∈ ranges, ¬ q.Contains r.lower)
      (hs : s ∈ ranges) (h : ¬ r.Disjoint s) (hfirst : ∀ q ∈ ranges, ¬ r.Disjoint q → s.lower ≤ q.lower) :
      Tells ranges r (.upperBoundOverlap r s)

theorem refused_of_insertEntry (h : insertEntry r a entries = .error error) :
    Refused r entries error := by
  fun_induction insertEntry r a entries with
  | case1 => cases h
  | case2 => cases h
  | case3 => cases h
  | case4 s b rest _ _ hafter ih =>
    cases hrest : insertEntry r a rest with
    | error error' =>
      rw [hrest] at h
      cases h
      exact .after hafter (ih hrest)
    | ok l =>
      rw [hrest] at h
      cases h
  | case5 s b rest hne _ hafter hlower =>
    cases h
    exact .lower hne ⟨hlower, Int.not_le.mp hafter⟩ rest
  | case6 s b rest _ hbefore _ hlower =>
    cases h
    exact .upper (Int.not_le.mp hlower) (Int.not_le.mp hbefore) rest

theorem Ordered.entry_eq (h : m.Ordered) {d : Range × α} (hd : d ∈ m.entries) (he : e ∈ m.entries)
    (hde : d.1 = e.1) : d = e :=
  List.inj_on_of_nodup_map h.nodup_ranges hd he hde

theorem Tells.cons {ranges : List Range} (h : Tells ranges r error) (hs : s.upper ≤ r.lower) :
    Tells (s :: ranges) r error := by
  have hfree : ¬ s.Contains r.lower := fun hlower => by
    have hlt := hlower.2
    omega
  have hdisjoint : r.Disjoint s := fun point hr hs' => by
    have hle := hr.1
    have hlt := hs'.2
    omega
  cases h with
  | empty h => exact .empty h
  | lower hr hq h => exact .lower hr (List.mem_cons_of_mem _ hq) h
  | upper hr hnone hq h hfirst =>
    refine .upper hr ?_ (List.mem_cons_of_mem _ hq) h ?_
    · exact List.forall_mem_cons.mpr ⟨hfree, hnone⟩
    · exact List.forall_mem_cons.mpr ⟨fun hmeet => absurd hdisjoint hmeet, hfirst⟩

theorem Tells.meets {ranges : List Range} (h : Tells ranges r error) (hr : r.lower < r.upper) :
    ∃ s ∈ ranges, ¬ r.Disjoint s := by
  cases h with
  | empty h => omega
  | lower _ hs h => exact ⟨_, hs, fun hdisjoint => hdisjoint _ ⟨Int.le_refl _, hr⟩ h⟩
  | upper _ _ hs h _ => exact ⟨_, hs, h⟩

namespace Refused

theorem tells (h : Refused r entries error) (hr : r.lower < r.upper)
    (hm : (RangeMap.mk entries).Ordered) : Tells (entries.map Prod.fst) r error := by
  induction h with
  | lower _ h rest => exact .lower hr List.mem_cons_self h
  | @upper e hlo hhi rest =>
    refine .upper hr ?free List.mem_cons_self ?meets ?first
    case free =>
      refine List.forall_mem_cons.mpr ⟨fun h => ?_, fun q hq h => ?_⟩
      · have hle := h.1
        omega
      · have hlt := hm.upper_le hq
        have hle := h.1
        omega
    case meets =>
      exact fun h => h e.1.lower ⟨Int.le_of_lt hlo, hhi⟩ ⟨Int.le_refl _, hm.lower_lt _ List.mem_cons_self⟩
    case first =>
      refine List.forall_mem_cons.mpr ⟨fun _ => Int.le_refl _, fun q hq _ => ?_⟩
      have hlt := hm.upper_le hq
      omega
  | after h _ ih => exact (ih hm.of_cons).cons h

theorem not_mem (h : Refused r entries error) (hr : r.lower < r.upper)
    (hm : (RangeMap.mk entries).Ordered) : r ∉ entries.map Prod.fst := by
  induction h with
  | lower hne h rest =>
    intro hmem
    exact hne (hm.eq_of_contains List.mem_cons_self hmem h ⟨Int.le_refl _, hr⟩)
  | upper hlo _ rest =>
    intro hmem
    rcases List.mem_cons.mp hmem with rfl | hmem
    · omega
    · have hlt := hm.upper_le hmem
      omega
  | after h _ ih =>
    intro hmem
    rcases List.mem_cons.mp hmem with rfl | hmem
    · omega
    · exact ih hm.of_cons hmem

end Refused

namespace Inserted

theorem mem_or_disjoint (h : Inserted r a entries l) (hr : r.lower < r.upper)
    (hm : (RangeMap.mk entries).Ordered) :
    r ∈ entries.map Prod.fst ∨ ∀ s ∈ entries.map Prod.fst, r.Disjoint s := by
  induction h with
  | last => simp
  | replaced b rest => simp
  | @before e h rest =>
    right
    intro s hs
    refine (Range.disjoint_iff hr (hm.lower_lt s hs)).mpr (.inl ?_)
    rcases List.mem_cons.mp hs with rfl | hs
    · exact h
    · have hlt := hm.upper_le hs
      omega
  | after h _ ih =>
    refine (ih hm.of_cons).imp (List.mem_cons_of_mem _) fun hrest => ?_
    refine List.forall_mem_cons.mpr ⟨?_, hrest⟩
    exact (Range.disjoint_iff hr (hm.lower_lt _ List.mem_cons_self)).mpr (.inr h)

theorem entry_kept (h : Inserted r a entries l) (he : e ∈ entries) (hne : e.1 ≠ r) : e ∈ l := by
  induction h with
  | last => simp at he
  | replaced b rest =>
    rcases List.mem_cons.mp he with rfl | he
    · exact absurd rfl hne
    · exact List.mem_cons_of_mem _ he
  | before h rest => exact List.mem_cons_of_mem _ he
  | after h _ ih =>
    rcases List.mem_cons.mp he with rfl | he
    · exact List.mem_cons_self
    · exact List.mem_cons_of_mem _ (ih he)

end Inserted

theorem refused_of_insert (h : m.insert r a = .error error) :
    r.upper ≤ r.lower ∧ error = .invalidRange r ∨ r.lower < r.upper ∧ Refused r m.entries error := by
  unfold insert at h
  split at h
  · rename_i hr
    cases hentries : insertEntry r a m.entries with
    | error error' =>
      rw [hentries] at h
      cases h
      exact .inr ⟨hr, refused_of_insertEntry hentries⟩
    | ok l =>
      rw [hentries] at h
      cases h
  · cases h
    exact .inl ⟨by omega, rfl⟩

namespace Ordered

theorem get?_eq_some_iff (h : m.Ordered) :
    m.get? point = some a ↔ ∃ r, (r, a) ∈ m.entries ∧ r.Contains point := by
  constructor
  · intro hget
    obtain ⟨⟨r, b⟩, he, hcontains, rfl⟩ := exists_of_get? hget
    exact ⟨r, he, hcontains⟩
  · rintro ⟨r, he, hcontains⟩
    obtain ⟨b, hget, hb⟩ := h.exists_get? (List.mem_map_of_mem he) hcontains
    have heq := h.entry_eq he hb rfl
    rw [hget, (Prod.mk.inj heq).2]

theorem insert_ok_iff (h : m.Ordered) (r : Range) (a : α) : (∃ n, m.insert r a = .ok n) ↔
    r.lower < r.upper ∧ (r ∈ m.ranges ∨ ∀ s ∈ m.ranges, r.Disjoint s) := by
  constructor
  · rintro ⟨n, hn⟩
    obtain ⟨hr, hinserted⟩ := inserted_of_insert hn
    exact ⟨hr, hinserted.mem_or_disjoint hr h⟩
  · rintro ⟨hr, hplace⟩
    cases hinsert : m.insert r a with
    | ok n => exact ⟨n, rfl⟩
    | error error =>
      rcases refused_of_insert hinsert with ⟨hempty, -⟩ | ⟨-, hrefused⟩
      · omega
      · obtain ⟨s, hs, hmeets⟩ := (hrefused.tells hr h).meets hr
        rcases hplace with hmem | hdisjoint
        · exact absurd hmem (hrefused.not_mem hr h)
        · exact absurd (hdisjoint s hs) hmeets

theorem mem_insert_iff (h : m.Ordered) (hn : m.insert r a = .ok n) :
    e ∈ n.entries ↔ e = (r, a) ∨ e.1 ≠ r ∧ e ∈ m.entries := by
  obtain ⟨hr, hinserted⟩ := inserted_of_insert hn
  constructor
  · intro he
    by_cases hrange : e.1 = r
    · exact .inl ((hinserted.ordered hr h).entry_eq he hinserted.self_mem hrange)
    · refine .inr ⟨hrange, (hinserted.mem he).resolve_left fun heq => hrange ?_⟩
      rw [heq]
  · rintro (rfl | ⟨hne, he⟩)
    · exact hinserted.self_mem
    · exact hinserted.entry_kept he hne

theorem tells_of_insert (h : m.Ordered) (herror : m.insert r a = .error error) :
    Tells m.ranges r error := by
  rcases refused_of_insert herror with ⟨hempty, rfl⟩ | ⟨hr, hrefused⟩
  · exact .empty hempty
  · exact hrefused.tells hr h

theorem attempt (h : m.Ordered) (e : Range × α) : (m.attempt e).Ordered := by
  unfold RangeMap.attempt
  cases hinsert : m.insert e.1 e.2 with
  | ok n => exact h.insert hinsert
  | error error => exact h

theorem attempts (h : m.Ordered) (tried : List (Range × α)) :
    (tried.foldl RangeMap.attempt m).Ordered := by
  -- by induction on what has been tried: every attempt keeps the ranges apart
  induction tried generalizing m with
  | nil => exact h
  | cons e rest ih => exact ih (h.attempt e)

theorem columns_attempt (h : m.Ordered) (e : Range × α) :
    m.columns.attempt e = (m.attempt e).columns := by
  unfold Columns.attempt RangeMap.attempt
  rw [h.columns_insert]
  cases m.insert e.1 e.2 <;> rfl

theorem columns_attempts (h : m.Ordered) (tried : List (Range × α)) :
    tried.foldl Columns.attempt m.columns = (tried.foldl RangeMap.attempt m).columns := by
  -- by induction on what has been tried: columns go with the map
  induction tried generalizing m with
  | nil => rfl
  | cons e rest ih =>
    rw [List.foldl_cons, List.foldl_cons, h.columns_attempt]
    exact ih (h.attempt e)

end Ordered

/-- A map from disjoint ranges. At a point there is the value of the one range that contains it; an
insertion stores its own range and changes no other entry, or it changes nothing. In two columns the
neighbours of a point or a range are enough to tell. -/
structure Lawful (m : RangeMap α) : Prop where
  ordered : m.Ordered
  found_iff : ∀ point a, m.get? point = some a ↔ ∃ r, (r, a) ∈ m.entries ∧ r.Contains point
  unique : ∀ point, ∀ d ∈ m.entries, ∀ e ∈ m.entries, d.1.Contains point → e.1.Contains point → d = e
  stored_iff : ∀ r a, (∃ n, m.insert r a = .ok n) ↔
    r.lower < r.upper ∧ (r ∈ m.ranges ∨ ∀ s ∈ m.ranges, r.Disjoint s)
  stored : ∀ r a n, m.insert r a = .ok n →
    m.attempt (r, a) = n ∧ ∀ e, e ∈ n.entries ↔ e = (r, a) ∨ e.1 ≠ r ∧ e ∈ m.entries
  refused : ∀ r a error, m.insert r a = .error error →
    m.attempt (r, a) = m ∧ Tells m.ranges r error
  columns_get? : ∀ point, m.columns.get? point = m.get? point
  columns_insert : ∀ r a, m.columns.insert r a = columns <$> m.insert r a

theorem Ordered.lawful (h : m.Ordered) : m.Lawful := by
  constructor
  case ordered => exact h
  case found_iff => exact fun point a => h.get?_eq_some_iff
  case unique =>
    intro point d hd e he hdp hep
    exact h.entry_eq hd he (h.eq_of_contains (List.mem_map_of_mem hd) (List.mem_map_of_mem he) hdp hep)
  case stored_iff => exact h.insert_ok_iff
  case stored =>
    intro r a n hn
    exact ⟨by simp only [RangeMap.attempt, hn], fun e => h.mem_insert_iff hn⟩
  case refused =>
    intro r a error herror
    exact ⟨by simp only [RangeMap.attempt, herror], h.tells_of_insert herror⟩
  case columns_get? => exact h.columns_get?
  case columns_insert => exact h.columns_insert

/-- Whatever has been tried, the map is lawful and the columns are those of the map. -/
theorem attempts_lawful (tried : List (Range × α)) :
    (attempts tried).Lawful ∧ Columns.attempts tried = (attempts tried).columns :=
  ⟨(ordered_empty.attempts tried).lawful, ordered_empty.columns_attempts tried⟩

end RangeMap

end DriveLog
