import DriveLog.Proofs.RangeMap.Filling
import Mathlib.Data.Finset.Card
set_option autoImplicit false

namespace DriveLog
namespace RangeMap
variable {α : Type} {m n : RangeMap α} {r : Range} {point : Int} {l l' : List (Range × α)}
  {keys : List Range} {values : List α}

theorem mem_ranges_insertAll (hn : m.insertAll l = .ok n) :
    r ∈ n.ranges ↔ r ∈ l.map Prod.fst ∨ r ∈ m.ranges := by
  have hgrown := grown_of_insertAll hn
  constructor
  · intro hr
    obtain ⟨e, he, rfl⟩ := List.mem_map.mp hr
    exact (hgrown.mem e he).imp List.mem_map_of_mem List.mem_map_of_mem
  · rintro (hr | hr)
    · obtain ⟨e, he, rfl⟩ := List.mem_map.mp hr
      exact hgrown.stored e he
    · exact hgrown.kept r hr

/-- The last entry that contains a point is the last one of its range. -/
theorem latest_of_find? {e : Range × α}
    (h : (l.reverse.find? fun e => decide (e.1.Contains point)) = some e) :
    Latest Prod.fst l e ∧ e.1.Contains point := by
  obtain ⟨hcontains, later, earlier, hl, hlater⟩ := List.find?_eq_some_iff_append.mp h
  have hcontains : e.1.Contains point := of_decide_eq_true hcontains
  refine ⟨⟨earlier.reverse, later.reverse, ?_, fun d hd hkey => ?_⟩, hcontains⟩
  · rw [← List.reverse_reverse l, hl]
    simp
  · have hnot := hlater d (List.mem_reverse.mp hd)
    rw [hkey] at hnot
    simp [hcontains] at hnot

theorem get?_insertAll_empty (hm : empty.insertAll l = .ok m) (point : Int) :
    m.get? point = (l.reverse.find? fun e => decide (e.1.Contains point)).map Prod.snd := by
  have hordered := ordered_empty.insertAll hm
  cases hfind : l.reverse.find? fun e => decide (e.1.Contains point) with
  | none =>
    refine get?_eq_none_iff.mpr fun r hr hcontains => ?_
    rcases (mem_ranges_insertAll hm).mp hr with hr | hr
    · obtain ⟨e, he, rfl⟩ := List.mem_map.mp hr
      have hnot := List.find?_eq_none.mp hfind e (List.mem_reverse.mpr he)
      exact hnot (decide_eq_true hcontains)
    · cases hr
  | some e =>
    obtain ⟨hlatest, hcontains⟩ := latest_of_find? hfind
    have hmem : e ∈ m.entries := (ordered_empty.mem_insertAll_iff hm).mpr (.inl hlatest)
    exact hordered.get?_eq_some_iff.mpr ⟨e.1, hmem, hcontains⟩

theorem size_insertAll_empty (hm : empty.insertAll l = .ok m) :
    m.size = (l.map Prod.fst).toFinset.card := by
  have hsame : m.ranges.toFinset = (l.map Prod.fst).toFinset := by
    ext r
    simp only [List.mem_toFinset, mem_ranges_insertAll hm]
    exact or_iff_left (by simp [ranges, empty])
  rw [← hsame, List.toFinset_card_of_nodup (ordered_empty.insertAll hm).nodup_ranges, ranges,
    List.length_map, size]

theorem toOption_insertAll_empty (hperm : l.Perm l')
    (hkept : ∀ r, l.filter (fun e => e.1 = r) = l'.filter fun e => e.1 = r) :
    (empty.insertAll l).toOption = (empty.insertAll l').toOption := by
  have hlatest : ∀ e, Latest Prod.fst l e ↔ Latest Prod.fst l' e := fun e => by
    rw [latest_iff, latest_iff, hkept]
  rcases ordered_empty.insertAll_perm hperm hlatest with ⟨n, h, h'⟩ | ⟨error, error', h, h'⟩
  · rw [h, h']
  · rw [h, h']
    rfl

theorem ofEntries_of_length (h : keys.length = values.length) :
    ofEntries keys values = empty.insertAll (keys.zip values) := if_pos h

theorem ofEntries_ok_iff :
    (∃ m, ofEntries keys values = .ok m) ↔ keys.length = values.length ∧ Coherent keys := by
  by_cases h : keys.length = values.length
  · have hkeys : (keys.zip values).map Prod.fst = keys := List.map_fst_zip (Nat.le_of_eq h)
    rw [ofEntries_of_length h, ordered_empty.insertAll_ok_iff, hkeys]
    simp [h, ranges, empty]
  · simp [ofEntries, h]

/-- A map is built from lists of one length whose ranges can be kept together, and only from these. At
each point it has the value of the last entry that contains the point, and it has as many ranges as there
are different ones. Entries in another order, those of one range in the same, give the same map or none. -/
theorem ofEntries_exact (keys : List Range) (values : List α) :
    ((∃ m, ofEntries keys values = .ok m) ↔ keys.length = values.length ∧ Coherent keys) ∧
      (∀ m, ofEntries keys values = .ok m →
        (∀ point, m.get? point =
          ((keys.zip values).reverse.find? fun e => decide (e.1.Contains point)).map Prod.snd) ∧
        m.size = keys.toFinset.card) ∧
      ∀ keys' values', keys.length = values.length → keys'.length = values'.length →
        (keys.zip values).Perm (keys'.zip values') →
        (∀ r, (keys.zip values).filter (fun e => e.1 = r) = (keys'.zip values').filter fun e => e.1 = r) →
        (ofEntries keys values).toOption = (ofEntries keys' values').toOption := by
  refine ⟨ofEntries_ok_iff, fun m hm => ?_, fun keys' values' h h' hperm hkept => ?_⟩
  · obtain ⟨h, -⟩ := ofEntries_ok_iff.mp ⟨m, hm⟩
    rw [ofEntries_of_length h] at hm
    have hsize := size_insertAll_empty hm
    rw [List.map_fst_zip (Nat.le_of_eq h)] at hsize
    exact ⟨get?_insertAll_empty hm, hsize⟩
  · rw [ofEntries_of_length h, ofEntries_of_length h']
    exact toOption_insertAll_empty hperm hkept

theorem ofEntries_exact_of_sample :
    Coherent [⟨5, 9⟩, ⟨0, 5⟩, ⟨5, 9⟩] ∧
      ∃ m, ofEntries [⟨5, 9⟩, ⟨0, 5⟩, ⟨5, 9⟩] ["fog", "rain", "snow"] = .ok m ∧
        m.get? 7 = some "snow" ∧ m.get? 9 = none ∧ m.size = 2 ∧
        (ofEntries [⟨0, 5⟩, ⟨5, 9⟩, ⟨5, 9⟩] ["rain", "fog", "snow"]).toOption = some m := by
  obtain ⟨hiff, hbuilt, hperm⟩ := ofEntries_exact [⟨5, 9⟩, ⟨0, 5⟩, ⟨5, 9⟩] ["fog", "rain", "snow"]
  have hm : ofEntries [⟨5, 9⟩, ⟨0, 5⟩, ⟨5, 9⟩] ["fog", "rain", "snow"] =
      .ok ⟨[(⟨0, 5⟩, "rain"), (⟨5, 9⟩, "snow")]⟩ := rfl
  obtain ⟨hget, hsize⟩ := hbuilt _ hm
  have hsame := hperm [⟨0, 5⟩, ⟨5, 9⟩, ⟨5, 9⟩] ["rain", "fog", "snow"] rfl rfl (.swap _ _ _) fun r => by
    by_cases h : (⟨0, 5⟩ : Range) = r
    · subst h
      decide
    · simp [List.filter_cons, h]
  rw [hm] at hsame
  exact ⟨(hiff.mp ⟨_, hm⟩).2, _, hm, hget 7, hget 9, hsize, hsame.symm⟩

end RangeMap
end DriveLog
