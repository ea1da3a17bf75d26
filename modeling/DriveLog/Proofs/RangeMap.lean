import DriveLog.RangeMap
set_option autoImplicit false

namespace DriveLog
namespace RangeMap
variable {α : Type} {m n o : RangeMap α} {r : Range} {a : α} {e : Range × α} {point : Int}
  {l added added' entries : List (Range × α)}

/-- No range is empty, and each ends before the next one starts. -/
structure Ordered (m : RangeMap α) : Prop where
  lower_lt : ∀ r ∈ m.ranges, r.lower < r.upper
  apart : m.ranges.Pairwise fun r s => r.upper ≤ s.lower

structure Grown (added : List (Range × α)) (m n : RangeMap α) : Prop where
  kept : ∀ r ∈ m.ranges, r ∈ n.ranges
  stored : ∀ e ∈ added, e.1 ∈ n.ranges
  mem : ∀ e ∈ n.entries, e ∈ added ∨ e ∈ m.entries

/-- Where an entry that is not refused goes. -/
inductive Inserted (r : Range) (a : α) : List (Range × α) → List (Range × α) → Prop
  | last : Inserted r a [] [(r, a)]
  | replaced (b : α) (rest : List (Range × α)) : Inserted r a ((r, b) :: rest) ((r, a) :: rest)
  | before {e : Range × α} (h : r.upper ≤ e.1.lower) (rest : List (Range × α)) :
      Inserted r a (e :: rest) ((r, a) :: e :: rest)
  | after {e : Range × α} {rest l : List (Range × α)} (h : e.1.upper ≤ r.lower)
      (hrest : Inserted r a rest l) : Inserted r a (e :: rest) (e :: l)

theorem inserted_of_insertEntry (h : insertEntry r a entries = .ok l) : Inserted r a entries l := by
  induction entries generalizing l with
  | nil =>
    cases h
    exact .last
  | cons e rest ih =>
    unfold insertEntry at h
    by_cases hsame : e.1 = r
    · rw [if_pos hsame] at h
      cases h
      subst hsame
      exact .replaced _ _
    · rw [if_neg hsame] at h
      by_cases hbefore : r.upper ≤ e.1.lower
      · rw [if_pos hbefore] at h
        cases h
        exact .before hbefore _
      · rw [if_neg hbefore] at h
        by_cases hafter : e.1.upper ≤ r.lower
        · rw [if_pos hafter] at h
          cases hrest : insertEntry r a rest with
          | error error =>
            rw [hrest] at h
            cases h
          | ok l' =>
            rw [hrest] at h
            cases h
            exact .after hafter (ih hrest)
        · rw [if_neg hafter] at h
          split at h <;> cases h

namespace Inserted

theorem mem (h : Inserted r a entries l) (he : e ∈ l) : e = (r, a) ∨ e ∈ entries := by
  induction h with
  | last => simpa using he
  | replaced b rest => exact (List.mem_cons.mp he).imp_right fun he => by simp [he]
  | before h rest => exact List.mem_cons.mp he
  | after h hrest ih =>
    rcases List.mem_cons.mp he with rfl | he
    · exact .inr (by simp)
    · exact (ih he).imp_right fun he => by simp [he]

theorem self_mem (h : Inserted r a entries l) : (r, a) ∈ l := by
  induction h with
  | after h hrest ih => simp [ih]
  | _ => simp

theorem kept (h : Inserted r a entries l) {s : Range} (hs : s ∈ entries.map Prod.fst) :
    s ∈ l.map Prod.fst := by
  induction h with
  | last => simp at hs
  | replaced b rest => simpa using hs
  | before h rest => simp_all
  | after h hrest ih =>
    rcases List.mem_cons.mp hs with rfl | hs
    · simp
    · simp [ih hs]

theorem mem_ranges (h : Inserted r a entries l) {s : Range} (hs : s ∈ l.map Prod.fst) :
    s = r ∨ s ∈ entries.map Prod.fst := by
  obtain ⟨e, he, rfl⟩ := List.mem_map.mp hs
  rcases h.mem he with rfl | he
  · exact .inl rfl
  · exact .inr (List.mem_map_of_mem he)

theorem ordered (h : Inserted r a entries l) (hr : r.lower < r.upper)
    (hentries : (mk entries).Ordered) : (mk l).Ordered := by
  refine ⟨fun s hs => ?_, ?_⟩
  · rcases h.mem_ranges hs with rfl | hs
    · exact hr
    · exact hentries.lower_lt s hs
  · obtain ⟨hlt, hapart⟩ := hentries
    simp only [ranges] at hlt hapart ⊢
    induction h with
    | last => simp
    | replaced b rest => simpa using hapart
    | @before e h rest =>
      refine List.pairwise_cons.mpr ⟨fun s hs => ?_, hapart⟩
      rcases List.mem_cons.mp hs with rfl | hs
      · exact h
      · have hes := (List.pairwise_cons.mp hapart).1 s hs
        have he := hlt e.1 (by simp)
        simp only
        omega
    | after h hrest ih =>
      obtain ⟨hes, hrests⟩ := List.pairwise_cons.mp hapart
      refine List.pairwise_cons.mpr ⟨fun s hs => ?_, ih (fun s hs => hlt s (by simp [hs])) hrests⟩
      rcases hrest.mem_ranges hs with rfl | hs
      · exact h
      · exact hes s hs

end Inserted

theorem inserted_of_insert (h : m.insert r a = .ok n) :
    r.lower < r.upper ∧ Inserted r a m.entries n.entries := by
  unfold insert at h
  split at h
  · rename_i hr
    cases hentries : insertEntry r a m.entries with
    | error error =>
      rw [hentries] at h
      cases h
    | ok l =>
      rw [hentries] at h
      cases h
      exact ⟨hr, inserted_of_insertEntry hentries⟩
  · cases h

theorem Ordered.insert (hm : m.Ordered) (h : m.insert r a = .ok n) : n.Ordered := by
  obtain ⟨hr, hinserted⟩ := inserted_of_insert h
  exact hinserted.ordered hr hm

theorem grown_of_insert (h : m.insert r a = .ok n) : Grown [(r, a)] m n := by
  obtain ⟨-, hinserted⟩ := inserted_of_insert h
  refine ⟨fun s hs => hinserted.kept hs, fun e he => ?_, fun e he => ?_⟩
  · rw [List.mem_singleton.mp he]
    exact List.mem_map_of_mem hinserted.self_mem
  · simpa using hinserted.mem he

namespace Grown

theorem refl (m : RangeMap α) : Grown [] m m := ⟨fun _ h => h, by simp, fun _ h => .inr h⟩

theorem trans (h : Grown added m n) (h' : Grown added' n o) : Grown (added ++ added') m o := by
  refine ⟨fun r hr => h'.kept r (h.kept r hr), fun e he => ?_, fun e he => ?_⟩
  · rcases List.mem_append.mp he with he | he
    · exact h'.kept e.1 (h.stored e he)
    · exact h'.stored e he
  · rcases h'.mem e he with he | he
    · exact .inl (List.mem_append_right _ he)
    · exact (h.mem e he).imp_left (List.mem_append_left _)

end Grown

theorem exists_of_insertAll_cons (h : m.insertAll (e :: l) = .ok n) :
    ∃ o, m.insert e.1 e.2 = .ok o ∧ o.insertAll l = .ok n := by
  have hcons : m.insertAll (e :: l) = m.insert e.1 e.2 >>= fun o => o.insertAll l :=
    List.foldlM_cons
  rw [hcons] at h
  cases hfirst : m.insert e.1 e.2 with
  | error error =>
    rw [hfirst] at h
    cases h
  | ok o =>
    rw [hfirst] at h
    exact ⟨o, rfl, h⟩

theorem Ordered.insertAll (hm : m.Ordered) (h : m.insertAll l = .ok n) : n.Ordered := by
  induction l generalizing m with
  | nil =>
    cases h
    exact hm
  | cons e l ih =>
    obtain ⟨o, hfirst, hrest⟩ := exists_of_insertAll_cons h
    exact ih (hm.insert hfirst) hrest

theorem grown_of_insertAll (h : m.insertAll l = .ok n) : Grown l m n := by
  induction l generalizing m with
  | nil =>
    cases h
    exact .refl _
  | cons e l ih =>
    obtain ⟨o, hfirst, hrest⟩ := exists_of_insertAll_cons h
    exact (grown_of_insert hfirst).trans (ih hrest)

theorem Ordered.of_cons (h : (RangeMap.mk (e :: entries)).Ordered) : (RangeMap.mk entries).Ordered :=
  ⟨fun s hs => h.lower_lt s (List.mem_cons_of_mem _ hs), h.apart.of_cons⟩

theorem Ordered.upper_le (h : (RangeMap.mk (e :: entries)).Ordered) {s : Range}
    (hs : s ∈ entries.map Prod.fst) : e.1.lower < e.1.upper ∧ e.1.upper ≤ s.lower :=
  ⟨h.lower_lt e.1 List.mem_cons_self, (List.pairwise_cons.mp h.apart).1 s hs⟩

theorem ordered_empty : (empty : RangeMap α).Ordered := ⟨by simp [ranges, empty], .nil⟩

theorem get?_eq_none_iff : m.get? point = none ↔ ∀ r ∈ m.ranges, ¬ r.Contains point := by
  simp [get?, ranges]

theorem exists_of_get? (h : m.get? point = some a) :
    ∃ e ∈ m.entries, e.1.Contains point ∧ e.2 = a := by
  obtain ⟨e, hfind, rfl⟩ := Option.map_eq_some_iff.mp h
  have hcontains : e.1.Contains point := by simpa using List.find?_some hfind
  exact ⟨e, List.mem_of_find?_eq_some hfind, hcontains, rfl⟩

theorem Ordered.eq_of_contains (h : m.Ordered) {s : Range} (hr : r ∈ m.ranges) (hs : s ∈ m.ranges)
    (hrp : r.Contains point) (hsp : s.Contains point) : r = s := by
  obtain ⟨i, hi, rfl⟩ := List.getElem_of_mem hr
  obtain ⟨j, hj, rfl⟩ := List.getElem_of_mem hs
  have hapart := List.pairwise_iff_getElem.mp h.apart
  rcases Nat.lt_trichotomy i j with hlt | rfl | hlt
  · have hle := hapart i j hi hj hlt
    exact absurd hsp.1 (by have hlt := hrp.2; omega)
  · rfl
  · have hle := hapart j i hj hi hlt
    exact absurd hrp.1 (by have hlt := hsp.2; omega)

theorem Ordered.nodup_ranges (h : m.Ordered) : m.ranges.Nodup :=
  h.apart.imp_of_mem fun {r s} hr _ hrs heq => by
    have hlt := h.lower_lt r hr
    rw [← heq] at hrs
    omega

theorem Ordered.exists_get? (h : m.Ordered) (hr : r ∈ m.ranges) (hrp : r.Contains point) :
    ∃ a, m.get? point = some a ∧ (r, a) ∈ m.entries := by
  cases hget : m.get? point with
  | none => exact absurd hrp (get?_eq_none_iff.mp hget r hr)
  | some a =>
    obtain ⟨e, he, hcontains, rfl⟩ := exists_of_get? hget
    obtain rfl := h.eq_of_contains (List.mem_map_of_mem he) hr hcontains hrp
    exact ⟨e.2, rfl, he⟩

end RangeMap

end DriveLog
