import DriveLog.Store.Table
set_option autoImplicit false

namespace DriveLog

theorem RecordKind.rank_injective {a b : RecordKind} (h : a.rank = b.rank) : a = b := by
  cases a <;> cases b <;> simp_all [rank]

namespace RecordKey

theorem not_before_self (k : RecordKey) : ¬ k.Before k := by
  simp [Before]

theorem Before.trans {k l m : RecordKey} (hkl : k.Before l) (hlm : l.Before m) : k.Before m := by
  rcases hkl with hkl | ⟨hk, hid⟩
  · rcases hlm with hlm | ⟨hl, _⟩
    · exact .inl (by omega)
    · exact .inl (hl ▸ hkl)
  · rcases hlm with hlm | ⟨hl, hid'⟩
    · exact .inl (hk ▸ hlm)
    · exact .inr ⟨hk.trans hl, String.lt_trans hid hid'⟩

theorem before_or_before {k l : RecordKey} (h : k ≠ l) : k.Before l ∨ l.Before k := by
  by_cases hkind : k.kind = l.kind
  · have hid : k.id ≠ l.id := fun hid => h (by cases k; cases l; simp_all)
    rcases String.le_total k.id l.id with hle | hle
    · exact .inl (.inr ⟨hkind, String.not_le.mp fun hge => hid (String.le_antisymm hle hge)⟩)
    · exact .inr (.inr ⟨hkind.symm, String.not_le.mp fun hge => hid (String.le_antisymm hge hle)⟩)
  · have hrank : k.kind.rank ≠ l.kind.rank := fun hr => hkind (RecordKind.rank_injective hr)
    rcases Nat.lt_or_gt_of_ne hrank with hlt | hgt
    · exact .inl (.inl hlt)
    · exact .inr (.inl hgt)

end RecordKey

def Record.key (r : Record) : RecordKey := ⟨r.kind, r.id⟩

@[simp] theorem Record.key_withId (i : String) (r : Record) : (r.withId i).key = ⟨r.kind, i⟩ := by
  simp [key]

@[simp] theorem Record.withId_id (r : Record) : r.withId r.id = r := by cases r <;> rfl

namespace Table

structure WellFormed (t : Table) : Prop where
  ascending : t.Pairwise fun d e => d.1.Before e.1
  keyed : ∀ e ∈ t, e.2.key = e.1

theorem wellFormed_nil : WellFormed [] := ⟨.nil, by simp⟩

theorem get?_put (t : Table) (k l : RecordKey) (r : Record) :
    (t.put k r).get? l = if k = l then some r else t.get? l := by
  split
  · rename_i h
    subst h
    exact get?_put_self k r t
  · exact get?_put_of_ne ‹_› r t

theorem get?_erase (t : Table) (k l : RecordKey) :
    (t.erase k).get? l = if k = l then none else t.get? l := by
  split
  · rename_i h
    subst h
    exact get?_erase_self t k
  · exact get?_erase_of_ne ‹_› t

theorem mem_put {t : Table} {k : RecordKey} {r : Record} {e : RecordKey × Record}
    (h : e ∈ t.put k r) : e = (k, r) ∨ e ∈ t := by
  induction t with
  | nil => simpa [put] using h
  | cons d t ih =>
    unfold put at h
    split at h
    · rcases List.mem_cons.mp h with rfl | h
      · exact .inl rfl
      · exact .inr (List.mem_cons_of_mem _ h)
    · split at h
      · exact List.mem_cons.mp h
      · rcases List.mem_cons.mp h with rfl | h
        · exact .inr List.mem_cons_self
        · exact (ih h).imp_right (List.mem_cons_of_mem _)

theorem pairwise_put {t : Table} (h : t.Pairwise fun d e => d.1.Before e.1) (k : RecordKey)
    (r : Record) : (t.put k r).Pairwise fun d e => d.1.Before e.1 := by
  induction t with
  | nil => simp [put]
  | cons d t ih =>
    obtain ⟨hd, ht⟩ := List.pairwise_cons.mp h
    unfold put
    split
    · rename_i hk
      exact ht.cons fun e he => hk ▸ hd e he
    · rename_i hk
      split
      · rename_i hlt
        refine h.cons fun e he => ?_
        rcases List.mem_cons.mp he with rfl | he
        · exact hlt
        · exact hlt.trans (hd e he)
      · rename_i hlt
        refine (ih ht).cons fun e he => ?_
        rcases mem_put he with rfl | he
        · exact (RecordKey.before_or_before hk).resolve_right hlt
        · exact hd e he

namespace WellFormed
variable {t : Table} {k : RecordKey} {r : Record}

theorem put (h : t.WellFormed) (hr : r.key = k) : (t.put k r).WellFormed where
  ascending := pairwise_put h.ascending k r
  keyed e he := by
    rcases mem_put he with rfl | he
    · exact hr
    · exact h.keyed e he

theorem erase (h : t.WellFormed) (k : RecordKey) : (t.erase k).WellFormed where
  ascending := h.ascending.filter _
  keyed e he := h.keyed e (List.mem_filter.mp he).1

theorem of_cons {e : RecordKey × Record} (h : WellFormed (e :: t)) : t.WellFormed where
  ascending := h.ascending.of_cons
  keyed d hd := h.keyed d (List.mem_cons_of_mem _ hd)

theorem ne_of_cons {e : RecordKey × Record} (h : WellFormed (e :: t)) {d : RecordKey × Record}
    (hd : d ∈ t) : e.1 ≠ d.1 := by
  intro he
  have hlt := (List.pairwise_cons.mp h.ascending).1 d hd
  exact RecordKey.not_before_self d.1 (he ▸ hlt)

theorem get?_eq_some_iff (h : t.WellFormed) : t.get? k = some r ↔ (k, r) ∈ t := by
  induction t with
  | nil => simp [get?]
  | cons e t ih =>
    rw [get?_cons]
    split
    · rename_i hk
      constructor
      · intro hr
        exact List.mem_cons.mpr (.inl (by rw [← hk, ← Option.some.inj hr]))
      · intro hr
        rcases List.mem_cons.mp hr with he | hr
        · rw [← he]
        · exact absurd hk (h.ne_of_cons hr)
    · rename_i hk
      rw [ih h.of_cons, List.mem_cons]
      constructor
      · exact .inr
      · rintro (he | hr)
        · exact absurd (by rw [← he]) hk
        · exact hr

theorem key_of_get? (h : t.WellFormed) (hr : t.get? k = some r) : r.key = k :=
  h.keyed _ (h.get?_eq_some_iff.mp hr)

theorem ext {u : Table} (h : t.WellFormed) (hu : u.WellFormed) (hget : ∀ k, t.get? k = u.get? k) :
    t = u := by
  have hnodup : ∀ {v : Table}, v.WellFormed → v.Nodup := fun hv =>
    hv.ascending.imp fun {d e} hlt heq => by
      rw [heq] at hlt
      exact RecordKey.not_before_self e.1 hlt
  have hmem : ∀ e : RecordKey × Record, e ∈ t ↔ e ∈ u := fun e => by
    rw [← h.get?_eq_some_iff, ← hu.get?_eq_some_iff, hget]
  have hperm : t.Perm u := (List.perm_ext_iff_of_nodup (hnodup h) (hnodup hu)).mpr hmem
  refine hperm.eq_of_pairwise (fun d e _ _ hde hed => ?_) h.ascending hu.ascending
  exact absurd (hde.trans hed) (RecordKey.not_before_self _)

end WellFormed

theorem erase_of_forall_ne {t : Table} {k : RecordKey} (h : ∀ e ∈ t, e.1 ≠ k) : t.erase k = t :=
  List.filter_eq_self.mpr fun e he => by simpa using h e he

theorem erase_eq_self {t : Table} {k : RecordKey} (h : t.get? k = none) : t.erase k = t := by
  refine erase_of_forall_ne fun e he => ?_
  have hfind : t.find? (fun e => e.1 = k) = none := by simpa [get?] using h
  simpa using List.find?_eq_none.mp hfind e he

theorem put_perm {t : Table} (h : t.WellFormed) (k : RecordKey) (r : Record) :
    (t.put k r).Perm ((k, r) :: t.erase k) := by
  induction t with
  | nil => exact .refl _
  | cons e t ih =>
    unfold put
    split
    · rename_i hk
      have herase : erase (e :: t) k = erase t k := by simp [erase, hk]
      rw [herase, erase_of_forall_ne fun d hd => hk ▸ (h.ne_of_cons hd).symm]
    · rename_i hk
      split
      · rename_i hlt
        rw [erase_of_forall_ne fun d hd => ?_]
        rcases List.mem_cons.mp hd with rfl | hd
        · exact hk
        · intro hdk
          have hlt' := hlt.trans ((List.pairwise_cons.mp h.ascending).1 d hd)
          exact RecordKey.not_before_self k (hdk ▸ hlt')
      · have herase : erase (e :: t) k = e :: erase t k := by simp [erase, hk]
        rw [herase]
        exact ((ih h.of_cons).cons e).trans (.swap _ _ _)

theorem perm_cons_erase {t : Table} (h : t.WellFormed) {k : RecordKey} {r : Record}
    (hr : t.get? k = some r) : t.Perm ((k, r) :: t.erase k) := by
  induction t with
  | nil => simp [get?] at hr
  | cons e t ih =>
    rw [get?_cons] at hr
    split at hr
    · rename_i hk
      have he : e = (k, r) := by rw [← hk, ← Option.some.inj hr]
      subst he
      have herase : erase ((k, r) :: t) k = erase t k := by simp [erase]
      rw [herase, erase_of_forall_ne fun d hd => (h.ne_of_cons hd).symm]
    · rename_i hk
      have herase : erase (e :: t) k = e :: erase t k := by simp [erase, hk]
      rw [herase]
      exact ((ih h.of_cons hr).cons e).trans (.swap _ _ _)

theorem mem_ids_iff {t : Table} (h : t.WellFormed) {kind : RecordKind} {query : List Predicate}
    {id : String} : id ∈ t.ids kind query ↔
      ∃ r, t.get? ⟨kind, id⟩ = some r ∧ query.all (·.accepts r) = true := by
  simp only [ids, List.mem_map, List.mem_filter, Bool.and_eq_true, decide_eq_true_eq]
  constructor
  · rintro ⟨⟨⟨kind', id'⟩, r⟩, ⟨he, rfl, hq⟩, rfl⟩
    exact ⟨r, h.get?_eq_some_iff.mpr he, hq⟩
  · rintro ⟨r, hr, hq⟩
    exact ⟨(⟨kind, id⟩, r), ⟨h.get?_eq_some_iff.mp hr, rfl, hq⟩, rfl⟩

theorem pairwise_ids {t : Table} (h : t.WellFormed) (kind : RecordKind) (query : List Predicate) :
    (t.ids kind query).Pairwise (· < ·) := by
  refine List.pairwise_map.mpr ((h.ascending.filter _).imp_of_mem ?_)
  intro d e hd he hlt
  simp only [List.mem_filter, Bool.and_eq_true, decide_eq_true_eq] at hd he
  rcases hlt with hrank | ⟨-, hid⟩
  · rw [hd.2.1, he.2.1] at hrank
    exact absurd hrank (Nat.lt_irrefl _)
  · exact hid

theorem nodup_ids {t : Table} (h : t.WellFormed) (kind : RecordKind) (query : List Predicate) :
    (t.ids kind query).Nodup := by
  refine (pairwise_ids h kind query).imp fun {a b} hlt heq => ?_
  rw [heq] at hlt
  exact String.lt_irrefl b hlt

def view {β : Type} (p : Record → Option β) (t : Table) : List β := t.filterMap fun e => p e.2

section view
variable {β : Type} {p : Record → Option β} {t : Table}

theorem mem_view_iff (h : t.WellFormed) {b : β} :
    b ∈ t.view p ↔ ∃ r, t.get? r.key = some r ∧ p r = some b := by
  simp only [view, List.mem_filterMap]
  constructor
  · rintro ⟨e, he, hb⟩
    refine ⟨e.2, h.get?_eq_some_iff.mpr ?_, hb⟩
    rw [h.keyed e he]
    exact he
  · rintro ⟨r, hr, hb⟩
    exact ⟨(r.key, r), h.get?_eq_some_iff.mp hr, hb⟩

theorem pairwise_view (h : t.WellFormed) {R : β → β → Prop}
    (hR : ∀ r r' b c, p r = some b → p r' = some c → r.key.Before r'.key → R b c) :
    (t.view p).Pairwise R := by
  refine List.pairwise_filterMap.mpr (h.ascending.imp_of_mem ?_)
  intro d e hd he hlt b hb c hc
  rw [← h.keyed d hd, ← h.keyed e he] at hlt
  exact hR d.2 e.2 b c hb hc hlt

theorem view_put_of_fresh (h : t.WellFormed) {k : RecordKey} {r : Record}
    (hk : t.get? k = none) : ((t.put k r).view p).Perm ((p r).toList ++ t.view p) := by
  have hperm := (put_perm h k r).filterMap fun e => p e.2
  rw [erase_eq_self hk] at hperm
  refine hperm.trans (.of_eq ?_)
  cases hp : p r <;> simp [view, hp]

theorem view_put_of_get? (h : t.WellFormed) {k : RecordKey} {q r : Record}
    (hk : t.get? k = some q) : ∃ rest, (t.view p).Perm ((p q).toList ++ rest) ∧
      ((t.put k r).view p).Perm ((p r).toList ++ rest) := by
  refine ⟨(t.erase k).view p, ?_, ?_⟩
  · refine ((perm_cons_erase h hk).filterMap fun e => p e.2).trans (.of_eq ?_)
    cases hp : p q <;> simp [view, hp]
  · refine ((put_perm h k r).filterMap fun e => p e.2).trans (.of_eq ?_)
    cases hp : p r <;> simp [view, hp]

theorem view_erase (h : t.WellFormed) {k : RecordKey} {r : Record}
    (hk : t.get? k = some r) : (t.view p).Perm ((p r).toList ++ (t.erase k).view p) := by
  refine ((perm_cons_erase h hk).filterMap fun e => p e.2).trans (.of_eq ?_)
  cases hp : p r <;> simp [view, hp]

end view

end Table

end DriveLog
