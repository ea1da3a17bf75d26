import DriveLog.Proofs.RangeMap.Insertion
import DriveLog.Sorting
import Mathlib.Data.List.Sort
set_option autoImplicit false

namespace DriveLog

/-- Ranges that can be kept together: none is empty, and any two are the same or share no point. -/
structure Coherent (ranges : List Range) : Prop where
  lower_lt : ∀ r ∈ ranges, r.lower < r.upper
  same_or_disjoint : ∀ r ∈ ranges, ∀ s ∈ ranges, r = s ∨ r.Disjoint s

theorem Coherent.mono {ranges ranges' : List Range} (h : Coherent ranges)
    (hsub : ∀ r ∈ ranges', r ∈ ranges) : Coherent ranges' where
  lower_lt r hr := h.lower_lt r (hsub r hr)
  same_or_disjoint r hr s hs := h.same_or_disjoint r (hsub r hr) s (hsub s hs)

section latest
variable {β κ : Type} {key : β → κ} {l : List β} {a b : β}

/-- Of the elements of a list that have its key, `b` is the last one. -/
def Latest (key : β → κ) (l : List β) (b : β) : Prop :=
  ∃ earlier later, l = earlier ++ b :: later ∧ ∀ d ∈ later, key d ≠ key b

theorem Latest.mem (h : Latest key l b) : b ∈ l := by
  obtain ⟨earlier, later, rfl, -⟩ := h
  simp

theorem latest_iff [DecidableEq κ] :
    Latest key l b ↔ (l.filter fun d => key d = key b).getLast? = some b := by
  constructor
  · rintro ⟨earlier, later, rfl, hlater⟩
    have hnone : later.filter (fun d => key d = key b) = [] :=
      List.filter_eq_nil_iff.mpr fun d hd => by simpa using hlater d hd
    simp [hnone]
  · intro h
    obtain ⟨before, hfilter⟩ := List.getLast?_eq_some_iff.mp h
    obtain ⟨l₁, l₂, rfl, -, hl₂⟩ := List.filter_eq_append_iff.mp hfilter
    obtain ⟨between, later, rfl, -, -, hlater⟩ := List.filter_eq_cons_iff.mp hl₂
    refine ⟨l₁ ++ between, later, by simp, fun d hd => ?_⟩
    simpa using List.filter_eq_nil_iff.mp hlater d hd

theorem exists_latest [DecidableEq κ] (h : a ∈ l) : ∃ b, Latest key l b ∧ key b = key a := by
  have hne : (l.filter fun d => key d = key a) ≠ [] :=
    List.ne_nil_of_mem (List.mem_filter.mpr ⟨h, by simp⟩)
  have hmem := List.mem_filter.mp (List.getLast_mem hne)
  have hkey : key ((l.filter fun d => key d = key a).getLast hne) = key a := by simpa using hmem.2
  refine ⟨_, latest_iff.mpr ?_, hkey⟩
  rw [hkey]
  exact List.getLast?_eq_some_getLast hne

theorem latest_cons : Latest key (a :: l) b ↔ Latest key l b ∨ b = a ∧ ∀ d ∈ l, key d ≠ key a := by
  constructor
  · rintro ⟨earlier, later, hl, hlater⟩
    cases earlier with
    | nil =>
      obtain ⟨rfl, rfl⟩ := List.cons.inj hl
      exact .inr ⟨rfl, hlater⟩
    | cons c earlier =>
      obtain ⟨rfl, rfl⟩ := List.cons.inj hl
      exact .inl ⟨earlier, later, rfl, hlater⟩
  · rintro (⟨earlier, later, rfl, hlater⟩ | ⟨rfl, hl⟩)
    · exact ⟨a :: earlier, later, rfl, hlater⟩
    · exact ⟨[], l, rfl, hl⟩

/-- Of the elements of a list that have its key, `b` is a greatest one, and the last one of these. -/
def Newest (le : β → β → Bool) (key : β → κ) (l : List β) (b : β) : Prop :=
  ∃ earlier later, l = earlier ++ b :: later ∧ (∀ d ∈ earlier, key d = key b → le d b = true) ∧
    ∀ d ∈ later, key d = key b → ¬ le b d = true

theorem Newest.mem {le : β → β → Bool} (h : Newest le key l b) : b ∈ l := by
  obtain ⟨earlier, later, rfl, -⟩ := h
  simp

theorem newest_cons {le : β → β → Bool} : Newest le key (a :: l) b ↔
    Newest le key l b ∧ (key a = key b → le a b = true) ∨
      b = a ∧ ∀ d ∈ l, key d = key a → ¬ le a d = true := by
  constructor
  · rintro ⟨earlier, later, hl, hearlier, hlater⟩
    cases earlier with
    | nil =>
      obtain ⟨rfl, rfl⟩ := List.cons.inj hl
      exact .inr ⟨rfl, hlater⟩
    | cons c earlier =>
      obtain ⟨rfl, rfl⟩ := List.cons.inj hl
      obtain ⟨ha, hearlier⟩ := List.forall_mem_cons.mp hearlier
      exact .inl ⟨⟨earlier, later, rfl, hearlier, hlater⟩, ha⟩
  · rintro (⟨⟨earlier, later, rfl, hearlier, hlater⟩, ha⟩ | ⟨rfl, hl⟩)
    · exact ⟨a :: earlier, later, rfl, List.forall_mem_cons.mpr ⟨ha, hearlier⟩, hlater⟩
    · exact ⟨[], l, rfl, by simp, hl⟩

/-- An element goes before the first one that it is not greater than. -/
theorem latest_insertBy {le : β → β → Bool}
    (trans : ∀ a b c, le a b = true → le b c = true → le a c = true)
    (h : l.Pairwise (le · · = true)) : Latest key (insertBy le a l) b ↔
      Latest key l b ∧ (key a = key b → le a b = true) ∨
        b = a ∧ ∀ d ∈ l, key d = key a → ¬ le a d = true := by
  induction l with
  | nil =>
    rw [insertBy, latest_cons]
    simp [Latest]
  | cons c l ih =>
    obtain ⟨hc, hl⟩ := List.pairwise_cons.mp h
    unfold insertBy
    split
    · rename_i hle
      have hbelow : ∀ d ∈ c :: l, le a d = true :=
        List.forall_mem_cons.mpr ⟨hle, fun d hd => trans a c d hle (hc d hd)⟩
      rw [latest_cons]
      refine or_congr ?_ (and_congr_right fun _ => forall₂_congr fun d hd => ?_)
      · exact ⟨fun hb => ⟨hb, fun _ => hbelow b hb.mem⟩, And.left⟩
      · exact ⟨fun hne heq => absurd heq hne, fun hnot heq => hnot heq (hbelow d hd)⟩
    · rename_i hle
      rw [latest_cons, latest_cons, ih hl]
      simp only [(insertBy_perm le a l).mem_iff, List.forall_mem_cons]
      constructor
      · rintro ((hb | ⟨rfl, hnot⟩) | ⟨rfl, hne, hfresh⟩)
        · exact .inl ⟨.inl hb.1, hb.2⟩
        · exact .inr ⟨rfl, fun _ => hle, hnot⟩
        · exact .inl ⟨.inr ⟨rfl, hfresh⟩, fun heq => absurd heq hne⟩
      · rintro (⟨hb | ⟨rfl, hfresh⟩, ha⟩ | ⟨rfl, -, hnot⟩)
        · exact .inl (.inl ⟨hb, ha⟩)
        · exact .inr ⟨rfl, fun heq => hle (ha heq), hfresh⟩
        · exact .inl (.inr ⟨rfl, hnot⟩)

theorem latest_sortBy {le : β → β → Bool} (total : ∀ a b, le a b = true ∨ le b a = true)
    (trans : ∀ a b c, le a b = true → le b c = true → le a c = true) :
    Latest key (sortBy le l) b ↔ Newest le key l b := by
  -- by induction on the list, the sorted rest of which each element is put into
  induction l generalizing b with
  | nil => simp [sortBy, Latest, Newest]
  | cons a l ih =>
    rw [sortBy, latest_insertBy trans (pairwise_sortBy total trans l), newest_cons, ih]
    simp only [mem_sortBy]

theorem latest_map {γ : Type} {f : γ → β} {l : List γ} (hf : Function.Injective f) {c : γ} :
    Latest key (l.map f) (f c) ↔ Latest (fun c => key (f c)) l c := by
  constructor
  · rintro ⟨earlier, later, hl, hlater⟩
    obtain ⟨l₁, l₂, rfl, -, hl₂⟩ := List.map_eq_append_iff.mp hl
    obtain ⟨d, rest, rfl, hd, rfl⟩ := List.map_eq_cons_iff.mp hl₂
    obtain rfl := hf hd
    exact ⟨l₁, rest, rfl, fun e he => hlater (f e) (List.mem_map_of_mem he)⟩
  · rintro ⟨earlier, later, rfl, hlater⟩
    exact ⟨earlier.map f, later.map f, by simp, by simpa using hlater⟩

theorem latest_iff_mem (h : (l.map key).Nodup) : Latest key l b ↔ b ∈ l := by
  refine ⟨Latest.mem, fun hb => ?_⟩
  obtain ⟨earlier, later, rfl⟩ := List.append_of_mem hb
  refine ⟨earlier, later, rfl, fun d hd hkey => ?_⟩
  rw [List.map_append, List.map_cons] at h
  have hfresh := (List.nodup_cons.mp (List.nodup_append.mp h).2.1).1
  exact hfresh (hkey ▸ List.mem_map_of_mem hd)

end latest

namespace RangeMap
variable {α : Type} {m n : RangeMap α} {r s : Range} {a : α} {e : Range × α}
  {l l' : List (Range × α)} {error : RangeMapError}

theorem insertAll_cons (m : RangeMap α) (e : Range × α) (l : List (Range × α)) :
    m.insertAll (e :: l) = m.insert e.1 e.2 >>= fun o => o.insertAll l :=
  List.foldlM_cons

theorem mem_ranges_insert (hn : m.insert r a = .ok n) :
    s ∈ n.ranges ↔ s = r ∨ s ∈ m.ranges := by
  obtain ⟨-, hinserted⟩ := inserted_of_insert hn
  constructor
  · exact hinserted.mem_ranges
  · rintro (rfl | hs)
    · exact List.mem_map_of_mem (f := Prod.fst) hinserted.self_mem
    · exact hinserted.kept hs

namespace Ordered

theorem coherent (h : m.Ordered) : Coherent m.ranges where
  lower_lt := h.lower_lt
  same_or_disjoint r hr s hs := by
    by_cases hrs : r = s
    · exact .inl hrs
    · exact .inr fun point hrp hsp => hrs (h.eq_of_contains hr hs hrp hsp)

theorem insertAll_ok_iff (h : m.Ordered) (l : List (Range × α)) :
    (∃ n, m.insertAll l = .ok n) ↔ Coherent (l.map Prod.fst ++ m.ranges) := by
  -- by induction on the entries: those to come are judged with the ranges that are stored by then
  induction l generalizing m with
  | nil => exact ⟨fun _ => h.coherent, fun _ => ⟨m, rfl⟩⟩
  | cons e l ih =>
    have hranges : ∀ {o : RangeMap α}, m.insert e.1 e.2 = .ok o → ∀ s,
        s ∈ l.map Prod.fst ++ o.ranges ↔ s ∈ (e :: l).map Prod.fst ++ m.ranges := by
      intro o ho s
      rw [List.mem_append, mem_ranges_insert ho, List.map_cons, List.cons_append, List.mem_cons,
        List.mem_append]
      exact or_left_comm
    constructor
    · rintro ⟨n, hn⟩
      obtain ⟨o, ho, hrest⟩ := exists_of_insertAll_cons hn
      exact ((ih (h.insert ho)).mp ⟨n, hrest⟩).mono fun s hs => (hranges ho s).mpr hs
    · intro hcoherent
      obtain ⟨o, ho⟩ : ∃ o, m.insert e.1 e.2 = .ok o := by
        refine (h.insert_ok_iff e.1 e.2).mpr ⟨hcoherent.lower_lt e.1 (by simp), ?_⟩
        by_cases hmem : e.1 ∈ m.ranges
        · exact .inl hmem
        · refine .inr fun s hs => ?_
          refine (hcoherent.same_or_disjoint e.1 (by simp) s (by simp [hs])).resolve_left fun hes => ?_
          exact hmem (hes ▸ hs)
      obtain ⟨n, hn⟩ := (ih (h.insert ho)).mpr (hcoherent.mono fun s hs => (hranges ho s).mp hs)
      refine ⟨n, ?_⟩
      rw [insertAll_cons, ho]
      exact hn

/-- What is stored last for a range stays; ranges that do not come keep what they had. -/
theorem mem_insertAll_iff (h : m.Ordered) (hn : m.insertAll l = .ok n) :
    e ∈ n.entries ↔ Latest Prod.fst l e ∨ e.1 ∉ l.map Prod.fst ∧ e ∈ m.entries := by
  induction l generalizing m with
  | nil =>
    cases hn
    simp [Latest]
  | cons d l ih =>
    obtain ⟨o, ho, hrest⟩ := exists_of_insertAll_cons hn
    rw [ih (h.insert ho) hrest, h.mem_insert_iff ho, latest_cons]
    have hlast : (∀ f ∈ l, f.1 ≠ d.1) ↔ d.1 ∉ l.map Prod.fst := by
      simp only [List.mem_map, not_exists, not_and, ne_eq]
    rw [hlast, List.map_cons, List.mem_cons, not_or]
    constructor
    · rintro (hlatest | ⟨hfresh, rfl | ⟨hne, he⟩⟩)
      · exact .inl (.inl hlatest)
      · exact .inl (.inr ⟨rfl, hfresh⟩)
      · exact .inr ⟨⟨hne, hfresh⟩, he⟩
    · rintro ((hlatest | ⟨rfl, hfresh⟩) | ⟨⟨hne, hfresh⟩, he⟩)
      · exact .inl hlatest
      · exact .inr ⟨hfresh, .inl rfl⟩
      · exact .inr ⟨hfresh, .inr ⟨hne, he⟩⟩

theorem ext (hm : m.Ordered) (hn : n.Ordered) (h : ∀ e, e ∈ m.entries ↔ e ∈ n.entries) : m = n := by
  have hpairwise : ∀ {o : RangeMap α}, o.Ordered → o.entries.Pairwise fun d e => d.1.lower < e.1.lower :=
    fun {o} ho => (List.pairwise_map.mp ho.apart).imp_of_mem fun {d e} hd _ hde => by
      have hlt := ho.lower_lt d.1 (List.mem_map_of_mem hd)
      omega
  have hnodup : ∀ {o : RangeMap α}, o.Ordered → o.entries.Nodup := fun ho =>
    (hpairwise ho).imp fun hlt heq => by
      rw [heq] at hlt
      omega
  have hperm : m.entries.Perm n.entries :=
    (List.perm_ext_iff_of_nodup (hnodup hm) (hnodup hn)).mpr h
  have hentries : m.entries = n.entries :=
    hperm.eq_of_pairwise (fun d e _ _ hde hed => by omega) (hpairwise hm) (hpairwise hn)
  rw [← show RangeMap.mk m.entries = m from rfl, hentries]

/-- Entries in another order are stored to the same effect, or refused again. -/
theorem insertAll_perm (h : m.Ordered) (hperm : l.Perm l')
    (hlatest : ∀ e, Latest Prod.fst l e ↔ Latest Prod.fst l' e) :
    (∃ n, m.insertAll l = .ok n ∧ m.insertAll l' = .ok n) ∨
      ∃ error error', m.insertAll l = .error error ∧ m.insertAll l' = .error error' := by
  have hranges : ∀ s, s ∈ l.map Prod.fst ↔ s ∈ l'.map Prod.fst := fun s => (hperm.map _).mem_iff
  have hiff : (∃ n, m.insertAll l = .ok n) ↔ ∃ n, m.insertAll l' = .ok n := by
    rw [h.insertAll_ok_iff, h.insertAll_ok_iff]
    constructor
    · exact fun hc => hc.mono fun s hs => by simpa only [List.mem_append, hranges] using hs
    · exact fun hc => hc.mono fun s hs => by simpa only [List.mem_append, hranges] using hs
  cases hl : m.insertAll l with
  | ok n =>
    obtain ⟨n', hl'⟩ := hiff.mp ⟨n, hl⟩
    have hsame : n = n' := (h.insertAll hl).ext (h.insertAll hl') fun e => by
      rw [h.mem_insertAll_iff hl, h.mem_insertAll_iff hl', hlatest, hranges]
    exact .inl ⟨n, rfl, hsame ▸ hl'⟩
  | error error =>
    cases hl' : m.insertAll l' with
    | ok n' =>
      obtain ⟨n, hn⟩ := hiff.mpr ⟨n', hl'⟩
      rw [hl] at hn
      cases hn
    | error error' => exact .inr ⟨error, error', rfl, rfl⟩

end Ordered

end RangeMap

end DriveLog
