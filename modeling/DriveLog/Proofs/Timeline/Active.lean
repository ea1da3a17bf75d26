import DriveLog.Timeline.Segment
import Mathlib.Data.Set.Insert
import Mathlib.Data.List.Forall2
set_option autoImplicit false

namespace DriveLog

namespace Binary64
variable {x y z : Binary64}

theorem max_eq_or (x y : Binary64) : x.max y = x ∨ x.max y = y := by
  unfold max
  split
  · exact .inr rfl
  · split
    · exact .inr rfl
    · exact .inl rfl

theorem key_le_max (hx : x.isNaN = false) (hy : y.isNaN = false) :
    x.key ≤ (x.max y).key ∧ y.key ≤ (x.max y).key := by
  unfold max
  rw [if_neg (by simp [hx])]
  cases hless : x.less y with
  | true =>
    have hlt := ((less_iff x y).mp hless).2.2
    exact ⟨Int.le_of_lt hlt, Int.le_refl _⟩
  | false =>
    have hge : ¬ x.key < y.key := fun hlt => by
      have htrue := (less_iff x y).mpr ⟨hx, hy, hlt⟩
      simp [hless] at htrue
    exact ⟨Int.le_refl _, by simpa using hge⟩

theorem isNaN_of_isFinite (h : x.isFinite = true) : x.isNaN = false := by
  simp only [isFinite, isNaN, decide_eq_true_eq, decide_eq_false_iff_not] at h ⊢
  omega

end Binary64

namespace ActiveCondition
variable {a b c : ActiveCondition} {l m : List ActiveCondition}

theorem SameKey.symm (h : a.SameKey b) : b.SameKey a := ⟨h.1.symm, h.2.symm⟩

theorem SameKey.trans (hab : a.SameKey b) (hbc : b.SameKey c) : a.SameKey c :=
  ⟨hab.1.trans hbc.1, hab.2.trans hbc.2⟩

theorem Before.trans (hab : a.Before b) (hbc : b.Before c) : a.Before c := by
  rcases hab with hab | ⟨hab, hurl⟩
  · rcases hbc with hbc | ⟨hbc, _⟩
    · exact .inl (by omega)
    · exact .inl (hbc ▸ hab)
  · rcases hbc with hbc | ⟨hbc, hurl'⟩
    · exact .inl (hab ▸ hbc)
    · exact .inr ⟨hab.trans hbc, String.lt_trans hurl hurl'⟩

theorem Before.congr {a' b' : ActiveCondition} (h : a.Before b) (ha : a.SameKey a')
    (hb : b.SameKey b') : a'.Before b' := by
  unfold Before at h ⊢
  rwa [← ha.1, ← ha.2, ← hb.1, ← hb.2]

theorem Before.not_sameKey (h : a.Before b) : ¬ a.SameKey b := by
  rintro ⟨htype, hurl⟩
  rcases h with hlt | ⟨_, hlt⟩
  · rw [htype] at hlt
    omega
  · rw [hurl] at hlt
    exact String.lt_irrefl _ hlt

theorem before_or_before (h : ¬ a.SameKey b) : a.Before b ∨ b.Before a := by
  by_cases htype : a.type = b.type
  · have hurl : a.url ≠ b.url := fun hurl => h ⟨htype, hurl⟩
    rcases String.le_total a.url b.url with hle | hle
    · exact .inl (.inr ⟨htype, String.not_le.mp fun hge => hurl (String.le_antisymm hle hge)⟩)
    · exact .inr (.inr ⟨htype.symm, String.not_le.mp fun hge => hurl (String.le_antisymm hge hle)⟩)
  · have hrank : a.type.rank ≠ b.type.rank := fun hr => htype (ConditionType.rank_injective hr)
    rcases Nat.lt_or_gt_of_ne hrank with hlt | hgt
    · exact .inl (.inl hlt)
    · exact .inr (.inl hgt)

theorem eq_of_sameKey (h : l.Pairwise Before) (ha : a ∈ l) (hb : b ∈ l) (hab : a.SameKey b) :
    a = b := by
  induction l with
  | nil => simp at ha
  | cons d l ih =>
    obtain ⟨hd, hl⟩ := List.pairwise_cons.mp h
    rcases List.mem_cons.mp ha with rfl | ha'
    · rcases List.mem_cons.mp hb with rfl | hb'
      · rfl
      · exact absurd hab (hd b hb').not_sameKey
    · rcases List.mem_cons.mp hb with rfl | hb'
      · exact absurd hab.symm (hd a ha').not_sameKey
      · exact ih hl ha' hb'

theorem before_add {d : ActiveCondition} (hd : ∀ b ∈ l, d.Before b) (hda : d.Before a) :
    ∀ b ∈ add a l, d.Before b := by
  induction l with
  | nil => simpa [add] using hda
  | cons b l ih =>
    obtain ⟨hb, hl⟩ := List.forall_mem_cons.mp hd
    unfold add
    split
    · simpa using ⟨hb.congr ⟨rfl, rfl⟩ ⟨rfl, rfl⟩, hl⟩
    · split
      · simpa using ⟨hda, hb, hl⟩
      · simpa using ⟨hb, ih hl⟩

theorem pairwise_add (h : l.Pairwise Before) : (add a l).Pairwise Before := by
  induction l with
  | nil => simp [add]
  | cons b l ih =>
    obtain ⟨hb, hl⟩ := List.pairwise_cons.mp h
    unfold add
    split
    · exact hl.cons fun c hc => (hb c hc).congr ⟨rfl, rfl⟩ ⟨rfl, rfl⟩
    · rename_i hkey
      split
      · rename_i hab
        exact h.cons (List.forall_mem_cons.mpr ⟨hab, fun c hc => hab.trans (hb c hc)⟩)
      · rename_i hab
        have hba : b.Before a := (before_or_before hkey).resolve_right hab
        exact (ih hl).cons (before_add hb hba)

structure Gathers (l : List ActiveCondition) (given : Set ActiveCondition) : Prop where
  ascending : l.Pairwise Before
  given_of_mem : ∀ a ∈ l, ∃ g ∈ given, g.SameKey a ∧ a.severity = g.severity
  mem_of_given : ∀ g ∈ given, ∃ a ∈ l, g.SameKey a ∧ g.severity.key ≤ a.severity.key

theorem given_of_mem_add (h : c ∈ add a l) :
    ∃ g, (g = a ∨ g ∈ l) ∧ g.SameKey c ∧ c.severity = g.severity := by
  induction l with
  | nil => exact ⟨a, .inl rfl, by simp_all [add, SameKey]⟩
  | cons b l ih =>
    unfold add at h
    split at h
    · rename_i hkey
      rcases List.mem_cons.mp h with rfl | hc
      · rcases Binary64.max_eq_or b.severity a.severity with hmax | hmax
        · exact ⟨b, by simp, ⟨rfl, rfl⟩, hmax⟩
        · exact ⟨a, by simp, hkey.symm, hmax⟩
      · exact ⟨c, by simp [hc], ⟨rfl, rfl⟩, rfl⟩
    · split at h
      · rcases List.mem_cons.mp h with rfl | hc
        · exact ⟨c, by simp, ⟨rfl, rfl⟩, rfl⟩
        · exact ⟨c, .inr hc, ⟨rfl, rfl⟩, rfl⟩
      · rcases List.mem_cons.mp h with rfl | hc
        · exact ⟨c, by simp, ⟨rfl, rfl⟩, rfl⟩
        · obtain ⟨g, hg, hsame⟩ := ih hc
          exact ⟨g, hg.imp_right (List.mem_cons_of_mem b), hsame⟩

theorem mem_add_of_given (hl : ∀ b ∈ l, b.severity.isNaN = false)
    (ha : a.severity.isNaN = false) {g : ActiveCondition} (h : g = a ∨ g ∈ l) :
    ∃ c ∈ add a l, g.SameKey c ∧ g.severity.key ≤ c.severity.key := by
  induction l with
  | nil =>
    have hg : g = a := by simpa using h
    exact ⟨a, by simp [add], hg ▸ ⟨rfl, rfl⟩, hg ▸ Int.le_refl _⟩
  | cons b l ih =>
    obtain ⟨hb, hl'⟩ := List.forall_mem_cons.mp hl
    unfold add
    split
    · rename_i hkey
      have hmax := Binary64.key_le_max hb ha
      rcases h with rfl | h
      · exact ⟨_, List.mem_cons_self, hkey.symm, hmax.2⟩
      · rcases List.mem_cons.mp h with rfl | hg
        · exact ⟨_, List.mem_cons_self, ⟨rfl, rfl⟩, hmax.1⟩
        · exact ⟨g, by simp [hg], ⟨rfl, rfl⟩, Int.le_refl _⟩
    · split
      · exact ⟨g, by simpa using h, ⟨rfl, rfl⟩, Int.le_refl _⟩
      · rcases h with rfl | h
        · obtain ⟨c, hc, hgc⟩ := ih hl' (.inl rfl)
          exact ⟨c, by simp [hc], hgc⟩
        · rcases List.mem_cons.mp h with rfl | hg
          · exact ⟨g, by simp, ⟨rfl, rfl⟩, Int.le_refl _⟩
          · obtain ⟨c, hc, hgc⟩ := ih hl' (.inr hg)
            exact ⟨c, by simp [hc], hgc⟩

theorem gathers_nil : Gathers [] ∅ := ⟨.nil, by simp, by simp⟩

theorem Gathers.isNaN {given : Set ActiveCondition} (h : Gathers l given)
    (hg : ∀ g ∈ given, g.severity.isNaN = false) : ∀ a ∈ l, a.severity.isNaN = false := by
  intro a ha
  obtain ⟨g, hmem, -, hseverity⟩ := h.given_of_mem a ha
  rw [hseverity, hg g hmem]

theorem Gathers.add {given : Set ActiveCondition} (h : Gathers l given)
    (hgiven : ∀ g ∈ given, g.severity.isNaN = false) (ha : a.severity.isNaN = false) :
    Gathers (add a l) (insert a given) := by
  constructor
  case ascending => exact pairwise_add h.ascending
  case given_of_mem =>
    intro c hc
    obtain ⟨b, hb, hbc, hseverity⟩ := given_of_mem_add hc
    rcases hb with rfl | hb
    · exact ⟨b, Set.mem_insert _ _, hbc, hseverity⟩
    · obtain ⟨g, hg, hgb, hseverity'⟩ := h.given_of_mem b hb
      exact ⟨g, Set.mem_insert_of_mem _ hg, hgb.trans hbc, hseverity.trans hseverity'⟩
  case mem_of_given =>
    intro g hg
    have hl := h.isNaN hgiven
    rcases Set.mem_insert_iff.mp hg with rfl | hg
    · exact mem_add_of_given hl ha (.inl rfl)
    · obtain ⟨b, hb, hgb, hle⟩ := h.mem_of_given g hg
      obtain ⟨c, hc, hbc, hle'⟩ := mem_add_of_given hl ha (.inr hb)
      exact ⟨c, hc, hgb.trans hbc, Int.le_trans hle hle'⟩

theorem alike_iff : alike l m = true ↔
    List.Forall₂ (fun a b => a.SameKey b ∧ a.severity.equals b.severity = true) l m := by
  induction l generalizing m with
  | nil => cases m <;> simp [alike]
  | cons a l ih => cases m <;> simp [alike, ih]

theorem alike_refl (h : ∀ a ∈ l, a.severity.isNaN = false) : alike l l = true := by
  refine alike_iff.mpr (List.forall₂_same.mpr fun a ha => ⟨⟨rfl, rfl⟩, ?_⟩)
  exact (Binary64.equals_iff _ _).mpr ⟨h a ha, h a ha, rfl⟩

theorem alike_symm (h : alike l m = true) : alike m l = true := by
  rw [alike_iff] at h ⊢
  refine h.flip.imp fun b a hab => ⟨hab.1.symm, ?_⟩
  obtain ⟨ha, hb, hkey⟩ := (Binary64.equals_iff _ _).mp hab.2
  exact (Binary64.equals_iff _ _).mpr ⟨hb, ha, hkey.symm⟩

theorem exists_of_alike (h : alike l m = true) (ha : a ∈ l) :
    ∃ b ∈ m, a.SameKey b ∧ a.severity.equals b.severity = true := by
  rw [alike_iff] at h
  induction h with
  | nil => simp at ha
  | cons hab _ ih =>
    rcases List.mem_cons.mp ha with rfl | ha
    · exact ⟨_, List.mem_cons_self, hab⟩
    · obtain ⟨b, hb, hsame⟩ := ih ha
      exact ⟨b, List.mem_cons_of_mem _ hb, hsame⟩

theorem pairwise_of_alike (h : alike l m = true) (hm : m.Pairwise Before) : l.Pairwise Before := by
  induction l generalizing m with
  | nil => exact .nil
  | cons a l ih =>
    cases m with
    | nil => simp [alike] at h
    | cons b m =>
      obtain ⟨hb, hm⟩ := List.pairwise_cons.mp hm
      have htail : alike l m = true := by
        simp only [alike, Bool.and_eq_true] at h
        exact h.2
      have hab : a.SameKey b := by
        simp only [alike, Bool.and_eq_true, decide_eq_true_eq] at h
        exact h.1.1
      refine (ih htail hm).cons fun c hc => ?_
      obtain ⟨d, hd, hcd, -⟩ := exists_of_alike htail hc
      exact (hb d hd).congr hab.symm hcd.symm

/-- The list has exactly the keys of the given conditions, in order, each at the greatest severity
that is given for it. -/
structure Lists (l : List ActiveCondition) (given : Set ActiveCondition) : Prop where
  ascending : l.Pairwise Before
  keys : ∀ type url, (∃ a ∈ l, a.type = type ∧ a.url = url) ↔ ∃ g ∈ given, g.type = type ∧ g.url = url
  greatest : ∀ a ∈ l, (∃ g ∈ given, g.SameKey a ∧ a.severity.equals g.severity = true) ∧
    ∀ g ∈ given, g.SameKey a → a.severity.less g.severity = false

theorem Gathers.lists_of_alike {given : Set ActiveCondition} (h : Gathers m given)
    (hlm : alike l m = true) : Lists l given := by
  constructor
  case ascending => exact pairwise_of_alike hlm h.ascending
  case keys =>
    intro type url
    constructor
    · rintro ⟨a, ha, rfl, rfl⟩
      obtain ⟨b, hb, hab, -⟩ := exists_of_alike hlm ha
      obtain ⟨g, hg, hgb, -⟩ := h.given_of_mem b hb
      exact ⟨g, hg, hgb.1.trans hab.1.symm, hgb.2.trans hab.2.symm⟩
    · rintro ⟨g, hg, rfl, rfl⟩
      obtain ⟨b, hb, hgb, -⟩ := h.mem_of_given g hg
      obtain ⟨a, ha, hba, -⟩ := exists_of_alike (alike_symm hlm) hb
      exact ⟨a, ha, (hgb.trans hba).1.symm, (hgb.trans hba).2.symm⟩
  case greatest =>
    intro a ha
    obtain ⟨b, hb, hab, hequal⟩ := exists_of_alike hlm ha
    constructor
    · obtain ⟨g, hg, hgb, hseverity⟩ := h.given_of_mem b hb
      exact ⟨g, hg, hgb.trans hab.symm, hseverity ▸ hequal⟩
    · intro g hg hga
      obtain ⟨c, hc, hgc, hle⟩ := h.mem_of_given g hg
      obtain rfl := eq_of_sameKey h.ascending hc hb (hgc.symm.trans (hga.trans hab))
      have hkey := ((Binary64.equals_iff _ _).mp hequal).2.2
      refine Bool.eq_false_iff.mpr fun hless => ?_
      have hlt := ((Binary64.less_iff _ _).mp hless).2.2
      omega

end ActiveCondition

end DriveLog
