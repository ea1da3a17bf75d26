set_option autoImplicit false

namespace DriveLog
variable {α : Type}

def insertBy (le : α → α → Bool) (a : α) : List α → List α
  | [] => [a]
  | b :: l => if le a b then a :: b :: l else b :: insertBy le a l

def sortBy (le : α → α → Bool) : List α → List α
  | [] => []
  | a :: l => insertBy le a (sortBy le l)

theorem insertBy_perm (le : α → α → Bool) (a : α) (l : List α) :
    (insertBy le a l).Perm (a :: l) := by
  induction l with
  | nil => exact .refl _
  | cons b l ih =>
    unfold insertBy
    split
    · exact .refl _
    · exact (ih.cons b).trans (.swap a b l)

theorem sortBy_perm (le : α → α → Bool) (l : List α) : (sortBy le l).Perm l := by
  induction l with
  | nil => exact .refl _
  | cons a l ih => exact (insertBy_perm le a _).trans (ih.cons a)

@[simp] theorem mem_sortBy {le : α → α → Bool} {a : α} {l : List α} : a ∈ sortBy le l ↔ a ∈ l :=
  (sortBy_perm le l).mem_iff

theorem pairwise_insertBy {le : α → α → Bool} {R : α → α → Prop}
    (total : ∀ a b, le a b = true ∨ le b a = true)
    (trans : ∀ a b c, le a b = true → le b c = true → le a c = true) {a : α} {l : List α}
    (ha : ∀ b ∈ l, R a b) (h : l.Pairwise fun b c => le b c = true ∧ (le c b = true → R b c)) :
    (insertBy le a l).Pairwise fun b c => le b c = true ∧ (le c b = true → R b c) := by
  induction l with
  | nil => simp [insertBy]
  | cons b l ih =>
    obtain ⟨hb, hl⟩ := List.pairwise_cons.mp h
    obtain ⟨hab, hal⟩ := List.forall_mem_cons.mp ha
    unfold insertBy
    split
    · rename_i hle
      refine h.cons fun c hc => ?_
      rcases List.mem_cons.mp hc with rfl | hc
      · exact ⟨hle, fun _ => hab⟩
      · exact ⟨trans a b c hle (hb c hc).1, fun _ => hal c hc⟩
    · rename_i hle
      refine (ih hal hl).cons fun c hc => ?_
      rcases List.mem_cons.mp ((insertBy_perm le a l).mem_iff.mp hc) with rfl | hc
      · exact ⟨(total b c).resolve_right hle, fun hle' => absurd hle' hle⟩
      · exact hb c hc

/-- Sorting by a total and transitive order leaves no element before a smaller one, and equally great ones
in the order in which they came. -/
theorem pairwise_sortBy_stable {le : α → α → Bool} {R : α → α → Prop}
    (total : ∀ a b, le a b = true ∨ le b a = true)
    (trans : ∀ a b c, le a b = true → le b c = true → le a c = true) {l : List α}
    (h : l.Pairwise R) :
    (sortBy le l).Pairwise fun a b => le a b = true ∧ (le b a = true → R a b) := by
  induction l with
  | nil => exact .nil
  | cons a l ih =>
    obtain ⟨ha, hl⟩ := List.pairwise_cons.mp h
    exact pairwise_insertBy total trans (fun b hb => ha b (mem_sortBy.mp hb)) (ih hl)

theorem pairwise_sortBy {le : α → α → Bool} (total : ∀ a b, le a b = true ∨ le b a = true)
    (trans : ∀ a b c, le a b = true → le b c = true → le a c = true) (l : List α) :
    (sortBy le l).Pairwise (le · · = true) := by
  have htrue : l.Pairwise fun _ _ => True := List.pairwise_of_forall fun _ _ => trivial
  exact (pairwise_sortBy_stable total trans htrue).imp And.left

/-- Elements that are all equally great stay in the order in which they came. -/
theorem filter_insertBy {le : α → α → Bool} {p : α → Bool}
    (h : ∀ a b, p a = true → p b = true → le a b = true) (a : α) (l : List α) :
    (insertBy le a l).filter p = (a :: l).filter p := by
  induction l with
  | nil => rfl
  | cons b l ih =>
    unfold insertBy
    split
    · rfl
    · rename_i hab
      rw [List.filter_cons, ih]
      by_cases ha : p a = true
      · have hb : ¬ p b = true := fun hb => hab (h a b ha hb)
        simp [ha, hb]
      · simp [ha, List.filter_cons]

theorem filter_sortBy {le : α → α → Bool} {p : α → Bool}
    (h : ∀ a b, p a = true → p b = true → le a b = true) (l : List α) :
    (sortBy le l).filter p = l.filter p := by
  induction l with
  | nil => rfl
  | cons a l ih =>
    rw [sortBy, filter_insertBy h, List.filter_cons, List.filter_cons, ih]

theorem pairwise_sortBy_lt (f : α → Int) {R : α → α → Prop} {l : List α} (h : l.Pairwise R) :
    (sortBy (fun a b => decide (f a ≤ f b)) l).Pairwise
      fun a b => f a < f b ∨ f a = f b ∧ R a b := by
  have total : ∀ a b, decide (f a ≤ f b) = true ∨ decide (f b ≤ f a) = true := by
    simp only [decide_eq_true_eq]
    omega
  have trans : ∀ a b c, decide (f a ≤ f b) = true → decide (f b ≤ f c) = true →
      decide (f a ≤ f c) = true := by
    simp only [decide_eq_true_eq]
    omega
  refine (pairwise_sortBy_stable total trans h).imp fun {a b} hab => ?_
  simp only [decide_eq_true_eq] at hab
  rcases Int.lt_or_eq_of_le hab.1 with hlt | heq
  · exact .inl hlt
  · exact .inr ⟨heq, hab.2 (Int.le_of_eq heq.symm)⟩

theorem pairwise_sortBy_le (f : α → Int) (l : List α) :
    (sortBy (fun a b => decide (f a ≤ f b)) l).Pairwise fun a b => f a ≤ f b := by
  have htrue : l.Pairwise fun _ _ => True := List.pairwise_of_forall fun _ _ => trivial
  exact (pairwise_sortBy_lt f htrue).imp fun {a b} hab => by omega

end DriveLog
