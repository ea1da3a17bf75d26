import DriveLog.Focus
import Mathlib.Data.List.Forall2
/-!
What actions end in. A condition on results and one on errors carry over from the steps of an action
to the action: to a sequence, to a loop over a list, and to an action on a part of the state. A relation
between states that all steps keep is kept by the action.
-/
set_option autoImplicit false

namespace DriveLog
variable {ε ε' σ τ α β : Type}

/-- From `s` the action gives a value and a state with `Q`, or fails with an error and a state
with `E`. -/
def Ends (act : EStateM ε σ α) (s : σ) (Q : α → σ → Prop) (E : ε → σ → Prop) : Prop :=
  match act s with
  | .ok a t => Q a t
  | .error e t => E e t

theorem bind_of_eq_ok {act : EStateM ε σ α} {next : α → EStateM ε σ β} {s t : σ} {a : α}
    (h : act s = .ok a t) : (act >>= next) s = next a t := by
  show EStateM.bind act next s = next a t
  unfold EStateM.bind
  rw [h]

theorem bind_of_eq_error {act : EStateM ε σ α} {next : α → EStateM ε σ β} {s t : σ} {e : ε}
    (h : act s = .error e t) : (act >>= next) s = .error e t := by
  show EStateM.bind act next s = .error e t
  unfold EStateM.bind
  rw [h]

theorem get_bind_eq (next : σ → EStateM ε σ α) (s : σ) : (get >>= next) s = next s s := rfl

theorem set_bind_eq (next : PUnit → EStateM ε σ α) (s t : σ) : (set t >>= next) s = next ⟨⟩ t := rfl

namespace Ends
variable {s : σ} {Q Q' : α → σ → Prop} {E E' : ε → σ → Prop}

theorem intro_ok {act : EStateM ε σ α} {a : α} {t : σ} (ha : act s = .ok a t) (h : Q a t) :
    Ends act s Q E := by
  unfold Ends
  rw [ha]
  exact h

theorem intro_error {act : EStateM ε σ α} {e : ε} {t : σ} (he : act s = .error e t) (h : E e t) :
    Ends act s Q E := by
  unfold Ends
  rw [he]
  exact h

theorem of_eq_ok {act : EStateM ε σ α} {a : α} {t : σ} (h : Ends act s Q E)
    (ha : act s = .ok a t) : Q a t := by
  unfold Ends at h
  rw [ha] at h
  exact h

theorem of_eq_error {act : EStateM ε σ α} {e : ε} {t : σ} (h : Ends act s Q E)
    (he : act s = .error e t) : E e t := by
  unfold Ends at h
  rw [he] at h
  exact h

theorem mono {act : EStateM ε σ α} (h : Ends act s Q E) (hQ : ∀ a t, Q a t → Q' a t)
    (hE : ∀ e t, E e t → E' e t) : Ends act s Q' E' := by
  unfold Ends at *
  split at h
  · exact hQ _ _ h
  · exact hE _ _ h

theorem imp {act : EStateM ε σ α} (h : Ends act s Q E) (hQ : ∀ a t, Q a t → Q' a t) :
    Ends act s Q' E := h.mono hQ fun _ _ he => he

theorem of_ok {act : EStateM ε σ α} (h : Ends act s Q E) : Ends act s Q fun _ _ => True :=
  h.mono (fun _ _ ha => ha) fun _ _ _ => True.intro

theorem of_steady {act : EStateM ε σ α} (h : Ends act s Q fun _ _ => False) : Ends act s Q E :=
  h.mono (fun _ _ ha => ha) fun _ _ he => he.elim

theorem and {act : EStateM ε σ α} (h : Ends act s Q E) (h' : Ends act s Q' E') :
    Ends act s (fun a t => Q a t ∧ Q' a t) (fun e t => E e t ∧ E' e t) := by
  unfold Ends at *
  cases ha : act s with
  | ok a t =>
    rw [ha] at h h'
    exact ⟨h, h'⟩
  | error e t =>
    rw [ha] at h h'
    exact ⟨h, h'⟩

theorem and_ok {act : EStateM ε σ α} (h : Ends act s Q E) (h' : Ends act s Q' E') :
    Ends act s (fun a t => Q a t ∧ Q' a t) E :=
  (h.and h').mono (fun _ _ ha => ha) fun _ _ he => he.1

theorem eq_ok {act : EStateM ε σ α} (h : Ends act s Q fun _ _ => False) :
    ∃ a t, act s = .ok a t ∧ Q a t := by
  unfold Ends at h
  cases ha : act s with
  | ok a t =>
    rw [ha] at h
    exact ⟨a, t, rfl, h⟩
  | error e t =>
    rw [ha] at h
    exact h.elim

theorem pure {a : α} (h : Q a s) : Ends (Pure.pure a) s Q E := h

theorem trivial (act : EStateM ε σ α) (s : σ) : Ends act s (fun _ _ => True) fun _ _ => True := by
  unfold Ends
  split <;> simp

theorem self (act : EStateM ε σ α) (s : σ) :
    Ends act s (fun a t => act s = .ok a t) fun e t => act s = .error e t := by
  unfold Ends
  split <;> assumption

theorem throw {e : ε} (h : E e s) : Ends (throw e : EStateM ε σ α) s Q E := h

theorem throw_bind {e : ε} {next : α → EStateM ε σ β} {R : β → σ → Prop} (h : E e s) :
    Ends (MonadExcept.throw e >>= next) s R E := h

theorem bind {act : EStateM ε σ α} {next : α → EStateM ε σ β} {R : β → σ → Prop}
    (h : Ends act s Q E) (hn : ∀ a t, Q a t → Ends (next a) t R E) :
    Ends (act >>= next) s R E := by
  unfold Ends at h
  show match EStateM.bind act next s with
    | .ok b t => R b t
    | .error e t => E e t
  unfold EStateM.bind
  cases ha : act s with
  | ok a t =>
    rw [ha] at h
    exact hn a t h
  | error e t =>
    rw [ha] at h
    exact h

theorem set_bind {t : σ} {next : PUnit → EStateM ε σ α} (h : Ends (next ⟨⟩) t Q E) :
    Ends (set t >>= next) s Q E := h

theorem get_bind {next : σ → EStateM ε σ α} (h : Ends (next s) s Q E) :
    Ends (get >>= next) s Q E := h

theorem map {act : EStateM ε σ α} {f : α → β} {R : β → σ → Prop}
    (h : Ends act s Q E) (hf : ∀ a t, Q a t → R (f a) t) : Ends (f <$> act) s R E := by
  rw [← bind_pure_comp]
  exact h.bind fun a t ha => pure (hf a t ha)

theorem of_map {act : EStateM ε σ α} {f : α → β} {R : β → σ → Prop} (h : Ends (f <$> act) s R E) :
    Ends act s (fun a t => R (f a) t) E := by
  rw [← bind_pure_comp] at h
  have hmap : match EStateM.bind act (fun a => Pure.pure (f a)) s with
    | .ok b t => R b t
    | .error e t => E e t := h
  unfold EStateM.bind at hmap
  unfold Ends
  cases ha : act s with
  | ok a t =>
    rw [ha] at hmap
    exact hmap
  | error e t =>
    rw [ha] at hmap
    exact hmap

theorem adaptExcept {act : EStateM ε σ α} {f : ε → ε'} {F : ε' → σ → Prop}
    (h : Ends act s Q E) (hf : ∀ e t, E e t → F (f e) t) : Ends (act.adaptExcept f) s Q F := by
  unfold Ends EStateM.adaptExcept at *
  cases ha : act s with
  | ok a t => simpa [ha] using h
  | error e t =>
    rw [ha] at h
    exact hf e t h

theorem focus {part : σ → τ} {put : τ → σ → σ} {wrap : ε → ε'} {act : EStateM ε τ α}
    {Q : α → τ → Prop} {E : ε → τ → Prop} {R : α → σ → Prop} {F : ε' → σ → Prop}
    (h : Ends act (part s) Q E) (hQ : ∀ a t, Q a t → R a (put t s))
    (hE : ∀ e t, E e t → F (wrap e) (put t s)) : Ends (DriveLog.focus part put wrap act) s R F := by
  unfold Ends DriveLog.focus at *
  cases ha : act (part s) with
  | ok a t =>
    rw [ha] at h
    exact hQ a t h
  | error e t =>
    rw [ha] at h
    exact hE e t h

/-- A loop keeps what every round keeps of the elements still to come. -/
theorem forM {f : α → EStateM ε σ PUnit} {I : List α → σ → Prop}
    (step : ∀ a rest s, I (a :: rest) s → Ends (f a) s (fun _ t => I rest t) E) {l : List α}
    (h : I l s) : Ends (l.forM f) s (fun _ t => I [] t) E := by
  induction l generalizing s with
  | nil => exact pure h
  | cons a rest ih =>
    rw [List.forM_eq_forM, List.forM_cons]
    exact (step a rest s h).bind fun _ t ht => ih ht

/-- A loop with results keeps what every round keeps of the elements that are done, their results
and those still to come. -/
theorem mapM {f : α → EStateM ε σ β} {I : List α → List β → List α → σ → Prop}
    (step : ∀ done bs a rest s, I done bs (a :: rest) s →
      Ends (f a) s (fun b t => I (done ++ [a]) (bs ++ [b]) rest t) E) {l : List α}
    (h : I [] [] l s) : Ends (l.mapM f) s (fun bs t => I l bs [] t) E := by
  have from_here : ∀ (l done : List α) (acc : List β) (s : σ), I done acc l s →
      Ends (l.mapM f) s (fun bs t => I (done ++ l) (acc ++ bs) [] t) E := by
    intro l
    induction l with
    | nil =>
      intro done acc s h
      exact pure (by simpa using h)
    | cons a rest ih =>
      intro done acc s h
      rw [List.mapM_cons]
      refine (step done acc a rest s h).bind fun b t hb => ?_
      refine (ih _ _ _ hb).bind fun bs u hbs => pure ?_
      simpa using hbs
  simpa using from_here l [] [] s h

/-- In a loop that changes nothing, every element has its result. -/
theorem mapM_forall₂ {f : α → EStateM ε σ β} {J : σ → Prop} {R : α → β → Prop} {l : List α}
    (step : ∀ a ∈ l, ∀ s, J s → Ends (f a) s (fun b t => R a b ∧ J t) E) (h : J s) :
    Ends (l.mapM f) s (fun bs t => List.Forall₂ R l bs ∧ J t) E := by
  induction l generalizing s with
  | nil => exact pure ⟨.nil, h⟩
  | cons a rest ih =>
    rw [List.mapM_cons]
    refine (step a (by simp) s h).bind fun b t hb => ?_
    refine (ih (fun a ha => step a (by simp [ha])) hb.2).bind fun bs u hbs => pure ?_
    exact ⟨.cons hb.1 hbs.1, hbs.2⟩

theorem mapM_keeps {f : α → EStateM ε σ β} {J : σ → Prop} {l : List α}
    (step : ∀ a ∈ l, ∀ s, J s → Ends (f a) s (fun _ t => J t) E) (h : J s) :
    Ends (l.mapM f) s (fun _ t => J t) E :=
  (mapM_forall₂ (R := fun _ _ => True)
    (fun a ha s hs => (step a ha s hs).imp fun _ _ ht => ⟨True.intro, ht⟩) h).imp fun _ _ ht => ht.2

theorem exists_of_forall₂ {R : α → β → Prop} {l : List α} {m : List β} (h : List.Forall₂ R l m) :
    (∀ b ∈ m, ∃ a ∈ l, R a b) ∧ ∀ a ∈ l, ∃ b ∈ m, R a b := by
  induction h with
  | nil => simp
  | cons hab _ ih =>
    simp only [List.forall_mem_cons, List.exists_mem_cons_iff]
    exact ⟨⟨.inl hab, fun b hb => .inr (ih.1 b hb)⟩, .inl hab, fun a ha => .inr (ih.2 a ha)⟩

theorem mapM_each {f : α → EStateM ε σ β} {J : σ → Prop} {R : α → β → Prop} {l : List α}
    (step : ∀ a ∈ l, ∀ s, J s → Ends (f a) s (fun b t => R a b ∧ J t) E) (h : J s) :
    Ends (l.mapM f) s
      (fun bs t => (∀ b ∈ bs, ∃ a ∈ l, R a b) ∧ (∀ a ∈ l, ∃ b ∈ bs, R a b) ∧ J t) E := by
  refine (mapM_forall₂ step h).imp fun bs t ht => ?_
  obtain ⟨hall, ht⟩ := ht
  exact ⟨(exists_of_forall₂ hall).1, (exists_of_forall₂ hall).2, ht⟩

end Ends

/-- Wherever the action starts and however it ends, its states before and after are related. -/
def Throughout (R : σ → σ → Prop) (act : EStateM ε σ α) : Prop :=
  ∀ s, Ends act s (fun _ t => R s t) (fun _ t => R s t)

namespace Throughout
variable {R : σ → σ → Prop} {act : EStateM ε σ α} (refl : ∀ s, R s s)
  (trans : ∀ s t u, R s t → R t u → R s u)

section
include refl

theorem pure (a : α) : Throughout (ε := ε) R (Pure.pure a) := fun s => refl s

theorem throw (e : ε) : Throughout R (throw e : EStateM ε σ α) := fun s => refl s

end

theorem adaptExcept {f : ε → ε'} (h : Throughout R act) : Throughout R (act.adaptExcept f) :=
  fun s => (h s).adaptExcept fun _ _ ht => ht

section
include trans

theorem bind {next : α → EStateM ε σ β} (h : Throughout R act) (hnext : ∀ a, Throughout R (next a)) :
    Throughout R (act >>= next) := by
  intro s
  refine (h s).bind fun a t ht => ?_
  exact (hnext a t).mono (fun _ _ hu => trans _ _ _ ht hu) fun _ _ hu => trans _ _ _ ht hu

include refl

theorem forM {f : α → EStateM ε σ PUnit} {l : List α} (h : ∀ a ∈ l, Throughout R (f a)) :
    Throughout R (l.forM f) := by
  induction l with
  | nil => exact pure refl _
  | cons a rest ih =>
    rw [List.forM_eq_forM, List.forM_cons]
    exact bind trans (h a (by simp)) fun _ => ih fun b hb => h b (by simp [hb])

theorem mapM {f : α → EStateM ε σ β} {l : List α} (h : ∀ a ∈ l, Throughout R (f a)) :
    Throughout R (l.mapM f) := by
  induction l with
  | nil => exact pure refl _
  | cons a rest ih =>
    rw [List.mapM_cons]
    refine bind trans (h a (by simp)) fun _ => ?_
    exact bind trans (ih fun b hb => h b (by simp [hb])) fun _ => pure refl _

end

end Throughout

end DriveLog
