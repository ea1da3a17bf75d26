import DriveLog.Proofs.Outcome
/-!
Two runs side by side. Actions agree on states that belong together if from such states both give values
that belong together, or both fail with one error; the states they end in belong together again. What holds
of the steps of two actions carries over to the actions.
-/
set_option autoImplicit false

namespace DriveLog
variable {ε ε' σ σ' τ τ' α α' β β' : Type}

/-- Both runs gave values in `R`, or both failed with one error, in states in `P`. -/
inductive Alike (P : σ → σ' → Prop) (R : α → α' → Prop) :
    EStateM.Result ε σ α → EStateM.Result ε σ' α' → Prop
  | ok {a : α} {a' : α'} {s : σ} {s' : σ'} (hR : R a a') (hP : P s s') : Alike P R (.ok a s) (.ok a' s')
  | error {e : ε} {s : σ} {s' : σ'} (hP : P s s') : Alike P R (.error e s) (.error e s')

theorem Alike.ends {P : σ → σ' → Prop} {R : α → α' → Prop} {x : EStateM.Result ε σ α}
    {x' : EStateM.Result ε σ' α'} (h : Alike P R x x') :
    (∃ a s a' s', x = .ok a s ∧ x' = .ok a' s' ∧ R a a' ∧ P s s') ∨
      ∃ e s s', x = .error e s ∧ x' = .error e s' ∧ P s s' := by
  cases h with
  | ok hR hP => exact .inl ⟨_, _, _, _, rfl, rfl, hR, hP⟩
  | error hP => exact .inr ⟨_, _, _, rfl, rfl, hP⟩

def Agree (P : σ → σ' → Prop) (R : α → α' → Prop) (act : EStateM ε σ α) (act' : EStateM ε σ' α') :
    Prop :=
  ∀ s s', P s s' → Alike P R (act s) (act' s')

namespace Agree
variable {P : σ → σ' → Prop} {R : α → α' → Prop} {S : β → β' → Prop} {act : EStateM ε σ α}
  {act' : EStateM ε σ' α'}

theorem imp {S : α → α' → Prop} (h : Agree P R act act') (hRS : ∀ a a', R a a' → S a a') :
    Agree P S act act' := by
  intro s s' hP
  obtain ⟨a, t, a', t', hact, hact', hR, hP⟩ | ⟨e, t, t', hact, hact', hP⟩ := (h s s' hP).ends
  · rw [hact, hact']
    exact .ok (hRS a a' hR) hP
  · rw [hact, hact']
    exact .error hP

theorem pure {a : α} {a' : α'} (h : R a a') :
    Agree P R (Pure.pure a : EStateM ε σ α) (Pure.pure a') := fun _ _ hP => .ok h hP

theorem throw (e : ε) : Agree P R (throw e : EStateM ε σ α) (MonadExcept.throw e) :=
  fun _ _ hP => .error hP

theorem bind {next : α → EStateM ε σ β} {next' : α' → EStateM ε σ' β'} (h : Agree P R act act')
    (hnext : ∀ a a', R a a' → Agree P S (next a) (next' a')) :
    Agree P S (act >>= next) (act' >>= next') := by
  intro s s' hP
  obtain ⟨a, t, a', t', hact, hact', hR, hP⟩ | ⟨e, t, t', hact, hact', hP⟩ := (h s s' hP).ends
  · rw [bind_of_eq_ok hact, bind_of_eq_ok hact']
    exact hnext a a' hR t t' hP
  · rw [bind_of_eq_error hact, bind_of_eq_error hact']
    exact .error hP

theorem throw_bind (e : ε) {next : α → EStateM ε σ β} {next' : α' → EStateM ε σ' β'} :
    Agree P S (MonadExcept.throw e >>= next) (MonadExcept.throw e >>= next') :=
  fun _ _ hP => .error hP

theorem get_bind {next : σ → EStateM ε σ α} {next' : σ' → EStateM ε σ' α'}
    (h : ∀ s s', P s s' → Agree P R (next s) (next' s')) :
    Agree P R (get >>= next) (get >>= next') :=
  fun s s' hP => h s s' hP s s' hP

theorem modify {f : σ → σ} {f' : σ' → σ'} (h : ∀ s s', P s s' → P (f s) (f' s')) :
    Agree P Eq (modify f : EStateM ε σ PUnit) (modify f') := fun s s' hP => .ok rfl (h s s' hP)

theorem mapM {f : β → EStateM ε σ α} {f' : β → EStateM ε σ' α} (h : ∀ b, Agree P Eq (f b) (f' b))
    (l : List β) : Agree P Eq (l.mapM f) (l.mapM f') := by
  induction l with
  | nil => exact pure rfl
  | cons b rest ih =>
    rw [List.mapM_cons, List.mapM_cons]
    refine (h b).bind fun a _ ha => ?_
    subst ha
    exact ih.bind fun as _ has => pure (congrArg (a :: ·) has)

theorem focus {Q : τ → τ' → Prop} {part : τ → σ} {part' : τ' → σ'} {put : σ → τ → τ}
    {put' : σ' → τ' → τ'} {wrap : ε → ε'} (h : Agree P R act act')
    (hpart : ∀ t t', Q t t' → P (part t) (part' t'))
    (hput : ∀ t t', Q t t' → ∀ s s', P s s' → Q (put s t) (put' s' t')) :
    Agree Q R (DriveLog.focus part put wrap act) (DriveLog.focus part' put' wrap act') := by
  intro t t' hQ
  unfold DriveLog.focus
  obtain ⟨a, s, a', s', hact, hact', hR, hP⟩ | ⟨e, s, s', hact, hact', hP⟩ := (h _ _ (hpart t t' hQ)).ends
  · rw [hact, hact']
    exact .ok hR (hput t t' hQ s s' hP)
  · rw [hact, hact']
    exact .error (hput t t' hQ s s' hP)

end Agree

end DriveLog
