set_option autoImplicit false

namespace DriveLog

/-- Runs an action on the part that `part` takes out of a state and `put` puts back. The rest of the
state stays, whether the action fails or not; `wrap` tells its errors. -/
def focus {ε ε' σ τ α : Type} (part : σ → τ) (put : τ → σ → σ) (wrap : ε → ε')
    (act : EStateM ε τ α) : EStateM ε' σ α := fun s =>
  match act (part s) with
  | .ok a t => .ok a (put t s)
  | .error e t => .error (wrap e) (put t s)

end DriveLog
