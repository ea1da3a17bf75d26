import DriveLog.Proofs.Subtraction
import DriveLog.Proofs.Timeline.Sweep
set_option autoImplicit false

namespace DriveLog.Timeline
variable {m : Type → Type} [Monad m]

def segmentOverBy (arith : Subtraction m) (conditions : List ResolvedCondition) (window : Int × Int) :
    m Segment := do
  let stop ← arith.sub window.1 window.2 1
  return { start := window.1, stop, active := activeAt conditions window.1 }

/-- An end is computed for each window: of the current segment, if that is widened, or of the next one. -/
def segmentsFromBy (arith : Subtraction m) (conditions : List ResolvedCondition) (current : Segment) :
    List (Int × Int) → m (List Segment)
  | [] => return [current]
  | w :: ws => do
    if ActiveCondition.alike current.active (activeAt conditions w.1) then
      let stop ← arith.sub current.start w.2 1
      segmentsFromBy arith conditions { current with stop } ws
    else
      let next ← segmentOverBy arith conditions w
      return current :: (← segmentsFromBy arith conditions next ws)

def flattenBy (arith : Subtraction m) (conditions : List ResolvedCondition) : m (List Segment) :=
  match windows (breakpoints conditions) with
  | [] => return []
  | w :: ws => do segmentsFromBy arith conditions (← segmentOverBy arith conditions w) ws

variable [LawfulMonad m] (arith : Subtraction m) {conditions : List ResolvedCondition} {q p : Int}
  {rest : List Int}

theorem segmentOverBy_eq (hq : IsWord q) (hp : IsWord p) (h : q < p) :
    segmentOverBy arith conditions (q, p) = pure (segmentOver conditions (q, p)) := by
  have hle : q ≤ p - 1 := by omega
  simp only [segmentOverBy, segmentOver, arith.sub_eq (hq.sub_one hp h) hle, pure_bind]

theorem segmentsFromBy_eq (hascending : (q :: rest).Pairwise (· < ·)) (hword : ∀ x ∈ q :: rest, IsWord x)
    {current : Segment} (hstart : current.start ≤ q) :
    segmentsFromBy arith conditions current (windows (q :: rest)) =
      pure (segmentsFrom conditions current (windows (q :: rest))) := by
  induction rest generalizing q current with
  | nil => rfl
  | cons p rest ih =>
    obtain ⟨hq, hword⟩ := List.forall_mem_cons.mp hword
    have hqp : q < p := (List.pairwise_cons.mp hascending).1 p (by simp)
    have hp : IsWord p := hword p (by simp)
    have hlong : current.start ≤ p - 1 := by omega
    rw [windows_cons_cons, segmentsFromBy, segmentsFrom]
    -- the window widens the current segment, or it is the next one's
    by_cases halike : ActiveCondition.alike current.active (activeAt conditions q) = true
    · simp only [segmentOver, halike, if_true, arith.sub_eq (hq.sub_one hp hqp) hlong, pure_bind]
      exact ih hascending.of_cons hword (Int.le_trans hstart (Int.le_of_lt hqp))
    · have hactive : (segmentOver conditions (q, p)).active = activeAt conditions q := rfl
      have hnext : (segmentOver conditions (q, p)).start ≤ p := Int.le_of_lt hqp
      simp only [hactive, halike, Bool.false_eq_true, if_false, segmentOverBy_eq arith hq hp hqp,
        ih hascending.of_cons hword hnext, pure_bind]

theorem flattenBy_eq (hword : ∀ c ∈ conditions, IsWord c.start ∧ IsWord c.stop) :
    flattenBy arith conditions = pure (flatten conditions) := by
  have hascending : (breakpoints conditions).Pairwise (· < ·) := pairwise_breakpoints
  have hpoints : ∀ x ∈ breakpoints conditions, IsWord x := by
    intro x hx
    obtain ⟨c, hc, rfl | rfl⟩ := mem_breakpoints.mp hx
    · exact (hword c hc).1
    · exact (hword c hc).2
  unfold flattenBy flatten
  match hl : breakpoints conditions with
  | [] => rfl
  | [p] => rfl
  | q :: p :: rest =>
    rw [hl] at hascending hpoints
    obtain ⟨hq, hpoints⟩ := List.forall_mem_cons.mp hpoints
    have hqp : q < p := (List.pairwise_cons.mp hascending).1 p (by simp)
    rw [windows_cons_cons]
    simp only
    rw [segmentOverBy_eq arith hq (hpoints p (by simp)) hqp, pure_bind]
    exact segmentsFromBy_eq arith hascending.of_cons hpoints (Int.le_of_lt hqp)

end DriveLog.Timeline
