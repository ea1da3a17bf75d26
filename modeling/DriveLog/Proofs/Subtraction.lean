/-!
Times are words of 64 bits. There are several ways to take a difference of times, which agree where the
difference fits: to stop at one that does not, or to wrap around. What a run comes to in each of these ways
if no difference leaves the words is what it comes to with integers.
-/
set_option autoImplicit false

namespace DriveLog
variable {x y : Int}

def IsWord (x : Int) : Prop := Int64.minValue.toInt ≤ x ∧ x ≤ Int64.maxValue.toInt

instance (x : Int) : Decidable (IsWord x) := inferInstanceAs (Decidable (_ ∧ _))

theorem isWord_iff : IsWord x ↔ -9223372036854775808 ≤ x ∧ x ≤ 9223372036854775807 := by
  have hmin : Int64.minValue.toInt = -9223372036854775808 := rfl
  have hmax : Int64.maxValue.toInt = 9223372036854775807 := rfl
  rw [IsWord, hmin, hmax]

theorem IsWord.toInt_ofInt (h : IsWord x) : (Int64.ofInt x).toInt = x := by
  rw [isWord_iff] at h
  exact Int64.toInt_ofInt_of_le (by omega) (by omega)

theorem IsWord.sub_one (hx : IsWord x) (hy : IsWord y) (h : x < y) : IsWord (y - 1) := by
  simp only [isWord_iff] at *
  omega

/-- A way to take differences of times. Each difference comes with the least that it is meant to be, and has to be
right where it is a word and no less than that. -/
structure Subtraction (m : Type → Type) [Monad m] where
  sub : (least a b : Int) → m Int
  sub_eq : ∀ {least a b : Int}, IsWord (a - b) → least ≤ a - b → sub least a b = pure (a - b)

namespace Subtraction

/-- Stops at a difference that is no word or less than it is meant to be. -/
def checked : Subtraction Option where
  sub least a b := Option.guard (fun d => IsWord d ∧ least ≤ d) (a - b)
  sub_eq hword hleast := by simp [Option.guard, hword, hleast]

def wrapping : Subtraction Id where
  sub _ a b := pure (Int64.ofInt a - Int64.ofInt b).toInt
  sub_eq hword _ := by rw [← Int64.ofInt_sub, hword.toInt_ofInt]

end Subtraction

end DriveLog
