import Mathlib.Algebra.Group.Nat.Defs
import Mathlib.Algebra.Ring.Int.Defs

/-!
# Clocks that wrap around

A clock that counts to `m` and begins again shows the time modulo `m`. What has `elapsed` from one
reading to another is known up to whole turns, and two readings are compared by how far they are
from a third: `elapsed_le_iff` is that comparison, made of comparisons of the readings alone.
-/

namespace WrappingClock
variable {m s t d i : Int}

/-- A reading of the clock. -/
structure Shows (m r : Int) : Prop where
  low : 0 ≤ r
  high : r < m

theorem shows_emod (positive : 0 < m) (t : Int) : Shows m (t % m) where
  low := Int.emod_nonneg t (Int.ne_of_gt positive)
  high := Int.emod_lt_of_pos t positive

/-- The time from a reading `s` to the next `t`. -/
def elapsed (m s t : Int) : Int := (t - s) % m

/-- What the clock shows after `i` from a reading `s`. -/
def deadline (m s i : Int) : Int := (s + i) % m

/-- The readings are enough. -/
@[simp] theorem elapsed_emod (m s t : Int) : elapsed m (s % m) (t % m) = elapsed m s t :=
  (Int.sub_emod t s m).symm

/-- Nothing is lost in less than a turn. -/
theorem elapsed_of_turn (forward : s ≤ t) (turn : t < s + m) : elapsed m s t = t - s := by
  apply Int.emod_eq_of_lt <;> omega

/-- A later reading that shows less was taken after the clock began again. -/
theorem elapsed_wrapped (start : Shows m s) (now : Shows m t) (wrapped : t < s) : elapsed m s t = t + m - s := by
  have high := start.high
  have low := now.low
  have again : elapsed m s t = elapsed m s (t + m) := by
    unfold elapsed
    rw [show t + m - s = t - s + m by omega, Int.add_emod_right]
  rw [again]
  apply elapsed_of_turn <;> omega

theorem elapsed_forward (start : Shows m s) (now : Shows m t) (forward : s ≤ t) : elapsed m s t = t - s := by
  have low := start.low
  have high := now.high
  apply elapsed_of_turn forward
  omega

/-- It takes `i` to the deadline. -/
theorem elapsed_deadline (s : Int) (interval : Shows m i) : elapsed m s (deadline m s i) = i := by
  unfold elapsed deadline
  rw [Int.emod_sub_emod, add_sub_cancel_left]
  exact Int.emod_eq_of_lt interval.low interval.high

/-- **Comparing readings** from `s` on: on the way up to the top of the clock, or after it. -/
theorem elapsed_le_iff (start : Shows m s) (first : Shows m d) (now : Shows m t) :
    elapsed m s d ≤ elapsed m s t ↔ if t < s then s ≤ d ∨ d ≤ t else s ≤ d ∧ d ≤ t := by
  have low := first.low
  have high := first.high
  have bottom := now.low
  have top := now.high
  split
  · next wrapped =>
    rw [elapsed_wrapped start now wrapped]
    by_cases before : d < s
    · rw [elapsed_wrapped start first before]
      omega
    · rw [elapsed_forward start first (by omega)]
      omega
  · next forward =>
    rw [elapsed_forward start now (by omega)]
    by_cases before : d < s
    · rw [elapsed_wrapped start first before]
      omega
    · rw [elapsed_forward start first (by omega)]
      omega

end WrappingClock
