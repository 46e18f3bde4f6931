import Mathlib.Algebra.Group.Nat.Defs
import Mathlib.Algebra.Ring.Int.Defs
import OcsComponents.Lib.WrappingClock

/-!
# Time comparisons

`ocs_algo/time_ops.h`. `TimeOps::after` is a template over the type of the times; the
type shows in the sum of the start and the interval, which is `wrap`ped into it. On an unsigned
type the times are readings of a clock that wraps around, and `after` is right about what has
elapsed, wherever the readings are.
-/

namespace OcsComponents.Algo

/-- The value of a sum in `int64_t`. -/
def int64 (n : Int) : Int := n.bmod (2 ^ 64)

theorem int64_eq {n : Int} (low : 0 ≤ n) (high : n < 2 ^ 63) : int64 n = n := by
  apply Int.bmod_eq_of_le <;> omega

/-- The value of a sum in an unsigned type of `w` bits. -/
def unsigned (w : Nat) (n : Int) : Int := n % 2 ^ w

/-- `TimeOps::after`. -/
def after (wrap : Int → Int) (start now interval : Int) : Bool :=
  let dest := wrap (start + interval)
  if now < start then
    if start < dest then true
    else if dest ≤ now then true
    else false
  else if now < dest then false
  else if dest < start then false
  else true

/-- On a clock that goes forward, and far from the top of its type. -/
theorem after_forward {start now interval : Int} (low : 0 ≤ start) (forward : start ≤ now) (positive : 0 < interval)
    (far : start + interval < 2 ^ 63) : after int64 start now interval = decide (start + interval ≤ now) := by
  unfold after
  rw [int64_eq (by omega) far, if_neg (by omega), if_neg (by omega : ¬ start + interval < start)]
  by_cases due : start + interval ≤ now
  · simp [due, Int.not_lt.mpr due]
  · simp [due, Int.not_le.mp due]

/-! ## Clocks that wrap around -/

section
open WrappingClock
variable {w : Nat}

/-- The comparisons find out which of the deadline and the present comes first after the start. -/
theorem after_iff_elapsed {start now interval : Int} (began : Shows (2 ^ w) start) (present : Shows (2 ^ w) now)
    (positive : 0 < interval) (fits : interval < 2 ^ w) :
    after (unsigned w) start now interval = true ↔ interval ≤ elapsed (2 ^ w) start now := by
  have length : Shows (2 ^ w) interval := ⟨Int.le_of_lt positive, fits⟩
  have dest : Shows (2 ^ w) (unsigned w (start + interval)) := shows_emod (Int.lt_trans positive fits) _
  have away : elapsed (2 ^ w) start (unsigned w (start + interval)) = interval := elapsed_deadline start length
  -- a whole turn would be an interval of zero
  have moved : unsigned w (start + interval) ≠ start := by
    intro same
    rw [same, elapsed_forward began began (Int.le_refl start), Int.sub_self] at away
    omega
  calc after (unsigned w) start now interval = true
    _ ↔ if now < start then start ≤ unsigned w (start + interval) ∨ unsigned w (start + interval) ≤ now
        else start ≤ unsigned w (start + interval) ∧ unsigned w (start + interval) ≤ now := by
      unfold after
      dsimp only
      generalize unsigned w (start + interval) = dest at moved
      by_cases wrapped : now < start
      · simp only [if_pos wrapped, Bool.if_true_left, Bool.if_false_right, Bool.and_true, Bool.or_eq_true,
          decide_eq_true_eq]
        omega
      · simp only [if_neg wrapped, Bool.if_false_left, Bool.and_true, Bool.and_eq_true, Bool.not_eq_true',
          decide_eq_false_iff_not]
        omega
    _ ↔ elapsed (2 ^ w) start (unsigned w (start + interval)) ≤ elapsed (2 ^ w) start now :=
      (elapsed_le_iff began dest present).symm
    _ ↔ interval ≤ elapsed (2 ^ w) start now := by rw [away]

theorem shows_toNat (time : BitVec w) : Shows (2 ^ w) time.toNat where
  low := Int.natCast_nonneg _
  high := by exact_mod_cast time.isLt

/-- **`TimeOps::after` is right across wrap-around**: on an unsigned type of any width it compares
the interval with the difference of the times modulo the type. -/
theorem after_unsigned_iff (start now interval : BitVec w) (positive : 0 < interval) :
    after (unsigned w) start.toNat now.toNat interval.toNat = true ↔
      (interval.toNat : Int) ≤ ((now.toNat : Int) - start.toNat) % 2 ^ w := by
  have waits : (0 : Int) < interval.toNat := by
    exact_mod_cast BitVec.lt_def.mp positive
  exact after_iff_elapsed (shows_toNat start) (shows_toNat now) waits (shows_toNat interval).high

/-- Begun shortly before the clock wraps. -/
theorem after_unsigned_iff_wrapped : after (unsigned 32) 4294967173 198 321 = true :=
  (after_unsigned_iff (4294967173#32) 198#32 321#32 (by decide)).mpr (by decide)

/-- So a clock read in less than a turn tells whether the interval has passed in the time it counts. -/
theorem after_clock {start now interval : Int} (forward : start ≤ now) (turn : now < start + 2 ^ w)
    (positive : 0 < interval) (fits : interval < 2 ^ w) :
    after (unsigned w) (start % 2 ^ w) (now % 2 ^ w) interval = true ↔ start + interval ≤ now := by
  have counts := Int.lt_trans positive fits
  rw [after_iff_elapsed (shows_emod counts start) (shows_emod counts now) positive fits, elapsed_emod,
    elapsed_of_turn forward turn]
  omega

end

end OcsComponents.Algo
