import Mathlib.Data.Int.CardIntervalMod
import OcsComponents.Lib.WhileLoop

/-!
# Random values in a range

`ocs_system/default_randomizer.cpp`. A value of `esp_random()` is reduced modulo the size of the range, and
drawn again where it lies in the last, incomplete period; but the period is looked for at the end of 64 bits,
which a value of 32 bits never reaches. So the first value is always taken, and the first values of the
range come up once more than the others unless its size is a power of two.
-/

namespace OcsComponents.System
open WhileLoop

namespace DefaultRandomizer

/-- `range` -/
def range (from_ to_ : BitVec 32) : BitVec 64 := to_.setWidth 64 - from_.setWidth 64 + 1

/-- An iteration, with the `i`-th value of `esp_random()`. -/
def body (range : BitVec 64) (espRandom : Nat → BitVec 32) (i : Nat) : BitVec 64 ⊕ (Unit × Nat) :=
  let x := (espRandom i).setWidth 64
  let r := x % range
  if x - r > -range then .inr ((), i + 1) else .inl r

/-- `DefaultRandomizer::random`, up to an assertion that does not hold. -/
def random (from_ to_ : BitVec 32) (espRandom : Nat → BitVec 32) (fuel : Nat) : Option (Option (BitVec 32)) :=
  if ¬ from_ ≤ to_ then some none
  else (run (body (range from_ to_) espRandom) fuel 0).map fun r =>
    let ret := from_ + r.setWidth 32
    if ret ≥ from_ ∧ ret ≤ to_ then some ret else none

/-- The value that is made of one of `esp_random()`. -/
def reduce (from_ to_ x : BitVec 32) : BitVec 32 := from_ + (x.setWidth 64 % range from_ to_).setWidth 32

/-- How many of the values of `esp_random()` make `v`. -/
def draws (from_ to_ v : BitVec 32) : Nat := Nat.count (fun x => reduce from_ to_ (BitVec.ofNat 32 x) = v) (2 ^ 32)

variable {from_ to_ : BitVec 32}

theorem range_toNat (ordered : from_ ≤ to_) : (range from_ to_).toNat = to_.toNat - from_.toNat + 1 := by
  have low := BitVec.le_def.mp ordered
  have high := to_.isLt
  rw [range]
  bv_omega

theorem reduce_toNat (ordered : from_ ≤ to_) (x : BitVec 32) :
    (reduce from_ to_ x).toNat = from_.toNat + x.toNat % (to_.toNat - from_.toNat + 1) := by
  have low := BitVec.le_def.mp ordered
  have high := to_.isLt
  have below := Nat.mod_lt x.toNat (Nat.succ_pos (to_.toNat - from_.toNat))
  have wide : x.toNat % 2 ^ 64 = x.toNat := Nat.mod_eq_of_lt (Nat.lt_trans x.isLt (by decide))
  rw [reduce, BitVec.toNat_add, BitVec.toNat_setWidth, BitVec.toNat_umod, range_toNat ordered,
    BitVec.toNat_setWidth, wide]
  generalize x.toNat % (to_.toNat - from_.toNat + 1) = r at *
  rw [Nat.mod_eq_of_lt (by omega : r < 2 ^ 32), Nat.mod_eq_of_lt (by omega)]

/-- The value that was drawn first is taken. -/
theorem body_takes (ordered : from_ ≤ to_) (espRandom : Nat → BitVec 32) :
    body (range from_ to_) espRandom 0 = .inl ((espRandom 0).setWidth 64 % range from_ to_) := by
  have size := range_toNat ordered
  have low := BitVec.le_def.mp ordered
  have high := to_.isLt
  have value : ((espRandom 0).setWidth 64).toNat < 2 ^ 32 := by
    rw [BitVec.toNat_setWidth]
    exact Nat.lt_of_le_of_lt (Nat.mod_le _ _) (espRandom 0).isLt
  have reduced : ((espRandom 0).setWidth 64 % range from_ to_).toNat ≤ ((espRandom 0).setWidth 64).toNat := by
    rw [BitVec.toNat_umod]
    exact Nat.mod_le _ _
  have end_ : 2 ^ 32 ≤ (-range from_ to_).toNat := by
    rw [BitVec.toNat_neg, size]
    omega
  apply if_neg
  rw [gt_iff_lt, BitVec.lt_def, BitVec.toNat_sub_of_le (BitVec.le_def.mpr reduced)]
  omega

/-- The value that is returned is in the range, and the first draw decides. -/
theorem random_gives (ordered : from_ ≤ to_) (espRandom : Nat → BitVec 32) :
    Gives (random from_ to_ espRandom) (some (reduce from_ to_ (espRandom 0))) ∧
      from_ ≤ reduce from_ to_ (espRandom 0) ∧ reduce from_ to_ (espRandom 0) ≤ to_ := by
  have value := reduce_toNat ordered (espRandom 0)
  have below : (espRandom 0).toNat % (to_.toNat - from_.toNat + 1) < to_.toNat - from_.toNat + 1 :=
    Nat.mod_lt _ (Nat.succ_pos _)
  have low := BitVec.le_def.mp ordered
  have inside : from_ ≤ reduce from_ to_ (espRandom 0) ∧ reduce from_ to_ (espRandom 0) ≤ to_ := by
    rw [BitVec.le_def, BitVec.le_def, value]
    omega
  refine ⟨?_, inside⟩
  have takes := (leaves_now (body_takes ordered espRandom)).gives.map fun r =>
    let ret := from_ + r.setWidth 32
    if ret ≥ from_ ∧ ret ≤ to_ then some ret else none
  have result : random from_ to_ espRandom = fun fuel => (run (body (range from_ to_) espRandom) fuel 0).map fun r =>
      let ret := from_ + r.setWidth 32
      if ret ≥ from_ ∧ ret ≤ to_ then some ret else none := by
    funext fuel
    rw [random, if_neg (not_not_intro ordered)]
  rw [result]
  have asserted : (let ret := reduce from_ to_ (espRandom 0)
      if ret ≥ from_ ∧ ret ≤ to_ then some ret else none) = some (reduce from_ to_ (espRandom 0)) := if_pos inside
  rw [← asserted]
  exact takes

/-- The draws among the first values of `esp_random()`. -/
theorem count_reduce (ordered : from_ ≤ to_) {v : BitVec 32} (low : from_ ≤ v) (high : v ≤ to_) {n : Nat}
    (bound : n ≤ 2 ^ 32) :
    Nat.count (fun x => reduce from_ to_ (BitVec.ofNat 32 x) = v) n =
      n / (to_.toNat - from_.toNat + 1) +
        if v.toNat - from_.toNat < n % (to_.toNat - from_.toNat + 1) then 1 else 0 := by
  have low := BitVec.le_def.mp low
  have high := BitVec.le_def.mp high
  have offset : (v.toNat - from_.toNat) % (to_.toNat - from_.toNat + 1) = v.toNat - from_.toNat :=
    Nat.mod_eq_of_lt (by omega)
  have counted := Nat.count_modEq_card n (Nat.succ_pos (to_.toNat - from_.toNat)) (v.toNat - from_.toNat)
  rw [Nat.succ_eq_add_one, offset] at counted
  rw [← counted, Nat.count_eq_card_filter_range, Nat.count_eq_card_filter_range]
  congr 1
  apply Finset.filter_congr
  intro x mem
  have below : x < 2 ^ 32 := Nat.lt_of_lt_of_le (Finset.mem_range.mp mem) bound
  have value := reduce_toNat ordered (BitVec.ofNat 32 x)
  rw [BitVec.toNat_ofNat, Nat.mod_eq_of_lt below] at value
  rw [← BitVec.toNat_inj, value, Nat.ModEq, offset]
  generalize x % (to_.toNat - from_.toNat + 1) = r
  omega

/-- **A value of the range for every first draw**, and for each value as many draws as for any other, but for
one more at the first values: all are equally likely if and only if the size of the range is a power of two. -/
theorem random_draws (ordered : from_ ≤ to_) :
    let size := to_.toNat - from_.toNat + 1
    (∀ espRandom, ∃ v, Gives (random from_ to_ espRandom) (some v) ∧ v = reduce from_ to_ (espRandom 0) ∧
      from_ ≤ v ∧ v ≤ to_) ∧
    (∀ v, from_ ≤ v → v ≤ to_ →
      draws from_ to_ v = 2 ^ 32 / size + if v.toNat - from_.toNat < 2 ^ 32 % size then 1 else 0) ∧
    ((∀ v w, from_ ≤ v → v ≤ to_ → from_ ≤ w → w ≤ to_ → draws from_ to_ v = draws from_ to_ w) ↔ size ∣ 2 ^ 32) := by
  intro size
  have counts : ∀ v, from_ ≤ v → v ≤ to_ →
      draws from_ to_ v = 2 ^ 32 / size + if v.toNat - from_.toNat < 2 ^ 32 % size then 1 else 0 :=
    fun v low high => count_reduce ordered low high (Nat.le_refl _)
  refine ⟨fun espRandom => ?_, counts, ?_⟩
  · obtain ⟨gives, inside⟩ := random_gives ordered espRandom
    exact ⟨_, gives, rfl, inside⟩
  · rw [Nat.dvd_iff_mod_eq_zero]
    have bound : 2 ^ 32 % size < size := Nat.mod_lt _ (Nat.succ_pos _)
    have refl : from_ ≤ from_ ∧ to_ ≤ to_ := ⟨BitVec.le_refl _, BitVec.le_refl _⟩
    constructor
    · -- the first value and the last one
      intro uniform
      have same := uniform from_ to_ refl.1 ordered ordered refl.2
      rw [counts _ refl.1 ordered, counts _ ordered refl.2, Nat.sub_self,
        if_neg (by omega : ¬ to_.toNat - from_.toNat < 2 ^ 32 % size)] at same
      by_contra some
      rw [if_pos (Nat.pos_of_ne_zero some)] at same
      omega
    · intro whole v w v_low v_high w_low w_high
      rw [counts v v_low v_high, counts w w_low w_high, whole, if_neg (Nat.not_lt_zero _), if_neg (Nat.not_lt_zero _)]

/-- A die. -/
theorem random_draws_six : draws 1 6 1 = 715827883 ∧ draws 1 6 6 = 715827882 := by
  have counts := (random_draws (by decide : (1 : BitVec 32) ≤ 6)).2.1
  exact ⟨counts 1 (by decide) (by decide), counts 6 (by decide) (by decide)⟩

end DefaultRandomizer

end OcsComponents.System
