import OcsComponents.Sensor.Soil.AnalogSensor

/-!
# The position in a soil status

The range of the sensor is cut into four segments of one length. `calculate_status_` tells
the segment by its three upper bounds and takes all that is left for the last one;
`calculate_status_position_` divides by the length. The two describe one partition up to the
end of the fourth segment (`located_iff`): past it the position starts over in the same
status. The length is 0 for a range of at most 3 above a multiple of `2^18`, and a position
from `2^15` on is negative.
-/

namespace OcsComponents.Sensor.Soil

/-- The number of the segment a status stands for. -/
def SoilStatus.segment : SoilStatus → Option Nat
  | saturated => some 0
  | wet => some 1
  | depletion => some 2
  | dry => some 3
  | _ => Option.none

namespace Params

/-- `raw` lies in the range of the sensor, as a number. -/
def InRange (p : Params) (raw : BitVec 32) : Prop := (p.valueMin.toNat : Int) ≤ raw.toInt ∧ raw.toInt ≤ p.valueMax.toNat

/-- How far `raw` is above the minimum. -/
def offset (p : Params) (raw : BitVec 32) : Nat := raw.toNat - p.valueMin.toNat

/-- Nothing is divided by zero, and in range the status and the position tell where `raw` is. -/
def Located (p : Params) (raw : BitVec 32) : Prop :=
  ∃ pos, p.calculateStatusPosition raw = some pos ∧
    (p.InRange raw → ∃ k, (p.calculateStatus raw).segment = some k ∧
      raw.toInt = p.valueMin.toNat + k * p.statusLen.toNat + pos.toInt ∧ 0 ≤ pos.toInt)

theorem InRange.bounds {p : Params} {raw : BitVec 32} (h : p.InRange raw) :
    p.valueMin.toNat ≤ raw.toNat ∧ raw.toNat ≤ p.valueMax.toNat ∧ raw.toInt = raw.toNat := by
  obtain ⟨low, high⟩ := h
  have cond := BitVec.toInt_eq_toNat_cond raw
  split at cond <;> omega

theorem statusLen_toNat (p : Params) : p.statusLen.toNat = (p.valueMax.toNat - p.valueMin.toNat) / 4 % 65536 := by
  have valid : p.valueMin.toNat < p.valueMax.toNat := p.valid
  have range : (p.valueMax - p.valueMin).toNat = p.valueMax.toNat - p.valueMin.toNat := by bv_omega
  rw [statusLen, BitVec.toNat_setWidth, BitVec.toNat_udiv, range]
  rfl

@[simp] theorem statusLen_wide (p : Params) : (p.statusLen.setWidth 32).toNat = p.statusLen.toNat :=
  BitVec.toNat_setWidth_of_le (by decide)

theorem statusLen_pos {p : Params} (positive : p.statusLen ≠ 0) : 0 < p.statusLen.toNat := by
  rw [Nat.pos_iff_ne_zero]
  intro zero
  exact positive (BitVec.eq_of_toNat_eq zero)

/-- The four segments end within the range. -/
theorem four_statusLen_le (p : Params) : p.valueMin.toNat + 4 * p.statusLen.toNat ≤ p.valueMax.toNat := by
  have valid : p.valueMin.toNat < p.valueMax.toNat := p.valid
  have := p.statusLen_toNat
  omega

/-- **The segment of a status**, by the three bounds. -/
theorem calculateStatus_segment {p : Params} {raw : BitVec 32} (low : p.valueMin.toNat ≤ raw.toNat)
    (high : raw.toNat ≤ p.valueMax.toNat) : (p.calculateStatus raw).segment =
      some (if p.offset raw < p.statusLen.toNat then 0 else if p.offset raw < 2 * p.statusLen.toNat then 1
        else if p.offset raw < 3 * p.statusLen.toNat then 2 else 3) := by
  have within := p.four_statusLen_le
  have bound := p.valueMax.isLt
  have wide := p.statusLen_wide
  have inside : ¬ (raw < p.valueMin ∨ raw > p.valueMax) := by
    rw [gt_iff_lt, BitVec.lt_def, BitVec.lt_def]
    omega
  have first : raw < p.valueMin + p.statusLen.setWidth 32 ↔ p.offset raw < p.statusLen.toNat := by
    rw [BitVec.lt_def, offset]
    bv_omega
  have second : raw < p.valueMin + p.statusLen.setWidth 32 + p.statusLen.setWidth 32 ↔
      p.offset raw < 2 * p.statusLen.toNat := by
    rw [BitVec.lt_def, offset]
    bv_omega
  have third : raw < p.valueMin + p.statusLen.setWidth 32 + p.statusLen.setWidth 32 + p.statusLen.setWidth 32 ↔
      p.offset raw < 3 * p.statusLen.toNat := by
    rw [BitVec.lt_def, offset]
    bv_omega
  simp only [calculateStatus, if_neg inside, first, second, third]
  split
  · rfl
  · split
    · rfl
    · split <;> rfl

theorem calculateStatusPosition_low {p : Params} {raw : BitVec 32} (low : raw < p.valueMin) :
    p.calculateStatusPosition raw = some (-1) := if_pos low

theorem calculateStatusPosition_zero {p : Params} {raw : BitVec 32} (above : ¬ raw < p.valueMin) (zero : p.statusLen = 0) :
    p.calculateStatusPosition raw = none := by
  simp [calculateStatusPosition, above, zero]

/-- **The position** is the rest of the division, in 16 bits. -/
theorem calculateStatusPosition_rest {p : Params} {raw : BitVec 32} (above : ¬ raw < p.valueMin)
    (positive : p.statusLen ≠ 0) :
    ∃ pos, p.calculateStatusPosition raw = some pos ∧ pos.toNat = p.offset raw % p.statusLen.toNat := by
  have wide := p.statusLen_wide
  have low : p.valueMin.toNat ≤ raw.toNat := Nat.not_lt.mp above
  have divisor : p.statusLen.setWidth 32 ≠ 0 := by
    intro zero
    apply positive
    apply BitVec.eq_of_toNat_eq
    rw [← wide, zero]
    rfl
  have subtracted : (raw - p.valueMin).toNat = p.offset raw := by
    rw [offset]
    bv_omega
  have parts := Nat.div_add_mod (p.offset raw) p.statusLen.toNat
  have rest := Nat.mod_lt (p.offset raw) (statusLen_pos positive)
  have bound := p.statusLen.isLt
  have multiple : (p.statusLen.setWidth 32 * ((raw - p.valueMin) / p.statusLen.setWidth 32)).toNat =
      p.statusLen.toNat * (p.offset raw / p.statusLen.toNat) := by
    rw [BitVec.toNat_mul, BitVec.toNat_udiv, wide, subtracted, Nat.mod_eq_of_lt]
    have := (raw - p.valueMin).isLt
    omega
  have difference : (raw - p.valueMin - p.statusLen.setWidth 32 * ((raw - p.valueMin) / p.statusLen.setWidth 32)).toNat =
      p.offset raw % p.statusLen.toNat := by
    rw [BitVec.toNat_sub_of_le (by rw [BitVec.le_def, multiple]; omega), multiple]
    omega
  have computed : p.calculateStatusPosition raw = some ((raw - p.valueMin -
      p.statusLen.setWidth 32 * ((raw - p.valueMin) / p.statusLen.setWidth 32)).setWidth 16) := by
    simp only [calculateStatusPosition, if_neg above, if_neg divisor]
  refine ⟨_, computed, ?_⟩
  rw [BitVec.toNat_setWidth, difference, Nat.mod_eq_of_lt (by omega)]

/-- The division by the length tells the same segment as the bounds, up to the end of the fourth. -/
theorem segment_iff {len offset : Nat} (positive : 0 < len) :
    offset = (if offset < len then 0 else if offset < 2 * len then 1 else if offset < 3 * len then 2 else 3) * len +
      offset % len ↔ offset < 4 * len := by
  have parts := Nat.div_add_mod offset len
  have rest := Nat.mod_lt offset positive
  generalize offset / len = count at parts
  generalize offset % len = pos at parts rest ⊢
  match count with
  | 0 => rw [if_pos (by omega)]; omega
  | 1 => rw [if_neg (by omega), if_pos (by omega)]; omega
  | 2 => rw [if_neg (by omega), if_neg (by omega), if_pos (by omega)]; omega
  | 3 => rw [if_neg (by omega), if_neg (by omega), if_neg (by omega)]; omega
  | count + 4 =>
    have beyond : len * (count + 4) = len * count + 4 * len := by rw [Nat.mul_add, Nat.mul_comm 4 len]
    rw [if_neg (by omega), if_neg (by omega), if_neg (by omega)]
    omega

/-- In range the status and the position tell where a value is up to these two bounds. -/
theorem located_in_range {p : Params} {raw : BitVec 32} (inRange : p.InRange raw) (positive : p.statusLen ≠ 0)
    {pos : BitVec 16} (value : pos.toNat = p.offset raw % p.statusLen.toNat) :
    (∃ k, (p.calculateStatus raw).segment = some k ∧
      raw.toInt = p.valueMin.toNat + k * p.statusLen.toNat + pos.toInt ∧ 0 ≤ pos.toInt) ↔
      p.offset raw < 4 * p.statusLen.toNat ∧ p.offset raw % p.statusLen.toNat < 32768 := by
  obtain ⟨low, high, number⟩ := inRange.bounds
  have raised : raw.toNat = p.valueMin.toNat + p.offset raw := by
    rw [offset]
    omega
  rw [calculateStatus_segment low high, ← segment_iff (statusLen_pos positive), ← value]
  generalize (if p.offset raw < p.statusLen.toNat then 0 else if p.offset raw < 2 * p.statusLen.toNat then 1
    else if p.offset raw < 3 * p.statusLen.toNat then 2 else 3) = count
  have product : ((count * p.statusLen.toNat : Nat) : Int) = count * p.statusLen.toNat := Int.natCast_mul ..
  have signed := BitVec.toInt_eq_toNat_cond pos
  have bound := pos.isLt
  constructor
  · rintro ⟨_, segment, sum, positive⟩
    cases segment
    split at signed <;> omega
  · rintro ⟨sum, small⟩
    rw [if_pos (by omega)] at signed
    exact ⟨count, rfl, by omega, by omega⟩

/-- **The status and the position tell where a value is** where nothing is divided, or the
length is not 0 and the value, if in range, lies in the four segments and within `2^15` of
the beginning of its own. -/
theorem located_iff (p : Params) (raw : BitVec 32) :
    p.Located raw ↔ raw < p.valueMin ∨ p.statusLen ≠ 0 ∧
      (p.InRange raw → p.offset raw < 4 * p.statusLen.toNat ∧ p.offset raw % p.statusLen.toNat < 32768) := by
  by_cases low : raw < p.valueMin
  · have below : raw.toNat < p.valueMin.toNat := low
    refine iff_of_true ⟨-1, calculateStatusPosition_low low, fun inRange => ?_⟩ (.inl low)
    have := inRange.bounds
    omega
  · rw [or_iff_right low]
    by_cases zero : p.statusLen = 0
    · refine iff_of_false ?_ fun h => h.1 zero
      rintro ⟨pos, computed, -⟩
      rw [calculateStatusPosition_zero low zero] at computed
      cases computed
    · obtain ⟨pos, computed, value⟩ := calculateStatusPosition_rest low zero
      rw [and_iff_right zero]
      constructor
      · rintro ⟨_, computed', locates⟩ inRange
        cases computed.symm.trans computed'
        exact (located_in_range inRange zero value).mp (locates inRange)
      · intro covered
        exact ⟨pos, computed, fun inRange => (located_in_range inRange zero value).mpr (covered inRange)⟩

/-- At the maximum of the range, and in a range of three values. -/
theorem located_fails : ¬ Located ⟨200, 3000, by decide⟩ 3000 ∧ ¬ Located ⟨0, 3, by decide⟩ 1 := by
  constructor
  · rintro ⟨pos, computed, locates⟩
    obtain ⟨k, segment, sum, -⟩ := locates ⟨by decide, by decide⟩
    cases computed
    cases segment
    exact absurd sum (by decide)
  · rintro ⟨pos, computed, -⟩
    cases computed

end Params

end OcsComponents.Sensor.Soil
