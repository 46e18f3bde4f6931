import OcsComponents.Sensor.Bme280.Arithmetic

/-!
# What can overflow in the BME280 formulas

Whatever is received from the device, nothing is divided by zero and the humidity is at most
100 %. Some numbers can overflow, when the coefficients do not belong together: for each formula
`InRange` lists them, and no other number of the formula does.
-/

set_option linter.dupNamespace false

namespace OcsComponents.Sensor.Bme280
open Status Algo Checked

namespace Temperature
variable (c : CalibrationData1) (a : Int)

def linear : Int := (a / 2 ^ 3 - c.digT1.toNat * 2 ^ 1) * c.digT2.toInt

def square : Int := (a / 2 ^ 4 - c.digT1.toNat) * (a / 2 ^ 4 - c.digT1.toNat)

def quadratic : Int := square c a / 2 ^ 12 * c.digT3.toInt

def tFine : Int := linear c a / 2 ^ 11 + quadratic c a / 2 ^ 14

/-- The products that can overflow, for a reading `a`. -/
structure InRange : Prop where
  linear : Fits 32 (linear c a)
  square : Fits 32 (square c a)
  quadratic : Fits 32 (quadratic c a)

variable {c a}

theorem InRange.within (inRange : InRange c a) : Within 1179648 (tFine c a) := by
  have linear := fits_32.mp inRange.linear
  have quadratic := fits_32.mp inRange.quadratic
  unfold tFine Within
  omega

theorem exactly (c : CalibrationData1) (adcT : BitVec 32) (raw : 0 ≤ adcT.toInt ∧ adcT.toInt < 2 ^ 20) :
    Exactly (checkedT c adcT).1 (InRange c adcT.toInt) ((tFine c adcT.toInt * 5 + 128) / 2 ^ 8) ∧
      Exactly (checkedT c adcT).2 (InRange c adcT.toInt) (tFine c adcT.toInt) := by
  have unsigned := c.digT1.isLt
  have a := exactly_signed 32 adcT (by decide)
  have digT1 := exactly_unsigned 32 c.digT1 (by decide)
  have digT2 := exactly_signed 32 c.digT2 (by decide)
  have digT3 := exactly_signed 32 c.digT3 (by decide)
  have double : Fits 32 (c.digT1.toNat * 2 ^ 1) := fits_32.mpr (by omega)
  have difference : Fits 32 (adcT.toInt / 2 ^ 3 - c.digT1.toNat * 2 ^ 1) := fits_32.mpr (by omega)
  have difference' : Fits 32 (adcT.toInt / 2 ^ 4 - c.digT1.toNat) := fits_32.mpr (by omega)
  have var1 : Exactly _ (Fits 32 (linear c adcT.toInt)) (linear c adcT.toInt / 2 ^ 11) :=
    ((((a.shr 3).sub (digT1.shl 1)).mul digT2).congr (by simp only [double, difference, true_and]; rfl)).shr 11
  have offset : Exactly _ True _ := ((a.shr 4).sub digT1).congr (by simp only [difference', true_and])
  have var2 : Exactly _ (Fits 32 (square c adcT.toInt) ∧ Fits 32 (quadratic c adcT.toInt))
      (quadratic c adcT.toInt / 2 ^ 14) :=
    ((((offset.mul offset).shr 12).mul digT3).congr (by simp only [true_and]; rfl)).shr 14
  have fine : Exactly _ (InRange c adcT.toInt) (tFine c adcT.toInt) := (var1.add var2).congr <| by
    constructor
    · rintro ⟨linear, ⟨square, quadratic⟩, -⟩
      exact ⟨linear, square, quadratic⟩
    · intro inRange
      have bound := inRange.within
      unfold Within tFine at bound
      exact ⟨inRange.linear, ⟨inRange.square, inRange.quadratic⟩, fits_32.mpr (by omega)⟩
  refine ⟨Exactly.shr ?_ 8, fine⟩
  apply ((fine.mul (exactly_of (x := 5) (by decide))).add (exactly_of (x := 128) (by decide))).congr
  constructor
  · exact fun all => all.1.1
  · intro inRange
    have := inRange.within
    unfold Within at this
    exact ⟨⟨inRange, trivial, fits_32.mpr (by omega)⟩, trivial, fits_32.mpr (by omega)⟩

end Temperature

namespace Pressure
variable (c : CalibrationData1) (s a : Int)

/-- The divisor before it is shifted, for `t_fine_ - 128000`. -/
def scale : Int :=
  (1 * 2 ^ 47 + (s * s * c.digP3.toInt / 2 ^ 8 + s * c.digP2.toInt * 2 ^ 12)) * c.digP1.toNat

def offset : Int := s * s * c.digP6.toInt + s * c.digP5.toInt * 2 ^ 17 + c.digP4.toInt * 2 ^ 35

def dividend : Int := ((1048576 - a) * 2 ^ 31 - offset c s) * 3125

def quotient : Int := (dividend c s a).tdiv (scale c s / 2 ^ 33)

def square (p : Int) : Int := c.digP9.toInt * (p / 2 ^ 13) * (p / 2 ^ 13)

def linear (p : Int) : Int := c.digP8.toInt * p

/-- The pressure, made of a quotient. -/
def pressure (p : Int) : Int := (p + square c p / 2 ^ 25 + linear c p / 2 ^ 19) / 2 ^ 8 + c.digP7.toInt * 2 ^ 4

/-- What can overflow in the terms of a quotient. -/
structure TermsInRange (p : Int) : Prop where
  square : Fits 64 (Pressure.square c p)
  linear : Fits 64 (Pressure.linear c p)
  sum : Fits 64 (p + Pressure.square c p / 2 ^ 25 + Pressure.linear c p / 2 ^ 19)

/-- What can overflow, for a reading `a`. -/
structure InRange : Prop where
  scale : Fits 64 (Pressure.scale c s)
  rest : Pressure.scale c s / 2 ^ 33 ≠ 0 → Fits 64 (dividend c s a) ∧ TermsInRange c (quotient c s a)

variable {c s a} {p : Int}

/-- A quotient fits: the dividend is no power of 2. -/
theorem quotient_fits (fits : Fits 64 (dividend c s a)) : Fits 64 (quotient c s a) := by
  have less : (quotient c s a).natAbs ≤ (dividend c s a).natAbs := Int.natAbs_tdiv_le_natAbs _ _
  rw [fits_64] at fits ⊢
  have multiple : dividend c s a = ((1048576 - a) * 2 ^ 31 - offset c s) * 3125 := rfl
  generalize (1048576 - a) * 2 ^ 31 - offset c s = m at multiple
  omega

/-- The first product of the square fits if the second one does. -/
theorem square_first (fits : Fits 64 (square c p)) : Fits 64 (c.digP9.toInt * (p / 2 ^ 13)) := by
  have low := BitVec.le_toInt c.digP9
  have high := BitVec.toInt_lt (x := c.digP9)
  have coefficient : Within 32768 c.digP9.toInt := ⟨by omega, by omega⟩
  rw [fits_64] at fits ⊢
  by_cases small : |p / 2 ^ 13| ≤ 1
  · have := coefficient.mul (within_iff_abs.mpr small)
    unfold Within at this
    omega
  · have whole : Within (2 ^ 62 * 2) (c.digP9.toInt * (p / 2 ^ 13) * (p / 2 ^ 13)) := by
      unfold square at fits
      exact ⟨by omega, by omega⟩
    have := whole.factor (by decide) (by omega)
    unfold Within at this
    omega

/-- So does the sum of the quotient and the square. -/
theorem sum_first (fits : Fits 64 p) (square : Fits 64 (square c p)) :
    Fits 64 (p + Pressure.square c p / 2 ^ 25) := by
  by_cases zero : c.digP9.toInt = 0
  · have none : Pressure.square c p = 0 := by rw [Pressure.square, zero, Int.zero_mul, Int.zero_mul]
    rw [none]
    simpa using fits
  · rw [fits_64] at square
    have root : Within (2 ^ 32) (p / 2 ^ 13) := by
      have reordered : Pressure.square c p = (p / 2 ^ 13) * (p / 2 ^ 13) * c.digP9.toInt := by
        rw [Pressure.square, Int.mul_assoc, Int.mul_comm]
      have whole : Within (2 ^ 32 * 2 ^ 32 * 1) (p / 2 ^ 13 * (p / 2 ^ 13) * c.digP9.toInt) := by
        rw [← reordered]
        exact ⟨by omega, by omega⟩
      exact (whole.factor (by decide) (Int.one_le_abs zero)).root (by decide)
    unfold Within at root
    rw [fits_64]
    omega

section
variable {var1 : Checked 64}

theorem within_signed (word : BitVec 16) : Within 32768 word.toInt := by
  have low := BitVec.le_toInt word
  have high := BitVec.toInt_lt (x := word)
  exact ⟨low, by omega⟩

/-- What is computed before the division fits for every `t_fine_` that a reading can leave. -/
theorem exactly_offset (exactly : Exactly var1 True s) (small : Within 1307648 s) :
    Exactly (var1 * var1 * of c.digP6.toInt + (var1 * of c.digP5.toInt) <<< 17 + of c.digP4.toInt <<< 35) True
      (offset c s) := by
  have coefficient (word : BitVec 16) := exactly_signed 64 word (by decide)
  have square := small.mul small
  have digP6 := square.mul (within_signed c.digP6)
  have digP5 := small.mul (within_signed c.digP5)
  have digP4 := within_signed c.digP4
  unfold Within at square digP6 digP5 digP4
  have quadratic : Exactly (var1 * var1 * of c.digP6.toInt) True (s * s * c.digP6.toInt) :=
    ((exactly.mul exactly).mul (coefficient c.digP6)).always
      ⟨⟨trivial, trivial, fits_64.mpr (by omega)⟩, trivial, fits_64.mpr (by omega)⟩
  have linear : Exactly ((var1 * of c.digP5.toInt) <<< 17) True (s * c.digP5.toInt * 2 ^ 17) :=
    ((exactly.mul (coefficient c.digP5)).shl 17).always
      ⟨⟨trivial, trivial, fits_64.mpr (by omega)⟩, fits_64.mpr (by omega)⟩
  have constant : Exactly (of c.digP4.toInt <<< 35 : Checked 64) True (c.digP4.toInt * 2 ^ 35) :=
    ((coefficient c.digP4).shl 35).always ⟨trivial, fits_64.mpr (by omega)⟩
  exact ((quadratic.add linear).add constant).always
    ⟨⟨trivial, trivial, fits_64.mpr (by omega)⟩, trivial, fits_64.mpr (by omega)⟩

theorem offset_within (small : Within 1307648 s) : Within (2 ^ 56) (offset c s) := by
  have digP6 := (small.mul small).mul (within_signed c.digP6)
  have digP5 := small.mul (within_signed c.digP5)
  have digP4 := within_signed c.digP4
  unfold Within at *
  unfold offset
  omega

/-- Of the divisor only the last product may not fit. -/
theorem exactly_scale (exactly : Exactly var1 True s) (small : Within 1307648 s) :
    Exactly (((1 : Checked 64) <<< 47 + ((var1 * var1 * of c.digP3.toInt) >>> 8 +
      (var1 * of c.digP2.toInt) <<< 12)) * of c.digP1.toNat) (Fits 64 (scale c s)) (scale c s) := by
  have coefficient (word : BitVec 16) := exactly_signed 64 word (by decide)
  have square := small.mul small
  have digP3 := square.mul (within_signed c.digP3)
  have digP2 := small.mul (within_signed c.digP2)
  unfold Within at square digP3 digP2
  have quadratic : Exactly ((var1 * var1 * of c.digP3.toInt) >>> 8) True (s * s * c.digP3.toInt / 2 ^ 8) :=
    (((exactly.mul exactly).mul (coefficient c.digP3)).shr 8).always
      ⟨⟨trivial, trivial, fits_64.mpr (by omega)⟩, trivial, fits_64.mpr (by omega)⟩
  have linear : Exactly ((var1 * of c.digP2.toInt) <<< 12) True (s * c.digP2.toInt * 2 ^ 12) :=
    ((exactly.mul (coefficient c.digP2)).shl 12).always
      ⟨⟨trivial, trivial, fits_64.mpr (by omega)⟩, fits_64.mpr (by omega)⟩
  have one : Exactly ((1 : Checked 64) <<< 47) True (1 * 2 ^ 47) :=
    (Exactly.shl (exactly_of (x := 1) (by decide)) 47).always ⟨trivial, by decide⟩
  have sum := (one.add (quadratic.add linear)).always
    ⟨trivial, ⟨trivial, trivial, fits_64.mpr (by omega)⟩, fits_64.mpr (by omega)⟩
  apply (sum.mul (exactly_unsigned 64 c.digP1 (by decide))).congr
  rw [true_and, true_and]
  rfl

/-- The terms of a quotient. -/
theorem exactly_terms {P : Prop} {quotient : Checked 64} (exactly : Exactly quotient P p) (fits : P → Fits 64 p) :
    Exactly ((quotient + (of c.digP9.toInt * quotient >>> 13 * quotient >>> 13) >>> 25 +
      (of c.digP8.toInt * quotient) >>> 19) >>> 8 + of c.digP7.toInt <<< 4)
      (P ∧ TermsInRange c p) (pressure c p) := by
  have coefficient (word : BitVec 16) := exactly_signed 64 word (by decide)
  have digP7 := within_signed c.digP7
  unfold Within at digP7
  have high : Exactly ((of c.digP9.toInt * quotient >>> 13 * quotient >>> 13) >>> 25) (P ∧ Fits 64 (square c p))
      (square c p / 2 ^ 25) := by
    apply ((((coefficient c.digP9).mul (exactly.shr 13)).mul (exactly.shr 13)).shr 25).congr
    constructor
    · exact fun all => ⟨all.2.1, all.2.2⟩
    · exact fun both => ⟨⟨trivial, both.1, square_first both.2⟩, both.1, both.2⟩
  have low : Exactly ((of c.digP8.toInt * quotient) >>> 19) (P ∧ Fits 64 (linear c p)) (linear c p / 2 ^ 19) := by
    apply (((coefficient c.digP8).mul exactly).shr 19).congr
    rw [true_and]
    rfl
  have constant : Exactly (of c.digP7.toInt <<< 4 : Checked 64) True (c.digP7.toInt * 2 ^ 4) :=
    ((coefficient c.digP7).shl 4).always ⟨trivial, fits_64.mpr (by omega)⟩
  have sum := ((exactly.add high).add low).congr (Q := P ∧ TermsInRange c p) <| by
    constructor
    · rintro ⟨⟨holds, ⟨-, square⟩, -⟩, ⟨-, linear⟩, sum⟩
      exact ⟨holds, square, linear, sum⟩
    · rintro ⟨holds, terms⟩
      have first := sum_first (fits holds) terms.square
      exact ⟨⟨holds, ⟨holds, terms.square⟩, first⟩, ⟨holds, terms.linear⟩, terms.sum⟩
  refine ((sum.shr 8).add constant).congr (and_iff_left_of_imp ?_)
  rintro ⟨-, terms⟩
  have whole := fits_64.mp terms.sum
  exact ⟨trivial, fits_64.mpr (by omega)⟩

end

/-- **The pressure** overflows exactly where these products do, and nothing is divided by zero. -/
theorem exactly (c : CalibrationData1) {tFine : BitVec 32} (adcP : BitVec 32) (fine : Within 1179648 tFine.toInt)
    (raw : 0 ≤ adcP.toInt ∧ adcP.toInt < 2 ^ 20) : let s := tFine.toInt - 128000
    Exactly (checkedP c tFine adcP) (InRange c s adcP.toInt)
      (if scale c s / 2 ^ 33 = 0 then 0 else pressure c (quotient c s adcP.toInt)) := by
  intro s
  unfold Within at fine
  have small : Within 1307648 s := ⟨by omega, by omega⟩
  have bound := offset_within (c := c) small
  unfold Within at bound
  have var1 : Exactly (widen (of tFine.toInt : Checked 32) - 128000 : Checked 64) True s :=
    (Exactly.sub (exactly_signed 32 tFine (by decide)).widen (exactly_of (x := 128000) (by decide))).always
      ⟨trivial, trivial, fits_64.mpr (by omega)⟩
  have var2 := exactly_offset (c := c) var1 small
  have divisor := (exactly_scale (c := c) var1 small).shr 33
  have left : Exactly (widen (1048576 - of adcP.toInt : Checked 32) : Checked 64) True (1048576 - adcP.toInt) :=
    ((Exactly.sub (exactly_of (x := 1048576) (by decide)) (exactly_signed 32 adcP (by decide))).always
      ⟨trivial, trivial, fits_32.mpr (by omega)⟩).widen
  have difference := ((left.shl 31).sub var2).always
    ⟨⟨trivial, fits_64.mpr (by omega)⟩, trivial, fits_64.mpr (by omega)⟩
  have dividend := (difference.mul (exactly_of (x := 3125) (by decide))).congr
    (Q := Fits 64 (dividend c s adcP.toInt)) (by rw [true_and, true_and]; rfl)
  -- the terms are only computed, and only overflow, where there is something to divide by
  have rest (nonzero : scale c s / 2 ^ 33 ≠ 0) := exactly_terms (c := c)
    ((dividend.div divisor nonzero).congr (Q := Fits 64 (Pressure.dividend c s adcP.toInt) ∧ Fits 64 (scale c s))
      ⟨fun all => ⟨all.1, all.2.1⟩, fun both => ⟨both.1, both.2, quotient_fits both.1⟩⟩)
    (fun both => quotient_fits both.1)
  apply (var2.before (divisor.unlessZero rest)).congr
  constructor
  · exact fun all => ⟨all.2.1, fun nonzero => ⟨(all.2.2 nonzero).1.1, (all.2.2 nonzero).2⟩⟩
  · exact fun inRange => ⟨trivial, inRange.scale, fun nonzero =>
      ⟨⟨(inRange.rest nonzero).1, inRange.scale⟩, (inRange.rest nonzero).2⟩⟩

end Pressure

namespace Humidity
variable (c1 : CalibrationData1) (c2 : CalibrationData2) (v h w : Int)

def offset : Int := h * 2 ^ 14 - c2.digH4.toInt * 2 ^ 20 - c2.digH5.toInt * v

def slope : Int := v * c2.digH6.toInt / 2 ^ 10 * (v * c2.digH3.toNat / 2 ^ 11 + 32768)

def scale : Int := (slope c2 v / 2 ^ 10 + 2097152) * c2.digH2.toInt

def product : Int := (offset c2 v h + 16384) / 2 ^ 15 * ((scale c2 v + 8192) / 2 ^ 14)

def square : Int := w / 2 ^ 15 * (w / 2 ^ 15)

def bend : Int := square w / 2 ^ 7 * c1.digH1.toNat

/-- What can overflow, for `t_fine_ - 76800` and a reading `h`. -/
structure InRange : Prop where
  digH4 : c2.digH4.toInt < 2048
  digH5 : Fits 32 (c2.digH5.toInt * v)
  offset : Fits 32 (Humidity.offset c2 v h)
  offset_rounded : Fits 32 (Humidity.offset c2 v h + 16384)
  slope : Fits 32 (Humidity.slope c2 v)
  scale : Fits 32 (Humidity.scale c2 v)
  scale_rounded : Fits 32 (Humidity.scale c2 v + 8192)
  product : Fits 32 (Humidity.product c2 v h)
  square : Fits 32 (Humidity.square (Humidity.product c2 v h))
  bend : Fits 32 (Humidity.bend c1 (Humidity.product c2 v h))

/-- The humidity, made of the product. -/
def humidity : Int :=
  let v := w - bend c1 w / 2 ^ 4
  let v := if v < 0 then 0 else v
  (if 419430400 < v then 419430400 else v) / 2 ^ 12

variable {c1 c2 v h w} {P : Prop} {fine : Checked 32}

/-- The left factor of the product. -/
theorem exactly_offset {adcH : BitVec 32} (exactly : Exactly fine P v)
    (raw : 0 ≤ adcH.toInt ∧ adcH.toInt < 2 ^ 16) (digH4 : 0 ≤ c2.digH4.toInt) :
    Exactly ((of adcH.toInt <<< 14 - of c2.digH4.toInt <<< 20 - of c2.digH5.toInt * fine + 16384) >>> 15)
      (P ∧ c2.digH4.toInt < 2048 ∧ Fits 32 (c2.digH5.toInt * v) ∧ Fits 32 (offset c2 v adcH.toInt) ∧
        Fits 32 (offset c2 v adcH.toInt + 16384)) ((offset c2 v adcH.toInt + 16384) / 2 ^ 15) := by
  have coefficient (word : BitVec 16) := exactly_signed 32 word (by decide)
  have reading : Exactly (of adcH.toInt <<< 14 : Checked 32) True (adcH.toInt * 2 ^ 14) :=
    ((exactly_signed 32 adcH (by decide)).shl 14).always ⟨trivial, fits_32.mpr (by omega)⟩
  have shifted : Exactly (of c2.digH4.toInt <<< 20 : Checked 32) (c2.digH4.toInt < 2048)
      (c2.digH4.toInt * 2 ^ 20) :=
    ((coefficient c2.digH4).shl 20).congr (by rw [true_and, fits_32]; omega)
  have difference := (reading.sub shifted).congr (Q := c2.digH4.toInt < 2048) (by rw [true_and, fits_32]; omega)
  refine Exactly.shr (((difference.sub ((coefficient c2.digH5).mul exactly)).add
    (exactly_of (x := 16384) (by decide))).congr ?_) 15
  constructor
  · rintro ⟨⟨digH4, ⟨-, holds, digH5⟩, whole⟩, -, rounded⟩
    exact ⟨holds, digH4, digH5, whole, rounded⟩
  · rintro ⟨holds, digH4, digH5, whole, rounded⟩
    exact ⟨⟨digH4, ⟨trivial, holds, digH5⟩, whole⟩, trivial, rounded⟩

/-- The slope of the right one, which is a number raised before it is scaled. -/
theorem exactly_slope (c2 : CalibrationData2) (exactly : Exactly fine P v) (small : P → Within 1256448 v) :
    Exactly (((fine * of c2.digH6.toInt) >>> 10 * ((fine * of c2.digH3.toNat) >>> 11 + 32768)) >>> 10 + 2097152)
      (P ∧ Fits 32 (slope c2 v)) (slope c2 v / 2 ^ 10 + 2097152) := by
  have digH6 : Within 128 c2.digH6.toInt := by
    have low := BitVec.le_toInt c2.digH6
    have high := BitVec.toInt_lt (x := c2.digH6)
    exact ⟨low, by omega⟩
  have digH3 : Within 255 c2.digH3.toNat := by
    have high := c2.digH3.isLt
    exact ⟨by omega, by omega⟩
  have sixth := (exactly.mul (exactly_signed 32 c2.digH6 (by decide))).congr (Q := P) <| and_iff_left_of_imp <| by
    intro holds
    have := (small holds).mul digH6
    unfold Within at this
    exact ⟨trivial, fits_32.mpr (by omega)⟩
  have third := ((exactly.mul (exactly_unsigned 32 c2.digH3 (by decide))).shr 11).add
    (exactly_of (x := 32768) (by decide))
  have gain := third.congr (Q := P) <| by
    constructor
    · exact fun all => all.1.1
    · intro holds
      have := (small holds).mul digH3
      unfold Within at this
      exact ⟨⟨holds, trivial, fits_32.mpr (by omega)⟩, trivial, fits_32.mpr (by omega)⟩
  have slope := (((sixth.shr 10).mul gain).shr 10).congr (Q := P ∧ Fits 32 (slope c2 v))
    ⟨fun all => all.2, fun both => ⟨both.1, both⟩⟩
  apply (slope.add (exactly_of (x := 2097152) (by decide))).congr
  apply and_iff_left_of_imp
  rintro ⟨-, fits⟩
  have fits := fits_32.mp fits
  unfold Humidity.slope at fits
  exact ⟨trivial, fits_32.mpr (by omega)⟩

/-- The right one. -/
theorem exactly_scale (c2 : CalibrationData2) (exactly : Exactly fine P v) (small : P → Within 1256448 v) :
    Exactly (((((fine * of c2.digH6.toInt) >>> 10 * ((fine * of c2.digH3.toNat) >>> 11 + 32768)) >>> 10 + 2097152) *
      of c2.digH2.toInt + 8192) >>> 14)
      (P ∧ Fits 32 (slope c2 v) ∧ Fits 32 (scale c2 v) ∧ Fits 32 (scale c2 v + 8192))
      ((scale c2 v + 8192) / 2 ^ 14) := by
  have raised := exactly_slope c2 exactly small
  refine Exactly.shr (((raised.mul (exactly_signed 32 c2.digH2 (by decide))).add
    (exactly_of (x := 8192) (by decide))).congr ?_) 14
  constructor
  · rintro ⟨⟨⟨holds, slope⟩, -, scale⟩, -, rounded⟩
    exact ⟨holds, slope, scale, rounded⟩
  · rintro ⟨holds, slope, scale, rounded⟩
    exact ⟨⟨⟨holds, slope⟩, trivial, scale⟩, trivial, rounded⟩

/-- What is taken from the product does not make it overflow: its square is small. -/
theorem difference_fits (square : Fits 32 (square w)) (fits : Fits 32 w) (bend : Fits 32 (bend c1 w)) :
    Fits 32 (w - Humidity.bend c1 w / 2 ^ 4) := by
  rw [fits_32] at square fits bend
  have nonneg : 0 ≤ Humidity.square w := mul_self_nonneg _
  have taken : 0 ≤ Humidity.bend c1 w :=
    Int.mul_nonneg (Int.ediv_nonneg nonneg (by decide)) (Int.natCast_nonneg _)
  have whole : Within (46341 * 46341) (w / 2 ^ 15 * (w / 2 ^ 15)) := by
    unfold Humidity.square at square nonneg
    exact ⟨by omega, by omega⟩
  have root := whole.root (by decide)
  unfold Within at root
  exact fits_32.mpr (by omega)

/-- The difference and its limits. -/
theorem exactly_humidity (c1 : CalibrationData1) (exactly : Exactly fine P w) (fits : P → Fits 32 w) :
    Exactly (((fine - ((fine >>> 15 * fine >>> 15) >>> 7 * of c1.digH1.toNat) >>> 4).atLeast 0).atMost
        419430400 >>> 12)
      (P ∧ Fits 32 (square w) ∧ Fits 32 (bend c1 w))
      (humidity c1 w) := by
  have digH1 := exactly_unsigned 32 c1.digH1 (by decide)
  have bent := ((((exactly.shr 15).mul (exactly.shr 15)).shr 7).mul digH1).congr
    (Q := P ∧ Fits 32 (square w) ∧ Fits 32 (bend c1 w)) <| by
      constructor
      · exact fun all => ⟨all.1.1, all.1.2.2, all.2.2⟩
      · exact fun all => ⟨⟨all.1, all.1, all.2.1⟩, trivial, all.2.2⟩
  have difference := (exactly.sub (bent.shr 4)).congr (Q := P ∧ Fits 32 (square w) ∧ Fits 32 (bend c1 w)) <| by
    constructor
    · exact fun all => all.2.1
    · intro all
      exact ⟨all.1, all, difference_fits all.2.1 (fits all.1) all.2.2⟩
  exact ((difference.atLeast 0).atMost 419430400).shr 12

/-- **The humidity** overflows exactly where these numbers do not fit. -/
theorem exactly (c1 : CalibrationData1) {t : Int} (adcH : BitVec 32) (exactly : Exactly fine P t)
    (small : P → Within 1179648 t) (raw : 0 ≤ adcH.toInt ∧ adcH.toInt < 2 ^ 16) (digH4 : 0 ≤ c2.digH4.toInt) :
    Exactly (checkedH c1 c2 fine adcH) (P ∧ InRange c1 c2 (t - 76800) adcH.toInt)
      (humidity c1 (product c2 (t - 76800) adcH.toInt)) := by
  have small' (holds : P) : Within 1256448 (t - 76800) := by
    have := small holds
    unfold Within at *
    omega
  have v := (exactly.sub (exactly_of (x := 76800) (by decide))).congr (Q := P) <| and_iff_left_of_imp <| by
    intro holds
    have := small' holds
    unfold Within at this
    exact ⟨trivial, fits_32.mpr (by omega)⟩
  have product := (exactly_offset v raw digH4).mul (exactly_scale c2 v small')
  apply (exactly_humidity c1 product fun all => all.2.2).congr
  constructor
  · rintro ⟨⟨⟨holds, digH4, digH5, offset, rounded⟩, ⟨-, slope, scale, rounded'⟩, product⟩, square, bend⟩
    exact ⟨holds, digH4, digH5, offset, rounded, slope, scale, rounded', product, square, bend⟩
  · rintro ⟨holds, digH4, digH5, offset, rounded, slope, scale, rounded', product, square, bend⟩
    exact ⟨⟨⟨holds, digH4, digH5, offset, rounded⟩, ⟨holds, slope, scale, rounded'⟩, product⟩, square, bend⟩

end Humidity

/-! ## A reading -/

theorem format20BitData_toInt (msb lsb xlsb : BitVec 8) :
    0 ≤ (format20BitData msb lsb xlsb).toInt ∧ (format20BitData msb lsb xlsb).toInt < 2 ^ 20 := by
  have high : ((BitOps.packU8 msb lsb).setWidth 32 <<< 4).toNat < 2 ^ 20 := by
    have := (BitOps.packU8 msb lsb).isLt
    rw [BitVec.toNat_shiftLeft, BitVec.toNat_setWidth, Nat.shiftLeft_eq]
    omega
  have low : (((xlsb &&& 0xF0) >>> 4).setWidth 32).toNat < 2 ^ 20 := by
    have := ((xlsb &&& 0xF0) >>> 4).isLt
    rw [BitVec.toNat_setWidth]
    omega
  have both : (format20BitData msb lsb xlsb).toNat < 2 ^ 20 := by
    rw [format20BitData, BitVec.toNat_or]
    exact Nat.or_lt_two_pow high low
  rw [BitVec.toInt_eq_toNat_of_lt (by omega)]
  omega

theorem sshiftRight_toInt (word : BitVec 32) (n : Nat) : (word.sshiftRight n).toInt = word.toInt / 2 ^ n := by
  rw [BitVec.toInt_sshiftRight, Int.shiftRight_eq_div_pow]
  norm_cast

theorem packU8_toInt (hi lo : BitVec 8) :
    0 ≤ ((BitOps.packU8 hi lo).setWidth 32).toInt ∧ ((BitOps.packU8 hi lo).setWidth 32).toInt < 2 ^ 16 := by
  have small := (BitOps.packU8 hi lo).isLt
  rw [unsigned_toInt _ (by decide)]
  omega

/-- `t_fine_` is small after a reading, also where the formula wrapped around. -/
theorem compensateT_within (c : CalibrationData1) (adcT : BitVec 32) :
    Within 1179648 (compensateT c adcT).2.toInt := by
  -- two words of 21 and 18 bits
  suffices sum : ∀ x y : BitVec 32, Within 1179648 (x.sshiftRight 11 + y.sshiftRight 14).toInt from sum _ _
  intro x y
  have low := BitVec.le_toInt x
  have high := BitVec.toInt_lt (x := x)
  have low' := BitVec.le_toInt y
  have high' := BitVec.toInt_lt (x := y)
  rw [BitVec.toInt_add, sshiftRight_toInt, sshiftRight_toInt, Fits.bmod (fits_32.mpr (by omega))]
  exact ⟨by omega, by omega⟩

/-- The limits hold for every number, also one that wrapped around. -/
theorem compensateH_le (c1 : CalibrationData1) (c2 : CalibrationData2) (tFine adcH : BitVec 32) :
    (compensateH c1 c2 tFine adcH).toNat ≤ 102400 := by
  suffices limits : ∀ v : BitVec 32,
      ((if (419430400 : BitVec 32).slt (if v.slt 0 then 0 else v) then 419430400
        else if v.slt 0 then 0 else v).sshiftRight 12).toNat ≤ 102400 from limits _
  intro v
  have most : (419430400 : BitVec 32).toInt = 419430400 := by decide
  have least : (0 : BitVec 32).toInt = 0 := by decide
  generalize low : (if v.slt 0 then 0 else v) = w
  have nonneg : 0 ≤ w.toInt := by
    rw [← low]
    split
    · exact Int.le_of_eq least.symm
    · next above => simpa [BitVec.slt_eq_decide, least] using above
  generalize high : (if (419430400 : BitVec 32).slt w then 419430400 else w) = x
  have bounds : 0 ≤ x.toInt ∧ x.toInt ≤ 419430400 := by
    rw [← high]
    split
    · omega
    · next below =>
      rw [BitVec.slt_eq_decide, most, decide_eq_true_eq] at below
      omega
  have quotient := sshiftRight_toInt x 12
  have word := BitVec.toInt_eq_toNat_cond (x.sshiftRight 12)
  have small := (x.sshiftRight 12).isLt
  split at word <;> omega

theorem readCalibration2_digH4 (code : StatusCode) (block : Vector (BitVec 8) 7) :
    0 ≤ (readCalibration2 .zero code block).2.digH4.toInt := by
  unfold readCalibration2 returnOnError
  split
  · show 0 ≤ (joinBits block[3] (block[4] &&& 0x0F)).toInt
    rw [low_nibble, joinBits_toInt]
    omega
  · show 0 ≤ (0 : BitVec 16).toInt
    decide

namespace Sensor

/-- What can overflow in a reading. The pressure is compensated with the `t_fine_` of an earlier one. -/
structure InRange (s : Sensor) (registers : RegisterData) : Prop where
  temperature : Temperature.InRange s.calibration1 (temperatureRaw registers).toInt
  pressure : Pressure.InRange s.calibration1 (s.tFine.toInt - 128000) (pressureRaw registers).toInt
  humidity : Humidity.InRange s.calibration1 s.calibration2
    (Temperature.tFine s.calibration1 (temperatureRaw registers).toInt - 76800) (humidityRaw registers).toInt

theorem after_within (c1 : CalibrationData1) (c2 : CalibrationData2) (history : List Received) :
    Within 1179648 (after c1 c2 history).tFine.toInt := by
  induction history using List.reverseRecOn with
  | nil =>
    show Within 1179648 (0 : BitVec 32).toInt
    exact ⟨by decide, by decide⟩
  | append_singleton history r ih =>
    rw [after_append, readData_tFine]
    split
    · exact compensateT_within _ _
    · exact ih

/-- A reading after any `t_fine_` that an earlier one can leave. -/
theorem checkedReadData_cases {s : Sensor} (registers : RegisterData) (fine : Within 1179648 s.tFine.toInt)
    (digH4 : 0 ≤ s.calibration2.digH4.toInt) :
    (s.InRange registers → s.checkedReadData registers = .ok (s.published registers)) ∧
      (¬ s.InRange registers → s.checkedReadData registers = .error .overflow) := by
  obtain ⟨temperature, tFine⟩ := Temperature.exactly s.calibration1 (temperatureRaw registers)
    (format20BitData_toInt _ _ _)
  have pressure := Pressure.exactly s.calibration1 (pressureRaw registers) fine
    (format20BitData_toInt _ _ _)
  have humidity := Humidity.exactly s.calibration1 (humidityRaw registers) tFine
    Temperature.InRange.within (packU8_toInt _ _) digH4
  constructor
  · intro inRange
    have both := And.intro inRange.temperature inRange.humidity
    have result : ∃ data, s.checkedReadData registers = .ok data :=
      ⟨_, (pressure.bind_value inRange.pressure _).trans
        ((temperature.bind_value inRange.temperature _).trans (humidity.bind_value both _))⟩
    obtain ⟨data, result⟩ := result
    rw [result, checkedReadData_published result]
  · intro outside
    by_cases first : Pressure.InRange s.calibration1 (s.tFine.toInt - 128000) (pressureRaw registers).toInt
    · apply (pressure.bind_value first _).trans
      by_cases second : Temperature.InRange s.calibration1 (temperatureRaw registers).toInt
      · apply (temperature.bind_value second _).trans
        exact humidity.bind_fault (fun third => outside ⟨second, first, third.2⟩) _
      · exact temperature.bind_fault second _
    · exact pressure.bind_fault first _

/-- **The arithmetic of a reading**, with any calibration received, after any readings: nothing is
divided by zero, the humidity is at most 100 %, and there is an overflow exactly where `InRange`
says. -/
theorem arithmetic_in_range (code1 code2 : StatusCode) (block1 : Vector (BitVec 8) 26)
    (block2 : Vector (BitVec 8) 7) (history : List Received) (registers : RegisterData) :
    let s := after (readCalibration1 .zero code1 block1).2 (readCalibration2 .zero code2 block2).2 history
    s.checkedReadData registers ≠ .error .divisionByZero ∧
      (s.checkedReadData registers ≠ .error .overflow ↔ s.InRange registers) ∧
      (s.published registers).humidity.toNat ≤ 102400 := by
  intro s
  obtain ⟨_, calibration2⟩ := after_calibration (readCalibration1 .zero code1 block1).2
    (readCalibration2 .zero code2 block2).2 history
  have digH4 : 0 ≤ s.calibration2.digH4.toInt := calibration2 ▸ readCalibration2_digH4 code2 block2
  obtain ⟨ok, overflow⟩ := checkedReadData_cases registers (after_within _ _ history) digH4
  refine ⟨?_, ?_, compensateH_le _ _ _ _⟩
  · by_cases inRange : s.InRange registers
    · rw [ok inRange]
      nofun
    · rw [overflow inRange]
      nofun
  · constructor
    · intro no_overflow
      by_contra outside
      exact no_overflow (overflow outside)
    · intro inRange
      rw [ok inRange]
      nofun

/-- The numbers of the sample fit. -/
example : (after sample sample' [⟨.ok, sampleRegisters⟩]).checkedReadData sampleRegisters =
    .ok ⟨25767233, 2508, 57046⟩ := rfl

/-- A block with a steep slope of the temperature. -/
def steep : Vector (BitVec 8) 26 := ((Vector.replicate 26 0).set 2 0xFF).set 3 0x7F

/-- With the registers of a disconnected bus it overflows. -/
theorem overflows : (after (readCalibration1 .zero .ok steep).2 (readCalibration2 .zero .ok (.replicate 7 0)).2
    []).checkedReadData ⟨0xFF, 0xFF, 0xFF, 0xFF, 0xFF, 0xFF, 0xFF, 0xFF⟩ = .error .overflow := rfl

end Sensor

end OcsComponents.Sensor.Bme280
