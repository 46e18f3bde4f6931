import OcsComponents.Algo.BitOps
import OcsComponents.Status.Code
import Mathlib.Algebra.Group.Nat.Defs
import Mathlib.Algebra.Ring.Int.Defs
import Mathlib.Data.List.Induction

/-!
# The BME280 sensor

`ocs_sensor/bme280/sensor.cpp`: the compensation formulas in the machine's own words, which
wrap around, and `read_data_`. What is published stops at the integers; the `double`s are
functions of these.

The formulas for pressure and humidity use `t_fine_`, which the one for temperature computes.
`read_data_` compensates the pressure first, with the `t_fine_` of an earlier reading.
-/

set_option linter.dupNamespace false

namespace OcsComponents.Sensor.Bme280
open Status Algo

/-- `RegisterData`. -/
structure RegisterData where
  pressMsb : BitVec 8
  pressLsb : BitVec 8
  pressXlsb : BitVec 8
  tempMsb : BitVec 8
  tempLsb : BitVec 8
  tempXlsb : BitVec 8
  humMsb : BitVec 8
  humLsb : BitVec 8

/-- `CalibrationData1`: `digT1`, `digP1` and `digH1` are unsigned. -/
structure CalibrationData1 where
  digT1 : BitVec 16
  digT2 : BitVec 16
  digT3 : BitVec 16
  digP1 : BitVec 16
  digP2 : BitVec 16
  digP3 : BitVec 16
  digP4 : BitVec 16
  digP5 : BitVec 16
  digP6 : BitVec 16
  digP7 : BitVec 16
  digP8 : BitVec 16
  digP9 : BitVec 16
  digH1 : BitVec 8

/-- `CalibrationData2`: `digH3` is unsigned. -/
structure CalibrationData2 where
  digH2 : BitVec 16
  digH3 : BitVec 8
  digH4 : BitVec 16
  digH5 : BitVec 16
  digH6 : BitVec 8

/-- `format_20bit_data`. -/
def format20BitData (msb lsb xlsb : BitVec 8) : BitVec 32 :=
  let highBits := BitOps.packU8 msb lsb
  let lowBits := (xlsb &&& 0xF0) >>> 4
  highBits.setWidth 32 <<< 4 ||| lowBits.setWidth 32

/-- `BME280_compensate_T_int32_`: the temperature, and `t_fine_`. -/
def compensateT (c : CalibrationData1) (adcT : BitVec 32) : BitVec 32 × BitVec 32 :=
  let digT1 := c.digT1.setWidth 32
  let var1 := ((adcT.sshiftRight 3 - digT1 <<< 1) * c.digT2.signExtend 32).sshiftRight 11
  let var2 := ((((adcT.sshiftRight 4 - digT1) * (adcT.sshiftRight 4 - digT1)).sshiftRight 12) *
    c.digT3.signExtend 32).sshiftRight 14
  let tFine := var1 + var2
  ((tFine * 5 + 128).sshiftRight 8, tFine)

/-- `BME280_compensate_P_int64_`. -/
def compensateP (c : CalibrationData1) (tFine adcP : BitVec 32) : BitVec 32 :=
  let var1 : BitVec 64 := tFine.signExtend 64 - 128000
  let var2 := var1 * var1 * c.digP6.signExtend 64
  let var2 := var2 + (var1 * c.digP5.signExtend 64) <<< 17
  let var2 := var2 + (c.digP4.signExtend 64) <<< 35
  let var1 := (var1 * var1 * c.digP3.signExtend 64).sshiftRight 8 + (var1 * c.digP2.signExtend 64) <<< 12
  let var1 := (((1 : BitVec 64) <<< 47 + var1) * c.digP1.setWidth 64).sshiftRight 33
  if var1 = 0 then 0
  else
    let p := (1048576 - adcP).signExtend 64
    let p := ((p <<< 31 - var2) * 3125).sdiv var1
    let var1 := (c.digP9.signExtend 64 * p.sshiftRight 13 * p.sshiftRight 13).sshiftRight 25
    let var2 := (c.digP8.signExtend 64 * p).sshiftRight 19
    let p := (p + var1 + var2).sshiftRight 8 + (c.digP7.signExtend 64) <<< 4
    p.setWidth 32

/-- `BME280_compensate_H_int32_`. -/
def compensateH (c1 : CalibrationData1) (c2 : CalibrationData2) (tFine adcH : BitVec 32) : BitVec 32 :=
  let v := tFine - 76800
  let v := ((adcH <<< 14 - c2.digH4.signExtend 32 <<< 20 - c2.digH5.signExtend 32 * v + 16384).sshiftRight 15) *
    (((((v * c2.digH6.signExtend 32).sshiftRight 10 *
      ((v * c2.digH3.setWidth 32).sshiftRight 11 + 32768)).sshiftRight 10 + 2097152) *
        c2.digH2.signExtend 32 + 8192).sshiftRight 14)
  let v := v - (((v.sshiftRight 15 * v.sshiftRight 15).sshiftRight 7) * c1.digH1.setWidth 32).sshiftRight 4
  let v := if v.slt 0 then 0 else v
  let v := if (419430400 : BitVec 32).slt v then 419430400 else v
  v.sshiftRight 12

/-- The integers of a `Sensor::Data`. -/
structure Data where
  pressure : BitVec 32 := 0
  temperature : BitVec 32 := 0
  humidity : BitVec 32 := 0
  deriving DecidableEq, Repr

structure Sensor where
  calibration1 : CalibrationData1
  calibration2 : CalibrationData2
  tFine : BitVec 32
  data : Data

/-- What `receive` of the data registers returns, and the registers after it. -/
structure Received where
  code : StatusCode
  registers : RegisterData

namespace Sensor

/-- A sensor with its calibration, before its first reading. -/
def new (c1 : CalibrationData1) (c2 : CalibrationData2) : Sensor := ⟨c1, c2, 0, {}⟩

/-- `read_data_`. -/
def readData (s : Sensor) (r : Received) : StatusCode × Sensor :=
  returnOnError (r.code, s) fun s =>
    let pressureRaw := format20BitData r.registers.pressMsb r.registers.pressLsb r.registers.pressXlsb
    let temperatureRaw := format20BitData r.registers.tempMsb r.registers.tempLsb r.registers.tempXlsb
    let humidityRaw := (BitOps.packU8 r.registers.humMsb r.registers.humLsb).setWidth 32
    let pressure := compensateP s.calibration1 s.tFine pressureRaw
    let (temperature, tFine) := compensateT s.calibration1 temperatureRaw
    let humidity := compensateH s.calibration1 s.calibration2 tFine humidityRaw
    (.ok, { s with tFine := tFine, data := ⟨pressure, temperature, humidity⟩ })

/-- The sensor after earlier readings. -/
def after (c1 : CalibrationData1) (c2 : CalibrationData2) (history : List Received) : Sensor :=
  history.foldl (fun s r => (s.readData r).2) (new c1 c2)

/-- What a successful reading of the registers publishes. -/
def published (s : Sensor) (registers : RegisterData) : Data := (s.readData ⟨.ok, registers⟩).2.data

/-- The registers of a temperature. -/
def temperatureRaw (registers : RegisterData) : BitVec 32 :=
  format20BitData registers.tempMsb registers.tempLsb registers.tempXlsb

/-- Calibrations with the same coefficients for the temperature. -/
def SameTemperature (c c' : CalibrationData1) : Prop :=
  c.digT1 = c'.digT1 ∧ c.digT2 = c'.digT2 ∧ c.digT3 = c'.digT3

theorem compensateT_same {c c' : CalibrationData1} (same : SameTemperature c c') (adcT : BitVec 32) :
    compensateT c adcT = compensateT c' adcT := by
  obtain ⟨t1, t2, t3⟩ := same
  simp only [compensateT, t1, t2, t3]

@[simp] theorem readData_calibration (s : Sensor) (r : Received) :
    (s.readData r).2.calibration1 = s.calibration1 ∧ (s.readData r).2.calibration2 = s.calibration2 := by
  unfold readData returnOnError
  split <;> exact ⟨rfl, rfl⟩

/-- A reading replaces `t_fine_`, whatever it was, or leaves it. -/
theorem readData_tFine (s : Sensor) (r : Received) : (s.readData r).2.tFine =
    if r.code = .ok then (compensateT s.calibration1 (temperatureRaw r.registers)).2 else s.tFine := by
  unfold readData returnOnError
  split <;> rfl

theorem after_append (c1 : CalibrationData1) (c2 : CalibrationData2) (history : List Received) (r : Received) :
    after c1 c2 (history ++ [r]) = ((after c1 c2 history).readData r).2 := by
  simp [after]

theorem after_calibration (c1 : CalibrationData1) (c2 : CalibrationData2) (history : List Received) :
    (after c1 c2 history).calibration1 = c1 ∧ (after c1 c2 history).calibration2 = c2 := by
  induction history using List.reverseRecOn with
  | nil => exact ⟨rfl, rfl⟩
  | append_singleton history r ih =>
    rw [after_append, (readData_calibration _ r).1, (readData_calibration _ r).2]
    exact ih

/-- What a history leaves in `t_fine_` is a matter of the temperature's coefficients. -/
theorem after_tFine_same {c c' : CalibrationData1} (same : SameTemperature c c') (c2 c2' : CalibrationData2)
    (history : List Received) : (after c c2 history).tFine = (after c' c2' history).tFine := by
  induction history using List.reverseRecOn with
  | nil => rfl
  | append_singleton history r ih =>
    rw [after_append, after_append, readData_tFine, readData_tFine, ih, (after_calibration c c2 history).1,
      (after_calibration c' c2' history).1, compensateT_same same]

/-- What a successful reading publishes: only the pressure depends on an earlier reading. -/
theorem published_after (c1 : CalibrationData1) (c2 : CalibrationData2) (history : List Received)
    (registers : RegisterData) : published (after c1 c2 history) registers =
      ⟨compensateP c1 (after c1 c2 history).tFine
          (format20BitData registers.pressMsb registers.pressLsb registers.pressXlsb),
        (compensateT c1 (temperatureRaw registers)).1,
        compensateH c1 c2 (compensateT c1 (temperatureRaw registers)).2
          ((BitOps.packU8 registers.humMsb registers.humLsb).setWidth 32)⟩ := by
  obtain ⟨calibration1, calibration2⟩ := after_calibration c1 c2 history
  simp only [published, readData, returnOnError_ok, calibration1, calibration2, temperatureRaw]

/-! ## A pressure that shows `t_fine_` -/

/-- Coefficients with which the pressure is proportional to what is left of `t_fine_`. -/
def probe (c : CalibrationData1) (digP1 : BitVec 16) : CalibrationData1 :=
  { c with
    digP1 := digP1, digP2 := 0, digP3 := 0, digP4 := 0, digP5 := 1, digP6 := 0, digP7 := 0, digP8 := 0, digP9 := 0 }

/-- A number in the range of `int64_t`. -/
theorem bmod_64 {n : Int} (low : -2 ^ 63 ≤ n) (high : n < 2 ^ 63) : n.bmod (2 ^ 64) = n := by
  apply Int.bmod_eq_of_le <;> omega

theorem compensateP_probe_eq (c : CalibrationData1) {digP1 : BitVec 16} (tFine : BitVec 32)
    (divisor : ((1 : BitVec 64) <<< 47 * digP1.setWidth 64).sshiftRight 33 ≠ 0) :
    compensateP (probe c digP1) tFine 0 = (((((1048576 : BitVec 64) <<< 31 -
      (tFine.signExtend 64 - 128000) <<< 17) * 3125).sdiv
        (((1 : BitVec 64) <<< 47 * digP1.setWidth 64).sshiftRight 33)).sshiftRight 8).setWidth 32 := by
  have nonzero : (140737488355328#64 * digP1.setWidth 64).sshiftRight 33 ≠ 0#64 := by simpa using divisor
  simp [compensateP, probe, nonzero]

/-- Its divisor. -/
theorem probe_divisor {digP1 : BitVec 16} (high : digP1.toNat < 256) :
    (((1 : BitVec 64) <<< 47 * digP1.setWidth 64).sshiftRight 33).toInt = digP1.toNat * 2 ^ 14 := by
  have word : (digP1.setWidth 64).toInt = digP1.toNat := by
    rw [BitVec.toInt_setWidth]
    exact bmod_64 (by omega) (by omega)
  rw [BitVec.toInt_sshiftRight, BitVec.toInt_mul, word, show ((1 : BitVec 64) <<< 47).toInt = 2 ^ 47 by decide,
    bmod_64 (by omega) (by omega), Int.shiftRight_eq_div_pow]
  omega

/-- Its dividend. -/
theorem probe_dividend (tFine : BitVec 32) :
    (((1048576 : BitVec 64) <<< 31 - (tFine.signExtend 64 - 128000) <<< 17) * 3125).toInt =
      (25000 * (2 ^ 34 + 128000 - tFine.toInt)) * 2 ^ 14 := by
  have least := BitVec.le_toInt tFine
  have most := BitVec.toInt_lt (x := tFine)
  have var1 : ((tFine.signExtend 64 - 128000 : BitVec 64)).toInt = tFine.toInt - 128000 := by
    rw [BitVec.toInt_sub, BitVec.toInt_signExtend_of_le (by decide)]
    exact bmod_64 (by simp; omega) (by simp; omega)
  have var2 : ((tFine.signExtend 64 - 128000 : BitVec 64) <<< 17).toInt = (tFine.toInt - 128000) * 2 ^ 17 := by
    rw [BitVec.shiftLeft_eq_mul_twoPow, BitVec.toInt_mul, var1, show (BitVec.twoPow 64 17).toInt = 2 ^ 17 by decide]
    exact bmod_64 (by omega) (by omega)
  have difference : ((1048576 : BitVec 64) <<< 31 - (tFine.signExtend 64 - 128000) <<< 17).toInt =
      (2 ^ 34 + 128000 - tFine.toInt) * 2 ^ 17 := by
    rw [BitVec.toInt_sub, var2, show ((1048576 : BitVec 64) <<< 31).toInt = 2 ^ 51 by decide,
      bmod_64 (by omega) (by omega)]
    omega
  rw [BitVec.toInt_mul, difference, show (3125 : BitVec 64).toInt = 3125 by decide, bmod_64 (by omega) (by omega)]
  omega

/-- A quotient of positive numbers, in units of 256. -/
theorem sdiv_sshiftRight {a b : BitVec 64} {n d k : Int} (dividend : a.toInt = n * k) (divisor : b.toInt = d * k)
    (scale : 0 < k) (positive : 0 ≤ n) (small : n < 2 ^ 63) (nonneg : 0 ≤ d) :
    (((a.sdiv b).sshiftRight 8).toNat : Int) = n / d / 256 := by
  have low := Int.ediv_nonneg positive nonneg
  have high := Int.ediv_le_self d positive
  have quotient : (a.sdiv b).toInt = n / d := by
    have whole : a.toInt.tdiv b.toInt = n / d := by
      rw [dividend, divisor, Int.tdiv_eq_ediv_of_nonneg (Int.mul_nonneg positive (Int.le_of_lt scale)),
        Int.mul_ediv_mul_of_pos_left _ _ scale]
    rw [BitVec.toInt_sdiv, whole]
    exact bmod_64 (by omega) (by omega)
  have shifted : ((a.sdiv b).sshiftRight 8).toInt = n / d / 256 := by
    rw [BitVec.toInt_sshiftRight, quotient, Int.shiftRight_eq_div_pow]
    rfl
  rw [← shifted]
  rw [BitVec.toInt_eq_toNat_cond] at shifted ⊢
  split at shifted
  · rw [if_pos ‹_›]
  · have := ((a.sdiv b).sshiftRight 8).isLt
    omega

theorem compensateP_probe (c : CalibrationData1) {digP1 : BitVec 16} (tFine : BitVec 32) (low : 64 ≤ digP1.toNat)
    (high : digP1.toNat < 256) : ((compensateP (probe c digP1) tFine 0).toNat : Int) =
      (25000 * (2 ^ 34 + 128000 - tFine.toInt) / digP1.toNat / 256) % 2 ^ 32 := by
  have least := BitVec.le_toInt tFine
  have most := BitVec.toInt_lt (x := tFine)
  have divisor := probe_divisor high
  have nonzero : ((1 : BitVec 64) <<< 47 * digP1.setWidth 64).sshiftRight 33 ≠ 0 := by
    intro zero
    rw [zero, show (0 : BitVec 64).toInt = 0 by decide] at divisor
    omega
  rw [compensateP_probe_eq c tFine nonzero, BitVec.toNat_setWidth, Int.natCast_emod,
    sdiv_sshiftRight (probe_dividend tFine) divisor (by decide) (by omega) (by omega) (by omega)]
  rfl

/-- Quotients of numbers that are at least a divisor apart, and not too far, differ in a word. -/
theorem ediv_emod_ne {a b n m : Int} (positive : 0 < n) (least : n ≤ b - a) (most : b - a ≤ n * (m - 1)) :
    a / n % m ≠ b / n % m := by
  intro same
  have above : a / n + 1 ≤ b / n := by
    rw [← Int.add_mul_ediv_left a 1 (Int.ne_of_gt positive), Int.mul_one]
    exact Int.ediv_le_ediv positive (by omega)
  have below : b / n ≤ a / n + (m - 1) := by
    rw [← Int.add_mul_ediv_left a (m - 1) (Int.ne_of_gt positive)]
    exact Int.ediv_le_ediv positive (by omega)
  have divides : m ∣ b / n - a / n := Int.dvd_of_emod_eq_zero (Int.emod_eq_emod_iff_emod_sub_eq_zero.mp same.symm)
  have := Int.le_of_dvd (by omega) divides
  omega

/-- Two values of `t_fine_` are told apart by some pressure coefficient. -/
theorem exists_probe (c : CalibrationData1) {tFine tFine' : BitVec 32} (less : tFine.toInt < tFine'.toInt) :
    ∃ digP1, compensateP (probe c digP1) tFine 0 ≠ compensateP (probe c digP1) tFine' 0 := by
  have least := BitVec.le_toInt tFine
  have most := BitVec.toInt_lt (x := tFine')
  -- the quotients of the two pressures differ
  have told : ∀ digP1 : BitVec 16, 64 ≤ digP1.toNat → digP1.toNat < 256 →
      (digP1.toNat * 256 : Int) ≤ 25000 * (tFine'.toInt - tFine.toInt) →
      25000 * (tFine'.toInt - tFine.toInt) ≤ (digP1.toNat * 256) * (2 ^ 32 - 1) →
      compensateP (probe c digP1) tFine 0 ≠ compensateP (probe c digP1) tFine' 0 := by
    intro digP1 low high above below same
    have shown := compensateP_probe c tFine low high
    have shown' := compensateP_probe c tFine' low high
    rw [Int.ediv_ediv_of_nonneg (Int.natCast_nonneg _)] at shown shown'
    rw [same, shown'] at shown
    exact ediv_emod_ne (by omega) (by omega) (by omega) shown
  by_cases near : tFine'.toInt - tFine.toInt < 2 ^ 31
  · -- more than one unit for each unit of `t_fine_`
    have word : (97 : BitVec 16).toNat = 97 := by decide
    exact ⟨97, told 97 (by decide) (by decide) (by rw [word]; omega) (by rw [word]; omega)⟩
  · -- less than one, so that the difference does not wrap around
    have word : (200 : BitVec 16).toNat = 200 := by decide
    exact ⟨200, told 200 (by decide) (by decide) (by rw [word]; omega) (by rw [word]; omega)⟩

/-- **The next reading depends only on the registers exactly when the histories leave the same
`t_fine_`.** -/
theorem published_same_iff (c1 : CalibrationData1) (c2 : CalibrationData2) (history history' : List Received) :
    (∀ d1 d2, SameTemperature d1 c1 → ∀ registers,
      published (after d1 d2 history) registers = published (after d1 d2 history') registers) ↔
    (after c1 c2 history).tFine = (after c1 c2 history').tFine := by
  constructor
  · intro same
    by_contra apart
    have told : ∃ digP1, compensateP (probe c1 digP1) (after c1 c2 history).tFine 0 ≠
        compensateP (probe c1 digP1) (after c1 c2 history').tFine 0 := by
      rcases Int.lt_or_gt_of_ne (mt BitVec.toInt_inj.mp apart) with less | greater
      · exact exists_probe c1 less
      · obtain ⟨digP1, differ⟩ := exists_probe c1 greater
        exact ⟨digP1, differ.symm⟩
    obtain ⟨digP1, differ⟩ := told
    have coefficients : SameTemperature (probe c1 digP1) c1 := ⟨rfl, rfl, rfl⟩
    have equal := same (probe c1 digP1) c2 coefficients ⟨0, 0, 0, 0, 0, 0, 0, 0⟩
    rw [published_after, published_after, after_tFine_same coefficients c2 c2, after_tFine_same coefficients c2 c2,
      Data.mk.injEq] at equal
    exact differ equal.1
  · intro same d1 d2 coefficients registers
    rw [published_after, published_after, after_tFine_same coefficients d2 c2, after_tFine_same coefficients d2 c2, same]

/-- A calibration, and registers of 25.08 °C. -/
def sample : CalibrationData1 :=
  ⟨27504, 26435, -1000, 36477, -10685, 3024, 2855, 140, -7, 15500, -14600, 6000, 75⟩

def sample' : CalibrationData2 := ⟨362, 0, 311, 50, 30⟩

def sampleRegisters : RegisterData := ⟨0x65, 0x5A, 0xC0, 0x7E, 0xED, 0x00, 0x75, 0x30⟩

/-- With the `t_fine_` of the same registers, their pressure is published. -/
example : (published (after sample sample' [⟨.ok, sampleRegisters⟩]) sampleRegisters).pressure = 25767233 := by
  decide +kernel

/-- The first reading publishes another pressure than the second one. -/
theorem published_differs : ¬ ∀ c1 c2 history history' registers,
    published (after c1 c2 history) registers = published (after c1 c2 history') registers := by
  intro same
  exact absurd (same sample sample' [] [⟨.ok, sampleRegisters⟩] sampleRegisters) (by decide +kernel)

end Sensor

end OcsComponents.Sensor.Bme280
