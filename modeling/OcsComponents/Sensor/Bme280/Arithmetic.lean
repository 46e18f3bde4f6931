import OcsComponents.Lib.Checked
import OcsComponents.Sensor.Bme280.Calibration

/-!
# The arithmetic of the BME280

The compensation formulas in signed integers that may overflow, and the `read_data_` made of them.
Where there is no overflow, the formulas in words give the same results.
-/

set_option linter.dupNamespace false

namespace OcsComponents.Sensor.Bme280
open Status Algo Checked

/-- `BME280_compensate_T_int32_`: the temperature, and `t_fine_`. -/
def checkedT (c : CalibrationData1) (adcT : BitVec 32) : Checked 32 × Checked 32 :=
  let adcT : Checked 32 := of adcT.toInt
  let digT1 : Checked 32 := of c.digT1.toNat
  let var1 := ((adcT >>> 3 - digT1 <<< 1) * of c.digT2.toInt) >>> 11
  let var2 := ((((adcT >>> 4 - digT1) * (adcT >>> 4 - digT1)) >>> 12) * of c.digT3.toInt) >>> 14
  let tFine := var1 + var2
  ((tFine * 5 + 128) >>> 8, tFine)

/-- `BME280_compensate_P_int64_`, before its result is made unsigned. -/
def checkedP (c : CalibrationData1) (tFine adcP : BitVec 32) : Checked 64 :=
  let var1 : Checked 64 := widen (of tFine.toInt : Checked 32) - 128000
  let var2 := var1 * var1 * of c.digP6.toInt
  let var2 := var2 + (var1 * of c.digP5.toInt) <<< 17
  let var2 := var2 + (of c.digP4.toInt) <<< 35
  let var1 := (var1 * var1 * of c.digP3.toInt) >>> 8 + (var1 * of c.digP2.toInt) <<< 12
  let var1 := (((1 : Checked 64) <<< 47 + var1) * of c.digP1.toNat) >>> 33
  var2.before (var1.unlessZero (
    let p : Checked 64 := widen (1048576 - of adcP.toInt : Checked 32)
    let p := ((p <<< 31 - var2) * 3125) / var1
    let var1 := (of c.digP9.toInt * p >>> 13 * p >>> 13) >>> 25
    let var2 := (of c.digP8.toInt * p) >>> 19
    (p + var1 + var2) >>> 8 + (of c.digP7.toInt) <<< 4))

/-- `BME280_compensate_H_int32_`. -/
def checkedH (c1 : CalibrationData1) (c2 : CalibrationData2) (tFine : Checked 32) (adcH : BitVec 32) : Checked 32 :=
  let v := tFine - 76800
  let v := ((of adcH.toInt <<< 14 - of c2.digH4.toInt <<< 20 - of c2.digH5.toInt * v + 16384) >>> 15) *
    ((((v * of c2.digH6.toInt) >>> 10 * ((v * of c2.digH3.toNat) >>> 11 + 32768)) >>> 10 + 2097152) *
      of c2.digH2.toInt + 8192) >>> 14
  let v := v - ((v >>> 15 * v >>> 15) >>> 7 * of c1.digH1.toNat) >>> 4
  (v.atLeast 0).atMost 419430400 >>> 12

theorem unsigned_toInt {n w : Nat} (word : BitVec n) (wider : n < w) : (word.setWidth w).toInt = word.toNat := by
  have power : 2 ^ n < 2 ^ w := Nat.pow_lt_pow_right (by decide) wider
  have double : 2 * 2 ^ n ≤ 2 ^ w := by
    rw [← Nat.pow_succ']
    exact Nat.pow_le_pow_right (by decide) wider
  have small := word.isLt
  rw [BitVec.toInt_eq_toNat_of_lt, BitVec.toNat_setWidth, Nat.mod_eq_of_lt (by omega)]
  rw [BitVec.toNat_setWidth, Nat.mod_eq_of_lt (by omega)]
  omega

theorem setWidth_eq_ofInt {w w' : Nat} (word : BitVec w) (narrower : w' ≤ w) :
    word.setWidth w' = .ofInt w' word.toInt := by
  apply BitVec.eq_of_toInt_eq
  rw [BitVec.toInt_setWidth, BitVec.toInt_ofInt, BitVec.toInt_eq_toNat_bmod,
    Int.bmod_bmod_of_dvd (Nat.pow_dvd_pow 2 narrower)]

theorem agrees_unsigned {n : Nat} (w : Nat) (word : BitVec n) (wider : n < w) :
    Agrees (of word.toNat : Checked w) (word.setWidth w) :=
  agrees_of_eq (unsigned_toInt word wider)

theorem agrees_signed {n : Nat} (w : Nat) (word : BitVec n) (wider : n ≤ w) :
    Agrees (of word.toInt : Checked w) (word.signExtend w) :=
  agrees_of_eq (BitVec.toInt_signExtend_of_le wider)

section
variable (c : CalibrationData1) (c2 : CalibrationData2) (tFine adc : BitVec 32)

theorem checkedT_agrees : Agrees (checkedT c adc).1 (compensateT c adc).1 ∧
    Agrees (checkedT c adc).2 (compensateT c adc).2 := by
  have raw := agrees_of adc
  have digT1 := agrees_unsigned 32 c.digT1 (by decide)
  have digT2 := agrees_signed 32 c.digT2 (by decide)
  have digT3 := agrees_signed 32 c.digT3 (by decide)
  have var1 := (((raw.sshiftRight 3).sub (digT1.shiftLeft 1 (by decide))).mul digT2).sshiftRight 11
  have offset := (raw.sshiftRight 4).sub digT1
  have var2 := (((offset.mul offset).sshiftRight 12).mul digT3).sshiftRight 14
  have fine := var1.add var2
  exact ⟨((fine.mul (agrees_ofNat 5)).add (agrees_ofNat 128)).sshiftRight 8, fine⟩

/-- The result is cast to `uint32_t`. -/
theorem checkedP_agrees {p : Int} (result : (checkedP c tFine adc).value = .ok p) :
    compensateP c tFine adc = .ofInt 32 p := by
  have coefficient (word : BitVec 16) := agrees_signed 64 word (by decide)
  have digP1 := agrees_unsigned 64 c.digP1 (by decide)
  have var1 := ((agrees_of tFine).widen 64 (by decide)).sub (agrees_ofNat 128000)
  have var2 := (((var1.mul var1).mul (coefficient c.digP6)).add
    ((var1.mul (coefficient c.digP5)).shiftLeft 17 (by decide))).add ((coefficient c.digP4).shiftLeft 35 (by decide))
  have scale := (((var1.mul var1).mul (coefficient c.digP3)).sshiftRight 8).add
    ((var1.mul (coefficient c.digP2)).shiftLeft 12 (by decide))
  have divisor := ((((agrees_ofNat 1).shiftLeft 47 (by decide)).add scale).mul digP1).sshiftRight 33
  have raw := ((agrees_ofNat 1048576).sub (agrees_of adc)).widen 64 (by decide)
  have p := (((raw.shiftLeft 31 (by decide)).sub var2).mul (agrees_ofNat 3125)).sdiv divisor
  have square := (((coefficient c.digP9).mul (p.sshiftRight 13)).mul (p.sshiftRight 13)).sshiftRight 25
  have linear := ((coefficient c.digP8).mul p).sshiftRight 19
  have sum := (((p.add square).add linear).sshiftRight 8).add ((coefficient c.digP7).shiftLeft 4 (by decide))
  have word := (divisor.unlessZero sum).before _ result
  rw [← word, ← setWidth_eq_ofInt _ (by decide)]
  simp only [compensateP]
  split <;> rfl

theorem checkedH_agrees {fine : Checked 32} (agrees : Agrees fine tFine) :
    Agrees (checkedH c c2 fine adc) (compensateH c c2 tFine adc) := by
  have raw := agrees_of adc
  have digH1 := agrees_unsigned 32 c.digH1 (by decide)
  have digH2 := agrees_signed 32 c2.digH2 (by decide)
  have digH3 := agrees_unsigned 32 c2.digH3 (by decide)
  have digH4 := agrees_signed 32 c2.digH4 (by decide)
  have digH5 := agrees_signed 32 c2.digH5 (by decide)
  have digH6 := agrees_signed 32 c2.digH6 (by decide)
  have v := agrees.sub (agrees_ofNat 76800)
  have offset := ((((raw.shiftLeft 14 (by decide)).sub (digH4.shiftLeft 20 (by decide))).sub
    (digH5.mul v)).add (agrees_ofNat 16384)).sshiftRight 15
  have gain := ((v.mul digH3).sshiftRight 11).add (agrees_ofNat 32768)
  have slope := ((((v.mul digH6).sshiftRight 10).mul gain).sshiftRight 10).add (agrees_ofNat 2097152)
  have scale := ((slope.mul digH2).add (agrees_ofNat 8192)).sshiftRight 14
  have w := offset.mul scale
  have bend := ((((w.sshiftRight 15).mul (w.sshiftRight 15)).sshiftRight 7).mul digH1).sshiftRight 4
  exact (((w.sub bend).atLeast 0).atMost 419430400).sshiftRight 12

end

/-! ## A reading -/

def pressureRaw (registers : RegisterData) : BitVec 32 :=
  format20BitData registers.pressMsb registers.pressLsb registers.pressXlsb

def humidityRaw (registers : RegisterData) : BitVec 32 :=
  (BitOps.packU8 registers.humMsb registers.humLsb).setWidth 32

namespace Sensor

/-- `read_data_`, past the receive. -/
def checkedReadData (s : Sensor) (registers : RegisterData) : Except Fault Data := do
  let (temperature, tFine) := checkedT s.calibration1 (temperatureRaw registers)
  let pressure ← (checkedP s.calibration1 s.tFine (pressureRaw registers)).value
  let temperature ← temperature.value
  let humidity ← (checkedH s.calibration1 s.calibration2 tFine (humidityRaw registers)).value
  return ⟨.ofInt 32 pressure, .ofInt 32 temperature, .ofInt 32 humidity⟩

/-- Without overflow this is what is published. -/
theorem checkedReadData_published {s : Sensor} {registers : RegisterData} {data : Data}
    (result : s.checkedReadData registers = .ok data) : s.published registers = data := by
  obtain ⟨p, pressure, result⟩ := bind_eq_ok.mp result
  obtain ⟨t, temperature, result⟩ := bind_eq_ok.mp result
  obtain ⟨h, humidity, result⟩ := bind_eq_ok.mp result
  cases result
  obtain ⟨agrees, fine⟩ := checkedT_agrees s.calibration1 (temperatureRaw registers)
  have temperature := agrees t temperature
  have humidity := checkedH_agrees s.calibration1 s.calibration2 _ _ fine h humidity
  rw [← checkedP_agrees _ _ _ pressure, ← temperature, ← humidity, BitVec.ofInt_toInt, BitVec.ofInt_toInt]
  rfl

end Sensor

end OcsComponents.Sensor.Bme280
