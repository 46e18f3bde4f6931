import OcsComponents.Sensor.Bme280.Sensor

/-!
# The calibration of the BME280

`read_calibration1_` and `read_calibration2_`. The first block is copied over a packed
structure, whose words are little-endian. The second one is decoded field by field: `dig_H4`
and `dig_H5` have 12 bits each and share a byte. They are put together as numbers from 0 on,
so they are the signed fields of the register layout exactly when these are not negative.
-/

namespace OcsComponents.Sensor.Bme280
open Status Algo

/-- A word at an address. -/
def wordAt {n : Nat} (buf : Vector (BitVec 8) n) (i : Nat) (fits : i + 1 < n) : BitVec 16 := buf[i + 1] ++ buf[i]

/-- `CalibrationData1` before it is read. -/
def CalibrationData1.zero : CalibrationData1 := ⟨0, 0, 0, 0, 0, 0, 0, 0, 0, 0, 0, 0, 0⟩

/-- `CalibrationData2` before it is read. -/
def CalibrationData2.zero : CalibrationData2 := ⟨0, 0, 0, 0, 0⟩

/-- `read_calibration1_`, the registers from `0x88` to `0xA1`. Byte 24 is reserved. -/
def readCalibration1 (c : CalibrationData1) (code : StatusCode) (recvBuf : Vector (BitVec 8) 26) :
    StatusCode × CalibrationData1 :=
  returnOnError (code, c) fun _ =>
    (.ok, {
      digT1 := wordAt recvBuf 0 (by decide)
      digT2 := wordAt recvBuf 2 (by decide)
      digT3 := wordAt recvBuf 4 (by decide)
      digP1 := wordAt recvBuf 6 (by decide)
      digP2 := wordAt recvBuf 8 (by decide)
      digP3 := wordAt recvBuf 10 (by decide)
      digP4 := wordAt recvBuf 12 (by decide)
      digP5 := wordAt recvBuf 14 (by decide)
      digP6 := wordAt recvBuf 16 (by decide)
      digP7 := wordAt recvBuf 18 (by decide)
      digP8 := wordAt recvBuf 20 (by decide)
      digP9 := wordAt recvBuf 22 (by decide)
      digH1 := recvBuf[25] })

/-- `static_cast<int16_t>(high_bits << 4 | low_bits)`; the operands are promoted to `int`. -/
def joinBits (highBits lowBits : BitVec 8) : BitVec 16 :=
  (highBits.setWidth 32 <<< 4 ||| lowBits.setWidth 32).setWidth 16

/-- `read_calibration2_`, the registers from `0xE1` to `0xE7`. -/
def readCalibration2 (c : CalibrationData2) (code : StatusCode) (recvBuf : Vector (BitVec 8) 7) :
    StatusCode × CalibrationData2 :=
  returnOnError (code, c) fun _ =>
    let digH4HighBits := recvBuf[3]
    let digH4LowBits := recvBuf[4] &&& 0x0F
    let digH5HighBits := recvBuf[5]
    let digH5LowBits := (recvBuf[4] &&& 0xF0) >>> 4
    (.ok, {
      digH2 := BitOps.packU8 recvBuf[1] recvBuf[0]
      digH3 := recvBuf[2]
      digH4 := joinBits digH4HighBits digH4LowBits
      digH5 := joinBits digH5HighBits digH5LowBits
      digH6 := recvBuf[6] })

namespace CalibrationData2

/-- The fields in the register layout. -/
def pack (c : CalibrationData2) : Vector (BitVec 8) 7 :=
  #v[c.digH2.extractLsb' 0 8, c.digH2.extractLsb' 8 8, c.digH3, c.digH4.extractLsb' 4 8,
    c.digH5.extractLsb' 0 4 ++ c.digH4.extractLsb' 0 4, c.digH5.extractLsb' 4 8, c.digH6]

/-- The coefficients are the fields of a block, read in two's complement. -/
structure Decodes (c : CalibrationData2) (block : Vector (BitVec 8) 7) : Prop where
  digH2 : c.digH2.toInt = (block[1] ++ block[0]).toInt
  digH3 : c.digH3.toNat = block[2].toNat
  digH4 : c.digH4.toInt = (block[3] ++ block[4].extractLsb' 0 4).toInt
  digH5 : c.digH5.toInt = (block[5] ++ block[4].extractLsb' 4 4).toInt
  digH6 : c.digH6.toInt = block[6].toInt
  digH4Range : -2048 ≤ c.digH4.toInt ∧ c.digH4.toInt ≤ 2047
  digH5Range : -2048 ≤ c.digH5.toInt ∧ c.digH5.toInt ≤ 2047
  packed : c.pack = block

end CalibrationData2

/-! ## Fields of 12 bits -/

theorem low_nibble (b : BitVec 8) : b &&& 0x0F = (b.extractLsb' 0 4).setWidth 8 := by
  revert b
  decide

theorem high_nibble (b : BitVec 8) : (b &&& 0xF0) >>> 4 = (b.extractLsb' 4 4).setWidth 8 := by
  revert b
  decide

/-- The high bits and the low ones, under four zeros. -/
theorem joinBits_eq (high : BitVec 8) (low : BitVec 4) : joinBits high (low.setWidth 8) = (high ++ low).setWidth 16 := by
  apply BitVec.eq_of_getLsbD_eq
  intro i bound
  have within : i < 32 := by omega
  simp only [joinBits, BitVec.getLsbD_setWidth, BitVec.getLsbD_or, BitVec.getLsbD_shiftLeft, BitVec.getLsbD_append, bound,
    within, decide_true, Bool.true_and]
  by_cases short : i < 4
  · simp [short, show i < 8 by omega]
  · simp [short, show i - 4 < 32 by omega, show 4 ≤ i by omega]

theorem packU8_eq (hi lo : BitVec 8) : BitOps.packU8 hi lo = hi ++ lo := by
  apply BitVec.eq_of_getLsbD_eq
  intro i bound
  simp only [BitOps.packU8, BitVec.getLsbD_setWidth, BitVec.getLsbD_or, BitVec.getLsbD_shiftLeft, BitVec.getLsbD_append,
    bound, decide_true, Bool.true_and]
  by_cases short : i < 8
  · simp [short]
  · simp [short, show i - 8 < 16 by omega, BitVec.getLsbD_of_ge lo i (Nat.le_of_not_lt short)]

theorem joinBits_toInt (high : BitVec 8) (low : BitVec 4) :
    (joinBits high (low.setWidth 8)).toInt = 16 * high.toNat + low.toNat := by
  have bounds := high.isLt
  have bounds' := low.isLt
  have value : (joinBits high (low.setWidth 8)).toNat = 16 * high.toNat + low.toNat := by
    rw [joinBits_eq, BitVec.toNat_setWidth, BitVec.toNat_append, ← Nat.shiftLeft_add_eq_or_of_lt low.isLt,
      Nat.shiftLeft_eq, Nat.mod_eq_of_lt (by omega)]
    omega
  rw [BitVec.toInt_eq_toNat_of_lt (by omega), value]
  rfl

/-- The signed field. -/
theorem field_toInt (high : BitVec 8) (low : BitVec 4) :
    (high ++ low).toInt = 16 * (high.toNat - if high.msb then 256 else 0) + low.toNat := by
  rw [BitVec.toInt_append, BitVec.toInt_eq_msb_cond high]
  cases high.msb <;> rfl

/-- **A 12-bit field is decoded** exactly when its sign bit is clear. -/
theorem joinBits_signed_iff (high : BitVec 8) (low : BitVec 4) :
    ((joinBits high (low.setWidth 8)).toInt = (high ++ low).toInt ∧
      -2048 ≤ (joinBits high (low.setWidth 8)).toInt ∧ (joinBits high (low.setWidth 8)).toInt ≤ 2047) ↔
      high.toNat < 128 := by
  have bounds' := low.isLt
  rw [joinBits_toInt, field_toInt, BitVec.msb_eq_decide]
  by_cases small : high.toNat < 128
  · simp [small]
    omega
  · simp [small]
    omega

theorem append_halves (hi lo : BitVec 8) : (hi ++ lo).extractLsb' 0 8 = lo ∧ (hi ++ lo).extractLsb' 8 8 = hi :=
  ⟨BitVec.extractLsb'_append_eq_right, BitVec.extractLsb'_append_eq_left⟩

theorem append_parts (high : BitVec 8) (low : BitVec 4) :
    ((high ++ low).setWidth 16).extractLsb' 0 4 = low ∧ ((high ++ low).setWidth 16).extractLsb' 4 8 = high := by
  constructor
  · apply BitVec.eq_of_getLsbD_eq
    intro i bound
    simp only [BitVec.getLsbD_extractLsb', BitVec.getLsbD_setWidth, BitVec.getLsbD_append]
    simp [bound, show i < 16 by omega]
  · apply BitVec.eq_of_getLsbD_eq
    intro i bound
    simp only [BitVec.getLsbD_extractLsb', BitVec.getLsbD_setWidth, BitVec.getLsbD_append]
    simp [bound, show 4 + i < 16 by omega]

theorem append_nibbles (b : BitVec 8) : b.extractLsb' 4 4 ++ b.extractLsb' 0 4 = b := by
  revert b
  decide

theorem seven_eq {α : Type} (v : Vector α 7) : #v[v[0], v[1], v[2], v[3], v[4], v[5], v[6]] = v := by
  apply Vector.ext
  intro i bound
  match i, bound with
  | 0, _ | 1, _ | 2, _ | 3, _ | 4, _ | 5, _ | 6, _ => rfl

/-- Packed back, the fields are the block, whatever their signs. -/
theorem pack_readCalibration2 (c : CalibrationData2) (block : Vector (BitVec 8) 7) :
    (readCalibration2 c .ok block).2.pack = block := by
  simp only [readCalibration2, returnOnError_ok, CalibrationData2.pack, packU8_eq, low_nibble, high_nibble, joinBits_eq,
    append_halves, append_parts, append_nibbles]
  exact seven_eq block

/-- **The humidity coefficients are decoded** exactly when the sign bits of the two 12-bit fields
are clear. -/
theorem readCalibration2_decodes_iff (c : CalibrationData2) (block : Vector (BitVec 8) 7) :
    (readCalibration2 c .ok block).2.Decodes block ↔ block[3].toNat < 128 ∧ block[5].toNat < 128 := by
  have digH4 := joinBits_signed_iff block[3] (block[4].extractLsb' 0 4)
  have digH5 := joinBits_signed_iff block[5] (block[4].extractLsb' 4 4)
  rw [← low_nibble] at digH4
  rw [← high_nibble] at digH5
  rw [← digH4, ← digH5]
  constructor
  · intro decodes
    exact ⟨⟨decodes.digH4, decodes.digH4Range⟩, decodes.digH5, decodes.digH5Range⟩
  · rintro ⟨⟨digH4, digH4Range⟩, digH5, digH5Range⟩
    exact {
      digH2 := congrArg BitVec.toInt (packU8_eq block[1] block[0])
      digH3 := rfl
      digH4, digH5, digH4Range, digH5Range
      digH6 := rfl
      packed := pack_readCalibration2 c block }

/-- Every bit set, as without a device: `dig_H4` is 4095 and not -1. -/
theorem not_decodes : ¬ (readCalibration2 .zero .ok (.replicate 7 0xFF)).2.Decodes (.replicate 7 0xFF) := by
  intro decodes
  exact absurd decodes.digH4Range.2 (by decide)

end OcsComponents.Sensor.Bme280
