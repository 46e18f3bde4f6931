import OcsComponents.OneWire.Bus
import Mathlib.Data.Rat.Cast.Order
import Mathlib.Tactic.Linarith
import Mathlib.Tactic.Ring

/-!
# The DS18B20 scratchpad

`ocs_sensor/ds18b20/scratchpad.{h,cpp}`: the packed 9-byte record of the device, and how
its temperature register is decoded. The sums of `float`s are of multiples of 1/16 below
128, which are exact, so they are rationals here. What the register means is the device's
word on it: a two's complement number of sixteenths, whose low bits are undefined below the
resolution (`Scratchpad.celsius`).
-/

namespace OcsComponents.Sensor.Ds18b20
open Status OcsComponents.OneWire Algo

/-- `Scratchpad` as its 9 bytes. -/
structure Scratchpad where
  bytes : Vector (BitVec 8) 9
  deriving DecidableEq, Repr

namespace Scratchpad

/-- Every byte is zero. -/
def new : Scratchpad := ⟨Vector.replicate 9 0⟩

def temperatureLsb (s : Scratchpad) : BitVec 8 := s.bytes[0]

def temperatureMsb (s : Scratchpad) : BitVec 8 := s.bytes[1]

/-- `configuration.r0`, the bit after five reserved ones. -/
def r0 (s : Scratchpad) : Bool := s.bytes[4].getLsbD 5

def r1 (s : Scratchpad) : Bool := s.bytes[4].getLsbD 6

def crc (s : Scratchpad) : BitVec 8 := s.bytes[8]

/-- `configuration.r0 = …; configuration.r1 = …;` -/
def setResolution (s : Scratchpad) (r0 r1 : Bool) : Scratchpad :=
  ⟨s.bytes.set 4 (Bus.setBit (Bus.setBit s.bytes[4] 5 r0) 6 r1)⟩

/-- `Scratchpad::valid`. -/
def valid (s : Scratchpad) : Bool := calculateCrc (s.bytes.toList.take 8) == s.crc

/-- `if (nth(byte, pos)) result += std::pow(2, exponent)`, for one bit after another. -/
def addBits (byte : BitVec 8) (bits : List (Nat × Int)) (result : ℚ) : ℚ :=
  bits.foldl (fun result (pos, exponent) =>
    if BitOps.nth (byte.setWidth 32) pos then result + 2 ^ exponent else result) result

/-- The bits below one degree that `get_temperature` reads. -/
def fractionBits (s : Scratchpad) : List (Nat × Int) :=
  if s.r0 = true ∧ s.r1 = true then [(0, -4), (1, -3), (2, -2), (3, -1)]
  else if s.r0 = false ∧ s.r1 = true then [(1, -3), (2, -2), (3, -1)]
  else if s.r0 = true ∧ s.r1 = false then [(2, -2), (3, -1)]
  else [(3, -1)]

/-- `Scratchpad::get_temperature`. -/
def getTemperature (s : Scratchpad) : ℚ :=
  let result := addBits s.temperatureLsb s.fractionBits 0
  let result := addBits s.temperatureLsb [(4, 0), (5, 1), (6, 2), (7, 3)] result
  let result := addBits s.temperatureMsb [(0, 4), (1, 5), (2, 6)] result
  let signMask := 0b11111000#8
  if s.temperatureMsb &&& signMask = signMask then -result else result

/-- `Scratchpad::write`: only the bytes 2, 3 and 4 go to the device. -/
def write {β : Type} (s : Scratchpad) (B : Bus β) (romCode : RomCode) (w : β) : StatusCode × β :=
  returnOnError (romCode.matchOn B w) fun w =>
    -- `Command::WriteScratchpad`
    returnOnError (B.writeByte 0x4E w) fun w => B.writeBytes ((s.bytes.toList.drop 2).take 3) w

/-- `Scratchpad::read`. -/
def read {β : Type} (s : Scratchpad) (B : Bus β) (romCode : RomCode) (w : β) : StatusCode × Scratchpad × β :=
  let (code, w) := romCode.matchOn B w
  returnOnError (code, s, w) fun (s, w) =>
    -- `Command::ReadScratchpad`
    let (code, w) := B.writeByte 0xBE w
    returnOnError (code, s, w) fun (s, w) =>
      let (code, bytes, w) := B.readBytes s.bytes w
      (code, ⟨bytes⟩, w)

/-! ## What the device means -/

/-- The resolution `r` in bits, by the table of the header. -/
def resolution (s : Scratchpad) : Nat :=
  match s.r0, s.r1 with
  | true, true => 12
  | false, true => 11
  | true, false => 10
  | false, false => 9

/-- The register `msb << 8 | lsb`, signed. -/
def reading (s : Scratchpad) : Int := (s.temperatureMsb ++ s.temperatureLsb).toInt

/-- The sixteenths of a degree that the resolution tells apart. -/
def step (s : Scratchpad) : Nat := 2 ^ (12 - s.resolution)

/-- The temperature: the reading, rounded down to what the resolution tells apart. -/
def celsius (s : Scratchpad) : ℚ := ((s.reading / s.step * s.step : Int) : ℚ) / 16

/-- The five top bits are one sign. -/
def SignExtended (s : Scratchpad) : Prop :=
  ∀ i, 3 ≤ i → i < 8 → s.temperatureMsb.getLsbD i = s.temperatureMsb.getLsbD 7

/-- The sign bit is clear. -/
def NonNegative (s : Scratchpad) : Prop := s.temperatureMsb.getLsbD 7 = false

/-- `0xFC00`, in the bits that the resolution defines: −64 °C. -/
def MinusSixtyFour (s : Scratchpad) : Prop := s.temperatureMsb = 0xFC ∧ s.temperatureLsb.toNat < s.step

/-! ## The decoder against the register -/

/-- Bit `pos` as a number. -/
def bitAt (byte : BitVec 8) (pos : Nat) : Nat := byte.toNat / 2 ^ pos % 2

theorem nth_byte (byte : BitVec 8) {pos : Nat} (h : pos < 8) :
    BitOps.nth (byte.setWidth 32) pos = decide (bitAt byte pos = 1) := by
  rw [BitOps.nth_eq _ (by omega)]
  have low : pos < 32 := by omega
  simp only [BitVec.getLsbD_setWidth, low, decide_true, Bool.true_and]
  rw [← BitVec.testBit_toNat, Nat.testBit_eq_decide_div_mod_eq, bitAt]

theorem bitAt_le (byte : BitVec 8) (pos : Nat) : bitAt byte pos = 0 ∨ bitAt byte pos = 1 := by
  unfold bitAt
  omega

@[simp] theorem addBits_nil (byte : BitVec 8) (result : ℚ) : addBits byte [] result = result := rfl

theorem addBits_cons (byte : BitVec 8) {pos : Nat} (h : pos < 8) (exponent : Int) (bits : List (Nat × Int))
    (result : ℚ) :
    addBits byte ((pos, exponent) :: bits) result = addBits byte bits (result + bitAt byte pos * 2 ^ exponent) := by
  show addBits byte bits (if _ then _ else _) = _
  rw [nth_byte byte h]
  rcases bitAt_le byte pos with zero | one
  · simp [zero]
  · simp [one]

/-- The 16 bits of the register, unsigned. -/
def word (s : Scratchpad) : Nat := 256 * s.temperatureMsb.toNat + s.temperatureLsb.toNat

/-- The eleven low bits, rounded down: the sum before the sign. -/
def magnitude (s : Scratchpad) : Nat := s.word % 2048 / s.step * s.step

theorem lowNibble (byte : BitVec 8) :
    byte.toNat % 16 = bitAt byte 0 + 2 * bitAt byte 1 + 4 * bitAt byte 2 + 8 * bitAt byte 3 := by
  unfold bitAt
  omega

theorem highNibble (byte : BitVec 8) :
    byte.toNat / 16 = bitAt byte 4 + 2 * bitAt byte 5 + 4 * bitAt byte 6 + 8 * bitAt byte 7 := by
  have small := byte.isLt
  unfold bitAt
  omega

theorem lowBits (byte : BitVec 8) : byte.toNat % 8 = bitAt byte 0 + 2 * bitAt byte 1 + 4 * bitAt byte 2 := by
  unfold bitAt
  omega

theorem step_cases (s : Scratchpad) : s.step = 1 ∨ s.step = 2 ∨ s.step = 4 ∨ s.step = 8 := by
  unfold step resolution
  cases s.r0 <;> cases s.r1 <;> simp

theorem word_split (s : Scratchpad) : s.magnitude = s.temperatureLsb.toNat % 16 / s.step * s.step
    + 16 * (s.temperatureLsb.toNat / 16) + 256 * (s.temperatureMsb.toNat % 8) := by
  unfold magnitude word
  rcases s.step_cases with h | h | h | h <;> rw [h] <;> omega

theorem fraction_eq (s : Scratchpad) :
    addBits s.temperatureLsb s.fractionBits 0 = ((s.temperatureLsb.toNat % 16 / s.step * s.step : Nat) : ℚ) / 16 := by
  have nibble := lowNibble s.temperatureLsb
  have bits := bitAt_le s.temperatureLsb
  have kept : s.temperatureLsb.toNat % 16 / s.step * s.step
      = (if s.step ≤ 1 then bitAt s.temperatureLsb 0 else 0)
        + (if s.step ≤ 2 then 2 * bitAt s.temperatureLsb 1 else 0) + (if s.step ≤ 4 then 4 * bitAt s.temperatureLsb 2 else 0) + 8 * bitAt s.temperatureLsb 3 := by
    have b0 := bits 0
    have b1 := bits 1
    have b2 := bits 2
    rcases s.step_cases with h | h | h | h <;> rw [h] <;> simp <;> omega
  rw [kept]
  unfold fractionBits step resolution
  cases s.r0 <;> cases s.r1 <;> simp [addBits_cons] <;> ring

theorem sum_eq (s : Scratchpad) :
    addBits s.temperatureMsb [(0, 4), (1, 5), (2, 6)] (addBits s.temperatureLsb [(4, 0), (5, 1), (6, 2), (7, 3)]
      (addBits s.temperatureLsb s.fractionBits 0)) = (s.magnitude : ℚ) / 16 := by
  rw [word_split, highNibble, lowBits, fraction_eq]
  simp [addBits_cons]
  ring

theorem reading_eq (s : Scratchpad) : s.reading = if s.word < 32768 then (s.word : Int) else s.word - 65536 := by
  have joined : (s.temperatureMsb ++ s.temperatureLsb).toNat = s.word := by
    have small := s.temperatureLsb.isLt
    rw [BitVec.toNat_append, ← Nat.shiftLeft_add_eq_or_of_lt small, Nat.shiftLeft_eq]
    unfold word
    omega
  rw [reading, BitVec.toInt_eq_toNat_cond, joined]
  split <;> split <;> first | rfl | omega

theorem signExtended_bytes {s : Scratchpad} (h : s.SignExtended) :
    s.temperatureMsb.toNat < 8 ∨ 248 ≤ s.temperatureMsb.toNat := by
  have spread : ∀ msb : BitVec 8, msb.getLsbD 3 = msb.getLsbD 7 → msb.getLsbD 4 = msb.getLsbD 7 →
      msb.getLsbD 5 = msb.getLsbD 7 → msb.getLsbD 6 = msb.getLsbD 7 → msb.toNat < 8 ∨ 248 ≤ msb.toNat := by decide
  exact spread _ (h 3 (by omega) (by omega)) (h 4 (by omega) (by omega)) (h 5 (by omega) (by omega))
    (h 6 (by omega) (by omega))

theorem nonNegative_iff (s : Scratchpad) : s.NonNegative ↔ s.temperatureMsb.toNat < 128 := by
  have top : ∀ msb : BitVec 8, msb.getLsbD 7 = false ↔ msb.toNat < 128 := by decide
  exact top s.temperatureMsb

theorem mask_iff (s : Scratchpad) : s.temperatureMsb &&& 0b11111000#8 = 0b11111000#8 ↔ 248 ≤ s.temperatureMsb.toNat := by
  have five : ∀ msb : BitVec 8, msb &&& 0b11111000#8 = 0b11111000#8 ↔ 248 ≤ msb.toNat := by decide
  exact five s.temperatureMsb

/-- The code negates the magnitude, where two's complement subtracts 128. -/
theorem getTemperature_eq (s : Scratchpad) :
    s.getTemperature = if 248 ≤ s.temperatureMsb.toNat then -((s.magnitude : ℚ) / 16) else (s.magnitude : ℚ) / 16 := by
  unfold getTemperature
  simp only [sum_eq, mask_iff]

theorem celsius_eq {s : Scratchpad} (h : s.SignExtended) :
    s.celsius = if 248 ≤ s.temperatureMsb.toNat then (s.magnitude : ℚ) / 16 - 128 else (s.magnitude : ℚ) / 16 := by
  have small := s.temperatureLsb.isLt
  have byte := s.temperatureMsb.isLt
  have rounded : s.reading / s.step * s.step =
      if 248 ≤ s.temperatureMsb.toNat then (s.magnitude : Int) - 2048 else s.magnitude := by
    rw [reading_eq]
    unfold magnitude word
    rcases signExtended_bytes h with low | high
    · rw [if_pos (by omega), if_neg (by omega)]
      rcases s.step_cases with h | h | h | h <;> rw [h] <;> push_cast <;> omega
    · rw [if_neg (by omega), if_pos high]
      rcases s.step_cases with h | h | h | h <;> rw [h] <;> push_cast <;> omega
  rw [celsius, rounded]
  split
  · push_cast
    ring
  · push_cast
    ring

/-- **The decoder** agrees with the device above zero and at one point below. -/
theorem decodes_iff {s : Scratchpad} (h : s.SignExtended) :
    s.getTemperature = s.celsius ↔ s.NonNegative ∨ s.MinusSixtyFour := by
  rw [getTemperature_eq, celsius_eq h, nonNegative_iff]
  rcases signExtended_bytes h with low | high
  · rw [if_neg (by omega), if_neg (by omega)]
    exact iff_of_true rfl (Or.inl (by omega))
  · rw [if_pos high, if_pos high]
    have half : -((s.magnitude : ℚ) / 16) = s.magnitude / 16 - 128 ↔ s.magnitude = 1024 := by
      constructor
      · intro same
        have : (s.magnitude : ℚ) = 1024 := by linarith
        exact_mod_cast this
      · intro same
        rw [same]
        norm_num
    have point : s.magnitude = 1024 ↔ s.MinusSixtyFour := by
      have small := s.temperatureLsb.isLt
      have byte := s.temperatureMsb.isLt
      have code : s.temperatureMsb = 0xFC ↔ s.temperatureMsb.toNat = 252 := BitVec.toNat_inj.symm
      unfold MinusSixtyFour
      rw [code, word_split]
      rcases s.step_cases with h | h | h | h <;> rw [h] <;> omega
    rw [half, point]
    constructor
    · exact Or.inr
    · rintro (low | at64)
      · omega
      · exact at64

end Scratchpad

end OcsComponents.Sensor.Ds18b20
