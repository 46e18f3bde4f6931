import OcsComponents.Algo.BitOps
import OcsComponents.Algo.CrcOps
import Mathlib.Data.Finset.Basic

/-!
# ROM codes

`ocs_onewire/rom_code.{h,cpp}` and `crc.cpp`: the packed 8-byte record a 1-Wire
device answers a search with, and the byte buffer the scanner writes it through.
Bit `n` of a code is bit `n % 8` of byte `n / 8`, the order of the wire.
-/

namespace OcsComponents.OneWire
open Algo

/-- `calculate_crc`. -/
def calculateCrc (buf : List (BitVec 8)) : BitVec 8 := CrcOps.crc8 buf 0x00 0x8C .lsb

/-- `RomCode` as its 8 bytes: the family code, the serial number (6), the CRC. -/
structure RomCode where
  bytes : Vector (BitVec 8) 8
  deriving DecidableEq, Repr

namespace RomCode

/-- The default constructor: every byte is zero. -/
def new : RomCode := ⟨Vector.replicate 8 0⟩

def familyCode (c : RomCode) : BitVec 8 := c.bytes[0]

def serialNumber (c : RomCode) : List (BitVec 8) := (c.bytes.toList.drop 1).take 6

/-- The code with another serial number. -/
def setSerialNumber (c : RomCode) (serialNumber : List (BitVec 8)) : RomCode :=
  ⟨Vector.ofFn fun i => if 1 ≤ i.val ∧ i.val ≤ 6 then serialNumber.getD (i.val - 1) 0 else c.bytes[i]⟩

def crc (c : RomCode) : BitVec 8 := c.bytes[7]

/-- `RomCode::valid`: the CRC of the bytes before the last one is the last one. -/
def valid (c : RomCode) : Bool := calculateCrc (c.bytes.toList.take 7) == c.crc

/-- The number of bits of a code, `sizeof(rom_code) * bits_in_byte_`. -/
abbrev width : Nat := 64

/-- `BitOps::nth(buf[n / 8], n % 8)`, the reading of a bit through the buffer. -/
def bit (c : RomCode) (n : Nat) : Bool := BitOps.nth ((c.bytes[n / 8]?.getD 0).setWidth 32) (n % 8)

/-- The writing of a bit through the buffer: `|=` with the mask or `&=` with its
complement, in `unsigned` arithmetic and back to a byte. -/
def assign (c : RomCode) (n : Nat) (b : Bool) : RomCode :=
  let byte := (c.bytes[n / 8]?.getD 0).setWidth 32
  let byte' := if b then byte ||| BitOps.mask (n % 8) else byte &&& BitOps.umask (n % 8)
  ⟨c.bytes.setIfInBounds (n / 8) (byte'.setWidth 8)⟩

theorem bit_eq (c : RomCode) (n : Nat) : c.bit n = (c.bytes[n / 8]?.getD 0).getLsbD (n % 8) := by
  rw [bit, BitOps.nth_eq _ (by omega)]
  simp only [BitVec.getLsbD_setWidth]
  have low : n % 8 < 32 := by omega
  simp [low]

@[simp] theorem new_bit (n : Nat) : new.bit n = false := by
  rw [bit_eq]
  by_cases h : n / 8 < 8 <;> simp [new, h]

/-- Writing bit `n` changes bit `n` and no other. -/
theorem assign_bit (c : RomCode) (b : Bool) {n m : Nat} (hn : n < width) (hm : m < width) :
    (c.assign n b).bit m = if m = n then b else c.bit m := by
  have nByte : n / 8 < 8 := by simp only [width] at hn; omega
  have mByte : m / 8 < 8 := by simp only [width] at hm; omega
  have low : m % 8 < 8 := by omega
  rw [bit_eq, bit_eq]
  by_cases same : n / 8 = m / 8
  · have spot : (m = n) ↔ m % 8 = n % 8 := by omega
    cases b <;> by_cases e : m % 8 = n % 8 <;>
      simp [assign, same, mByte, spot, e, BitOps.umask, BitOps.mask_getLsbD, low] <;> omega
  · have other : m ≠ n := fun e => same (by rw [e])
    simp [assign, mByte, other, same]

/-- A code is its 64 bits. -/
theorem ext_bits {a b : RomCode} (h : ∀ n < width, a.bit n = b.bit n) : a = b := by
  obtain ⟨a⟩ := a
  obtain ⟨b⟩ := b
  congr 1
  apply Vector.ext
  intro i hi
  apply BitVec.eq_of_getLsbD_eq
  intro j hj
  have bits := h (8 * i + j) (by simp only [width]; omega)
  have byte : (8 * i + j) / 8 = i := by omega
  have pos : (8 * i + j) % 8 = j := by omega
  simpa [bit_eq, byte, pos, hi] using bits

theorem serialNumber_set (c : RomCode) : ∀ {serialNumber : List (BitVec 8)}, serialNumber.length = 6 →
    (c.setSerialNumber serialNumber).serialNumber = serialNumber
  | [_, _, _, _, _, _], _ => rfl

theorem serialNumber_length (c : RomCode) : c.serialNumber.length = 6 := by simp [serialNumber]

end RomCode

/-! ## Serial numbers as text -/

/-- `%02X`. -/
def hexByte (b : BitVec 8) : String :=
  String.ofList [(Nat.digitChar (b.toNat / 16)).toUpper, (Nat.digitChar (b.toNat % 16)).toUpper]

/-- `serial_number_to_str`: `"%02X:%02X:%02X:%02X:%02X:%02X"`. -/
def serialNumberToStr (serialNumber : List (BitVec 8)) : String :=
  ":".intercalate (serialNumber.map hexByte)

example : serialNumberToStr [0x00, 0x0A, 0xBC, 0x1F, 0x90, 0xFF] = "00:0A:BC:1F:90:FF" := by decide

end OcsComponents.OneWire
