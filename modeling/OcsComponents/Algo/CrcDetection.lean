import OcsComponents.Lib.Crc
import OcsComponents.OneWire.RomCode
import OcsComponents.Sensor.Sht41.Sensor

/-!
# What the checksums detect

The two uses of `CrcOps::crc8`, for ROM codes and scratchpads on the 1-Wire bus and for the words
of the SHT41. Either is the register of `x^8 + x^5 + x^4 + 1` over the bits in the order in which
the check numbers them, and a list is accepted when its register is zero.
-/

namespace OcsComponents.Algo
open CrcOps

/-! ## The loop as a register -/

theorem crc8Shift_msb (polynomial crc : BitVec 8) : crc8Shift polynomial .msb crc = Crc.step polynomial crc false := by
  rw [Crc.step, Bool.xor_false]
  rfl

theorem crc8Rounds_msb (polynomial : BitVec 8) (n : Nat) (crc : BitVec 8) :
    crc8Rounds polynomial .msb n crc = Crc.run polynomial crc (List.replicate n false) := by
  induction n generalizing crc with
  | zero => rfl
  | succ n ih => rw [crc8Rounds, ih, crc8Shift_msb, List.replicate_succ, Crc.run_cons]

theorem crc8_msb (buf : List (BitVec 8)) (initial polynomial : BitVec 8) :
    crc8 buf initial polynomial .msb = Crc.run polynomial initial (buf.flatMap Crc.bits) := by
  induction buf generalizing initial with
  | nil => rfl
  | cons byte buf ih =>
    have round : crc8Rounds polynomial .msb 8 (initial ^^^ byte) = Crc.run polynomial initial (Crc.bits byte) := by
      rw [crc8Rounds_msb, Crc.run_bits]
    rw [List.flatMap_cons, Crc.run_append, ← round, ← ih]
    rfl

theorem reverse_xor (x y : BitVec 8) : (x ^^^ y).reverse = x.reverse ^^^ y.reverse := by
  apply BitVec.eq_of_getLsbD_eq
  intro i _
  simp only [BitVec.getLsbD_reverse, BitVec.getLsbD_xor, BitVec.getMsbD_xor]

theorem reverse_shiftLeft (x : BitVec 8) : (x <<< 1).reverse = x.reverse >>> 1 := by
  apply BitVec.eq_of_getLsbD_eq
  intro i _
  simp only [BitVec.getLsbD_reverse, BitVec.getMsbD_shiftLeft, BitVec.getLsbD_ushiftRight, Nat.add_comm]

/-- The loop in the other order is its mirror image. -/
theorem crc8Shift_lsb (polynomial crc : BitVec 8) :
    (crc8Shift polynomial .msb crc).reverse = crc8Shift polynomial.reverse .lsb crc.reverse := by
  have low : crc.reverse.getLsbD 0 = crc.getLsbD 7 := by
    rw [BitVec.getLsbD_reverse, BitVec.getMsbD_eq_getLsbD]
    rfl
  simp only [crc8Shift, low]
  split
  · rw [reverse_xor, reverse_shiftLeft]
  · rw [reverse_shiftLeft]

theorem crc8Rounds_lsb (polynomial : BitVec 8) (n : Nat) (crc : BitVec 8) :
    (crc8Rounds polynomial .msb n crc).reverse = crc8Rounds polynomial.reverse .lsb n crc.reverse := by
  induction n generalizing crc with
  | zero => rfl
  | succ n ih => rw [crc8Rounds, ih, crc8Shift_lsb, crc8Rounds]

theorem crc8_lsb (buf : List (BitVec 8)) (initial polynomial : BitVec 8) :
    (crc8 buf initial polynomial .msb).reverse =
      crc8 (buf.map BitVec.reverse) initial.reverse polynomial.reverse .lsb := by
  induction buf generalizing initial with
  | nil => rfl
  | cons byte buf ih =>
    have round := crc8Rounds_lsb polynomial 8 (initial ^^^ byte)
    rw [reverse_xor] at round
    show (crc8 buf (crc8Rounds polynomial .msb 8 (initial ^^^ byte)) polynomial .msb).reverse = _
    rw [ih, round]
    rfl

/-- `crc8` in one bit order is the mirror image of `crc8` in the other: of the data, of the start
value, of the polynomial and of the result. -/
theorem crc8_mirror (buf : List (BitVec 8)) (initial polynomial : BitVec 8) :
    crc8 (buf.map BitVec.reverse) initial.reverse polynomial.reverse .lsb =
      (crc8 buf initial polynomial .msb).reverse :=
  (crc8_lsb buf initial polynomial).symm

/-! ## The checks -/

/-- A use of `crc8`. -/
inductive Check where
  | oneWire
  | sht41
  deriving DecidableEq, Repr

namespace Check

/-- The checksum of a buffer. -/
def crc : Check → List (BitVec 8) → BitVec 8
  | .oneWire, buf => OneWire.calculateCrc buf
  | .sht41, buf => crc8 buf 0xFF 0x31 .msb

/-- The last byte is the checksum of those before it. -/
def Accepts (check : Check) (f : List (BitVec 8)) : Prop := f.getLast? = some (check.crc f.dropLast)

instance (check : Check) (f : List (BitVec 8)) : Decidable (check.Accepts f) := inferInstanceAs (Decidable (_ = _))

/-- The bits of a byte in the order of the check. -/
def byteBits : Check → BitVec 8 → List Bool
  | .oneWire, byte => (List.range 8).map byte.getLsbD
  | .sht41, byte => (List.range 8).map byte.getMsbD

def bits (check : Check) (f : List (BitVec 8)) : List Bool := f.flatMap check.byteBits

/-- An error: some bits, within 8 consecutive ones. -/
structure Burst (check : Check) (e : List (BitVec 8)) : Prop where
  some_bit : ∃ i : Nat, (check.bits e)[i]? = some true
  short : ∃ k, ∀ i : Nat, (check.bits e)[i]? = some true → k ≤ i ∧ i < k + 8

/-- `RomCode::valid` is the check of its bytes. -/
theorem romCode_valid_iff (c : OneWire.RomCode) : c.valid = true ↔ Check.oneWire.Accepts c.bytes.toList := by
  have length : c.bytes.toList.length = 8 := c.bytes.length_toList
  have last : c.bytes.toList.getLast? = some c.crc := by
    rw [List.getLast?_eq_getElem?, length]
    simp [OneWire.RomCode.crc]
  rw [Accepts, last, List.dropLast_eq_take, length, Option.some.injEq, OneWire.RomCode.valid, beq_iff_eq]
  exact eq_comm

/-- The two checks of a received SHT41 measurement. -/
theorem sht41_valid_iff (r : Sensor.Sht41.Received) : r.Valid ↔ r.code = .ok ∧
    Check.sht41.Accepts [r.buf 0, r.buf 1, r.buf 2] ∧ Check.sht41.Accepts [r.buf 3, r.buf 4, r.buf 5] := by
  simp only [Sensor.Sht41.Received.Valid, Accepts, List.getLast?, List.dropLast, Option.some.injEq]
  rfl

/-! ## Acceptance -/

/-- A byte with its most significant bit first in the order of the check. -/
def word : Check → BitVec 8 → BitVec 8
  | .oneWire, byte => byte.reverse
  | .sht41, byte => byte

def initial : Check → BitVec 8
  | .oneWire => 0
  | .sht41 => 0xFF

variable {check : Check}

theorem byteBits_eq (byte : BitVec 8) : check.byteBits byte = Crc.bits (check.word byte) := by
  cases check with
  | sht41 => rfl
  | oneWire =>
    apply List.map_congr_left
    intro i _
    exact BitVec.getMsbD_reverse.symm

theorem bits_eq (f : List (BitVec 8)) : check.bits f = (f.map check.word).flatMap Crc.bits := by
  rw [List.flatMap_map, bits]
  congr
  funext byte
  exact byteBits_eq byte

theorem word_xor (byte byte' : BitVec 8) : check.word (byte ^^^ byte') = check.word byte ^^^ check.word byte' := by
  cases check with
  | sht41 => rfl
  | oneWire => exact reverse_xor byte byte'

theorem word_injective {byte byte' : BitVec 8} (same : check.word byte = check.word byte') : byte = byte' := by
  cases check with
  | sht41 => exact same
  | oneWire =>
    rw [← BitVec.reverse_reverse_eq (x := byte), ← BitVec.reverse_reverse_eq (x := byte')]
    exact congrArg BitVec.reverse same

/-- The checksum is a register of the bits. -/
theorem word_crc (f : List (BitVec 8)) : check.word (check.crc f) = Crc.run 0x31 check.initial (check.bits f) := by
  rw [bits_eq]
  cases check with
  | sht41 =>
    have same : f.map Check.sht41.word = f := List.map_id f
    rw [same, ← crc8_msb]
    rfl
  | oneWire =>
    have mirror := crc8_lsb (f.map BitVec.reverse) 0 0x31
    have twice : (f.map BitVec.reverse).map BitVec.reverse = f := by
      simp [Function.comp_def, BitVec.reverse_reverse_eq]
    rw [twice, show (0x31 : BitVec 8).reverse = 0x8C by decide, show (0 : BitVec 8).reverse = 0 by decide] at mirror
    have register := congrArg BitVec.reverse mirror
    rw [BitVec.reverse_reverse_eq, crc8_msb] at register
    exact register.symm

/-- What is left of the register after all bits. -/
def register (check : Check) (f : List (BitVec 8)) : BitVec 8 := Crc.run 0x31 check.initial (check.bits f)

theorem register_append (d : List (BitVec 8)) (c : BitVec 8) :
    check.register (d ++ [c]) = Crc.run 0x31 (check.word (check.crc d) ^^^ check.word c) (List.replicate 8 false) := by
  have split : check.bits (d ++ [c]) = check.bits d ++ Crc.bits (check.word c) := by
    rw [bits_eq, bits_eq, List.map_append, List.flatMap_append]
    simp
  rw [register, split, Crc.run_append, ← word_crc, Crc.run_bits]

/-- A list is accepted exactly when its register is zero. -/
theorem accepts_iff (d : List (BitVec 8)) (c : BitVec 8) : check.Accepts (d ++ [c]) ↔ check.register (d ++ [c]) = 0#8 := by
  have last : check.Accepts (d ++ [c]) ↔ c = check.crc d := by
    rw [Accepts, List.getLast?_concat, List.dropLast_concat, Option.some.injEq]
  rw [last, register_append]
  constructor
  · rintro rfl
    rw [BitVec.xor_self]
    exact Crc.run_zero 8
  · intro zero
    by_contra other
    refine Crc.run_replicate_ne (by decide) 8 (fun same => other ?_) zero
    exact (word_injective (BitVec.xor_eq_zero_iff.mp same)).symm

/-- What the checksum was appended to is accepted. -/
theorem accepts_append_crc (d : List (BitVec 8)) : check.Accepts (d ++ [check.crc d]) := by
  rw [Accepts, List.getLast?_concat, List.dropLast_concat]

/-! ## Errors -/

theorem bits_length (f : List (BitVec 8)) : (check.bits f).length = 8 * f.length := by
  induction f with
  | nil => rfl
  | cons byte f ih =>
    rw [bits, List.flatMap_cons, List.length_append, byteBits_eq, Crc.bits_length, List.length_cons, ← bits, ih]
    omega

theorem bits_xor (f e : List (BitVec 8)) (length : f.length = e.length) :
    check.bits (List.zipWith (· ^^^ ·) f e) = List.zipWith (· ^^ ·) (check.bits f) (check.bits e) := by
  induction f generalizing e with
  | nil => rfl
  | cons byte f ih =>
    obtain ⟨byte', e, rfl⟩ := List.exists_cons_of_length_eq_add_one length.symm
    have rest := ih e (by simpa using length)
    simp only [bits, List.zipWith_cons_cons, List.flatMap_cons, byteBits_eq, word_xor, Crc.bits_xor] at rest ⊢
    rw [List.zipWith_append (by simp), rest]

theorem register_xor (f e : List (BitVec 8)) (length : f.length = e.length) :
    check.register (List.zipWith (· ^^^ ·) f e) = check.register f ^^^ Crc.run 0x31 0#8 (check.bits e) := by
  have bits_length : (check.bits f).length = (check.bits e).length := by
    rw [bits_length, bits_length, length]
  rw [register, register, bits_xor f e length, ← Crc.run_xor _ _ _ _ bits_length, BitVec.xor_zero]

/-- **Every error within 8 consecutive bits is detected**, in the data, in the checksum or across both. -/
theorem detects_burst (check : Check) (d e : List (BitVec 8)) (length : e.length = d.length + 1)
    (burst : check.Burst e) : ¬ check.Accepts (List.zipWith (· ^^^ ·) (d ++ [check.crc d]) e) := by
  have same : (d ++ [check.crc d]).length = e.length := by
    rw [List.length_append, List.length_singleton, length]
  obtain ⟨k, short⟩ := burst.short
  have seen := Crc.run_burst (p := (0x31 : BitVec 8)) (by decide) short burst.some_bit
  obtain ⟨d', c', corrupted⟩ : ∃ d' c', List.zipWith (· ^^^ ·) (d ++ [check.crc d]) e = d' ++ [c'] := by
    refine ⟨_, _, (List.dropLast_append_getLast (fun none => ?_)).symm⟩
    have := congrArg List.length none
    rw [List.length_zipWith, same, length] at this
    simp at this
  have zero := (accepts_iff d (check.crc d)).mp (accepts_append_crc d)
  have register := @register_xor check (d ++ [check.crc d]) e same
  rw [zero, BitVec.zero_xor, corrupted] at register
  rw [corrupted, accepts_iff, register]
  exact seen

/-- Two bits, one of the data and one of the checksum. -/
theorem detects_burst_across : ¬ Check.oneWire.Accepts
    (List.zipWith (· ^^^ ·) ([0x28] ++ [Check.oneWire.crc [0x28]]) [0x80, 0x01]) := by
  have bound : ∀ i < 16, (Check.oneWire.bits [0x80, 0x01])[i]? = some true → 4 ≤ i ∧ i < 12 := by decide
  refine detects_burst .oneWire [0x28] [0x80, 0x01] rfl ⟨⟨7, by decide⟩, 4, fun i bit => bound i ?_ bit⟩
  have inside := (List.getElem?_eq_some_iff.mp bit).1
  rwa [bits_length] at inside

end Check

end OcsComponents.Algo
