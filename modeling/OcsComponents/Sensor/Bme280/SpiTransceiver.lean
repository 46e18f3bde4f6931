import OcsComponents.Algo.BitOps
import OcsComponents.Status.Code
import Mathlib.Logic.Function.Basic

/-!
# The BME280 over SPI

`ocs_sensor/bme280/spi_transceiver.cpp`, and the device at the other end. Registers are sent
one by one, each with a control byte of its own, and received all at once after a single
address byte, with one byte of the answer in front of them. The two framings address the
same registers up to the end of the register space (`send_receive`).
-/

namespace OcsComponents.Sensor.Bme280
open Status Algo

/-- `RegisterAddress` -/
abbrev RegisterAddress := BitVec 8

/-- `io::spi::ITransceiver` on a state `δ`: the bytes sent and the room to receive in, and
what is received. -/
structure SpiDevice (δ : Type) where
  transceive : List (BitVec 8) → Nat → δ → (StatusCode × List (BitVec 8)) × δ

namespace SpiTransceiver
variable {δ : Type} (D : SpiDevice δ)

/-- The most significant bit is 0 for a write command. -/
def controlByte (addr : RegisterAddress) : BitVec 8 := (addr.setWidth 32 &&& BitOps.umask 7).setWidth 8

/-- The most significant bit is 1 for a read command. -/
def readCommand (addr : RegisterAddress) : BitVec 8 := (addr.setWidth 32 ||| BitOps.mask 7).setWidth 8

/-- The loop of `send`: a control byte and a data byte a register. -/
def frame : List (BitVec 8) → RegisterAddress → List (BitVec 8)
  | [], _ => []
  | dataByte :: buf, addr => controlByte addr :: dataByte :: frame buf (addr + 1)

/-- `send` -/
def send (buf : List (BitVec 8)) (addr : RegisterAddress) (s : δ) : StatusCode × δ :=
  let answer := D.transceive (frame buf addr) 0 s
  (answer.1.1, answer.2)

/-- `receive`, into a buffer that is left as it is when the transfer fails. -/
def receive (buf : List (BitVec 8)) (addr : RegisterAddress) (s : δ) : (StatusCode × List (BitVec 8)) × δ :=
  let sendBuf := readCommand addr :: List.replicate buf.length 0
  match D.transceive sendBuf (buf.length + 1) s with
  | ((.ok, recvBuf), s) => ((.ok, (recvBuf.drop 1).take buf.length), s)
  | ((code, _), s) => ((code, buf), s)

end SpiTransceiver

/-! ## The device -/

/-- The addresses of the registers. -/
abbrev Register := { addr : RegisterAddress // 0x80#8 ≤ addr }

/-- The contents of the registers. -/
abbrev Registers := Register → BitVec 8

/-- The register a control byte names: its most significant bit is the command. -/
def named (control : BitVec 8) : Register :=
  ⟨control ||| 0x80#8, by
    rw [BitVec.le_def, BitVec.toNat_or]
    exact Nat.right_le_or⟩

namespace Registers

/-- A write transaction: pairs of a control byte and a data byte, up to a control byte that
is not a write command. -/
def write : List (BitVec 8) → Registers → Registers
  | control :: dataByte :: rest, regs =>
    if control.msb then regs else write rest (Function.update regs (named control) dataByte)
  | _, regs => regs

/-- Consecutive registers, from this address on. -/
def consecutive (regs : Registers) : Nat → RegisterAddress → List (BitVec 8)
  | 0, _ => []
  | n + 1, addr => regs (named addr) :: consecutive regs n (addr + 1)

/-- One transaction. A read command is answered with a byte without meaning and the registers. -/
def transceive (dummy : BitVec 8) (sendBuf : List (BitVec 8)) (recvSize : Nat) (regs : Registers) :
    (StatusCode × List (BitVec 8)) × Registers :=
  match sendBuf with
  | command :: clocks =>
    if command.msb then ((.ok, (dummy :: regs.consecutive clocks.length command).take recvSize), regs)
    else ((.ok, List.replicate recvSize dummy), write sendBuf regs)
  | [] => ((.ok, List.replicate recvSize dummy), regs)

end Registers

/-- The device, whose answers start with this byte. -/
def device (dummy : BitVec 8) : SpiDevice Registers := ⟨Registers.transceive dummy⟩

/-! ## The commands -/

theorem high_bit {addr : RegisterAddress} (high : 0x80#8 ≤ addr) : addr.getLsbD 7 = true := by
  have msb : addr.msb = true := by
    rw [BitVec.msb_eq_decide, decide_eq_true_iff]
    exact high
  rwa [BitVec.msb_eq_getLsbD_last] at msb

theorem named_getLsbD (control : BitVec 8) (i : Nat) :
    (named control).val.getLsbD i = (control.getLsbD i || decide (i = 7)) := by
  have bit : (0x80#8).getLsbD i = decide (i = 7) := by
    have split : 0x80#8 = BitVec.twoPow 8 7 := rfl
    rw [split, BitVec.getLsbD_twoPow]
    by_cases last : i = 7 <;> simp [last, eq_comm]
  rw [named, BitVec.getLsbD_or, bit]

theorem named_high {addr : RegisterAddress} (high : 0x80#8 ≤ addr) : (named addr).val = addr := by
  apply BitVec.eq_of_getLsbD_eq
  intro i h
  rw [named_getLsbD]
  by_cases last : i = 7
  · subst last
    rw [high_bit high, Bool.true_or]
  · rw [decide_eq_false last, Bool.or_false]

namespace SpiTransceiver

theorem controlByte_getLsbD (addr : RegisterAddress) {i : Nat} (h : i < 8) :
    (controlByte addr).getLsbD i = (addr.getLsbD i && !decide (i = 7)) := by
  have low : i < 32 := by omega
  rw [controlByte, BitVec.getLsbD_setWidth, BitVec.getLsbD_and, BitVec.getLsbD_setWidth, BitOps.umask_getLsbD,
    decide_eq_true h, decide_eq_true low, Bool.true_and, Bool.true_and, Bool.true_and]

theorem controlByte_msb (addr : RegisterAddress) : (controlByte addr).msb = false := by
  rw [BitVec.msb_eq_getLsbD_last, controlByte_getLsbD addr (by decide)]
  exact Bool.and_false _

/-- The control byte of a register names it. -/
theorem named_controlByte {addr : RegisterAddress} (high : 0x80#8 ≤ addr) : (named (controlByte addr)).val = addr := by
  apply BitVec.eq_of_getLsbD_eq
  intro i h
  rw [named_getLsbD, controlByte_getLsbD addr h]
  by_cases last : i = 7
  · subst last
    rw [high_bit high, decide_eq_true rfl, Bool.or_true]
  · rw [decide_eq_false last, Bool.or_false, Bool.not_false, Bool.and_true]

/-- So does the read command. -/
theorem readCommand_eq {addr : RegisterAddress} (high : 0x80#8 ≤ addr) : readCommand addr = addr := by
  apply BitVec.eq_of_getLsbD_eq
  intro i h
  have low : i < 32 := by omega
  rw [readCommand, BitVec.getLsbD_setWidth, BitVec.getLsbD_or, BitVec.getLsbD_setWidth, BitOps.mask_getLsbD,
    decide_eq_true h, decide_eq_true low, Bool.true_and, Bool.true_and, Bool.true_and]
  by_cases last : i = 7
  · subst last
    rw [high_bit high, Bool.true_or]
  · rw [decide_eq_false last, Bool.or_false]

end SpiTransceiver

/-! ## The framings -/

section Framing
open SpiTransceiver

/-- A register address by its number. -/
theorem ofNat_high {n : Nat} (high : 0x80 ≤ n) (bound : n < 256) : 0x80#8 ≤ BitVec.ofNat 8 n := by
  have number : (BitVec.ofNat 8 n).toNat = n := Nat.mod_eq_of_lt bound
  rw [BitVec.le_def, number]
  exact high

theorem named_iff {n : Nat} (r : Register) (bound : n < 256) {c : BitVec 8}
    (names : (named c).val = BitVec.ofNat 8 n) : r = named c ↔ r.val.toNat = n := by
  rw [eq_comm, Subtype.ext_iff, names]
  constructor
  · intro same
    rw [← same, BitVec.toNat_ofNat, Nat.mod_eq_of_lt bound]
  · intro same
    rw [← same, BitVec.ofNat_toNat, BitVec.setWidth_eq]

/-- **What a frame writes**: the data bytes from its first register on. -/
theorem write_frame (buf : List (BitVec 8)) {n : Nat} (high : 0x80 ≤ n) (fits : n + buf.length ≤ 256) (regs : Registers)
    (r : Register) : Registers.write (frame buf (BitVec.ofNat 8 n)) regs r =
      if n ≤ r.val.toNat then buf[r.val.toNat - n]?.getD (regs r) else regs r := by
  induction buf generalizing n regs with
  | nil => simp [frame, Registers.write]
  | cons dataByte buf ih =>
    have fits : n + (buf.length + 1) ≤ 256 := fits
    have bound : n < 256 := by omega
    have next : BitVec.ofNat 8 n + 1 = BitVec.ofNat 8 (n + 1) := (BitVec.ofNat_add n 1).symm
    have here := named_iff r bound (named_controlByte (ofNat_high high bound))
    have written : Function.update regs (named (controlByte (BitVec.ofNat 8 n))) dataByte r =
        if r.val.toNat = n then dataByte else regs r := by
      simp only [Function.update_apply, here]
    rw [frame, Registers.write, controlByte_msb, if_neg nofun, next, ih (by omega) (by omega), written]
    by_cases before : r.val.toNat < n
    · rw [if_neg (by omega), if_neg (by omega), if_neg (by omega)]
    · by_cases first : r.val.toNat = n
      · rw [if_neg (by omega), if_pos first, if_pos (by omega), first, Nat.sub_self]
        rfl
      · have later : r.val.toNat - n = r.val.toNat - (n + 1) + 1 := by omega
        rw [if_pos (by omega), if_neg first, if_pos (by omega), later, List.getElem?_cons_succ]

theorem consecutive_length (regs : Registers) (n : Nat) (addr : RegisterAddress) : (regs.consecutive n addr).length = n := by
  induction n generalizing addr with
  | zero => rfl
  | succ n ih => rw [Registers.consecutive, List.length_cons, ih]

/-- The registers that hold a list are read back as it. -/
theorem consecutive_eq (buf : List (BitVec 8)) {n : Nat} (high : 0x80 ≤ n) (fits : n + buf.length ≤ 256) {regs : Registers}
    (held : ∀ i (h : i < buf.length) (r : Register), r.val.toNat = n + i → regs r = buf[i]) :
    regs.consecutive buf.length (BitVec.ofNat 8 n) = buf := by
  induction buf generalizing n with
  | nil => rfl
  | cons dataByte buf ih =>
    have fits : n + (buf.length + 1) ≤ 256 := fits
    have bound : n < 256 := by omega
    have next : BitVec.ofNat 8 n + 1 = BitVec.ofNat 8 (n + 1) := (BitVec.ofNat_add n 1).symm
    have first : (named (BitVec.ofNat 8 n)).val.toNat = n := by
      rw [named_high (ofNat_high high bound), BitVec.toNat_ofNat, Nat.mod_eq_of_lt bound]
    rw [List.length_cons, Registers.consecutive, next, ih (by omega) (by omega)]
    · rw [held 0 (by simp) _ first]
      rfl
    · intro i h r here
      exact held (i + 1) (by simpa using h) r (by omega)

variable (dummy : BitVec 8)

theorem device_send (buf : List (BitVec 8)) (addr : RegisterAddress) (regs : Registers) :
    send (device dummy) buf addr regs = (.ok, regs.write (frame buf addr)) := by
  cases buf with
  | nil => rfl
  | cons dataByte buf =>
    simp only [send, device, Registers.transceive, frame, controlByte_msb]
    rfl

theorem device_receive (prior : List (BitVec 8)) {addr : RegisterAddress} (high : 0x80#8 ≤ addr) (regs : Registers) :
    receive (device dummy) prior addr regs = ((.ok, regs.consecutive prior.length addr), regs) := by
  have command : addr.msb = true := by
    rw [BitVec.msb_eq_getLsbD_last]
    exact high_bit high
  have whole := Nat.le_of_eq (consecutive_length regs prior.length addr)
  have answer : ((dummy :: regs.consecutive prior.length addr).take (prior.length + 1)).drop 1 =
      regs.consecutive prior.length addr := by
    rw [List.take_succ_cons, List.drop_one, List.tail_cons, List.take_of_length_le whole]
  simp only [receive, device, Registers.transceive, readCommand_eq high, command, if_true, List.length_replicate, answer]
  rw [List.take_of_length_le whole]

/-- **What is sent to the registers is received from them**, and no other register is changed. -/
theorem send_receive (regs : Registers) {buf prior : List (BitVec 8)} {addr : RegisterAddress}
    (high : 0x80#8 ≤ addr) (fits : addr.toNat + buf.length ≤ 256) (room : prior.length = buf.length) :
    ∃ regs', send (device dummy) buf addr regs = (.ok, regs') ∧
      (∀ i (h : i < buf.length) (r : Register), r.val.toNat = addr.toNat + i → regs' r = buf[i]) ∧
      (∀ r : Register, r.val.toNat < addr.toNat ∨ addr.toNat + buf.length ≤ r.val.toNat → regs' r = regs r) ∧
      receive (device dummy) prior addr regs' = ((.ok, buf), regs') := by
  have number : BitVec.ofNat 8 addr.toNat = addr := by simp
  have high' : 0x80 ≤ addr.toNat := high
  have writes := write_frame buf high' fits regs
  rw [number] at writes
  have held : ∀ i (h : i < buf.length) (r : Register), r.val.toNat = addr.toNat + i →
      regs.write (frame buf addr) r = buf[i] := by
    intro i h r here
    have offset : r.val.toNat - addr.toNat = i := by omega
    rw [writes, if_pos (by omega), offset, List.getElem?_eq_getElem h, Option.getD_some]
  refine ⟨_, device_send dummy buf addr regs, held, ?_, ?_⟩
  · intro r outside
    rw [writes]
    split
    · next after => rw [List.getElem?_eq_none (by omega), Option.getD_none]
    · rfl
  · have read := consecutive_eq buf high' fits held
    rw [number] at read
    rw [device_receive dummy prior high, room, read]

theorem send_receive_three : ∃ regs', send (device 0xFF) [1, 2, 3] 0xFD (fun _ => 0) = (.ok, regs') ∧
    (∀ i (h : i < 3) (r : Register), r.val.toNat = 0xFD + i → regs' r = [1, 2, 3][i]) ∧
    (∀ r : Register, r.val.toNat < 0xFD ∨ 0xFD + 3 ≤ r.val.toNat → regs' r = 0) ∧
    receive (device 0xFF) [9, 9, 9] 0xFD regs' = ((.ok, [1, 2, 3]), regs') :=
  send_receive 0xFF (fun _ => 0) (by decide) (by decide) rfl

end Framing

end OcsComponents.Sensor.Bme280
