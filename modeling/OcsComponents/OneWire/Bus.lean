import OcsComponents.Status.Code
import OcsComponents.OneWire.RomCode

/-!
# The 1-Wire bus

`Bus` is the interface of `ocs_onewire/bus.h`, by its slots; the GPIO levels and the
delays below them are not modelled. `Wire` is the bus with devices
attached: open drain, so a slot reads 1 only when every selected device lets
the line up. Devices may come and go between two resets.
-/

namespace OcsComponents.OneWire
open Status Algo

/-- The operations of `Bus` on a bus state `β`. -/
structure Bus (β : Type) where
  reset : β → StatusCode × β
  writeBit : Bool → β → StatusCode × β
  readBit : β → (StatusCode × Bool) × β

namespace Bus

variable {β : Type} (B : Bus β)

/-- The loop of `Bus::write_byte`: `n` more bits of `byte`, least significant first. -/
def writeBits : Nat → BitVec 8 → β → StatusCode × β
  | 0, _, s => (.ok, s)
  | n + 1, byte, s => returnOnError (B.writeBit (byte.getLsbD 0) s) (writeBits n (byte >>> 1))

/-- `Bus::write_byte`. -/
def writeByte (byte : BitVec 8) (s : β) : StatusCode × β := B.writeBits 8 byte s

/-- The loop of `Bus::write_bytes`. -/
def writeList : List (BitVec 8) → β → StatusCode × β
  | [], s => (.ok, s)
  | byte :: bytes, s => returnOnError (B.writeByte byte s) (writeList bytes)

/-- `Bus::write_bytes`. -/
def writeBytes (buf : List (BitVec 8)) (s : β) : StatusCode × β :=
  if buf.length = 0 then (.invalidArg, s) else B.writeList buf s

/-- `byte |= mask(n)` or `byte &= umask(n)`, in `unsigned` arithmetic and back to a byte. -/
def setBit (byte : BitVec 8) (n : Nat) (bit : Bool) : BitVec 8 :=
  (if bit then byte.setWidth 32 ||| BitOps.mask n else byte.setWidth 32 &&& BitOps.umask n).setWidth 8

/-- The loop of `Bus::read_byte`: the last `n` of the 8 bits. A slot that fails leaves
the bits before it in `byte`. -/
def readBits : Nat → BitVec 8 → β → StatusCode × BitVec 8 × β
  | 0, byte, s => (.ok, byte, s)
  | n + 1, byte, s =>
    let ((code, bit), s) := B.readBit s
    returnOnError (code, byte, s) fun (byte, s) => readBits n (setBit byte (7 - n) bit) s

/-- `Bus::read_byte`. -/
def readByte (byte : BitVec 8) (s : β) : StatusCode × BitVec 8 × β := B.readBits 8 byte s

/-- The loop of `Bus::read_bytes`: the last `n` bytes of the buffer. -/
def readLast {size : Nat} : Nat → Vector (BitVec 8) size → β → StatusCode × Vector (BitVec 8) size × β
  | 0, buf, s => (.ok, buf, s)
  | n + 1, buf, s =>
    let i := size - (n + 1)
    let (code, byte, s) := B.readByte (buf[i]?.getD 0) s
    returnOnError (code, buf.setIfInBounds i byte, s) fun (buf, s) => readLast n buf s

/-- `Bus::read_bytes`. -/
def readBytes {size : Nat} (buf : Vector (BitVec 8) size) (s : β) : StatusCode × Vector (BitVec 8) size × β :=
  if size = 0 then (.invalidArg, buf, s) else B.readLast size buf s

end Bus

/-- `RomCode::match`: after it only the device with this code listens. -/
def RomCode.matchOn {β : Type} (c : RomCode) (B : Bus β) (s : β) : StatusCode × β :=
  returnOnError (B.reset s) fun s =>
    -- `Command::MatchRom`
    returnOnError (B.writeByte 0x55 s) fun s => B.writeBytes c.bytes.toList s

/-- What the attached devices expect next. After a reset they collect a command
byte; `SearchRom` starts the rounds of bit, complement and selection, one a ROM bit. -/
inductive Phase where
  | command (bits : List Bool)
  | bit (n : Nat)
  | complement (n : Nat)
  | select (n : Nat)
  | silent
  deriving DecidableEq, Repr

/-- The bits of `RomCode::Command::SearchRom`, `0xF0`, in wire order. -/
def searchRom : List Bool := [false, false, false, false, true, true, true, true]

/-- The bus with devices: how many resets there were, who is still selected,
and what the devices expect. -/
structure Wire where
  session : Nat
  selected : Finset RomCode
  phase : Phase

namespace Wire

/-- Before the first reset. -/
def idle : Wire := ⟨0, ∅, .silent⟩

/-- The presence pulse: the devices attached now are all selected. -/
def reset (sets : Nat → Finset RomCode) (w : Wire) : StatusCode × Wire :=
  (if (sets w.session).Nonempty then .ok else .error, ⟨w.session + 1, sets w.session, .command []⟩)

/-- A read slot, the wired AND of what the selected devices drive. -/
def readBit (w : Wire) : (StatusCode × Bool) × Wire :=
  match w.phase with
  | .bit n => ((.ok, decide (∀ d ∈ w.selected, d.bit n = true)), { w with phase := .complement n })
  | .complement n => ((.ok, decide (∀ d ∈ w.selected, d.bit n = false)), { w with phase := .select n })
  | _ => ((.ok, true), w)

/-- A write slot: a bit of the command, or the selection of a side. -/
def writeBit (b : Bool) (w : Wire) : StatusCode × Wire :=
  match w.phase with
  | .command bits =>
    if bits.length < 7 then (.ok, { w with phase := .command (bits ++ [b]) })
    else (.ok, { w with phase := if bits ++ [b] = searchRom then .bit 0 else .silent })
  | .select n =>
    (.ok, { w with
      selected := w.selected.filter (fun d => d.bit n = b)
      phase := if n + 1 < RomCode.width then .bit (n + 1) else .silent })
  | _ => (.ok, { w with phase := .silent })

end Wire

/-- The bus on which the `k`-th reset finds the devices `sets k`. -/
def wiredAnd (sets : Nat → Finset RomCode) : Bus Wire where
  reset := Wire.reset sets
  writeBit := Wire.writeBit
  readBit := Wire.readBit

/-- The search command leaves the devices of the last reset all selected, at bit 0. -/
theorem wiredAnd_search (sets : Nat → Finset RomCode) (session : Nat) (D : Finset RomCode) :
    (wiredAnd sets).writeByte 0xF0 ⟨session, D, .command []⟩ = (.ok, ⟨session, D, .bit 0⟩) := by
  simp [Bus.writeByte, Bus.writeBits, wiredAnd, Wire.writeBit, searchRom]

end OcsComponents.OneWire
