import OcsComponents.OneWire.Bus

/-!
# The ROM code scanner

`ocs_onewire/rom_code_scanner.{h,cpp}`, branch by branch. The scanner keeps the
two discrepancy positions and the conflict count between two calls; the path of the
previous call is not kept, it is read back from the caller's buffer.
-/

namespace OcsComponents.OneWire
open Status

/-- The fields of `RomCodeScanner`. -/
structure RomCodeScanner where
  finished : Bool
  prevDiscrepancy : Int
  currDiscrepancy : Int
  conflictCount : BitVec 32
  deriving DecidableEq, Repr

/-- How a call can go wrong other than by its status: a `configASSERT` that
does not hold, or a read outside the buffer. -/
inductive Fault where
  | conflictCount
  | prevDiscrepancy
  | romBounds
  deriving DecidableEq, Repr

/-- The result of a call: it returns, or it stops the program. -/
inductive Outcome where
  | ret (code : StatusCode)
  | fault (f : Fault)
  deriving DecidableEq, Repr

namespace RomCodeScanner

def new : RomCodeScanner := ⟨false, -1, -1, 0⟩

/-- `reset()`. -/
def reset (_ : RomCodeScanner) : RomCodeScanner := ⟨false, -1, -1, 0⟩

/-- `handle_discrepancy_`: the bit to follow at a conflict, and the new fields. -/
def handleDiscrepancy (sc : RomCodeScanner) (buf : RomCode) (position : Nat) :
    Except Fault (RomCodeScanner × Bool) :=
  if sc.currDiscrepancy = position then
    if position = 0 then
      .ok ({ sc with prevDiscrepancy := 0, currDiscrepancy := -1, conflictCount := 0 }, true)
    else if sc.conflictCount = 0 then
      .error .conflictCount
    else
      .ok ({ sc with currDiscrepancy := sc.prevDiscrepancy, conflictCount := sc.conflictCount - 1 }, true)
  else if sc.currDiscrepancy < position then
    -- New discrepancy is found.
    if sc.prevDiscrepancy < 0 then
      .ok ({ sc with prevDiscrepancy := position, currDiscrepancy := position,
                     conflictCount := sc.conflictCount + 1 }, false)
    else
      .ok ({ sc with prevDiscrepancy := sc.currDiscrepancy, currDiscrepancy := position,
                     conflictCount := sc.conflictCount + 1 }, false)
  else if sc.prevDiscrepancy < 0 then
    .error .prevDiscrepancy
  else if RomCode.width ≤ sc.prevDiscrepancy.toNat then
    .error .romBounds
  else
    -- Follow to the previous path: the bit is read at the previous discrepancy.
    .ok ({ sc with prevDiscrepancy := position }, buf.bit sc.prevDiscrepancy.toNat)

end RomCodeScanner

/-- What a scan works on: the scanner, the caller's buffer and the bus. -/
structure Scan (β : Type) where
  scanner : RomCodeScanner
  buf : RomCode
  bus : β

namespace Scan

variable {β : Type} (B : Bus β)

/-- The end of one iteration of `scan_`: the bit goes to the buffer and to the bus. -/
def putBit (n : Nat) (bit : Bool) (s : Scan β) : Option Outcome × Scan β :=
  let buf := s.buf.assign n bit
  match B.writeBit bit s.bus with
  | (.ok, bus) => (none, { s with buf, bus })
  | (code, bus) => (some (.ret code), { s with buf, bus })

/-- Iteration `n` of `scan_`; no outcome means that the loop goes on. -/
def scanBit (n : Nat) (s : Scan β) : Option Outcome × Scan β :=
  match B.readBit s.bus with
  | ((.ok, bit1), bus) =>
    match B.readBit bus with
    | ((.ok, bit2), bus) =>
      let s := { s with bus }
      if bit1 && bit2 then
        (some (.ret .noData), s)
      else if !bit1 && !bit2 then
        match s.scanner.handleDiscrepancy s.buf n with
        | .ok (scanner, bit) => putBit B n bit { s with scanner }
        | .error f => (some (.fault f), s)
      else
        putBit B n (bit1 && !bit2) s
    | ((code, _), bus) => (some (.ret code), { s with bus })
  | ((code, _), bus) => (some (.ret code), { s with bus })

/-- The loop of `scan_`: `k` more iterations from `n` on. -/
def scanBits : Nat → Nat → Scan β → Outcome × Scan β
  | _, 0, s => (.ret .ok, s)
  | n, k + 1, s =>
    match scanBit B n s with
    | (none, s) => scanBits (n + 1) k s
    | (some o, s) => (o, s)

/-- `RomCodeScanner::scan`. -/
def scan (s : Scan β) : Outcome × Scan β :=
  if s.scanner.finished then
    (.ret .noData, s)
  else
    match B.reset s.bus with
    | (.ok, bus) =>
      match B.writeByte 0xF0 bus with
      | (.ok, bus) =>
        match scanBits B 0 RomCode.width { s with bus } with
        | (.ret .ok, s) =>
          if s.buf.valid then
            (.ret .ok, if s.scanner.conflictCount = 0
              then { s with scanner := { s.scanner with finished := true } } else s)
          else
            (.ret .error, s)
        | r => r
      | (code, bus) => (.ret code, { s with bus })
    | (code, bus) => (.ret code, { s with bus })

end Scan

end OcsComponents.OneWire
