/-!
# CRC-8

`ocs_algo/crc_ops.cpp`: the bit-at-a-time shift register, in both bit orders.
-/

namespace OcsComponents.Algo.CrcOps

/-- `CrcOps::BitOrder`. -/
inductive BitOrder where
  | lsb
  | msb
  deriving DecidableEq, Repr

/-- One round of the inner loop: shift one bit out, and divide when it was set. -/
def crc8Shift (polynomial : BitVec 8) (order : BitOrder) (crc : BitVec 8) : BitVec 8 :=
  match order with
  | .lsb => if crc.getLsbD 0 then (crc >>> 1) ^^^ polynomial else crc >>> 1
  | .msb => if crc.getLsbD 7 then (crc <<< 1) ^^^ polynomial else crc <<< 1

/-- The inner loop: `n` rounds. -/
def crc8Rounds (polynomial : BitVec 8) (order : BitOrder) : Nat → BitVec 8 → BitVec 8
  | 0, crc => crc
  | n + 1, crc => crc8Rounds polynomial order n (crc8Shift polynomial order crc)

/-- `CrcOps::crc8`. -/
def crc8 (buf : List (BitVec 8)) (initial polynomial : BitVec 8) (order : BitOrder) : BitVec 8 :=
  buf.foldl (fun crc byte => crc8Rounds polynomial order 8 (crc ^^^ byte)) initial

end OcsComponents.Algo.CrcOps
