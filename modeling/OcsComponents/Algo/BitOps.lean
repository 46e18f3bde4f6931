/-!
# Bit operations

`ocs_algo/bit_ops.cpp`. `unsigned` is 32 bits wide on the target.
-/

namespace OcsComponents.Algo.BitOps

/-- `BitOps::mask`: only bit `pos` set. -/
def mask (pos : Nat) : BitVec 32 := 1#32 <<< pos

/-- `BitOps::umask`: only bit `pos` clear. -/
def umask (pos : Nat) : BitVec 32 := ~~~ mask pos

/-- `BitOps::nth`: bit `pos` of `value`, the source's `1`/`0` read as a Boolean. -/
def nth (value : BitVec 32) (pos : Nat) : Bool := mask pos &&& value != 0#32

/-- `BitOps::pack_u8`. -/
def packU8 (hi lo : BitVec 8) : BitVec 16 := hi.setWidth 16 <<< 8 ||| lo.setWidth 16

theorem mask_getLsbD (pos i : Nat) : (mask pos).getLsbD i = (decide (i < 32) && decide (i = pos)) := by
  simp only [mask, BitVec.getLsbD_shiftLeft, BitVec.getLsbD_one]
  by_cases h : i < 32 <;> by_cases e : i = pos <;> simp [h, e]
  all_goals omega

theorem umask_getLsbD (pos i : Nat) : (umask pos).getLsbD i = (decide (i < 32) && !decide (i = pos)) := by
  rw [umask, BitVec.getLsbD_not, mask_getLsbD]
  by_cases h : i < 32 <;> simp [h]

theorem nth_eq (value : BitVec 32) {pos : Nat} (h : pos < 32) : nth value pos = value.getLsbD pos := by
  have reads : ∀ i, (mask pos &&& value).getLsbD i = (decide (i < 32) && decide (i = pos) && value.getLsbD i) := by
    intro i
    rw [BitVec.getLsbD_and, mask_getLsbD]
  cases set : value.getLsbD pos with
  | true =>
    rw [nth, bne_iff_ne]
    intro zero
    have read := reads pos
    rw [zero, set] at read
    simp [h] at read
  | false =>
    rw [nth, bne_eq_false_iff_eq]
    apply BitVec.eq_of_getLsbD_eq
    intro i _
    rw [reads]
    by_cases same : i = pos
    · subst same; simp [set]
    · simp [same]

end OcsComponents.Algo.BitOps
