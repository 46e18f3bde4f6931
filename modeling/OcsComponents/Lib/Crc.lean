import Mathlib.Data.List.GetD

/-!
# Cyclic redundancy checks

The shift register of a polynomial `p` of any width `w`, most significant bit first: a message
goes in bit by bit, and what is left is its remainder. The register is linear in exclusive or
(`run_xor`), a bit of the message acts as one of the register (`run_bits`), and with an odd
polynomial the register of an error that spans at most `w` bits is not zero (`run_burst`).
-/

namespace Crc
variable {w : Nat} {p : BitVec w}

/-- One bit of the message. -/
def step (p s : BitVec w) (b : Bool) : BitVec w := if s.msb ^^ b then s <<< 1 ^^^ p else s <<< 1

/-- A message, from a register. -/
def run (p s : BitVec w) (bs : List Bool) : BitVec w := bs.foldl (step p) s

/-- The bits of a word, the most significant one first. -/
def bits (x : BitVec w) : List Bool := (List.range w).map x.getMsbD

@[simp] theorem run_nil (s : BitVec w) : run p s [] = s := rfl

@[simp] theorem run_cons (s : BitVec w) (b : Bool) (bs : List Bool) : run p s (b :: bs) = run p (step p s b) bs := rfl

theorem run_append (s : BitVec w) (bs bs' : List Bool) : run p s (bs ++ bs') = run p (run p s bs) bs' :=
  List.foldl_append

@[simp] theorem bits_length (x : BitVec w) : (bits x).length = w := by
  simp [bits]

/-! ## Linearity -/

/-- The polynomial, when it is divided by. -/
def divisor (p : BitVec w) (divides : Bool) : BitVec w := if divides then p else 0#w

theorem divisor_xor (b c : Bool) : divisor p (b ^^ c) = divisor p b ^^^ divisor p c := by
  cases b <;> cases c <;> simp [divisor]

theorem step_eq (s : BitVec w) (b : Bool) : step p s b = s <<< 1 ^^^ divisor p (s.msb ^^ b) := by
  unfold step divisor
  split <;> simp

theorem step_xor (s t : BitVec w) (b c : Bool) : step p (s ^^^ t) (b ^^ c) = step p s b ^^^ step p t c := by
  have top : ((s ^^^ t).msb ^^ (b ^^ c)) = ((s.msb ^^ b) ^^ (t.msb ^^ c)) := by
    rw [BitVec.msb_xor]
    cases s.msb <;> cases t.msb <;> cases b <;> cases c <;> rfl
  rw [step_eq, step_eq, step_eq, top, divisor_xor, BitVec.shiftLeft_xor_distrib]
  ac_rfl

/-- The register of an exclusive or. -/
theorem run_xor (s t : BitVec w) (bs cs : List Bool) (length : bs.length = cs.length) :
    run p (s ^^^ t) (List.zipWith (· ^^ ·) bs cs) = run p s bs ^^^ run p t cs := by
  induction bs generalizing s t cs with
  | nil =>
    rw [List.length_nil, eq_comm, List.length_eq_zero_iff] at length
    simp [length]
  | cons b bs ih =>
    obtain ⟨c, cs, rfl⟩ := List.exists_cons_of_length_eq_add_one length.symm
    simp only [List.zipWith_cons_cons, run_cons, step_xor]
    exact ih _ _ cs (by simpa using length)

theorem step_zero : step p 0#w false = 0#w := by
  simp [step]

theorem run_zero (n : Nat) : run p 0#w (List.replicate n false) = 0#w := by
  induction n with
  | zero => rfl
  | succ n ih => rw [List.replicate_succ, run_cons, step_zero, ih]

/-! ## Words -/

theorem bits_drop (x : BitVec w) {k : Nat} (inside : k < w) :
    (bits x).drop k = x.getMsbD k :: (bits x).drop (k + 1) := by
  rw [List.drop_eq_getElem_cons (by simpa using inside)]
  simp [bits]

theorem bits_xor (x y : BitVec w) : bits (x ^^^ y) = List.zipWith (· ^^ ·) (bits x) (bits y) := by
  rw [bits, bits, bits, List.zipWith_map, List.zipWith_self]
  apply List.map_congr_left
  intro i _
  exact BitVec.getMsbD_xor

/-- Shifted by `k`, a word is shifted out by its own bits from there. -/
theorem run_drop_bits (x : BitVec w) (k : Nat) : run p (x <<< k) ((bits x).drop k) = 0#w := by
  by_cases inside : k < w
  · have next : step p (x <<< k) (x.getMsbD k) = x <<< (k + 1) := by
      have top : (x <<< k).msb = x.getMsbD k := by
        rw [BitVec.msb_shiftLeft]
      rw [step, top, Bool.xor_self, if_neg Bool.false_ne_true, BitVec.shiftLeft_add]
    rw [bits_drop x inside, run_cons, next]
    exact run_drop_bits x (k + 1)
  · have none_left : (bits x).drop k = [] := List.drop_eq_nil_of_le (by simpa using inside)
    rw [none_left, run_nil, BitVec.shiftLeft_eq_zero (by omega)]
termination_by w - k

theorem run_bits_self (x : BitVec w) : run p x (bits x) = 0#w := by
  simpa using run_drop_bits (p := p) x 0

theorem zipWith_replicate_false (bs : List Bool) :
    List.zipWith (· ^^ ·) (List.replicate bs.length false) bs = bs := by
  induction bs with
  | nil => rfl
  | cons b bs ih => simp [List.replicate_succ, ih]

/-- The bits of a word act as the word in the register. -/
theorem run_bits (s x : BitVec w) : run p s (bits x) = run p (s ^^^ x) (List.replicate w false) := by
  have both := run_xor (p := p) (s ^^^ x) x (List.replicate w false) (bits x) (by simp)
  have same := zipWith_replicate_false (bits x)
  rw [bits_length] at same
  rw [same, run_bits_self, BitVec.xor_zero, BitVec.xor_assoc, BitVec.xor_self, BitVec.xor_zero] at both
  exact both

/-! ## Short errors -/

/-- A message no longer than the register takes it to zero only as its own bits. -/
theorem getMsbD_of_run_zero (odd : p.getLsbD 0 = true) {s : BitVec w} {bs : List Bool} (short : bs.length ≤ w)
    (zero : run p s bs = 0#w) (i : Nat) : s.getMsbD i = bs.getD i false := by
  induction bs generalizing s i with
  | nil =>
    obtain rfl : s = 0#w := zero
    simp
  | cons b bs ih =>
    have length : bs.length < w := short
    have left := ih (Nat.le_of_lt length) zero
    -- the last bit of the step shows whether the polynomial was divided by
    have last : (step p s b).getLsbD 0 = (s.msb ^^ b) := by
      rw [step_eq, BitVec.getLsbD_xor]
      cases s.msb ^^ b <;> simp [divisor, odd]
    have undivided : (s.msb ^^ b) = false := by
      have := left (w - 1)
      rw [List.getD_eq_default _ _ (by omega), BitVec.getMsbD_eq_getLsbD, show w - 1 - (w - 1) = 0 by omega, last] at this
      simpa [show w - 1 < w by omega] using this
    have shifted : step p s b = s <<< 1 := by
      rw [step, if_neg (by rw [undivided]; exact Bool.false_ne_true)]
    cases i with
    | zero =>
      rw [← BitVec.msb_eq_getMsbD_zero, List.getD_cons_zero]
      simpa using undivided
    | succ i =>
      rw [List.getD_cons_succ, ← left i, shifted, BitVec.getMsbD_shiftLeft]

/-- Zeros do not hide a register. -/
theorem run_replicate_ne (odd : p.getLsbD 0 = true) {s : BitVec w} (n : Nat) (some_bit : s ≠ 0#w) :
    run p s (List.replicate n false) ≠ 0#w := by
  have wide : 0 < w := by
    rcases Nat.eq_zero_or_pos w with rfl | wide
    · exact absurd (BitVec.eq_nil s) some_bit
    · exact wide
  induction n generalizing s with
  | zero => exact some_bit
  | succ n ih =>
    rw [List.replicate_succ, run_cons]
    apply ih
    intro zero
    apply some_bit
    apply BitVec.eq_of_getMsbD_eq
    intro i _
    have one_bit : [false].length ≤ w := wide
    rw [getMsbD_of_run_zero odd one_bit zero i, BitVec.getMsbD_zero]
    cases i <;> rfl

theorem replicate_of_clear {bs : List Bool} (clear : ∀ i : Nat, bs[i]? ≠ some true) :
    bs = List.replicate bs.length false := by
  apply List.eq_replicate_of_mem
  intro b mem
  obtain ⟨i, at_i⟩ := List.getElem?_of_mem mem
  cases b with
  | false => rfl
  | true => exact absurd at_i (clear i)

/-- **An error within `w` consecutive bits is seen**: it leaves a register that is not zero. -/
theorem run_burst (odd : p.getLsbD 0 = true) {bs : List Bool} {k : Nat}
    (inside : ∀ i : Nat, bs[i]? = some true → k ≤ i ∧ i < k + w) (some_bit : ∃ i : Nat, bs[i]? = some true) :
    run p 0#w bs ≠ 0#w := by
  have before : bs.take k = List.replicate (bs.take k).length false := by
    apply replicate_of_clear
    intro i bit
    rw [List.getElem?_take] at bit
    split at bit
    · have := inside i bit
      omega
    · cases bit
  have after : (bs.drop k).drop w = List.replicate ((bs.drop k).drop w).length false := by
    apply replicate_of_clear
    intro i bit
    rw [List.getElem?_drop, List.getElem?_drop] at bit
    have := inside _ bit
    omega
  have parts : bs = bs.take k ++ ((bs.drop k).take w ++ (bs.drop k).drop w) := by
    rw [List.take_append_drop, List.take_append_drop]
  rw [parts, run_append, before, run_zero, run_append, after]
  apply run_replicate_ne odd
  intro zero
  obtain ⟨i, bit⟩ := some_bit
  obtain ⟨low, high⟩ := inside i bit
  have clear := getMsbD_of_run_zero odd (List.length_take_le w _) zero (i - k)
  rw [BitVec.getMsbD_zero, List.getD_eq_getElem?_getD, List.getElem?_take_of_lt (by omega), List.getElem?_drop,
    Nat.add_sub_cancel' low, bit] at clear
  cases clear

end Crc
