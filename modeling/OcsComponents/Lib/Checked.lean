import Mathlib.Algebra.Order.Ring.Int
import Mathlib.Algebra.Order.Ring.Abs

/-!
# Signed arithmetic that may overflow

A computation in the signed integers of a width either has the exact result or stops at a fault.
Formulas are written as in C. `Agrees` is the way down to words: a result is that of the same
operations on them. `Exactly` says when there is one: a rule for every operation adds the
condition that its own result fits.
-/

namespace Checked

/-- Why there is no result. -/
inductive Fault where
  | overflow
  | divisionByZero
  deriving DecidableEq, Repr

/-- A number that is a signed integer of `w` bits. -/
def Fits (w : Nat) (x : Int) : Prop := -2 ^ (w - 1) ≤ x ∧ x < 2 ^ (w - 1)

instance (w : Nat) (x : Int) : Decidable (Fits w x) := inferInstanceAs (Decidable (_ ∧ _))

def fit (w : Nat) (x : Int) : Except Fault Int := if Fits w x then .ok x else .error .overflow

end Checked

/-- A computation in the signed integers of `w` bits. -/
structure Checked (w : Nat) where
  value : Except Checked.Fault Int

namespace Checked
variable {w w' : Nat}

def of (x : Int) : Checked w := ⟨fit w x⟩

/-- An operation that is exact if its result fits. -/
def lift (f : Int → Int → Int) (e e' : Checked w) : Checked w :=
  ⟨e.value.bind fun x => e'.value.bind fun y => fit w (f x y)⟩

instance (n : Nat) : OfNat (Checked w) n := ⟨of (OfNat.ofNat n)⟩
instance : Add (Checked w) := ⟨lift (· + ·)⟩
instance : Sub (Checked w) := ⟨lift (· - ·)⟩
instance : Mul (Checked w) := ⟨lift (· * ·)⟩

/-- Rounded towards zero. -/
instance : Div (Checked w) :=
  ⟨fun e e' => ⟨e.value.bind fun x => e'.value.bind fun y =>
    if y = 0 then .error .divisionByZero else fit w (x.tdiv y)⟩⟩

instance : HShiftLeft (Checked w) Nat (Checked w) := ⟨fun e n => ⟨e.value.bind fun x => fit w (x * 2 ^ n)⟩⟩

/-- Rounded down. -/
instance : HShiftRight (Checked w) Nat (Checked w) := ⟨fun e n => ⟨e.value.map (· / 2 ^ n)⟩⟩

/-- A conversion to a wider type. -/
def widen (e : Checked w) : Checked w' := ⟨e.value⟩

/-- `e < bound ? bound : e` -/
def atLeast (bound : Int) (e : Checked w) : Checked w := ⟨e.value.map fun x => if x < bound then bound else x⟩

/-- `e > bound ? bound : e` -/
def atMost (bound : Int) (e : Checked w) : Checked w := ⟨e.value.map fun x => if bound < x then bound else x⟩

/-- A statement whose value is used later, if at all. -/
def before (e rest : Checked w) : Checked w := ⟨e.value.bind fun _ => rest.value⟩

/-- `if (e == 0) return 0;`, and what follows. -/
def unlessZero (e rest : Checked w) : Checked w := ⟨e.value.bind fun x => if x = 0 then .ok 0 else rest.value⟩

/-! ## Words -/

theorem Fits.bmod [NeZero w] {x : Int} (fits : Fits w x) : x.bmod (2 ^ w) = x := by
  obtain ⟨v, rfl⟩ := Nat.exists_eq_succ_of_ne_zero (NeZero.ne w)
  have power : ((2 ^ (v + 1) : Nat) : Int) = 2 * 2 ^ v := by
    rw [Int.natCast_pow, Int.pow_succ, Int.mul_comm]
    rfl
  obtain ⟨low, high⟩ := fits
  rw [Nat.succ_sub_one] at low high
  apply Int.bmod_eq_of_le_mul_two <;> omega

theorem fit_eq_ok {x y : Int} : fit w x = .ok y ↔ Fits w x ∧ x = y := by
  unfold fit
  split <;> simp_all

theorem fits_32 {x : Int} : Fits 32 x ↔ -2147483648 ≤ x ∧ x < 2147483648 := Iff.rfl

theorem fits_64 {x : Int} : Fits 64 x ↔ -9223372036854775808 ≤ x ∧ x < 9223372036854775808 := Iff.rfl

/-- The result, if there is one, is that of a word. -/
def Agrees (e : Checked w) (word : BitVec w) : Prop := ∀ x, e.value = .ok x → word.toInt = x

theorem bind_eq_ok {α : Type} {e : Except Fault Int} {f : Int → Except Fault α} {y : α} :
    e.bind f = .ok y ↔ ∃ x, e = .ok x ∧ f x = .ok y := by
  cases e with
  | error fault => exact iff_of_false nofun (by rintro ⟨_, ⟨⟩, _⟩)
  | ok x =>
    constructor
    · exact fun result => ⟨x, rfl, result⟩
    · rintro ⟨_, ⟨⟩, result⟩
      exact result

theorem map_eq_ok {e : Except Fault Int} {f : Int → Int} {y : Int} :
    e.map f = .ok y ↔ ∃ x, e = .ok x ∧ f x = y := by
  cases e with
  | error fault => exact iff_of_false nofun (by rintro ⟨_, ⟨⟩, _⟩)
  | ok x =>
    constructor
    · exact fun result => ⟨x, rfl, Except.ok.inj result⟩
    · rintro ⟨_, ⟨⟩, rfl⟩
      rfl

section
variable {e e' : Checked w} {word word' : BitVec w}

theorem agrees_of (word : BitVec w) : Agrees (of word.toInt) word := by
  intro x result
  exact (fit_eq_ok.mp result).2

theorem agrees_of_eq {x : Int} (same : word.toInt = x) : Agrees (of x) word := same ▸ agrees_of word

theorem agrees_ofNat [NeZero w] (n : Nat) : Agrees (OfNat.ofNat n : Checked w) (OfNat.ofNat n) := by
  intro x result
  obtain ⟨fits, rfl⟩ := fit_eq_ok.mp result
  exact (BitVec.toInt_ofNat' ..).trans (fits.bmod)

theorem Agrees.lift [NeZero w] {f : Int → Int → Int} {op : BitVec w} (agrees : Agrees e word)
    (agrees' : Agrees e' word')
    (wraps : op.toInt = (f word.toInt word'.toInt).bmod (2 ^ w)) : Agrees (lift f e e') op := by
  intro z result
  obtain ⟨x, found, result⟩ := bind_eq_ok.mp result
  obtain ⟨y, found', result⟩ := bind_eq_ok.mp result
  obtain ⟨fits, rfl⟩ := fit_eq_ok.mp result
  rw [wraps, agrees x found, agrees' y found', fits.bmod]

theorem Agrees.add [NeZero w] (agrees : Agrees e word) (agrees' : Agrees e' word') :
    Agrees (e + e') (word + word') :=
  agrees.lift agrees' (BitVec.toInt_add word word')

theorem Agrees.sub [NeZero w] (agrees : Agrees e word) (agrees' : Agrees e' word') :
    Agrees (e - e') (word - word') :=
  agrees.lift agrees' BitVec.toInt_sub

theorem Agrees.mul [NeZero w] (agrees : Agrees e word) (agrees' : Agrees e' word') :
    Agrees (e * e') (word * word') :=
  agrees.lift agrees' (BitVec.toInt_mul word word')

theorem Agrees.sdiv [NeZero w] (agrees : Agrees e word) (agrees' : Agrees e' word') :
    Agrees (e / e') (word.sdiv word') := by
  intro z result
  obtain ⟨x, found, result⟩ := bind_eq_ok.mp result
  obtain ⟨y, found', result⟩ := bind_eq_ok.mp result
  split at result
  · cases result
  · obtain ⟨fits, rfl⟩ := fit_eq_ok.mp result
    rw [BitVec.toInt_sdiv, agrees x found, agrees' y found', fits.bmod]

theorem Agrees.shiftLeft [NeZero w] (agrees : Agrees e word) (n : Nat) (short : n + 1 < w) :
    Agrees (e <<< n) (word <<< n) := by
  intro z result
  obtain ⟨x, found, result⟩ := bind_eq_ok.mp result
  obtain ⟨fits, rfl⟩ := fit_eq_ok.mp result
  have power : (BitVec.twoPow w n).toInt = 2 ^ n := by
    rw [BitVec.toInt_twoPow]
    simp [show ¬ w ≤ n by omega, show ¬ n + 1 = w by omega]
  rw [BitVec.shiftLeft_eq_mul_twoPow, BitVec.toInt_mul, power, agrees x found, fits.bmod]

theorem Agrees.sshiftRight (agrees : Agrees e word) (n : Nat) : Agrees (e >>> n) (word.sshiftRight n) := by
  intro z result
  obtain ⟨x, found, rfl⟩ := map_eq_ok.mp result
  rw [BitVec.toInt_sshiftRight, agrees x found, Int.shiftRight_eq_div_pow]
  norm_cast

theorem Agrees.before (agrees : Agrees e' word') : Agrees (before e e') word' := by
  intro y result
  obtain ⟨_, _, result⟩ := bind_eq_ok.mp result
  exact agrees y result

theorem Agrees.unlessZero (agrees : Agrees e word) (rest : Agrees e' word') :
    Agrees (unlessZero e e') (if word = 0 then 0 else word') := by
  intro y result
  obtain ⟨x, found, result⟩ := bind_eq_ok.mp result
  have zero : word = 0 ↔ x = 0 := by
    rw [← agrees x found, ← BitVec.toInt_inj]
    exact Iff.of_eq (congrArg (word.toInt = ·) BitVec.toInt_zero)
  simp only [zero]
  split at result
  · cases result
    rw [if_pos ‹_›]
    exact BitVec.toInt_zero
  · rw [if_neg ‹_›]
    exact rest y result

theorem Agrees.widen (agrees : Agrees e word) (w' : Nat) (wider : w ≤ w') :
    Agrees (widen e : Checked w') (word.signExtend w') := by
  intro x result
  rw [BitVec.toInt_signExtend_of_le wider, agrees x result]

theorem Agrees.atLeast (agrees : Agrees e word) (bound : BitVec w) :
    Agrees (atLeast bound.toInt e) (if word.slt bound then bound else word) := by
  intro z result
  obtain ⟨x, found, rfl⟩ := map_eq_ok.mp result
  rw [BitVec.slt_eq_decide, agrees x found]
  simp only [decide_eq_true_eq]
  split
  · rfl
  · exact agrees x found

theorem Agrees.atMost (agrees : Agrees e word) (bound : BitVec w) :
    Agrees (atMost bound.toInt e) (if bound.slt word then bound else word) := by
  intro z result
  obtain ⟨x, found, rfl⟩ := map_eq_ok.mp result
  rw [BitVec.slt_eq_decide, agrees x found]
  simp only [decide_eq_true_eq]
  split
  · rfl
  · exact agrees x found

end

/-! ## When there is a result -/

/-- The result is `x` under a condition, and otherwise there is an overflow. -/
structure Exactly (e : Checked w) (P : Prop) (x : Int) : Prop where
  value : P → e.value = .ok x
  fault : ¬ P → e.value = .error .overflow

section
variable {e e' : Checked w} {P Q R : Prop} {x y : Int}

theorem Exactly.congr (exactly : Exactly e P x) (same : P ↔ Q) : Exactly e Q x where
  value holds := exactly.value (same.mpr holds)
  fault fails := exactly.fault (mt same.mp fails)

theorem Exactly.always (exactly : Exactly e P x) (holds : P) : Exactly e True x :=
  exactly.congr (iff_true_intro holds)

/-- What is made of a result. -/
theorem Exactly.bind_value {α : Type} (exactly : Exactly e P x) (holds : P) (f : Int → Except Fault α) :
    e.value.bind f = f x := by
  rw [exactly.value holds]
  rfl

theorem Exactly.bind_fault {α : Type} (exactly : Exactly e P x) (fails : ¬ P) (f : Int → Except Fault α) :
    e.value.bind f = .error .overflow := by
  rw [exactly.fault fails]
  rfl

theorem fit_of {x : Int} (fits : Fits w x) : fit w x = .ok x := if_pos fits

theorem exactly_of (fits : Fits w x) : Exactly (of x : Checked w) True x where
  value _ := fit_of fits
  fault fails := absurd trivial fails

theorem exactly_signed {n : Nat} (w : Nat) (word : BitVec n) (narrow : n ≤ w) :
    Exactly (of word.toInt : Checked w) True word.toInt := by
  apply exactly_of
  have power : 2 ^ (n - 1) ≤ 2 ^ (w - 1) := Nat.pow_le_pow_right (by decide) (by omega)
  have power : (2 : Int) ^ (n - 1) ≤ 2 ^ (w - 1) := mod_cast power
  have low := BitVec.le_toInt word
  have high := BitVec.toInt_lt (x := word)
  exact ⟨by omega, by omega⟩

theorem exactly_unsigned {n : Nat} (w : Nat) (word : BitVec n) (narrow : n < w) :
    Exactly (of word.toNat : Checked w) True word.toNat := by
  apply exactly_of
  have power : 2 ^ n ≤ 2 ^ (w - 1) := Nat.pow_le_pow_right (by decide) (by omega)
  have power : (2 : Int) ^ n ≤ 2 ^ (w - 1) := mod_cast power
  have high : (word.toNat : Int) < 2 ^ n := mod_cast word.isLt
  exact ⟨by omega, by omega⟩

theorem Exactly.lift {f : Int → Int → Int} (exactly : Exactly e P x) (exactly' : Exactly e' Q y) :
    Exactly (lift f e e') (P ∧ Q ∧ Fits w (f x y)) (f x y) where
  value := by
    rintro ⟨holds, holds', fits⟩
    exact (exactly.bind_value holds _).trans ((exactly'.bind_value holds' _).trans (fit_of fits))
  fault := by
    intro fails
    by_cases holds : P
    · apply (exactly.bind_value holds _).trans
      by_cases holds' : Q
      · exact (exactly'.bind_value holds' _).trans (if_neg fun fits => fails ⟨holds, holds', fits⟩)
      · exact exactly'.bind_fault holds' _
    · exact exactly.bind_fault holds _

theorem Exactly.add (exactly : Exactly e P x) (exactly' : Exactly e' Q y) :
    Exactly (e + e') (P ∧ Q ∧ Fits w (x + y)) (x + y) := exactly.lift exactly'

theorem Exactly.sub (exactly : Exactly e P x) (exactly' : Exactly e' Q y) :
    Exactly (e - e') (P ∧ Q ∧ Fits w (x - y)) (x - y) := exactly.lift exactly'

theorem Exactly.mul (exactly : Exactly e P x) (exactly' : Exactly e' Q y) :
    Exactly (e * e') (P ∧ Q ∧ Fits w (x * y)) (x * y) := exactly.lift exactly'

theorem Exactly.shl (exactly : Exactly e P x) (n : Nat) :
    Exactly (e <<< n) (P ∧ Fits w (x * 2 ^ n)) (x * 2 ^ n) where
  value := by
    rintro ⟨holds, fits⟩
    exact (exactly.bind_value holds _).trans (fit_of fits)
  fault := by
    intro fails
    by_cases holds : P
    · exact (exactly.bind_value holds _).trans (if_neg fun fits => fails ⟨holds, fits⟩)
    · exact exactly.bind_fault holds _

theorem Exactly.map {f : Int → Int} (exactly : Exactly e P x) : Exactly (⟨e.value.map f⟩ : Checked w) P (f x) where
  value holds := by
    rw [exactly.value holds]
    rfl
  fault fails := by
    rw [exactly.fault fails]
    rfl

theorem Exactly.shr (exactly : Exactly e P x) (n : Nat) : Exactly (e >>> n) P (x / 2 ^ n) := exactly.map

theorem Exactly.atLeast (exactly : Exactly e P x) (bound : Int) :
    Exactly (atLeast bound e) P (if x < bound then bound else x) := exactly.map

theorem Exactly.atMost (exactly : Exactly e P x) (bound : Int) :
    Exactly (atMost bound e) P (if bound < x then bound else x) := exactly.map

theorem Exactly.before (exactly : Exactly e P x) (rest : Exactly e' Q y) : Exactly (before e e') (P ∧ Q) y where
  value := by
    rintro ⟨holds, holds'⟩
    exact (exactly.bind_value holds _).trans (rest.value holds')
  fault := by
    intro fails
    by_cases holds : P
    · exact (exactly.bind_value holds _).trans (rest.fault fun holds' => fails ⟨holds, holds'⟩)
    · exact exactly.bind_fault holds _

theorem Exactly.widen (exactly : Exactly e P x) : Exactly (widen e : Checked w') P x where
  value := exactly.value
  fault := exactly.fault

/-- A division by what is known not to be 0. -/
theorem Exactly.div (exactly : Exactly e P x) (exactly' : Exactly e' Q y) (nonzero : y ≠ 0) :
    Exactly (e / e') (P ∧ Q ∧ Fits w (x.tdiv y)) (x.tdiv y) where
  value := by
    rintro ⟨holds, holds', fits⟩
    refine (exactly.bind_value holds _).trans ((exactly'.bind_value holds' _).trans ?_)
    exact (if_neg nonzero).trans (fit_of fits)
  fault := by
    intro fails
    by_cases holds : P
    · apply (exactly.bind_value holds _).trans
      by_cases holds' : Q
      · refine (exactly'.bind_value holds' _).trans ((if_neg nonzero).trans ?_)
        exact if_neg fun fits => fails ⟨holds, holds', fits⟩
      · exact exactly'.bind_fault holds' _
    · exact exactly.bind_fault holds _

/-- What follows is only computed where the number is not 0. -/
theorem Exactly.unlessZero (exactly : Exactly e P x) (rest : x ≠ 0 → Exactly e' Q y) :
    Exactly (unlessZero e e') (P ∧ (x ≠ 0 → Q)) (if x = 0 then 0 else y) where
  value := by
    rintro ⟨holds, more⟩
    apply (exactly.bind_value holds _).trans
    split
    · rfl
    · next nonzero => exact (rest nonzero).value (more nonzero)
  fault := by
    intro fails
    by_cases holds : P
    · apply (exactly.bind_value holds _).trans
      split
      · next zero => exact absurd ⟨holds, absurd zero⟩ fails
      · next nonzero => exact (rest nonzero).fault fun more => fails ⟨holds, fun _ => more⟩
    · exact exactly.bind_fault holds _

end

/-! ## Bounds -/

/-- A number is at most `b` away from 0. -/
def Within (b x : Int) : Prop := -b ≤ x ∧ x ≤ b

section
variable {a b x y : Int}

theorem within_iff_abs : Within b x ↔ |x| ≤ b := abs_le.symm

theorem Within.mul (within : Within a x) (within' : Within b y) : Within (a * b) (x * y) := by
  rw [within_iff_abs] at within within' ⊢
  rw [abs_mul]
  exact mul_le_mul within within' (abs_nonneg y) ((abs_nonneg x).trans within)

/-- A factor of a product is smaller than the product, by what the other factor is at least. -/
theorem Within.factor (within : Within (b * a) (x * y)) (positive : 0 < a) (large : a ≤ |y|) : Within b x := by
  rw [within_iff_abs, abs_mul] at within
  rw [within_iff_abs]
  exact le_of_mul_le_mul_right ((mul_le_mul_of_nonneg_left large (abs_nonneg x)).trans within) positive

/-- A number whose square is small. -/
theorem Within.root (within : Within (b * b) (x * x)) (positive : 0 ≤ b) : Within b x := by
  rw [within_iff_abs, abs_mul] at within
  rw [within_iff_abs]
  exact (mul_self_le_mul_self_iff (abs_nonneg x) positive).mpr within

end

end Checked
