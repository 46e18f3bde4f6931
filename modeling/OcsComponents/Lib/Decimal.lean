import OcsComponents.Lib.Numeral

/-!
# Integers as decimal text

`std::to_string` writes an integer, and `std::from_chars` and `strtol` read it back.
-/

namespace Scan

/-- `std::to_string`. -/
def toDecimal (v : Int) : List Char :=
  if v < 0 then '-' :: Nat.toDigits 10 v.natAbs else Nat.toDigits 10 v.natAbs

/-- A `-` at the beginning of a string, and the string after it. -/
def splitMinus : List Char → Bool × List Char
  | '-' :: s => (true, s)
  | s => (false, s)

/-- `std::from_chars` into an `int`: a `-` or nothing, the digits that follow, and no blanks. There is no value
without a digit, or out of range. -/
def fromChars (s : List Char) : Option Int :=
  let digits := (splitMinus s).2.takeWhile Char.isDigit
  if digits = [] then none
  else
    let v : Int := if (splitMinus s).1 then -valueOf digits else valueOf digits
    if longMin ≤ v ∧ v ≤ longMax then some v else none

/-- What is written is a numeral, whatever comes after it but a digit. -/
def decimal (v : Int) (rest : List Char) (longest : ∀ c, rest.head? = some c → ¬ c.isDigit) : Numeral where
  blanks := []
  sign := if v < 0 then .minus else .none
  digits := Nat.toDigits 10 v.natAbs
  rest := rest
  blank := nofun
  digit := fun _ => Nat.isDigit_of_mem_toDigits (by decide) (by decide)
  filled := Nat.toDigits_ne_nil
  longest := longest

section
variable {v : Int} {rest : List Char}

theorem decimal_text (longest : ∀ c, rest.head? = some c → ¬ c.isDigit) :
    (decimal v rest longest).text = toDecimal v ++ rest := by
  unfold decimal Numeral.text toDecimal
  by_cases negative : v < 0 <;> simp [negative, Sign.text]

theorem decimal_value (longest : ∀ c, rest.head? = some c → ¬ c.isDigit) : (decimal v rest longest).value = v := by
  unfold decimal Numeral.value Numeral.magnitude
  by_cases negative : v < 0
  · simp only [negative, if_true, Nat.ofDigitChars_ten_toDigits]
    omega
  · simp only [negative, if_false, Nat.ofDigitChars_ten_toDigits, reduceCtorEq]
    omega

theorem splitMinus_toDecimal (v : Int) (rest : List Char) :
    splitMinus (toDecimal v ++ rest) = (decide (v < 0), Nat.toDigits 10 v.natAbs ++ rest) := by
  unfold toDecimal
  by_cases negative : v < 0
  · simp [negative, splitMinus]
  · obtain ⟨c, more, first⟩ := List.exists_cons_of_ne_nil (Nat.toDigits_ne_nil (n := v.natAbs) (b := 10))
    have digit : c.isDigit :=
      Nat.isDigit_of_mem_toDigits (by decide) (by decide) (first ▸ List.mem_cons_self : c ∈ Nat.toDigits 10 v.natAbs)
    obtain ⟨-, -, minus⟩ := Numeral.not_digit digit
    simp only [negative, if_false, first, List.cons_append, decide_false]
    unfold splitMinus
    split
    · next head =>
      cases head
      exact absurd rfl minus
    · rfl

/-- `from_chars` gives a number back that fits. -/
theorem fromChars_toDecimal (longest : ∀ c, rest.head? = some c → ¬ c.isDigit) (low : longMin ≤ v)
    (high : v ≤ longMax) :
    fromChars (toDecimal v ++ rest) = some v := by
  have digits : (Nat.toDigits 10 v.natAbs ++ rest).takeWhile Char.isDigit = Nat.toDigits 10 v.natAbs :=
    (decimal v rest longest).digits_rest.1
  have value : (if v < 0 then -(valueOf (Nat.toDigits 10 v.natAbs) : Int)
      else valueOf (Nat.toDigits 10 v.natAbs)) = v := by
    simp only [valueOf, Nat.ofDigitChars_ten_toDigits]
    split <;> omega
  unfold fromChars
  simp only [splitMinus_toDecimal, digits, Nat.toDigits_ne_nil, if_false, decide_eq_true_eq, value, low, high, and_self,
    if_true]

end

end Scan
