import Mathlib.Algebra.Group.Nat.Defs
import Mathlib.Algebra.Ring.Int.Defs
import Mathlib.Data.List.TakeWhile

/-!
# Numbers in strings of C

What `strtol`, `strtoul` and the `%lu` of `scanf` take for a number in base 10: blanks, a sign,
and all the digits that follow. A `Numeral` is such a reading of a string, with what comes after
it; a string has one at most (`read_iff`). A `long` is 32 bits wide, and a number that does not
fit is replaced by a limit of the type.
-/

namespace Scan

/-- `isspace`. -/
def isSpace (c : Char) : Bool :=
  c == ' ' || c == '\t' || c == '\n' || c == Char.ofNat 11 || c == Char.ofNat 12 || c == '\r'

inductive Sign where
  | none
  | plus
  | minus
  deriving DecidableEq, Repr

def Sign.text : Sign → List Char
  | none => []
  | plus => ['+']
  | minus => ['-']

/-- The sign at the beginning of a string, and the string after it. -/
def splitSign : List Char → Sign × List Char
  | '+' :: s => (.plus, s)
  | '-' :: s => (.minus, s)
  | s => (.none, s)

/-- A number at the beginning of a string. -/
structure Numeral where
  blanks : List Char
  sign : Sign
  digits : List Char
  rest : List Char
  blank : ∀ c ∈ blanks, isSpace c
  digit : ∀ c ∈ digits, c.isDigit
  filled : digits ≠ []
  longest : ∀ c, rest.head? = some c → ¬ c.isDigit
  deriving DecidableEq

/-- The value of some digits. -/
abbrev valueOf (digits : List Char) : Nat := Nat.ofDigitChars 10 digits 0

namespace Numeral

def text (n : Numeral) : List Char := n.blanks ++ n.sign.text ++ n.digits ++ n.rest

def magnitude (n : Numeral) : Nat := valueOf n.digits

def value (n : Numeral) : Int := if n.sign = .minus then -n.magnitude else n.magnitude

/-- Nothing but digits up to what comes after them. -/
def Bare (n : Numeral) : Prop := n.blanks = [] ∧ n.sign = .none

instance (n : Numeral) : Decidable n.Bare := inferInstanceAs (Decidable (_ ∧ _))

theorem head_dropWhile {p : Char → Bool} {s : List Char} (c : Char) (head : (s.dropWhile p).head? = some c) : ¬ p c := by
  have first := List.head?_dropWhile_not p s
  rw [head] at first
  simpa using first

/-- The number at the beginning of a string, if there is one. -/
def read (s : List Char) : Option Numeral :=
  let signed := splitSign (s.dropWhile isSpace)
  if filled : signed.2.takeWhile Char.isDigit = [] then none
  else some {
    blanks := s.takeWhile isSpace
    sign := signed.1
    digits := signed.2.takeWhile Char.isDigit
    rest := signed.2.dropWhile Char.isDigit
    blank := fun _ => List.mem_takeWhile_imp
    digit := fun _ => List.mem_takeWhile_imp
    filled := filled
    longest := fun c => head_dropWhile c }

theorem splitSign_text (s : List Char) : (splitSign s).1.text ++ (splitSign s).2 = s := by
  unfold splitSign
  split <;> rfl

theorem read_text {s : List Char} {n : Numeral} (reads : read s = some n) : n.text = s := by
  unfold read at reads
  dsimp only at reads
  split at reads
  · cases reads
  · cases reads
    simp only [text, List.append_assoc, List.takeWhile_append_dropWhile, splitSign_text]

/-- No digit is a sign or a blank. -/
theorem not_digit {c : Char} (digit : c.isDigit) : isSpace c = false ∧ c ≠ '+' ∧ c ≠ '-' := by
  have other : ∀ c', ¬ c'.isDigit → c ≠ c' := by
    rintro c' not_digit rfl
    exact not_digit digit
  refine ⟨?_, other _ (by decide), other _ (by decide)⟩
  simp only [isSpace, Bool.or_eq_false_iff, beq_eq_false_iff_ne]
  exact ⟨⟨⟨⟨⟨other _ (by decide), other _ (by decide)⟩, other _ (by decide)⟩, other _ (by decide)⟩,
    other _ (by decide)⟩, other _ (by decide)⟩

/-- What follows the blanks begins with the sign or a digit. -/
theorem dropWhile_text (n : Numeral) : n.text.takeWhile isSpace = n.blanks ∧
    n.text.dropWhile isSpace = n.sign.text ++ n.digits ++ n.rest := by
  obtain ⟨c, more, digits⟩ := List.exists_cons_of_ne_nil n.filled
  have blank_end : isSpace c = false := (not_digit (n.digit c (by simp [digits]))).1
  have stops : (n.sign.text ++ n.digits ++ n.rest).takeWhile isSpace = [] ∧
      (n.sign.text ++ n.digits ++ n.rest).dropWhile isSpace = n.sign.text ++ n.digits ++ n.rest := by
    rw [digits]
    cases n.sign with
    | none => simp [Sign.text, blank_end]
    | plus => exact ⟨rfl, rfl⟩
    | minus => exact ⟨rfl, rfl⟩
  rw [text, List.append_assoc, List.append_assoc, ← List.append_assoc n.sign.text,
    List.takeWhile_append_of_pos n.blank, List.dropWhile_append_of_pos n.blank, stops.1, stops.2, List.append_nil]
  exact ⟨rfl, rfl⟩

theorem splitSign_digits (n : Numeral) :
    splitSign (n.sign.text ++ n.digits ++ n.rest) = (n.sign, n.digits ++ n.rest) := by
  obtain ⟨c, more, digits⟩ := List.exists_cons_of_ne_nil n.filled
  obtain ⟨-, plus, minus⟩ := not_digit (n.digit c (by simp [digits]))
  cases n.sign with
  | none =>
    simp only [Sign.text, List.nil_append, digits, List.cons_append]
    unfold splitSign
    split
    · next head => cases head; exact absurd rfl plus
    · next head => cases head; exact absurd rfl minus
    · rfl
  | plus => rfl
  | minus => rfl

theorem digits_rest (n : Numeral) : (n.digits ++ n.rest).takeWhile Char.isDigit = n.digits ∧
    (n.digits ++ n.rest).dropWhile Char.isDigit = n.rest := by
  have stops : n.rest.takeWhile Char.isDigit = [] ∧ n.rest.dropWhile Char.isDigit = n.rest := by
    cases rest : n.rest with
    | nil => exact ⟨rfl, rfl⟩
    | cons c more =>
      have head : ¬ c.isDigit := n.longest c (by simp [rest])
      simp [head]
  rw [List.takeWhile_append_of_pos n.digit, List.dropWhile_append_of_pos n.digit, stops.1, stops.2, List.append_nil]
  exact ⟨rfl, rfl⟩

/-- **A string is read as a number in one way at most.** -/
theorem read_iff {s : List Char} {n : Numeral} : read s = some n ↔ n.text = s := by
  refine ⟨read_text, ?_⟩
  rintro rfl
  obtain ⟨blanks, signed⟩ := n.dropWhile_text
  obtain ⟨digits, rest⟩ := n.digits_rest
  unfold read
  simp only [blanks, signed, n.splitSign_digits, digits, rest]
  rw [dif_neg n.filled]

theorem read_eq_none {s : List Char} : read s = none ↔ ∀ n : Numeral, n.text ≠ s := by
  rw [Option.eq_none_iff_forall_ne_some]
  exact forall_congr' fun n => not_congr read_iff

/-- A string that begins with digits. -/
theorem read_digits {digits rest : List Char} (digit : ∀ c ∈ digits, c.isDigit) (filled : digits ≠ [])
    (longest : ∀ c, rest.head? = some c → ¬ c.isDigit) :
    read (digits ++ rest) = some ⟨[], .none, digits, rest, nofun, digit, filled, longest⟩ := read_iff.mpr rfl

/-- A number in an `unsigned long`. -/
def toULong (n : Numeral) : BitVec 32 :=
  if 2 ^ 32 ≤ n.magnitude then BitVec.allOnes 32
  else if n.sign = .minus then -BitVec.ofNat 32 n.magnitude
  else BitVec.ofNat 32 n.magnitude

end Numeral

/-- `LONG_MIN`. -/
def longMin : Int := -2 ^ 31

/-- `LONG_MAX`. -/
def longMax : Int := 2 ^ 31 - 1

/-- `strtol(s, nullptr, 10)`. -/
def strtol (s : List Char) : Int :=
  match Numeral.read s with
  | none => 0
  | some n => if n.value < longMin then longMin else if longMax < n.value then longMax else n.value

/-- Strictly between the limits there are only the values themselves. -/
theorem strtol_inside {s : List Char} {v : Int} (nonzero : v ≠ 0) (low : v ≠ longMin) (high : v ≠ longMax) :
    strtol s = v ↔ longMin < v ∧ v < longMax ∧ ∃ n : Numeral, n.text = s ∧ n.value = v := by
  unfold strtol
  cases reads : Numeral.read s with
  | none =>
    have nothing := Numeral.read_eq_none.mp reads
    exact iff_of_false (fun zero => nonzero zero.symm) fun ⟨_, _, n, text, _⟩ => nothing n text
  | some n =>
    have only : (∃ n' : Numeral, n'.text = s ∧ n'.value = v) ↔ n.value = v := by
      constructor
      · rintro ⟨n', text, value⟩
        rw [Numeral.read_iff.mpr text] at reads
        cases reads
        exact value
      · exact fun value => ⟨n, Numeral.read_text reads, value⟩
    have limits : longMin < longMax := by decide
    rw [only]
    clear only
    dsimp only
    by_cases below : n.value < longMin
    · rw [if_pos below]
      omega
    · rw [if_neg below]
      by_cases above : longMax < n.value
      · rw [if_pos above]
        omega
      · rw [if_neg above]
        omega

/-! ## `sscanf` -/

/-- A directive of a format. -/
inductive Directive where
  | lu
  | char (c : Char)
  deriving DecidableEq, Repr

/-- The string after a character, if it begins with this one. -/
def afterChar (c : Char) : List Char → Option (List Char)
  | [] => none
  | c' :: s => if c' = c then some s else none

@[simp] theorem afterChar_self (c : Char) (s : List Char) : afterChar c (c :: s) = some s := if_pos rfl

theorem afterChar_eq_some {c : Char} {s rest : List Char} : afterChar c s = some rest ↔ s = c :: rest := by
  cases s with
  | nil => simp [afterChar]
  | cons c' s => by_cases same : c' = c <;> simp [afterChar, same]

/-- The numbers assigned, up to the first directive that fails. -/
def assigned : List Directive → List Char → List (BitVec 32)
  | [], _ => []
  | .lu :: format, s =>
    match Numeral.read s with
    | none => []
    | some n => n.toULong :: assigned format n.rest
  | .char c :: format, s =>
    match afterChar c s with
    | none => []
    | some s => assigned format s

/-- `EOF`. -/
def eof : Int := -1

/-- `sscanf`: what it returns, and the numbers it assigns. -/
def sscanf (s : List Char) (format : List Directive) : Int × List (BitVec 32) :=
  let values := assigned format s
  (if values = [] ∧ s.dropWhile isSpace = [] then eof else values.length, values)

theorem sscanf_eq_iff {s : List Char} {format : List Directive} {n : Nat} (some : n ≠ 0) :
    (sscanf s format).1 = n ↔ (assigned format s).length = n := by
  unfold sscanf
  dsimp only
  split
  · next empty =>
    rw [empty.1]
    simp only [eof, List.length_nil]
    omega
  · exact Int.ofNat_inj

/-! ## Numbers with a character in between -/

/-- The format of `n` numbers. -/
def format (c : Char) : Nat → List Directive
  | 0 => []
  | 1 => [.lu]
  | n + 2 => .lu :: .char c :: format c (n + 1)

/-- The numbers at the beginning of a string, `n` at most. -/
def series (c : Char) : Nat → List Char → List Numeral
  | 0, _ => []
  | n + 1, s =>
    match Numeral.read s with
    | none => []
    | some num =>
      num :: match afterChar c num.rest with
        | none => []
        | some s => series c n s

theorem series_succ {c : Char} {n : Nat} {s : List Char} {num : Numeral} (reads : Numeral.read s = some num) :
    series c (n + 1) s = num :: match afterChar c num.rest with
      | none => []
      | some s => series c n s := by
  rw [series, reads]

theorem series_none {c : Char} {n : Nat} {s : List Char} (nothing : Numeral.read s = none) : series c n s = [] := by
  cases n with
  | zero => rfl
  | succ n => rw [series, nothing]

/-- A format assigns the numbers of its series. -/
theorem assigned_format (c : Char) (n : Nat) (s : List Char) :
    assigned (format c n) s = (series c n s).map Numeral.toULong := by
  induction n generalizing s with
  | zero => rfl
  | succ n ih =>
    cases reads : Numeral.read s with
    | none =>
      rw [series_none reads]
      cases n <;> rw [format, assigned, reads] <;> rfl
    | some num =>
      rw [series_succ reads, List.map_cons]
      cases n with
      | zero =>
        rw [format, assigned, reads]
        cases afterChar c num.rest <;> rfl
      | succ n =>
        simp only [format, assigned, reads]
        cases afterChar c num.rest with
        | none => rfl
        | some rest => simp only [ih]

/-- A shorter format reads the same numbers, as long as it reads. -/
theorem series_take (c : Char) (n k : Nat) (s : List Char) : (series c (n + k) s).take n = series c n s := by
  induction n generalizing s with
  | zero => rfl
  | succ n ih =>
    rw [Nat.add_right_comm]
    cases reads : Numeral.read s with
    | none => rw [series_none reads, series_none reads, List.take_nil]
    | some num =>
      rw [series_succ reads, series_succ reads, List.take_succ_cons]
      congr 1
      cases afterChar c num.rest with
      | none => exact List.take_nil
      | some rest => exact ih rest

theorem series_length_le (c : Char) (n : Nat) (s : List Char) : (series c n s).length ≤ n := by
  rw [← series_take c n 0 s]
  exact List.length_take_le n _

end Scan
