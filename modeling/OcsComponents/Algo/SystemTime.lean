import OcsComponents.Lib.CString
import OcsComponents.Lib.Numeral
import OcsComponents.Status.Code

/-!
# The system time

`ocs_algo/time_ops.cpp`: `parse_time` and `set_time`. A time is taken from the beginning of the
string, since the end pointer of `strtol` is not asked for: blanks before it and anything after
it go unnoticed. The values that `strtol` returns for no number and for one that does not fit
are refused. `time_t` is wider than `long`.
-/

namespace OcsComponents.Algo
open Scan Status

/-- `TimeOps::parse_time`. -/
def parseTime (str : CString) : Option Int :=
  let value := strtol str.text
  if value = 0 then none
  else if value = longMin ∨ value = longMax then none
  else some value

/-- `timeval`. -/
structure TimeVal where
  sec : Int
  usec : Int
  deriving DecidableEq, Repr

/-- `TimeOps::set_time`, on the system clock, where `settimeofday` accepts a time or not. -/
def setTime (settimeofday : TimeVal → Bool) (clock : TimeVal) (str : CString) (startPoint : Int) :
    StatusCode × TimeVal :=
  match parseTime str with
  | none => (.invalidArg, clock)
  | some timestamp =>
    if timestamp < startPoint then (.invalidArg, clock)
    else if settimeofday ⟨timestamp, 0⟩ = false then (.error, clock)
    else (.ok, ⟨timestamp, 0⟩)

/-- A value that is taken for a time. -/
def IsTime (v : Int) : Prop := v ≠ 0 ∧ longMin < v ∧ v < longMax

instance (v : Int) : Decidable (IsTime v) := inferInstanceAs (Decidable (_ ∧ _))

/-- The string as a whole is a number: a sign or none, and digits. -/
def IsInteger (s : List Char) (v : Int) : Prop := ∃ n : Numeral, n.text = s ∧ n.blanks = [] ∧ n.rest = [] ∧ n.value = v

/-- A time is parsed from a string that is one as a whole, and the clock is set to such a time only. -/
structure SetsTime (settimeofday : TimeVal → Bool) (clock : TimeVal) (str : CString) (startPoint : Int) : Prop where
  parses : ∀ v, parseTime str = some v ↔ IsInteger str.text v ∧ IsTime v
  sets : let clock' := (setTime settimeofday clock str startPoint).2
    clock' ≠ clock → ∃ v, parseTime str = some v ∧ startPoint ≤ v ∧ clock' = ⟨v, 0⟩

/-- The string begins with a time, and is more than that. -/
def BeginsWithTime (s : List Char) : Prop :=
  ∃ n : Numeral, n.text = s ∧ IsTime n.value ∧ (n.blanks ≠ [] ∨ n.rest ≠ [])

/-- What is parsed is the number at the beginning. -/
theorem parseTime_eq_some {str : CString} {v : Int} :
    parseTime str = some v ↔ IsTime v ∧ ∃ n : Numeral, n.text = str.text ∧ n.value = v := by
  have limits : longMin < longMax := by decide
  have returned : parseTime str = some v ↔ v ≠ 0 ∧ v ≠ longMin ∧ v ≠ longMax ∧ strtol str.text = v := by
    unfold parseTime
    dsimp only
    split
    · next zero => exact iff_of_false nofun fun ⟨nonzero, _, _, same⟩ => nonzero (same.symm.trans zero)
    · next nonzero =>
      split
      · next limit =>
        refine iff_of_false nofun fun ⟨_, low, high, same⟩ => ?_
        rcases limit with limit | limit
        · exact low (same.symm.trans limit)
        · exact high (same.symm.trans limit)
      · next inside =>
        rw [not_or] at inside
        constructor
        · rintro ⟨rfl⟩
          exact ⟨nonzero, inside.1, inside.2, rfl⟩
        · rintro ⟨_, _, _, rfl⟩
          rfl
  rw [returned, IsTime]
  constructor
  · rintro ⟨nonzero, low, high, value⟩
    obtain ⟨above, below, number⟩ := (strtol_inside nonzero low high).mp value
    exact ⟨⟨nonzero, above, below⟩, number⟩
  · rintro ⟨⟨nonzero, above, below⟩, number⟩
    have low : v ≠ longMin := Int.ne_of_gt above
    have high : v ≠ longMax := Int.ne_of_lt below
    exact ⟨nonzero, low, high, (strtol_inside nonzero low high).mpr ⟨above, below, number⟩⟩

/-- The clock is set to a parsed time that is not too early, or left alone. -/
theorem setTime_clock (settimeofday : TimeVal → Bool) (clock : TimeVal) (str : CString) (startPoint : Int) :
    let clock' := (setTime settimeofday clock str startPoint).2
    clock' = clock ∨ ∃ v, parseTime str = some v ∧ startPoint ≤ v ∧ clock' = ⟨v, 0⟩ := by
  unfold setTime
  cases parsed : parseTime str with
  | none => exact .inl rfl
  | some v =>
    dsimp only
    split
    · exact .inl rfl
    · next late =>
      split
      · exact .inl rfl
      · exact .inr ⟨v, rfl, Int.not_lt.mp late, rfl⟩

/-- **The time is set from a whole, valid number exactly where** the string does not only begin
with one. -/
theorem setsTime_iff (settimeofday : TimeVal → Bool) (clock : TimeVal) (str : CString) (startPoint : Int) :
    SetsTime settimeofday clock str startPoint ↔ ¬ BeginsWithTime str.text := by
  constructor
  · rintro ⟨parses, -⟩ ⟨n, text, time, more⟩
    obtain ⟨⟨n', text', blanks, rest, -⟩, -⟩ := (parses n.value).mp (parseTime_eq_some.mpr ⟨time, n, text, rfl⟩)
    obtain rfl : n' = n := Option.some.inj ((Numeral.read_iff.mpr text').symm.trans (Numeral.read_iff.mpr text))
    rcases more with more | more
    · exact more blanks
    · exact more rest
  · intro whole
    refine ⟨fun v => ?_, fun set => (setTime_clock settimeofday clock str startPoint).resolve_left set⟩
    rw [parseTime_eq_some, and_comm]
    refine and_congr_left fun time => ⟨?_, fun ⟨n, text, _, _, value⟩ => ⟨n, text, value⟩⟩
    rintro ⟨n, text, rfl⟩
    have alone : ¬ (n.blanks ≠ [] ∨ n.rest ≠ []) := fun more => whole ⟨n, text, time, more⟩
    rw [not_or, not_not, not_not] at alone
    exact ⟨n, text, alone.1, alone.2, rfl⟩

/-- The string of the test. -/
def invalidString : CString := ⟨"123Invalid string".toList, by decide⟩

theorem not_setsTime : ¬ SetsTime (fun _ => true) ⟨0, 0⟩ invalidString 0 := by
  intro sets
  obtain ⟨⟨n, text, -, rest, -⟩, -⟩ := (sets.parses 123).mp (by decide)
  have reads := Numeral.read_iff.mpr text
  have found : (Numeral.read invalidString.text).map Numeral.rest = some "Invalid string".toList := by decide
  rw [reads, Option.map_some, rest] at found
  cases found

end OcsComponents.Algo
