import OcsComponents.Core.Version
import OcsComponents.Lib.CString
import OcsComponents.Lib.Numeral

/-!
# The text of a version

`Version::parse` and `version_to_str`. The parser tries three formats of `sscanf`, one after
another, on the same variables. Each of them takes what a longer one took (`series_take`), so
the numbers are those of the first call. But a number of `sscanf` may have blanks and a sign in
front of it, so more is read than the digits and dots at the beginning of the string; what is
read too much goes unnoticed only where it is 0, or where the version is rejected anyway.
-/

namespace OcsComponents.Core
open Scan

/-- `parsed_major`, `parsed_minor` and `parsed_patch`. -/
structure Parsed where
  major : BitVec 32 := 0
  minor : BitVec 32 := 0
  patch : BitVec 32 := 0
  deriving DecidableEq, Repr

namespace Parsed

/-- The variables that a call of `sscanf` assigns, the first ones. -/
def assign (p : Parsed) : List (BitVec 32) → Parsed
  | [] => p
  | [major] => { p with major := major }
  | [major, minor] => { p with major := major, minor := minor }
  | major :: minor :: patch :: _ => ⟨major, minor, patch⟩

/-- `sscanf` into the variables. -/
def scan (p : Parsed) (str : CString) (format : List Directive) : Int × Parsed :=
  let (n, values) := sscanf str.text format
  (n, p.assign values)

end Parsed

namespace Version

/-- The condition of `parse`: whether one of the calls gets all its numbers. -/
def scanNumbers (str : CString) : Bool × Parsed :=
  let (n, p) := Parsed.scan {} str [.lu, .char '.', .lu, .char '.', .lu]
  if n = 3 then (true, p)
  else
    let (n, p) := p.scan str [.lu, .char '.', .lu]
    if n = 2 then (true, p)
    else
      let (n, p) := p.scan str [.lu]
      (n = 1, p)

/-- `UINT16_MAX`. -/
def uint16Max : BitVec 32 := 65535

/-- `Version::parse`, with the version it leaves. -/
def parse (v : Version) (str : CString) : Bool × Version :=
  let (scanned, p) := scanNumbers str
  if scanned = false then (false, v)
  else if p.major > uint16Max ∨ p.minor > uint16Max ∨ p.patch > uint16Max then (false, v)
  else (true, ⟨p.major.setWidth 16, p.minor.setWidth 16, p.patch.setWidth 16⟩)

/-! ## The grammar -/

/-- Digits, and up to two times a dot and digits, at the beginning of a string. -/
structure IsCore (n : Nat) (s : List Char) (parts : List (List Char)) : Prop where
  nonempty : parts ≠ []
  count : parts.length ≤ n
  digits : ∀ part ∈ parts, part ≠ [] ∧ ∀ c ∈ part, c.isDigit
  starts : ['.'].intercalate parts <+: s

/-- The longest such beginning of a string. -/
structure IsLongestCore (s : List Char) (parts : List (List Char)) : Prop where
  core : IsCore 3 s parts
  longest : ∀ parts', IsCore 3 s parts' → (['.'].intercalate parts').length ≤ (['.'].intercalate parts).length

/-- A version of its components, as far as there are some. -/
def ofNumbers (numbers : List Nat) : Version :=
  ⟨.ofNat 16 (numbers.getD 0 0), .ofNat 16 (numbers.getD 1 0), .ofNat 16 (numbers.getD 2 0)⟩

/-- What is parsed is the longest version at the beginning of the string. -/
structure Faithful (v : Version) (str : CString) : Prop where
  accepts : (parse v str).1 = true ↔ ∃ parts, IsLongestCore str.text parts ∧ ∀ part ∈ parts, valueOf part ≤ 65535
  result : (parse v str).1 = true → ∀ parts, IsLongestCore str.text parts →
    (parse v str).2 = ofNumbers (parts.map valueOf)
  unchanged : (parse v str).1 = false → (parse v str).2 = v

/-- The numbers that `%lu.%lu.%lu` reads. -/
def numbers (s : List Char) : List Numeral := series '.' 3 s

/-- Those before the first one with a blank or a sign. -/
def bareNumbers (s : List Char) : List Numeral := (numbers s).takeWhile fun n => n.Bare

/-- The others. -/
def looseNumbers (s : List Char) : List Numeral := (numbers s).dropWhile fun n => n.Bare

/-- A number that is too large for a component. -/
def Large (n : Numeral) : Prop := n.toULong > uint16Max

instance (n : Numeral) : Decidable (Large n) := inferInstanceAs (Decidable (_ > _))

/-- Every number read begins with its first digit, or what is read too much makes no difference. -/
def Strict (s : List Char) : Prop :=
  looseNumbers s = [] ∨
  (bareNumbers s = [] ∧ ∃ n ∈ looseNumbers s, Large n) ∨
  (bareNumbers s ≠ [] ∧ ((∃ n ∈ bareNumbers s, Large n) ∨ ∀ n ∈ looseNumbers s, n.toULong = 0))

/-! ## What is scanned -/

/-- **Three formats read what the first one reads.** -/
theorem scanNumbers_eq (str : CString) : scanNumbers str =
    (decide (numbers str.text ≠ []), Parsed.assign {} ((numbers str.text).map Numeral.toULong)) := by
  have all : assigned [.lu, .char '.', .lu, .char '.', .lu] str.text = (numbers str.text).map Numeral.toULong :=
    assigned_format '.' 3 str.text
  have two : assigned [.lu, .char '.', .lu] str.text = ((numbers str.text).take 2).map Numeral.toULong := by
    rw [numbers, series_take '.' 2 1]
    exact assigned_format '.' 2 str.text
  have one : assigned [.lu] str.text = ((numbers str.text).take 1).map Numeral.toULong := by
    rw [numbers, series_take '.' 1 2]
    exact assigned_format '.' 1 str.text
  have three_iff : (sscanf str.text [.lu, .char '.', .lu, .char '.', .lu]).1 = 3 ↔ _ := sscanf_eq_iff (n := 3) (by decide)
  have two_iff : (sscanf str.text [.lu, .char '.', .lu]).1 = 2 ↔ _ := sscanf_eq_iff (n := 2) (by decide)
  have one_iff : (sscanf str.text [.lu]).1 = 1 ↔ _ := sscanf_eq_iff (n := 1) (by decide)
  have short := series_length_le '.' 3 str.text
  rw [all] at three_iff
  rw [two] at two_iff
  rw [one] at one_iff
  simp only [scanNumbers, Parsed.scan, three_iff, two_iff, one_iff]
  simp only [sscanf, all, two, one]
  rcases read : numbers str.text with _ | ⟨a, _ | ⟨b, _ | ⟨c, _ | more⟩⟩⟩
  · rfl
  · rfl
  · rfl
  · rfl
  · rw [numbers] at read
    rw [read] at short
    simp only [List.length_cons] at short
    omega

theorem assign_large {ns : List Numeral} (short : ns.length ≤ 3) :
    let p := Parsed.assign {} (ns.map Numeral.toULong)
    (p.major > uint16Max ∨ p.minor > uint16Max ∨ p.patch > uint16Max) ↔ ∃ n ∈ ns, Large n := by
  have large : ∀ n : Numeral, n.toULong > uint16Max ↔ Large n := fun _ => Iff.rfl
  rcases ns with _ | ⟨a, _ | ⟨b, _ | ⟨c, _ | more⟩⟩⟩
  · simp [Parsed.assign]
  · simp [Parsed.assign, large]
  · simp [Parsed.assign, large]
  · simp [Parsed.assign, large]
  · simp only [List.length_cons] at short
    omega

theorem assign_version {ns : List Numeral} (short : ns.length ≤ 3) :
    let p := Parsed.assign {} (ns.map Numeral.toULong)
    (⟨p.major.setWidth 16, p.minor.setWidth 16, p.patch.setWidth 16⟩ : Version) =
      ofNumbers (ns.map fun n => n.toULong.toNat) := by
  rcases ns with _ | ⟨a, _ | ⟨b, _ | ⟨c, _ | more⟩⟩⟩
  · rfl
  · rfl
  · rfl
  · rfl
  · simp only [List.length_cons] at short
    omega

theorem parse_eq (v : Version) (str : CString) : parse v str =
    if numbers str.text ≠ [] ∧ ∀ n ∈ numbers str.text, ¬ Large n then
      (true, ofNumbers ((numbers str.text).map fun n => n.toULong.toNat))
    else (false, v) := by
  have short : (numbers str.text).length ≤ 3 := series_length_le '.' 3 str.text
  have large := assign_large short
  have version := assign_version short
  dsimp only at large version
  simp only [parse, scanNumbers_eq, large, version]
  by_cases read : numbers str.text = []
  · simp [read]
  · rw [if_neg (by simp [read])]
    by_cases fits : ∃ n ∈ numbers str.text, Large n
    · have none_fits : ¬ ∀ n ∈ numbers str.text, ¬ Large n := by simpa using fits
      rw [if_pos fits, if_neg fun all => none_fits all.2]
    · have all_fit : ∀ n ∈ numbers str.text, ¬ Large n := by simpa using fits
      rw [if_neg fits, if_pos ⟨read, all_fit⟩]

/-! ## The longest version -/

theorem IsCore.ne_nil {n : Nat} {s : List Char} {parts : List (List Char)} (core : IsCore n s parts) :
    ['.'].intercalate parts ≠ [] := by
  obtain ⟨part, more, parts_eq⟩ := List.exists_cons_of_ne_nil core.nonempty
  have filled := (core.digits part (by simp [parts_eq])).1
  rw [parts_eq]
  cases more with
  | nil => rwa [List.intercalate_singleton]
  | cons part' more =>
    rw [List.intercalate_cons_cons]
    simp [filled]

/-- The parts are those of their text. -/
theorem IsCore.split {n : Nat} {s : List Char} {parts : List (List Char)} (core : IsCore n s parts) :
    (['.'].intercalate parts).splitOn '.' = parts := by
  apply List.splitOn_intercalate _ _ core.nonempty
  intro part mem dot
  exact absurd ((core.digits part mem).2 '.' dot) (by decide)

/-- The numbers of a string that are only digits, as texts. -/
def bareParts (n : Nat) (s : List Char) : List (List Char) :=
  ((series '.' n s).takeWhile fun num => num.Bare).map Numeral.digits

/-- Digits and what follows them. -/
theorem bareParts_digits (n : Nat) {digits rest : List Char} (digit : ∀ c ∈ digits, c.isDigit) (filled : digits ≠ [])
    (longest : ∀ c, rest.head? = some c → ¬ c.isDigit) :
    bareParts (n + 1) (digits ++ rest) = digits :: match afterChar '.' rest with
      | none => []
      | some s => bareParts n s := by
  have reads := Numeral.read_digits digit filled longest
  have bare : Numeral.Bare ⟨[], .none, digits, rest, List.forall_mem_nil _, digit, filled, longest⟩ := ⟨rfl, rfl⟩
  rw [bareParts, series_succ reads, List.takeWhile_cons_of_pos (by simpa using bare), List.map_cons]
  dsimp only
  cases afterChar '.' rest <;> rfl

/-- Where a string begins with digits, they are all taken. -/
theorem digits_run {part : List Char} (rest : List Char) (digit : ∀ c ∈ part, c.isDigit) (filled : part ≠ []) :
    ∃ more after, part ++ rest = (part ++ more) ++ after ∧ (∀ c ∈ part ++ more, c.isDigit) ∧ part ++ more ≠ [] ∧
      ∀ c, after.head? = some c → ¬ c.isDigit := by
  refine ⟨rest.takeWhile Char.isDigit, rest.dropWhile Char.isDigit, ?_, ?_, ?_, fun c => Numeral.head_dropWhile c⟩
  · rw [List.append_assoc, List.takeWhile_append_dropWhile]
  · intro c mem
    rcases List.mem_append.mp mem with mem | mem
    · exact digit c mem
    · exact List.mem_takeWhile_imp mem
  · simp [filled]

/-- One number is a version. -/
theorem isCore_singleton (n : Nat) {part : List Char} (rest : List Char) (filled : part ≠ [])
    (digit : ∀ c ∈ part, c.isDigit) : IsCore (n + 1) (part ++ rest) [part] where
  nonempty := List.cons_ne_nil _ _
  count := Nat.succ_le_succ (Nat.zero_le n)
  digits := by
    intro p mem
    obtain rfl := List.mem_singleton.mp mem
    exact ⟨filled, digit⟩
  starts := by
    rw [List.intercalate_singleton]
    exact List.prefix_append _ _

/-- A number may stand before a version, -/
theorem IsCore.cons {n : Nat} {s part : List Char} {parts : List (List Char)} (core : IsCore n s parts)
    (filled : part ≠ []) (digit : ∀ c ∈ part, c.isDigit) : IsCore (n + 1) (part ++ '.' :: s) (part :: parts) where
  nonempty := List.cons_ne_nil _ _
  count := Nat.succ_le_succ core.count
  digits := by
    intro p mem
    rcases List.mem_cons.mp mem with rfl | mem
    · exact ⟨filled, digit⟩
    · exact core.digits p mem
  starts := by
    obtain ⟨more, starts⟩ := core.starts
    rw [List.intercalate_cons_of_ne_nil core.nonempty, ← starts]
    exact ⟨more, by simp only [List.append_assoc, List.cons_append, List.nil_append]⟩

/-- and what is left without its first number is one. -/
theorem IsCore.tail {n : Nat} {s part part' : List Char} {parts : List (List Char)}
    (core : IsCore (n + 1) s (part :: part' :: parts)) (rest : List Char) :
    IsCore n (['.'].intercalate (part' :: parts) ++ rest) (part' :: parts) where
  nonempty := List.cons_ne_nil _ _
  count := Nat.le_of_succ_le_succ core.count
  digits p mem := core.digits p (List.mem_cons_of_mem part mem)
  starts := List.prefix_append _ _

/-- No version at the beginning of a string is longer than its bare numbers. -/
theorem IsCore.length_le {n : Nat} {s : List Char} {parts : List (List Char)} (core : IsCore n s parts) :
    (['.'].intercalate parts).length ≤ (['.'].intercalate (bareParts n s)).length := by
  induction parts generalizing n s with
  | nil => exact absurd rfl core.nonempty
  | cons part parts ih =>
    obtain ⟨filled, digit⟩ := core.digits part (by simp)
    obtain ⟨n, rfl⟩ : ∃ n', n = n' + 1 := ⟨n - 1, by have := core.count; simp at this; omega⟩
    obtain ⟨rest, text⟩ := core.starts
    cases parts with
    | nil =>
      rw [List.intercalate_singleton] at text ⊢
      obtain ⟨more, after, run, all, nonempty, stops⟩ := digits_run rest digit filled
      rw [← text, run, bareParts_digits n all nonempty stops]
      cases (match afterChar '.' after with
        | none => []
        | some s => bareParts n s) <;> simp [List.intercalate_cons_cons]
    | cons part' parts =>
      rw [List.intercalate_cons_cons, List.append_assoc, List.append_assoc] at text
      have stops : ∀ c, (['.'] ++ ((['.'].intercalate (part' :: parts)) ++ rest)).head? = some c → ¬ c.isDigit := by
        rintro c head
        cases head
        decide
      have inner := core.tail rest
      have shorter := ih inner
      rw [← text, bareParts_digits n digit filled stops]
      dsimp only [List.singleton_append]
      rw [afterChar_self]
      dsimp only
      have some_parts : bareParts n (['.'].intercalate (part' :: parts) ++ rest) ≠ [] := by
        intro none
        rw [none] at shorter
        exact inner.ne_nil (List.eq_nil_of_length_eq_zero (Nat.le_zero.mp shorter))
      rw [List.intercalate_cons_cons, List.intercalate_cons_of_ne_nil some_parts]
      simp only [List.length_append]
      omega

/-- The bare numbers are a version, if there are some. -/
theorem bareParts_core {n : Nat} {s : List Char} (some : bareParts n s ≠ []) : IsCore n s (bareParts n s) := by
  induction n generalizing s with
  | zero => exact absurd rfl some
  | succ n ih =>
    cases reads : Numeral.read s with
    | none =>
      rw [bareParts, series_none reads] at some
      exact absurd rfl some
    | some num =>
      have text := Numeral.read_text reads
      by_cases bare : num.Bare
      · have digits : s = num.digits ++ num.rest := by
          rw [← text, Numeral.text, bare.1, bare.2]
          rfl
        rw [digits, bareParts_digits n num.digit num.filled num.longest]
        cases after : afterChar '.' num.rest with
        | none => exact isCore_singleton n num.rest num.filled num.digit
        | some rest =>
          dsimp only
          by_cases none : bareParts n rest = []
          · rw [none]
            exact isCore_singleton n num.rest num.filled num.digit
          · rw [afterChar_eq_some.mp after]
            exact (ih none).cons num.filled num.digit
      · have loose : ¬ decide num.Bare = true := mt of_decide_eq_true bare
        rw [bareParts, series_succ reads, List.takeWhile_cons_of_neg (p := fun n : Numeral => decide n.Bare) loose] at some
        exact absurd rfl some

/-- **The longest version** at the beginning of a string is that of its bare numbers. -/
theorem isLongestCore_iff {s : List Char} {parts : List (List Char)} :
    IsLongestCore s parts ↔ bareParts 3 s ≠ [] ∧ parts = bareParts 3 s := by
  constructor
  · rintro ⟨core, longest⟩
    have some : bareParts 3 s ≠ [] := by
      intro none
      have shorter := core.length_le
      rw [none] at shorter
      exact core.ne_nil (List.eq_nil_of_length_eq_zero (Nat.le_zero.mp shorter))
    have bare := bareParts_core some
    have same : ['.'].intercalate parts = ['.'].intercalate (bareParts 3 s) := by
      have length := Nat.le_antisymm core.length_le (longest _ bare)
      exact (List.prefix_of_prefix_length_le core.starts bare.starts length.le).eq_of_length length
    exact ⟨some, by rw [← core.split, same, bare.split]⟩
  · rintro ⟨some, rfl⟩
    exact ⟨bareParts_core some, fun parts' core => core.length_le⟩

/-! ## Parsing -/

theorem bareParts_eq (s : List Char) : bareParts 3 s = (bareNumbers s).map Numeral.digits := rfl

theorem bare_loose (s : List Char) : numbers s = bareNumbers s ++ looseNumbers s := List.takeWhile_append_dropWhile.symm

/-- A number without a sign is what its digits are, or too large. -/
theorem bare_large {n : Numeral} (bare : n.Bare) :
    (¬ Large n ↔ valueOf n.digits ≤ 65535) ∧ (¬ Large n → n.toULong.toNat = valueOf n.digits) := by
  have unsigned : ¬ n.sign = .minus := by
    rw [bare.2]
    decide
  have limit : Large n ↔ 65535 < n.toULong.toNat := BitVec.lt_def
  have magnitude : n.magnitude = valueOf n.digits := rfl
  rw [limit, Numeral.toULong, if_neg unsigned, magnitude]
  by_cases huge : 2 ^ 32 ≤ valueOf n.digits
  · rw [if_pos huge, BitVec.toNat_allOnes]
    omega
  · rw [if_neg huge, BitVec.toNat_ofNat, Nat.mod_eq_of_lt (by omega)]
    omega

/-- Components after the given ones make no difference where they are 0. -/
theorem ofNumbers_append {bare loose : List Nat} (short : (bare ++ loose).length ≤ 3)
    (small : ∀ n ∈ loose, n ≤ 65535) : ofNumbers (bare ++ loose) = ofNumbers bare ↔ ∀ n ∈ loose, n = 0 := by
  have component : ∀ n ≤ 65535, BitVec.ofNat 16 n = 0#16 ↔ n = 0 := by
    intro n bound
    rw [← BitVec.toNat_inj, BitVec.toNat_ofNat, Nat.mod_eq_of_lt (by omega)]
    rfl
  rcases bare with _ | ⟨a, _ | ⟨b, _ | ⟨c, bare⟩⟩⟩
  · rcases loose with _ | ⟨x, _ | ⟨y, _ | ⟨z, _ | more⟩⟩⟩
    · simp
    · simp [ofNumbers, component x (small x (by simp))]
    · simp [ofNumbers, component x (small x (by simp)), component y (small y (by simp))]
    · simp [ofNumbers, component x (small x (by simp)), component y (small y (by simp)),
        component z (small z (by simp))]
    · simp only [List.length_append, List.length_cons] at short
      omega
  · rcases loose with _ | ⟨x, _ | ⟨y, _ | more⟩⟩
    · simp
    · simp [ofNumbers, component x (small x (by simp))]
    · simp [ofNumbers, component x (small x (by simp)), component y (small y (by simp))]
    · simp only [List.length_append, List.length_cons] at short
      omega
  · rcases loose with _ | ⟨x, _ | more⟩
    · simp
    · simp [ofNumbers, component x (small x (by simp))]
    · simp only [List.length_append, List.length_cons] at short
      omega
  · rcases loose with _ | ⟨x, more⟩
    · simp
    · simp only [List.length_append, List.length_cons] at short
      omega

theorem mem_bareNumbers {s : List Char} {n : Numeral} (mem : n ∈ bareNumbers s) : n.Bare :=
  of_decide_eq_true (List.mem_takeWhile_imp (p := fun n : Numeral => decide n.Bare) mem)

theorem parse_accepts_iff {v : Version} {str : CString} : (parse v str).1 = true ↔
    numbers str.text ≠ [] ∧ ∀ n ∈ numbers str.text, ¬ Large n := by
  rw [parse_eq]
  split
  · next good => exact iff_of_true rfl good
  · next bad => exact iff_of_false nofun bad

/-- What has to be accepted. -/
theorem core_accepts_iff (s : List Char) :
    (∃ parts, IsLongestCore s parts ∧ ∀ part ∈ parts, valueOf part ≤ 65535) ↔
      bareNumbers s ≠ [] ∧ ∀ n ∈ bareNumbers s, ¬ Large n := by
  have parts : (∀ part ∈ bareParts 3 s, valueOf part ≤ 65535) ↔ ∀ n ∈ bareNumbers s, ¬ Large n := by
    rw [bareParts_eq, List.forall_mem_map]
    exact forall₂_congr fun n mem => (bare_large (mem_bareNumbers mem)).1.symm
  have some : bareParts 3 s ≠ [] ↔ bareNumbers s ≠ [] := by rw [bareParts_eq, ne_eq, List.map_eq_nil_iff]
  rw [← parts, ← some]
  constructor
  · rintro ⟨parts, longest, small⟩
    obtain ⟨nonempty, rfl⟩ := isLongestCore_iff.mp longest
    exact ⟨nonempty, small⟩
  · rintro ⟨nonempty, small⟩
    exact ⟨_, isLongestCore_iff.mpr ⟨nonempty, rfl⟩, small⟩

/-- The version of the parts. -/
theorem parts_version {s : List Char} (small : ∀ n ∈ bareNumbers s, ¬ Large n) :
    (bareParts 3 s).map valueOf = (bareNumbers s).map fun n => n.toULong.toNat := by
  rw [bareParts_eq, List.map_map]
  exact List.map_congr_left fun n mem => ((bare_large (mem_bareNumbers mem)).2 (small n mem)).symm

/-- Numbers that fit make the version of the bare ones where the others are 0. -/
theorem numbers_version {s : List Char} (small : ∀ n ∈ numbers s, ¬ Large n) :
    ofNumbers ((numbers s).map fun n => n.toULong.toNat) = ofNumbers ((bareParts 3 s).map valueOf) ↔
      ∀ n ∈ looseNumbers s, n.toULong = 0 := by
  have short : (numbers s).length ≤ 3 := series_length_le '.' 3 s
  rw [bare_loose] at short small
  rw [parts_version fun n mem => small n (List.mem_append_left _ mem), bare_loose, List.map_append, ofNumbers_append,
    List.forall_mem_map]
  · exact forall₂_congr fun n _ => (BitVec.toNat_eq (y := 0)).symm
  · rwa [← List.map_append, List.length_map]
  · rw [List.forall_mem_map]
    intro n mem
    exact Nat.not_lt.mp fun large => small n (List.mem_append_right _ mem) (BitVec.lt_def.mpr large)

/-- When the numbers read and the bare ones among them say the same. -/
theorem strict_iff {bare loose : List Numeral} :
    ((bare ++ loose ≠ [] ∧ ∀ n ∈ bare ++ loose, ¬ Large n) ↔ bare ≠ [] ∧ ∀ n ∈ bare, ¬ Large n) ∧
      ((bare ++ loose ≠ [] ∧ ∀ n ∈ bare ++ loose, ¬ Large n) → bare ≠ [] → ∀ n ∈ loose, n.toULong = 0) ↔
    loose = [] ∨ (bare = [] ∧ ∃ n ∈ loose, Large n) ∨
      (bare ≠ [] ∧ ((∃ n ∈ bare, Large n) ∨ ∀ n ∈ loose, n.toULong = 0)) := by
  rcases eq_or_ne loose [] with rfl | some_loose
  · simp
  rcases eq_or_ne bare [] with rfl | some_bare
  · simp [some_loose]
  by_cases small : ∀ n ∈ bare, ¬ Large n
  · constructor
    · rintro ⟨accepts, zero⟩
      exact .inr (.inr ⟨some_bare, .inr (zero (accepts.mpr ⟨some_bare, small⟩) some_bare)⟩)
    · intro strict
      have zero : ∀ n ∈ loose, n.toULong = 0 := by
        rcases strict with none | ⟨none, -⟩ | ⟨-, ⟨n, mem, large⟩ | zero⟩
        · exact absurd none some_loose
        · exact absurd none some_bare
        · exact absurd large (small n mem)
        · exact zero
      refine ⟨iff_of_true ⟨by simp [some_bare], fun n mem => ?_⟩ ⟨some_bare, small⟩, fun _ _ => zero⟩
      rcases List.mem_append.mp mem with mem | mem
      · exact small n mem
      · rw [Large, zero n mem]
        decide
  · have large : ∃ n ∈ bare, Large n := by simpa using small
    have refused : ¬ (bare ++ loose ≠ [] ∧ ∀ n ∈ bare ++ loose, ¬ Large n) :=
      fun good => small fun n mem => good.2 n (List.mem_append_left _ mem)
    exact iff_of_true ⟨iff_of_false refused fun both => small both.2, fun good => absurd good refused⟩
      (.inr (.inr ⟨some_bare, .inl large⟩))

/-- **A version is parsed as written exactly when** what is read with a blank or a sign makes no
difference. -/
theorem parse_faithful_iff (v : Version) (str : CString) : Faithful v str ↔ Strict str.text := by
  have all := bare_loose str.text
  have unchanged : (parse v str).1 = false → (parse v str).2 = v := by
    rw [parse_eq]
    split
    · nofun
    · exact fun _ => rfl
  have parsed : (parse v str).1 = true →
      (parse v str).2 = ofNumbers ((numbers str.text).map fun n => n.toULong.toNat) := by
    intro accepted
    rw [parse_eq, if_pos (parse_accepts_iff.mp accepted)]
  have faithful : Faithful v str ↔
      ((numbers str.text ≠ [] ∧ ∀ n ∈ numbers str.text, ¬ Large n) ↔
        bareNumbers str.text ≠ [] ∧ ∀ n ∈ bareNumbers str.text, ¬ Large n) ∧
      ((numbers str.text ≠ [] ∧ ∀ n ∈ numbers str.text, ¬ Large n) → bareNumbers str.text ≠ [] →
        ∀ n ∈ looseNumbers str.text, n.toULong = 0) := by
    constructor
    · rintro ⟨accepts, result, -⟩
      rw [core_accepts_iff, parse_accepts_iff] at accepts
      refine ⟨accepts, fun good some => ?_⟩
      have accepted : (parse v str).1 = true := parse_accepts_iff.mpr good
      have longest := isLongestCore_iff.mpr ⟨by rwa [bareParts_eq, ne_eq, List.map_eq_nil_iff], rfl⟩
      rw [← numbers_version good.2, ← parsed accepted]
      exact result accepted _ longest
    · rintro ⟨accepts, zero⟩
      refine ⟨by rw [core_accepts_iff, parse_accepts_iff, accepts], fun accepted parts longest => ?_, unchanged⟩
      obtain ⟨some, rfl⟩ := isLongestCore_iff.mp longest
      have good := parse_accepts_iff.mp accepted
      rw [parsed accepted, numbers_version good.2]
      exact zero good (by rwa [bareParts_eq, ne_eq, List.map_eq_nil_iff] at some)
  rw [faithful, Strict, all]
  exact strict_iff

/-- A negative number is accepted as 1, and a number after a blank is read. -/
theorem not_faithful : ¬ Faithful ⟨7, 7, 7⟩ ⟨"-4294967295".toList, by decide⟩ ∧
    ¬ Faithful ⟨7, 7, 7⟩ ⟨"1. 2".toList, by decide⟩ := by
  constructor
  · intro faithful
    have accepted := faithful.accepts.mp (by decide)
    rw [core_accepts_iff] at accepted
    exact absurd accepted.1 (by decide)
  · intro faithful
    have one : IsLongestCore "1. 2".toList [['1']] := isLongestCore_iff.mpr (by decide)
    exact absurd (faithful.result (by decide) _ one) (by decide)

/-! ## Printing -/

/-- `version_to_str::size_`. -/
def textSize : Nat := "65535.65535.65535".length

/-- The text of `"%u.%u.%u"`. -/
def print (v : Version) : List Char :=
  Nat.toDigits 10 v.major.toNat ++ '.' :: (Nat.toDigits 10 v.minor.toNat ++ '.' :: Nat.toDigits 10 v.patch.toNat)

theorem print_terminated (v : Version) : CString.nul ∉ v.print := by
  have digits : ∀ n, CString.nul ∉ Nat.toDigits 10 n := fun n mem =>
    absurd (Nat.isDigit_of_mem_toDigits (by decide) (by decide) mem) (by decide)
  have dot : CString.nul ≠ '.' := by decide
  simp [print, digits, dot]

/-- `snprintf`: what it returns, and the string in a buffer of `size` characters. -/
def snprintf (size : Nat) (v : Version) : Int × CString :=
  (v.print.length, ⟨v.print.take (size - 1), fun mem => v.print_terminated (List.mem_of_mem_take mem)⟩)

/-- `version_to_str`: the string in its buffer of `size_ + 1` characters. -/
def versionToStr (v : Version) : CString :=
  let (n, buf) := snprintf (textSize + 1) v
  if n < 0 then ⟨"<none>".toList, by decide⟩ else buf

theorem component_length (c : BitVec 16) : (Nat.toDigits 10 c.toNat).length ≤ 5 :=
  (Nat.length_toDigits_le_iff (by decide) (by decide)).mpr (Nat.lt_trans c.isLt (by decide))

theorem print_length (v : Version) : v.print.length ≤ textSize := by
  have major := component_length v.major
  have minor := component_length v.minor
  have patch := component_length v.patch
  have size : textSize = 17 := by decide
  simp only [print, List.length_append, List.length_cons, size]
  omega

/-- No text is truncated. -/
theorem versionToStr_text (v : Version) : (versionToStr v).text = v.print := by
  rw [versionToStr, snprintf]
  dsimp only
  rw [if_neg (by omega)]
  exact List.take_of_length_le v.print_length

/-- A printed component is read again. -/
theorem read_component (c : BitVec 16) {rest : List Char} (stops : ∀ c', rest.head? = some c' → ¬ c'.isDigit) :
    ∃ n, Numeral.read (Nat.toDigits 10 c.toNat ++ rest) = some n ∧ n.rest = rest ∧ ¬ Large n ∧
      n.toULong.toNat = c.toNat := by
  have digit : ∀ c' ∈ Nat.toDigits 10 c.toNat, c'.isDigit := fun c' =>
    Nat.isDigit_of_mem_toDigits (by decide) (by decide)
  refine ⟨_, Numeral.read_digits digit Nat.toDigits_ne_nil stops, rfl, ?_⟩
  have value : valueOf (Nat.toDigits 10 c.toNat) = c.toNat := Nat.ofDigitChars_ten_toDigits
  have bare := bare_large (n := ⟨[], .none, _, rest, List.forall_mem_nil _, digit, Nat.toDigits_ne_nil, stops⟩) ⟨rfl, rfl⟩
  have bound := c.isLt
  have small := bare.1.mpr (by dsimp only; omega)
  exact ⟨small, (bare.2 small).trans value⟩

/-- **A printed version is parsed again**, whatever other text follows it. -/
theorem parse_versionToStr (v previous : Version) (suffix : CString)
    (tag : ∀ c, suffix.text.head? = some c → ¬ c.isDigit) :
    parse previous ((versionToStr v).append suffix) = (true, v) ∧ (versionToStr v).text = v.print ∧
      v.print.length ≤ textSize := by
  refine ⟨?_, versionToStr_text v, v.print_length⟩
  have dot : ∀ s c, ('.' :: s).head? = some c → ¬ c.isDigit := by
    rintro s c head
    cases head
    decide
  obtain ⟨patch, reads_patch, patch_rest, patch_small, patch_value⟩ := read_component v.patch tag
  obtain ⟨minor, reads_minor, minor_rest, minor_small, minor_value⟩ :=
    read_component v.minor (dot (Nat.toDigits 10 v.patch.toNat ++ suffix.text))
  obtain ⟨major, reads_major, major_rest, major_small, major_value⟩ := read_component v.major
    (dot (Nat.toDigits 10 v.minor.toNat ++ '.' :: (Nat.toDigits 10 v.patch.toNat ++ suffix.text)))
  have text : ((versionToStr v).append suffix).text = Nat.toDigits 10 v.major.toNat ++
      '.' :: (Nat.toDigits 10 v.minor.toNat ++ '.' :: (Nat.toDigits 10 v.patch.toNat ++ suffix.text)) := by
    show (versionToStr v).text ++ suffix.text = _
    rw [versionToStr_text, print]
    simp only [List.append_assoc, List.cons_append]
  have read : numbers ((versionToStr v).append suffix).text = [major, minor, patch] := by
    rw [text, numbers, series_succ reads_major, major_rest, afterChar_self]
    dsimp only
    rw [series_succ reads_minor, minor_rest, afterChar_self]
    dsimp only
    rw [series_succ reads_patch]
    cases afterChar '.' patch.rest <;> rfl
  rw [parse_eq, read, if_pos ⟨List.cons_ne_nil _ _, by simp [major_small, minor_small, patch_small]⟩]
  simp [ofNumbers, major_value, minor_value, patch_value]

/-- `9.1.1_rc`. -/
theorem parse_versionToStr_rc : parse ⟨2, 3, 4⟩ ((versionToStr ⟨9, 1, 1⟩).append ⟨"_rc".toList, by decide⟩) =
    (true, ⟨9, 1, 1⟩) :=
  (parse_versionToStr ⟨9, 1, 1⟩ ⟨2, 3, 4⟩ ⟨"_rc".toList, by decide⟩ (by
    intro c head
    cases head
    decide)).1

end Version

end OcsComponents.Core
