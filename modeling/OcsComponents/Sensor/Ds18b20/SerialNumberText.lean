import OcsComponents.Algo.SplitView
import OcsComponents.Sensor.Ds18b20.ParseConfiguration

/-!
# Serial numbers in texts

What `serial_number_to_str` prints `parse_configuration` reads back, in capitals or not. Cut out
of a longer text, a serial number is parsed as it would be alone, unless the rest has a `:`.
-/

namespace OcsComponents.Sensor.Ds18b20
open Status OcsComponents.OneWire OcsComponents.Algo WhileLoop

/-! ## What is printed -/

theorem map_intercalate (f : Char → Char) (separator : Char) (parts : List (List Char)) :
    ([separator].intercalate parts).map f = [f separator].intercalate (parts.map (List.map f)) := by
  induction parts with
  | nil => rfl
  | cons part parts ih =>
    cases parts with
    | nil => simp
    | cons next parts =>
      rw [List.intercalate_cons_cons, List.map_append, List.map_append, ih]
      simp [List.intercalate_cons_cons]

theorem mem_intercalate {c separator : Char} {parts : List (List Char)} (mem : c ∈ [separator].intercalate parts) :
    c = separator ∨ ∃ part ∈ parts, c ∈ part := by
  induction parts with
  | nil => cases mem
  | cons part parts ih =>
    cases parts with
    | nil => exact .inr ⟨part, by simp, by simpa using mem⟩
    | cons next parts =>
      rw [List.intercalate_cons_cons, List.mem_append, List.mem_append, List.mem_singleton] at mem
      rcases mem with (mem | mem) | mem
      · exact .inr ⟨part, by simp, mem⟩
      · exact .inl mem
      · rcases ih mem with same | ⟨part', mem', inside⟩
        · exact .inl same
        · exact .inr ⟨part', List.mem_cons_of_mem _ mem', inside⟩

theorem IsByte.printed (byte : BitVec 8) : IsByte (hexByte byte).toList byte ∧
    IsByte ((hexByte byte).toList.map Char.toLower) byte := by
  have bound := byte.isLt
  have value : byte.toNat = 16 * (byte.toNat / 16) + byte.toNat % 16 := by omega
  obtain ⟨hi, hi'⟩ := hexValue_digitChar (byte.toNat / 16) (by omega)
  obtain ⟨lo, lo'⟩ := hexValue_digitChar (byte.toNat % 16) (by omega)
  rw [hexByte, String.toList_ofList]
  exact ⟨⟨_, _, _, _, rfl, hi, lo, value⟩, ⟨_, _, _, _, rfl, hi', lo', value⟩⟩

theorem printed_text (bytes : List (BitVec 8)) :
    (serialNumberToStr bytes).toList = [':'].intercalate (bytes.map fun byte => (hexByte byte).toList) := by
  rw [serialNumberToStr, String.toList_intercalate, List.map_map]
  rfl

theorem isSerial_printed {bytes : List (BitVec 8)} (length : bytes.length = 6) :
    IsSerial (serialNumberToStr bytes).toList bytes ∧ IsSerial ((serialNumberToStr bytes).toList.map Char.toLower) bytes := by
  rw [printed_text, map_intercalate, List.map_map]
  refine ⟨⟨_, rfl, by rw [List.length_map, length], ?_⟩, ⟨_, rfl, by rw [List.length_map, length], ?_⟩⟩
  · rw [List.forall₂_map_left_iff, List.forall₂_same]
    exact fun byte _ => (IsByte.printed byte).1
  · rw [List.forall₂_map_left_iff, List.forall₂_same]
    exact fun byte _ => (IsByte.printed byte).2

theorem IsSerial.terminated {text : List Char} {bytes : List (BitVec 8)} (is : IsSerial text bytes) :
    CString.nul ∉ text := by
  obtain ⟨pairs, shaped, each, -⟩ := is.shaped
  rw [shaped.text]
  intro mem
  rcases mem_intercalate mem with same | ⟨pair, mem, inside⟩
  · cases same
  · obtain ⟨byte, is⟩ := each pair mem
    exact is.digits _ inside rfl

/-- A serial number is printed in capitals. -/
theorem IsSerial.print {text : List Char} {bytes : List (BitVec 8)} (is : IsSerial text bytes) :
    (serialNumberToStr bytes).toList = text.map Char.toUpper := by
  obtain ⟨pairs, rfl, -, all⟩ := is
  have same : bytes.map (fun byte => (hexByte byte).toList) = pairs.map (List.map Char.toUpper) := by
    rw [← List.forall₂_eq_eq_eq, List.forall₂_map_left_iff, List.forall₂_map_right_iff]
    exact (all.imp fun pair byte is => is.print).flip
  rw [printed_text, map_intercalate, same]
  rfl

theorem IsSerial.parses (configuration : Configuration) {serialNumber resolution : CString} {bytes : List (BitVec 8)}
    {r : Resolution} (is : IsSerial serialNumber.text bytes) (named : Names resolution.text r) :
    ∃ parsed, Gives (parseConfiguration configuration (.ofCString serialNumber) (.ofCString resolution)) (.ok, parsed) ∧
      parsed.romCode.serialNumber = bytes ∧ parsed.resolution = r := by
  obtain ⟨code, parsed, gives, ok_iff, names, read⟩ := parseConfiguration_cases configuration serialNumber resolution
  obtain ⟨pairs, shaped, -, rfl⟩ := is.shaped
  obtain rfl := ok_iff.mpr ⟨⟨pairs, shaped⟩, r, named⟩
  have some {r : Resolution} (named : Names resolution.text r) : r ≠ .none := by
    rintro rfl
    simp [Names] at named
  refine ⟨parsed, gives, read pairs shaped, ?_⟩
  rw [← (names_iff (some named)).mp named, (names_iff (some (names rfl))).mp (names rfl)]

/-- `serial_number_to_str::c_str()` -/
def printed (serialNumber : Vector (BitVec 8) 6) : CString :=
  ⟨(serialNumberToStr serialNumber.toList).toList, (isSerial_printed (by simp)).1.terminated⟩

/-- The same in lower case. -/
def lowered (serialNumber : Vector (BitVec 8) 6) : CString :=
  ⟨(serialNumberToStr serialNumber.toList).toList.map Char.toLower, (isSerial_printed (by simp)).2.terminated⟩

/-- **A serial number that is printed is read back**, and printed again as it was. -/
theorem parse_printed (configuration : Configuration) (serialNumber : Vector (BitVec 8) 6) {resolution : CString}
    {r : Resolution} (named : Names resolution.text r) : ∀ text ∈ [printed serialNumber, lowered serialNumber], ∃ parsed,
      Gives (parseConfiguration configuration (.ofCString text) (.ofCString resolution)) (.ok, parsed) ∧
      parsed.romCode.serialNumber = serialNumber.toList ∧ parsed.resolution = r ∧
      (serialNumberToStr parsed.romCode.serialNumber).toList = text.text.map Char.toUpper := by
  intro text mem
  have is : IsSerial text.text serialNumber.toList := by
    obtain ⟨upper, lower⟩ := isSerial_printed (by simp : serialNumber.toList.length = 6)
    rcases List.mem_pair.mp mem with rfl | rfl
    · exact upper
    · exact lower
  obtain ⟨parsed, gives, read, rfl⟩ := is.parses configuration named
  exact ⟨parsed, gives, read, rfl, read ▸ is.print⟩

theorem parse_printed_one : ∃ parsed,
    Gives (parseConfiguration .new (.ofCString (lowered #v[0x00, 0x0A, 0xBC, 0x1F, 0x90, 0xFF]))
      (.ofCString ⟨['1', '2'], by decide⟩)) (.ok, parsed) ∧
    parsed.romCode.serialNumber = [0x00, 0x0A, 0xBC, 0x1F, 0x90, 0xFF] ∧ parsed.resolution = .bit12 := by
  have named : Names (⟨['1', '2'], by decide⟩ : CString).text .bit12 := by decide
  obtain ⟨parsed, gives, read, resolution, -⟩ := parse_printed .new #v[0x00, 0x0A, 0xBC, 0x1F, 0x90, 0xFF] named _
    (List.mem_cons_of_mem _ (List.mem_singleton_self _))
  exact ⟨parsed, gives, read, resolution⟩

/-! ## A part of a URI -/

section
variable {v v' : StringView} {d : Char}

theorem parsePieces_congr (same : v.text = v'.text) {values : StringOps.Values}
    (inside : ∀ piece ∈ values, StringOps.Inside v piece) (n : Nat) (serialNumber : List (BitVec 8)) :
    parsePieces v n values serialNumber = parsePieces v' n values serialNumber := by
  have size : v.size = v'.size := by rw [← v.text_length, same, v'.text_length]
  have read {i : Nat} (lt : i < v.size) : v.memory.getD i CString.nul = v'.memory.getD i CString.nul := by
    rw [List.getD_eq_getElem?_getD, List.getD_eq_getElem?_getD, ← StringView.text_getElem? lt, same,
      StringView.text_getElem? (size ▸ lt)]
  induction values generalizing n serialNumber with
  | nil => rfl
  | cons piece rest ih =>
    obtain ⟨first, rest_inside⟩ := List.forall_mem_cons.mp inside
    rw [parsePieces, parsePieces]
    split
    · rfl
    · next two =>
      have fits := first.2
      rw [not_not.mp two] at fits
      rw [read (by omega), read (by omega)]
      exact ih rest_inside _ _

theorem parseSerialNumber_congr (same : v.text = v'.text) (tight : ¬ StringOps.Leaks ':' v) (tight' : ¬ StringOps.Leaks ':' v')
    (serialNumber : List (BitVec 8)) : parseSerialNumber serialNumber v = parseSerialNumber serialNumber v' := by
  have size : v.size = v'.size := by rw [← v.text_length, same, v'.text_length]
  have split := StringOps.split_congr (by decide) same tight tight'
  obtain ⟨values, gives, inside⟩ := StringOps.split_tight (by decide) tight
  funext fuel
  rw [parseSerialNumber, parseSerialNumber, ← split, size]
  split
  · rfl
  · cases ends : StringOps.split ':' v fuel with
    | none => rfl
    | some values' =>
      obtain rfl := gives.2 fuel values' ends
      simp only [Option.map_some, parsePieces_congr same inside]

/-- **`split`, and with it `parse_serial_number`, looks at its view only if and only if it does not leak.** -/
theorem only_view_iff (char : d ≠ CString.nul) (same : v.text = v'.text) :
    ((∃ values, Gives (StringOps.split d v) values ∧ Gives (StringOps.split d v') values ∧
        ∀ piece ∈ values, StringOps.Inside v piece) ∧
      (d = ':' → ∀ serialNumber, parseSerialNumber serialNumber v = parseSerialNumber serialNumber v')) ↔
    ¬ StringOps.Leaks d v ∧ ¬ StringOps.Leaks d v' := by
  rw [← StringOps.split_inside_iff char same]
  refine ⟨And.left, fun inside => ⟨inside, ?_⟩⟩
  rintro rfl serialNumber
  obtain ⟨tight, tight'⟩ := (StringOps.split_inside_iff char same).mp inside
  exact parseSerialNumber_congr same tight tight' serialNumber

end

/-- A serial number alone. -/
def alone : StringView :=
  .ofCString ⟨['A', 'A', ':', 'B', 'B', ':', 'C', 'C', ':', 'D', 'D', ':', 'E', 'E', ':', 'F', 'F'], by decide⟩

/-- The same as a value in a query that goes on. -/
def inQuery (rest : List Char) : StringView where
  memory := alone.text ++ (rest ++ [CString.nul])
  size := 17
  terminated := by
    have length : alone.text.length = 17 := rfl
    rw [List.drop_append_of_le_length (by omega)]
    simp

theorem only_view_iff_query :
    (∃ values, Gives (StringOps.split ':' alone) values ∧ Gives (StringOps.split ':' (inQuery ['&', 'a', '='])) values ∧
        ∀ piece ∈ values, StringOps.Inside alone piece) ∧
      parseSerialNumber [0, 0, 0, 0, 0, 0] alone = parseSerialNumber [0, 0, 0, 0, 0, 0] (inQuery ['&', 'a', '=']) := by
  have same : alone.text = (inQuery ['&', 'a', '=']).text := by decide
  have inside := (only_view_iff (d := ':') (by decide) same).mpr ⟨by decide, by decide⟩
  exact ⟨inside.1, inside.2 rfl _⟩

/-- A `:` in the rest of the query takes the last piece with it. -/
theorem not_only_view : ¬ ∀ (d : Char) (v v' : StringView), d ≠ CString.nul → v.text = v'.text →
    (∃ values, Gives (StringOps.split d v) values ∧ Gives (StringOps.split d v') values ∧
      ∀ piece ∈ values, StringOps.Inside v piece) := by
  intro only
  have same : alone.text = (inQuery ['&', 'a', '=', ':']).text := by decide
  have tight := (StringOps.split_inside_iff (d := ':') (by decide) same).mp (only ':' _ _ (by decide) same)
  exact tight.2 (by decide)

end OcsComponents.Sensor.Ds18b20
