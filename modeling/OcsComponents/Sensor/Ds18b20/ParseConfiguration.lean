import Mathlib.Data.List.Forall2
import OcsComponents.Algo.StringOps
import OcsComponents.Sensor.Ds18b20.Sensor

/-!
# The configuration of a sensor as text

`ocs_sensor/ds18b20/parse_configuration.cpp`. A serial number is six pieces of two characters,
and `parse_hex` takes any two for digits: so what is accepted is more than the grammar
(`Shaped` against `IsSerial`).
-/

namespace OcsComponents.Sensor.Ds18b20
open Status OcsComponents.OneWire OcsComponents.Algo WhileLoop

def parseResolution (str : List Char) : Resolution :=
  if str = ['1', '2'] then .bit12
  else if str = ['1', '1'] then .bit11
  else if str = ['1', '0'] then .bit10
  else if str = ['9'] then .bit9
  else .none

/-- One digit in `parse_hex`, in `int`. -/
def hexDigit (c : Char) : BitVec 32 :=
  if c.isDigit then BitVec.ofNat 32 c.toNat - BitVec.ofNat 32 '0'.toNat
  else BitVec.ofNat 32 c.toLower.toNat - BitVec.ofNat 32 'a'.toNat + 10

def parseHex (hi lo : Char) : BitVec 8 := (hexDigit hi <<< 4 ||| hexDigit lo).setWidth 8

/-- `DS_SENSOR_SERIAL_NUMBER_LEN` -/
def serialNumberLen : Nat := 6

/-- `serial_number_to_str::str_length` -/
def strLength : Nat := 17

/-- The loop of `parse_serial_number`, from byte `n` on. -/
def parsePieces (str : StringView) : Nat → StringOps.Values → List (BitVec 8) → Bool × List (BitVec 8)
  | _, [], serialNumber => (true, serialNumber)
  | n, piece :: rest, serialNumber =>
    if piece.size ≠ 2 then (false, serialNumber)
    else
      let byte := parseHex (str.memory.getD piece.data CString.nul) (str.memory.getD (piece.data + 1) CString.nul)
      parsePieces str (n + 1) rest (serialNumber.set n byte)

/-- `parse_serial_number`, with an allowance for `split`. -/
def parseSerialNumber (serialNumber : List (BitVec 8)) (str : StringView) (fuel : Nat) : Option (Bool × List (BitVec 8)) :=
  if str.size ≠ strLength then some (false, serialNumber)
  else (StringOps.split ':' str fuel).map fun values =>
    if values.length ≠ serialNumberLen then (false, serialNumber) else parsePieces str 0 values serialNumber

/-- What `parse_configuration` does with the answer of `parse_serial_number`. -/
def configure (configuration : Configuration) (resolution : StringView) : Bool × List (BitVec 8) → StatusCode × Configuration
  | (parsed, bytes) =>
    let configuration := { configuration with romCode := configuration.romCode.setSerialNumber bytes }
    if !parsed then (.invalidArg, configuration)
    else
      let configuration := { configuration with resolution := parseResolution resolution.text }
      if configuration.resolution = .none then (.invalidArg, configuration) else (.ok, configuration)

/-- `parse_configuration` -/
def parseConfiguration (configuration : Configuration) (serialNumber resolution : StringView) (fuel : Nat) :
    Option (StatusCode × Configuration) :=
  (parseSerialNumber configuration.romCode.serialNumber serialNumber fuel).map (configure configuration resolution)

/-! ## The grammar -/

/-- The value of a hexadecimal digit. -/
def hexValue (c : Char) : Option Nat :=
  if c.isDigit then some (c.toNat - '0'.toNat)
  else if 'a' ≤ c ∧ c ≤ 'f' then some (c.toNat - 'a'.toNat + 10)
  else if 'A' ≤ c ∧ c ≤ 'F' then some (c.toNat - 'A'.toNat + 10)
  else none

/-- Two digits and their value. -/
def IsByte (pair : List Char) (byte : BitVec 8) : Prop :=
  ∃ hi lo h l, pair = [hi, lo] ∧ hexValue hi = some h ∧ hexValue lo = some l ∧ byte.toNat = 16 * h + l

/-- `HH:HH:HH:HH:HH:HH`, and its bytes. -/
def IsSerial (text : List Char) (bytes : List (BitVec 8)) : Prop :=
  ∃ pairs, text = [':'].intercalate pairs ∧ pairs.length = 6 ∧ List.Forall₂ IsByte pairs bytes

/-- The name of a resolution. -/
def Names (text : List Char) (resolution : Resolution) : Prop :=
  (text, resolution) ∈ [(['9'], Resolution.bit9), (['1', '0'], .bit10), (['1', '1'], .bit11), (['1', '2'], .bit12)]

instance (text : List Char) (resolution : Resolution) : Decidable (Names text resolution) :=
  inferInstanceAs (Decidable (_ ∈ _))

theorem names_iff {text : List Char} {resolution : Resolution} (some : resolution ≠ .none) :
    Names text resolution ↔ parseResolution text = resolution := by
  unfold Names parseResolution
  constructor
  · intro mem
    simp only [List.mem_cons, Prod.mk.injEq, List.not_mem_nil, or_false] at mem
    rcases mem with ⟨rfl, rfl⟩ | ⟨rfl, rfl⟩ | ⟨rfl, rfl⟩ | ⟨rfl, rfl⟩ <;> rfl
  · rintro rfl
    split at some
    · next name => simp [name]
    · split at some
      · next name => simp [name]
      · split at some
        · next name => simp [name]
        · split at some
          · next name => simp [name]
          · exact absurd rfl some

/-! ## Digits -/

def hexDigits : List Char :=
  ['0', '1', '2', '3', '4', '5', '6', '7', '8', '9', 'a', 'b', 'c', 'd', 'e', 'f', 'A', 'B', 'C', 'D', 'E', 'F']

theorem mem_hexDigits {c : Char} {h : Nat} (value : hexValue c = some h) : c ∈ hexDigits := by
  have self : c = Char.ofNat c.toNat := (Char.ofNat_toNat c).symm
  have range (low high : Nat) (le : low ≤ c.toNat) (ge : c.toNat ≤ high)
      (all : ∀ n < high + 1, low ≤ n → Char.ofNat n ∈ hexDigits) : c ∈ hexDigits := by
    rw [self]
    exact all _ (by omega) le
  unfold hexValue at value
  split at value
  · next digit =>
    rw [Char.isDigit, Bool.and_eq_true, decide_eq_true_eq, decide_eq_true_eq] at digit
    exact range 48 57 digit.1 digit.2 (by decide)
  · split at value
    · next small => exact range 97 102 small.1 small.2 (by decide)
    · split at value
      · next capital => exact range 65 70 capital.1 capital.2 (by decide)
      · cases value

/-- What the parser and the printer make of a digit. -/
theorem hexValue_spec {c : Char} {h : Nat} (value : hexValue c = some h) :
    h < 16 ∧ hexDigit c = BitVec.ofNat 32 h ∧ (Nat.digitChar h).toUpper = c.toUpper ∧ c ≠ ':' := by
  have all : hexDigits.all fun c => (hexValue c).all fun h =>
      decide (h < 16 ∧ hexDigit c = BitVec.ofNat 32 h ∧ (Nat.digitChar h).toUpper = c.toUpper ∧ c ≠ ':') := by decide
  have here := List.all_eq_true.mp all c (mem_hexDigits value)
  rw [value, Option.all_some] at here
  exact of_decide_eq_true here

/-- A printed digit. -/
theorem hexValue_digitChar : ∀ h < 16, hexValue (Nat.digitChar h).toUpper = some h ∧
    hexValue (Nat.digitChar h).toUpper.toLower = some h := by decide

theorem digits_toNat : ∀ h < 16, ∀ l < 16,
    ((BitVec.ofNat 32 h <<< 4 ||| BitVec.ofNat 32 l).setWidth 8).toNat = 16 * h + l := by decide

theorem IsByte.parse {pair : List Char} {byte : BitVec 8} (is : IsByte pair byte) :
    ∃ hi lo, pair = [hi, lo] ∧ hi ≠ ':' ∧ lo ≠ ':' ∧ parseHex hi lo = byte := by
  obtain ⟨hi, lo, h, l, rfl, hiValue, loValue, value⟩ := is
  obtain ⟨hBound, hDigit, -, hi_ne⟩ := hexValue_spec hiValue
  obtain ⟨lBound, lDigit, -, lo_ne⟩ := hexValue_spec loValue
  refine ⟨hi, lo, rfl, hi_ne, lo_ne, ?_⟩
  rw [parseHex, hDigit, lDigit]
  apply BitVec.eq_of_toNat_eq
  rw [value]
  exact digits_toNat h hBound l lBound

theorem IsByte.print {pair : List Char} {byte : BitVec 8} (is : IsByte pair byte) :
    (hexByte byte).toList = pair.map Char.toUpper := by
  obtain ⟨hi, lo, h, l, rfl, hiValue, loValue, value⟩ := is
  obtain ⟨hBound, -, hPrint, -⟩ := hexValue_spec hiValue
  obtain ⟨lBound, -, lPrint, -⟩ := hexValue_spec loValue
  rw [hexByte, String.toList_ofList, value, show (16 * h + l) / 16 = h by omega, show (16 * h + l) % 16 = l by omega,
    hPrint, lPrint]
  rfl

/-- Six pairs of characters, digits or not. -/
structure Shaped (text : List Char) (pairs : List (List Char)) : Prop where
  text : text = [':'].intercalate pairs
  length : pairs.length = 6
  pairs : ∀ pair ∈ pairs, pair.length = 2 ∧ ':' ∉ pair

/-- The byte made of a pair. -/
def parsePair (pair : List Char) : BitVec 8 := parseHex (pair.getD 0 CString.nul) (pair.getD 1 CString.nul)

theorem Shaped.cases {text : List Char} {pairs : List (List Char)} (shaped : Shaped text pairs) :
    ∃ a a' b b' c c' d d' e e' f f', pairs = [[a, a'], [b, b'], [c, c'], [d, d'], [e, e'], [f, f']] := by
  obtain ⟨-, length, all⟩ := shaped
  match pairs, length, all with
  | [a, b, c, d, e, f], _, all =>
    simp only [List.mem_cons, List.not_mem_nil, or_false, forall_eq_or_imp, forall_eq, List.length_eq_two] at all
    obtain ⟨⟨⟨a, a', rfl⟩, -⟩, ⟨⟨b, b', rfl⟩, -⟩, ⟨⟨c, c', rfl⟩, -⟩, ⟨⟨d, d', rfl⟩, -⟩, ⟨⟨e, e', rfl⟩, -⟩, ⟨f, f', rfl⟩, -⟩ := all
    exact ⟨a, a', b, b', c, c', d, d', e, e', f, f', rfl⟩

theorem parseSerialNumber_eq {str : StringView} (serialNumber : List (BitVec 8)) (size : str.size = strLength) :
    parseSerialNumber serialNumber str = fun fuel => (StringOps.split ':' str fuel).map fun values =>
      if values.length ≠ serialNumberLen then (false, serialNumber) else parsePieces str 0 values serialNumber := by
  funext fuel
  exact if_neg (not_not.mpr size)

theorem Shaped.unique {text : List Char} {pairs pairs' : List (List Char)} (shaped : Shaped text pairs)
    (shaped' : Shaped text pairs') : pairs = pairs' := by
  have split {pairs : List (List Char)} (shaped : Shaped text pairs) : text.splitOn ':' = pairs := by
    rw [shaped.text]
    apply List.splitOn_intercalate
    · exact fun pair mem => (shaped.pairs pair mem).2
    · apply List.ne_nil_of_length_pos
      rw [shaped.length]
      decide
  rw [← split shaped, split shaped']

/-- Six pairs are split. -/
theorem Shaped.split {s : CString} {pairs : List (List Char)} (shaped : Shaped s.text pairs) :
    Gives (StringOps.split ':' (.ofCString s)) [⟨0, 2⟩, ⟨3, 2⟩, ⟨6, 2⟩, ⟨9, 2⟩, ⟨12, 2⟩, ⟨15, 2⟩] := by
  have gives := StringOps.split_gives (d := ':') s (by decide)
  obtain ⟨a, a', b, b', c, c', d, d', e, e', f, f', rfl⟩ := shaped.cases
  have clean := fun pair mem => (shaped.pairs pair mem).2
  simp only [List.mem_cons, List.not_mem_nil, or_false, forall_eq_or_imp, forall_eq] at clean
  obtain ⟨a_clean, b_clean, c_clean, d_clean, e_clean, f_clean⟩ := clean
  have text : s.text = [a, a'] ++ ':' :: ([b, b'] ++ ':' :: ([c, c'] ++ ':' :: ([d, d'] ++ ':' :: ([e, e'] ++ ':' ::
    [f, f'])))) := shaped.text
  have prompt := StringOps.not_late (d := ':') ([b, b'] ++ ':' :: ([c, c'] ++ ':' :: ([d, d'] ++ ':' :: ([e, e'] ++ ':' ::
    [f, f'])))) (by simpa using a_clean) (List.cons_ne_nil a [a'])
  rw [text, StringOps.result, if_neg (by simp), if_neg fun dropped => prompt dropped.2] at gives
  rw [StringOps.piecesFrom_append _ _ (by simpa using a_clean), StringOps.piecesFrom_append _ _ (by simpa using b_clean),
    StringOps.piecesFrom_append _ _ (by simpa using c_clean), StringOps.piecesFrom_append _ _ (by simpa using d_clean),
    StringOps.piecesFrom_append _ _ (by simpa using e_clean),
    StringOps.piecesFrom_whole _ (by simpa using f_clean) (List.cons_ne_nil f [f'])] at gives
  exact gives

/-- Six pairs are accepted, whatever their characters. -/
theorem Shaped.gives {s : CString} {pairs : List (List Char)} (shaped : Shaped s.text pairs)
    {serialNumber : List (BitVec 8)} (length : serialNumber.length = 6) :
    Gives (parseSerialNumber serialNumber (.ofCString s)) (true, pairs.map parsePair) := by
  have split := shaped.split
  obtain ⟨a, a', b, b', c, c', d, d', e, e', f, f', rfl⟩ := shaped.cases
  match serialNumber, length with
  | [b₀, b₁, b₂, b₃, b₄, b₅], _ =>
  have text : s.text = [a, a', ':', b, b', ':', c, c', ':', d, d', ':', e, e', ':', f, f'] := shaped.text
  have size : (StringView.ofCString s).size = strLength := by
    show s.text.length = strLength
    rw [text]
    rfl
  have memory : (StringView.ofCString s).memory =
      [a, a', ':', b, b', ':', c, c', ':', d, d', ':', e, e', ':', f, f', CString.nul] := by
    show s.buffer = _
    rw [CString.buffer, text]
    rfl
  rw [parseSerialNumber_eq _ size]
  have result := split.map fun values =>
    if values.length ≠ serialNumberLen then (false, [b₀, b₁, b₂, b₃, b₄, b₅])
    else parsePieces (.ofCString s) 0 values [b₀, b₁, b₂, b₃, b₄, b₅]
  simp only [parsePieces, memory] at result ⊢
  exact result

theorem parsePieces_sizes {str : StringView} {n : Nat} {values : StringOps.Values} {serialNumber : List (BitVec 8)}
    (accepted : (parsePieces str n values serialNumber).1 = true) : ∀ piece ∈ values, piece.size = 2 := by
  induction values generalizing n serialNumber with
  | nil => exact nofun
  | cons piece rest ih =>
    rw [parsePieces] at accepted
    split at accepted
    · cases accepted
    · next size =>
      rw [List.forall_mem_cons]
      exact ⟨not_not.mp size, ih accepted⟩

theorem parsePieces_length (str : StringView) (n : Nat) (values : StringOps.Values) (serialNumber : List (BitVec 8)) :
    (parsePieces str n values serialNumber).2.length = serialNumber.length := by
  induction values generalizing n serialNumber with
  | nil => rfl
  | cons piece rest ih =>
    rw [parsePieces]
    split
    · rfl
    · rw [ih, List.length_set]

/-- Every part takes its length and a delimiter, but for the last. -/
theorem sum_splitOn (d : Char) (text : List Char) :
    ((text.splitOn d).map fun part => part.length + 1).sum = text.length + 1 := by
  induction text using UriOps.parts_induction d with
  | whole text whole => simp [List.splitOn_eq_singleton whole]
  | append part more whole ih =>
    rw [List.splitOn_append_cons_self_of_not_mem whole, List.map_cons, List.sum_cons, ih]
    simp
    omega

/-- Parts that are empty are one short of what the length says. -/
theorem sum_filter (parts : List (List Char)) :
    (parts.map fun part => part.length + 1).sum + (parts.filter fun part => part ≠ []).length =
      ((parts.filter fun part => part ≠ []).map fun part => part.length + 1).sum + parts.length := by
  induction parts with
  | nil => rfl
  | cons part parts ih =>
    by_cases empty : part = []
    · simp [empty] at ih ⊢
      omega
    · simp [empty] at ih ⊢
      omega

/-- A text of the right length with six pieces of two characters is six pairs. -/
theorem shaped_of_pieces {text : List Char} (length : text.length = strLength)
    (count : (StringOps.pieces ':' text).length = serialNumberLen)
    (sizes : ∀ piece ∈ StringOps.pieces ':' text, piece.size = 2) : Shaped text (text.splitOn ':') := by
  have lengths := StringOps.piecesFrom_sizes (d := ':') 0 text
  have six : ((text.splitOn ':').filter fun part => part ≠ []).length = 6 := by
    have := congrArg List.length lengths
    rw [List.length_map, List.length_map] at this
    exact this.symm.trans count
  have two : ∀ part ∈ (text.splitOn ':').filter fun part => part ≠ [], part.length = 2 := by
    intro part mem
    have mem' : (part.length : Int) ∈ (StringOps.pieces ':' text).map View.size := by
      rw [lengths]
      exact List.mem_map_of_mem mem
    obtain ⟨piece, mem', size⟩ := List.mem_map.mp mem'
    rw [sizes piece mem'] at size
    omega
  have sum : (((text.splitOn ':').filter fun part => part ≠ []).map fun part => part.length + 1).sum = 18 := by
    rw [List.map_congr_left fun part mem => by rw [two part mem], List.map_const', List.sum_replicate_nat, six]
  have total := sum_filter (text.splitOn ':')
  rw [sum_splitOn, length, strLength, six, sum] at total
  have full : (text.splitOn ':').filter (fun part => part ≠ []) = text.splitOn ':' := by
    apply List.filter_sublist.eq_of_length
    omega
  rw [full] at two
  refine ⟨(List.intercalate_splitOn ':').symm, by omega, fun part mem => ⟨two part mem, ?_⟩⟩
  exact StringOps.not_mem_of_mem_splitOn mem

/-- Nothing else is accepted. -/
theorem parseSerialNumber_rejects {s : CString} {serialNumber : List (BitVec 8)} (length : serialNumber.length = 6)
    (misshapen : ¬ ∃ pairs, Shaped s.text pairs) :
    ∃ bytes, Gives (parseSerialNumber serialNumber (.ofCString s)) (false, bytes) ∧ bytes.length = 6 := by
  by_cases size : s.text.length = strLength
  · have long : ¬ s.text.length < 2 := by
      rw [size]
      decide
    have split := StringOps.split_gives (d := ':') s (by decide)
    rw [if_neg long] at split
    have gives := split.map fun values =>
      if values.length ≠ serialNumberLen then (false, serialNumber)
      else parsePieces (.ofCString s) 0 values serialNumber
    rw [← parseSerialNumber_eq _ size] at gives
    by_cases count : (StringOps.result ':' 0 [] s.text).length = serialNumberLen
    · rw [if_neg (not_not.mpr count)] at gives
      have kept := parsePieces_length (.ofCString s) 0 (StringOps.result ':' 0 [] s.text) serialNumber
      cases parses : parsePieces (.ofCString s) 0 (StringOps.result ':' 0 [] s.text) serialNumber with
      | mk parsed bytes =>
        rw [parses] at gives kept
        cases parsed with
        | true =>
          have sizes := parsePieces_sizes (congrArg Prod.fst parses)
          have all : StringOps.result ':' 0 [] s.text = StringOps.pieces ':' s.text := by
            apply if_neg
            intro dropped
            rw [StringOps.result, if_pos dropped] at count
            cases count
          rw [all] at sizes count
          exact absurd ⟨_, shaped_of_pieces size count sizes⟩ misshapen
        | false => exact ⟨bytes, gives, kept.trans length⟩
    · rw [if_pos count] at gives
      exact ⟨serialNumber, gives, length⟩
  · have returns : parseSerialNumber serialNumber (.ofCString s) = fun _ => some (false, serialNumber) := by
      funext fuel
      exact if_pos size
    rw [returns]
    exact ⟨serialNumber, gives_const _, length⟩

/-- **A serial number is accepted** as six pairs of characters, and only so. -/
theorem parseSerialNumber_cases (s : CString) {serialNumber : List (BitVec 8)} (length : serialNumber.length = 6) :
    ∃ parsed bytes, Gives (parseSerialNumber serialNumber (.ofCString s)) (parsed, bytes) ∧ bytes.length = 6 ∧
      (parsed = true ↔ ∃ pairs, Shaped s.text pairs) ∧ ∀ pairs, Shaped s.text pairs → bytes = pairs.map parsePair := by
  by_cases shaped : ∃ pairs, Shaped s.text pairs
  · obtain ⟨pairs, shaped⟩ := shaped
    refine ⟨_, _, shaped.gives length, by rw [List.length_map, shaped.length], ?_, fun pairs' shaped' => ?_⟩
    · exact iff_of_true rfl ⟨pairs, shaped⟩
    · rw [shaped.unique shaped']
  · obtain ⟨bytes, gives, long⟩ := parseSerialNumber_rejects length shaped
    refine ⟨_, _, gives, long, iff_of_false Bool.false_ne_true shaped, ?_⟩
    intro pairs is
    exact absurd ⟨pairs, is⟩ shaped

theorem parse_ne_none {text : List Char} : parseResolution text ≠ .none ↔ ∃ resolution, Names text resolution := by
  constructor
  · exact fun some => ⟨_, (names_iff some).mpr rfl⟩
  · rintro ⟨resolution, names⟩ none
    have some : resolution ≠ .none := by
      rintro rfl
      simp [Names] at names
    exact some (((names_iff some).mp names).symm.trans none)

/-- **A configuration is accepted** with any six pairs and the name of a resolution. -/
theorem parseConfiguration_cases (configuration : Configuration) (serialNumber resolution : CString) :
    ∃ code parsed, Gives (parseConfiguration configuration (.ofCString serialNumber) (.ofCString resolution)) (code, parsed) ∧
      (code = .ok ↔ (∃ pairs, Shaped serialNumber.text pairs) ∧ ∃ r, Names resolution.text r) ∧
      (code = .ok → Names resolution.text parsed.resolution) ∧
      ∀ pairs, Shaped serialNumber.text pairs → parsed.romCode.serialNumber = pairs.map parsePair := by
  obtain ⟨accepted, bytes, gives, length, shaped, bytes_eq⟩ :=
    parseSerialNumber_cases serialNumber configuration.romCode.serialNumber_length
  have result := gives.map (configure configuration (.ofCString resolution))
  have stored : (configuration.romCode.setSerialNumber bytes).serialNumber = bytes := RomCode.serialNumber_set _ length
  cases accepted with
  | false =>
    refine ⟨_, _, result, ?_, nofun, fun pairs is => stored.trans (bytes_eq pairs is)⟩
    exact iff_of_false nofun fun both => Bool.false_ne_true (shaped.mpr both.1)
  | true =>
    have configured : configure configuration (.ofCString resolution) (true, bytes) =
        (if parseResolution resolution.text = .none then .invalidArg else .ok,
          ⟨configuration.romCode.setSerialNumber bytes, parseResolution resolution.text⟩) := by
      simp only [configure, StringView.ofCString_text]
      by_cases named : parseResolution resolution.text = .none
      · rw [if_pos named, if_pos named]
        rfl
      · rw [if_neg named, if_neg named]
        rfl
    rw [configured] at result
    refine ⟨_, _, result, ?_, fun ok => (names_iff ?_).mpr rfl, fun pairs is => stored.trans (bytes_eq pairs is)⟩
    · rw [← parse_ne_none, and_iff_right (shaped.mp rfl)]
      split
      · next unnamed => exact iff_of_false nofun (not_not.mpr unnamed)
      · next named => exact iff_of_true rfl named
    · intro unnamed
      rw [if_pos unnamed] at ok
      cases ok

/-! ## Against the grammar -/

theorem IsByte.pair {pair : List Char} {byte : BitVec 8} (is : IsByte pair byte) :
    pair.length = 2 ∧ ':' ∉ pair ∧ parsePair pair = byte := by
  obtain ⟨hi, lo, rfl, hi_ne, lo_ne, value⟩ := is.parse
  exact ⟨rfl, by simp [hi_ne.symm, lo_ne.symm], value⟩

/-- A serial number is six pairs, and their bytes. -/
theorem IsSerial.shaped {text : List Char} {bytes : List (BitVec 8)} (is : IsSerial text bytes) :
    ∃ pairs, Shaped text pairs ∧ (∀ pair ∈ pairs, ∃ byte, IsByte pair byte) ∧ pairs.map parsePair = bytes := by
  obtain ⟨pairs, text, length, all⟩ := is
  have each : ∀ pair ∈ pairs, ∃ byte, IsByte pair byte := by
    intro pair mem
    obtain ⟨i, inside, rfl⟩ := List.getElem_of_mem mem
    exact ⟨_, all.get inside (all.length_eq ▸ inside)⟩
  refine ⟨pairs, ⟨text, length, fun pair mem => ?_⟩, each, ?_⟩
  · obtain ⟨byte, is⟩ := each pair mem
    exact ⟨is.pair.1, is.pair.2.1⟩
  · rw [← List.forall₂_eq_eq_eq, List.forall₂_map_left_iff]
    exact all.imp fun pair byte is => is.pair.2.2

/-- Six pairs with a character that is not a digit. -/
def Misread (text : List Char) : Prop := ∃ pairs, Shaped text pairs ∧ ∃ pair ∈ pairs, ∃ c ∈ pair, hexValue c = none

/-- What is accepted, and how it is read. -/
def Parses (serialNumber resolution : List Char) (code : StatusCode) (parsed : Configuration) : Prop :=
  (code = .ok ↔ (∃ bytes, IsSerial serialNumber bytes) ∧ ∃ r, Names resolution r) ∧
  (code = .ok → IsSerial serialNumber parsed.romCode.serialNumber ∧ Names resolution parsed.resolution)

theorem isByte_of_digits {pair : List Char} (two : pair.length = 2) (digits : ∀ c ∈ pair, hexValue c ≠ none) :
    IsByte pair (parsePair pair) := by
  obtain ⟨hi, lo, rfl⟩ := List.length_eq_two.mp two
  obtain ⟨h, hiValue⟩ := Option.ne_none_iff_exists'.mp (digits hi (by simp))
  obtain ⟨l, loValue⟩ := Option.ne_none_iff_exists'.mp (digits lo (by simp))
  obtain ⟨hBound, hDigit, -⟩ := hexValue_spec hiValue
  obtain ⟨lBound, lDigit, -⟩ := hexValue_spec loValue
  refine ⟨hi, lo, h, l, rfl, hiValue, loValue, ?_⟩
  show (parseHex hi lo).toNat = _
  rw [parseHex, hDigit, lDigit, digits_toNat h hBound l lBound]

theorem IsByte.digits {pair : List Char} {byte : BitVec 8} (is : IsByte pair byte) : ∀ c ∈ pair, hexValue c ≠ none := by
  obtain ⟨hi, lo, h, l, rfl, hiValue, loValue, -⟩ := is
  simp [hiValue, loValue]

theorem Shaped.isSerial {text : List Char} {pairs : List (List Char)} (shaped : Shaped text pairs)
    (read : ¬ Misread text) : IsSerial text (pairs.map parsePair) := by
  refine ⟨pairs, shaped.text, shaped.length, ?_⟩
  rw [List.forall₂_map_right_iff, List.forall₂_same]
  intro pair mem
  exact isByte_of_digits (shaped.pairs pair mem).1 fun c mem' none => read ⟨pairs, shaped, pair, mem, c, mem', none⟩

theorem Misread.not_serial {text : List Char} (misread : Misread text) (bytes : List (BitVec 8)) :
    ¬ IsSerial text bytes := by
  intro is
  obtain ⟨pairs, shaped, pair, mem, c, mem', none⟩ := misread
  obtain ⟨pairs', shaped', each, -⟩ := is.shaped
  obtain ⟨byte, is⟩ := each pair (shaped.unique shaped' ▸ mem)
  exact is.digits c mem' none

/-- **Parsing follows the grammar unless six pairs that are not all digits meet the name of a resolution.** -/
theorem parseConfiguration_iff (configuration : Configuration) (serialNumber resolution : CString) :
    ∃ code parsed, Gives (parseConfiguration configuration (.ofCString serialNumber) (.ofCString resolution)) (code, parsed) ∧
      (Parses serialNumber.text resolution.text code parsed ↔
        ¬ (Misread serialNumber.text ∧ ∃ r, Names resolution.text r)) := by
  obtain ⟨code, parsed, gives, ok_iff, names, bytes⟩ := parseConfiguration_cases configuration serialNumber resolution
  refine ⟨code, parsed, gives, ?_, fun read => ?_⟩
  · rintro ⟨grammar, -⟩ ⟨misread, named⟩
    have ⟨pairs, shaped, _⟩ := misread
    obtain ⟨⟨_, is⟩, -⟩ := grammar.mp (ok_iff.mpr ⟨⟨pairs, shaped⟩, named⟩)
    exact misread.not_serial _ is
  · have serial {pairs : List (List Char)} (shaped : Shaped serialNumber.text pairs) (named : ∃ r, Names resolution.text r) :
        IsSerial serialNumber.text (pairs.map parsePair) := shaped.isSerial fun misread => read ⟨misread, named⟩
    constructor
    · rw [ok_iff]
      constructor
      · rintro ⟨⟨pairs, shaped⟩, named⟩
        exact ⟨⟨_, serial shaped named⟩, named⟩
      · rintro ⟨⟨bytes, is⟩, named⟩
        obtain ⟨pairs, shaped, -, -⟩ := is.shaped
        exact ⟨⟨pairs, shaped⟩, named⟩
    · intro ok
      obtain ⟨⟨pairs, shaped⟩, named⟩ := ok_iff.mp ok
      exact ⟨bytes pairs shaped ▸ serial shaped named, names ok⟩

/-- `GG` is read as a byte. -/
theorem parseConfiguration_misreads : ¬ ∀ (configuration : Configuration) (serialNumber resolution : CString),
    ∃ code parsed, Gives (parseConfiguration configuration (.ofCString serialNumber) (.ofCString resolution)) (code, parsed) ∧
      Parses serialNumber.text resolution.text code parsed := by
  intro all
  let serialNumber : CString :=
    ⟨['G', 'G', ':', '0', '0', ':', '0', '0', ':', '0', '0', ':', '0', '0', ':', '0', '0'], by decide⟩
  have shaped : Shaped serialNumber.text [['G', 'G'], ['0', '0'], ['0', '0'], ['0', '0'], ['0', '0'], ['0', '0']] :=
    ⟨rfl, rfl, by decide⟩
  have misread : Misread serialNumber.text := ⟨_, shaped, ['G', 'G'], by decide, 'G', by decide, rfl⟩
  obtain ⟨code, parsed, gives, parses, -⟩ := all .new serialNumber ⟨['9'], by decide⟩
  obtain ⟨code', parsed', ⟨⟨fuel, ends⟩, -⟩, ok_iff, -⟩ :=
    parseConfiguration_cases .new serialNumber ⟨['9'], by decide⟩
  have ok : code' = .ok := ok_iff.mpr ⟨⟨_, shaped⟩, .bit9, by decide⟩
  cases gives.2 fuel _ ends
  obtain ⟨⟨bytes, is⟩, -⟩ := parses.mp ok
  exact misread.not_serial bytes is

end OcsComponents.Sensor.Ds18b20
