import Mathlib.Data.List.Basic

/-!
# Strings of C

A `char*` into a string is a position in it. What the functions of `<cstring>` do depends on
the terminator: `buffer` is the memory they go through. A `std::string_view` has its own end,
and the memory goes on after it: `strchr` from a pointer into it does not stop there.
-/

/-- The terminator. -/
def CString.nul : Char := Char.ofNat 0

/-- The characters of a string, before its terminator. -/
structure CString where
  text : List Char
  terminated : CString.nul ∉ text
  deriving DecidableEq

namespace CString
variable {s : CString} {p : Nat} {c : Char}

/-- The string before another one. -/
def append (s t : CString) : CString where
  text := s.text ++ t.text
  terminated mem := (List.mem_append.mp mem).elim s.terminated t.terminated

def buffer (s : CString) : List Char := s.text ++ [nul]

/-- `strlen(s + p)`. -/
def strlen (s : CString) (p : Nat) : Nat := (s.buffer.drop p).findIdx (· == nul)

/-- `strchr(s + p, c)`, as a position in `s`. -/
def strchr (s : CString) (p : Nat) (c : Char) : Option Nat := ((s.buffer.drop p).findIdx? (· == c)).map (p + ·)

theorem buffer_drop (inside : p ≤ s.text.length) : s.buffer.drop p = s.text.drop p ++ [nul] := by
  rw [buffer, List.drop_append_of_le_length inside]

/-- From the beginning, the terminator does not matter. -/
theorem strchr_zero (char : c ≠ nul) : s.strchr 0 c = s.text.findIdx? (· == c) := by
  have not_terminator : (nul == c) = false := beq_eq_false_iff_ne.mpr char.symm
  simp [strchr, buffer, List.findIdx?_cons, not_terminator]

/-- From a position in the string to its terminator. -/
theorem strlen_eq (inside : p ≤ s.text.length) : s.strlen p = s.text.length - p := by
  rw [strlen, buffer_drop inside, List.findIdx_append, List.findIdx_eq_length.mpr]
  · simp
  · intro c mem
    rw [beq_eq_false_iff_ne]
    rintro rfl
    exact s.terminated (List.mem_of_mem_drop mem)

/-- There is no such character up to the terminator. -/
theorem strchr_of_not_mem (char : c ≠ nul) (absent : c ∉ s.text.drop p) : s.strchr p c = none := by
  rw [strchr, Option.map_eq_none_iff, List.findIdx?_eq_none_iff, buffer, List.drop_append]
  intro c' mem
  rw [beq_eq_false_iff_ne]
  rintro rfl
  rcases List.mem_append.mp mem with mem | mem
  · exact absent mem
  · exact char (List.mem_singleton.mp (List.mem_of_mem_drop mem))

/-- The first such character. -/
theorem strchr_of_append {before after : List Char} (found : s.text.drop p = before ++ c :: after)
    (first : c ∉ before) : s.strchr p c = some (p + before.length) := by
  have inside : p ≤ s.text.length := by
    by_contra outside
    rw [List.drop_eq_nil_of_le (by omega)] at found
    simp at found
  have none_before : before.findIdx? (· == c) = none := by
    rw [List.findIdx?_eq_none_iff]
    intro c' mem
    rw [beq_eq_false_iff_ne]
    rintro rfl
    exact first mem
  rw [strchr, buffer_drop inside, found]
  simp [none_before, List.findIdx?_cons]

/-- The first characters of a string: `std::string(s, n)` for `n` up to its length. -/
def first (s : CString) (n : Nat) : CString where
  text := s.text.take n
  terminated mem := s.terminated (List.mem_of_mem_take mem)

/-- `strncpy` into a buffer, with its `sizeof`: what fits of the string, and terminators in the rest. -/
def strncpy (s : CString) (size : Nat) : List Char :=
  s.text.take size ++ List.replicate (size - s.text.length) nul

@[simp] theorem length_strncpy (s : CString) (size : Nat) : (s.strncpy size).length = size := by
  simp only [strncpy, List.length_append, List.length_take, List.length_replicate]
  omega

/-- There is a terminator in the buffer if there is room for one. -/
theorem nul_mem_strncpy {size : Nat} : nul ∈ s.strncpy size ↔ s.text.length < size := by
  have text : nul ∉ s.text.take size := (s.first size).terminated
  rw [strncpy, List.mem_append, or_iff_right text, List.mem_replicate]
  simp only [and_true]
  omega

end CString

/-- The string at a pointer: the memory up to the first terminator. -/
def CString.ofMemory (memory : List Char) : CString where
  text := memory.takeWhile (· != nul)
  terminated mem := by
    have := List.all_eq_true.mp List.all_takeWhile _ mem
    simp at this

theorem CString.ofMemory_text (memory : List Char) : (ofMemory memory).text = memory.takeWhile (· != nul) := rfl

/-- A buffer without a terminator is not the end of the string. -/
theorem CString.ofMemory_append {buffer : List Char} (unterminated : nul ∉ buffer) (after : List Char) :
    (ofMemory (buffer ++ after)).text = buffer ++ (ofMemory after).text := by
  rw [ofMemory_text, List.takeWhile_append_of_pos]
  · rfl
  · intro c mem
    rw [bne_iff_ne]
    rintro rfl
    exact unterminated mem

/-- A `std::string_view` into terminated memory: the memory from `data()` on, and the `size()`. -/
structure StringView where
  memory : List Char
  size : Nat
  terminated : CString.nul ∈ memory.drop size
  deriving DecidableEq

namespace StringView
variable {v : StringView} {p q : Nat} {c : Char}

def text (v : StringView) : List Char := v.memory.take v.size

/-- The view of a whole string, made from a `const char*`. -/
def ofCString (s : CString) : StringView where
  memory := s.buffer
  size := s.text.length
  terminated := by simp [CString.buffer]

/-- `strchr(data() + p, c)`, as a position from `data()` on. -/
def strchr (v : StringView) (p : Nat) (c : Char) : Option Nat :=
  ((CString.ofMemory (v.memory.drop p)).strchr 0 c).map (p + ·)

theorem size_lt (v : StringView) : v.size < v.memory.length := by
  have some := List.length_pos_of_mem v.terminated
  rw [List.length_drop] at some
  omega

theorem text_length (v : StringView) : v.text.length = v.size := by
  have := v.size_lt
  rw [text, List.length_take]
  omega

theorem memory_eq (v : StringView) : v.memory = v.text ++ v.memory.drop v.size := (List.take_append_drop _ _).symm

theorem text_getElem? (inside : p < v.size) : v.text[p]? = v.memory[p]? := List.getElem?_take_of_lt inside

@[simp] theorem ofCString_text (s : CString) : (ofCString s).text = s.text := by simp [ofCString, text, CString.buffer]

theorem strchr_bounds (char : c ≠ CString.nul) (found : v.strchr p c = some q) : p ≤ q ∧ q < v.memory.length := by
  rw [strchr, CString.strchr_zero char, Option.map_eq_some_iff] at found
  obtain ⟨i, index, rfl⟩ := found
  have inside := (List.findIdx?_eq_some_iff_getElem.mp index).1
  have prefix_ := (List.takeWhile_prefix (l := v.memory.drop p) (· != CString.nul)).length_le
  rw [CString.ofMemory_text] at inside
  rw [List.length_drop] at prefix_
  omega

/-- The text before a terminator or a character looked for is searched, and no more. -/
theorem strchr_of_first (char : c ≠ CString.nul) {before after : List Char}
    (found : v.memory.drop p = before ++ c :: after) (first : c ∉ before) (unended : CString.nul ∉ before) :
    v.strchr p c = some (p + before.length) := by
  have all : ∀ c' ∈ before, (c' != CString.nul) = true := by
    intro c' mem
    rw [bne_iff_ne]
    rintro rfl
    exact unended mem
  have text : (CString.ofMemory (v.memory.drop p)).text.drop 0 = before ++ c :: after.takeWhile (· != CString.nul) := by
    rw [List.drop_zero, CString.ofMemory_text, found, List.takeWhile_append_of_pos all, List.takeWhile_cons_of_pos]
    exact bne_iff_ne.mpr char
  rw [strchr, CString.strchr_of_append text first]
  simp

theorem strchr_of_ended (char : c ≠ CString.nul) {before after : List Char}
    (ends : v.memory.drop p = before ++ CString.nul :: after) (absent : c ∉ before) : v.strchr p c = none := by
  have shorter : (CString.ofMemory (v.memory.drop p)).text <+: before := by
    rw [CString.ofMemory_text, ends, List.takeWhile_append]
    split
    · simp
    · exact List.takeWhile_prefix _
  rw [strchr, Option.map_eq_none_iff]
  apply CString.strchr_of_not_mem char
  intro mem
  exact absent (shorter.subset mem)

end StringView
