import OcsComponents.Algo.UriOps

/-!
# Splitting a string

`ocs_algo/string_ops.cpp`. That it has seen a delimiter `split` knows from the pieces stored so
far, and there are none after leading delimiters (`Dropped`). Of any other string it returns
the pieces: all of them, in order, and nothing else.
-/

namespace OcsComponents.Algo.StringOps
open WhileLoop UriOps

/-- `StringOps::Values`, as positions from `value.data()` on. -/
abbrev Values := List View

/-- An iteration of `split`, from `start`. -/
def splitStep (delimiter : Char) (value : StringView) : Nat × Values → Values ⊕ (Unit × (Nat × Values))
  | (start, values) =>
    if start = value.size - 1 then
      .inl (if value.memory[start]? ≠ some delimiter then values ++ [⟨start, 1⟩] else values)
    else
      match value.strchr start delimiter with
      | none => .inl (if values.length ≠ 0 then values ++ [⟨start, (value.size : Int) - start⟩] else values)
      | some end_ =>
        let values := if value.memory[start]? ≠ some delimiter then values ++ [⟨start, (end_ : Int) - start⟩] else values
        if end_ = value.size - 1 then .inl values else .inr ((), end_ + 1, values)

/-- `StringOps::split`, with an allowance for its loop. -/
def split (delimiter : Char) (value : StringView) (fuel : Nat) : Option Values :=
  if value.size < 2 then some [] else run (splitStep delimiter value) fuel (0, [])

/-! ## The pieces -/

/-- A part of the text that is not empty, has no delimiter, and no longer one around it is so. -/
def IsPiece (delimiter : Char) (text : List Char) (piece : View) : Prop :=
  ∃ before part after, text = before ++ part ++ after ∧ piece = ⟨before.length, part.length⟩ ∧ part ≠ [] ∧
    delimiter ∉ part ∧ (before = [] ∨ before.getLast? = some delimiter) ∧
    (after = [] ∨ after.head? = some delimiter)

/-- The parts between delimiters that are not empty. -/
def piecesFrom (delimiter : Char) (start : Nat) (text : List Char) : Values :=
  ((place start (text.splitOn delimiter)).filter fun seg => seg.text ≠ []).map fun seg => ⟨seg.start, seg.text.length⟩

abbrev pieces (delimiter : Char) (text : List Char) : Values := piecesFrom delimiter 0 text

variable {d : Char}

theorem piecesFrom_nil (d : Char) (start : Nat) : piecesFrom d start [] = [] := rfl

theorem piecesFrom_whole {text : List Char} (start : Nat) (whole : d ∉ text) (some : text ≠ []) :
    piecesFrom d start text = [⟨start, text.length⟩] := by
  rw [piecesFrom, List.splitOn_eq_singleton whole]
  simp [place, some]

theorem piecesFrom_append {part : List Char} (start : Nat) (more : List Char) (whole : d ∉ part) :
    piecesFrom d start (part ++ d :: more) =
      (if part ≠ [] then [⟨start, part.length⟩] else []) ++ piecesFrom d (start + part.length + 1) more := by
  rw [piecesFrom, List.splitOn_append_cons_self_of_not_mem whole]
  by_cases empty : part = []
  · simp [place, piecesFrom, empty]
  · simp [place, piecesFrom, empty]

/-- A piece of what begins with a part is this part, or one after it. -/
theorem isPiece_append {part more : List Char} (whole : d ∉ part) (piece : View) : IsPiece d (part ++ d :: more) piece ↔
    part ≠ [] ∧ piece = ⟨0, part.length⟩ ∨
    ∃ later, IsPiece d more later ∧ piece = ⟨part.length + 1 + later.data, later.size⟩ := by
  constructor
  · rintro ⟨before, text, after, split, rfl, some, clean, starts, ends⟩
    rcases starts with rfl | starts
    · -- it begins with the text
      rw [List.nil_append] at split
      rcases ends with rfl | ends
      · rw [List.append_nil] at split
        exact absurd (split ▸ List.mem_append_right part List.mem_cons_self) clean
      · obtain ⟨after', rfl⟩ := List.head?_eq_some_iff.mp ends
        obtain ⟨rfl, -⟩ := cut_unique whole clean split
        exact .inl ⟨some, rfl⟩
    · -- it begins after a delimiter
      obtain ⟨earlier, rfl⟩ := List.getLast?_eq_some_iff.mp starts
      have split' : part ++ d :: more = earlier ++ d :: (text ++ after) := by simpa using split
      rcases List.append_eq_append_iff.mp split' with ⟨extra, rfl, rest⟩ | ⟨extra, rfl, rest⟩
      · cases extra with
        | nil =>
          obtain rfl := (List.cons.inj rest).2
          exact .inr ⟨_, ⟨[], text, after, rfl, rfl, some, clean, .inl rfl, ends⟩, by simp⟩
        | cons c extra =>
          obtain ⟨rfl, rfl⟩ := List.cons.inj rest
          refine .inr ⟨_, ⟨extra ++ [d], text, after, by simp, rfl, some, clean, .inr (by simp), ends⟩, ?_⟩
          simp
          omega
      · cases extra with
        | nil =>
          obtain rfl := (List.cons.inj rest).2
          exact .inr ⟨_, ⟨[], text, after, rfl, rfl, some, clean, .inl rfl, ends⟩, by simp⟩
        | cons c extra =>
          obtain ⟨rfl, -⟩ := List.cons.inj rest
          exact absurd (List.mem_append_right _ List.mem_cons_self) whole
  · rintro (⟨some, rfl⟩ | ⟨_, ⟨before, text, after, rfl, rfl, some, clean, starts, ends⟩, rfl⟩)
    · exact ⟨[], part, d :: more, by simp, rfl, some, whole, .inl rfl, .inr rfl⟩
    · refine ⟨part ++ d :: before, text, after, by simp, ?_, some, clean, .inr ?_, ends⟩
      · simp [Nat.add_assoc, Nat.add_comm 1]
      · rcases starts with rfl | starts
        · simp
        · simp [List.getLast?_append, List.getLast?_cons, starts]

theorem isPiece_whole {text : List Char} (whole : d ∉ text) (piece : View) :
    IsPiece d text piece ↔ text ≠ [] ∧ piece = ⟨0, text.length⟩ := by
  constructor
  · rintro ⟨before, part, after, rfl, rfl, some, -, starts, ends⟩
    have from_start : before = [] := by
      refine starts.resolve_right fun last => whole ?_
      exact List.mem_append_left _ (List.mem_append_left _ (List.mem_of_getLast? last))
    have to_end : after = [] := by
      refine ends.resolve_right fun first => whole ?_
      exact List.mem_append_right _ (List.mem_of_head? first)
    subst from_start to_end
    simp [some]
  · rintro ⟨some, rfl⟩
    exact ⟨[], text, [], by simp, rfl, some, whole, .inl rfl, .inl rfl⟩

/-- The pieces are listed. -/
theorem mem_piecesFrom (start : Nat) (text : List Char) (piece : View) :
    piece ∈ piecesFrom d start text ↔ ∃ p, IsPiece d text p ∧ piece = ⟨start + p.data, p.size⟩ := by
  induction text using parts_induction d generalizing start with
  | whole text whole =>
    simp only [isPiece_whole whole]
    by_cases some : text = []
    · simp [some, piecesFrom_nil]
    · simp [piecesFrom_whole start whole some, some]
  | append part more whole ih =>
    rw [piecesFrom_append start more whole, List.mem_append, ih]
    simp only [isPiece_append whole]
    constructor
    · rintro (first | ⟨p, is, rfl⟩)
      · by_cases some : part = []
        · simp [some] at first
        · exact ⟨_, .inl ⟨some, rfl⟩, by simpa [some] using first⟩
      · refine ⟨_, .inr ⟨p, is, rfl⟩, ?_⟩
        simp
        omega
    · rintro ⟨_, ⟨some, rfl⟩ | ⟨p, is, rfl⟩, rfl⟩
      · exact .inl (by simp [some])
      · refine .inr ⟨p, is, ?_⟩
        simp
        omega

/-- In order. -/
theorem piecesFrom_pairwise (start : Nat) (text : List Char) :
    (piecesFrom d start text).Pairwise fun p q => p.data < q.data := by
  induction text using parts_induction d generalizing start with
  | whole text whole =>
    by_cases some : text = []
    · simp [some, piecesFrom_nil]
    · simp [piecesFrom_whole start whole some]
  | append part more whole ih =>
    rw [piecesFrom_append start more whole, List.pairwise_append]
    refine ⟨?_, ih _, fun p first q later => ?_⟩
    · split <;> simp
    · obtain ⟨q, -, rfl⟩ := (mem_piecesFrom _ _ _).mp later
      split at first
      · obtain rfl := List.mem_singleton.mp first
        show start < start + part.length + 1 + q.data
        omega
      · cases first

/-- All the pieces, in order. -/
def Pieces (delimiter : Char) (text : List Char) (values : Values) : Prop :=
  (values.Pairwise fun p q => p.data < q.data) ∧ ∀ piece, piece ∈ values ↔ IsPiece delimiter text piece

theorem pieces_pieces (d : Char) (text : List Char) : Pieces d text (pieces d text) := by
  refine ⟨piecesFrom_pairwise 0 text, fun piece => ?_⟩
  rw [mem_piecesFrom]
  simp

theorem not_mem_of_mem_splitOn {text part : List Char} (mem : part ∈ text.splitOn d) : d ∉ part := by
  induction text using parts_induction d with
  | whole text whole =>
    rw [List.splitOn_eq_singleton whole] at mem
    exact List.mem_singleton.mp mem ▸ whole
  | append first more whole ih =>
    rw [List.splitOn_append_cons_self_of_not_mem whole] at mem
    rcases List.mem_cons.mp mem with rfl | mem
    · exact whole
    · exact ih mem

/-- The sizes of the pieces are the lengths of the parts that are not empty. -/
theorem piecesFrom_sizes (start : Nat) (text : List Char) : (piecesFrom d start text).map View.size =
    ((text.splitOn d).filter fun part => part ≠ []).map fun part => (part.length : Int) := by
  induction text using parts_induction d generalizing start with
  | whole text whole =>
    by_cases some : text = []
    · simp [some, piecesFrom_nil]
    · simp [piecesFrom_whole start whole some, List.splitOn_eq_singleton whole, some]
  | append part more whole ih =>
    rw [piecesFrom_append start more whole, List.splitOn_append_cons_self_of_not_mem whole, List.map_append, ih]
    by_cases some : part = []
    · simp [some]
    · simp [some]

/-! ## A whole string -/

/-- Nothing but delimiters before a text of several characters without one. -/
def Late (delimiter : Char) (text : List Char) : Prop :=
  delimiter ∉ text.dropWhile (· == delimiter) ∧ 2 ≤ (text.dropWhile (· == delimiter)).length

instance (delimiter : Char) (text : List Char) : Decidable (Late delimiter text) := inferInstanceAs (Decidable (_ ∧ _))

/-- Such a text after at least one delimiter. -/
def Dropped (delimiter : Char) (text : List Char) : Prop := text.head? = some delimiter ∧ Late delimiter text

instance (delimiter : Char) (text : List Char) : Decidable (Dropped delimiter text) := inferInstanceAs (Decidable (_ ∧ _))

theorem late_cons (d : Char) (more : List Char) : Late d (d :: more) ↔ Late d more := by simp [Late]

/-- A text that does not begin with a delimiter and has one. -/
theorem not_late {part : List Char} (more : List Char) (whole : d ∉ part) (some : part ≠ []) :
    ¬ Late d (part ++ d :: more) := by
  rintro ⟨absent, -⟩
  obtain ⟨c, rest, rfl⟩ := List.exists_cons_of_ne_nil some
  have other : (c == d) = false := by
    rw [beq_eq_false_iff_ne]
    rintro rfl
    exact whole List.mem_cons_self
  rw [List.cons_append, List.dropWhile_cons_of_neg (by simp [other])] at absent
  simp at absent

theorem late_of_whole {text : List Char} (whole : d ∉ text) (long : 2 ≤ text.length) : Late d text := by
  have kept : text.dropWhile (· == d) = text := by
    cases text with
    | nil => rfl
    | cons c rest =>
      apply List.dropWhile_cons_of_neg
      rw [beq_iff_eq]
      rintro rfl
      exact whole List.mem_cons_self
  exact ⟨by rwa [kept], by rwa [kept]⟩

/-- What the loop returns when `rest` is left. -/
def result (d : Char) (start : Nat) (values : Values) (rest : List Char) : Values :=
  if values = [] ∧ Late d rest then [] else values ++ piecesFrom d start rest

theorem result_whole {start : Nat} {values : Values} {rest : List Char} (whole : d ∉ rest) (long : 2 ≤ rest.length) :
    result d start values rest = if values.length ≠ 0 then values ++ [⟨start, rest.length⟩] else values := by
  have late := late_of_whole whole long
  have some : rest ≠ [] := List.ne_nil_of_length_pos (by omega)
  rw [result, piecesFrom_whole start whole some]
  cases values with
  | nil => simp [late]
  | cons v values => simp

theorem result_nil (start : Nat) (values : Values) : result d start values [] = values := by
  simp [result, Late, piecesFrom_nil]

/-- The first part of what is left is stored, if it is not empty. -/
theorem result_append {start : Nat} {values : Values} {part : List Char} (more : List Char) (whole : d ∉ part) :
    result d start values (part ++ d :: more) =
      result d (start + part.length + 1) (if part ≠ [] then values ++ [⟨start, part.length⟩] else values) more := by
  rw [result, piecesFrom_append start more whole, result]
  by_cases empty : part = []
  · simp [empty, late_cons]
  · simp [empty, not_late more whole empty]

/-- The last character is a piece of its own. -/
theorem result_single (start : Nat) (values : Values) (c : Char) :
    result d start values [c] = if c ≠ d then values ++ [⟨start, 1⟩] else values := by
  by_cases delimiter : c = d
  · subst delimiter
    have empty : result c start values ([] ++ [c]) = _ := result_append [] List.not_mem_nil
    rw [List.nil_append] at empty
    rw [empty, result_nil]
    simp
  · have whole : d ∉ [c] := fun mem => delimiter (List.mem_singleton.mp mem).symm
    have short : ¬ Late d [c] := fun late => by
      have := late.2
      have := (List.dropWhile_suffix (l := [c]) (· == d)).length_le
      rw [List.length_singleton] at this
      omega
    rw [result, piecesFrom_whole start whole (List.cons_ne_nil _ _)]
    simp [delimiter, short]

/-! ## One iteration -/

section Iteration
variable {s : CString} {start : Nat}

theorem memory_head (inside : start < s.text.length) : (StringView.ofCString s).memory[start]? = (s.text.drop start).head? := by
  rw [← StringView.text_getElem? (v := .ofCString s) inside, StringView.ofCString_text, List.head?_drop]

theorem memory_rest (inside : start < s.text.length) :
    (StringView.ofCString s).memory.drop start = s.text.drop start ++ [CString.nul] :=
  CString.buffer_drop (Nat.le_of_lt inside)

theorem splitStep_last (values : Values) (last : start + 1 = s.text.length) :
    splitStep d (.ofCString s) (start, values) = .inl (result d start values (s.text.drop start)) := by
  have size : start = (StringView.ofCString s).size - 1 := Nat.eq_sub_of_add_eq last
  have left : (s.text.drop start).length = s.text.length - start := List.length_drop
  obtain ⟨c, rest⟩ : ∃ c, s.text.drop start = [c] := List.length_eq_one_iff.mp (by omega)
  rw [splitStep, if_pos size, memory_head (by omega), rest, result_single]
  simp

/-- There are no more delimiters. -/
theorem splitStep_rest (char : d ≠ CString.nul) (values : Values) (inside : start + 1 < s.text.length)
    (whole : d ∉ s.text.drop start) :
    splitStep d (.ofCString s) (start, values) = .inl (result d start values (s.text.drop start)) := by
  have left : (s.text.drop start).length = s.text.length - start := List.length_drop
  have more : ¬ start = (StringView.ofCString s).size - 1 := by
    show ¬ start = s.text.length - 1
    omega
  have size : ((StringView.ofCString s).size : Int) - start = (s.text.drop start).length := by
    show (s.text.length : Int) - start = _
    omega
  rw [splitStep, if_neg more, StringView.strchr_of_ended char (memory_rest (by omega)) whole, size,
    result_whole whole (by omega)]

/-- There is one after this part. -/
theorem splitStep_part (char : d ≠ CString.nul) (values : Values) (inside : start + 1 < s.text.length) {part more : List Char}
    (rest : s.text.drop start = part ++ d :: more) (whole : d ∉ part) :
    splitStep d (.ofCString s) (start, values) =
      if start + part.length = s.text.length - 1 then
        .inl (if part ≠ [] then values ++ [⟨start, part.length⟩] else values)
      else .inr ((), start + part.length + 1, if part ≠ [] then values ++ [⟨start, part.length⟩] else values) := by
  have size : (StringView.ofCString s).size = s.text.length := rfl
  have before : ¬ start = (StringView.ofCString s).size - 1 := by omega
  have unended : CString.nul ∉ part := by
    intro mem
    apply s.terminated
    apply List.mem_of_mem_drop (i := start)
    rw [rest]
    exact List.mem_append_left _ mem
  have memory := memory_rest (s := s) (Nat.lt_of_succ_lt inside)
  rw [rest, List.append_assoc, List.cons_append] at memory
  have found := StringView.strchr_of_first char memory whole unended
  have stored : (StringView.ofCString s).memory[start]? ≠ some d ↔ part ≠ [] := by
    rw [memory_head (by omega), rest]
    cases part with
    | nil => simp
    | cons c part =>
      have other : c ≠ d := by
        rintro rfl
        exact whole List.mem_cons_self
      simp [other]
  have piece : ((start + part.length : Nat) : Int) - start = part.length := by omega
  rw [splitStep, if_neg before, found]
  simp only [stored, piece, size]

end Iteration

/-- **The loop of `split`** returns the pieces of what is left, after those stored. -/
theorem splitStep_leaves {s : CString} (char : d ≠ CString.nul) (start : Nat) (values : Values)
    (inside : start < s.text.length) :
    Leaves (splitStep d (.ofCString s)) (start, values) (result d start values (s.text.drop start)) := by
  by_cases last : start + 1 = s.text.length
  · exact leaves_now (splitStep_last values last)
  · have inside : start + 1 < s.text.length := by omega
    rcases split_cases d (s.text.drop start) with ⟨whole, -⟩ | ⟨part, more, rest, whole, -⟩
    · exact leaves_now (splitStep_rest char values inside whole)
    · have step := splitStep_part char values inside rest whole
      have length := congrArg List.length rest
      rw [List.length_drop, List.length_append, List.length_cons] at length
      by_cases ends : start + part.length = s.text.length - 1
      · obtain rfl : more = [] := List.length_eq_zero_iff.mp (by omega)
        rw [if_pos ends] at step
        rw [rest, result_append [] whole, result_nil]
        exact leaves_now step
      · have after : s.text.drop (start + part.length + 1) = more := by
          rw [← List.drop_drop, drop_drop_append rest]
          rfl
        rw [if_neg ends] at step
        rw [rest, result_append more whole, ← after]
        exact .later step (splitStep_leaves char (start + part.length + 1) _ (by omega))
termination_by s.text.length - start

/-! ## The pieces of a whole string -/

theorem split_gives (s : CString) (char : d ≠ CString.nul) : Gives (split d (.ofCString s))
    (if s.text.length < 2 then [] else result d 0 [] s.text) := by
  by_cases short : s.text.length < 2
  · have returns : split d (.ofCString s) = fun _ => some [] := by
      funext fuel
      exact if_pos short
    rw [returns, if_pos short]
    exact gives_const []
  · have loops : split d (.ofCString s) = fun fuel => run (splitStep d (.ofCString s)) fuel (0, []) := by
      funext fuel
      exact if_neg short
    rw [loops, if_neg short]
    exact (splitStep_leaves char 0 [] (by omega)).gives

/-- What splitting a text should give. -/
def Splits (delimiter : Char) (text : List Char) (values : Values) : Prop :=
  if text.length < 2 ∨ delimiter ∉ text then values = [] else Pieces delimiter text values

/-- The text after leading delimiters is a piece. -/
theorem late_piece {text : List Char} (mem : d ∈ text) (late : Late d text) : ∃ piece, IsPiece d text piece := by
  have starts : (text.takeWhile (· == d)).getLast? = some d := by
    cases last : (text.takeWhile (· == d)).getLast? with
    | none =>
      rw [List.getLast?_eq_none_iff] at last
      rw [← List.takeWhile_append_dropWhile (p := (· == d)) (l := text), last, List.nil_append] at mem
      exact absurd mem late.1
    | some c =>
      have delimiter := List.all_eq_true.mp List.all_takeWhile c (List.mem_of_getLast? last)
      rw [eq_of_beq delimiter]
  refine ⟨_, text.takeWhile (· == d), text.dropWhile (· == d), [], by simp, rfl, ?_, late.1, .inr starts, .inl rfl⟩
  exact List.ne_nil_of_length_pos (Nat.lt_of_lt_of_le Nat.zero_lt_two late.2)

theorem dropped_iff {text : List Char} (mem : d ∈ text) : Dropped d text ↔ Late d text := by
  refine ⟨And.right, fun late => ⟨?_, late⟩⟩
  cases text with
  | nil => cases mem
  | cons c rest =>
    by_contra other
    rw [List.head?_cons, Option.some_inj] at other
    have absent := late.1
    rw [List.dropWhile_cons_of_neg (by simpa using other)] at absent
    exact absent mem

/-- **`split` returns the pieces of a string if and only if it does not begin with delimiters that
are followed by several characters and no delimiter.** -/
theorem split_pieces_iff (s : CString) (char : d ≠ CString.nul) : ∃ values, Gives (split d (.ofCString s)) values ∧
    (Splits d s.text values ↔ ¬ Dropped d s.text) := by
  refine ⟨_, split_gives s char, ?_⟩
  by_cases short : s.text.length < 2
  · have kept : ¬ Dropped d s.text := fun dropped => by
      have := dropped.2.2
      have := (List.dropWhile_suffix (l := s.text) (· == d)).length_le
      omega
    simp only [Splits, short, true_or, if_true, kept, not_false_iff]
  · by_cases mem : d ∈ s.text
    · simp only [Splits, short, mem, dropped_iff mem, not_true, or_self, if_false]
      by_cases late : Late d s.text
      · obtain ⟨piece, is⟩ := late_piece mem late
        have nothing : result d 0 [] s.text = [] := if_pos ⟨rfl, late⟩
        rw [nothing]
        exact ⟨fun all => absurd ((all.2 piece).mpr is) (List.not_mem_nil), fun kept => absurd late kept⟩
      · have everything : result d 0 [] s.text = pieces d s.text := if_neg fun dropped => late dropped.2
        rw [everything]
        exact ⟨fun _ => late, fun _ => pieces_pieces d s.text⟩
    · have late : Late d s.text := late_of_whole mem (by omega)
      have kept : ¬ Dropped d s.text := fun dropped => mem (List.mem_of_head? dropped.1)
      simp [Splits, short, mem, kept, result, late]

/-- `a:b` has two pieces. -/
theorem split_pieces_iff_two : ∃ values, Gives (split ':' (.ofCString ⟨['a', ':', 'b'], by decide⟩)) values ∧
    Splits ':' ['a', ':', 'b'] values := by
  obtain ⟨values, gives, splits⟩ := split_pieces_iff (d := ':') ⟨['a', ':', 'b'], by decide⟩ (by decide)
  exact ⟨values, gives, splits.mpr (by decide)⟩

/-- `:ab` has the piece `ab`, and none is returned. -/
theorem split_drops : ¬ ∀ (d : Char) (s : CString), d ≠ CString.nul →
    ∃ values, Gives (split d (.ofCString s)) values ∧ Splits d s.text values := by
  intro all
  obtain ⟨values, gives, splits⟩ := all ':' ⟨[':', 'a', 'b'], by decide⟩ (by decide)
  have runs : split ':' (.ofCString ⟨[':', 'a', 'b'], by decide⟩) 2 = some [] := by decide
  obtain rfl := gives.2 2 _ runs
  have piece : IsPiece ':' [':', 'a', 'b'] ⟨1, 2⟩ := ⟨[':'], ['a', 'b'], [], by decide⟩
  have mem := (splits.2 ⟨1, 2⟩).mpr piece
  cases mem

end OcsComponents.Algo.StringOps
