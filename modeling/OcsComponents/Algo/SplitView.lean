import OcsComponents.Algo.StringOps

/-!
# Splitting a part of a string

`split` gets a view, and looks for the delimiter with `strchr`, which does not stop at the end
of the view. Where nothing else stops it, a delimiter after the view leads the loop out
(`Leaks`), and it comes back with a piece of a negative size.
-/

namespace OcsComponents.Algo.StringOps
open WhileLoop

variable {d : Char}

/-- Nothing ends the search for a delimiter in the view, and there is one after it. -/
def Leaks (delimiter : Char) (value : StringView) : Prop :=
  2 ≤ value.size ∧ CString.nul ∉ value.text ∧ delimiter ∉ value.text.drop (value.size - 2) ∧
    delimiter ∈ (value.memory.drop value.size).takeWhile (· != CString.nul)

instance (delimiter : Char) (value : StringView) : Decidable (Leaks delimiter value) :=
  inferInstanceAs (Decidable (_ ∧ _))

/-- A piece lies inside the view. -/
def Inside (value : StringView) (piece : View) : Prop := 0 ≤ piece.size ∧ piece.data + piece.size ≤ value.size

variable {v v' : StringView}

theorem memory_drop {start : Nat} (inside : start ≤ v.size) :
    v.memory.drop start = v.text.drop start ++ v.memory.drop v.size := by
  have length := v.text_length
  conv => lhs; rw [v.memory_eq]
  rw [List.drop_append_of_le_length (by omega)]

/-- What is left of a view that does not leak is searched as its text alone would be. -/
def search (d : Char) (start : Nat) (text : List Char) : Option Nat :=
  ((text.drop start).takeWhile (· != CString.nul)).findIdx? (· == d) |>.map (start + ·)

theorem strchr_tight (char : d ≠ CString.nul) (tight : ¬ Leaks d v) {start : Nat} (inside : start + 2 ≤ v.size)
    (open_ : CString.nul ∉ v.text.take start) : v.strchr start d = search d start v.text := by
  rw [StringView.strchr, CString.strchr_zero char, CString.ofMemory_text, memory_drop (by omega), List.takeWhile_append,
    search]
  congr 1
  split
  · next whole =>
    have clean := (List.takeWhile_prefix (l := v.text.drop start) (· != CString.nul)).eq_of_length whole
    rw [clean, List.findIdx?_append]
    by_cases mem : d ∈ v.text.drop start
    · rw [List.findIdx?_eq_some_of_exists (p := (· == d)) ⟨d, mem, beq_self_eq_true d⟩]
      rfl
    · have unended : CString.nul ∉ v.text := by
        rw [← List.take_append_drop start v.text, List.mem_append, not_or]
        refine ⟨open_, fun mem => ?_⟩
        have := List.all_eq_true.mp List.all_takeWhile _ (clean.symm ▸ mem)
        simp at this
      have last : d ∉ v.text.drop (v.size - 2) := fun mem' => mem <| by
        rw [show v.size - 2 = start + (v.size - 2 - start) by omega, ← List.drop_drop] at mem'
        exact List.mem_of_mem_drop mem'
      have absent : d ∉ (v.memory.drop v.size).takeWhile (· != CString.nul) :=
        fun mem' => tight ⟨by omega, unended, last, mem'⟩
      have none : ((v.memory.drop v.size).takeWhile (· != CString.nul)).findIdx? (· == d) = none := by
        rw [List.findIdx?_eq_none_iff]
        intro c mem'
        rw [beq_eq_false_iff_ne]
        rintro rfl
        exact absent mem'
      rw [none]
      simp
  · rfl

theorem search_some {start end_ : Nat} {text : List Char} (found : search d start text = some end_) :
    ∃ before more, text.drop start = before ++ d :: more ∧ end_ = start + before.length ∧ CString.nul ∉ before := by
  obtain ⟨i, index, rfl⟩ := Option.map_eq_some_iff.mp found
  obtain ⟨inside, delimiter, -⟩ := List.findIdx?_eq_some_iff_getElem.mp index
  have split := List.takeWhile_append_dropWhile (p := (· != CString.nul)) (l := text.drop start)
  rw [← List.take_append_drop i ((text.drop start).takeWhile _), List.drop_eq_getElem_cons inside,
    eq_of_beq delimiter, List.append_assoc, List.cons_append] at split
  refine ⟨_, _, split.symm, ?_, fun mem => ?_⟩
  · rw [List.length_take]
    omega
  · have := List.all_eq_true.mp List.all_takeWhile _ (List.mem_of_mem_take mem)
    simp at this

/-- The loop inside the view, before it comes to a terminator. -/
structure Scanning (v : StringView) (s : Nat × Values) : Prop where
  start : s.1 < v.size
  unended : CString.nul ∉ v.text.take s.1
  inside : ∀ piece ∈ s.2, Inside v piece

/-- An iteration sees the text of the view only. -/
theorem splitStep_congr (char : d ≠ CString.nul) (same : v.text = v'.text) (tight : ¬ Leaks d v) (tight' : ¬ Leaks d v')
    {s : Nat × Values} (scanning : Scanning v s) : splitStep d v s = splitStep d v' s := by
  obtain ⟨start, values⟩ := s
  have size : v.size = v'.size := by rw [← v.text_length, same, v'.text_length]
  have inside : start < v.size := scanning.start
  have head : v.memory[start]? = v'.memory[start]? := by
    rw [← StringView.text_getElem? inside, same, StringView.text_getElem? (size ▸ inside)]
  by_cases last : start = v.size - 1
  · have last' : start = v'.size - 1 := by omega
    rw [splitStep, splitStep, head, if_pos last, if_pos last']
  · have found : v.strchr start d = v'.strchr start d := by
      rw [strchr_tight char tight (by omega) scanning.unended, same,
        strchr_tight char tight' (by omega) (same ▸ scanning.unended)]
    rw [splitStep, splitStep, head, found, size]

/-- One more piece inside the view. -/
theorem Scanning.store {s : Nat × Values} (scanning : Scanning v s) {piece : View} (fits : Inside v piece) :
    ∀ p ∈ s.2 ++ [piece], Inside v p := by
  intro p mem
  rcases List.mem_append.mp mem with mem | mem
  · exact scanning.inside p mem
  · exact List.mem_singleton.mp mem ▸ fits

/-- A delimiter inside the view ends a piece inside it, and what comes up to it is not terminated. -/
theorem Scanning.found (char : d ≠ CString.nul) (tight : ¬ Leaks d v) {s : Nat × Values} (scanning : Scanning v s)
    (more : s.1 + 2 ≤ v.size) {end_ : Nat} (found : v.strchr s.1 d = some end_) :
    s.1 ≤ end_ ∧ end_ < v.size ∧ CString.nul ∉ v.text.take (end_ + 1) := by
  rw [strchr_tight char tight more scanning.unended] at found
  obtain ⟨before, more, split, rfl, clean⟩ := search_some found
  have length := congrArg List.length split
  rw [List.length_drop, v.text_length, List.length_append, List.length_cons] at length
  refine ⟨by omega, by omega, ?_⟩
  have taken : v.text.take (s.1 + before.length + 1) = v.text.take s.1 ++ (before ++ [d]) := by
    rw [Nat.add_assoc, List.take_add, split, List.take_append, List.take_of_length_le (Nat.le_succ _)]
    simp
  rw [taken, List.mem_append, List.mem_append, List.mem_singleton]
  rintro (early | early | same)
  · exact scanning.unended early
  · exact clean early
  · exact char same.symm

/-- **An iteration** leaves with pieces inside the view or goes on inside it. -/
theorem Scanning.step (char : d ≠ CString.nul) (tight : ¬ Leaks d v) {s : Nat × Values} (scanning : Scanning v s) :
    (∃ r, splitStep d v s = .inl r ∧ ∀ piece ∈ r, Inside v piece) ∨
    ∃ l s', splitStep d v s = .inr (l, s') ∧ Scanning v s' ∧ v.size - s'.1 < v.size - s.1 := by
  obtain ⟨start, values⟩ := s
  have inside : start < v.size := scanning.start
  by_cases last : start = v.size - 1
  · refine .inl ⟨_, if_pos last, ?_⟩
    split
    · apply scanning.store
      show (0 : Int) ≤ 1 ∧ (start : Int) + 1 ≤ v.size
      omega
    · exact scanning.inside
  · rw [splitStep, if_neg last]
    cases found : v.strchr start d with
    | none =>
      refine .inl ⟨_, rfl, ?_⟩
      split
      · apply scanning.store
        show (0 : Int) ≤ v.size - start ∧ (start : Int) + (v.size - start) ≤ v.size
        omega
      · exact scanning.inside
    | some end_ =>
      have more : start + 2 ≤ v.size := by omega
      obtain ⟨low, high, unended⟩ := scanning.found char tight more found
      have kept : ∀ piece ∈ if v.memory[start]? ≠ some d then values ++ [⟨start, (end_ : Int) - start⟩] else values,
          Inside v piece := by
        split
        · apply scanning.store
          show (0 : Int) ≤ end_ - start ∧ (start : Int) + (end_ - start) ≤ v.size
          have low : start ≤ end_ := low
          omega
        · exact scanning.inside
      dsimp only
      split
      · exact .inl ⟨_, rfl, kept⟩
      · next before =>
        refine .inr ⟨_, _, rfl, ⟨?_, unended, kept⟩, ?_⟩
        · show end_ + 1 < v.size
          omega
        · show v.size - (end_ + 1) < v.size - start
          have low : start ≤ end_ := low
          omega

theorem split_congr (char : d ≠ CString.nul) (same : v.text = v'.text) (tight : ¬ Leaks d v) (tight' : ¬ Leaks d v') :
    split d v = split d v' := by
  have size : v.size = v'.size := by rw [← v.text_length, same, v'.text_length]
  funext fuel
  rw [split, split, size]
  split
  · rfl
  · apply run_congr (Scanning v)
    · exact fun s scanning => splitStep_congr char same tight tight' scanning
    · intro s l s' scanning goes
      rcases scanning.step char tight with ⟨r, exit, -⟩ | ⟨_, _, goes', kept, -⟩
      · rw [exit] at goes
        cases goes
      · rw [goes'] at goes
        cases goes
        exact kept
    · exact ⟨by simp; omega, by simp, nofun⟩

theorem split_tight (char : d ≠ CString.nul) (tight : ¬ Leaks d v) :
    ∃ values, Gives (split d v) values ∧ ∀ piece ∈ values, Inside v piece := by
  by_cases short : v.size < 2
  · have returns : split d v = fun _ => some [] := by
      funext fuel
      exact if_pos short
    rw [returns]
    exact ⟨[], gives_const [], nofun⟩
  · have loops : split d v = fun fuel => run (splitStep d v) fuel (0, []) := by
      funext fuel
      exact if_neg short
    have start : Scanning v (0, []) := ⟨by simp; omega, by simp, nofun⟩
    obtain ⟨values, leaves, inside⟩ := leaves_of_variant (Scanning v) (fun r => ∀ piece ∈ r, Inside v piece)
      (fun s => v.size - s.1) (fun s scanning => scanning.step char tight) start
    rw [loops]
    exact ⟨values, leaves.gives, inside⟩

/-- The loop on its way out of the view, or outside with a piece stored. -/
def Leaving (v : StringView) (s : Nat × Values) : Prop := s.1 + 2 ≤ v.size ∨ v.size < s.1 ∧ s.2 ≠ []

/-- From inside, the loop stays away from the last two characters or jumps over them. -/
theorem Leaks.strchr (char : d ≠ CString.nul) (leaks : Leaks d v) {start : Nat} (inside : start + 2 ≤ v.size) :
    ∃ end_, v.strchr start d = some end_ ∧ start ≤ end_ ∧ end_ < v.memory.length ∧
      (end_ + 3 ≤ v.size ∨ v.size ≤ end_ ∧ v.memory[start]? ≠ some d) := by
  obtain ⟨-, unended, last, after⟩ := leaks
  have rest : v.memory.drop start = v.text.drop start ++ v.memory.drop v.size := memory_drop (by omega)
  by_cases mem : d ∈ v.text.drop start
  · obtain ⟨before, more, split, first⟩ := List.eq_append_cons_of_mem mem
    have clean : CString.nul ∉ before := fun early => unended <| List.mem_of_mem_drop <| by
      rw [split]
      exact List.mem_append_left _ early
    rw [split, List.append_assoc, List.cons_append] at rest
    have found := StringView.strchr_of_first char rest first clean
    obtain ⟨le, lt⟩ := StringView.strchr_bounds char found
    refine ⟨_, found, le, lt, .inl ?_⟩
    by_contra late
    apply last
    rw [show v.size - 2 = start + (v.size - 2 - start) by omega, ← List.drop_drop, split,
      List.drop_append_of_le_length (by omega)]
    exact List.mem_append_right _ List.mem_cons_self
  · obtain ⟨before, more, split, first⟩ := List.eq_append_cons_of_mem after
    have clean : CString.nul ∉ v.text.drop start ++ before := by
      rw [List.mem_append]
      rintro (early | early)
      · exact unended (List.mem_of_mem_drop early)
      · have := List.all_eq_true.mp List.all_takeWhile _ (split ▸ List.mem_append_left _ early)
        simp at this
    have absent : d ∉ v.text.drop start ++ before := by
      rw [List.mem_append]
      exact fun early => early.elim mem first
    have found : v.strchr start d = some (start + (v.text.drop start ++ before).length) := by
      have all := List.takeWhile_append_dropWhile (p := (· != CString.nul)) (l := v.memory.drop v.size)
      rw [split, List.append_assoc, List.cons_append] at all
      rw [← all, ← List.append_assoc] at rest
      exact StringView.strchr_of_first char rest absent clean
    obtain ⟨le, lt⟩ := StringView.strchr_bounds char found
    refine ⟨_, found, le, lt, .inr ⟨?_, fun head => mem ?_⟩⟩
    · rw [List.length_append, List.length_drop, v.text_length]
      omega
    · rw [← StringView.text_getElem? (by omega), ← List.head?_drop] at head
      exact List.mem_of_head? head

/-- Outside, the loop ends with a piece of a negative size. -/
theorem Leaving.step (char : d ≠ CString.nul) (leaks : Leaks d v) {s : Nat × Values} (leaving : Leaving v s) :
    (∃ r, splitStep d v s = .inl r ∧ ∃ piece ∈ r, piece.size < 0) ∨
    ∃ l s', splitStep d v s = .inr (l, s') ∧ Leaving v s' ∧ v.memory.length - s'.1 < v.memory.length - s.1 := by
  obtain ⟨start, values⟩ := s
  have long := leaks.1
  have away : start ≠ v.size - 1 := by
    rcases leaving with inside | ⟨outside, -⟩
    · show start ≠ _
      have : start + 2 ≤ v.size := inside
      omega
    · have : v.size < start := outside
      omega
  rw [splitStep, if_neg away]
  rcases leaving with inside | ⟨outside, some⟩
  · obtain ⟨end_, found, le, lt, place⟩ := leaks.strchr char inside
    have goes : end_ ≠ v.size - 1 := by omega
    rw [found]
    dsimp only at inside le ⊢
    rw [if_neg goes]
    refine .inr ⟨_, _, rfl, ?_, by omega⟩
    rcases place with place | ⟨place, stored⟩
    · exact .inl place
    · rw [if_pos stored]
      exact .inr ⟨Nat.lt_succ_of_le place, by simp⟩
  · dsimp only at outside some
    cases found : v.strchr start d with
    | none =>
      refine .inl ⟨_, rfl, ⟨start, (v.size : Int) - start⟩, ?_, ?_⟩
      · rw [if_pos (mt List.length_eq_zero_iff.mp some)]
        exact List.mem_append_right _ (List.mem_singleton_self _)
      · show (v.size : Int) - start < 0
        omega
    | some end_ =>
      obtain ⟨le, lt⟩ := StringView.strchr_bounds char found
      have goes : end_ ≠ v.size - 1 := by omega
      dsimp only
      rw [if_neg goes]
      refine .inr ⟨_, _, rfl, .inr ⟨?_, ?_⟩, by omega⟩
      · show v.size < end_ + 1
        omega
      · split
        · simp
        · exact some

theorem split_leaks (char : d ≠ CString.nul) (leaks : Leaks d v) :
    ∃ values, Gives (split d v) values ∧ ∃ piece ∈ values, piece.size < 0 := by
  have loops : split d v = fun fuel => run (splitStep d v) fuel (0, []) := by
    funext fuel
    exact if_neg (Nat.not_lt.mpr leaks.1)
  have start : Leaving v (0, []) := .inl (by simpa using leaks.1)
  obtain ⟨values, leaves, outside⟩ := leaves_of_variant (Leaving v) (fun r : Values => ∃ piece ∈ r, piece.size < 0)
    (fun s => v.memory.length - s.1) (fun s leaving => leaving.step char leaks) start
  rw [loops]
  exact ⟨values, leaves.gives, outside⟩

/-- **The pieces of a view are those of its text, and inside, if and only if it does not leak.** -/
theorem split_inside_iff (char : d ≠ CString.nul) (same : v.text = v'.text) :
    (∃ values, Gives (split d v) values ∧ Gives (split d v') values ∧ ∀ piece ∈ values, Inside v piece) ↔
      ¬ Leaks d v ∧ ¬ Leaks d v' := by
  constructor
  · rintro ⟨values, gives, gives', inside⟩
    have tight {w : StringView} (gives : Gives (split d w) values) : ¬ Leaks d w := fun leaks => by
      obtain ⟨values', ⟨⟨fuel, ends⟩, -⟩, piece, mem, negative⟩ := split_leaks char leaks
      obtain rfl := gives.2 fuel values' ends
      have := (inside piece mem).1
      omega
    exact ⟨tight gives, tight gives'⟩
  · rintro ⟨tight, tight'⟩
    obtain ⟨values, gives, inside⟩ := split_tight char tight
    exact ⟨values, gives, split_congr char same tight tight' ▸ gives, inside⟩

end OcsComponents.Algo.StringOps
