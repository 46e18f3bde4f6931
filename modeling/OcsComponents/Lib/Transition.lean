import Mathlib.Data.List.Basic

/-!
# Runs of a labelled transition system

A run is the list of its labels, oldest first. Invariants are proved step by step
(`Run.invariant`). A buffer between two kinds of labels is accounted for by one
equation a step: what it holds and what the step puts in is what the step takes out
and what it holds afterwards, in this order. Then over a whole run the puts are the takes
followed by what is still held (`Run.fifo`).
-/

namespace Transition

variable {σ ℓ : Type} {step : σ → ℓ → σ → Prop}

/-- The steps labelled `tr` lead from `s` to a state. -/
inductive Run (step : σ → ℓ → σ → Prop) (s : σ) : List ℓ → σ → Prop where
  | start : Run step s [] s
  | next {tr : List ℓ} {s' s'' : σ} {l : ℓ} (before : Run step s tr s') (last : step s' l s'') :
      Run step s (tr ++ [l]) s''

theorem Run.single {s s' : σ} {l : ℓ} (h : step s l s') : Run step s [l] s' := .next .start h

theorem Run.trans {s s' s'' : σ} {tr tr' : List ℓ} (h : Run step s tr s') (h' : Run step s' tr' s'') :
    Run step s (tr ++ tr') s'' := by
  induction h' with
  | start => rwa [List.append_nil]
  | next _ last ih => rw [← List.append_assoc]; exact .next ih last

theorem Run.cons {s s' s'' : σ} {l : ℓ} {tr : List ℓ} (h : Run step s' tr s'') (first : step s l s') :
    Run step s (l :: tr) s'' := (Run.single first).trans h

/-- A run of a system is one of any system with more steps. -/
theorem Run.mono {step' : σ → ℓ → σ → Prop} {s s' : σ} {tr : List ℓ}
    (more : ∀ {s l s'}, step s l s' → step' s l s') (h : Run step s tr s') : Run step' s tr s' := by
  induction h with
  | start => exact .start
  | next _ last ih => exact .next ih (more last)

/-- A run is empty or has a first step. -/
theorem Run.first {s s'' : σ} {tr : List ℓ} (h : Run step s tr s'') :
    tr = [] ∧ s'' = s ∨ ∃ l rest s', tr = l :: rest ∧ step s l s' ∧ Run step s' rest s'' := by
  induction h with
  | start => exact Or.inl ⟨rfl, rfl⟩
  | next before last ih =>
    rcases ih with ⟨rfl, rfl⟩ | ⟨l, rest, s', rfl, first, run⟩
    · exact Or.inr ⟨_, [], _, rfl, last, .start⟩
    · exact Or.inr ⟨l, _, s', rfl, first, .next run last⟩

theorem Run.nil {s s' : σ} (h : Run step s [] s') : s' = s := by
  rcases h.first with ⟨-, same⟩ | ⟨_, _, _, none, _⟩
  · exact same
  · cases none

theorem Run.uncons {s s'' : σ} {l : ℓ} {tr : List ℓ} (h : Run step s (l :: tr) s'') :
    ∃ s', step s l s' ∧ Run step s' tr s'' := by
  rcases h.first with ⟨none, _⟩ | ⟨l', rest, s', same, first, run⟩
  · cases none
  · cases same; exact ⟨s', first, run⟩

/-- A run of appended labels is two runs. -/
theorem Run.split {tr tr' : List ℓ} {s s'' : σ} (h : Run step s (tr ++ tr') s'') :
    ∃ s', Run step s tr s' ∧ Run step s' tr' s'' := by
  induction tr generalizing s with
  | nil => exact ⟨s, .start, h⟩
  | cons l tr ih =>
    obtain ⟨s₁, first, rest⟩ := h.uncons
    obtain ⟨s', before, after⟩ := ih rest
    exact ⟨s', before.cons first, after⟩

/-- Where steps are functional, the labels of a run determine its end. -/
theorem Run.functional (det : ∀ s l s' s'', step s l s' → step s l s'' → s' = s'') {s s' s'' : σ} {tr : List ℓ}
    (h : Run step s tr s') (h' : Run step s tr s'') : s' = s'' := by
  induction tr generalizing s with
  | nil => exact h.nil.trans h'.nil.symm
  | cons l tr ih =>
    obtain ⟨s₁, first, rest⟩ := h.uncons
    obtain ⟨s₂, first', rest'⟩ := h'.uncons
    cases det _ _ _ _ first first'
    exact ih rest rest'

/-- All steps of a run of covered steps are covered. -/
theorem Run.covered (det : ∀ s l s' s'', step s l s' → step s l s'' → s' = s'') {Covered : σ → ℓ → Prop} {s₀ s : σ}
    {tr : List ℓ} (h : Run (fun s l s' => step s l s' ∧ Covered s l) s₀ tr s) :
    ∀ tr' l s', tr' ++ [l] <+: tr → Run step s₀ tr' s' → Covered s' l := by
  rintro tr' l s' ⟨rest, rfl⟩ run
  obtain ⟨s₂, within, -⟩ := h.split
  obtain ⟨s₁, before, last⟩ := within.split
  obtain ⟨s₃, step, -⟩ := last.uncons
  cases Run.functional det run (before.mono And.left)
  exact step.2

/-- What holds of the first state holds of every state of a run exactly when every step leads to it. -/
theorem Run.every_state_iff {Good : σ → Prop} {s₀ : σ} (good : Good s₀) (tr : List ℓ) :
    (∀ tr' s, tr' <+: tr → Run step s₀ tr' s → Good s) ↔
      ∀ tr' l s s', tr' ++ [l] <+: tr → Run step s₀ tr' s → step s l s' → Good s' := by
  constructor
  · exact fun all tr' l s s' within run last => all _ s' within (.next run last)
  · intro all tr' s within run
    cases run with
    | start => exact good
    | next before last => exact all _ _ _ _ within before last

/-- What relates the states of a step relates any two states of a run, where it is a preorder. -/
theorem Run.every_pair_iff (det : ∀ s l s' s'', step s l s' → step s l s'' → s' = s'') {Kept : σ → σ → Prop}
    (refl : ∀ s, Kept s s) (trans : ∀ s s' s'', Kept s s' → Kept s' s'' → Kept s s'') (s₀ : σ) (tr : List ℓ) :
    (∀ tr₁ tr₂ s₁ s₂, tr₁ <+: tr₂ → tr₂ <+: tr → Run step s₀ tr₁ s₁ → Run step s₀ tr₂ s₂ → Kept s₁ s₂) ↔
      ∀ tr' l s s', tr' ++ [l] <+: tr → Run step s₀ tr' s → step s l s' → Kept s s' := by
  constructor
  · exact fun all tr' l s s' within run last => all _ _ s s' (List.prefix_append ..) within run (.next run last)
  · rintro all tr₁ _ s₁ s₂ ⟨rest, rfl⟩ within run run₂
    obtain ⟨s, before, after⟩ := run₂.split
    cases Run.functional det run before
    induction after with
    | start => exact refl s₁
    | @next rest s' s'' l between last ih =>
      rw [← List.append_assoc] at within
      have run' : Run step s₀ (tr₁ ++ rest) s' := run.trans between
      exact trans _ _ _ (ih ((List.prefix_append ..).trans within) run') (all _ _ _ _ within run' last)

/-- **The exact rule**: where a step is good exactly when it is covered, and covered steps keep the
invariant, all steps of a run are good exactly when all are covered. -/
theorem Run.every_step_iff (det : ∀ s l s' s'', step s l s' → step s l s'' → s' = s'') (Inv : σ → Prop)
    (Good : σ → ℓ → σ → Prop) (Covered : σ → ℓ → Prop) {s₀ : σ} (init : Inv s₀)
    (each : ∀ s l s', Inv s → step s l s' → (Good s l s' ↔ Covered s l) ∧ (Covered s l → Inv s'))
    {tr : List ℓ} {s : σ} (h : Run step s₀ tr s) :
    (∀ tr' l s₁ s₂, tr' ++ [l] <+: tr → Run step s₀ tr' s₁ → step s₁ l s₂ → Good s₁ l s₂) ↔
      ∀ tr' l s₁, tr' ++ [l] <+: tr → Run step s₀ tr' s₁ → Covered s₁ l := by
  -- the invariant goes along with either side
  suffices both : ((∀ tr' l s₁ s₂, tr' ++ [l] <+: tr → Run step s₀ tr' s₁ → step s₁ l s₂ → Good s₁ l s₂) ↔
      ∀ tr' l s₁, tr' ++ [l] <+: tr → Run step s₀ tr' s₁ → Covered s₁ l) ∧
      ((∀ tr' l s₁, tr' ++ [l] <+: tr → Run step s₀ tr' s₁ → Covered s₁ l) → Inv s) from both.1
  induction h with
  | start =>
    have none : ∀ {tr' : List ℓ} {l}, ¬ tr' ++ [l] <+: [] := by simp
    exact ⟨iff_of_true (fun _ _ _ _ within => absurd within none) (fun _ _ _ within => absurd within none), fun _ => init⟩
  | @next tr s s'' l before last ih =>
    obtain ⟨same, inv⟩ := ih
    have inner : ∀ {tr' : List ℓ}, tr' <+: tr → tr' <+: tr ++ [l] := fun h => h.trans (List.prefix_append ..)
    have outer : ∀ {tr' l' s₁}, tr' ++ [l'] <+: tr ++ [l] → Run step s₀ tr' s₁ →
        tr' ++ [l'] <+: tr ∨ tr' = tr ∧ l' = l ∧ s₁ = s := by
      intro tr' l' s₁ within run
      rcases List.prefix_concat_iff.mp within with whole | short
      · obtain ⟨rfl, ⟨⟩⟩ := List.append_inj' whole rfl
        exact Or.inr ⟨rfl, rfl, Run.functional det run before⟩
      · exact Or.inl short
    constructor
    · constructor
      · intro all tr' l' s₁ within run
        have covered := same.mp fun tr' l s₁ s₂ h => all tr' l s₁ s₂ (inner h)
        rcases outer within run with short | ⟨rfl, rfl, rfl⟩
        · exact covered tr' l' s₁ short run
        · exact (each _ _ _ (inv covered) last).1.mp (all _ _ _ _ within run last)
      · intro all tr' l' s₁ s₂ within run taken
        have covered : ∀ tr' l s₁, tr' ++ [l] <+: tr → Run step s₀ tr' s₁ → Covered s₁ l :=
          fun tr' l s₁ h => all tr' l s₁ (inner h)
        rcases outer within run with short | ⟨rfl, rfl, rfl⟩
        · exact same.mpr covered tr' l' s₁ s₂ short run taken
        · exact (each _ _ _ (inv covered) taken).1.mpr (all _ _ _ within run)
    · intro all
      exact (each _ _ _ (inv fun tr' l s₁ h => all tr' l s₁ (inner h)) last).2 (all _ _ _ (List.prefix_refl _) before)

/-- **The invariant rule**, for what holds of the labels so far and the state. The
steps may be told apart by a condition on the labels of the run. -/
theorem Run.invariant {s s' : σ} {tr : List ℓ} (h : Run step s tr s') (ok : ℓ → Prop) (Inv : List ℓ → σ → Prop)
    (init : Inv [] s) (keep : ∀ tr s' l s'', Inv tr s' → ok l → step s' l s'' → Inv (tr ++ [l]) s'')
    (allowed : ∀ l ∈ tr, ok l) : Inv tr s' := by
  induction h with
  | start => exact init
  | @next tr s' s'' l _ last ih =>
    exact keep tr s' l s'' (ih fun l' member => allowed l' (List.mem_append_left _ member))
      (allowed l (by simp)) last

/-- The same for states alone, from any state where the invariant holds. -/
theorem Run.preserves {s s' : σ} {tr : List ℓ} (h : Run step s tr s') (ok : ℓ → Prop) (Inv : σ → Prop) (init : Inv s)
    (keep : ∀ s' l s'', Inv s' → ok l → step s' l s'' → Inv s'') (allowed : ∀ l ∈ tr, ok l) : Inv s' :=
  h.invariant ok (fun _ s => Inv s) init (fun _ s' l s'' => keep s' l s'') allowed

/-- A run computed by a partial function that follows the steps. -/
theorem Run.of_exec {exec : σ → ℓ → Option σ} (sound : ∀ {s l s'}, exec s l = some s' → step s l s') {tr : List ℓ}
    {s s' : σ} (h : tr.foldlM exec s = some s') : Run step s tr s' := by
  induction tr generalizing s with
  | nil => cases h; exact .start
  | cons l tr ih =>
    rw [List.foldlM_cons] at h
    obtain ⟨s₁, first, rest⟩ := Option.bind_eq_some_iff.mp h
    exact (ih rest).cons (sound first)

/-- A computed run, with what is decided of its last state. -/
theorem Run.exists_of_exec (exec : σ → ℓ → Option σ) (sound : ∀ {s l s'}, exec s l = some s' → step s l s')
    (tr : List ℓ) (s : σ) (P : σ → Prop) [DecidablePred P]
    (h : (tr.foldlM exec s).map (fun s' => decide (P s')) = some true) : ∃ s', Run step s tr s' ∧ P s' := by
  obtain ⟨s', ends, holds⟩ := Option.map_eq_some_iff.mp h
  exact ⟨s', .of_exec sound ends, of_decide_eq_true holds⟩

section Cut
variable {α : Type}

/-- Where a list that grows by one is cut. -/
theorem concat_eq_cut {tr a b : List α} {l x : α} :
    tr ++ [l] = a ++ x :: b ↔ b = [] ∧ tr = a ∧ l = x ∨ ∃ b', b = b' ++ [l] ∧ tr = a ++ x :: b' := by
  constructor
  · intro same
    rcases List.eq_nil_or_concat b with rfl | ⟨b', l', rfl⟩
    · obtain ⟨rfl, last⟩ := List.append_inj' same rfl
      exact Or.inl ⟨rfl, rfl, List.singleton_inj.mp last⟩
    · rw [List.concat_eq_append, ← List.cons_append, ← List.append_assoc] at same
      obtain ⟨rfl, last⟩ := List.append_inj' same rfl
      cases last
      exact Or.inr ⟨b', by rw [List.concat_eq_append], rfl⟩
  · rintro (⟨rfl, rfl, rfl⟩ | ⟨b', rfl, rfl⟩)
    · rfl
    · simp

/-- The last label with a property, between what comes before and after it. -/
structure LastAt (P : α → Prop) (tr before : List α) (l : α) (after : List α) : Prop where
  cut : tr = before ++ l :: after
  here : P l
  last : ∀ l' ∈ after, ¬ P l'

/-- There is one last label. -/
theorem LastAt.unique {P : α → Prop} {tr a a' b b' : List α} {l l' : α} (h : LastAt P tr a l b)
    (h' : LastAt P tr a' l' b') : a = a' ∧ l = l' ∧ b = b' := by
  obtain ⟨rfl, here, last⟩ := h
  obtain ⟨same, here', last'⟩ := h'
  rcases List.append_eq_append_iff.mp same with ⟨c, rfl, rest⟩ | ⟨c, rfl, rest⟩
  · cases c with
    | nil =>
      obtain ⟨rfl, rfl⟩ := List.cons_eq_cons.mp rest
      exact ⟨(List.append_nil a).symm, rfl, rfl⟩
    | cons x c =>
      obtain ⟨_, rfl⟩ := List.cons_eq_cons.mp rest
      exact absurd here' (last l' (by simp))
  · cases c with
    | nil =>
      obtain ⟨rfl, rfl⟩ := List.cons_eq_cons.mp rest
      exact ⟨List.append_nil a', rfl, rfl⟩
    | cons x c =>
      obtain ⟨_, rfl⟩ := List.cons_eq_cons.mp rest
      exact absurd here (last' l (by simp))

theorem LastAt.now {P : α → Prop} {tr : List α} {l : α} (here : P l) : LastAt P (tr ++ [l]) tr l [] :=
  ⟨rfl, here, fun _ none => by cases none⟩

theorem LastAt.concat {P : α → Prop} {tr a b : List α} {l x : α} (h : LastAt P tr a l b) (other : ¬ P x) :
    LastAt P (tr ++ [x]) a l (b ++ [x]) := by
  obtain ⟨rfl, here, last⟩ := h
  refine ⟨by simp, here, fun l' member => ?_⟩
  rcases List.mem_append.mp member with old | new
  · exact last l' old
  · rwa [List.mem_singleton.mp new]

end Cut

section Fifo
variable {α : Type} (puts takes : ℓ → List α) (held : σ → List α)

/-- One step of a first-in first-out buffer. -/
def FifoStep (s : σ) (l : ℓ) (s' : σ) : Prop := held s ++ puts l = takes l ++ held s'

variable {puts takes held}

/-- **The history of a buffer**: all that was put in is all that was taken out,
in the same order, and then what is held. -/
theorem Run.fifo {s s' : σ} {tr : List ℓ} (h : Run step s tr s') (ok : ℓ → Prop) (Inv : σ → Prop) (init : Inv s)
    (keep : ∀ s' l s'', Inv s' → ok l → step s' l s'' → Inv s'' ∧ FifoStep puts takes held s' l s'')
    (empty : held s = []) (allowed : ∀ l ∈ tr, ok l) : tr.flatMap puts = tr.flatMap takes ++ held s' := by
  have both : Inv s' ∧ tr.flatMap puts = tr.flatMap takes ++ held s' := by
    refine h.invariant ok (fun tr s' => Inv s' ∧ tr.flatMap puts = tr.flatMap takes ++ held s') ⟨init, by simp [empty]⟩ ?_ allowed
    rintro tr s' l s'' ⟨inv, history⟩ allowed last
    obtain ⟨inv', moved⟩ := keep s' l s'' inv allowed last
    refine ⟨inv', ?_⟩
    rw [List.flatMap_append, List.flatMap_append, List.flatMap_singleton, List.flatMap_singleton, history,
      List.append_assoc, moved, List.append_assoc]
  exact both.2

end Fifo

end Transition
