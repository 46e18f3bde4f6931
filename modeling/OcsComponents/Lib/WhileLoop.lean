import OcsComponents.Lib.Transition

/-!
# Loops that leave

A `while (true)` loop is its body: one iteration either leaves with a result or
goes on from a new state, under a label that says what it did. `Goes` are the
runs of iterations that go on, `Leaves` is the loop's end, and a loop leaves
when from some iteration on a bounded rank grows (`leaves_of_rank`).
-/

namespace WhileLoop
open Transition

variable {α ρ ℓ : Type} (body : α → ρ ⊕ (ℓ × α))

/-- The loop, with an allowance for its iterations. -/
def run : Nat → α → Option ρ
  | 0, _ => none
  | fuel + 1, s =>
    match body s with
    | .inl r => some r
    | .inr (_, s') => run fuel s'

/-- The iterations labelled `tr` lead from `s` to `s'`. -/
abbrev Goes (s : α) (tr : List ℓ) (s' : α) : Prop := Run (fun s l s' => body s = .inr (l, s')) s tr s'

/-- The loop leaves with the result `r`. -/
def Leaves (s : α) (r : ρ) : Prop := ∃ fuel, run body fuel s = some r

variable {body}

/-- The iterations so far only use up the allowance. -/
theorem Goes.run_add {s s' : α} {tr : List ℓ} (h : Goes body s tr s') (fuel : Nat) :
    run body (tr.length + fuel) s = run body fuel s' := by
  induction h generalizing fuel with
  | start => simp
  | @next tr s' s'' l before step ih =>
    rw [List.length_append, List.length_singleton, Nat.add_assoc, ih, Nat.add_comm 1 fuel,
      run, step]

theorem Goes.leaves {s s' : α} {tr : List ℓ} {r : ρ} (h : Goes body s tr s') (exit : body s' = .inl r) :
    Leaves body s r :=
  ⟨tr.length + 1, by rw [h.run_add, run, exit]⟩

theorem leaves_now {s : α} {r : ρ} (exit : body s = .inl r) : Leaves body s r := ⟨1, by rw [run, exit]⟩

theorem Leaves.later {s s' : α} {l : ℓ} {r : ρ} (step : body s = .inr (l, s')) (h : Leaves body s' r) :
    Leaves body s r := by
  obtain ⟨fuel, ends⟩ := h
  exact ⟨fuel + 1, by rw [run, step]; exact ends⟩

/-- A loop that leaves does so after some run. -/
theorem Leaves.goes {s : α} {r : ρ} (h : Leaves body s r) : ∃ tr s', Goes body s tr s' ∧ body s' = .inl r := by
  obtain ⟨fuel, ends⟩ := h
  induction fuel generalizing s with
  | zero => cases ends
  | succ fuel ih =>
    cases step : body s with
    | inl r' =>
      rw [run, step] at ends
      cases ends
      exact ⟨[], s, .start, step⟩
    | inr next =>
      obtain ⟨l, s'⟩ := next
      rw [run, step] at ends
      obtain ⟨tr, s'', goes, exit⟩ := ih ends
      exact ⟨l :: tr, s'', goes.cons step, exit⟩

/-- Where the body leaves, no longer run goes on. -/
theorem Goes.length_le {s s₁ s₂ : α} {tr₁ tr₂ : List ℓ} {r : ρ} (ended : Goes body s tr₁ s₁)
    (exit : body s₁ = .inl r) (h : Goes body s tr₂ s₂) : tr₂.length ≤ tr₁.length := by
  by_contra longer
  have later := ended.run_add (tr₂.length - tr₁.length)
  rw [show tr₁.length + (tr₂.length - tr₁.length) = tr₂.length + 0 by omega, h.run_add] at later
  cases more : tr₂.length - tr₁.length with
  | zero => omega
  | succ k => rw [more, run, run, exit] at later; cases later

/-- The result of a loop is unique. -/
theorem Goes.exit_unique {s s' : α} {tr : List ℓ} {r r' : ρ} (h : Goes body s tr s') (exit : body s' = .inl r)
    (leaves : Leaves body s r') : r = r' := by
  obtain ⟨fuel, ends⟩ := leaves
  obtain ⟨tr', s'', goes, exit'⟩ := Leaves.goes ⟨fuel, ends⟩
  have same : tr.length = tr'.length := Nat.le_antisymm (goes.length_le exit' h) (h.length_le exit goes)
  have run₁ := h.run_add 1
  have run₂ := goes.run_add 1
  rw [same, run₂, run, run, exit, exit'] at run₁
  cases run₁
  rfl

theorem Leaves.unique {s : α} {r r' : ρ} (h : Leaves body s r) (h' : Leaves body s r') : r = r' := by
  obtain ⟨tr, s', goes, exit⟩ := h.goes
  exact goes.exit_unique exit h'

/-- **A loop leaves** if from iteration `k` on every one that goes on raises a bounded rank. -/
theorem leaves_of_rank {s : α} (k bound : Nat) (rank : List ℓ → Nat) (bounded : ∀ tr, rank tr ≤ bound)
    (grows : ∀ tr s' l s'', Goes body s tr s' → k ≤ tr.length → body s' = .inr (l, s'') →
      rank tr < rank (tr ++ [l])) : ∃ r, Leaves body s r := by
  by_contra never
  have goesOn : ∀ tr s', Goes body s tr s' → ∃ l s'', body s' = .inr (l, s'') := by
    intro tr s' h
    cases step : body s' with
    | inl r => exact absurd ⟨r, h.leaves step⟩ never
    | inr next => exact ⟨next.1, next.2, rfl⟩
  have long : ∀ n, ∃ tr s', Goes body s tr s' ∧ tr.length = n := by
    intro n
    induction n with
    | zero => exact ⟨[], s, .start, rfl⟩
    | succ n ih =>
      obtain ⟨tr, s', h, length⟩ := ih
      obtain ⟨l, s'', step⟩ := goesOn tr s' h
      exact ⟨tr ++ [l], s'', .next h step, by simp [length]⟩
  have high : ∀ n, ∃ tr s', Goes body s tr s' ∧ tr.length = k + n ∧ n ≤ rank tr := by
    intro n
    induction n with
    | zero =>
      obtain ⟨tr, s', h, length⟩ := long k
      exact ⟨tr, s', h, length, Nat.zero_le _⟩
    | succ n ih =>
      obtain ⟨tr, s', h, length, le⟩ := ih
      obtain ⟨l, s'', step⟩ := goesOn tr s' h
      have := grows tr s' l s'' h (by omega) step
      exact ⟨tr ++ [l], s'', .next h step, by simp [length]; omega, by omega⟩
  obtain ⟨tr, _, _, _, le⟩ := high (bound + 1)
  have := bounded tr
  omega

/-- **A loop leaves with a good result** if every iteration does so or keeps an invariant and lowers a variant. -/
theorem leaves_of_variant (Inv : α → Prop) (Good : ρ → Prop) (variant : α → Nat)
    (step : ∀ s, Inv s → (∃ r, body s = .inl r ∧ Good r) ∨
      ∃ l s', body s = .inr (l, s') ∧ Inv s' ∧ variant s' < variant s) {s : α} (init : Inv s) :
    ∃ r, Leaves body s r ∧ Good r := by
  induction limit : variant s using Nat.strongRecOn generalizing s with
  | ind n ih =>
    subst limit
    rcases step s init with ⟨r, exit, good⟩ | ⟨l, s', goes, kept, lower⟩
    · exact ⟨r, leaves_now exit, good⟩
    · obtain ⟨r, leaves, good⟩ := ih _ lower kept rfl
      exact ⟨r, leaves.later goes, good⟩

/-- Bodies that agree where one of them goes make the same loop. -/
theorem run_congr {body' : α → ρ ⊕ (ℓ × α)} (Inv : α → Prop) (agree : ∀ s, Inv s → body s = body' s)
    (keep : ∀ s l s', Inv s → body s = .inr (l, s') → Inv s') (fuel : Nat) {s : α} (init : Inv s) :
    run body fuel s = run body' fuel s := by
  induction fuel generalizing s with
  | zero => rfl
  | succ fuel ih =>
    rw [run, run, ← agree s init]
    cases step : body s with
    | inl r => rfl
    | inr next => exact ih (keep s next.1 next.2 init step)

/-- A body that another one follows through a map of the states makes the loop the other one follows. -/
theorem run_map {β κ : Type} {body' : β → κ ⊕ (ℓ × β)} (f : α → β) (g : ρ → κ)
    (follows : ∀ s, body' (f s) = (body s).map g (Prod.map id f)) (fuel : Nat) (s : α) :
    run body' fuel (f s) = (run body fuel s).map g := by
  induction fuel generalizing s with
  | zero => rfl
  | succ fuel ih =>
    rw [run, run, follows]
    cases body s with
    | inl r => rfl
    | inr next => exact ih next.2

/-! ## Results of fuelled functions -/

/-- A function of its fuel gives one result, from some fuel on. -/
def Gives {α : Type} (f : Nat → Option α) (r : α) : Prop :=
  (∃ fuel, f fuel = some r) ∧ ∀ fuel r', f fuel = some r' → r' = r

theorem gives_const {α : Type} (r : α) : Gives (fun _ => some r) r :=
  ⟨⟨0, rfl⟩, fun _ _ same => (Option.some.inj same).symm⟩

theorem Gives.map {α β : Type} {f : Nat → Option α} {r : α} (h : Gives f r) (k : α → β) :
    Gives (fun fuel => (f fuel).map k) (k r) := by
  obtain ⟨⟨fuel, ends⟩, unique⟩ := h
  refine ⟨⟨fuel, Option.map_eq_some_iff.mpr ⟨r, ends, rfl⟩⟩, fun fuel' r' ends' => ?_⟩
  obtain ⟨a, ends'', rfl⟩ := Option.map_eq_some_iff.mp ends'
  rw [unique fuel' a ends'']

theorem Gives.bind {α β : Type} {f : Nat → Option α} {r : α} (h : Gives f r) {k : α → Option β} {r' : β}
    (next : k r = some r') : Gives (fun fuel => (f fuel).bind k) r' := by
  obtain ⟨⟨fuel, ends⟩, unique⟩ := h
  refine ⟨⟨fuel, Option.bind_eq_some_iff.mpr ⟨r, ends, next⟩⟩, fun fuel' r'' ends' => ?_⟩
  obtain ⟨a, first, second⟩ := Option.bind_eq_some_iff.mp ends'
  rw [unique fuel' a first, next] at second
  exact (Option.some.inj second).symm

theorem Leaves.gives {s : α} {r : ρ} (h : Leaves body s r) : Gives (fun fuel => run body fuel s) r :=
  ⟨h, fun fuel _ ends => Leaves.unique ⟨fuel, ends⟩ h⟩

/-- Fuel that is enough stays so when there is more. -/
def Steady {α : Type} (f : Nat → Option α) : Prop := ∀ fuel fuel' r, fuel ≤ fuel' → f fuel = some r → f fuel' = some r

theorem steady_const {α : Type} (r : Option α) : Steady fun _ => r := fun _ _ _ _ ends => ends

theorem steady_run (s : α) : Steady fun fuel => run body fuel s := by
  intro fuel
  induction fuel generalizing s with
  | zero => nofun
  | succ fuel ih =>
    intro fuel' r more ends
    obtain ⟨fuel'', rfl⟩ := Nat.exists_eq_add_of_le' more
    dsimp only [run] at ends ⊢
    cases step : body s with
    | inl r' => rw [step] at ends; exact ends
    | inr next => rw [step] at ends; exact ih next.2 _ r (Nat.le_add_left fuel fuel'') ends

theorem Steady.map {α β : Type} {f : Nat → Option α} (h : Steady f) (k : α → β) :
    Steady fun fuel => (f fuel).map k := by
  intro fuel fuel' r more ends
  obtain ⟨a, first, rfl⟩ := Option.map_eq_some_iff.mp ends
  exact Option.map_eq_some_iff.mpr ⟨a, h fuel fuel' a more first, rfl⟩

/-- Two functions that share their fuel. -/
theorem Gives.both {α β : Type} {f : Nat → Option α} {g : Nat → Option β} {a : α} {b : β} (first : Gives f a)
    (second : Gives g b) (steady : Steady f) (steady' : Steady g) : ∃ fuel, f fuel = some a ∧ g fuel = some b := by
  obtain ⟨⟨fuel, ends⟩, -⟩ := first
  obtain ⟨⟨fuel', ends'⟩, -⟩ := second
  exact ⟨max fuel fuel', steady _ _ a (Nat.le_max_left _ _) ends, steady' _ _ b (Nat.le_max_right _ _) ends'⟩

end WhileLoop
