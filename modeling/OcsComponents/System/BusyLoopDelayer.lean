import OcsComponents.Lib.Transition

/-!
# Busy delays

`ocs_system/busy_loop_delayer.cpp`: a task that calls `delay` again and again, and its timer. `delay` sets the
timer to zero, starts it, reads it until the delay has passed, and stops it; it leaves at the first of these
calls that fails. A timer that runs cannot be started, and nothing but the end of `delay` stops it.
-/

namespace OcsComponents.System
open Transition

/-- Where the task is in `delay`, by what it does next. -/
inductive BusyTask where
  | idle
  | setRawCount (delay : Int)
  | start (delay : Int)
  | getRawCount (delay : Int)
  | stop (delay : Int)
  deriving DecidableEq, Repr

structure BusyLoopDelayer where
  task : BusyTask
  /-- The timer counts. -/
  running : Bool
  rawCount : Nat
  /-- The time, and when `delay` was called. -/
  now : Nat
  called : Nat
  deriving DecidableEq, Repr

namespace BusyLoopDelayer

def new : BusyLoopDelayer := ⟨.idle, false, 0, 0, 0⟩

/-- `value >= delay` is a comparison of unsigned numbers. -/
def unsigned (delay : Int) : Nat := (BitVec.ofInt 64 delay).toNat

/-- The steps; `ok` where a timer function returns `ESP_OK`. -/
inductive Label where
  | call (delay : Int)
  | setRawCount (ok : Bool)
  | start (ok : Bool)
  | getRawCount (ok : Bool)
  | stop (ok : Bool)
  | tick
  deriving DecidableEq, Repr

/-- The step of a label, where there is one. -/
def exec (s : BusyLoopDelayer) : Label → Option BusyLoopDelayer
  | .call delay => if s.task = .idle then some { s with task := .setRawCount delay, called := s.now } else none
  | .setRawCount ok =>
    match s.task with
    | .setRawCount delay =>
      some (if ok then { s with task := .start delay, rawCount := 0 } else { s with task := .idle })
    | _ => none
  | .start ok =>
    match s.task with
    | .start delay =>
      if ok then
        if s.running then none else some { s with task := .getRawCount delay, running := true }
      else some { s with task := .idle }
    | _ => none
  | .getRawCount ok =>
    match s.task with
    | .getRawCount delay =>
      some (if ok then
        if unsigned delay ≤ s.rawCount then { s with task := .stop delay } else s
      else { s with task := .idle })
    | _ => none
  | .stop ok =>
    match s.task with
    | .stop _ => some (if ok then { s with task := .idle, running := false } else { s with task := .idle })
    | _ => none
  | .tick => some { s with now := s.now + 1, rawCount := if s.running then s.rawCount + 1 else s.rawCount }

def Step (s : BusyLoopDelayer) (l : Label) (s' : BusyLoopDelayer) : Prop := exec s l = some s'

/-- `delay` returns an error, and has started the timer. -/
def Label.Abandons (l : Label) : Prop := l = .getRawCount false ∨ l = .stop false

/-- What the timer shows, by where the task is. -/
structure Kept (s : BusyLoopDelayer) : Prop where
  called : s.called ≤ s.now
  zero : ∀ delay, s.task = .start delay → s.running = false → s.rawCount = 0
  counted : ∀ delay, s.task = .getRawCount delay → s.running = true ∧ s.rawCount + s.called ≤ s.now
  passed : ∀ delay, s.task = .stop delay → s.running = true ∧ unsigned delay + s.called ≤ s.now

theorem kept_new : Kept new := ⟨Nat.le_refl _, nofun, nofun, nofun⟩

theorem Kept.step {s s' : BusyLoopDelayer} {l : Label} (h : Kept s) (step : Step s l s') : Kept s' := by
  obtain ⟨called, zero, counted, passed⟩ := h
  simp only [Step] at step
  cases l with
  | call delay =>
    simp only [exec] at step
    split at step
    · cases step
      exact ⟨Nat.le_refl _, nofun, nofun, nofun⟩
    · cases step
  | setRawCount ok =>
    simp only [exec] at step
    split at step
    · cases step
      cases ok with
      | true => exact ⟨called, fun _ _ _ => rfl, nofun, nofun⟩
      | false => exact ⟨called, nofun, nofun, nofun⟩
    · cases step
  | start ok =>
    simp only [exec] at step
    split at step
    · next delay here =>
      cases ok with
      | true =>
        cases running : s.running with
        | true => simp [running] at step
        | false =>
          have none := zero delay here running
          simp only [running, Bool.false_eq_true, if_false, if_true] at step
          cases step
          refine ⟨called, nofun, fun _ _ => ⟨rfl, ?_⟩, nofun⟩
          simpa [none] using called
      | false =>
        cases step
        exact ⟨called, nofun, nofun, nofun⟩
    · cases step
  | getRawCount ok =>
    simp only [exec] at step
    split at step
    · next delay here =>
      obtain ⟨running, elapsed⟩ := counted delay here
      cases ok with
      | true =>
        simp only [if_true] at step
        split at step
        · next reached =>
          cases step
          refine ⟨called, nofun, nofun, fun _ same => ?_⟩
          cases same
          exact ⟨running, Nat.le_trans (Nat.add_le_add_right reached _) elapsed⟩
        · cases step
          exact ⟨called, zero, counted, passed⟩
      | false =>
        cases step
        exact ⟨called, nofun, nofun, nofun⟩
    · cases step
  | stop ok =>
    simp only [exec] at step
    split at step
    · cases step
      cases ok <;> exact ⟨called, nofun, nofun, nofun⟩
    · cases step
  | tick =>
    cases step
    refine ⟨Nat.le_succ_of_le called, ?_, ?_, ?_⟩
    · intro delay here stopped
      have off : s.running = false := stopped
      simp only [off, Bool.false_eq_true, if_false]
      exact zero delay here off
    · intro delay here
      obtain ⟨running, elapsed⟩ := counted delay here
      simp only [running, if_true, true_and]
      omega
    · intro delay here
      obtain ⟨running, elapsed⟩ := passed delay here
      exact ⟨running, Nat.le_succ_of_le elapsed⟩

theorem Kept.of_run {tr : List Label} {s : BusyLoopDelayer} (h : Run Step new tr s) : Kept s :=
  h.preserves (fun _ => True) Kept kept_new (fun _ _ _ kept _ step => kept.step step) (by simp)

/-- The timer counts, and the task is not past its start. -/
structure Stuck (s : BusyLoopDelayer) : Prop where
  running : s.running = true
  before : s.task = .idle ∨ (∃ delay, s.task = .setRawCount delay) ∨ ∃ delay, s.task = .start delay

/-- From then on no delay gets past the start of the timer. -/
theorem Stuck.step {s s' : BusyLoopDelayer} {l : Label} (h : Stuck s) (step : Step s l s') :
    Stuck s' ∧ l ≠ .start true ∧ l ≠ .stop true := by
  obtain ⟨running, before⟩ := h
  simp only [Step] at step
  cases l with
  | call delay =>
    simp only [exec] at step
    split at step
    · cases step
      exact ⟨⟨running, .inr (.inl ⟨delay, rfl⟩)⟩, nofun, nofun⟩
    · cases step
  | setRawCount ok =>
    simp only [exec] at step
    split at step
    · next delay here =>
      cases step
      cases ok with
      | true => exact ⟨⟨running, .inr (.inr ⟨delay, rfl⟩)⟩, nofun, nofun⟩
      | false => exact ⟨⟨running, .inl rfl⟩, nofun, nofun⟩
    · cases step
  | start ok =>
    simp only [exec] at step
    split at step
    · cases ok with
      | true => simp [running] at step
      | false =>
        cases step
        exact ⟨⟨running, .inl rfl⟩, nofun, nofun⟩
    · cases step
  | getRawCount ok =>
    simp only [exec] at step
    split at step
    · next here => simp [here] at before
    · cases step
  | stop ok =>
    simp only [exec] at step
    split at step
    · next here => simp [here] at before
    · cases step
  | tick =>
    cases step
    exact ⟨⟨running, before⟩, nofun, nofun⟩

/-- A delay that fails after the start leaves the timer running. -/
theorem Kept.abandons {s s' : BusyLoopDelayer} {l : Label} (h : Kept s) (step : Step s l s') (abandons : l.Abandons) :
    Stuck s' := by
  simp only [Step] at step
  rcases abandons with same | same <;> subst same
  · simp only [exec] at step
    split at step
    · next delay here =>
      cases step
      exact ⟨(h.counted delay here).1, .inl rfl⟩
    · cases step
  · simp only [exec] at step
    split at step
    · next delay here =>
      cases step
      exact ⟨(h.passed delay here).1, .inl rfl⟩
    · cases step

/-- **Delays take their time or fail for good**: in every run a delay that ends with `OK` has taken at least its time
since the call, and after a delay has failed with its timer started, no delay ends with `OK` any more. -/
theorem delays_or_fails {tr : List Label} {s : BusyLoopDelayer} (run : Run Step new tr s) :
    (∀ delay, s.task = .stop delay → unsigned delay ≤ s.now - s.called) ∧
      ∀ before l after, tr = before ++ l :: after → l.Abandons → ∀ l' ∈ after, l' ≠ .start true ∧ l' ≠ .stop true := by
  refine ⟨fun delay here => ?_, ?_⟩
  · have passed := ((Kept.of_run run).passed delay here).2
    omega
  · intro before l after cut abandons
    subst cut
    obtain ⟨s₁, earlier, later⟩ := run.split
    obtain ⟨s₂, step, rest⟩ := later.uncons
    have stuck := (Kept.of_run earlier).abandons step abandons
    have both := rest.invariant (fun _ => True) (fun tr s => Stuck s ∧ ∀ l' ∈ tr, l' ≠ .start true ∧ l' ≠ .stop true)
      ⟨stuck, List.forall_mem_nil _⟩ ?_ (by simp)
    · exact both.2
    · intro tr s' l' s'' inv _ step'
      obtain ⟨stuck', never⟩ := inv
      obtain ⟨stuck'', not⟩ := stuck'.step step'
      exact ⟨stuck'', List.forall_mem_append.mpr ⟨never, List.forall_mem_singleton.mpr not⟩⟩

/-- A delay of two ticks, after one whose timer could not be read, and another one that fails. -/
def failing : List Label :=
  [.call 2, .setRawCount true, .start true, .tick, .getRawCount false, .call 2, .setRawCount true, .start false]

theorem delays_or_fails_failing : ∃ s, Run Step new failing s ∧ ∀ l' ∈ [Label.call 2, .setRawCount true, .start false],
    l' ≠ .start true ∧ l' ≠ .stop true := by
  obtain ⟨s, run, -⟩ := Run.exists_of_exec exec id failing new (fun s => s.task = .idle) (by decide)
  exact ⟨s, run, (delays_or_fails run).2 [.call 2, .setRawCount true, .start true, .tick]
    (.getRawCount false) _ rfl (.inl rfl)⟩

end BusyLoopDelayer

end OcsComponents.System
