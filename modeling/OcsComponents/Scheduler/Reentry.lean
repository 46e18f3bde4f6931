import OcsComponents.Scheduler.Delivery

/-!
# Calling the scheduler from a function

The header promises that it is safe to call scheduler functions in a function being
executed. `add()` is, and so is a `run()` that finds nothing to do. A nested `run()` that
swaps the queues is not: it makes the queue object of the iteration around it the write
queue again, and the `clear()` at the end of that iteration empties the other one, so
what has been executed is still queued.
-/

namespace OcsComponents.Scheduler
open Status OcsComponents.Core Transition AsyncFuncScheduler

/-- No step touches the queue object that a call of `run()` is iterating; the only
step that clears one is the last of its iteration. -/
def Untouched {φ : Type} (s : AsyncFuncScheduler φ) : Prop :=
  ∀ l s', Step s l s' → Flat l →
    (l ≠ .leave → ∀ fr ∈ s.frames, s'.queues fr.queue = s.queues fr.queue) ∧ (l = .leave → s'.frames = [])

theorem Sole.untouched {φ : Type} {s : AsyncFuncScheduler φ} (h : Sole s) : Untouched s := by
  intro l s' step flat
  constructor
  · intro stays fr member
    cases l with
    | accept e =>
      cases step with
      | accept added =>
        obtain ⟨rfl, _, rfl⟩ := add_some added
        -- the iterated queue is the read queue, and `add` writes the other one
        cases h with
        | idle frames clear => rw [frames] at member; cases member
        | busy frames all inside =>
          rw [frames, List.mem_singleton] at member
          subst member
          simp
    | _ => rw [step.queues_eq rfl stays]
  · rintro rfl
    cases step with
    | leave did =>
      obtain ⟨_, _, rest, top, rfl⟩ := leave_some did
      cases h with
      | idle frames clear => rw [frames] at top; cases top
      | busy frames all inside => rw [frames] at top; cases top; rfl

/-- **The scheduler can be re-entered** as long as every nested `run()` finds the write
queue empty. -/
theorem scheduler_reentrant {φ : Type} {maxEventCount : Nat} {tr : List (Label φ)} {s : AsyncFuncScheduler φ}
    (h : Run Step (.new maxEventCount) tr s) (flat : ∀ l ∈ tr, Flat l) :
    Delivery maxEventCount tr s ∧ Complete tr s ∧ Untouched s :=
  ⟨.of_run h flat, .of_run h flat, (Histories.of_run h flat).sole.untouched⟩

/-- A function that calls `run()`, finds nothing, adds another and returns. -/
def reentered : List (Label Nat) :=
  [.accept ⟨10, 0⟩, .runSwap false, .call ⟨10, 0⟩, .runEmpty true, .accept ⟨11, 1⟩, .ret ⟨10, 0⟩ .ok, .notify 0 .ok,
    .leave]

theorem scheduler_reentrant_empty : ∃ s, Delivery 2 reentered s ∧ Complete reentered s ∧ Untouched s := by
  obtain ⟨s, ends⟩ := Option.isSome_iff_exists.mp
    (by decide : (reentered.foldlM exec (.new 2 : AsyncFuncScheduler Nat)).isSome = true)
  exact ⟨s, scheduler_reentrant (.of_exec exec_sound ends) (by simp [reentered, Flat])⟩

/-- A function that adds another and calls `run()` the first time it is executed, and
returns at once the second time. -/
def nestedRun : List (Label Nat) :=
  [.accept ⟨10, 0⟩, .runSwap false, .call ⟨10, 0⟩, .accept ⟨11, 1⟩,
    .runSwap true, .call ⟨11, 1⟩, .ret ⟨11, 1⟩ .ok, .notify 1 .ok, .leave,
    .ret ⟨10, 0⟩ .ok, .notify 0 .ok, .leave,
    .runSwap false, .call ⟨10, 0⟩, .ret ⟨10, 0⟩ .ok, .notify 0 .ok, .leave]

/-- It is accepted once, executed twice and notified twice. -/
theorem scheduler_nested_run_twice :
    ∃ s, Run Step (.new 2) nestedRun s ∧ s.frames = [] ∧ (∀ q, s.queues q = []) ∧
      (accepted nestedRun).count ⟨10, 0⟩ = 1 ∧ (called nestedRun).count ⟨10, 0⟩ = 2 ∧
      (notified nestedRun).count (0, .ok) = 2 := by
  obtain ⟨s, ends⟩ := Option.isSome_iff_exists.mp
    (by decide : (nestedRun.foldlM exec (.new 2 : AsyncFuncScheduler Nat)).isSome = true)
  have final : (nestedRun.foldlM exec (.new 2 : AsyncFuncScheduler Nat)).map
      (fun s => (s.frames.length, s.queues true, s.queues false)) = some (0, [], []) := by decide
  rw [ends, Option.map_some, Option.some.injEq, Prod.mk.injEq, Prod.mk.injEq] at final
  obtain ⟨idle, one, other⟩ := final
  exact ⟨s, .of_exec exec_sound ends, List.eq_nil_of_length_eq_zero idle,
    fun q => by cases q <;> assumption, by decide, by decide, by decide⟩

end OcsComponents.Scheduler
