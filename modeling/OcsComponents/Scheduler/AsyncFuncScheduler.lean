import OcsComponents.Core.Future
import OcsComponents.Lib.Transition
import Mathlib.Logic.Function.Basic

/-!
# The scheduler of asynchronous functions

`ocs_scheduler/async_func_scheduler.{h,cpp}` as a machine whose steps are the blocks
under the mutex and the steps of the loop outside it. The two queue objects keep their
identity: `std::swap` exchanges which of them is the write queue, while a call of
`run()` goes on with the object it has begun to iterate. Functions are opaque: between its
call and its return a function may let any steps happen, a nested `run()` among them.
-/

namespace OcsComponents.Scheduler
open Status OcsComponents.Core Transition

/-- What `add` pushes: the function and the future it notifies. A future is named
by the number of the call of `add` that made it. -/
structure Event (φ : Type) where
  func : φ
  future : Nat
  deriving DecidableEq, Repr

/-- Where the loop of `run()` is: at the iterator, in `func()`, or in `notify`. -/
inductive Stage (φ : Type) where
  | fetch
  | executing (e : Event φ)
  | notifying (e : Event φ) (code : StatusCode)

/-- A call of `run()` past its critical section: the object it iterates, the iterator
and the end, and the stage. -/
structure Frame (φ : Type) where
  queue : Bool
  index : Nat
  stop : Nat
  stage : Stage φ

/-- The scheduler, its calls of `run()` in progress (innermost first), and the
futures made by its calls of `add`. -/
structure AsyncFuncScheduler (φ : Type) where
  maxEventCount : Nat
  queues : Bool → List (Event φ)
  writeQueue : Bool
  frames : List (Frame φ)
  adds : Nat
  futures : Nat → Future

namespace AsyncFuncScheduler
variable {φ : Type}

def new (maxEventCount : Nat) : AsyncFuncScheduler φ := ⟨maxEventCount, fun _ => [], true, [], 0, fun _ => .new⟩

def setQueue (s : AsyncFuncScheduler φ) (q : Bool) (events : List (Event φ)) : AsyncFuncScheduler φ :=
  { s with queues := Function.update s.queues q events }

/-- `add()`, all of it under the mutex. `memory` tells whether the future can be
allocated; without an event the result is `nullptr`. -/
def add (s : AsyncFuncScheduler φ) (func : φ) (memory : Bool) : Option (Event φ) × AsyncFuncScheduler φ :=
  let event : Event φ := ⟨func, s.adds⟩
  let s := { s with adds := s.adds + 1 }
  if (s.queues s.writeQueue).length = s.maxEventCount then (none, s)
  else if memory then (some event, s.setQueue s.writeQueue (s.queues s.writeQueue ++ [event]))
  else (none, s)

/-- The critical section of `run()`: nothing to do, or the queues are swapped and the
iteration over the former write queue begins. -/
def swap (s : AsyncFuncScheduler φ) : Option (AsyncFuncScheduler φ) :=
  if (s.queues s.writeQueue).length = 0 then none
  else some { s with
    writeQueue := !s.writeQueue
    frames := ⟨s.writeQueue, 0, (s.queues s.writeQueue).length, .fetch⟩ :: s.frames }

/-- The loop of `run()` copies the next function and calls it. The iterator moves on
here and not after the body, where nothing reads it before the next round. -/
def call (s : AsyncFuncScheduler φ) : Option (Event φ × AsyncFuncScheduler φ) :=
  match s.frames with
  | ⟨q, i, stop, .fetch⟩ :: rest =>
    if i = stop then none
    else ((s.queues q)[i]?).map fun e => (e, { s with frames := ⟨q, i + 1, stop, .executing e⟩ :: rest })
  | _ => none

/-- The function returns. -/
def return_ (s : AsyncFuncScheduler φ) (code : StatusCode) : Option (Event φ × AsyncFuncScheduler φ) :=
  match s.frames with
  | ⟨q, i, stop, .executing e⟩ :: rest => some (e, { s with frames := ⟨q, i, stop, .notifying e code⟩ :: rest })
  | _ => none

/-- The future is notified with the status of the function. -/
def notify (s : AsyncFuncScheduler φ) : Option ((Nat × StatusCode) × AsyncFuncScheduler φ) :=
  match s.frames with
  | ⟨q, i, stop, .notifying e code⟩ :: rest =>
    some ((e.future, code), { s with
      frames := ⟨q, i, stop, .fetch⟩ :: rest
      futures := Function.update s.futures e.future ((s.futures e.future).notify code) })
  | _ => none

/-- The end of `run()`: it clears what is the read queue now. -/
def leave (s : AsyncFuncScheduler φ) : Option (AsyncFuncScheduler φ) :=
  match s.frames with
  | ⟨_, i, stop, .fetch⟩ :: rest => if i = stop then some { s.setQueue (!s.writeQueue) [] with frames := rest } else none
  | _ => none

/-- `run()` can be called: by the consumer's loop, or by the function being executed. -/
def Ready (s : AsyncFuncScheduler φ) : Prop :=
  match s.frames with
  | [] => True
  | ⟨_, _, _, .executing _⟩ :: _ => True
  | _ => False

/-- A call of `run()` now is a nested one. -/
def nested (s : AsyncFuncScheduler φ) : Bool := !s.frames.isEmpty

end AsyncFuncScheduler

/-- The steps by name, with what they hand over. -/
inductive Label (φ : Type) where
  | accept (e : Event φ)
  | reject (e : Event φ)
  | runEmpty (nested : Bool)
  | runSwap (nested : Bool)
  | call (e : Event φ)
  | ret (e : Event φ) (code : StatusCode)
  | notify (future : Nat) (code : StatusCode)
  | leave

/-- The steps. `add` may come from any task at any time, the executed function included. -/
inductive Step {φ : Type} (s : AsyncFuncScheduler φ) : Label φ → AsyncFuncScheduler φ → Prop where
  | accept {func memory e s'} (added : s.add func memory = (some e, s')) : Step s (.accept e) s'
  | reject {func memory s'} (refused : s.add func memory = (none, s')) : Step s (.reject ⟨func, s.adds⟩) s'
  | runEmpty (ready : s.Ready) (empty : s.swap = none) : Step s (.runEmpty s.nested) s
  | runSwap {s'} (ready : s.Ready) (swapped : s.swap = some s') : Step s (.runSwap s.nested) s'
  | call {e s'} (called : s.call = some (e, s')) : Step s (.call e) s'
  | ret {e code s'} (returned : s.return_ code = some (e, s')) : Step s (.ret e code) s'
  | notify {future code s'} (notified : s.notify = some ((future, code), s')) : Step s (.notify future code) s'
  | leave {s'} (left : s.leave = some s') : Step s .leave s'

/-! ## Running a trace -/

instance {φ : Type} (s : AsyncFuncScheduler φ) : Decidable s.Ready :=
  match h : s.frames with
  | [] => isTrue (by simp [AsyncFuncScheduler.Ready, h])
  | ⟨_, _, _, .executing _⟩ :: _ => isTrue (by simp [AsyncFuncScheduler.Ready, h])
  | ⟨_, _, _, .fetch⟩ :: _ => isFalse (by simp [AsyncFuncScheduler.Ready, h])
  | ⟨_, _, _, .notifying _ _⟩ :: _ => isFalse (by simp [AsyncFuncScheduler.Ready, h])

/-- The result of a step that hands over `a`. -/
def handing {α σ : Type} [DecidableEq α] (a : α) : Option (α × σ) → Option σ
  | some (a', s) => if a' = a then some s else none
  | none => none

theorem handing_some {α σ : Type} [DecidableEq α] {a : α} {x : Option (α × σ)} {s : σ}
    (h : handing a x = some s) : x = some (a, s) := by
  match x with
  | none => cases h
  | some (a', s') =>
    by_cases same : a' = a
    · simp only [handing, if_pos same, Option.some.injEq] at h
      rw [same, h]
    · simp only [handing, if_neg same] at h
      cases h

/-- The step with a given label. -/
def AsyncFuncScheduler.exec {φ : Type} [DecidableEq φ] (s : AsyncFuncScheduler φ) :
    Label φ → Option (AsyncFuncScheduler φ)
  | .accept e => handing (some e) (some (s.add e.func true))
  | .reject e => if e.future = s.adds then handing none (some (s.add e.func false)) else none
  | .runEmpty nested => if s.Ready ∧ s.nested = nested ∧ s.swap.isNone then some s else none
  | .runSwap nested => if s.Ready ∧ s.nested = nested then s.swap else none
  | .call e => handing e s.call
  | .ret e code => handing e (s.return_ code)
  | .notify future code => handing (future, code) s.notify
  | .leave => s.leave

theorem AsyncFuncScheduler.exec_sound {φ : Type} [DecidableEq φ] {s s' : AsyncFuncScheduler φ} {l : Label φ}
    (h : s.exec l = some s') : Step s l s' := by
  cases l with
  | accept e => exact .accept (Option.some.inj (handing_some h))
  | reject e =>
    simp only [exec] at h
    split at h
    · rename_i number
      have refused := Option.some.inj (handing_some h)
      obtain ⟨func, future⟩ := e
      obtain rfl : future = s.adds := number
      exact .reject refused
    · cases h
  | runEmpty nested =>
    simp only [exec] at h
    split at h
    · rename_i can
      cases h
      obtain ⟨ready, rfl, empty⟩ := can
      exact .runEmpty ready (Option.isNone_iff_eq_none.mp empty)
    · cases h
  | runSwap nested =>
    simp only [exec] at h
    split at h
    · rename_i can
      obtain ⟨ready, rfl⟩ := can
      exact .runSwap ready h
    · cases h
  | call e => exact .call (handing_some h)
  | ret e code => exact .ret (handing_some h)
  | notify future code => exact .notify (handing_some h)
  | leave => exact .leave h

end OcsComponents.Scheduler
