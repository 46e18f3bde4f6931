import OcsComponents.Core.FutureWait

/-!
# Flags beside condition variables and futures

`ocs_core/basic_async_flag.{h,cpp}` and `ocs_core/async_flag.{h,cpp}`, used by the same tasks as any
condition variables and futures. All of them end in the task's one notification value, which is
shared here: a step of a condition variable or of a future runs over it. A flag keeps the
handle of the task that waits for it. A wait that runs out of time leaves its handle behind, as
one of a condition variable leaves its entry.
-/

namespace OcsComponents.Core
open Transition

/-! ## The other objects -/

/-- A condition variable or a future, with the tasks that use it. -/
inductive Waitable (τ : Type) where
  | cond (c : Cond τ)
  | future (f : FutureTasks τ)

namespace Waitable
variable {τ : Type}

/-- The condition variable under it. -/
@[simp] def inner : Waitable τ → Cond τ
  | .cond c => c
  | .future f => f.cond

/-- The object over these notification values. -/
def withCount (count : τ → Nat) : Waitable τ → Waitable τ
  | .cond c => .cond { c with count }
  | .future f => .future { f with cond := { f.cond with count } }

/-- A step of one of the two. -/
inductive Move (τ : Type) where
  | cond (l : Cond.Label τ)
  | future (l : FutureTasks.Label τ)

/-- The task that takes the step. -/
@[simp] def Move.task : Move τ → τ
  | .cond l => l.task
  | .future (.call t _) | .future (.notify t _) | .future (.code t) | .future (.lock t) | .future (.sleep t)
  | .future (.ready t) | .future (.fail t) | .future (.store t _) | .future (.done t) | .future (.told t _) => t
  | .future (.cond l) => l.task

/-- It is the `xTaskNotifyGive` of `signal_`. -/
@[simp] def Move.gives : Move τ → Bool
  | .cond (.give _) => true
  | .future (.cond (.give _)) => true
  | _ => false

variable [DecidableEq τ]

/-- The task is in a call of the object. -/
def busy (t : τ) : Waitable τ → Bool
  | .cond c => c.place t != .outside
  | .future f => f.doing t != .idle || f.cond.place t != .outside

inductive Step : Waitable τ → Move τ → Waitable τ → Prop
  | cond {c c' : Cond τ} {l : Cond.Label τ} (moves : Cond.Step c l c') : Step (.cond c) (.cond l) (.cond c')
  | future {f f' : FutureTasks τ} {l : FutureTasks.Label τ} (moves : FutureTasks.Step f l f') :
      Step (.future f) (.future l) (.future f')

end Waitable

/-! ## The flags -/

/-- `task_to_notify_`: a task, and which of its waits has stored it (the code keeps only the task). -/
structure Handle (τ : Type) where
  task : τ
  wait : Nat

/-- The call a task is in. -/
inductive Call (τ φ κ : Type) where
  | none
  /-- `BasicAsyncFlag::wait`: the handle is stored. -/
  | waiting (flag : φ) (wait : TickType)
  /-- `AsyncFlag::signal`: has taken a handle and not notified its task yet. -/
  | giving (handle : Handle τ)
  /-- A call of another object. -/
  | inside (object : κ)

/-- Tasks with their notification values, flags, and other objects. -/
structure Tasks (τ φ κ : Type) where
  count : τ → Nat
  /-- How many waits for flags each task has begun. -/
  waits : τ → Nat
  flags : φ → Option (Handle τ)
  objects : κ → Waitable τ
  call : τ → Call τ φ κ

namespace Tasks
variable {τ φ κ : Type}

/-- Objects of the given kinds that nobody has used. -/
def new (isFuture : κ → Bool) : Tasks τ φ κ where
  count _ := 0
  waits _ := 0
  flags _ := none
  objects k := if isFuture k then .future (.new fun _ => 0) else .cond (.new fun _ => 0)
  call _ := .none

inductive Label (τ φ κ : Type) where
  /-- `wait`: the handle is stored. -/
  | wait (t : τ) (f : φ) (wait : TickType)
  /-- `wait` takes its notification and returns `OK`. -/
  | take (t : τ)
  /-- `wait` returns `Error`. -/
  | timeout (t : τ)
  /-- `signal`: the exchange of `acquire_task_`. Without a handle the call returns `Error`. -/
  | signal (u : τ) (f : φ)
  /-- `signal`: `xTaskNotifyGive`. -/
  | give (u : τ)
  /-- A step of another object. -/
  | other (k : κ) (m : Waitable.Move τ)

variable [DecidableEq τ] [DecidableEq φ] [DecidableEq κ]

/-- Task `t` goes on to the call `c`. -/
def goto (s : Tasks τ φ κ) (t : τ) (c : Call τ φ κ) : Tasks τ φ κ := { s with call := Function.update s.call t c }

/-- `task_to_notify_.store(..)`. -/
def store (s : Tasks τ φ κ) (t : τ) (f : φ) : Tasks τ φ κ :=
  { s with
    waits := Function.update s.waits t (s.waits t + 1)
    flags := Function.update s.flags f (some ⟨t, s.waits t + 1⟩) }

/-- `acquire_task_`. -/
def acquireTask (s : Tasks τ φ κ) (f : φ) : Tasks τ φ κ := { s with flags := Function.update s.flags f none }

def setCount (s : Tasks τ φ κ) (t : τ) (n : Nat) : Tasks τ φ κ := { s with count := Function.update s.count t n }

/-- The object `k` after a step of task `t`. -/
def moved (s : Tasks τ φ κ) (k : κ) (t : τ) (w : Waitable τ) : Tasks τ φ κ :=
  { s with
    count := w.inner.count
    objects := Function.update s.objects k w
    call := Function.update s.call t (if w.busy t then .inside k else .none) }

/-- The steps. A task is in one call at a time. -/
inductive Step (s : Tasks τ φ κ) : Label τ φ κ → Tasks τ φ κ → Prop where
  | wait {t f wait} (out : s.call t = .none) : Step s (.wait t f wait) ((s.store t f).goto t (.waiting f wait))
  | take {t f wait} (here : s.call t = .waiting f wait) (some : s.count t ≠ 0) :
      Step s (.take t) ((s.setCount t 0).goto t .none)
  | timeout {t f wait} (here : s.call t = .waiting f wait) (none : s.count t = 0) (ends : wait ≠ portMaxDelay) :
      Step s (.timeout t) (s.goto t .none)
  | signal {u f h} (out : s.call u = .none) (found : s.flags f = some h) :
      Step s (.signal u f) ((s.acquireTask f).goto u (.giving h))
  | signalNone {u f} (out : s.call u = .none) (none : s.flags f = none) : Step s (.signal u f) (s.acquireTask f)
  | give {u h} (here : s.call u = .giving h) :
      Step s (.give u) ((s.setCount h.task (s.count h.task + 1)).goto u .none)
  | other {k m w} (mine : s.call m.task = .none ∨ s.call m.task = .inside k)
      (moves : Waitable.Step ((s.objects k).withCount s.count) m w) : Step s (.other k m) (s.moved k m.task w)

end Tasks

end OcsComponents.Core
