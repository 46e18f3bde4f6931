import OcsComponents.Algo.BitOps
import OcsComponents.Lib.Transition
import OcsComponents.Status.Code

/-!
# The scheduler of periodic tasks driven by timers

`ocs_scheduler/async_task_scheduler.{h,cpp}` and `ocs_scheduler/async_task.cpp`. A timer sets its
node's bit in the event group, from the timer's own context, between any two steps of the
scheduler. `add()` and `run()` are calls of one task, one after the other; `run()` is a machine
of the steps of its wait and of its loop. The event group is FreeRTOS's: a wait for any of some bits
returns all current bits, and clears those waited for; one that runs out of time finds none of them.
-/

namespace OcsComponents.Scheduler
open Status Transition Algo

namespace AsyncTaskScheduler

/-- `AsyncTask`, the task of a node's timer. -/
structure AsyncTask where
  event : BitVec 32

/-- `AsyncTaskScheduler::Node`. -/
structure Node (τ : Type) where
  task : τ
  event : BitVec 32
  id : String
  asyncTask : AsyncTask

def Node.new {τ : Type} (task : τ) (event : BitVec 32) (id : String) : Node τ := ⟨task, event, id, ⟨event⟩⟩

/-- Where a call of `run()` is: in its wait, or in `run_` at a node. -/
inductive Phase where
  | idle
  | waiting (bits : BitVec 32)
  | dispatching (bits : BitVec 32) (next : Nat)

end AsyncTaskScheduler

open AsyncTaskScheduler

structure AsyncTaskScheduler (τ : Type) where
  nodes : List (Node τ)
  eventGroup : BitVec 32
  bitsAll : BitVec 32
  phase : Phase

namespace AsyncTaskScheduler
variable {τ : Type}

def new : AsyncTaskScheduler τ := ⟨[], 0#32, 0#32, .idle⟩

/-- `max_count()`: `EventBits_t` has four bytes, and FreeRTOS uses the high one itself. -/
def maxCount : Nat := 4 * 8 - 8

def add (s : AsyncTaskScheduler τ) (task : τ) (id : String) : StatusCode × AsyncTaskScheduler τ :=
  if s.nodes.length = maxCount then (.error, s)
  else if s.nodes.any fun node => node.id == id then (.invalidArg, s)
  else
    let event := BitOps.mask s.nodes.length
    (.ok, { s with nodes := s.nodes ++ [.new task event id], bitsAll := s.bitsAll ||| event })

/-- `AsyncTask::run`. -/
def fire (s : AsyncTaskScheduler τ) (asyncTask : AsyncTask) : AsyncTaskScheduler τ :=
  { s with eventGroup := s.eventGroup ||| asyncTask.event }

/-- `xEventGroupWaitBits` finds a bit it waits for. -/
def wake (s : AsyncTaskScheduler τ) (bits : BitVec 32) : AsyncTaskScheduler τ :=
  { s with eventGroup := s.eventGroup &&& ~~~ bits, phase := .dispatching s.eventGroup 0 }

/-- It runs out of time. -/
def timeout (s : AsyncTaskScheduler τ) : AsyncTaskScheduler τ := { s with phase := .dispatching s.eventGroup 0 }

def goto (s : AsyncTaskScheduler τ) (phase : Phase) : AsyncTaskScheduler τ := { s with phase }

/-- The steps by name. A node is named by its index, `wake` and `timeout` show the bits the wait
returns, and `execute` the task called and its status. -/
inductive Label (τ : Type) where
  | add (task : τ) (id : String)
  | fire (node : Nat)
  | wait
  | wake (bits : BitVec 32)
  | timeout (bits : BitVec 32)
  | execute (node : Nat) (task : τ) (code : StatusCode)
  | skip (node : Nat)
  | finish

inductive Step (s : AsyncTaskScheduler τ) : Label τ → AsyncTaskScheduler τ → Prop where
  | add (task : τ) (id : String) (idle : s.phase = .idle) : Step s (.add task id) (s.add task id).2
  | fire {i : Nat} {node : Node τ} (accepted : s.nodes[i]? = some node) : Step s (.fire i) (s.fire node.asyncTask)
  | wait (idle : s.phase = .idle) (some : s.nodes ≠ []) : Step s .wait (s.goto (.waiting s.bitsAll))
  | wake {bits : BitVec 32} (here : s.phase = .waiting bits) (found : s.eventGroup &&& bits ≠ 0#32) :
      Step s (.wake s.eventGroup) (s.wake bits)
  | timeout {bits : BitVec 32} (here : s.phase = .waiting bits) (none : s.eventGroup &&& bits = 0#32) :
      Step s (.timeout s.eventGroup) s.timeout
  | execute {bits : BitVec 32} {i : Nat} {node : Node τ} (code : StatusCode) (here : s.phase = .dispatching bits i)
      (at_ : s.nodes[i]? = some node) (set : bits &&& node.event ≠ 0#32) :
      Step s (.execute i node.task code) (s.goto (.dispatching bits (i + 1)))
  | skip {bits : BitVec 32} {i : Nat} {node : Node τ} (here : s.phase = .dispatching bits i)
      (at_ : s.nodes[i]? = some node) (clear : bits &&& node.event = 0#32) :
      Step s (.skip i) (s.goto (.dispatching bits (i + 1)))
  | finish {bits : BitVec 32} (here : s.phase = .dispatching bits s.nodes.length) : Step s .finish (s.goto .idle)

/-! ## The bits of the nodes -/

/-- What `add()` hands out: the node at an index has the bit of this index, and so has its timer. -/
structure Allocated (s : AsyncTaskScheduler τ) : Prop where
  room : s.nodes.length ≤ maxCount
  own : ∀ i node, s.nodes[i]? = some node → node.event = BitOps.mask i ∧ node.asyncTask.event = BitOps.mask i
  bits : ∀ i, s.bitsAll.getLsbD i = decide (i < s.nodes.length)
  union : s.bitsAll = s.nodes.foldl (fun bits node => bits ||| node.event) 0#32

theorem Allocated.new : Allocated (new : AsyncTaskScheduler τ) where
  room := Nat.zero_le _
  own i node found := by simp [AsyncTaskScheduler.new] at found
  bits i := by simp [AsyncTaskScheduler.new]
  union := rfl

/-- A call of `add()` is refused and changes nothing, or appends a node. -/
theorem add_cases (s : AsyncTaskScheduler τ) (task : τ) (id : String) :
    (s.add task id).1 ≠ .ok ∧ (s.add task id).2 = s ∨
      (s.add task id).1 = .ok ∧ s.nodes.length ≠ maxCount ∧ (s.add task id).2 = { s with
        nodes := s.nodes ++ [.new task (BitOps.mask s.nodes.length) id]
        bitsAll := s.bitsAll ||| BitOps.mask s.nodes.length } := by
  unfold add
  split
  · exact Or.inl ⟨by simp, rfl⟩
  · split
    · exact Or.inl ⟨by simp, rfl⟩
    · exact Or.inr ⟨rfl, by assumption, rfl⟩

theorem add_refused {s : AsyncTaskScheduler τ} {task : τ} {id : String} (refused : (s.add task id).1 ≠ .ok) :
    (s.add task id).2 = s := by
  rcases s.add_cases task id with ⟨_, same⟩ | ⟨ok, _⟩
  · exact same
  · exact absurd ok refused

theorem Allocated.add {s : AsyncTaskScheduler τ} (h : s.Allocated) (task : τ) (id : String) :
    Allocated (s.add task id).2 := by
  rcases s.add_cases task id with ⟨_, same⟩ | ⟨_, room, added⟩
  · rwa [same]
  · have few : s.nodes.length < maxCount := Nat.lt_of_le_of_ne h.room room
    have bound : maxCount = 24 := rfl
    rw [added]
    constructor
    · rw [List.length_append]
      exact few
    · intro i node found
      rcases Nat.lt_trichotomy i s.nodes.length with inside | last | outside
      · exact h.own i node (by simpa [List.getElem?_append_left inside] using found)
      · subst last
        obtain rfl : Node.new task (BitOps.mask s.nodes.length) id = node := by simpa using found
        exact ⟨rfl, rfl⟩
      · have inside := (List.getElem?_eq_some_iff.mp found).1
        rw [List.length_append, List.length_singleton] at inside
        omega
    · intro i
      rw [BitVec.getLsbD_or, h.bits, BitOps.mask_getLsbD, List.length_append, List.length_singleton]
      rw [Bool.eq_iff_iff]
      simp only [Bool.or_eq_true, Bool.and_eq_true, decide_eq_true_eq]
      omega
    · rw [List.foldl_append, ← h.union]
      rfl

/-- A node's bit is tested by its mask. -/
theorem Allocated.event_set {s : AsyncTaskScheduler τ} (h : s.Allocated) {i : Nat} {node : Node τ}
    (at_ : s.nodes[i]? = some node) (bits : BitVec 32) : bits &&& node.event ≠ 0#32 ↔ bits.getLsbD i = true := by
  have inside : i < s.nodes.length := (List.getElem?_eq_some_iff.mp at_).1
  have room := h.room
  have bound : maxCount = 24 := rfl
  rw [(h.own i node at_).1, ← BitOps.nth_eq bits (by omega : i < 32), BitOps.nth, BitVec.and_comm, bne_iff_ne]

end AsyncTaskScheduler
end OcsComponents.Scheduler
