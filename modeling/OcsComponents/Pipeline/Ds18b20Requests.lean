import OcsComponents.Sensor.Ds18b20.Store

/-!
# The DS18B20 requests

`handle_scan_`, `handle_configuration_` and `handle_write_configuration_` of
`httpserver/ds18b20_handler.cpp`. Each schedules a closure that holds references to locals of
its own frame (`json` in all of them, the builder or the query iterators besides), waits
for the future with a timeout and returns. Nothing takes the closure back when the wait runs
out of time, so it may be executed after the frame is gone.
-/

namespace OcsComponents.Pipeline
open Status OcsComponents.Core Transition Scheduler Sensor.Ds18b20

/-- The requests that schedule a closure. -/
inductive Handler where
  | scan
  | readConfiguration
  | eraseConfiguration
  | writeConfiguration
  deriving DecidableEq, Repr

/-- A closure refers to the locals of the request that made it. -/
structure Closure where
  request : Nat
  handler : Handler
  deriving DecidableEq, Repr

/-- The frame of a request: in `future->wait()`, for an event of node `node`, or gone. -/
inductive RequestFrame where
  | waiting (node : Nat) (future : Nat)
  | returned (code : StatusCode)
  deriving DecidableEq, Repr

/-- The store and the requests made so far, by number. -/
structure Requests where
  store : Store Closure
  frames : List RequestFrame

inductive RequestLabel where
  | refuse (code : StatusCode)
  | schedule (handler : Handler) (gpio : Int)
  | done (request : Nat)
  | timeout (request : Nat)
  | store (l : StoreLabel Closure)

namespace Requests

def new (maxEventCount : Nat) (gpios : List Int) : Requests := ⟨.new maxEventCount gpios, []⟩

/-- A request whose query is well formed: `store_.schedule`, then wait, or `InvalidState`. -/
def schedule (s : Requests) (handler : Handler) (gpio : Int) (memory : Bool) : Requests :=
  match s.store.schedule gpio ⟨s.frames.length, handler⟩ memory with
  | (some (i, e), store) => ⟨store, s.frames ++ [.waiting i e.future]⟩
  | (none, store) => ⟨store, s.frames ++ [.returned .invalidState]⟩

/-- Request `r` returns. -/
def return_ (s : Requests) (r : Nat) (code : StatusCode) : Requests :=
  { s with frames := s.frames.set r (.returned code) }

end Requests

/-- The steps of any number of HTTP tasks and of the task that runs the store. -/
inductive RequestStep (s : Requests) : RequestLabel → Requests → Prop where
  /-- The query is malformed or there is no memory: nothing is scheduled. -/
  | refuse (code) : RequestStep s (.refuse code) { s with frames := s.frames ++ [.returned code] }
  | schedule (handler gpio memory) : RequestStep s (.schedule handler gpio) (s.schedule handler gpio memory)
  /-- The wait ends with the future set: its status, or that of sending the response. -/
  | done {r i future node code} (waiting : s.frames[r]? = some (.waiting i future))
      (found : s.store.nodes[i]? = some node) (set : (node.funcScheduler.futures future).poll = some .ok)
      (result : (node.funcScheduler.futures future).code ≠ .ok → code = (node.funcScheduler.futures future).code) :
      RequestStep s (.done r) (s.return_ r code)
  /-- The wait ends without `OK`. -/
  | timeout {r i future} (waiting : s.frames[r]? = some (.waiting i future)) :
      RequestStep s (.timeout r) (s.return_ r .timeout)
  | store {l store} (step : StoreStep s.store l store) : RequestStep s (.store l) { s with store }

/-! ## Scheduling -/

/-- There is a node for the GPIO, and its queue is not full. -/
def Requests.Roomy (s : Requests) (gpio : Int) : Prop :=
  ∃ i node, s.store.getNode gpio = some i ∧ s.store.nodes[i]? = some node ∧
    (node.funcScheduler.queues node.funcScheduler.writeQueue).length ≠ node.funcScheduler.maxEventCount

/-- The closure of a new request is queued at the node of the GPIO, and the request waits for it. -/
def Scheduled (handler : Handler) (gpio : Int) (s s' : Requests) : Prop :=
  ∃ i node e, s.store.getNode gpio = some i ∧ s'.store.nodes[i]? = some node ∧ e ∈ pending node.funcScheduler ∧
    e.func = ⟨s.frames.length, handler⟩ ∧ s'.frames = s.frames ++ [.waiting i e.future]

theorem Requests.schedule_roomy (s : Requests) (handler : Handler) {gpio : Int} (roomy : s.Roomy gpio) :
    Scheduled handler gpio s (s.schedule handler gpio true) := by
  obtain ⟨i, node, place, found, room⟩ := roomy
  obtain ⟨e, scheduler, added⟩ := add_room (⟨s.frames.length, handler⟩ : Closure) room
  have scheduled : s.schedule handler gpio true =
      ⟨s.store.setNode i scheduler, s.frames ++ [.waiting i e.future]⟩ := by
    simp only [Requests.schedule, Store.schedule, place, found, added]
  obtain ⟨is, -, moved⟩ := add_some added
  have queued : e ∈ pending scheduler := by
    rw [is, moved]
    exact List.mem_append_right _ (by simp)
  rw [scheduled]
  refine ⟨i, { node with funcScheduler := scheduler }, e, place, ?_, queued, by rw [is], rfl⟩
  simp only [Store.setNode, List.getElem?_modify, found]
  rfl

theorem Requests.schedule_crowded (s : Requests) (handler : Handler) {gpio : Int} (memory : Bool)
    (crowded : ¬ s.Roomy gpio) :
    (s.schedule handler gpio memory).frames = s.frames ++ [.returned .invalidState] := by
  cases place : s.store.getNode gpio with
  | none => simp only [Requests.schedule, Store.schedule, place]
  | some i =>
    cases found : s.store.nodes[i]? with
    | none => simp only [Requests.schedule, Store.schedule, place, found]
    | some node =>
      have full : (node.funcScheduler.queues node.funcScheduler.writeQueue).length = node.funcScheduler.maxEventCount := by
        by_contra room
        exact crowded ⟨i, node, place, found, room⟩
      obtain ⟨scheduler, refused⟩ := add_full (⟨s.frames.length, handler⟩ : Closure) memory full
      simp only [Requests.schedule, Store.schedule, place, found, refused]

/-- The closure of request `r` is queued or being executed. -/
def Outstanding (s : Requests) (r : Nat) : Prop :=
  ∃ (i : Nat) (node : Node Closure), s.store.nodes[i]? = some node ∧
    ∃ e ∈ outstanding node.funcScheduler, e.func.request = r

/-- The closure is executed while its request waits. -/
def Attended (s : Requests) (closure : Closure) : Prop :=
  ∃ i node e, s.store.nodes[i]? = some node ∧ e ∈ executing node.funcScheduler ∧ e.func = closure ∧
    s.frames[closure.request]? = some (.waiting i e.future)

/-- No wait runs out of time before its closure has finished. -/
def Timely (s : Requests) (l : RequestLabel) : Prop := ∀ r, l = .timeout r → ¬ Outstanding s r

/-- The steps that meet this condition. -/
abbrev TimelyStep (s : Requests) (l : RequestLabel) (s' : Requests) : Prop := RequestStep s l s' ∧ Timely s l

/-- Every node is reached by its scheduler's own steps, and whatever is outstanding in
it belongs to a request that waits for it. -/
structure Owned (maxEventCount : Nat) (s : Requests) : Prop where
  reached : ∀ (i : Nat) (node : Node Closure), s.store.nodes[i]? = some node →
    ∃ tr, Run Step (.new maxEventCount) tr node.funcScheduler ∧ ∀ l ∈ tr, Flat l
  owned : ∀ (i : Nat) (node : Node Closure), s.store.nodes[i]? = some node →
    ∀ e ∈ outstanding node.funcScheduler, s.frames[e.func.request]? = some (.waiting i e.future)

theorem Owned.new (maxEventCount : Nat) (gpios : List Int) : Owned maxEventCount (.new maxEventCount gpios) := by
  have fresh : ∀ (i : Nat) (node : Node Closure), (Requests.new maxEventCount gpios).store.nodes[i]? = some node →
      node.funcScheduler = .new maxEventCount := by
    intro i node found
    simp only [Requests.new, Store.new, List.getElem?_map, Option.map_eq_some_iff] at found
    obtain ⟨gpio, _, rfl⟩ := found
    rfl
  refine ⟨fun i node found => ⟨[], by rw [fresh i node found]; exact .start, by simp⟩, fun i node found e member => ?_⟩
  rw [fresh i node found] at member
  cases member

/-- A node moves by a step of its scheduler. -/
theorem Owned.move {maxEventCount i : Nat} {s : Requests} {node : Node Closure} {l : Label Closure}
    {scheduler : AsyncFuncScheduler Closure} (h : Owned maxEventCount s) (found : s.store.nodes[i]? = some node)
    (flat : Flat l) (step : Step node.funcScheduler l scheduler) :
    (∃ tr, Run Step (.new maxEventCount) tr scheduler ∧ ∀ l ∈ tr, Flat l) ∧
      FifoStep Label.accepts Label.finishes outstanding node.funcScheduler l scheduler := by
  obtain ⟨tr, run, flats⟩ := h.reached i node found
  exact ⟨⟨tr ++ [l], run.next step, List.forall_mem_append.mpr ⟨flats, by simpa using flat⟩⟩,
    (Histories.of_run run flats).sole.outstanding_step flat step⟩

/-- More requests leave the earlier ones as they are. -/
theorem frame_append {frames : List RequestFrame} {fr new : RequestFrame} {r : Nat} (h : frames[r]? = some fr) :
    (frames ++ [new])[r]? = some fr := by
  rw [List.getElem?_append_left (List.getElem?_eq_some_iff.mp h).1, h]

/-- A scheduler step of node `i` keeps ownership if what it accepts waits already. -/
theorem Owned.setNode {maxEventCount i : Nat} {s : Requests} {node : Node Closure} {l : Label Closure}
    {scheduler : AsyncFuncScheduler Closure} {frames : List RequestFrame} (h : Owned maxEventCount s)
    (found : s.store.nodes[i]? = some node) (step : Step node.funcScheduler l scheduler) (flat : Flat l)
    (kept : ∀ {r : Nat} {fr : RequestFrame}, s.frames[r]? = some fr → frames[r]? = some fr)
    (added : ∀ e ∈ l.accepts, frames[e.func.request]? = some (.waiting i e.future)) :
    Owned maxEventCount ⟨s.store.setNode i scheduler, frames⟩ := by
  obtain ⟨reached, moved⟩ := h.move found flat step
  constructor
  · intro j node' here
    rcases Store.setNode_nodes here with ⟨rfl, rfl⟩ | ⟨_, other⟩
    · exact reached
    · exact h.reached j node' other
  · intro j node' here e member
    rcases Store.setNode_nodes here with ⟨rfl, rfl⟩ | ⟨_, other⟩
    · -- what is outstanding now was so before, or has just been accepted
      have old : e ∈ outstanding node.funcScheduler ++ l.accepts := by
        rw [moved]
        exact List.mem_append_right _ member
      rcases List.mem_append.mp old with before | now
      · exact kept (h.owned i node found e before)
      · exact added e now
    · exact kept (h.owned j node' other e member)

/-- A request whose closure is not outstanding may return. -/
theorem Owned.return_ {maxEventCount r : Nat} {s : Requests} (h : Owned maxEventCount s) (code : StatusCode)
    (finished : ¬ Outstanding s r) : Owned maxEventCount (s.return_ r code) := by
  refine ⟨h.reached, fun i node found e member => ?_⟩
  have other : r ≠ e.func.request := fun same => finished ⟨i, node, found, e, member, same.symm⟩
  simp only [Requests.return_, List.getElem?_set_ne other]
  exact h.owned i node found e member

/-- A set future means that the closure has finished. -/
theorem Owned.set_finished {maxEventCount r i future : Nat} {s : Requests} {node : Node Closure}
    (h : Owned maxEventCount s) (waiting : s.frames[r]? = some (.waiting i future))
    (found : s.store.nodes[i]? = some node) (set : (node.funcScheduler.futures future).poll = some .ok) :
    ¬ Outstanding s r := by
  rintro ⟨j, node', found', e, member, rfl⟩
  rw [h.owned j node' found' e member] at waiting
  cases waiting
  rw [found] at found'
  cases found'
  obtain ⟨tr, run, flat⟩ := h.reached i node found
  rw [outstanding_code run flat e member] at set
  cases set

/-- **One step** keeps every outstanding closure owned by a waiting request. -/
theorem Owned.step {maxEventCount : Nat} {s s' : Requests} {l : RequestLabel} (h : Owned maxEventCount s)
    (timely : Timely s l) (step : RequestStep s l s') : Owned maxEventCount s' := by
  cases step with
  | refuse code => exact ⟨h.reached, fun i node found e member => frame_append (h.owned i node found e member)⟩
  | schedule handler gpio memory =>
    rcases s.store.schedule_cases gpio ⟨s.frames.length, handler⟩ memory with
      ended | ⟨i, node, scheduler, found, ⟨refused, ended⟩ | ⟨e, added, ended⟩⟩
    · simp only [Requests.schedule, ended]
      exact ⟨h.reached, fun i node found e member => frame_append (h.owned i node found e member)⟩
    · simp only [Requests.schedule, ended]
      exact h.setNode found (.reject refused) trivial frame_append (fun e member => by cases member)
    · simp only [Requests.schedule, ended]
      refine h.setNode found (.accept added) trivial frame_append (fun e' member => ?_)
      obtain rfl : e' = e := by simpa using member
      obtain ⟨rfl, _⟩ := add_some added
      simp
  | done waiting found set result => exact h.return_ _ (h.set_finished waiting found set)
  | @timeout r i future waiting => exact h.return_ _ (timely r rfl)
  | store step =>
    cases step with
    | enter idle => exact ⟨h.reached, h.owned⟩
    | exit last => exact ⟨h.reached, h.owned⟩
    | node here found driven step =>
      have moved := h.setNode found step driven.flat id (fun e member => by
        have := driven
        cases step <;> simp_all [Label.Driven])
      exact ⟨moved.reached, moved.owned⟩

/-- **A closure does not outlive its request** as long as no wait runs out of time
before the closure has finished. -/
theorem closure_frame_waiting {maxEventCount : Nat} {gpios : List Int} {tr : List RequestLabel} {s : Requests}
    (h : Run TimelyStep (.new maxEventCount gpios) tr s) :
    ∀ (i : Nat) (node : Node Closure), s.store.nodes[i]? = some node →
      ∀ e ∈ executing node.funcScheduler, s.frames[e.func.request]? = some (.waiting i e.future) := by
  have owned : Owned maxEventCount s := h.preserves (fun _ => True) (Owned maxEventCount) (.new maxEventCount gpios)
    (fun s l s' owned _ step => owned.step step.2 step.1) (fun _ _ => trivial)
  intro i node found e member
  exact owned.owned i node found e (List.mem_append_left _ member)

/-! ## A scan of GPIO 4 -/

theorem timely_of_ne {s : Requests} {l : RequestLabel} (h : ∀ r, l ≠ .timeout r) : Timely s l :=
  fun r same => absurd same (h r)

/-- The store begins to execute what is scheduled in its only node. -/
theorem store_executes {s : Requests} {node : Node Closure} {e : Event Closure}
    {swapped executing : AsyncFuncScheduler Closure} (idle : s.store.cursor = none) (only : s.store.nodes = [node])
    (swap : node.funcScheduler.exec (.runSwap false) = some swapped) (call : swapped.exec (.call e) = some executing) :
    ∃ tr, Run TimelyStep s tr { s with store := ⟨[{ node with funcScheduler := executing }], some 0⟩ } := by
  have enter : StoreStep s.store .enter ⟨[node], some 0⟩ := by rw [← only]; exact .enter idle
  have swaps : StoreStep ⟨[node], some 0⟩ (.node 0 (.runSwap false)) ⟨[{ node with funcScheduler := swapped }], some 0⟩ :=
    .node rfl rfl rfl (AsyncFuncScheduler.exec_sound swap)
  have calls : StoreStep ⟨[{ node with funcScheduler := swapped }], some 0⟩ (.node 0 (.call e))
      ⟨[{ node with funcScheduler := executing }], some 0⟩ :=
    .node rfl rfl trivial (AsyncFuncScheduler.exec_sound call)
  have run : Run TimelyStep s [.store .enter] _ := .single ⟨.store enter, timely_of_ne nofun⟩
  exact ⟨_, (run.next ⟨.store swaps, timely_of_ne nofun⟩).next ⟨.store calls, timely_of_ne nofun⟩⟩

/-- A scan is scheduled. -/
def scheduled : Requests := (Requests.new 1 [4]).schedule .scan 4 true

theorem run_scheduled : Run TimelyStep (.new 1 [4]) [.schedule .scan 4] scheduled :=
  .single ⟨.schedule .scan 4 true, timely_of_ne nofun⟩

/-- The closure of a scan is executed while the scan waits. -/
theorem closure_frame_waiting_scan :
    ∃ s : Requests, s.store.nodes.map (fun node => executing node.funcScheduler) = [[⟨⟨0, .scan⟩, 0⟩]] ∧
      ∀ (i : Nat) (node : Node Closure), s.store.nodes[i]? = some node →
        ∀ e ∈ executing node.funcScheduler, s.frames[e.func.request]? = some (.waiting i e.future) := by
  obtain ⟨tr, run⟩ := store_executes (s := scheduled) (e := ⟨⟨0, .scan⟩, 0⟩) rfl rfl rfl rfl
  exact ⟨_, rfl, closure_frame_waiting (run_scheduled.trans run)⟩

/-- The wait runs out of time while the closure is queued; the closure is executed all the same. -/
theorem closure_outlives_request :
    ∃ tr s, Run RequestStep (.new 1 [4]) tr s ∧ ∃ (node : Node Closure) (e : Event Closure),
      s.store.nodes[0]? = some node ∧ e ∈ executing node.funcScheduler ∧
        s.frames[e.func.request]? = some (.returned .timeout) := by
  obtain ⟨tr, run⟩ := store_executes (s := scheduled.return_ 0 .timeout) (e := ⟨⟨0, .scan⟩, 0⟩) rfl rfl rfl rfl
  have first : Run RequestStep (.new 1 [4]) _ scheduled := run_scheduled.mono And.left
  have timedOut : RequestStep scheduled (.timeout 0) (scheduled.return_ 0 .timeout) := .timeout rfl
  exact ⟨_, _, (first.next timedOut).trans (run.mono And.left), _, ⟨⟨0, .scan⟩, 0⟩, rfl, List.Mem.head _, rfl⟩

end OcsComponents.Pipeline
