import OcsComponents.Pipeline.JsonEndpoints
import OcsComponents.Scheduler.Delivery
import OcsComponents.Sensor.Sht41.Sensor

/-!
# Requests that the system's task executes

`httpserver/sht41_handler.cpp` and `httpserver/system_handler.cpp` over the `AsyncFuncScheduler` of
`SystemPipeline`, with `AsyncFunc::run`, the SHT41 task and the rebooters. A request hands a function
over, waits for its future and answers; the system's task alone executes the functions and the
periodic measurements, and reboots.

The function of `RebootTask` does not return: `DelayRebooter` lets all other tasks go on for a while,
the reboot handlers are called, and `esp_restart` ends everything.
-/

namespace OcsComponents.Pipeline.SystemCalls
open Status OcsComponents.Core OcsComponents.Storage Transition Scheduler Http Sensor.Sht41

/-- What `SHT41Handler` hands to `handle_operation_`. -/
inductive HandleOperation where
  | reset
  | heat
  deriving DecidableEq, Repr

/-- The functions given to the scheduler. -/
inductive Func where
  | operation (o : HandleOperation)
  | rebootTask
  deriving DecidableEq, Repr

/-- A function, with the request that it is executed for. -/
structure Closure where
  request : Nat
  func : Func
  deriving DecidableEq, Repr

/-- What the transceiver and the storage do in a call of the sensor. -/
structure Outcome where
  sent : StatusCode
  received : Received
  fault : Option StorageFault

def HandleOperation.run (p : Params) (s : Setup) (x : Outcome) : HandleOperation → StatusCode × Setup
  | .reset => s.reset x.sent
  | .heat => s.heat p x.sent x.received x.fault

/-- A request: in `future->wait()`, after it has sent `before`, or answered. -/
inductive RequestFrame where
  | waiting (func : Func) (before : List Emission) (future : Nat)
  | returned (reply : Server.Reply)

/-- The steps by name: a request to the server with what becomes of its function in `add`, the steps of
the system's task, and the ends of a wait. -/
inductive Label where
  | request (func : Func) (added : Option (Scheduler.Label Closure))
  | run (l : Scheduler.Label Closure)
  | execute (o : HandleOperation) (x : Outcome) (e : Event Closure) (code : StatusCode)
  | measure (x : Outcome)
  | handleReboot (handler : Nat)
  | restart
  | done (request : Nat) (http : JsonHttpd)
  | timeout (request : Nat) (sendErr : Bool)

/-- The scheduler, the sensor, the requests by number, the number of reboot handlers, and how
many of them have been called. -/
structure System where
  scheduler : AsyncFuncScheduler Closure
  sensor : Setup
  frames : List RequestFrame
  handlers : Nat
  handled : Nat
  restarted : Bool

namespace System

def new (maxEventCount : Nat) (sensor : Setup) (handlers : Nat) : System :=
  ⟨.new maxEventCount, sensor, [], handlers, 0, false⟩

def answered (s : System) (reply : Server.Reply) : System := { s with frames := s.frames ++ [.returned reply] }

/-- Request `r` returns. -/
def return_ (s : System) (r : Nat) (reply : Server.Reply) : System :=
  { s with frames := s.frames.set r (.returned reply) }

/-- `func_scheduler_.add` for the next request. -/
def add (s : System) (func : Func) (before : List Emission) (http : JsonHttpd) (memory : Bool) :
    Option (Scheduler.Label Closure) × System :=
  match s.scheduler.add ⟨s.frames.length, func⟩ memory with
  | (some e, scheduler) => (some (.accept e),
    { s with scheduler, frames := s.frames ++ [.waiting func before e.future] })
  | (none, scheduler) =>
    (some (.reject ⟨⟨s.frames.length, func⟩, s.scheduler.adds⟩),
      { s with scheduler }.answered (Server.answer http.sendErr (.invalidState, before)))

/-- A request until it waits: `handle_operation_`, or the handler of `SystemHandler`, which has told
the client by then. -/
def request (s : System) (func : Func) (http : JsonHttpd) (memory : Bool) : Option (Scheduler.Label Closure) × System :=
  match func with
  | .operation _ => s.add func [] http memory
  | .rebootTask =>
    let (code, before) := http.sendText
    if code ≠ .ok then (none, s.answered (Server.answer http.sendErr (code, before)))
    else s.add func before http memory

/-- What a request returns once its future is set. -/
def finish (func : Func) (before : List Emission) (code : StatusCode) (http : JsonHttpd) : StatusCode × List Emission :=
  match func with
  | .operation _ => if code ≠ .ok then (code, before) else http.sendText
  | .rebootTask => (code, before)

/-- `RebootTask::run` is being executed. -/
def Rebooting (s : System) : Prop :=
  ∃ q i stop e rest, s.scheduler.frames = ⟨q, i, stop, .executing e⟩ :: rest ∧ e.func.func = .rebootTask

end System

/-- The steps of a device that has not restarted. -/
inductive Action (p : Params) (s : System) : Label → System → Prop where
  | request {added s'} (func http memory) (made : s.request func http memory = (added, s')) :
      Action p s (.request func added) s'
  | run {l scheduler} (driven : l.Driven) (stays : ∀ e code, l ≠ .ret e code)
    (step : Scheduler.Step s.scheduler l scheduler) :
      Action p s (.run l) { s with scheduler }
  /-- The function returns. -/
  | execute {o x e code sensor scheduler} (returned : s.scheduler.return_ code = some (e, scheduler))
      (func : e.func.func = .operation o) (performed : o.run p s.sensor x = (code, sensor)) :
      Action p s (.execute o x e code) { s with scheduler, sensor }
  /-- `Sensor::run`, by the task scheduler, between two calls of `AsyncFuncScheduler::run`. -/
  | measure (x : Outcome) (idle : s.scheduler.frames = []) :
      Action p s (.measure x) { s with sensor := (s.sensor.run p x.sent x.received).2 }
  | handleReboot (rebooting : s.Rebooting) (more : s.handled < s.handlers) :
      Action p s (.handleReboot s.handled) { s with handled := s.handled + 1 }
  | restart (rebooting : s.Rebooting) (all : s.handled = s.handlers) : Action p s .restart { s with restarted := true }
  | done {r func before future} (http) (waiting : s.frames[r]? = some (.waiting func before future))
      (set : (s.scheduler.futures future).poll = some .ok) :
      Action p s (.done r http) (s.return_ r
        (Server.answer http.sendErr (System.finish func before (s.scheduler.futures future).code http)))
  /-- Only `handle_operation_` bounds its wait. -/
  | timeout {r o before future} (sendErr) (waiting : s.frames[r]? = some (.waiting (.operation o) before future)) :
      Action p s (.timeout r sendErr) (s.return_ r (Server.answer sendErr (.timeout, before)))

abbrev Step (p : Params) (s : System) (l : Label) (s' : System) : Prop := s.restarted = false ∧ Action p s l s'

/-! ## The sensor alone -/

/-- A call of the sensor: a measurement, or an operation for a request. -/
inductive Operation where
  | measure (x : Outcome)
  | requested (request : Nat) (o : HandleOperation) (x : Outcome)

namespace Operation

def perform (p : Params) (s : Setup) : Operation → StatusCode × Setup
  | measure x => s.run p x.sent x.received
  | requested _ o x => o.run p s x

/-- The request, with a status. -/
def answer (code : StatusCode) : Operation → List (Nat × StatusCode)
  | measure _ => []
  | requested request _ _ => [(request, code)]

end Operation

/-- The operations one after another, by nobody but one caller. -/
def replay (p : Params) (s : Setup) (ops : List Operation) : Setup := ops.foldl (fun s op => (op.perform p s).2) s

/-- The statuses they return to the requests. -/
def statuses (p : Params) : Setup → List Operation → List (Nat × StatusCode)
  | _, [] => []
  | s, op :: ops => op.answer (op.perform p s).1 ++ statuses p (op.perform p s).2 ops

theorem replay_snoc (p : Params) (s : Setup) (ops : List Operation) (op : Operation) :
    replay p s (ops ++ [op]) = (op.perform p (replay p s ops)).2 := by
  rw [replay, List.foldl_append, List.foldl_cons, List.foldl_nil, ← replay]

theorem statuses_snoc (p : Params) (s : Setup) (ops : List Operation) (op : Operation) :
    statuses p s (ops ++ [op]) = statuses p s ops ++ op.answer (op.perform p (replay p s ops)).1 := by
  induction ops generalizing s with
  | nil => exact List.append_nil _
  | cons first ops ih =>
    rw [List.cons_append, statuses, ih, statuses, List.append_assoc]
    rfl

/-! ## What has happened -/

namespace Label

/-- The step of the scheduler. -/
def scheduler : Label → List (Scheduler.Label Closure)
  | request _ added => added.toList
  | run l => [l]
  | execute _ _ e code => [.ret e code]
  | _ => []

def operations : Label → List Operation
  | execute o x e _ => [.requested e.func.request o x]
  | measure x => [.measure x]
  | _ => []

def handles : Label → List Nat
  | handleReboot handler => [handler]
  | _ => []

end Label

/-- The run of the scheduler. -/
def calls (tr : List Label) : List (Scheduler.Label Closure) := tr.flatMap Label.scheduler

/-- What was done with the sensor, in turn. -/
def operations (tr : List Label) : List Operation := tr.flatMap Label.operations

/-- The reboot handlers called. -/
def handled (tr : List Label) : List Nat := tr.flatMap Label.handles

/-- The requests whose function was accepted. -/
def accepts (tr : List Label) : List Nat := (accepted (calls tr)).map (·.func.request)

/-- What a request has sent when it waits. -/
def told : Func → List Emission
  | .operation _ => []
  | .rebootTask => [.response true]

/-- How a request may have been answered. -/
inductive Ended (p : Params) (init : Setup) (tr : List Label) (r : Nat) : Server.Reply → Prop where
  | unsent (http : JsonHttpd) (failed : http.sendText.1 ≠ .ok) (never : r ∉ accepts tr) :
      Ended p init tr r (Server.answer http.sendErr http.sendText)
  | refused (func : Func) (http : JsonHttpd) (never : r ∉ accepts tr) :
      Ended p init tr r (Server.answer http.sendErr (.invalidState, told func))
  | timedOut (sendErr : Bool) : Ended p init tr r (Server.answer sendErr (.timeout, []))
  | executed (o : HandleOperation) (code : StatusCode) (http : JsonHttpd)
      (result : (r, code) ∈ statuses p init (operations tr)) :
      Ended p init tr r (Server.answer http.sendErr (System.finish (.operation o) [] code http))

section
variable {s s' : System} {func : Func} {http : JsonHttpd} {memory : Bool} {added : Option (Scheduler.Label Closure)}

theorem System.add_cases {before : List Emission} (made : s.add func before http memory = (added, s')) :
    ∃ scheduler, (∃ e, s.scheduler.add ⟨s.frames.length, func⟩ memory = (some e, scheduler) ∧
        added = some (.accept e) ∧
        s' = { s with scheduler, frames := s.frames ++ [.waiting func before e.future] }) ∨
      (s.scheduler.add ⟨s.frames.length, func⟩ memory = (none, scheduler) ∧
        added = some (.reject ⟨⟨s.frames.length, func⟩, s.scheduler.adds⟩) ∧
        s' = { s with scheduler }.answered (Server.answer http.sendErr (.invalidState, before))) := by
  rcases result : s.scheduler.add ⟨s.frames.length, func⟩ memory with ⟨_ | e, scheduler⟩
  · simp only [add, result] at made
    cases made
    exact ⟨scheduler, .inr ⟨rfl, rfl, rfl⟩⟩
  · simp only [add, result] at made
    cases made
    exact ⟨scheduler, .inl ⟨e, rfl, rfl, rfl⟩⟩

/-- A request tells the client and hands its function over, or ends here. -/
theorem System.request_cases (made : s.request func http memory = (added, s')) :
    (http.sendText.1 ≠ .ok ∧ added = none ∧ s' = s.answered (Server.answer http.sendErr http.sendText)) ∨
    ∃ scheduler, (∃ e, s.scheduler.add ⟨s.frames.length, func⟩ memory = (some e, scheduler) ∧
        added = some (.accept e) ∧
        s' = { s with scheduler, frames := s.frames ++ [.waiting func (told func) e.future] }) ∨
      (s.scheduler.add ⟨s.frames.length, func⟩ memory = (none, scheduler) ∧
        added = some (.reject ⟨⟨s.frames.length, func⟩, s.scheduler.adds⟩) ∧
        s' = { s with scheduler }.answered (Server.answer http.sendErr (.invalidState, told func))) := by
  cases func with
  | operation o => exact .inr (add_cases made)
  | rebootTask =>
    rcases sendText_cases http with ⟨sent, _⟩ | ⟨failed, _⟩
    · simp only [request, sent, ne_eq, not_true, if_false] at made
      exact .inr (add_cases made)
    · have not_ok : http.sendText.1 ≠ .ok := by rw [failed]; exact StatusCode.noConfusion
      simp only [request, if_pos not_ok] at made
      cases made
      exact .inl ⟨not_ok, rfl, rfl⟩

end

theorem calls_snoc (tr : List Label) (l : Label) : calls (tr ++ [l]) = calls tr ++ l.scheduler := by
  rw [calls, List.flatMap_append, List.flatMap_singleton, ← calls]

theorem operations_snoc (tr : List Label) (l : Label) : operations (tr ++ [l]) = operations tr ++ l.operations := by
  rw [operations, List.flatMap_append, List.flatMap_singleton, ← operations]

theorem accepts_snoc (tr : List Label) (l : Label) :
    accepts (tr ++ [l]) = accepts tr ++ (accepted l.scheduler).map (·.func.request) := by
  rw [accepts, calls_snoc, accepted, List.flatMap_append, List.map_append]
  rfl

section
variable {p : Params} {init : Setup} {maxEventCount : Nat} {tr : List Label} {s s' : System} {l : Label}

/-- The system's task has executed the functions that have returned, on the sensor alone. -/
structure Executed (p : Params) (init : Setup) (maxEventCount : Nat) (tr : List Label) (s : System) : Prop where
  run : Run Scheduler.Step (.new maxEventCount) (calls tr) s.scheduler
  flat : ∀ l ∈ calls tr, Flat l
  sensor : s.sensor = replay p init (operations tr)
  order : (statuses p init (operations tr)).map Prod.fst = (finished (calls tr)).map (·.func.request)
  results : ∀ e code, .ret e code ∈ calls tr → ∃ o, e.func.func = .operation o ∧
    (e.func.request, code) ∈ statuses p init (operations tr)

theorem Executed.new (handlers : Nat) : Executed p init maxEventCount [] (.new maxEventCount init handlers) where
  run := .start
  flat := nofun
  sensor := rfl
  order := rfl
  results := nofun

/-- A step that leaves the scheduler and the sensor. -/
theorem Executed.quiet (h : Executed p init maxEventCount tr s) (calls : l.scheduler = [])
    (operations : l.operations = [])
    (scheduler : s'.scheduler = s.scheduler) (sensor : s'.sensor = s.sensor) :
    Executed p init maxEventCount (tr ++ [l]) s' := by
  constructor
  · rw [calls_snoc, calls, List.append_nil, scheduler]
    exact h.run
  · rw [calls_snoc, calls, List.append_nil]
    exact h.flat
  · rw [operations_snoc, operations, List.append_nil, sensor]
    exact h.sensor
  · rw [calls_snoc, operations_snoc, calls, operations, List.append_nil, List.append_nil]
    exact h.order
  · rw [calls_snoc, operations_snoc, calls, operations, List.append_nil, List.append_nil]
    exact h.results

/-- A step of the scheduler in which no function returns. -/
theorem Executed.move {m : Scheduler.Label Closure} (h : Executed p init maxEventCount tr s) (calls : l.scheduler = [m])
    (operations : l.operations = []) (flat : Flat m) (stays : ∀ e code, m ≠ .ret e code)
    (step : Scheduler.Step s.scheduler m s'.scheduler) (sensor : s'.sensor = s.sensor) :
    Executed p init maxEventCount (tr ++ [l]) s' := by
  have finishes : m.finishes = [] := by
    cases m with
    | ret e code => exact absurd rfl (stays e code)
    | _ => rfl
  constructor
  · rw [calls_snoc, calls]
    exact h.run.next step
  · rw [calls_snoc, calls]
    exact List.forall_mem_append.mpr ⟨h.flat, List.forall_mem_singleton.mpr flat⟩
  · rw [operations_snoc, operations, List.append_nil, sensor]
    exact h.sensor
  · rw [calls_snoc, operations_snoc, calls, operations, List.append_nil, finished, List.flatMap_append,
      List.flatMap_singleton, finishes, List.append_nil]
    exact h.order
  · intro e code member
    rw [calls_snoc, calls] at member
    rw [operations_snoc, operations, List.append_nil]
    rcases List.mem_append.mp member with before | now
    · exact h.results e code before
    · exact absurd (List.mem_singleton.mp now).symm (stays e code)

theorem Executed.step (h : Executed p init maxEventCount tr s) (step : Action p s l s') :
    Executed p init maxEventCount (tr ++ [l]) s' := by
  cases step with
  | request func http memory made =>
    rcases System.request_cases made with ⟨_, rfl, rfl⟩ | ⟨_, ⟨e, added, rfl, rfl⟩ | ⟨refused, rfl, rfl⟩⟩
    · exact h.quiet rfl rfl rfl rfl
    · exact h.move rfl rfl trivial nofun (.accept added) rfl
    · exact h.move rfl rfl trivial nofun (.reject refused) rfl
  | run driven stays step => exact h.move rfl rfl driven.flat stays step rfl
  | @execute o x e code sensor scheduler returned func performed =>
    have alone : (Operation.requested e.func.request o x).perform p (replay p init (operations tr)) =
        (code, sensor) := by
      rw [← h.sensor]
      exact performed
    constructor
    · rw [calls_snoc]
      exact h.run.next (.ret returned)
    · rw [calls_snoc]
      exact List.forall_mem_append.mpr ⟨h.flat, List.forall_mem_singleton.mpr trivial⟩
    · rw [operations_snoc, Label.operations, replay_snoc, alone]
    · rw [calls_snoc, operations_snoc, Label.operations, Label.scheduler, statuses_snoc, List.map_append, h.order,
        finished, finished, List.flatMap_append, List.map_append]
      rfl
    · intro e' code' member
      rw [calls_snoc, Label.scheduler] at member
      rw [operations_snoc, Label.operations, statuses_snoc, alone]
      rcases List.mem_append.mp member with before | now
      · obtain ⟨o', func', result⟩ := h.results e' code' before
        exact ⟨o', func', List.mem_append_left _ result⟩
      · cases List.mem_singleton.mp now
        exact ⟨o, func, List.mem_append_right _ (List.mem_singleton.mpr rfl)⟩
  | measure x idle =>
    have calls : calls (tr ++ [.measure x]) = calls tr := (calls_snoc tr _).trans (List.append_nil _)
    have same : statuses p init (operations (tr ++ [.measure x])) = statuses p init (operations tr) := by
      rw [operations_snoc, Label.operations, statuses_snoc, Operation.answer, List.append_nil]
    constructor
    · rw [calls]
      exact h.run
    · rw [calls]
      exact h.flat
    · rw [operations_snoc, Label.operations, replay_snoc, ← h.sensor]
      rfl
    · rw [calls, same]
      exact h.order
    · rw [calls, same]
      exact h.results
  | handleReboot rebooting more => exact h.quiet rfl rfl rfl rfl
  | restart rebooting all => exact h.quiet rfl rfl rfl rfl
  | done http waiting set => exact h.quiet rfl rfl rfl rfl
  | timeout sendErr waiting => exact h.quiet rfl rfl rfl rfl

/-- The statuses so far stay. -/
theorem statuses_mono {r : Nat} {code : StatusCode} (h : (r, code) ∈ statuses p init (operations tr)) (l : Label) :
    (r, code) ∈ statuses p init (operations (tr ++ [l])) := by
  have append : ∀ (s : Setup) (ops ops' : List Operation), statuses p s ops <+: statuses p s (ops ++ ops') := by
    intro s ops ops'
    induction ops generalizing s with
    | nil => exact List.nil_prefix
    | cons op ops ih => exact (List.prefix_append_right_inj _).mpr (ih _)
  rw [operations_snoc]
  exact (append _ _ _).subset h

/-- An answered request stays so. -/
theorem Ended.mono {r : Nat} {reply : Server.Reply} (h : Ended p init tr r reply)
    (fresh : r ∈ accepts (tr ++ [l]) → r ∈ accepts tr) : Ended p init (tr ++ [l]) r reply := by
  cases h with
  | unsent http failed never => exact .unsent http failed fun later => never (fresh later)
  | refused func http never => exact .refused func http fun later => never (fresh later)
  | timedOut sendErr => exact .timedOut sendErr
  | executed o code http result => exact .executed o code http (statuses_mono result l)

/-- The requests that wait, and those answered. -/
structure Asked (p : Params) (init : Setup) (tr : List Label) (s : System) : Prop where
  numbered : (accepts tr).Pairwise (· < ·)
  below : ∀ r ∈ accepts tr, r < s.frames.length
  waiting : ∀ r func before future, s.frames[r]? = some (.waiting func before future) →
    before = told func ∧ ⟨⟨r, func⟩, future⟩ ∈ accepted (calls tr)
  asked : ∀ e ∈ accepted (calls tr), e.func.func = .rebootTask →
    s.frames[e.func.request]? = some (.waiting .rebootTask (told .rebootTask) e.future)
  ended : ∀ r reply, s.frames[r]? = some (.returned reply) → Ended p init tr r reply

theorem Asked.new (handlers : Nat) : Asked p init [] (.new maxEventCount init handlers) where
  numbered := .nil
  below := nofun
  waiting := nofun
  asked := nofun
  ended := nofun

theorem accepted_snoc (none : accepted l.scheduler = []) : accepted (calls (tr ++ [l])) = accepted (calls tr) := by
  rw [calls_snoc, accepted, List.flatMap_append, ← accepted, ← accepted, none, List.append_nil]

/-- A step in which nothing is asked and nothing answered. -/
theorem Asked.quiet (h : Asked p init tr s) (none : accepted l.scheduler = []) (frames : s'.frames = s.frames) :
    Asked p init (tr ++ [l]) s' := by
  have same : accepts (tr ++ [l]) = accepts tr := by rw [accepts, accepted_snoc none, ← accepts]
  constructor
  · rw [same]
    exact h.numbered
  · rw [same, frames]
    exact h.below
  · rw [accepted_snoc none, frames]
    exact h.waiting
  · rw [accepted_snoc none, frames]
    exact h.asked
  · intro r reply here
    rw [frames] at here
    exact (h.ended r reply here).mono fun later => by rwa [same] at later

/-- A request that is not for a reboot returns. -/
theorem Asked.return_ {r future : Nat} {func : Func} {before : List Emission} {reply : Server.Reply}
    (h : Asked p init tr s) (none : l.scheduler = []) (waiting : s.frames[r]? = some (.waiting func before future))
    (other : func ≠ .rebootTask) (ended : Ended p init tr r reply) : Asked p init (tr ++ [l]) (s.return_ r reply) := by
  have none' : accepted l.scheduler = [] := by rw [none]; rfl
  have same : accepts (tr ++ [l]) = accepts tr := by rw [accepts, accepted_snoc none', ← accepts]
  have inside : r < s.frames.length := (List.getElem?_eq_some_iff.mp waiting).1
  have mono : ∀ {r' reply'}, Ended p init tr r' reply' → Ended p init (tr ++ [l]) r' reply' :=
    fun ended => ended.mono fun later => by rwa [same] at later
  constructor
  · rw [same]
    exact h.numbered
  · rw [same]
    intro r' member
    simp only [System.return_, List.length_set]
    exact h.below r' member
  · rw [accepted_snoc none']
    intro r' func' before' future' here
    by_cases this : r = r'
    · subst this
      simp only [System.return_, List.getElem?_set_self inside] at here
      cases here
    · simp only [System.return_, List.getElem?_set_ne this] at here
      exact h.waiting r' func' before' future' here
  · rw [accepted_snoc none']
    intro e member reboot
    have here := h.asked e member reboot
    have apart : r ≠ e.func.request := by
      intro this
      rw [this, here] at waiting
      cases waiting
      exact other rfl
    simp only [System.return_, List.getElem?_set_ne apart]
    exact here
  · intro r' reply' here
    by_cases this : r = r'
    · subst this
      simp only [System.return_, List.getElem?_set_self inside, Option.some.injEq, RequestFrame.returned.injEq] at here
      exact here ▸ mono ended
    · simp only [System.return_, List.getElem?_set_ne this] at here
      exact mono (h.ended r' reply' here)

/-- A frame is one of the old ones, or the new one. -/
theorem frame_cases {frames : List RequestFrame} {fr new : RequestFrame} {r : Nat}
    (h : (frames ++ [new])[r]? = some fr) :
    frames[r]? = some fr ∨ r = frames.length ∧ new = fr := by
  rcases Nat.lt_trichotomy r frames.length with inside | last | outside
  · rw [List.getElem?_append_left inside] at h
    exact .inl h
  · subst last
    rw [List.getElem?_concat_length] at h
    exact .inr ⟨rfl, Option.some.inj h⟩
  · rw [List.getElem?_eq_none (by simp; omega)] at h
    cases h

/-- A new request, whose function is not accepted. -/
theorem Asked.answered {reply : Server.Reply} {scheduler : AsyncFuncScheduler Closure} (h : Asked p init tr s)
    (none : accepted l.scheduler = []) (ended : s.frames.length ∉ accepts tr → Ended p init tr s.frames.length reply) :
    Asked p init (tr ++ [l]) ({ s with scheduler }.answered reply) := by
  have same : accepts (tr ++ [l]) = accepts tr := by rw [accepts, accepted_snoc none, ← accepts]
  constructor
  · rw [same]
    exact h.numbered
  · rw [same]
    intro r member
    simp only [System.answered, List.length_append, List.length_singleton]
    exact Nat.lt_succ_of_lt (h.below r member)
  · rw [accepted_snoc none]
    intro r func before future here
    rcases frame_cases here with old | ⟨_, new⟩
    · exact h.waiting r func before future old
    · cases new
  · rw [accepted_snoc none]
    intro e member reboot
    exact (List.getElem?_append_left (h.below _ (List.mem_map_of_mem member))).trans (h.asked e member reboot)
  · intro r reply' here
    refine Ended.mono ?_ fun later => by rwa [same] at later
    rcases frame_cases here with old | ⟨rfl, new⟩
    · exact h.ended r reply' old
    · cases new
      exact ended fun member => absurd (h.below _ member) (Nat.lt_irrefl _)

/-- A new request, whose function is accepted. -/
theorem Asked.accept {func : Func} {memory : Bool} {e : Event Closure} {scheduler : AsyncFuncScheduler Closure}
    (h : Asked p init tr s) (added : s.scheduler.add ⟨s.frames.length, func⟩ memory = (some e, scheduler)) :
    Asked p init (tr ++ [.request func (some (.accept e))])
      { s with scheduler, frames := s.frames ++ [.waiting func (told func) e.future] } := by
  obtain ⟨rfl, _⟩ := add_some added
  have requests : accepts (tr ++ [.request func (some (.accept ⟨⟨s.frames.length, func⟩, s.scheduler.adds⟩))]) =
      accepts tr ++ [s.frames.length] := accepts_snoc tr _
  have events : accepted (calls (tr ++ [.request func (some (.accept ⟨⟨s.frames.length, func⟩, s.scheduler.adds⟩))])) =
      accepted (calls tr) ++ [⟨⟨s.frames.length, func⟩, s.scheduler.adds⟩] := by
    rw [calls_snoc, accepted, List.flatMap_append]
    rfl
  constructor
  · rw [requests, List.pairwise_append]
    refine ⟨h.numbered, List.pairwise_singleton _ _, fun r member r' new => ?_⟩
    rw [List.mem_singleton.mp new]
    exact h.below r member
  · rw [requests]
    intro r member
    rw [List.length_append, List.length_singleton]
    rcases List.mem_append.mp member with old | new
    · exact Nat.lt_succ_of_lt (h.below r old)
    · rw [List.mem_singleton.mp new]
      exact Nat.lt_succ_self _
  · rw [events]
    intro r func' before future here
    rcases frame_cases here with old | ⟨rfl, new⟩
    · obtain ⟨same, member⟩ := h.waiting r func' before future old
      exact ⟨same, List.mem_append_left _ member⟩
    · cases new
      exact ⟨rfl, List.mem_append_right _ (List.mem_singleton.mpr rfl)⟩
  · rw [events]
    intro e member reboot
    rcases List.mem_append.mp member with old | new
    · exact (List.getElem?_append_left (h.below _ (List.mem_map_of_mem old))).trans (h.asked e old reboot)
    · obtain rfl := List.mem_singleton.mp new
      obtain rfl : func = .rebootTask := reboot
      exact List.getElem?_concat_length
  · intro r reply here
    rcases frame_cases here with old | ⟨_, new⟩
    · have inside : r < s.frames.length := (List.getElem?_eq_some_iff.mp old).1
      refine (h.ended r reply old).mono fun later => ?_
      rw [requests] at later
      rcases List.mem_append.mp later with before | now
      · exact before
      · rw [List.mem_singleton.mp now] at inside
        exact absurd inside (Nat.lt_irrefl _)
    · cases new

/-- A request whose future is set has had its function executed, which is not a reboot. -/
theorem executed_of_set {r future : Nat} {func : Func} {before : List Emission}
    (executed : Executed p init maxEventCount tr s) (h : Asked p init tr s)
    (waiting : s.frames[r]? = some (.waiting func before future))
    (set : (s.scheduler.futures future).poll = some .ok) :
    ∃ o, func = .operation o ∧ before = [] ∧
      (r, (s.scheduler.futures future).code) ∈ statuses p init (operations tr) := by
  obtain ⟨sent, accept⟩ := h.waiting r func before future waiting
  obtain ⟨e, returned, accept', same⟩ := returned_of_set executed.run executed.flat set
  obtain rfl : ⟨⟨r, func⟩, future⟩ = e := accepted_unique executed.run accept accept' same.symm
  obtain ⟨o, operation, result⟩ := executed.results _ _ returned
  obtain rfl : func = .operation o := operation
  exact ⟨o, rfl, sent, result⟩

theorem Asked.step (executed : Executed p init maxEventCount tr s) (h : Asked p init tr s) (step : Action p s l s') :
    Asked p init (tr ++ [l]) s' := by
  cases step with
  | request func http memory made =>
    rcases System.request_cases made with ⟨failed, rfl, rfl⟩ | ⟨_, ⟨e, added, rfl, rfl⟩ | ⟨refused, rfl, rfl⟩⟩
    · exact h.answered rfl (.unsent http failed)
    · exact h.accept added
    · exact h.answered rfl (.refused func http)
  | @run m scheduler driven stays step =>
    refine h.quiet ?_ rfl
    cases m with
    | accept e => exact absurd driven id
    | _ => rfl
  | execute returned func performed => exact h.quiet rfl rfl
  | measure x idle => exact h.quiet rfl rfl
  | handleReboot rebooting more => exact h.quiet rfl rfl
  | restart rebooting all => exact h.quiet rfl rfl
  | @done r func before future http waiting set =>
    obtain ⟨o, rfl, rfl, result⟩ := executed_of_set executed h waiting set
    exact h.return_ rfl waiting Func.noConfusion (.executed o _ http result)
  | @timeout r o before future sendErr waiting =>
    obtain ⟨rfl, _⟩ := h.waiting r _ before future waiting
    exact h.return_ rfl waiting Func.noConfusion (.timedOut sendErr)

/-- Once `RebootTask::run` is executed, nothing else is. -/
theorem System.Rebooting.step (h : s.Rebooting) (step : Action p s l s') :
    s'.Rebooting ∧ l.operations = [] ∧ called l.scheduler = [] := by
  obtain ⟨q, i, stop, e, rest, frames, reboot⟩ := h
  have same : ∀ {scheduler : AsyncFuncScheduler Closure}, scheduler.frames = s.scheduler.frames →
      ∃ q i stop e rest, scheduler.frames = ⟨q, i, stop, .executing e⟩ :: rest ∧ e.func.func = .rebootTask :=
    fun kept => ⟨q, i, stop, e, rest, kept.trans frames, reboot⟩
  cases step with
  | request func http memory made =>
    rcases System.request_cases made with ⟨_, rfl, rfl⟩ | ⟨_, ⟨e, added, rfl, rfl⟩ | ⟨refused, rfl, rfl⟩⟩
    · exact ⟨same rfl, rfl, rfl⟩
    · obtain ⟨_, _, rfl⟩ := add_some added
      exact ⟨same rfl, rfl, rfl⟩
    · obtain rfl := add_none refused
      exact ⟨same rfl, rfl, rfl⟩
  | run driven stays step =>
    -- every step of the consumer but the return needs another stage of the loop
    cases step with
    | accept added => exact absurd driven id
    | reject refused => exact absurd driven id
    | runEmpty ready empty => simp [Scheduler.Label.Driven, AsyncFuncScheduler.nested, frames] at driven
    | runSwap ready swapped => simp [Scheduler.Label.Driven, AsyncFuncScheduler.nested, frames] at driven
    | call did => simp [AsyncFuncScheduler.call, frames] at did
    | ret did => exact absurd rfl (stays _ _)
    | notify did => simp [AsyncFuncScheduler.notify, frames] at did
    | leave did => simp [AsyncFuncScheduler.leave, frames] at did
  | execute returned func performed =>
    obtain ⟨_, _, _, _, frames', _⟩ := return_some returned
    rw [frames] at frames'
    cases frames'
    rw [reboot] at func
    cases func
  | measure x idle =>
    rw [frames] at idle
    cases idle
  | handleReboot rebooting more => exact ⟨same rfl, rfl, rfl⟩
  | restart rebooting all => exact ⟨same rfl, rfl, rfl⟩
  | done http waiting set => exact ⟨same rfl, rfl, rfl⟩
  | timeout sendErr waiting => exact ⟨same rfl, rfl, rfl⟩

/-- The reboot handlers have been called in turn, by `RebootTask::run`. -/
structure Handled (tr : List Label) (s : System) : Prop where
  handled : handled tr = List.range s.handled
  bound : s.handled ≤ s.handlers
  restarted : s.restarted = true → s.Rebooting ∧ s.handled = s.handlers

theorem Handled.step (h : Handled tr s) (step : Step p s l s') : Handled (tr ++ [l]) s' := by
  obtain ⟨on, action⟩ := step
  have quiet : l.handles = [] → s'.handled = s.handled → s'.handlers = s.handlers → s'.restarted = s.restarted →
      Handled (tr ++ [l]) s' := by
    intro none handled handlers restarted
    refine ⟨?_, by rw [handled, handlers]; exact h.bound, fun off => ?_⟩
    · rw [SystemCalls.handled, List.flatMap_append, List.flatMap_singleton, none, List.append_nil, handled]
      exact h.handled
    · rw [restarted, on] at off
      cases off
  cases action with
  | request func http memory made =>
    rcases System.request_cases made with ⟨_, rfl, rfl⟩ | ⟨_, ⟨_, _, rfl, rfl⟩ | ⟨_, rfl, rfl⟩⟩
    · exact quiet rfl rfl rfl rfl
    · exact quiet rfl rfl rfl rfl
    · exact quiet rfl rfl rfl rfl
  | run driven stays step => exact quiet rfl rfl rfl rfl
  | execute returned func performed => exact quiet rfl rfl rfl rfl
  | measure x idle => exact quiet rfl rfl rfl rfl
  | handleReboot rebooting more =>
    refine ⟨?_, more, fun off => absurd (on.symm.trans off) Bool.false_ne_true⟩
    rw [SystemCalls.handled, List.flatMap_append, ← SystemCalls.handled, h.handled, List.range_succ]
    rfl
  | restart rebooting all =>
    refine ⟨?_, h.bound, fun _ => ⟨rebooting, all⟩⟩
    rw [SystemCalls.handled, List.flatMap_append, ← SystemCalls.handled, h.handled]
    exact List.append_nil _
  | done http waiting set => exact quiet rfl rfl rfl rfl
  | timeout sendErr waiting => exact quiet rfl rfl rfl rfl

/-- What holds after every run. -/
theorem known_of_run {handlers : Nat} (h : Run (Step p) (.new maxEventCount init handlers) tr s) :
    (Executed p init maxEventCount tr s ∧ Asked p init tr s) ∧ Handled tr s := by
  refine h.invariant (fun _ => True)
    (fun tr s => (Executed p init maxEventCount tr s ∧ Asked p init tr s) ∧ Handled tr s)
    ⟨⟨.new handlers, .new handlers⟩, ⟨rfl, Nat.zero_le _, Bool.noConfusion⟩⟩ ?_ (fun _ _ => trivial)
  intro tr s' l s'' known _ step
  obtain ⟨⟨executed, asked⟩, handled⟩ := known
  exact ⟨⟨executed.step step.2, asked.step executed step.2⟩, handled.step step⟩

/-- The sensor is used one operation at a time, in the order in which the requests came, and each of them
is answered with what its own operation returned. -/
structure Linear (p : Params) (init : Setup) (tr : List Label) (s : System) : Prop where
  sensor : s.sensor = replay p init (operations tr)
  arrival : (accepts tr).Pairwise (· < ·)
  order : (statuses p init (operations tr)).map Prod.fst <+: accepts tr
  ended : ∀ r reply, s.frames[r]? = some (.returned reply) → Ended p init tr r reply
  drained : s.scheduler.frames = [] → s.scheduler.queues s.scheduler.writeQueue = [] →
    (statuses p init (operations tr)).map Prod.fst = accepts tr

/-- **Requests are linearized**: under any interleaving of requests, measurements, timeouts and steps of the
system's task, the sensor is as if the operations had been called one after another in the order
of the requests, and a request that did not run out of time answers with the status of its own one. -/
theorem requests_linearized {handlers : Nat} (h : Run (Step p) (.new maxEventCount init handlers) tr s) :
    Linear p init tr s := by
  obtain ⟨⟨executed, asked⟩, _⟩ := known_of_run h
  have history := Histories.of_run executed.run executed.flat
  refine ⟨executed.sensor, asked.numbered, ?_, asked.ended, fun idle empty => ?_⟩
  · rw [executed.order, accepts, history.outstanding, List.map_append]
    exact List.prefix_append _ _
  · have none : outstanding s.scheduler = [] := by simp [outstanding, executing, pending, ahead, idle, empty]
    rw [executed.order, accepts, history.outstanding, none, List.append_nil]

/-- What a request was answered with stays, whatever comes after. -/
theorem Action.kept {r : Nat} {reply : Server.Reply} (step : Action p s l s')
    (here : s.frames[r]? = some (.returned reply)) : s'.frames[r]? = some (.returned reply) := by
  have appended : ∀ fr, (s.frames ++ [fr])[r]? = some (.returned reply) := fun fr =>
    (List.getElem?_append_left (List.getElem?_eq_some_iff.mp here).1).trans here
  -- only a waiting request is given an answer
  have set : ∀ {r' func before future reply'}, s.frames[r']? = some (.waiting func before future) →
      (s.frames.set r' (.returned reply'))[r]? = some (.returned reply) := by
    intro r' func before future reply' waiting
    have apart : r' ≠ r := by
      rintro rfl
      rw [here] at waiting
      cases waiting
    rw [List.getElem?_set_ne apart]
    exact here
  cases step with
  | request func http memory made =>
    rcases System.request_cases made with ⟨_, _, rfl⟩ | ⟨_, ⟨_, _, _, rfl⟩ | ⟨_, _, rfl⟩⟩
    · exact appended _
    · exact appended _
    · exact appended _
  | done http waiting _ => exact set waiting
  | timeout sendErr waiting => exact set waiting
  | _ => exact here

/-- A request that `add` refuses is answered at once, with what it has told the client before. -/
theorem Action.refused {func : Func} {e : Event Closure} (step : Action p s (.request func (some (.reject e))) s') :
    ∃ http : JsonHttpd, s'.frames[e.func.request]? =
      some (.returned (Server.answer http.sendErr (.invalidState, told func))) := by
  cases step with
  | request func http memory made =>
    rcases System.request_cases made with ⟨_, none, _⟩ | ⟨_, ⟨_, _, accepted, _⟩ | ⟨_, rejected, rfl⟩⟩
    · cases none
    · cases accepted
    · cases rejected
      exact ⟨http, List.getElem?_concat_length⟩

/-- A reboot is the last thing that the system's task does; the device restarts after all handlers were called,
and those who asked for it were told so and get no error, unless the queue was full: then the error comes
after what they were told. -/
structure Reboots (tr : List Label) (s : System) : Prop where
  alone : ∀ a e b, tr = a ++ .run (.call e) :: b → e.func.func = .rebootTask → operations b = [] ∧ called (calls b) = []
  asked : ∀ e ∈ accepted (calls tr), e.func.func = .rebootTask →
    s.frames[e.func.request]? = some (.waiting .rebootTask [.response true] e.future)
  refused : ∀ e, .request .rebootTask (some (.reject e)) ∈ tr → ∃ http : JsonHttpd, s.frames[e.func.request]? =
    some (.returned (Server.answer http.sendErr (.invalidState, [.response true])))
  restart : ∀ a b, tr = a ++ .restart :: b → b = [] ∧ handled tr = List.range s.handlers ∧
    ∃ e ∈ called (calls tr), e.func.func = .rebootTask

/-- **Reboots are prepared**: in every run nothing is executed once a reboot is, and the device restarts only when each
reboot handler has been called once, in turn, for a request that has been answered. A request that the full queue
refuses is answered as well, and then with an error. -/
theorem reboots_prepared {handlers : Nat} (h : Run (Step p) (.new maxEventCount init handlers) tr s) :
    Reboots tr s := by
  obtain ⟨⟨executed, asked⟩, handlers'⟩ := known_of_run h
  refine ⟨?_, asked.asked, ?_, ?_⟩
  · rintro a e b rfl reboot
    obtain ⟨s₁, _, later⟩ := h.split
    obtain ⟨s₂, first, rest⟩ := later.uncons
    have begun : s₂.Rebooting := by
      obtain ⟨_, action⟩ := first
      cases action with
      | run driven stays step =>
        cases step with
        | call did =>
          obtain ⟨q, i, stop, outer, _, _, _, rfl⟩ := call_some did
          exact ⟨q, i + 1, stop, e, outer, rfl, reboot⟩
    have both := rest.invariant (fun _ => True)
      (fun tr s => s.Rebooting ∧ operations tr = [] ∧ called (calls tr) = []) ⟨begun, rfl, rfl⟩ ?_ (fun _ _ => trivial)
    · exact both.2
    · intro tr s' l s'' known _ step
      obtain ⟨rebooting, idle, silent⟩ := known
      obtain ⟨rebooting', idle', silent'⟩ := rebooting.step step.2
      refine ⟨rebooting', by rw [operations_snoc, idle, idle', List.append_nil], ?_⟩
      rw [calls_snoc, called, List.flatMap_append, ← called, ← called, silent, silent', List.append_nil]
  · intro e member
    obtain ⟨a, b, rfl⟩ := List.append_of_mem member
    obtain ⟨s₁, _, later⟩ := h.split
    obtain ⟨s₂, first, rest⟩ := later.uncons
    obtain ⟨http, here⟩ := first.2.refused
    exact ⟨http, rest.preserves (fun _ => True) _ here (fun _ _ _ kept _ step => step.2.kept kept) (fun _ _ => trivial)⟩
  · rintro a b rfl
    obtain ⟨s₁, _, later⟩ := h.split
    obtain ⟨s₂, first, rest⟩ := later.uncons
    have restarted : s₂.restarted = true := by
      obtain ⟨_, action⟩ := first
      cases action
      rfl
    -- no step is left to a device that restarts
    have stays : ∀ s' l s'', s'.restarted = true → True → Step p s' l s'' → s''.restarted = true :=
      fun s' l s'' off _ step => absurd (step.1.symm.trans off) Bool.noConfusion
    obtain rfl : b = [] := by
      cases b with
      | nil => rfl
      | cons l b =>
        obtain ⟨_, next, _⟩ := rest.uncons
        exact absurd (next.1.symm.trans restarted) Bool.noConfusion
    have off := rest.preserves (fun _ => True) (fun s => s.restarted = true) restarted stays (fun _ _ => trivial)
    obtain ⟨⟨q, i, stop, e, outer, frames, reboot⟩, all⟩ := handlers'.restarted off
    refine ⟨rfl, by rw [handlers'.handled, all], e, ?_, reboot⟩
    rw [(Histories.of_run executed.run executed.flat).runs]
    refine List.mem_append_right _ ?_
    simp [executing, frames]

end

/-! ## A heating and a reboot -/

/-- Everything succeeds. -/
def succeeds : Outcome := ⟨.ok, ⟨.ok, fun k => if k.val = 2 ∨ k.val = 5 then calculateCrc 0 0 else 0⟩, none⟩

def start : System := .new 2 ⟨0, [], {}, fun _ => none, [], false⟩ 1

/-- The requests for both are made before the system's task executes the first, and a third finds the queue
full. -/
def heatedAndRebooted : List Label :=
  [.request (.operation .heat) (some (.accept ⟨⟨0, .operation .heat⟩, 0⟩)),
    .request .rebootTask (some (.accept ⟨⟨1, .rebootTask⟩, 1⟩)),
    .request .rebootTask (some (.reject ⟨⟨2, .rebootTask⟩, 2⟩)), .run (.runSwap false),
    .run (.call ⟨⟨0, .operation .heat⟩, 0⟩), .execute .heat succeeds ⟨⟨0, .operation .heat⟩, 0⟩ .ok,
    .run (.notify 0 .ok), .done 0 ⟨true, true, true⟩, .run (.call ⟨⟨1, .rebootTask⟩, 1⟩), .handleReboot 0, .restart]

/-- The consumer's next step. -/
theorem Step.run {p : Params} {s : System} {scheduler : AsyncFuncScheduler Closure} (l : Scheduler.Label Closure)
    (on : s.restarted = false) (driven : l.Driven) (stays : ∀ e code, l ≠ .ret e code)
    (exec : s.scheduler.exec l = some scheduler) : Step p s (.run l) { s with scheduler } :=
  ⟨on, .run driven stays (AsyncFuncScheduler.exec_sound exec)⟩

/-- The function being executed returns. -/
theorem Step.execute {p : Params} {s : System} {scheduler : AsyncFuncScheduler Closure} {e : Event Closure}
    {code : StatusCode} (o : HandleOperation) (x : Outcome) (on : s.restarted = false)
    (func : e.func.func = .operation o) (returned : s.scheduler.return_ code = some (e, scheduler)) (performed : (o.run p s.sensor x).1 = code) :
    Step p s (.execute o x e code) { s with scheduler, sensor := (o.run p s.sensor x).2 } :=
  ⟨on, .execute returned func (Prod.ext performed rfl)⟩

theorem run_heatedAndRebooted : ∃ s, Run (Step Params.default) start heatedAndRebooted s := by
  have heats : (HandleOperation.heat.run Params.default start.sensor succeeds).1 = .ok := by decide +kernel
  have r₁ : Run (Step Params.default) start _ _ :=
    .single ⟨rfl, .request (.operation .heat) ⟨true, true, true⟩ true rfl⟩
  have r₂ := r₁.next ⟨rfl, .request .rebootTask ⟨true, true, true⟩ true rfl⟩
  have r₃ := r₂.next ⟨rfl, .request .rebootTask ⟨true, true, true⟩ true rfl⟩
  have r₄ := r₃.next (.run (.runSwap false) rfl rfl nofun rfl)
  have r₅ := r₄.next (.run (.call ⟨⟨0, .operation .heat⟩, 0⟩) rfl trivial nofun rfl)
  have r₆ := r₅.next (.execute .heat succeeds rfl rfl rfl heats)
  have r₇ := r₆.next (.run (.notify 0 .ok) rfl trivial nofun rfl)
  have r₈ := r₇.next ⟨rfl, .done (r := 0) ⟨true, true, true⟩ rfl rfl⟩
  have r₉ := r₈.next (.run (.call ⟨⟨1, .rebootTask⟩, 1⟩) rfl trivial nofun rfl)
  have r₁₀ := r₉.next ⟨rfl, .handleReboot ⟨_, _, _, _, _, rfl, rfl⟩ (Nat.zero_lt_succ 0)⟩
  exact ⟨_, r₁₀.next ⟨rfl, .restart ⟨_, _, _, _, _, rfl, rfl⟩ rfl⟩⟩

theorem requests_linearized_two :
    ∃ s, Run (Step Params.default) start heatedAndRebooted s ∧
      Linear Params.default start.sensor heatedAndRebooted s := by
  obtain ⟨s, run⟩ := run_heatedAndRebooted
  exact ⟨s, run, requests_linearized run⟩

theorem reboots_prepared_one : ∃ s, Run (Step Params.default) start heatedAndRebooted s ∧
    Reboots heatedAndRebooted s := by
  obtain ⟨s, run⟩ := run_heatedAndRebooted
  exact ⟨s, run, reboots_prepared run⟩

end OcsComponents.Pipeline.SystemCalls
