import OcsComponents.Lib.Transition

/-!
# Low power delays

`ocs_system/low_power_delayer.{h,cpp}` with the flag of `ocs_core/basic_async_flag.cpp`
and `ocs_core/async_flag_isr.cpp`: a task that calls `delay` again and again, the timer, and
the alarm interrupt. `delay` starts the timer, stores the task handle and sleeps for a
notification; the interrupt exchanges the handle with `nullptr` and notifies the task it
got. Every action is a step, and task, timer and interrupt take theirs in any order.

The timer is running when the handle is stored. An interrupt that is over before finds
`nullptr`, and nobody notifies the task.
-/

namespace OcsComponents.System
open Transition

/-- Where the task is in `delay`, by what it does next. -/
inductive Task where
  | idle
  | setRawCount (delay : Int)
  | setAlarmAction (delay : Int)
  | start
  /-- `flag_.wait`: the store of the handle. -/
  | store
  /-- `flag_.wait`: in `ulTaskNotifyTake(pdTRUE, portMAX_DELAY)`. -/
  | take
  | stop
  deriving DecidableEq, Repr

/-- Where the interrupt is in `AsyncFlagIsr::signal`. -/
inductive Isr where
  | idle
  | exchange
  | give
  deriving DecidableEq, Repr

structure LowPowerDelayer where
  task : Task
  isr : Isr
  /-- `task_to_notify_` is not `nullptr`. -/
  taskToNotify : Bool
  /-- The notification value of the task. -/
  pending : Nat
  /-- The timer counts. -/
  running : Bool
  rawCount : Nat
  /-- The alarm that is set; it goes off once. -/
  alarmCount : Option Nat
  /-- The interrupt of the last alarm that was set has returned. -/
  fired : Bool
  deriving DecidableEq, Repr

namespace LowPowerDelayer

def new : LowPowerDelayer := ⟨.idle, .idle, false, 0, false, 0, none, false⟩

/-- The steps; `ok` where a timer function returns `ESP_OK`. -/
inductive Label where
  | call (delay : Int)
  | setRawCount (ok : Bool)
  | setAlarmAction (ok : Bool)
  | start (ok : Bool)
  | store
  | take
  | stop (ok : Bool)
  | tick
  | alarm
  | exchange
  | give
  deriving DecidableEq, Repr

/-- The step of a label, where there is one. A timer that runs cannot be started. -/
def exec (s : LowPowerDelayer) : Label → Option LowPowerDelayer
  | .call delay => if s.task = .idle then some { s with task := .setRawCount delay } else none
  | .setRawCount ok =>
    match s.task with
    | .setRawCount delay =>
      some (if ok then { s with task := .setAlarmAction delay, rawCount := 0 } else { s with task := .idle })
    | _ => none
  | .setAlarmAction ok =>
    match s.task with
    | .setAlarmAction delay =>
      some (if ok then
        -- `alarm_count` is unsigned
        { s with task := .start, alarmCount := some (BitVec.ofInt 64 delay).toNat, fired := false }
      else { s with task := .idle })
    | _ => none
  | .start ok =>
    if s.task = .start then
      if ok then
        if s.running then none else some { s with task := .store, running := true }
      else some { s with task := .idle }
    else none
  | .store => if s.task = .store then some { s with task := .take, taskToNotify := true } else none
  | .take =>
    if s.task = .take ∧ s.pending ≠ 0 then some { s with task := .stop, pending := 0 } else none
  | .stop ok =>
    if s.task = .stop then
      some (if ok then { s with task := .idle, running := false } else { s with task := .idle })
    else none
  | .tick => if s.running then some { s with rawCount := s.rawCount + 1 } else none
  | .alarm =>
    match s.alarmCount with
    | some alarm =>
      if s.running ∧ alarm ≤ s.rawCount ∧ s.isr = .idle then some { s with isr := .exchange, alarmCount := none }
      else none
    | none => none
  | .exchange =>
    if s.isr = .exchange then
      some (if s.taskToNotify then { s with isr := .give, taskToNotify := false }
      else { s with isr := .idle, fired := true })
    else none
  | .give =>
    if s.isr = .give then some { s with isr := .idle, pending := s.pending + 1, fired := true } else none

def Step (s : LowPowerDelayer) (l : Label) (s' : LowPowerDelayer) : Prop := exec s l = some s'

/-- The alarm has fired, no notification is pending, and the task is in `wait`. -/
def Lost (s : LowPowerDelayer) : Prop := s.fired = true ∧ s.pending = 0 ∧ s.task = .take

instance : DecidablePred Lost := fun _ => inferInstanceAs (Decidable (_ ∧ _))

/-- The interrupt does not look for the handle between the start of the timer and the store of the handle. -/
def Timely (s : LowPowerDelayer) (l : Label) (s' : LowPowerDelayer) : Prop :=
  Step s l s' ∧ (l = .exchange → s.task ≠ .store)

/-- What the flag and the interrupt hold, by where the task is. -/
structure Kept (s : LowPowerDelayer) : Prop where
  /-- Outside the wait there is nobody to notify. -/
  before : s.task ≠ .take → s.taskToNotify = false ∧ s.pending = 0 ∧ s.isr ≠ .give
  quiet : s.running = false → s.isr = .idle ∧ (s.task = .start → s.fired = false)
  stored : s.task = .store → s.running = true ∧ s.fired = false ∧ (s.isr = .idle ∨ s.alarmCount = none)
  /-- In the wait the interrupt has not looked for the handle, has it, or has notified the task. -/
  waiting : s.task = .take → s.running = true ∧
    (s.taskToNotify = true ∧ s.pending = 0 ∧ s.fired = false ∧ s.isr ≠ .give ∧ (s.isr = .idle ∨ s.alarmCount = none) ∨
      s.taskToNotify = false ∧ s.pending = 0 ∧ s.fired = false ∧ s.isr = .give ∧ s.alarmCount = none ∨
      s.taskToNotify = false ∧ s.pending = 1 ∧ s.fired = true ∧ s.isr = .idle ∧ s.alarmCount = none)
  stopping : s.task = .stop → s.isr = .idle ∧ s.alarmCount = none

/-- The task's own steps up to the store of its handle. -/
theorem Kept.starts {s s' : LowPowerDelayer} {ok : Bool} (h : Kept s) (step : Step s (.start ok) s') : Kept s' := by
  obtain ⟨before, quiet, stored, waiting, stopping⟩ := h
  simp only [Step, exec] at step
  split at step
  · cases ok with
    | true =>
      rw [if_pos rfl] at step
      split at step <;> cases step
      constructor <;> grind -ring -linarith
    | false =>
      cases step
      constructor <;> grind -ring -linarith
  · cases step

theorem Kept.stops {s s' : LowPowerDelayer} {ok : Bool} (h : Kept s) (step : Step s (.stop ok) s') : Kept s' := by
  obtain ⟨before, quiet, stored, waiting, stopping⟩ := h
  simp only [Step, exec] at step
  split at step <;> cases step
  split <;> constructor <;> grind -ring -linarith

/-- The interrupt goes off. -/
theorem Kept.alarm {s s' : LowPowerDelayer} (h : Kept s) (step : Step s .alarm s') : Kept s' := by
  obtain ⟨before, quiet, stored, waiting, stopping⟩ := h
  simp only [Step, exec] at step
  split at step
  · split at step <;> cases step
    constructor <;> grind -ring -linarith
  · cases step

/-- The interrupt looks for the handle, not just before it is stored. -/
theorem Kept.exchange {s s' : LowPowerDelayer} (h : Kept s) (step : Step s .exchange s') (timely : s.task ≠ .store) :
    Kept s' := by
  obtain ⟨before, quiet, stored, waiting, stopping⟩ := h
  simp only [Step, exec] at step
  split at step <;> cases step
  split <;> constructor <;> grind -ring -linarith

theorem Kept.step {s s' : LowPowerDelayer} {l : Label} (h : Kept s) (step : Timely s l s') : Kept s' := by
  obtain ⟨step, timely⟩ := step
  cases l with
  | call | store | take | tick | give =>
    obtain ⟨before, quiet, stored, waiting, stopping⟩ := h
    simp only [Step, exec] at step
    split at step <;> cases step
    constructor <;> grind -ring -linarith
  | setRawCount ok | setAlarmAction ok =>
    obtain ⟨before, quiet, stored, waiting, stopping⟩ := h
    simp only [Step, exec] at step
    split at step <;> cases step
    constructor <;> grind -ring -linarith
  | start ok => exact h.starts step
  | stop ok => exact h.stops step
  | exchange => exact h.exchange step (timely rfl)
  | alarm => exact h.alarm step

theorem Kept.of_run {tr : List Label} {s : LowPowerDelayer} (h : Run Timely new tr s) : Kept s := by
  refine h.preserves (fun _ => True) Kept ?_ (fun _ _ _ kept _ step => kept.step step) (by simp)
  constructor <;> simp [new]

/-- **The alarm is not lost** as long as the interrupt looks for the handle when it is
stored; and an interrupt that looks before the store does lose it. -/
theorem alarm_not_lost {tr : List Label} {s : LowPowerDelayer} (h : Run Timely new tr s) :
    ¬ Lost s ∧ ∀ s', Step s .exchange s' → ((∃ s'', Step s' .store s'' ∧ Lost s'') ↔ s.task = .store) := by
  have kept := Kept.of_run h
  refine ⟨?_, ?_⟩
  · rintro ⟨fired, pending, asleep⟩
    have waiting := (kept.waiting asleep).2
    grind -ring -linarith
  · intro s' step
    unfold Step at step ⊢
    simp only [exec] at step
    split at step <;> cases step
    rename_i looks
    constructor
    · rintro ⟨s'', stores, lost⟩
      grind -ring -linarith [exec]
    · intro here
      obtain ⟨none, pending, _⟩ := kept.before (by simp [here])
      rw [none, if_neg Bool.false_ne_true]
      refine ⟨_, if_pos here, rfl, pending, rfl⟩

/-- The steps of a run that is timely. -/
def execTimely (s : LowPowerDelayer) (l : Label) : Option LowPowerDelayer :=
  if l = .exchange ∧ s.task = .store then none else exec s l

theorem execTimely_sound {s s' : LowPowerDelayer} {l : Label} (h : execTimely s l = some s') : Timely s l s' := by
  obtain ⟨timely, step⟩ := Option.ite_none_left_eq_some.mp h
  exact ⟨step, fun looks stores => timely ⟨looks, stores⟩⟩

/-- A delay of 10 ticks: the task sleeps, and the interrupt is about to look for its handle. -/
def tenTicks : List Label :=
  [.call 10, .setRawCount true, .setAlarmAction true, .start true, .store] ++ List.replicate 10 .tick ++
    [.alarm]

theorem alarm_not_lost_tenTicks :
    ∃ s, Run Timely new tenTicks s ∧ s.task = .take ∧ s.isr = .exchange ∧
      ¬ Lost s ∧ ∀ s', Step s .exchange s' → ((∃ s'', Step s' .store s'' ∧ Lost s'') ↔ s.task = .store) := by
  obtain ⟨s, run, asleep, looks⟩ := Run.exists_of_exec execTimely execTimely_sound tenTicks new
    (fun s => s.task = .take ∧ s.isr = .exchange) (by decide)
  exact ⟨s, run, asleep, looks, alarm_not_lost run⟩

/-- The task is kept from running between `gptimer_start` and the store of its handle. -/
def preempted : List Label :=
  [.call 10, .setRawCount true, .setAlarmAction true, .start true] ++ List.replicate 10 .tick ++
    [.alarm, .exchange, .store]

theorem alarm_lost_preempted : ∃ s, Run Step new preempted s ∧ Lost s :=
  Run.exists_of_exec exec id preempted new Lost (by decide)

end LowPowerDelayer

end OcsComponents.System
