import Mathlib.Logic.Function.Basic
import OcsComponents.Lib.Transition

/-!
# Condition variables

`ocs_core/cond.{h,cpp}` over FreeRTOS tasks. A task that waits appends itself to
`tasks_`, unlocks the locker, sleeps in `ulTaskNotifyTake` until its notification value
is not zero or its time is over, and locks again. A task that signals pops the head of
`tasks_` under `mu_` and gives it a notification. Each shared action is a step of its own,
and a step is taken by one task, so that a run is any interleaving. The documented
discipline is part of the steps: `wait`, `signal` and `broadcast` start with the locker
held, and a task that is in none of them may lock and unlock as it likes.
-/

namespace OcsComponents.Core
open Transition

/-- `TickType_t`. -/
abbrev TickType := UInt32

/-- `portMAX_DELAY`: the wait has no end. -/
def portMaxDelay : TickType := 0xffffffff

/-- Where a task is in the code of the condition variable. -/
inductive Place (τ : Type) where
  | outside
  /-- `wait`: appended, before `locker_.unlock()`. -/
  | unlocking (wait : TickType)
  /-- `wait`: in `ulTaskNotifyTake`. -/
  | taking (wait : TickType)
  /-- `wait`: in `locker_.lock()`, with the `count` that was taken. -/
  | relocking (count : Nat)
  /-- `signal_`: has popped `task` and not notified it yet; `all` in `broadcast`. -/
  | giving (task : τ) (all : Bool)
  deriving DecidableEq, Repr

namespace Place
variable {τ : Type}

/-- In `ulTaskNotifyTake`. -/
@[simp, grind] def takes : Place τ → Bool
  | .taking _ => true
  | _ => false

/-- Inside `wait`, with nothing taken. -/
@[simp, grind] def waits : Place τ → Bool
  | .unlocking _ | .taking _ | .relocking 0 => true
  | _ => false

/-- Inside `wait`. -/
@[simp, grind] def inWait : Place τ → Bool
  | .unlocking _ | .taking _ | .relocking _ => true
  | _ => false

/-- Inside `wait`, without the locker. -/
@[simp, grind] def away : Place τ → Bool
  | .taking _ | .relocking _ => true
  | _ => false

/-- The task that `signal_` is about to notify. -/
@[simp, grind] def gives : Place τ → Option τ
  | .giving t _ => some t
  | _ => none

end Place

structure Cond (τ : Type) where
  /-- The task that holds `locker_`. -/
  locker : Option τ
  /-- The task that holds `mu_`. -/
  mu : Option τ
  tasks : List τ
  /-- The notification value of each task. -/
  count : τ → Nat
  place : τ → Place τ

namespace Cond
variable {τ : Type}

/-- The tasks may have been notified before, by other code. -/
def new (count : τ → Nat) : Cond τ := ⟨none, none, [], count, fun _ => .outside⟩

/-- `Cond::append_task_`. -/
def appendTask (s : Cond τ) (t : τ) : Cond τ := { s with tasks := s.tasks ++ [t] }

variable [DecidableEq τ]

/-- Task `t` goes on to `p`. -/
def goto (s : Cond τ) (t : τ) (p : Place τ) : Cond τ := { s with place := Function.update s.place t p }

/-- `xTaskNotifyGive`. -/
def notifyGive (s : Cond τ) (t : τ) : Cond τ := { s with count := Function.update s.count t (s.count t + 1) }

/-- `ulTaskNotifyTake(pdTRUE, …)`, once there is something to take. -/
def notifyTake (s : Cond τ) (t : τ) : Cond τ := { s with count := Function.update s.count t 0 }

/-- `c` releases `mu_` and returns from `signal` or `broadcast`. -/
def leave (s : Cond τ) (c : τ) : Cond τ := { s.goto c .outside with mu := none }

/-- The test of `tasks_` in `signal` and in the loop of `broadcast`: `signal_` pops the
head, or the call returns. -/
def front (s : Cond τ) (c : τ) (all : Bool) : Cond τ :=
  match s.tasks with
  | [] => s.leave c
  | t :: rest => { s.goto c (.giving t all) with mu := some c, tasks := rest }

/-- The rest of `signal_`, then the end of `signal` or the next turn of `broadcast`. -/
def given (s : Cond τ) (c t : τ) (all : Bool) : Cond τ :=
  if all then (s.notifyGive t).front c true else (s.notifyGive t).leave c

/-- What a task does next. -/
inductive Label (τ : Type) where
  | lock (t : τ)
  | unlock (t : τ)
  | wait (t : τ) (wait : TickType)
  | release (t : τ)
  | take (t : τ)
  | timeout (t : τ)
  | relock (t : τ)
  | signal (c : τ)
  | broadcast (c : τ)
  | give (c : τ)
  deriving DecidableEq, Repr

/-- The task that takes the step. -/
@[simp] def Label.task : Label τ → τ
  | .lock t | .unlock t | .wait t _ | .release t | .take t | .timeout t | .relock t | .signal t | .broadcast t
  | .give t => t

inductive Step : Cond τ → Label τ → Cond τ → Prop
  | lock {s t} (out : s.place t = .outside) (free : s.locker = none) :
      Step s (.lock t) { s with locker := some t }
  | unlock {s t} (out : s.place t = .outside) (holds : s.locker = some t) :
      Step s (.unlock t) { s with locker := none }
  | wait {s t wait} (out : s.place t = .outside) (holds : s.locker = some t) (free : s.mu = none) :
      Step s (.wait t wait) ((s.appendTask t).goto t (.unlocking wait))
  | release {s t wait} (here : s.place t = .unlocking wait) :
      Step s (.release t) { s.goto t (.taking wait) with locker := none }
  | take {s t wait} (here : s.place t = .taking wait) (some : s.count t ≠ 0) :
      Step s (.take t) ((s.notifyTake t).goto t (.relocking (s.count t)))
  | timeout {s t wait} (here : s.place t = .taking wait) (none : s.count t = 0) (ends : wait ≠ portMaxDelay) :
      Step s (.timeout t) (s.goto t (.relocking 0))
  | relock {s t n} (here : s.place t = .relocking n) (free : s.locker = none) :
      Step s (.relock t) { s.goto t .outside with locker := some t }
  | signal {s c} (out : s.place c = .outside) (holds : s.locker = some c) (free : s.mu = none) :
      Step s (.signal c) (s.front c false)
  | broadcast {s c} (out : s.place c = .outside) (holds : s.locker = some c) (free : s.mu = none) :
      Step s (.broadcast c) (s.front c true)
  | give {s c t all} (here : s.place c = .giving t all) : Step s (.give c) (s.given c t all)

/-- The step of a label, where there is one. -/
def exec (s : Cond τ) : Label τ → Option (Cond τ)
  | .lock t => if s.place t = .outside ∧ s.locker = none then some { s with locker := some t } else none
  | .unlock t => if s.place t = .outside ∧ s.locker = some t then some { s with locker := none } else none
  | .wait t wait =>
    if s.place t = .outside ∧ s.locker = some t ∧ s.mu = none then
      some ((s.appendTask t).goto t (.unlocking wait))
    else none
  | .release t =>
    match s.place t with
    | .unlocking wait => some { s.goto t (.taking wait) with locker := none }
    | _ => none
  | .take t =>
    match s.place t with
    | .taking _ => if s.count t ≠ 0 then some ((s.notifyTake t).goto t (.relocking (s.count t))) else none
    | _ => none
  | .timeout t =>
    match s.place t with
    | .taking wait => if s.count t = 0 ∧ wait ≠ portMaxDelay then some (s.goto t (.relocking 0)) else none
    | _ => none
  | .relock t =>
    match s.place t with
    | .relocking _ => if s.locker = none then some { s.goto t .outside with locker := some t } else none
    | _ => none
  | .signal c =>
    if s.place c = .outside ∧ s.locker = some c ∧ s.mu = none then some (s.front c false) else none
  | .broadcast c =>
    if s.place c = .outside ∧ s.locker = some c ∧ s.mu = none then some (s.front c true) else none
  | .give c =>
    match s.place c with
    | .giving t all => some (s.given c t all)
    | _ => none

theorem exec_sound {s s' : Cond τ} {l : Label τ} (h : exec s l = some s') : Step s l s' := by
  cases l <;> simp only [exec] at h
  case lock | unlock =>
    split at h <;> cases h
    rename_i ready
    first | exact .lock ready.1 ready.2 | exact .unlock ready.1 ready.2
  case wait | signal | broadcast =>
    split at h <;> cases h
    rename_i ready
    obtain ⟨out, holds, free⟩ := ready
    first | exact .wait out holds free | exact .signal out holds free | exact .broadcast out holds free
  case release | give =>
    split at h <;> cases h
    rename_i here
    first | exact .release here | exact .give here
  case take | timeout | relock =>
    split at h
    next here =>
      split at h <;> cases h
      rename_i ready
      first | exact .take here ready | exact .timeout here ready.1 ready.2 | exact .relock here ready
    next => cases h

/-! The fields after each operation. -/

section Fields
variable (s : Cond τ) (t u : τ) (p : Place τ)

@[simp, grind =] theorem goto_place : (s.goto t p).place u = if u = t then p else s.place u := by
  simp [goto, Function.update_apply]

@[simp, grind =] theorem goto_locker : (s.goto t p).locker = s.locker := rfl
@[simp, grind =] theorem goto_mu : (s.goto t p).mu = s.mu := rfl
@[simp, grind =] theorem goto_tasks : (s.goto t p).tasks = s.tasks := rfl
@[simp, grind =] theorem goto_count : (s.goto t p).count u = s.count u := rfl

@[simp, grind =] theorem notifyGive_place : (s.notifyGive t).place u = s.place u := rfl
@[simp, grind =] theorem notifyGive_locker : (s.notifyGive t).locker = s.locker := rfl
@[simp, grind =] theorem notifyGive_tasks : (s.notifyGive t).tasks = s.tasks := rfl

@[simp, grind =] theorem notifyGive_count :
    (s.notifyGive t).count u = if u = t then s.count t + 1 else s.count u := by
  simp [notifyGive, Function.update_apply]

@[simp, grind =] theorem notifyTake_place : (s.notifyTake t).place u = s.place u := rfl
@[simp, grind =] theorem notifyTake_locker : (s.notifyTake t).locker = s.locker := rfl
@[simp, grind =] theorem notifyTake_mu : (s.notifyTake t).mu = s.mu := rfl
@[simp, grind =] theorem notifyTake_tasks : (s.notifyTake t).tasks = s.tasks := rfl

@[simp, grind =] theorem notifyTake_count : (s.notifyTake t).count u = if u = t then 0 else s.count u := by
  simp [notifyTake, Function.update_apply]

@[simp, grind =] theorem leave_place : (s.leave t).place u = if u = t then .outside else s.place u := goto_place ..
@[simp, grind =] theorem leave_locker : (s.leave t).locker = s.locker := rfl
@[simp, grind =] theorem leave_mu : (s.leave t).mu = none := rfl
@[simp, grind =] theorem leave_tasks : (s.leave t).tasks = s.tasks := rfl
@[simp, grind =] theorem leave_count : (s.leave t).count u = s.count u := rfl

omit [DecidableEq τ]

@[simp, grind =] theorem appendTask_place : (s.appendTask t).place u = s.place u := rfl
@[simp, grind =] theorem appendTask_locker : (s.appendTask t).locker = s.locker := rfl
@[simp, grind =] theorem appendTask_mu : (s.appendTask t).mu = s.mu := rfl
@[simp, grind =] theorem appendTask_tasks : (s.appendTask t).tasks = s.tasks ++ [t] := rfl
@[simp, grind =] theorem appendTask_count : (s.appendTask t).count u = s.count u := rfl

end Fields

/-- `broadcast` tests the queue where `signal` returns. -/
theorem given_eq (s : Cond τ) (c t : τ) (all : Bool) :
    s.given c t all = if all then ((s.notifyGive t).leave c).front c true else (s.notifyGive t).leave c := by
  have same : ∀ s : Cond τ, s.front c true = (s.leave c).front c true := by
    intro s
    unfold front
    rw [leave_tasks]
    split <;> simp [leave, goto]
  unfold given
  rw [same]

/-- With nothing to signal the call has no effect. -/
theorem front_nil {s : Cond τ} {c : τ} {all : Bool} (empty : s.tasks = []) (out : s.place c = .outside)
    (free : s.mu = none) : s.front c all = s := by
  unfold front
  rw [empty]
  unfold leave goto
  rw [← out, Function.update_eq_self, ← free]

theorem front_cons {s : Cond τ} {c t : τ} {all : Bool} {rest : List τ} (queue : s.tasks = t :: rest) :
    s.front c all = { s.goto c (.giving t all) with mu := some c, tasks := rest } := by
  unfold front
  rw [queue]

/-- Asleep in `ulTaskNotifyTake`. -/
@[grind] def Blocked (s : Cond τ) (t : τ) : Prop := (s.place t).takes = true ∧ s.count t = 0

/-- Inside `wait` and not notified. -/
@[grind] def Waits (s : Cond τ) (t : τ) : Prop := (s.place t).waits = true ∧ s.count t = 0

/-- The task that is popped and not notified yet. -/
def popped (s : Cond τ) : Option τ :=
  match s.mu with
  | none => none
  | some c => (s.place c).gives

omit [DecidableEq τ] in
theorem Blocked.waits {s : Cond τ} {t : τ} (h : s.Blocked t) : s.Waits t := by
  obtain ⟨takes, unnotified⟩ := h
  refine ⟨?_, unnotified⟩
  cases here : s.place t <;> simp_all

/-- Both mutexes are held by whom the code lets hold them. -/
structure Disciplined (s : Cond τ) : Prop where
  unlocking : ∀ t wait, s.place t = .unlocking wait → s.locker = some t
  giving : ∀ c t all, s.place c = .giving t all → s.locker = some c ∧ s.mu = some c
  held : ∀ c, s.mu = some c → ∃ t all, s.place c = .giving t all

omit [DecidableEq τ] in
theorem Disciplined.new (count : τ → Nat) : Disciplined (Cond.new count) := by
  constructor <;> intros <;> contradiction

theorem Disciplined.front {s : Cond τ} {c : τ} {all : Bool} (h : Disciplined s) (out : s.place c = .outside)
    (holds : s.locker = some c) (free : s.mu = none) : Disciplined (s.front c all) := by
  cases queue : s.tasks with
  | nil => rwa [front_nil queue out free]
  | cons t rest =>
    rw [front_cons queue]
    obtain ⟨unlocking, giving, held⟩ := h
    refine ⟨by grind -ring -linarith, by grind, ?_⟩
    intro c' is
    cases is
    exact ⟨t, all, by simp⟩

theorem Disciplined.gave {s : Cond τ} {c t : τ} {all : Bool} (h : Disciplined s)
    (here : s.place c = .giving t all) : Disciplined ((s.notifyGive t).leave c) := by
  obtain ⟨unlocking, giving, held⟩ := h
  constructor <;> grind -ring -linarith

theorem Disciplined.given {s : Cond τ} {c t : τ} {all : Bool} (h : Disciplined s)
    (here : s.place c = .giving t all) : Disciplined (s.given c t all) := by
  rw [given_eq]
  split
  · apply (h.gave here).front
    · simp
    · exact (h.giving _ _ _ here).1
    · rfl
  · exact h.gave here

theorem Disciplined.step {s s' : Cond τ} {l : Label τ} (h : Disciplined s) (step : Step s l s') :
    Disciplined s' := by
  cases step with
  | signal out holds free => exact h.front out holds free
  | broadcast out holds free => exact h.front out holds free
  | give here => exact h.given here
  | _ =>
    obtain ⟨unlocking, giving, held⟩ := h
    constructor <;> grind -ring -linarith

theorem popped_goto {s : Cond τ} {t : τ} {p : Place τ} (before : (s.place t).gives = none) (after : p.gives = none) :
    (s.goto t p).popped = s.popped := by
  unfold popped
  rw [goto_mu]
  cases s.mu with
  | none => rfl
  | some c =>
    show ((s.goto t p).place c).gives = (s.place c).gives
    rw [goto_place]
    split
    · rename_i same
      rw [same, before, after]
    · rfl

/-- The step is not one of a signaller. -/
@[simp] def Label.passive : Label τ → Bool
  | .signal _ | .broadcast _ | .give _ => false
  | _ => true

theorem Step.popped_eq {s s' : Cond τ} {l : Label τ} (step : Step s l s') (passive : l.passive = true) :
    s'.popped = s.popped := by
  cases step with
  | lock | unlock => rfl
  | wait out => exact popped_goto (by simp [out]) rfl
  | @release t wait here => exact popped_goto (s := s) (t := t) (p := .taking wait) (by simp [here]) rfl
  | take here => exact popped_goto (by simp [here]) rfl
  | timeout here => exact popped_goto (by simp [here]) rfl
  | @relock t n here => exact popped_goto (s := s) (t := t) (p := .outside) (by simp [here]) rfl
  | signal | broadcast | give => cases passive

/-- Only the task that takes a step moves. -/
theorem Step.others {s s' : Cond τ} {l : Label τ} {u : τ} (step : Step s l s') (other : u ≠ l.task) :
    s'.place u = s.place u := by
  cases step with
  | signal | broadcast =>
    unfold front
    split <;> simp_all
  | give =>
    unfold Cond.given front
    split
    · split <;> simp_all
    · simp_all
  | _ => simp_all

/-- While a task holds the locker, the others leave both mutexes and the queue alone. -/
theorem Step.held {s s' : Cond τ} {l : Label τ} {c : τ} (step : Step s l s') (h : Disciplined s)
    (holds : s.locker = some c) (other : l.task ≠ c) :
    s'.locker = some c ∧ s'.mu = s.mu ∧ s'.tasks = s.tasks := by
  cases step with
  | give here =>
    have mine := (h.giving _ _ _ here).1
    rw [holds] at mine
    exact absurd (Option.some.inj mine).symm other
  | release here =>
    have mine := h.unlocking _ _ here
    rw [holds] at mine
    exact absurd (Option.some.inj mine).symm other
  | _ => simp_all

/-- `c` is in the loop of `broadcast`, or has just left it. -/
def Turn (c : τ) (s : Cond τ) : Prop :=
  (∃ t, s.place c = .giving t true) ∨ s.place c = .outside ∧ s.mu = none ∧ s.tasks = []

omit [DecidableEq τ] in
theorem Turn.present {s : Cond τ} {c : τ} (h : Turn c s) : (s.place c).away = false := by
  rcases h with ⟨t, here⟩ | ⟨out, _⟩
  · rw [here]; rfl
  · rw [out]; rfl

theorem front_turn {s : Cond τ} {c : τ} (out : s.place c = .outside) (free : s.mu = none) :
    (s.front c true).locker = s.locker ∧ Turn c (s.front c true) := by
  cases queue : s.tasks with
  | nil =>
    rw [front_nil queue out free]
    exact ⟨rfl, Or.inr ⟨out, free, queue⟩⟩
  | cons t rest =>
    rw [front_cons queue]
    exact ⟨rfl, Or.inl ⟨t, by simp⟩⟩

theorem Step.broadcast_turn {s s' : Cond τ} {c : τ} (step : Step s (.broadcast c) s') :
    s'.locker = some c ∧ Turn c s' := by
  cases step with
  | broadcast out holds free =>
    rw [← holds]
    exact front_turn out free

theorem Step.give_turn {s s' : Cond τ} {c u : τ} (step : Step s (.give c) s') (here : s.place c = .giving u true) :
    s'.locker = s.locker ∧ Turn c s' := by
  cases step with
  | give here' =>
    rw [here] at here'
    cases here'
    rw [given_eq, if_pos rfl]
    exact front_turn (s := (s.notifyGive u).leave c) (by simp) rfl

/-- The other steps leave `mu_` and the queue alone. -/
theorem Step.quiet {s s' : Cond τ} {l : Label τ} (step : Step s l s') (passive : l.passive = true)
    (sleeps : ∀ t wait, l ≠ .wait t wait) : s'.mu = s.mu ∧ s'.tasks = s.tasks := by
  cases step with
  | wait => exact absurd rfl (sleeps _ _)
  | signal | broadcast | give => cases passive
  | _ => exact ⟨rfl, rfl⟩

/-- A signal has found the task, or one still can: its entry is queued or popped, or
it is notified. -/
def Listed (s : Cond τ) (t : τ) : Prop := s.count t ≠ 0 ∨ t ∈ s.tasks ∨ s.popped = some t

theorem Listed.front {s : Cond τ} {c t : τ} {all : Bool} (h : Listed s t) (out : s.place c = .outside)
    (free : s.mu = none) : Listed (s.front c all) t := by
  cases queue : s.tasks with
  | nil => rwa [front_nil queue out free]
  | cons u rest =>
    have idle : s.popped = none := by simp [popped, free]
    have popped : (s.front c all).popped = some u := by simp [front_cons queue, popped]
    rw [front_cons queue] at popped ⊢
    unfold Listed at h ⊢
    grind -ring -linarith

theorem Listed.gave {s : Cond τ} {c t u : τ} {all : Bool} (h : Listed s t) (mine : s.mu = some c)
    (here : s.place c = .giving u all) : Listed ((s.notifyGive u).leave c) t := by
  have popped : s.popped = some u := by simp [popped, mine, here]
  unfold Listed at h ⊢
  grind -ring -linarith

/-- **A listed task stays listed** until it takes its notification. -/
theorem Listed.step {s s' : Cond τ} {l : Label τ} {t : τ} (h : Listed s t) (disciplined : Disciplined s)
    (step : Step s l s') (keeps : l ≠ .take t) : Listed s' t := by
  have same := step.popped_eq
  cases step with
  | signal out holds free => exact h.front out free
  | broadcast out holds free => exact h.front out free
  | @give c u all here =>
    have gave := h.gave (disciplined.giving _ _ _ here).2 here
    rw [given_eq]
    split
    · exact gave.front (by simp) rfl
    · exact gave
  | _ =>
    specialize same rfl
    unfold Listed at h ⊢
    grind -ring -linarith

/-- **Who waits is listed.** -/
def Queued (s : Cond τ) : Prop := ∀ t, (s.place t).waits = true → Listed s t

omit [DecidableEq τ] in
theorem Queued.new (count : τ → Nat) : Queued (Cond.new count) := by
  intro t waits
  cases waits

/-- A task starts to wait by appending itself. -/
theorem Step.starts {s s' : Cond τ} {l : Label τ} {t : τ} (step : Step s l s')
    (before : (s.place t).waits = false) (after : (s'.place t).waits = true) : t ∈ s'.tasks := by
  by_cases mine : t = l.task
  · subst mine
    cases step with
    | signal out | broadcast out =>
      unfold Cond.front at after
      split at after <;> simp_all
    | give =>
      unfold Cond.given Cond.front at after
      split at after
      · split at after <;> simp_all
      · simp_all
    | take here some =>
      rw [Label.task, goto_place, if_pos rfl] at after
      grind -ring -linarith
    | _ => simp_all
  · rw [step.others mine, before] at after
    cases after

theorem Queued.step {s s' : Cond τ} {l : Label τ} (h : Queued s) (disciplined : Disciplined s)
    (step : Step s l s') : Queued s' := by
  intro t waits
  by_cases before : (s.place t).waits = true
  · apply (h t before).step disciplined step
    rintro rfl
    cases step with
    | take here some =>
      rw [goto_place, if_pos rfl] at waits
      grind -ring -linarith
  · exact Or.inr (Or.inl (step.starts (Bool.of_not_eq_true before) waits))

/-- Every run keeps the discipline and lists who waits. -/
theorem disciplined_of_run {count : τ → Nat} {tr : List (Label τ)} {s : Cond τ} (h : Run Step (new count) tr s) :
    Disciplined s ∧ Queued s :=
  h.preserves (fun _ => True) (fun s => Disciplined s ∧ Queued s) ⟨.new _, .new _⟩
    (fun _ _ _ ⟨disciplined, queued⟩ _ step => ⟨disciplined.step step, queued.step disciplined step⟩) (by simp)

end Cond

end OcsComponents.Core
