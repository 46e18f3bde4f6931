import OcsComponents.Core.Cond
import OcsComponents.Core.Future

/-!
# Waiting for a future

`Future::wait` and `Future::notify` by any number of tasks. The future's mutex is the
locker of its condition variable, so that every step is a step of the condition variable
under its discipline or none at all. A task that waits has looked at `code_` under the
mutex and is listed before it lets the mutex go; `notify` stores `code_` under the
mutex and empties the queue, so it finds every task that has seen no code. Entries and
notifications that an earlier wait left behind only wake a task once more, and
it looks again.
-/

namespace OcsComponents.Core
open Status Transition

/-- What a task does with the future. -/
inductive Doing where
  | idle
  /-- In the loop of `wait`. -/
  | waiting (wait : TickType)
  /-- `wait`: `cond_.wait` has returned `Error`. -/
  | failed
  /-- `notify`: before the code is stored. -/
  | notifying (code : StatusCode)
  /-- `notify`: the code is stored. -/
  | notified
  /-- `code`. -/
  | reading
  deriving DecidableEq, Repr

namespace Doing

/-- Calls whose next action may be to lock. -/
@[simp, grind] def locks : Doing → Bool
  | .waiting _ | .notifying _ | .reading => true
  | .idle | .failed | .notified => false

@[simp, grind] def waits : Doing → Bool
  | .waiting _ => true
  | _ => false

end Doing

/-- A future and the tasks that use it. -/
structure FutureTasks (τ : Type) where
  future : Future
  cond : Cond τ
  doing : τ → Doing

namespace FutureTasks
variable {τ : Type}

/-- The tasks may have been notified before, by other code. -/
def new (count : τ → Nat) : FutureTasks τ := ⟨.new, .new count, fun _ => .idle⟩

inductive Label (τ : Type) where
  | call (t : τ) (wait : TickType)
  | notify (t : τ) (code : StatusCode)
  | code (t : τ)
  | lock (t : τ)
  /-- `code_` is `Last`: `cond_.wait` appends the task. -/
  | sleep (t : τ)
  /-- `code_` is not `Last`: `wait` returns `OK`. -/
  | ready (t : τ)
  /-- `wait` returns `Error`. -/
  | fail (t : τ)
  /-- The code is stored, and the broadcast begins. -/
  | store (t : τ) (code : StatusCode)
  /-- `notify` returns. -/
  | done (t : τ)
  /-- `code` returns. -/
  | told (t : τ) (code : StatusCode)
  /-- A step inside `cond_`. -/
  | cond (l : Cond.Label τ)
  deriving DecidableEq, Repr

/-- The task that takes the step. -/
@[simp] def Label.task : Label τ → τ
  | .call t _ | .notify t _ | .code t | .lock t | .sleep t | .ready t | .fail t | .store t _ | .done t | .told t _ => t
  | .cond l => l.task

/-- The steps inside `cond_.wait` and `cond_.broadcast`, but for the last of `cond_.wait`. -/
@[simp] def inside : Cond.Label τ → Bool
  | .release _ | .take _ | .timeout _ | .give _ => true
  | _ => false

variable [DecidableEq τ]

/-- Task `t` goes on to `d`. -/
def does (s : FutureTasks τ) (t : τ) (d : Doing) : FutureTasks τ := { s with doing := Function.update s.doing t d }

@[simp, grind =] theorem does_doing (s : FutureTasks τ) (t u : τ) (d : Doing) :
    (s.does t d).doing u = if u = t then d else s.doing u := by
  simp [does, Function.update_apply]

@[simp, grind =] theorem does_cond (s : FutureTasks τ) (t : τ) (d : Doing) : (s.does t d).cond = s.cond := rfl
@[simp, grind =] theorem does_future (s : FutureTasks τ) (t : τ) (d : Doing) : (s.does t d).future = s.future := rfl

inductive Step : FutureTasks τ → Label τ → FutureTasks τ → Prop
  | call {s t wait} (idle : s.doing t = .idle) : Step s (.call t wait) (s.does t (.waiting wait))
  | notify {s t code} (idle : s.doing t = .idle) : Step s (.notify t code) (s.does t (.notifying code))
  | code {s t} (idle : s.doing t = .idle) : Step s (.code t) (s.does t .reading)
  | lock {s t c} (starts : (s.doing t).locks = true) (locks : Cond.Step s.cond (.lock t) c) :
      Step s (.lock t) { s with cond := c }
  | sleep {s t wait c} (waits : s.doing t = .waiting wait) (unset : s.future.poll = none)
      (appends : Cond.Step s.cond (.wait t wait) c) : Step s (.sleep t) { s with cond := c }
  | ready {s t wait c} (waits : s.doing t = .waiting wait) (set : s.future.poll = some .ok)
      (unlocks : Cond.Step s.cond (.unlock t) c) : Step s (.ready t) { s.does t .idle with cond := c }
  | inner {s l c} (inside : inside l = true) (moves : Cond.Step s.cond l c) : Step s (.cond l) { s with cond := c }
  | woken {s t n c} (here : s.cond.place t = .relocking n) (notified : n ≠ 0)
      (locks : Cond.Step s.cond (.relock t) c) : Step s (.cond (.relock t)) { s with cond := c }
  | lapsed {s t c} (here : s.cond.place t = .relocking 0) (locks : Cond.Step s.cond (.relock t) c) :
      Step s (.cond (.relock t)) { s.does t .failed with cond := c }
  | fail {s t c} (failed : s.doing t = .failed) (unlocks : Cond.Step s.cond (.unlock t) c) :
      Step s (.fail t) { s.does t .idle with cond := c }
  | store {s t code c} (notifies : s.doing t = .notifying code) (broadcasts : Cond.Step s.cond (.broadcast t) c) :
      Step s (.store t code) { s.does t .notified with future := s.future.notify code, cond := c }
  | done {s t c} (notified : s.doing t = .notified) (unlocks : Cond.Step s.cond (.unlock t) c) :
      Step s (.done t) { s.does t .idle with cond := c }
  | told {s t c} (reads : s.doing t = .reading) (unlocks : Cond.Step s.cond (.unlock t) c) :
      Step s (.told t s.future.code) { s.does t .idle with cond := c }

/-- The step of a label, where there is one. -/
def exec (s : FutureTasks τ) : Label τ → Option (FutureTasks τ)
  | .call t wait => if s.doing t = .idle then some (s.does t (.waiting wait)) else none
  | .notify t code => if s.doing t = .idle then some (s.does t (.notifying code)) else none
  | .code t => if s.doing t = .idle then some (s.does t .reading) else none
  | .lock t => if (s.doing t).locks then (s.cond.exec (.lock t)).map ({ s with cond := · }) else none
  | .sleep t =>
    match s.doing t with
    | .waiting wait =>
      if s.future.poll = none then (s.cond.exec (.wait t wait)).map ({ s with cond := · }) else none
    | _ => none
  | .ready t =>
    if (s.doing t).waits ∧ s.future.poll = some .ok then
      (s.cond.exec (.unlock t)).map ({ s.does t .idle with cond := · })
    else none
  | .fail t => if s.doing t = .failed then (s.cond.exec (.unlock t)).map ({ s.does t .idle with cond := · }) else none
  | .store t code =>
    if s.doing t = .notifying code then
      (s.cond.exec (.broadcast t)).map ({ s.does t .notified with future := s.future.notify code, cond := · })
    else none
  | .done t =>
    if s.doing t = .notified then (s.cond.exec (.unlock t)).map ({ s.does t .idle with cond := · }) else none
  | .told t code =>
    if s.doing t = .reading ∧ code = s.future.code then
      (s.cond.exec (.unlock t)).map ({ s.does t .idle with cond := · })
    else none
  | .cond l =>
    match l with
    | .relock t =>
      match s.cond.place t with
      | .relocking n =>
        (s.cond.exec (.relock t)).map ({ if n = 0 then s.does t .failed else s with cond := · })
      | _ => none
    | l => if inside l then (s.cond.exec l).map ({ s with cond := · }) else none

theorem exec_sound {s s' : FutureTasks τ} {l : Label τ} (h : exec s l = some s') : Step s l s' := by
  cases l <;> simp only [exec] at h
  case call | notify | code =>
    split at h <;> cases h
    rename_i idle
    first | exact .call idle | exact .notify idle | exact .code idle
  case lock | fail | store | done =>
    split at h
    next ready =>
      obtain ⟨c, moves, rfl⟩ := Option.map_eq_some_iff.mp h
      have moves := Cond.exec_sound moves
      first | exact .lock ready moves | exact .fail ready moves | exact .store ready moves | exact .done ready moves
    next => cases h
  case sleep =>
    split at h
    next wait waits =>
      split at h
      next unset =>
        obtain ⟨c, moves, rfl⟩ := Option.map_eq_some_iff.mp h
        exact .sleep waits unset (Cond.exec_sound moves)
      next => cases h
    next => cases h
  case ready t =>
    split at h
    next ready =>
      obtain ⟨c, moves, rfl⟩ := Option.map_eq_some_iff.mp h
      cases doing : s.doing t with
      | waiting wait => exact .ready doing ready.2 (Cond.exec_sound moves)
      | _ => rw [doing] at ready; cases ready.1
    next => cases h
  case told =>
    split at h
    next ready =>
      obtain ⟨c, moves, rfl⟩ := Option.map_eq_some_iff.mp h
      rw [ready.2]
      exact .told ready.1 (Cond.exec_sound moves)
    next => cases h
  case cond l =>
    split at h
    next t =>
      split at h
      next n here =>
        obtain ⟨c, moves, rfl⟩ := Option.map_eq_some_iff.mp h
        have moves := Cond.exec_sound moves
        split
        next zero =>
          rw [zero] at here
          exact .lapsed here moves
        next notified => exact .woken here notified moves
      next => cases h
    next =>
      split at h
      next inside =>
        obtain ⟨c, moves, rfl⟩ := Option.map_eq_some_iff.mp h
        exact .inner inside (Cond.exec_sound moves)
      next => cases h

/-- **The future keeps the discipline** of its condition variable: each step is one of
the condition variable, or leaves it alone. -/
theorem Step.cond_step {s s' : FutureTasks τ} {l : Label τ} (step : Step s l s') :
    s'.cond = s.cond ∨ ∃ l', Cond.Step s.cond l' s'.cond := by
  cases step with
  | call | notify | code => exact Or.inl rfl
  | lock _ moves | sleep _ _ moves | ready _ _ moves | inner _ moves | woken _ _ moves | lapsed _ moves
  | fail _ moves | store _ moves | done _ moves | told _ moves => exact Or.inr ⟨_, moves⟩

/-- Where a task is in `cond_`, by what it does. -/
structure Placed (s : FutureTasks τ) : Prop where
  inWait : ∀ t, (s.cond.place t).inWait = true → (s.doing t).waits = true
  giving : ∀ t u all, s.cond.place t = .giving u all → s.doing t = .notified ∧ all = true

theorem Placed.step {s s' : FutureTasks τ} {l : Label τ} (h : Placed s) (step : Step s l s') : Placed s' := by
  obtain ⟨inWait, giving⟩ := h
  cases step with
  | call idle | notify idle | code idle => constructor <;> grind -ring -linarith
  | lock _ moves | ready _ _ moves | woken _ _ moves | sleep _ _ moves | lapsed _ moves
  | fail _ moves | done _ moves | told _ moves =>
    cases moves
    constructor <;> grind -ring -linarith
  | @inner l c inside moves =>
    cases l with
    | give u =>
      have others : ∀ v, v = u ∨ c.place v = s.cond.place v := fun v => or_iff_not_imp_left.mpr moves.others
      have turn : Cond.Turn u c ∧ s.doing u = .notified := by
        cases moves with
        | give here =>
          obtain ⟨notified, rfl⟩ := giving _ _ _ here
          exact ⟨((Cond.Step.give here).give_turn here).2, notified⟩
      obtain ⟨⟨v, there⟩ | ⟨out, _⟩, notified⟩ := turn <;> constructor <;> grind -ring -linarith
    | release | take | timeout => cases moves; constructor <;> grind -ring -linarith
    | _ => cases inside
  | @store t code c notifies moves =>
    have others : ∀ u, u = t ∨ c.place u = s.cond.place u := fun u => or_iff_not_imp_left.mpr moves.others
    obtain ⟨_, ⟨v, there⟩ | ⟨out, _⟩⟩ := moves.broadcast_turn <;> constructor <;> grind -ring -linarith

omit [DecidableEq τ] in
/-- A task that does nothing with the future is not in `cond_`. -/
theorem Placed.outside {s : FutureTasks τ} {t : τ} (h : Placed s) (idle : s.doing t = .idle) :
    s.cond.place t = .outside := by
  cases here : s.cond.place t with
  | outside => rfl
  | giving u all =>
    have notified := (h.giving t u all here).1
    rw [idle] at notified
    cases notified
  | unlocking | taking | relocking =>
    have waits := h.inWait t (by simp [here])
    rw [idle] at waits
    cases waits

/-- A code is stored, and every task that had not seen one is notified. -/
structure Settled (s : FutureTasks τ) : Prop where
  set : s.future.code ≠ .last
  free : s.cond.mu = none
  drained : s.cond.tasks = []

/-- `notify` is called with codes other than `Last`. -/
def Real (l : Label τ) : Prop := ∀ t, l ≠ .notify t .last

omit [DecidableEq τ] in
theorem poll_none {s : FutureTasks τ} (unset : s.future.poll = none) : s.future.code = .last := by
  by_contra set
  simp [Future.poll, set] at unset

/-- What a run keeps, whatever the times and the entries that are left behind. -/
structure Sound (s : FutureTasks τ) : Prop where
  disciplined : s.cond.Disciplined
  queued : s.cond.Queued
  placed : Placed s
  failed : ∀ t, s.doing t = .failed → s.cond.place t = .outside ∧ s.cond.Listed t
  real : ∀ t code, s.doing t = .notifying code → code ≠ .last
  stored : ∀ t, s.doing t = .notified → s.future.code ≠ .last
  drained : s.future.code ≠ .last → s.cond.mu = none → s.cond.tasks = []
  holder : ∀ t, s.cond.locker = some t → s.doing t ≠ .idle ∧ (s.cond.place t).away = false

/-- A task whose `cond_.wait` has failed stays listed while the others go on. -/
theorem Sound.failed_kept {s : FutureTasks τ} {c : Cond τ} {l : Cond.Label τ} {t : τ} (h : Sound s)
    (moves : Cond.Step s.cond l c) (failed : s.doing t = .failed) (other : t ≠ l.task) :
    c.place t = .outside ∧ c.Listed t := by
  obtain ⟨out, listed⟩ := h.failed t failed
  refine ⟨(moves.others other).trans out, listed.step h.disciplined moves ?_⟩
  rintro rfl
  exact other rfl

theorem Sound.failed_step {s s' : FutureTasks τ} {l : Label τ} (h : Sound s) (step : Step s l s') (t : τ)
    (failed : s'.doing t = .failed) : s'.cond.place t = .outside ∧ s'.cond.Listed t := by
  have inWait := h.placed.inWait t
  have giving := h.placed.giving t
  cases step with
  | call | notify | code => exact h.failed t (by grind -ring -linarith)
  | @lapsed u c here moves =>
    rcases eq_or_ne t u with rfl | other
    · refine ⟨?_, (h.queued t (by simp [here])).step h.disciplined moves (by simp)⟩
      cases moves with
      | relock => simp
    · exact h.failed_kept moves (by grind -ring -linarith) other
  | @inner l c inside moves =>
    apply h.failed_kept moves failed
    rintro rfl
    cases moves <;> grind -ring -linarith [Cond.Label.task, FutureTasks.inside]
  | lock _ moves | ready _ _ moves | woken _ _ moves | sleep _ _ moves | fail _ moves | done _ moves | told _ moves
  | store _ moves =>
    apply h.failed_kept moves
    · grind -ring -linarith
    · rintro rfl
      grind -ring -linarith [Cond.Label.task]

omit [DecidableEq τ] in
/-- After the loop of `broadcast` the queue is empty. -/
theorem drained_of_turn {c : Cond τ} {t : τ} (h : c.Disciplined) (turn : Cond.Turn t c) (free : c.mu = none) :
    c.tasks = [] := by
  rcases turn with ⟨u, here⟩ | ⟨_, _, empty⟩
  · have held := (h.giving _ _ _ here).2
    rw [free] at held
    cases held
  · exact empty

theorem Sound.drained_step {s s' : FutureTasks τ} {l : Label τ} (h : Sound s) (disciplined : s'.cond.Disciplined)
    (step : Step s l s') (set : s'.future.code ≠ .last) (free : s'.cond.mu = none) : s'.cond.tasks = [] := by
  cases step with
  | call | notify | code => exact h.drained set free
  | sleep _ unset => exact absurd (poll_none unset) set
  | store _ moves => exact drained_of_turn disciplined moves.broadcast_turn.2 free
  | @inner l c inside moves =>
    cases l with
    | give u =>
      cases moves with
      | give here =>
        obtain ⟨_, rfl⟩ := h.placed.giving _ _ _ here
        exact drained_of_turn disciplined ((Cond.Step.give here).give_turn here).2 free
    | release | take | timeout =>
      obtain ⟨mu, tasks⟩ := moves.quiet rfl (by simp)
      exact tasks.trans (h.drained set (mu.symm.trans free))
    | _ => cases inside
  | lock _ moves | ready _ _ moves | woken _ _ moves | lapsed _ moves | fail _ moves | done _ moves | told _ moves =>
    obtain ⟨mu, tasks⟩ := moves.quiet rfl (by simp)
    exact tasks.trans (h.drained set (mu.symm.trans free))

/-- Who holds the mutex is in a call, and neither asleep nor waiting for the mutex. -/
theorem Sound.holder_step {s s' : FutureTasks τ} {l : Label τ} (h : Sound s) (step : Step s l s') (t : τ)
    (held : s'.cond.locker = some t) : s'.doing t ≠ .idle ∧ (s'.cond.place t).away = false := by
  have before := h.holder t
  have inWait := h.placed.inWait t
  cases step with
  | call | notify | code =>
    obtain ⟨busy, present⟩ := before held
    refine ⟨?_, present⟩
    grind -ring -linarith
  | lock _ moves | ready _ _ moves | woken _ _ moves | lapsed _ moves | sleep _ _ moves | fail _ moves | done _ moves
  | told _ moves => cases moves; grind -ring -linarith
  | @inner l c inside moves =>
    cases l with
    | release | take | timeout => cases moves; grind -ring -linarith
    | give u =>
      cases moves with
      | give here =>
        obtain ⟨_, rfl⟩ := h.placed.giving _ _ _ here
        obtain ⟨locker, turn⟩ := (Cond.Step.give here).give_turn here
        obtain ⟨busy, present⟩ := before (locker.symm.trans held)
        refine ⟨busy, ?_⟩
        rcases eq_or_ne t u with rfl | other
        · exact turn.present
        · exact (congrArg Place.away ((Cond.Step.give here).others other)).trans present
    | _ => cases inside
  | @store u code c notifies moves =>
    obtain ⟨locker, turn⟩ := moves.broadcast_turn
    obtain rfl : t = u := Option.some.inj (held.symm.trans locker)
    exact ⟨by simp, turn.present⟩

omit [DecidableEq τ] in
theorem Sound.new (count : τ → Nat) : Sound (FutureTasks.new count) where
  disciplined := .new _
  queued := .new _
  placed := ⟨fun _ inside => (by cases inside), fun _ _ _ here => (by cases here)⟩
  failed _ failed := by cases failed
  real _ _ notifies := by cases notifies
  stored _ notified := by cases notified
  drained _ _ := rfl
  holder _ held := by cases held

theorem Sound.step {s s' : FutureTasks τ} {l : Label τ} (h : Sound s) (real : Real l) (step : Step s l s') :
    Sound s' := by
  have disciplined : s'.cond.Disciplined := by
    rcases step.cond_step with same | ⟨l', moves⟩
    · rw [same]
      exact h.disciplined
    · exact h.disciplined.step moves
  have queued : s'.cond.Queued := by
    rcases step.cond_step with same | ⟨l', moves⟩
    · rw [same]
      exact h.queued
    · exact h.queued.step h.disciplined moves
  refine ⟨disciplined, queued, h.placed.step step, h.failed_step step, ?_, ?_, h.drained_step disciplined step,
    h.holder_step step⟩
  · intro t code notifies
    have before := h.real t code
    cases step <;> grind -ring -linarith [Real]
  · intro t notified
    have before := h.stored t
    cases step <;> grind -ring -linarith [Future.notify, Sound]

theorem Settled.step {s s' : FutureTasks τ} {l : Label τ} (h : Settled s) (sound : Sound s)
    (step : Step s l s') : Settled s' := by
  obtain ⟨set, free, drained⟩ := h
  cases step with
  | call | notify | code => exact ⟨set, free, drained⟩
  | sleep _ unset => exact absurd (poll_none unset) set
  | store notifies moves =>
    cases moves with
    | broadcast out holds _ =>
      -- nobody waits, so that the broadcast has nothing to do
      rw [Cond.front_nil drained out free]
      exact ⟨sound.real _ _ notifies, free, drained⟩
  | @inner l c inside moves =>
    cases l with
    | give u =>
      cases moves with
      | give here =>
        have held := (sound.disciplined.giving _ _ _ here).2
        rw [free] at held
        cases held
    | release | take | timeout =>
      obtain ⟨mu, tasks⟩ := moves.quiet rfl (by simp)
      exact ⟨set, mu.trans free, tasks.trans drained⟩
    | _ => cases inside
  | lock _ moves | ready _ _ moves | woken _ _ moves | lapsed _ moves | fail _ moves | done _ moves | told _ moves =>
    obtain ⟨mu, tasks⟩ := moves.quiet rfl (by simp)
    exact ⟨set, mu.trans free, tasks.trans drained⟩

/-- Inside `wait`. -/
def InWait (s : FutureTasks τ) (t : τ) : Prop := (s.doing t).waits = true ∨ s.doing t = .failed

/-- Before or behind the lock that comes before the next look at `code_`, which is set. -/
def Near (s : FutureTasks τ) (t : τ) : Prop :=
  (s.doing t).waits = true ∧ s.future.poll = some .ok ∧
    (s.cond.place t = .outside ∨ ∃ n, n ≠ 0 ∧ s.cond.place t = .relocking n)

/-- The task gets back from `wait`: with the mutex free by its next two steps, and another task
that holds the mutex gives it back by steps of its own. -/
structure Returns (s : FutureTasks τ) (t : τ) : Prop where
  free : s.cond.locker = none → ∃ l s', (l = .lock t ∨ l = .cond (.relock t)) ∧ Run Step s [l, .ready t] s'
  held : s.cond.locker = some t → ∃ s', Step s (.ready t) s'
  busy : ∀ u, s.cond.locker = some u → u ≠ t →
    ∃ tr s', Run Step s tr s' ∧ (∀ l ∈ tr, l.task = u) ∧ s'.cond.locker = none

/-- However the tasks go on, `wait` returns `OK` before the task sleeps again. -/
def Rechecks (s : FutureTasks τ) (t : τ) : Prop :=
  ∀ tr s', Run Step s tr s' → (∀ l ∈ tr, Real l) → .ready t ∉ tr → Near s' t ∧ Returns s' t

theorem Near.step {s s' : FutureTasks τ} {l : Label τ} {t : τ} (h : Near s t) (sound : Sound s) (settled : Settled s')
    (step : Step s l s') (stays : l ≠ .ready t) : Near s' t := by
  obtain ⟨waits, set, here⟩ := h
  have set' : s'.future.poll = some .ok := by simp [Future.poll, settled.set]
  refine ⟨?_, set', ?_⟩
  · cases step <;> grind -ring -linarith
  · cases step with
    | call | notify | code => exact here
    | sleep _ unset => rw [set] at unset; cases unset
    | @store u code c notifies moves =>
      have other : t ≠ u := by grind -ring -linarith
      rw [← moves.others other] at here
      exact here
    | lock _ moves | ready _ _ moves | woken _ _ moves | lapsed _ moves | fail _ moves | done _ moves | told _ moves =>
      cases moves
      grind -ring -linarith
    | @inner l c inside moves =>
      have placed := sound.placed.giving t
      have other : t ≠ l.task := by
        rintro rfl
        cases moves <;> grind -ring -linarith [Cond.Label.task, FutureTasks.inside]
      rw [← moves.others other] at here
      exact here

omit [DecidableEq τ] in
/-- With no broadcast under way, a task that does not wait is not in `cond_`. -/
theorem Settled.outside {s : FutureTasks τ} {u : τ} (h : Settled s) (sound : Sound s)
    (other : (s.doing u).waits = false) : s.cond.place u = .outside := by
  cases here : s.cond.place u with
  | outside => rfl
  | giving v all =>
    have held := (sound.disciplined.giving _ _ _ here).2
    rw [h.free] at held
    cases held
  | unlocking | taking | relocking =>
    have waits := sound.placed.inWait u (by simp [here])
    rw [other] at waits
    cases waits

/-- Whoever holds the mutex gives it back: each call ends with the mutex free, or goes to sleep. -/
theorem Settled.unlocks {s : FutureTasks τ} {u : τ} (h : Settled s) (sound : Sound s) (held : s.cond.locker = some u) :
    ∃ tr s', Run Step s tr s' ∧ (∀ l ∈ tr, l.task = u) ∧ s'.cond.locker = none := by
  obtain ⟨busy, present⟩ := sound.holder u held
  have out (other : (s.doing u).waits = false) := h.outside sound other
  cases doing : s.doing u with
  | idle => exact absurd doing busy
  | waiting wait =>
    cases here : s.cond.place u with
    | outside =>
      have set : s.future.poll = some .ok := by simp [Future.poll, h.set]
      exact ⟨_, _, Run.single (.ready doing set (.unlock here held)), by simp, rfl⟩
    | unlocking wait' => exact ⟨_, _, Run.single (.inner rfl (.release here)), by simp, rfl⟩
    | taking | relocking => rw [here] at present; cases present
    | giving v all =>
      have notified := (sound.placed.giving _ _ _ here).1
      rw [doing] at notified
      cases notified
  | failed => exact ⟨_, _, Run.single (.fail doing (.unlock (out (by simp [doing])) held)), by simp, rfl⟩
  | reading => exact ⟨_, _, Run.single (.told doing (.unlock (out (by simp [doing])) held)), by simp, rfl⟩
  | notified => exact ⟨_, _, Run.single (.done doing (.unlock (out (by simp [doing])) held)), by simp, rfl⟩
  | notifying code =>
    have here := out (by simp [doing])
    -- nobody is queued, so that the broadcast returns at once
    have stores := Step.store doing (.broadcast here held h.free)
    rw [Cond.front_nil h.drained here h.free] at stores
    exact ⟨_, _, (Run.single (.done (by simp) (.unlock here held))).cons stores, by simp, rfl⟩

theorem Near.returns {s : FutureTasks τ} {t : τ} (h : Near s t) (sound : Sound s) (settled : Settled s) :
    Returns s t := by
  obtain ⟨waits, set, here⟩ := h
  obtain ⟨wait, doing⟩ : ∃ wait, s.doing t = .waiting wait := by
    cases doing : s.doing t <;> simp_all
  refine ⟨fun free => ?_, fun held => ?_, fun u held _ => settled.unlocks sound held⟩
  · rcases here with out | ⟨n, notified, back⟩
    · have locks : Step s (.lock t) _ := .lock (by simp [doing]) (.lock out free)
      exact ⟨_, _, Or.inl rfl, (Run.single (.ready doing set (.unlock out rfl))).cons locks⟩
    · have woken : Step s (.cond (.relock t)) _ := .woken back notified (.relock back free)
      exact ⟨_, _, Or.inr rfl, (Run.single (.ready doing set (.unlock (by simp) rfl))).cons woken⟩
  · rcases here with out | ⟨n, _, back⟩
    · exact ⟨_, .ready doing set (.unlock out held)⟩
    · have present := (sound.holder t held).2
      rw [back] at present
      cases present

/-- `notify` returns when the broadcast is over. -/
theorem Sound.done_settled {s s' : FutureTasks τ} {t : τ} (h : Sound s) (step : Step s (.done t) s') : Settled s' := by
  cases step with
  | done notified moves =>
    have set := h.stored t notified
    cases moves with
    | unlock out holds =>
      have free : s.cond.mu = none := by
        cases held : s.cond.mu with
        | none => rfl
        | some c =>
          obtain ⟨u, all, here⟩ := h.disciplined.held c held
          have mine := (h.disciplined.giving _ _ _ here).1
          rw [holds] at mine
          cases mine
          rw [out] at here
          cases here
      exact ⟨set, free, h.drained set free⟩

/-- What the steps so far have done. -/
structure Histories (tr : List (Label τ)) (s : FutureTasks τ) : Prop where
  sound : Sound s
  settled : ∀ t, .done t ∈ tr → Settled s
  cause : s.future.code ≠ .last → ∃ t code, code ≠ .last ∧ .store t code ∈ tr

theorem Histories.of_run {count : τ → Nat} {tr : List (Label τ)} {s : FutureTasks τ} (h : Run Step (new count) tr s)
    (real : ∀ l ∈ tr, Real l) : Histories tr s := by
  refine h.invariant Real Histories ⟨.new _, fun _ none => (by cases none), fun set => absurd rfl set⟩ ?_ real
  rintro tr s l s' ⟨sound, settled, cause⟩ real step
  refine ⟨sound.step real step, ?_, ?_⟩
  · intro t returned
    rcases List.mem_append.mp returned with before | last
    · exact (settled t before).step sound step
    · rw [List.mem_singleton] at last
      subst last
      exact sound.done_settled step
  · intro set
    by_cases before : s.future.code = .last
    · cases step with
      | @store t code c notifies =>
        exact ⟨t, code, sound.real t code notifies, by simp⟩
      | _ => exact absurd before set
    · obtain ⟨t, code, real, stored⟩ := cause before
      exact ⟨t, code, real, List.mem_append_left _ stored⟩

/-- Near the next look, the task gets there without sleeping, and returns. -/
theorem Near.rechecks {s : FutureTasks τ} {t : τ} (h : Near s t) (sound : Sound s) (settled : Settled s) :
    Rechecks s t := by
  intro tr s' run real stays
  have last : Sound s' ∧ Settled s' ∧ Near s' t := by
    refine run.preserves (fun l => Real l ∧ l ≠ .ready t) (fun s => Sound s ∧ Settled s ∧ Near s t)
      ⟨sound, settled, h⟩ ?_ ?_
    · rintro s l s' ⟨sound, settled, near⟩ ⟨real, stays⟩ step
      have settled' := settled.step sound step
      exact ⟨sound.step real step, settled', near.step sound settled' step stays⟩
    · intro l member
      refine ⟨real l member, ?_⟩
      rintro rfl
      exact stays member
  obtain ⟨sound', settled', near⟩ := last
  exact ⟨near, near.returns sound' settled'⟩

/-- Once a code is stored and the queue is empty, who waits is notified or near its next look. -/
theorem Settled.awake {s : FutureTasks τ} {t : τ} (h : Settled s) (sound : Sound s) (inside : InWait s t) :
    s.cond.count t ≠ 0 ∨ Rechecks s t := by
  have notified (listed : s.cond.Listed t) : s.cond.count t ≠ 0 := by
    rcases listed with notified | queued | popped
    · exact notified
    · rw [h.drained] at queued
      cases queued
    · simp [Cond.popped, h.free] at popped
  have set : s.future.poll = some .ok := by simp [Future.poll, h.set]
  rcases inside with waits | failed
  · cases here : s.cond.place t with
    | outside => exact Or.inr (Near.rechecks ⟨waits, set, Or.inl here⟩ sound h)
    | unlocking | taking => exact Or.inl (notified (sound.queued t (by simp [here])))
    | relocking n =>
      cases n with
      | zero => exact Or.inl (notified (sound.queued t (by simp [here])))
      | succ n => exact Or.inr (Near.rechecks ⟨waits, set, Or.inr ⟨n + 1, by simp, here⟩⟩ sound h)
    | giving u all =>
      have notifies := (sound.placed.giving t u all here).1
      rw [notifies] at waits
      cases waits
  · exact Or.inl (notified (sound.failed t failed).2)

/-- **No lost wake-up.** When `notify` has returned, every task inside `wait` is notified
or will look at the code without sleeping, and so will every task that calls `wait` from then on, which
then returns `OK` as soon as it has the mutex; `wait` returns `OK` only when a code has been stored. -/
theorem future_wakes {count : τ → Nat} {tr : List (Label τ)} {s : FutureTasks τ} (h : Run Step (new count) tr s)
    (real : ∀ l ∈ tr, Real l) :
    ((∃ t, .done t ∈ tr) →
      (∀ t, InWait s t → s.cond.count t ≠ 0 ∨ Rechecks s t) ∧
        ∀ t wait s', Step s (.call t wait) s' → Rechecks s' t) ∧
      ∀ t s', Step s (.ready t) s' → ∃ u code, code ≠ .last ∧ .store u code ∈ tr := by
  obtain ⟨sound, settled, cause⟩ := Histories.of_run h real
  refine ⟨?_, ?_⟩
  · rintro ⟨u, returned⟩
    have settled := settled u returned
    refine ⟨fun t inside => settled.awake sound inside, ?_⟩
    intro t wait s' step
    have sound' := sound.step (fun _ => by simp) step
    have settled' := settled.step sound step
    apply Near.rechecks _ sound' settled'
    cases step with
    | call idle => exact ⟨by simp, by simp [Future.poll, settled.set], Or.inl (sound.placed.outside idle)⟩
  · intro t s' step
    cases step with
    | ready _ set _ =>
      apply cause
      intro unset
      simp [Future.poll, unset] at set

/-- Task 1 waits, runs out of time and waits again, so that it is queued twice when task 2 notifies. -/
def queuedTwice : List (Label Nat) :=
  [.call 1 10, .lock 1, .sleep 1, .cond (.release 1), .cond (.timeout 1), .cond (.relock 1), .fail 1,
    .call 1 portMaxDelay, .lock 1, .sleep 1, .cond (.release 1),
    .notify 2 .ok, .lock 2, .store 2 .ok, .cond (.give 2), .cond (.give 2), .done 2]

theorem future_wakes_queuedTwice :
    ∃ s : FutureTasks Nat, Run Step (new fun _ => 0) queuedTwice s ∧ InWait s 1 ∧ (∃ s', Step s (.call 3 0) s') ∧
      ((∃ t, .done t ∈ queuedTwice) →
        (∀ t, InWait s t → s.cond.count t ≠ 0 ∨ Rechecks s t) ∧
          ∀ t wait s', Step s (.call t wait) s' → Rechecks s' t) ∧
        ∀ t s', Step s (.ready t) s' → ∃ u code, code ≠ .last ∧ .store u code ∈ queuedTwice := by
  obtain ⟨s, run, waits, idle⟩ := Run.exists_of_exec exec exec_sound queuedTwice (new fun _ => 0)
    (fun s => (s.doing 1).waits = true ∧ s.doing 3 = .idle) (by decide)
  exact ⟨s, run, Or.inl waits, ⟨_, .call idle⟩, future_wakes run (by simp [queuedTwice, Real])⟩

end FutureTasks

end OcsComponents.Core
