import OcsComponents.Core.Cond

/-!
# Who is woken

A waiting task leaves `tasks_` only when a signaller pops it. As long as every wait starts with no
notification left over and runs out of time, if at all, only when it is popped, the queue is exact:
it holds the tasks that wait and are not notified, each once, and so `signal` wakes a sleeper
whenever there is one. A wait that runs out of time before returns with its entry still queued, and
the entry swallows a later signal. `broadcast` empties the queue, and wakes all in any case.
-/

namespace OcsComponents.Core
open Transition

namespace Cond
variable {τ : Type}

/-- The queue holds the tasks that wait and are not notified, each once. -/
structure Exact (s : Cond τ) : Prop where
  nodup : s.tasks.Nodup
  queued : ∀ t, t ∈ s.tasks ↔ s.Waits t ∧ s.popped ≠ some t

/-- Nothing that a wait needs is left behind by this step: a wait starts with no notification
pending for its task, and runs out of time only when a signaller has popped its entry. -/
def Punctual (s : Cond τ) : Label τ → Prop
  | .wait t _ => s.count t = 0
  | .timeout t => t ∉ s.tasks
  | _ => True

/-- What holds as long as the steps are punctual. -/
structure Served (s : Cond τ) : Prop where
  disciplined : Disciplined s
  exact : Exact s
  /-- A wait that has run out of time has no entry. -/
  lapsed : ∀ t, s.place t = .relocking 0 → t ∉ s.tasks

theorem Served.new (count : τ → Nat) : Served (Cond.new count) where
  disciplined := .new _
  exact := ⟨List.nodup_nil, fun t => by simp [Cond.new, Waits]⟩
  lapsed _ _ := List.not_mem_nil

/-- The head of the queue is asleep when a signaller holds the locker. -/
theorem Served.queued_blocked {s : Cond τ} {c t : τ} (h : Served s) (out : s.place c = .outside)
    (holds : s.locker = some c) (queued : t ∈ s.tasks) : s.Blocked t := by
  obtain ⟨⟨waits, unnotified⟩, _⟩ := (h.exact.queued t).mp queued
  refine ⟨?_, unnotified⟩
  cases here : s.place t with
  | unlocking wait =>
    have mine := h.disciplined.unlocking t wait here
    rw [holds] at mine
    cases mine
    rw [out] at here
    cases here
  | taking => rfl
  | relocking n =>
    rw [here] at waits
    cases n with
    | zero => exact absurd queued (h.lapsed t here)
    | succ => cases waits
  | outside => rw [here] at waits; cases waits
  | giving => rw [here] at waits; cases waits

variable [DecidableEq τ]

theorem Served.front {s : Cond τ} {c : τ} {all : Bool} (h : Served s) (out : s.place c = .outside)
    (holds : s.locker = some c) (free : s.mu = none) : Served (s.front c all) := by
  have disciplined : Disciplined (s.front c all) := h.disciplined.front out holds free
  cases queue : s.tasks with
  | nil => rwa [front_nil queue out free]
  | cons t rest =>
    have idle : s.popped = none := by simp [popped, free]
    have popped : (s.front c all).popped = some t := by simp [front_cons queue, popped]
    rw [front_cons queue] at disciplined popped ⊢
    obtain ⟨_, ⟨nodup, queued⟩, lapsed⟩ := h
    rw [queue, List.nodup_cons] at nodup
    refine ⟨disciplined, ⟨nodup.2, ?_⟩, ?_⟩ <;> grind -ring -linarith

theorem Served.gave {s : Cond τ} {c t : τ} {all : Bool} (h : Served s) (here : s.place c = .giving t all) :
    Served ((s.notifyGive t).leave c) := by
  have mine := (h.disciplined.giving _ _ _ here).2
  have popped : s.popped = some t := by simp [Cond.popped, mine, here]
  have disciplined := h.disciplined.gave here
  obtain ⟨_, ⟨nodup, queued⟩, lapsed⟩ := h
  refine ⟨disciplined, ⟨nodup, ?_⟩, by grind -ring -linarith⟩
  intro u
  rw [leave_tasks, notifyGive_tasks, queued, popped]
  by_cases is : u = t
  · subst is
    simp [Waits]
  · have same : ((s.notifyGive t).leave c).Waits u ↔ s.Waits u := by grind -ring -linarith
    rw [same]
    simp [Cond.popped, Ne.symm is]

theorem Served.step {s s' : Cond τ} {l : Label τ} (h : Served s) (punctual : Punctual s l) (step : Step s l s') :
    Served s' := by
  have disciplined := h.disciplined.step step
  have same := step.popped_eq
  cases step with
  | signal out holds free => exact h.front out holds free
  | broadcast out holds free => exact h.front out holds free
  | @give c t all here =>
    rw [given_eq]
    split
    · exact (h.gave here).front (by simp) (h.disciplined.giving _ _ _ here).1 rfl
    · exact h.gave here
  | wait out holds free =>
    specialize same rfl
    have idle : s.popped = none := by simp [popped, free]
    simp only [Punctual] at punctual
    obtain ⟨_, ⟨nodup, queued⟩, lapsed⟩ := h
    refine ⟨disciplined, ⟨?_, ?_⟩, ?_⟩ <;> grind -ring -linarith
  | _ =>
    specialize same rfl
    simp only [Punctual] at punctual
    obtain ⟨_, ⟨nodup, queued⟩, lapsed⟩ := h
    refine ⟨disciplined, ⟨?_, ?_⟩, ?_⟩ <;> grind -ring -linarith

theorem Served.of_run {count : τ → Nat} {tr : List (Label τ)} {s : Cond τ}
    (h : Run (fun s l s' => Step s l s' ∧ Punctual s l) (Cond.new count) tr s) : Served s :=
  h.preserves (fun _ => True) Served (.new count) (fun _ _ _ served _ step => served.step step.2 step.1)
    (fun _ _ => trivial)

/-- Every `signal` with a task asleep pops a task that is asleep. However the others go on, it
is asleep until it is notified or runs out of time, and when it is notified it is not. -/
def Wakes (s : Cond τ) : Prop :=
  ∀ c s₁, Step s (.signal c) s₁ → (∃ t, s.Blocked t) → ∃ t, s.Blocked t ∧
    ∀ tr s₂, Run Step s₁ tr s₂ → (∀ l ∈ tr, l.task ≠ c ∧ l ≠ .timeout t) →
      s₂.place c = .giving t false ∧ s₂.Blocked t ∧
        ∀ s₃, Step s₂ (.give c) s₃ → s₃.place c = .outside ∧ ¬ s₃.Blocked t

/-- Every `broadcast` returns, and whenever it has returned no task is asleep. -/
def WakesAll (s : Cond τ) : Prop :=
  ∀ c s₁, Step s (.broadcast c) s₁ →
    (∃ n s₂, Run Step s₁ (List.replicate n (.give c)) s₂ ∧ s₂.place c = .outside) ∧
      ∀ tr s₂, Run Step s₁ tr s₂ → (∀ l ∈ tr, l.task = c → l = .give c) → s₂.place c = .outside →
        ∀ t, ¬ s₂.Blocked t

/-- While a signaller holds `mu_`, a task that is asleep stays so unless it runs out of time. -/
theorem Step.blocked {s s' : Cond τ} {l : Label τ} {c t : τ} (step : Step s l s') (h : Disciplined s)
    (holds : s.mu = some c) (other : l.task ≠ c) (inTime : l ≠ .timeout t) (asleep : s.Blocked t) : s'.Blocked t := by
  cases step with
  | signal _ _ free | broadcast _ _ free => rw [free] at holds; cases holds
  | give here =>
    have mine := (h.giving _ _ _ here).2
    rw [holds] at mine
    exact absurd (Option.some.inj mine).symm other
  | _ => grind -ring -linarith

theorem Served.wakes {s : Cond τ} (h : Served s) : Wakes s := by
  rintro c s₁ first ⟨sleeper, asleep⟩
  have disciplined := h.disciplined.step first
  cases first with
  | signal out holds free =>
    have queued : sleeper ∈ s.tasks := (h.exact.queued sleeper).mpr ⟨asleep.waits, by simp [popped, free]⟩
    obtain ⟨t, rest, queue⟩ := List.exists_cons_of_ne_nil (List.ne_nil_of_mem queued)
    have blocked : s.Blocked t := h.queued_blocked out holds (by simp [queue])
    refine ⟨t, blocked, ?_⟩
    intro tr s₂ run others
    rw [front_cons queue] at disciplined run
    have popped : ({ s.goto c (.giving t false) with mu := some c, tasks := rest } : Cond τ).Blocked t := by
      have apart : t ≠ c := by rintro rfl; rw [Blocked, out] at blocked; cases blocked.1
      simpa [Blocked, apart] using blocked
    -- the popped task sleeps on and the signaller stays where it is
    have still : Disciplined s₂ ∧ s₂.place c = .giving t false ∧ s₂.Blocked t := by
      refine run.preserves (fun l => l.task ≠ c ∧ l ≠ .timeout t)
        (fun s => Disciplined s ∧ s.place c = .giving t false ∧ s.Blocked t) ⟨disciplined, by simp, popped⟩ ?_ others
      rintro s l s' ⟨disciplined, here, asleep⟩ ⟨other, inTime⟩ step
      exact ⟨disciplined.step step, by rw [step.others (Ne.symm other), here],
        step.blocked disciplined (disciplined.giving _ _ _ here).2 other inTime asleep⟩
    obtain ⟨_, here, asleep⟩ := still
    refine ⟨here, asleep, ?_⟩
    intro s₃ last
    cases last with
    | give here' =>
      rw [here] at here'
      cases here'
      rw [given_eq]
      simp [Blocked]

/-- A run of `broadcast` by `c`. -/
structure Broadcasting (c : τ) (s : Cond τ) : Prop where
  disciplined : Disciplined s
  queued : Queued s
  holds : s.locker = some c
  turn : Turn c s

theorem Broadcasting.step {s s' : Cond τ} {c : τ} {l : Label τ} (h : Broadcasting c s)
    (mine : l.task = c → l = .give c) (step : Step s l s') : Broadcasting c s' := by
  have turn : s'.locker = some c ∧ Turn c s' := by
    by_cases task : l.task = c
    · rw [mine task] at step
      rcases h.turn with ⟨t, here⟩ | ⟨out, _⟩
      · obtain ⟨locker, turn⟩ := step.give_turn here
        exact ⟨by rw [locker, h.holds], turn⟩
      · cases step with
        | give here =>
          rw [out] at here
          cases here
    · obtain ⟨locker, mu, tasks⟩ := step.held h.disciplined h.holds task
      refine ⟨locker, ?_⟩
      unfold Turn
      rw [step.others (Ne.symm task), mu, tasks]
      exact h.turn
  exact ⟨h.disciplined.step step, h.queued.step h.disciplined step, turn.1, turn.2⟩

/-- The loop of `broadcast` pops the whole queue. -/
theorem Broadcasting.returns {s : Cond τ} {c : τ} (h : Broadcasting c s) :
    ∃ n s₂, Run Step s (List.replicate n (.give c)) s₂ ∧ s₂.place c = .outside := by
  generalize queue : s.tasks = ts
  induction ts generalizing s with
  | nil =>
    rcases h.turn with ⟨t, here⟩ | ⟨out, _⟩
    · refine ⟨1, _, Run.single (.give here), ?_⟩
      have left : ((s.notifyGive t).leave c).tasks = [] := queue
      rw [given_eq, if_pos rfl, front_nil left (by simp) rfl]
      simp
    · exact ⟨0, s, .start, out⟩
  | cons u rest ih =>
    rcases h.turn with ⟨t, here⟩ | ⟨_, _, empty⟩
    · have left : ((s.notifyGive t).leave c).tasks = u :: rest := queue
      have next : (s.given c t true).tasks = rest := by
        rw [given_eq, if_pos rfl, front_cons left]
      obtain ⟨n, s₂, run, out⟩ := ih (h.step (fun _ => rfl) (.give here)) next
      exact ⟨n + 1, s₂, run.cons (.give here), out⟩
    · rw [empty] at queue
      cases queue

omit [DecidableEq τ] in
/-- When `broadcast` has returned nobody is asleep. -/
theorem Broadcasting.nobody_blocked {s : Cond τ} {c : τ} (h : Broadcasting c s) (out : s.place c = .outside) (t : τ) :
    ¬ s.Blocked t := by
  intro asleep
  rcases h.turn with ⟨t, here⟩ | ⟨_, free, empty⟩
  · rw [out] at here
    cases here
  · rcases h.queued t asleep.waits.1 with notified | queued | popped
    · exact notified asleep.2
    · rw [empty] at queued
      cases queued
    · simp [Cond.popped, free] at popped

theorem wakesAll {s : Cond τ} (disciplined : Disciplined s) (queued : Queued s) : WakesAll s := by
  intro c s₁ first
  obtain ⟨locker, turn⟩ := first.broadcast_turn
  have begun : Broadcasting c s₁ := ⟨disciplined.step first, queued.step disciplined first, locker, turn⟩
  refine ⟨begun.returns, ?_⟩
  intro tr s₂ run mine out
  have last : Broadcasting c s₂ := run.preserves (fun l => l.task = c → l = .give c) (Broadcasting c) begun
    (fun _ _ _ h ok step => h.step ok step) mine
  exact last.nobody_blocked out

/-- **Signals wake** as long as the steps are punctual, and `broadcast` wakes all in every run,
whatever was pending before it and whoever ran out of time. -/
theorem signals_wake (count : τ → Nat) (tr : List (Label τ)) (s : Cond τ) :
    (Run Step (new count) tr s → WakesAll s) ∧
      (Run (fun s l s' => Step s l s' ∧ Punctual s l) (new count) tr s → Exact s ∧ Wakes s) := by
  constructor
  · intro h
    obtain ⟨disciplined, queued⟩ := disciplined_of_run h
    exact wakesAll disciplined queued
  · intro h
    have served := Served.of_run h
    exact ⟨served.exact, served.wakes⟩

instance (s : Cond τ) : (l : Label τ) → Decidable (Punctual s l)
  | .wait t _ => inferInstanceAs (Decidable (s.count t = 0))
  | .timeout t => inferInstanceAs (Decidable (t ∉ s.tasks))
  | .lock _ | .unlock _ | .release _ | .take _ | .relock _ | .signal _ | .broadcast _ | .give _ =>
    inferInstanceAs (Decidable True)

theorem exec_punctual {s s' : Cond τ} {l : Label τ} (h : (if Punctual s l then exec s l else none) = some s') :
    Step s l s' ∧ Punctual s l := by
  split at h
  · exact ⟨exec_sound h, ‹_›⟩
  · cases h

/-- Task 1 runs out of time between the pop and the notification of a signal, which is left over;
then a task sleeps, and another one holds the locker. -/
def resting : List (Label Nat) :=
  [.lock 1, .wait 1 10, .release 1, .lock 2, .signal 2, .timeout 1, .give 2, .unlock 2, .relock 1, .unlock 1,
    .lock 3, .wait 3 portMaxDelay, .release 3, .lock 2]

theorem signals_wake_resting :
    ∃ s : Cond Nat, Run Step (new fun _ => 0) resting s ∧ s.count 1 = 1 ∧ s.Blocked 3 ∧
      (∃ s', Step s (.signal 2) s') ∧ Exact s ∧ Wakes s ∧ WakesAll s := by
  obtain ⟨s, run, left, takes, unnotified, signals⟩ := Run.exists_of_exec
    (fun s l => if Punctual s l then exec s l else none) exec_punctual resting (new fun _ => 0)
    (fun s => s.count 1 = 1 ∧ (s.place 3).takes = true ∧ s.count 3 = 0 ∧ (exec s (.signal 2)).isSome = true) (by decide)
  obtain ⟨s', signalled⟩ := Option.isSome_iff_exists.mp signals
  have steps : Run Step (new fun _ => 0) resting s := run.mono And.left
  obtain ⟨all, punctual⟩ := signals_wake (fun _ => 0) resting s
  obtain ⟨exact, wakes⟩ := punctual run
  exact ⟨s, steps, left, ⟨takes, unnotified⟩, ⟨s', exec_sound signalled⟩, exact, wakes, all steps⟩

/-- Task 1 waits and runs out of time, task 2 waits without end, and task 3 is about to signal. -/
def lapsed : List (Label Nat) :=
  [.lock 1, .wait 1 10, .release 1, .timeout 1, .relock 1, .unlock 1,
    .lock 2, .wait 2 portMaxDelay, .release 2, .lock 3]

theorem lapsed_run :
    ∃ s : Cond Nat, Run Step (new fun _ => 0) lapsed s ∧ s.tasks = [1, 2] ∧ s.mu = none ∧ s.locker = some 3 ∧
      s.place 1 = .outside ∧ s.place 3 = .outside ∧ s.Blocked 2 := by
  obtain ⟨s, run, tasks, mu, locker, one, three, two⟩ := Run.exists_of_exec exec exec_sound lapsed (new fun _ => 0)
    (fun s => s.tasks = [1, 2] ∧ s.mu = none ∧ s.locker = some 3 ∧ s.place 1 = .outside ∧ s.place 3 = .outside ∧
      (s.place 2).takes = true ∧ s.count 2 = 0) (by decide)
  exact ⟨s, run, tasks, mu, locker, one, three, two⟩

/-- The signal goes to task 1, which waits no longer, and task 2 sleeps on. -/
theorem signal_swallowed :
    ∃ s : Cond Nat, Run Step (new fun _ => 0) lapsed s ∧ s.Blocked 2 ∧ ¬ Exact s ∧ ¬ Wakes s ∧
      ∃ s', Run Step s [.signal 3, .give 3] s' ∧ s'.place 3 = .outside ∧ ∀ t, s.Blocked t → s'.Blocked t := by
  obtain ⟨s, run, tasks, mu, locker, one, three, two⟩ := lapsed_run
  have signals : Step s (.signal 3) (s.front 3 false) := .signal three locker mu
  rw [front_cons tasks] at signals
  refine ⟨s, run, two, ?_, ?_, ?_⟩
  · intro exact
    obtain ⟨⟨waits, _⟩, _⟩ := (exact.queued 1).mp (by simp [tasks])
    rw [one] at waits
    cases waits
  · intro wakes
    obtain ⟨t, asleep, still⟩ := wakes _ _ signals ⟨2, two⟩
    obtain ⟨here, _⟩ := still [] _ .start (by simp)
    rw [goto_place, if_pos rfl] at here
    cases here
    have takes := asleep.1
    rw [one] at takes
    cases takes
  · have here : (s.goto 3 (.giving 1 false)).place 3 = .giving 1 false := by simp
    refine ⟨_, (Run.single (.give here)).cons signals, ?_, ?_⟩
    · rw [given_eq]
      simp
    · rintro t ⟨takes, unnotified⟩
      have notOne : t ≠ 1 := by rintro rfl; simp [one] at takes
      have notThree : t ≠ 3 := by rintro rfl; simp [three] at takes
      rw [given_eq]
      simp_all [Blocked]

end Cond

end OcsComponents.Core
