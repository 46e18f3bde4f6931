import OcsComponents.Core.AsyncFlag

/-!
# Whose signal a flag reports

A wait returns `OK` on any notification of its task. As long as every notification finds its task
in the wait it was taken for, a pending one is for the wait the task is in, and a wait for a flag
returns `OK` only after a signal on this flag. One that comes when that wait is over stays
pending, and the next wait takes it for its own.
-/

namespace OcsComponents.Core
open Transition

/-- Inside `wait`, before it has looked at the notification value. -/
@[simp] def Place.awaits {τ : Type} : Place τ → Bool
  | .unlocking _ | .taking _ => true
  | _ => false

/-! ## What a step of another object does to the notification values -/

section
variable {τ : Type} [DecidableEq τ]

namespace Cond

theorem front_count (s : Cond τ) (c t : τ) (all : Bool) : (s.front c all).count t = s.count t := by
  unfold front
  split
  · rfl
  · rfl

/-- A value becomes other than zero by a notification. -/
theorem Step.count_cause {s s' : Cond τ} {l : Label τ} {t : τ} (step : Step s l s') (some : s'.count t ≠ 0) :
    s.count t ≠ 0 ∨ ∃ u all, l = .give u ∧ s.place u = .giving t all := by
  cases step with
  | lock | unlock | wait | release | timeout | relock => exact Or.inl some
  | take here _ =>
    rw [goto_count, notifyTake_count] at some
    split at some
    · exact absurd rfl some
    · exact Or.inl some
  | signal | broadcast =>
    rw [front_count] at some
    exact Or.inl some
  | @give c t' all here =>
    by_cases same : t = t'
    · exact Or.inr ⟨c, all, rfl, same ▸ here⟩
    · refine Or.inl ?_
      rw [given_eq] at some
      split at some
      · rwa [front_count, leave_count, notifyGive_count, if_neg same] at some
      · rwa [leave_count, notifyGive_count, if_neg same] at some

/-- A task with a notification pending goes on to take it. -/
theorem Step.awaits_or_takes {s s' : Cond τ} {l : Label τ} {t : τ} (step : Step s l s')
    (awaits : (s.place t).awaits = true) (some : s.count t ≠ 0) : (s'.place t).awaits = true ∨ s'.count t = 0 := by
  by_cases mine : t = l.task
  · subst mine
    cases step with
    | release here => exact Or.inl (by simp)
    | take here _ => exact Or.inr (by simp)
    | timeout here none => exact absurd none some
    | lock out | unlock out | wait out | signal out | broadcast out => simp [out] at awaits
    | relock here | give here => simp [here] at awaits
  · rw [step.others mine]
    exact Or.inl awaits

end Cond

/-- A step of a future is one of its condition variable by the same task, or leaves it alone. -/
theorem FutureTasks.Step.moves {f f' : FutureTasks τ} {l : FutureTasks.Label τ} (step : FutureTasks.Step f l f') :
    f'.cond = f.cond ∨ ∃ l', Cond.Step f.cond l' f'.cond ∧ l'.task = (Waitable.Move.future l).task ∧
      ∀ u, l' = .give u → (Waitable.Move.future l).gives = true := by
  cases step with
  | call | notify | code => exact Or.inl rfl
  | lock _ moves | sleep _ _ moves | ready _ _ moves | woken _ _ moves | lapsed _ moves | fail _ moves
  | store _ moves | done _ moves | told _ moves => exact Or.inr ⟨_, moves, rfl, fun _ gives => by cases gives⟩
  | inner _ moves => exact Or.inr ⟨_, moves, rfl, by rintro u rfl; rfl⟩

theorem FutureTasks.Step.others {f f' : FutureTasks τ} {l : FutureTasks.Label τ} {u : τ} (step : FutureTasks.Step f l f')
    (other : u ≠ (Waitable.Move.future l).task) : f'.doing u = f.doing u := by
  cases step <;> simp_all

namespace Waitable

theorem Step.moves {w w' : Waitable τ} {m : Move τ} (step : Step w m w') :
    w'.inner = w.inner ∨ ∃ l, Cond.Step w.inner l w'.inner ∧ l.task = m.task ∧ ∀ u, l = .give u → m.gives = true := by
  cases step with
  | cond moves => exact Or.inr ⟨_, moves, rfl, by rintro u rfl; rfl⟩
  | future moves => exact moves.moves

theorem Step.others {w w' : Waitable τ} {m : Move τ} {t : τ} (step : Step w m w') (other : t ≠ m.task) :
    w'.inner.place t = w.inner.place t ∧ w'.busy t = w.busy t := by
  have place : w'.inner.place t = w.inner.place t := by
    rcases step.moves with same | ⟨l, moves, mine, _⟩
    · rw [same]
    · exact moves.others (by rwa [mine])
  refine ⟨place, ?_⟩
  cases step with
  | cond moves => simpa [busy] using congrArg (· != Place.outside) place
  | @future f f' l moves =>
    have doing : f'.doing t = f.doing t := moves.others other
    have inner : f'.cond.place t = f.cond.place t := place
    simp only [busy, doing, inner]

theorem Step.count_cause {w w' : Waitable τ} {m : Move τ} {t : τ} (step : Step w m w') (some : w'.inner.count t ≠ 0) :
    w.inner.count t ≠ 0 ∨ m.gives = true ∧ ∃ all, w.inner.place m.task = .giving t all := by
  rcases step.moves with same | ⟨l, moves, mine, gives⟩
  · rw [same] at some
    exact Or.inl some
  · rcases moves.count_cause some with before | ⟨u, all, rfl, here⟩
    · exact Or.inl before
    · exact Or.inr ⟨gives u rfl, all, mine ▸ here⟩

theorem Step.awaits_or_takes {w w' : Waitable τ} {m : Move τ} {t : τ} (step : Step w m w')
    (awaits : (w.inner.place t).awaits = true) (some : w.inner.count t ≠ 0) :
    (w'.inner.place t).awaits = true ∨ w'.inner.count t = 0 := by
  rcases step.moves with same | ⟨l, moves, _⟩
  · rw [same]
    exact Or.inl awaits
  · exact moves.awaits_or_takes awaits some

/-- A task before its take is in a call. -/
theorem busy_of_awaits {w : Waitable τ} {t : τ} (awaits : (w.inner.place t).awaits = true) : w.busy t = true := by
  have inside : w.inner.place t ≠ .outside := by
    intro out
    rw [out] at awaits
    cases awaits
  cases w with
  | cond c => simpa [busy] using inside
  | future f => simp [busy, show f.cond.place t ≠ .outside from inside]

omit [DecidableEq τ] in
@[simp] theorem withCount_place (w : Waitable τ) (count : τ → Nat) : (w.withCount count).inner.place = w.inner.place := by
  cases w <;> rfl

omit [DecidableEq τ] in
@[simp] theorem withCount_count (w : Waitable τ) (count : τ → Nat) : (w.withCount count).inner.count = count := by
  cases w <;> rfl

@[simp] theorem withCount_busy (w : Waitable τ) (count : τ → Nat) (t : τ) : (w.withCount count).busy t = w.busy t := by
  cases w <;> rfl

end Waitable

end

/-! ## The last wait of a task -/

namespace Tasks
variable {τ φ κ : Type}

/-- The task begins a wait for a flag. -/
def Begins (t : τ) (l : Label τ φ κ) : Prop := ∃ f wait, l = .wait t f wait

/-- The last wait the task has begun is for this flag. -/
def Registered (tr : List (Label τ φ κ)) (t : τ) (f : φ) : Prop :=
  ∃ a b wait, LastAt (Begins t) tr a (.wait t f wait) b

/-- The flag was signalled since. -/
def Signalled (tr : List (Label τ φ κ)) (t : τ) (f : φ) : Prop :=
  ∃ a b wait, LastAt (Begins t) tr a (.wait t f wait) b ∧ ∃ u, .signal u f ∈ b

section
variable {tr : List (Label τ φ κ)} {l : Label τ φ κ} {t : τ} {f : φ}

theorem not_begins (other : ∀ f wait, l ≠ .wait t f wait) : ¬ Begins t l := by
  rintro ⟨f, wait, same⟩
  exact other f wait same

theorem Registered.now (wait : TickType) : Registered (tr ++ [.wait t f wait]) t f :=
  ⟨tr, [], wait, .now ⟨f, wait, rfl⟩⟩

theorem Registered.concat (h : Registered tr t f) (other : ¬ Begins t l) : Registered (tr ++ [l]) t f := by
  obtain ⟨a, b, wait, last⟩ := h
  exact ⟨a, _, wait, last.concat other⟩

theorem Signalled.concat (h : Signalled tr t f) (other : ¬ Begins t l) : Signalled (tr ++ [l]) t f := by
  obtain ⟨a, b, wait, last, u, signal⟩ := h
  exact ⟨a, _, wait, last.concat other, u, List.mem_append_left _ signal⟩

/-- A signal on the flag the task waits for. -/
theorem Registered.signalled (h : Registered tr t f) (u : τ) : Signalled (tr ++ [.signal u f]) t f := by
  obtain ⟨a, b, wait, last⟩ := h
  exact ⟨a, _, wait, last.concat (not_begins nofun), u, by simp⟩

end

/-! ## The invariant -/

/-- A notification finds its task in the wait it was taken for, before the wait has looked at the value. -/
def Timely (s : Tasks τ φ κ) : Label τ φ κ → Prop
  | .give u => ∀ h, s.call u = .giving h → (∃ f wait, s.call h.task = .waiting f wait) ∧ s.waits h.task = h.wait
  | .other k m => m.gives = true → ∀ t all, (s.objects k).inner.place m.task = .giving t all →
      ((s.objects k).inner.place t).awaits = true
  | _ => True

/-- A notification of the task would be for the wait it is in. -/
def Awaited (tr : List (Label τ φ κ)) (s : Tasks τ φ κ) (t : τ) : Prop :=
  (∃ f wait, s.call t = .waiting f wait ∧ Signalled tr t f) ∨
    ∃ k, s.call t = .inside k ∧ ((s.objects k).inner.place t).awaits = true

variable [DecidableEq τ]

/-- What a run of timely steps keeps. -/
structure Trusted (tr : List (Label τ φ κ)) (s : Tasks τ φ κ) : Prop where
  busy : ∀ k t, (s.objects k).busy t = true → s.call t = .inside k
  registered : ∀ t f wait, s.call t = .waiting f wait → Registered tr t f
  /-- The handle of the wait a task is in is in the flag it waits for. -/
  stored : ∀ f h, s.flags f = some h → h.wait ≤ s.waits h.task ∧
    ∀ f' wait, s.call h.task = .waiting f' wait → s.waits h.task = h.wait → f' = f
  /-- Who has taken it has signalled this flag. -/
  taken : ∀ u h, s.call u = .giving h → h.wait ≤ s.waits h.task ∧
    ∀ f wait, s.call h.task = .waiting f wait → s.waits h.task = h.wait → Signalled tr h.task f
  pending : ∀ t, s.count t ≠ 0 → Awaited tr s t

theorem Trusted.new (isFuture : κ → Bool) : Trusted [] (.new isFuture : Tasks τ φ κ) where
  busy k t busy := by
    simp only [Tasks.new] at busy
    split at busy
    · simp [Waitable.busy, FutureTasks.new, Cond.new] at busy
    · simp [Waitable.busy, Cond.new] at busy
  registered _ _ _ here := by cases here
  stored _ _ found := by cases found
  taken _ _ here := by cases here
  pending _ some := absurd rfl some

@[simp] theorem goto_call (s : Tasks τ φ κ) (t u : τ) (c : Call τ φ κ) :
    (s.goto t c).call u = if u = t then c else s.call u := by
  simp [goto, Function.update_apply]

section
variable {tr : List (Label τ φ κ)} {l : Label τ φ κ} {s : Tasks τ φ κ} {t u : τ}

/-- A task that is in no call of an object has nothing pending unless it waits for a flag. -/
theorem Trusted.unnotified (h : Trusted tr s) (out : ∀ k, s.call t ≠ .inside k)
    (waits : ∀ f wait, s.call t ≠ .waiting f wait) : s.count t = 0 := by
  by_contra some
  rcases h.pending t some with ⟨f, wait, here, _⟩ | ⟨k, here, _⟩
  · exact waits f wait here
  · exact out k here

omit [DecidableEq τ] in
theorem Awaited.kept {s' : Tasks τ φ κ} (h : Awaited tr s u) (quiet : ¬ Begins u l) (call : s'.call u = s.call u)
    (place : ∀ k, (s'.objects k).inner.place u = (s.objects k).inner.place u) : Awaited (tr ++ [l]) s' u := by
  rcases h with ⟨f, wait, here, signalled⟩ | ⟨k, here, awaits⟩
  · exact Or.inl ⟨f, wait, call.trans here, signalled.concat quiet⟩
  · exact Or.inr ⟨k, call.trans here, by rwa [place]⟩

/-- A task ends its call of a flag, with nothing pending. -/
theorem Trusted.leave {count : τ → Nat} (h : Trusted tr s) (quiet : ∀ u, ¬ Begins u l) (out : ∀ k, s.call t ≠ .inside k)
    (zero : count t = 0) (cause : ∀ u, count u ≠ 0 → Awaited tr s u) :
    Trusted (tr ++ [l]) ({ s with count }.goto t .none) := by
  constructor
  · intro k u busy
    have inside := h.busy k u busy
    have other : u ≠ t := by
      rintro rfl
      exact out k inside
    rw [goto_call, if_neg other]
    exact inside
  · intro u f wait here
    rw [goto_call] at here
    split at here
    · cases here
    · exact (h.registered u f wait here).concat (quiet u)
  · intro f x found
    refine ⟨(h.stored f x found).1, fun f' wait here => ?_⟩
    rw [goto_call] at here
    split at here
    · cases here
    · exact (h.stored f x found).2 f' wait here
  · intro u x here
    rw [goto_call] at here
    split at here
    · cases here
    · refine ⟨(h.taken u x here).1, fun f wait waits same => ?_⟩
      rw [goto_call] at waits
      split at waits
      · cases waits
      · exact ((h.taken u x here).2 f wait waits same).concat (quiet _)
  · intro u some
    have other : u ≠ t := by
      rintro rfl
      exact some zero
    exact (cause u some).kept (quiet u) (by rw [goto_call, if_neg other]) fun _ => rfl

theorem Trusted.take {f : φ} {wait : TickType} (h : Trusted tr s) (here : s.call t = .waiting f wait) :
    Trusted (tr ++ [.take t]) ((s.setCount t 0).goto t .none) := by
  apply h.leave
  · exact fun u => not_begins nofun
  · simp [here]
  · exact Function.update_self ..
  · intro u some
    apply h.pending u
    rw [Function.update_apply] at some
    split at some
    · exact absurd rfl some
    · exact some

theorem Trusted.timeout {f : φ} {wait : TickType} (h : Trusted tr s) (here : s.call t = .waiting f wait)
    (none : s.count t = 0) : Trusted (tr ++ [.timeout t]) (s.goto t .none) := by
  apply h.leave
  · exact fun u => not_begins nofun
  · simp [here]
  · exact none
  · exact h.pending

theorem Trusted.give {x : Handle τ} (h : Trusted tr s) (here : s.call u = .giving x) (timely : Timely s (.give u)) :
    Trusted (tr ++ [.give u]) ((s.setCount x.task (s.count x.task + 1)).goto u .none) := by
  obtain ⟨⟨f, wait, waits⟩, same⟩ := timely x here
  have other : u ≠ x.task := by
    rintro rfl
    rw [here] at waits
    cases waits
  apply h.leave
  · exact fun u => not_begins nofun
  · simp [here]
  · rw [Function.update_of_ne other]
    apply h.unnotified
    · simp [here]
    · simp [here]
  · intro v some
    rw [Function.update_apply] at some
    split at some
    · next mine =>
      rw [mine]
      exact Or.inl ⟨f, wait, waits, (h.taken u x here).2 f wait waits same⟩
    · exact h.pending v some

/-- A task begins a call of a flag. -/
theorem Trusted.enter {s' : Tasks τ φ κ} {c : Call τ φ κ} (h : Trusted tr s) (out : s.call t = .none)
    (call : ∀ u, s'.call u = if u = t then c else s.call u) (objects : s'.objects = s.objects) (count : s'.count = s.count)
    (quiet : ∀ u, u ≠ t → ¬ Begins u l) :
    (∀ k u, (s'.objects k).busy u = true → s'.call u = .inside k) ∧ ∀ u, s'.count u ≠ 0 → Awaited (tr ++ [l]) s' u := by
  constructor
  · intro k u busy
    rw [objects] at busy
    have inside := h.busy k u busy
    have other : u ≠ t := by
      rintro rfl
      rw [out] at inside
      cases inside
    rw [call, if_neg other]
    exact inside
  · intro u some
    rw [count] at some
    have other : u ≠ t := by
      rintro rfl
      exact some (h.unnotified (by simp [out]) (by simp [out]))
    exact (h.pending u some).kept (quiet u other) (by rw [call, if_neg other]) fun k => by rw [objects]

variable [DecidableEq φ]

/-- A handle stored earlier is not the one of a wait that begins now. -/
theorem store_older (f : φ) {x : Handle τ} (bound : x.wait ≤ s.waits x.task) :
    x.wait ≤ (s.store t f).waits x.task ∧
      ((s.store t f).waits x.task = x.wait → x.task ≠ t ∧ s.waits x.task = x.wait) := by
  have waits : (s.store t f).waits x.task = if x.task = t then s.waits t + 1 else s.waits x.task :=
    Function.update_apply ..
  rw [waits]
  split
  · next same =>
    rw [same] at bound
    exact ⟨by omega, fun equal => by omega⟩
  · next other => exact ⟨bound, fun equal => ⟨other, equal⟩⟩

theorem Trusted.wait {f : φ} {wait : TickType} (h : Trusted tr s) (out : s.call t = .none) :
    Trusted (tr ++ [.wait t f wait]) ((s.store t f).goto t (.waiting f wait)) := by
  have quiet (u : τ) (other : u ≠ t) : ¬ Begins u (.wait t f wait : Label τ φ κ) := by
    apply not_begins
    rintro f' wait' same
    cases same
    exact other rfl
  obtain ⟨busy, pending⟩ := h.enter out (fun u => goto_call (s.store t f) t u (.waiting f wait)) rfl rfl quiet
  refine ⟨busy, ?_, ?_, ?_, pending⟩
  · intro u f' wait' here
    rw [goto_call] at here
    split at here
    · next same =>
      cases here
      exact same ▸ .now wait
    · next other => exact (h.registered u f' wait' here).concat (quiet u other)
  · intro f' x found
    replace found : Function.update s.flags f (some ⟨t, s.waits t + 1⟩) f' = some x := found
    rw [Function.update_apply] at found
    split at found
    · next same =>
      cases found
      refine ⟨Nat.le_of_eq (Function.update_self t (s.waits t + 1) s.waits).symm, fun f₂ wait₂ here _ => ?_⟩
      rw [goto_call, if_pos rfl] at here
      cases here
      exact same.symm
    · obtain ⟨bound, mine⟩ := h.stored f' x found
      refine ⟨(store_older f bound).1, fun f₂ wait₂ here equal => ?_⟩
      obtain ⟨other, equal⟩ := (store_older f bound).2 equal
      rw [goto_call, if_neg other] at here
      exact mine f₂ wait₂ here equal
  · intro u x here
    rw [goto_call] at here
    split at here
    · cases here
    · obtain ⟨bound, mine⟩ := h.taken u x here
      refine ⟨(store_older f bound).1, fun f₂ wait₂ here equal => ?_⟩
      obtain ⟨other, equal⟩ := (store_older f bound).2 equal
      rw [goto_call, if_neg other] at here
      exact (mine f₂ wait₂ here equal).concat (quiet _ other)

theorem Trusted.signal {f : φ} {x : Handle τ} (h : Trusted tr s) (out : s.call u = .none)
    (found : s.flags f = some x) : Trusted (tr ++ [.signal u f]) ((s.acquireTask f).goto u (.giving x)) := by
  have quiet (t : τ) : ¬ Begins t (.signal u f : Label τ φ κ) := not_begins nofun
  -- who waits did so before
  have waiting {t : τ} {f' : φ} {wait : TickType}
      (here : ((s.acquireTask f).goto u (.giving x)).call t = .waiting f' wait) : s.call t = .waiting f' wait := by
    rw [goto_call] at here
    split at here
    · cases here
    · exact here
  obtain ⟨busy, pending⟩ := h.enter out (fun t => goto_call (s.acquireTask f) u t (.giving x)) rfl rfl fun t _ => quiet t
  refine ⟨busy, ?_, ?_, ?_, pending⟩
  · exact fun t f' wait here => (h.registered t f' wait (waiting here)).concat (quiet t)
  · intro f' y found'
    replace found' : Function.update s.flags f none f' = some y := found'
    rw [Function.update_apply] at found'
    split at found'
    · cases found'
    · obtain ⟨bound, mine⟩ := h.stored f' y found'
      exact ⟨bound, fun f₂ wait here => mine f₂ wait (waiting here)⟩
  · intro v y here
    rw [goto_call] at here
    split at here
    · cases here
      obtain ⟨bound, mine⟩ := h.stored f x found
      refine ⟨bound, fun f₂ wait here equal => ?_⟩
      obtain rfl := mine f₂ wait (waiting here) equal
      exact (h.registered x.task f₂ wait (waiting here)).signalled u
    · obtain ⟨bound, mine⟩ := h.taken v y here
      exact ⟨bound, fun f₂ wait here equal => (mine f₂ wait (waiting here) equal).concat (quiet _)⟩

theorem Trusted.signalNone {f : φ} (h : Trusted tr s) (none : s.flags f = none) :
    Trusted (tr ++ [.signal u f]) (s.acquireTask f) := by
  have same : s.acquireTask f = s := by
    rw [acquireTask, ← none, Function.update_eq_self]
  have quiet (t : τ) : ¬ Begins t (.signal u f : Label τ φ κ) := not_begins nofun
  rw [same]
  refine ⟨h.busy, fun t f wait here => (h.registered t f wait here).concat (quiet t), h.stored, fun v x here => ?_,
    fun t some => (h.pending t some).kept (quiet t) rfl fun _ => rfl⟩
  obtain ⟨bound, mine⟩ := h.taken v x here
  exact ⟨bound, fun f wait here equal => (mine f wait here equal).concat (quiet _)⟩

/-! A step of another object. -/

variable {k : κ} {m : Waitable.Move τ} {w : Waitable τ}

variable [DecidableEq κ]

omit [DecidableEq φ] in
theorem moved_call (s : Tasks τ φ κ) (k : κ) (t u : τ) (w : Waitable τ) :
    (s.moved k t w).call u = if u = t then (if w.busy t then .inside k else .none) else s.call u :=
  Function.update_apply ..

omit [DecidableEq φ] in
theorem moved_objects (s : Tasks τ φ κ) (k k' : κ) (t : τ) (w : Waitable τ) :
    (s.moved k t w).objects k' = if k' = k then w else s.objects k' :=
  Function.update_apply ..

omit [DecidableEq φ] in
/-- It begins no wait and no signal. -/
theorem moved_call_eq {c : Call τ φ κ} (here : (s.moved k t w).call u = c) (out : c ≠ .none) (inside : c ≠ .inside k) :
    s.call u = c := by
  rw [moved_call] at here
  split at here
  · split at here
    · exact absurd here.symm inside
    · exact absurd here.symm out
  · exact here

omit [DecidableEq φ] in
/-- The object looks to the other tasks as it did. -/
theorem moved_others (moves : Waitable.Step ((s.objects k).withCount s.count) m w) (other : u ≠ m.task) (k' : κ) :
    ((s.moved k m.task w).objects k').inner.place u = (s.objects k').inner.place u ∧
      ((s.moved k m.task w).objects k').busy u = (s.objects k').busy u := by
  rw [moved_objects]
  split
  · next same =>
    obtain ⟨place, busy⟩ := moves.others other
    rw [Waitable.withCount_place] at place
    rw [Waitable.withCount_busy] at busy
    exact same ▸ ⟨place, busy⟩
  · exact ⟨rfl, rfl⟩

omit [DecidableEq φ] in
theorem Trusted.moved_busy (h : Trusted tr s) (mine : s.call m.task = .none ∨ s.call m.task = .inside k)
    (moves : Waitable.Step ((s.objects k).withCount s.count) m w) (k' : κ)
    (busy : ((s.moved k m.task w).objects k').busy u = true) : (s.moved k m.task w).call u = .inside k' := by
  by_cases own : u = m.task
  · subst own
    rw [moved_objects] at busy
    rw [moved_call, if_pos rfl]
    split at busy
    · next same => rw [if_pos busy, same]
    · next apart =>
      have inside := h.busy k' _ busy
      rcases mine with out | here
      · rw [out] at inside
        cases inside
      · rw [here] at inside
        cases inside
        exact absurd rfl apart
  · rw [(moved_others moves own k').2] at busy
    rw [moved_call, if_neg own]
    exact h.busy k' u busy

omit [DecidableEq φ] in
/-- A task inside the object goes on to take what is pending. -/
theorem Trusted.moved_own (h : Trusted tr s) (mine : s.call m.task = .none ∨ s.call m.task = .inside k)
    (moves : Waitable.Step ((s.objects k).withCount s.count) m w) (before : s.count m.task ≠ 0)
    (some : w.inner.count m.task ≠ 0) : Awaited (tr ++ [l]) (s.moved k m.task w) m.task := by
  have inside : s.call m.task = .inside k := by
    rcases mine with out | inside
    · have none : s.count m.task = 0 := by
        apply h.unnotified
        · intro k' here
          cases out.symm.trans here
        · intro f wait here
          cases out.symm.trans here
      exact absurd none before
    · exact inside
  have awaits : ((s.objects k).inner.place m.task).awaits = true := by
    rcases h.pending _ before with ⟨f, wait, here, _⟩ | ⟨k', here, awaits⟩
    · rw [inside] at here
      cases here
    · rw [inside] at here
      cases here
      exact awaits
  rcases moves.awaits_or_takes (by rwa [Waitable.withCount_place]) (by rwa [Waitable.withCount_count]) with awaits' | taken
  · refine Or.inr ⟨k, ?_, ?_⟩
    · rw [moved_call, if_pos rfl, if_pos (Waitable.busy_of_awaits awaits')]
    · rw [moved_objects, if_pos rfl]
      exact awaits'
  · exact absurd taken some

omit [DecidableEq φ] in
theorem Trusted.moved_pending (h : Trusted tr s) (mine : s.call m.task = .none ∨ s.call m.task = .inside k)
    (moves : Waitable.Step ((s.objects k).withCount s.count) m w) (timely : Timely s (.other k m)) (quiet : ¬ Begins u l)
    (some : w.inner.count u ≠ 0) : Awaited (tr ++ [l]) (s.moved k m.task w) u := by
  rcases moves.count_cause some with before | ⟨gives, all, here⟩
  · rw [Waitable.withCount_count] at before
    by_cases own : u = m.task
    · subst own
      exact h.moved_own mine moves before some
    · exact (h.pending u before).kept quiet (by rw [moved_call, if_neg own]) fun k' => (moved_others moves own k').1
  · rw [Waitable.withCount_place] at here
    have awaits := timely gives u all here
    have own : u ≠ m.task := by
      rintro rfl
      rw [here] at awaits
      cases awaits
    refine Or.inr ⟨k, ?_, ?_⟩
    · rw [moved_call, if_neg own]
      exact h.busy k u (Waitable.busy_of_awaits awaits)
    · rwa [(moved_others moves own k).1]

omit [DecidableEq φ] in
theorem Trusted.other (h : Trusted tr s) (mine : s.call m.task = .none ∨ s.call m.task = .inside k)
    (moves : Waitable.Step ((s.objects k).withCount s.count) m w) (timely : Timely s (.other k m)) :
    Trusted (tr ++ [.other k m]) (s.moved k m.task w) := by
  have quiet (t : τ) : ¬ Begins t (.other k m : Label τ φ κ) := not_begins nofun
  constructor
  · exact fun k' u => h.moved_busy mine moves k'
  · exact fun u f wait here => (h.registered u f wait (moved_call_eq here nofun nofun)).concat (quiet u)
  · intro f x found
    obtain ⟨bound, own⟩ := h.stored f x found
    exact ⟨bound, fun f' wait here => own f' wait (moved_call_eq here nofun nofun)⟩
  · intro u x here
    obtain ⟨bound, own⟩ := h.taken u x (moved_call_eq here nofun nofun)
    exact ⟨bound, fun f wait here equal => (own f wait (moved_call_eq here nofun nofun) equal).concat (quiet _)⟩
  · exact fun u => h.moved_pending mine moves timely (quiet u)

theorem Trusted.step {s' : Tasks τ φ κ} (h : Trusted tr s) (step : Step s l s') (timely : Timely s l) :
    Trusted (tr ++ [l]) s' := by
  cases step with
  | wait out => exact h.wait out
  | take here _ => exact h.take here
  | timeout here none _ => exact h.timeout here none
  | signal out found => exact h.signal out found
  | signalNone _ none => exact h.signalNone none
  | give here => exact h.give here timely
  | other mine moves => exact h.other mine moves timely

end

/-- Every wait of a trace that returned `OK` saw a signal on its flag after it had begun. -/
def OwnSignals (tr : List (Label τ φ κ)) : Prop :=
  ∀ a t f wait b c, tr = a ++ .wait t f wait :: (b ++ .take t :: c) → (∀ l ∈ b, ¬ Begins t l) → ∃ u, .signal u f ∈ b

variable [DecidableEq φ] [DecidableEq κ]

theorem trusted_of_run {isFuture : κ → Bool} {tr : List (Label τ φ κ)} {s : Tasks τ φ κ}
    (run : Run (fun s l s' => Step s l s' ∧ Timely s l) (.new isFuture) tr s) : Trusted tr s := by
  apply run.invariant (fun _ => True) Trusted (.new isFuture)
  · intro tr s l s' h _ step
    exact h.step step.1 step.2
  · intro l _
    trivial

/-- **A flag reports its own signals** as long as every notification finds its task in the wait it was taken for. -/
theorem own_signals_of_timely {isFuture : κ → Bool} {tr : List (Label τ φ κ)} {s : Tasks τ φ κ}
    (run : Run (fun s l s' => Step s l s' ∧ Timely s l) (.new isFuture) tr s) : OwnSignals tr := by
  rintro a t f wait b c rfl since
  have cut : a ++ .wait t f wait :: (b ++ .take t :: c) = (a ++ .wait t f wait :: b) ++ .take t :: c := by simp
  rw [cut] at run
  obtain ⟨s', before, after⟩ := run.split
  obtain ⟨_, ⟨step, _⟩, _⟩ := after.uncons
  have trusted := trusted_of_run before
  have last : LastAt (Begins t) (a ++ .wait t f wait :: b) a (.wait t f wait) b := ⟨rfl, ⟨f, wait, rfl⟩, since⟩
  cases step with
  | take here some =>
    rcases trusted.pending t some with ⟨f', wait', _, a', b', _, last', u, signal⟩ | ⟨k, inside, _⟩
    · obtain ⟨rfl, same, rfl⟩ := last.unique last'
      cases same
      exact ⟨u, signal⟩
    · rw [here] at inside
      cases inside

/-- A wait for a condition variable and then one for a flag, by a task whose notification value both use. -/
def shared : List (Label Nat Nat Unit) :=
  [.other () (.cond (.lock 0)), .other () (.cond (.wait 0 10)), .other () (.cond (.release 0)),
    .other () (.cond (.lock 1)), .other () (.cond (.signal 1)), .other () (.cond (.give 1)),
    .other () (.cond (.unlock 1)), .other () (.cond (.take 0)), .other () (.cond (.relock 0)),
    .other () (.cond (.unlock 0)), .wait 0 0 10, .signal 1 0, .give 1, .take 0]

/-- A step of a condition variable. -/
theorem Step.condition {s : Tasks Nat Nat Unit} {c c' : Cond Nat} {l : Cond.Label Nat} (object : s.objects () = .cond c)
    (mine : s.call l.task = .none ∨ s.call l.task = .inside ()) (exec : { c with count := s.count }.exec l = some c') :
    Step s (.other () (.cond l)) (s.moved () l.task (.cond c')) := by
  refine .other mine ?_
  rw [object]
  exact .cond (Cond.exec_sound exec)

theorem run_shared : ∃ s, Run (fun s l s' => Step s l s' ∧ Timely s l) (.new fun _ => false) shared s := by
  have r₁ : Run (fun s l s' => Step s l s' ∧ Timely s l) (.new fun _ => false : Tasks Nat Nat Unit) _ _ :=
    .single ⟨.condition (l := .lock 0) rfl (.inl rfl) rfl, nofun⟩
  have r₂ := r₁.next ⟨.condition (l := .wait 0 10) rfl (.inl rfl) rfl, nofun⟩
  have r₃ := r₂.next ⟨.condition (l := .release 0) rfl (.inr rfl) rfl, nofun⟩
  have r₄ := r₃.next ⟨.condition (l := .lock 1) rfl (.inl rfl) rfl, nofun⟩
  have r₅ := r₄.next ⟨.condition (l := .signal 1) rfl (.inl rfl) rfl, nofun⟩
  have r₆ := r₅.next ⟨.condition (l := .give 1) rfl (.inr rfl) rfl, by rintro _ t all ⟨⟩; rfl⟩
  have r₇ := r₆.next ⟨.condition (l := .unlock 1) rfl (.inl rfl) rfl, nofun⟩
  have r₈ := r₇.next ⟨.condition (l := .take 0) rfl (.inr rfl) rfl, nofun⟩
  have r₉ := r₈.next ⟨.condition (l := .relock 0) rfl (.inr rfl) rfl, nofun⟩
  have r₁₀ := r₉.next ⟨.condition (l := .unlock 0) rfl (.inl rfl) rfl, nofun⟩
  have r₁₁ := r₁₀.next ⟨@Step.wait Nat Nat Unit _ _ _ _ 0 0 10 rfl, trivial⟩
  have r₁₂ := r₁₁.next ⟨.signal (u := 1) (f := 0) rfl rfl, trivial⟩
  refine ⟨_, (r₁₂.next ⟨.give rfl, ?_⟩).next ⟨.take rfl (by decide), trivial⟩⟩
  intro h (here : Call.giving ⟨0, 1⟩ = .giving h)
  cases here
  exact ⟨⟨0, 10, rfl⟩, rfl⟩

theorem own_signals_of_timely_one :
    ∃ s, Run (fun s l s' => Step s l s' ∧ Timely s l) (.new fun _ => false) shared s ∧ OwnSignals shared := by
  obtain ⟨s, run⟩ := run_shared
  exact ⟨s, run, own_signals_of_timely run⟩

/-- A wait for flag 0 runs out of time and leaves its handle. The signal on this flag comes late, and the next wait, for
flag 1, returns `OK`. -/
theorem not_own_signals : ¬ ∀ (tr : List (Label Nat Nat Empty)) s, Run Step (.new nofun) tr s → OwnSignals tr := by
  intro all
  have run : Run Step (.new nofun : Tasks Nat Nat Empty)
      [.wait 0 0 10, .timeout 0, .signal 1 0, .give 1, .wait 0 1 10, .take 0] _ :=
    (((((Run.start.next (.wait rfl)).next (.timeout rfl rfl (by decide))).next (.signal rfl rfl)).next
      (.give rfl)).next (.wait rfl)).next (.take rfl (by decide))
  obtain ⟨u, none⟩ := all _ _ run [.wait 0 0 10, .timeout 0, .signal 1 0, .give 1] 0 1 10 [] [] rfl (by simp)
  cases none

end Tasks

end OcsComponents.Core
