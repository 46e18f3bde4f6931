import OcsComponents.Scheduler.AsyncFuncScheduler

/-!
# The histories of the scheduler

As long as no nested `run()` swaps the queues there is at most one iteration, and it is
over the read queue (`Sole`). Then what waits is a first-in first-out buffer: the rest of
the iterated queue followed by the write queue. Together with the function being
executed and the notification being made these are three buffers in a row, and the
histories of their ends say what was accepted, called, returned and notified.
-/

namespace OcsComponents.Scheduler
open Status OcsComponents.Core Transition AsyncFuncScheduler

section
variable {φ : Type}

/-! ## The histories of a run -/

namespace Label

@[simp] def accepts : Label φ → List (Event φ)
  | .accept e => [e]
  | _ => []

@[simp] def rejects : Label φ → List (Event φ)
  | .reject e => [e]
  | _ => []

/-- The futures of both. -/
@[simp] def adds : Label φ → List Nat
  | .accept e => [e.future]
  | .reject e => [e.future]
  | _ => []

@[simp] def calls : Label φ → List (Event φ)
  | .call e => [e]
  | _ => []

@[simp] def finishes : Label φ → List (Event φ)
  | .ret e _ => [e]
  | _ => []

@[simp] def returns : Label φ → List (Nat × StatusCode)
  | .ret e code => [(e.future, code)]
  | _ => []

@[simp] def notifies : Label φ → List (Nat × StatusCode)
  | .notify future code => [(future, code)]
  | _ => []

end Label

/-- The functions whose `add()` returned a future, in the order of these calls. -/
def accepted (tr : List (Label φ)) : List (Event φ) := tr.flatMap Label.accepts

/-- The functions whose `add()` returned `nullptr`. -/
def rejected (tr : List (Label φ)) : List (Event φ) := tr.flatMap Label.rejects

/-- The functions `run()` has called, in order. -/
def called (tr : List (Label φ)) : List (Event φ) := tr.flatMap Label.calls

/-- The functions that have returned. -/
def finished (tr : List (Label φ)) : List (Event φ) := tr.flatMap Label.finishes

/-- Their futures, with their statuses. -/
def returned (tr : List (Label φ)) : List (Nat × StatusCode) := tr.flatMap Label.returns

/-- The notifications. -/
def notified (tr : List (Label φ)) : List (Nat × StatusCode) := tr.flatMap Label.notifies

/-! ## What one step can do -/

theorem add_some {s s' : AsyncFuncScheduler φ} {func : φ} {memory : Bool} {e : Event φ}
    (h : s.add func memory = (some e, s')) :
    e = ⟨func, s.adds⟩ ∧ (s.queues s.writeQueue).length ≠ s.maxEventCount ∧
      s' = { s with adds := s.adds + 1 }.setQueue s.writeQueue (s.queues s.writeQueue ++ [(⟨func, s.adds⟩ : Event φ)]) := by
  unfold add at h
  dsimp only at h
  split at h
  · cases h
  · rename_i room
    split at h
    · cases h; exact ⟨rfl, room, rfl⟩
    · cases h

theorem add_none {s s' : AsyncFuncScheduler φ} {func : φ} {memory : Bool} (h : s.add func memory = (none, s')) :
    s' = { s with adds := s.adds + 1 } := by
  unfold add at h
  dsimp only at h
  split at h
  · cases h; rfl
  · split at h <;> cases h
    rfl

theorem add_room {s : AsyncFuncScheduler φ} (func : φ) (room : (s.queues s.writeQueue).length ≠ s.maxEventCount) :
    ∃ e s', s.add func true = (some e, s') :=
  ⟨_, _, by simp only [add, room, if_false, if_true]; rfl⟩

theorem add_full {s : AsyncFuncScheduler φ} (func : φ) (memory : Bool)
    (full : (s.queues s.writeQueue).length = s.maxEventCount) : ∃ s', s.add func memory = (none, s') :=
  ⟨_, by simp only [add, full, if_true]; rfl⟩

theorem swap_some {s s' : AsyncFuncScheduler φ} (h : s.swap = some s') :
    s.queues s.writeQueue ≠ [] ∧ s' = { s with
      writeQueue := !s.writeQueue
      frames := ⟨s.writeQueue, 0, (s.queues s.writeQueue).length, .fetch⟩ :: s.frames } := by
  unfold swap at h
  split at h
  · cases h
  · rename_i nonempty
    cases h
    exact ⟨fun empty => nonempty (by rw [empty]; rfl), rfl⟩

theorem call_some {s s' : AsyncFuncScheduler φ} {e : Event φ} (h : s.call = some (e, s')) :
    ∃ q i stop rest, s.frames = ⟨q, i, stop, .fetch⟩ :: rest ∧ i ≠ stop ∧ (s.queues q)[i]? = some e ∧
      s' = { s with frames := ⟨q, i + 1, stop, .executing e⟩ :: rest } := by
  unfold call at h
  split at h
  · rename_i q i stop rest frames
    split at h
    · cases h
    · rename_i more
      obtain ⟨e', at', same⟩ := Option.map_eq_some_iff.mp h
      cases same
      exact ⟨q, i, stop, rest, frames, more, at', rfl⟩
  · cases h

theorem return_some {s s' : AsyncFuncScheduler φ} {e : Event φ} {code : StatusCode}
    (h : s.return_ code = some (e, s')) :
    ∃ q i stop rest, s.frames = ⟨q, i, stop, .executing e⟩ :: rest ∧
      s' = { s with frames := ⟨q, i, stop, .notifying e code⟩ :: rest } := by
  unfold return_ at h
  split at h
  · rename_i q i stop e' rest frames
    cases h
    exact ⟨q, i, stop, rest, frames, rfl⟩
  · cases h

theorem notify_some {s s' : AsyncFuncScheduler φ} {future : Nat} {code : StatusCode}
    (h : s.notify = some ((future, code), s')) :
    ∃ q i stop e rest, s.frames = ⟨q, i, stop, .notifying e code⟩ :: rest ∧ e.future = future ∧
      s' = { s with
        frames := ⟨q, i, stop, .fetch⟩ :: rest
        futures := Function.update s.futures future ⟨code⟩ } := by
  unfold notify at h
  split at h
  · rename_i q i stop e code' rest frames
    cases h
    exact ⟨q, i, stop, e, rest, frames, rfl, rfl⟩
  · cases h

theorem leave_some {s s' : AsyncFuncScheduler φ} (h : s.leave = some s') :
    ∃ q i rest, s.frames = ⟨q, i, i, .fetch⟩ :: rest ∧
      s' = { s.setQueue (!s.writeQueue) [] with frames := rest } := by
  unfold leave at h
  split at h
  · rename_i q i stop rest frames
    split at h
    · rename_i same
      subst same
      cases h
      exact ⟨q, i, rest, frames, rfl⟩
    · cases h
  · cases h

theorem call_of {s : AsyncFuncScheduler φ} {q : Bool} {i stop : Nat} {rest : List (Frame φ)} {e : Event φ}
    (frames : s.frames = ⟨q, i, stop, .fetch⟩ :: rest) (more : i ≠ stop) (here : (s.queues q)[i]? = some e) :
    s.call = some (e, { s with frames := ⟨q, i + 1, stop, .executing e⟩ :: rest }) := by
  simp only [call, frames, if_neg more, here, Option.map_some]

theorem return_of {s : AsyncFuncScheduler φ} {q : Bool} {i stop : Nat} {rest : List (Frame φ)} {e : Event φ}
    (frames : s.frames = ⟨q, i, stop, .executing e⟩ :: rest) (code : StatusCode) :
    s.return_ code = some (e, { s with frames := ⟨q, i, stop, .notifying e code⟩ :: rest }) := by
  simp only [return_, frames]

theorem notify_of {s : AsyncFuncScheduler φ} {q : Bool} {i stop : Nat} {rest : List (Frame φ)} {e : Event φ}
    {code : StatusCode} (frames : s.frames = ⟨q, i, stop, .notifying e code⟩ :: rest) :
    s.notify = some ((e.future, code), { s with
      frames := ⟨q, i, stop, .fetch⟩ :: rest
      futures := Function.update s.futures e.future ⟨code⟩ }) := by
  simp only [notify, frames]
  rfl

theorem leave_of {s : AsyncFuncScheduler φ} {q : Bool} {i : Nat} {rest : List (Frame φ)}
    (frames : s.frames = ⟨q, i, i, .fetch⟩ :: rest) :
    s.leave = some { s.setQueue (!s.writeQueue) [] with frames := rest } := by
  simp only [leave, frames, if_true]

/-- Only a notification sets a future. -/
theorem Step.futures_eq {s s' : AsyncFuncScheduler φ} {l : Label φ} (step : Step s l s') {i : Nat}
    (silent : i ∉ l.notifies.map Prod.fst) : s'.futures i = s.futures i := by
  cases step with
  | accept added => obtain ⟨rfl, _, rfl⟩ := add_some added; rfl
  | reject refused => obtain rfl := add_none refused; rfl
  | runEmpty ready empty => rfl
  | runSwap ready swapped => obtain ⟨_, rfl⟩ := swap_some swapped; rfl
  | call did => obtain ⟨_, _, _, _, _, _, _, rfl⟩ := call_some did; rfl
  | ret did => obtain ⟨_, _, _, _, _, rfl⟩ := return_some did; rfl
  | leave did => obtain ⟨_, _, _, _, rfl⟩ := leave_some did; rfl
  | @notify future code s' did =>
    obtain ⟨_, _, _, _, _, _, _, rfl⟩ := notify_some did
    have other : i ≠ future := by simpa using silent
    exact Function.update_of_ne other _ _

theorem Step.futures_notified {s s' : AsyncFuncScheduler φ} {future : Nat} {code : StatusCode}
    (step : Step s (.notify future code) s') : s'.futures future = ⟨code⟩ := by
  cases step with
  | notify did =>
    obtain ⟨_, _, _, _, _, _, _, rfl⟩ := notify_some did
    exact Function.update_self ..

/-- Only `add` and the end of `run()` change a queue. -/
theorem Step.queues_eq {s s' : AsyncFuncScheduler φ} {l : Label φ} (step : Step s l s') (adds : l.accepts = [])
    (stays : l ≠ .leave) : s'.queues = s.queues := by
  cases step with
  | accept added => cases adds
  | reject refused => obtain rfl := add_none refused; rfl
  | runEmpty ready empty => rfl
  | runSwap ready swapped => obtain ⟨_, rfl⟩ := swap_some swapped; rfl
  | call did => obtain ⟨_, _, _, _, _, _, _, rfl⟩ := call_some did; rfl
  | ret did => obtain ⟨_, _, _, _, _, rfl⟩ := return_some did; rfl
  | notify did => obtain ⟨_, _, _, _, _, _, _, rfl⟩ := notify_some did; rfl
  | leave did => exact absurd rfl stays

/-! ## One iteration at a time -/

/-- No iteration and an empty read queue, or one iteration and it is over the read queue. -/
inductive Sole (s : AsyncFuncScheduler φ) : Prop where
  | idle (frames : s.frames = []) (clear : s.queues (!s.writeQueue) = [])
  | busy {i stop : Nat} {stage : Stage φ} (frames : s.frames = [⟨!s.writeQueue, i, stop, stage⟩])
      (all : stop = (s.queues (!s.writeQueue)).length) (inside : i ≤ stop)

/-- Every step but a nested swap. -/
def Flat : Label φ → Prop
  | .runSwap nested => nested = false
  | _ => True

/-- The functions the iteration still has to call. -/
def ahead (s : AsyncFuncScheduler φ) : List (Event φ) :=
  match s.frames with
  | [] => []
  | fr :: _ => (s.queues fr.queue).drop fr.index

/-- The functions still to be called. -/
def pending (s : AsyncFuncScheduler φ) : List (Event φ) := ahead s ++ s.queues s.writeQueue

/-- The function being executed. -/
def executing (s : AsyncFuncScheduler φ) : List (Event φ) :=
  match s.frames with
  | ⟨_, _, _, .executing e⟩ :: _ => [e]
  | _ => []

/-- The functions accepted and not finished. -/
def outstanding (s : AsyncFuncScheduler φ) : List (Event φ) := executing s ++ pending s

/-- The notification being made. -/
def notifying (s : AsyncFuncScheduler φ) : List (Nat × StatusCode) :=
  match s.frames with
  | ⟨_, _, _, .notifying e code⟩ :: _ => [(e.future, code)]
  | _ => []

@[simp] theorem setQueue_queues (s : AsyncFuncScheduler φ) (q q' : Bool) (events : List (Event φ)) :
    (s.setQueue q events).queues q' = if q' = q then events else s.queues q' := by
  simp [setQueue, Function.update_apply]

@[simp] theorem setQueue_writeQueue (s : AsyncFuncScheduler φ) (q : Bool) (events : List (Event φ)) :
    (s.setQueue q events).writeQueue = s.writeQueue := rfl

@[simp] theorem setQueue_frames (s : AsyncFuncScheduler φ) (q : Bool) (events : List (Event φ)) :
    (s.setQueue q events).frames = s.frames := rfl

theorem Sole.new (maxEventCount : Nat) : Sole (AsyncFuncScheduler.new maxEventCount : AsyncFuncScheduler φ) :=
  .idle rfl rfl

/-- The frame on top is the only one. -/
theorem Sole.top {s : AsyncFuncScheduler φ} {q : Bool} {i stop : Nat} {stage : Stage φ} {rest : List (Frame φ)}
    (h : Sole s) (top : s.frames = ⟨q, i, stop, stage⟩ :: rest) :
    rest = [] ∧ q = !s.writeQueue ∧ stop = (s.queues (!s.writeQueue)).length ∧ i ≤ stop := by
  cases h with
  | idle frames clear => rw [frames] at top; cases top
  | busy frames all inside =>
    rw [frames] at top
    cases top
    exact ⟨rfl, rfl, all, inside⟩

/-- What a step does to the three buffers. -/
structure Moves (s : AsyncFuncScheduler φ) (l : Label φ) (s' : AsyncFuncScheduler φ) : Prop where
  waits : FifoStep Label.accepts Label.calls pending s l s'
  runs : FifoStep Label.calls Label.finishes executing s l s'
  reports : FifoStep Label.returns Label.notifies notifying s l s'

/-- **One step** keeps a single iteration, and moves the three buffers. -/
theorem Sole.step {s s' : AsyncFuncScheduler φ} {l : Label φ} (h : Sole s) (flat : Flat l) (step : Step s l s') :
    Sole s' ∧ Moves s l s' := by
  cases step with
  | accept added =>
    obtain ⟨rfl, _, rfl⟩ := add_some added
    cases h with
    | idle frames clear =>
      exact ⟨.idle frames (by simpa using clear), by simp [FifoStep, pending, ahead, frames],
        by simp [FifoStep, executing, frames], by simp [FifoStep, notifying, frames]⟩
    | busy frames all inside =>
      exact ⟨.busy frames (by simpa using all) inside, by simp [FifoStep, pending, ahead, frames],
        by simp [FifoStep, executing, frames], by simp [FifoStep, notifying, frames]⟩
  | reject refused =>
    obtain rfl := add_none refused
    refine ⟨?_, by simp [FifoStep, pending, ahead], by simp [FifoStep, executing], by simp [FifoStep, notifying]⟩
    cases h with
    | idle frames clear => exact .idle frames clear
    | busy frames all inside => exact .busy frames all inside
  | runEmpty ready empty => exact ⟨h, by simp [FifoStep], by simp [FifoStep], by simp [FifoStep]⟩
  | runSwap ready swapped =>
    obtain ⟨_, rfl⟩ := swap_some swapped
    cases h with
    | idle frames clear =>
      have started : (⟨s.writeQueue, 0, (s.queues s.writeQueue).length, .fetch⟩ :: s.frames : List (Frame φ)) =
          [⟨!!s.writeQueue, 0, (s.queues s.writeQueue).length, .fetch⟩] := by
        rw [frames, Bool.not_not]
      exact ⟨.busy started (by simp) (Nat.zero_le _),
        by simp [FifoStep, pending, ahead, frames, clear], by simp [FifoStep, executing, frames],
        by simp [FifoStep, notifying, frames]⟩
    | busy frames all inside => simp [Flat, nested, frames] at flat
  | call did =>
    obtain ⟨q, i, stop, rest, top, more, at', rfl⟩ := call_some did
    obtain ⟨rfl, rfl, all, inside⟩ := h.top top
    obtain ⟨bound, here⟩ := List.getElem?_eq_some_iff.mp at'
    exact ⟨.busy rfl all (by omega), by simp [FifoStep, pending, ahead, top, List.drop_eq_getElem_cons bound, here],
      by simp [FifoStep, executing, top], by simp [FifoStep, notifying, top]⟩
  | ret did =>
    obtain ⟨q, i, stop, rest, top, rfl⟩ := return_some did
    obtain ⟨rfl, rfl, all, inside⟩ := h.top top
    exact ⟨.busy rfl all inside, by simp [FifoStep, pending, ahead, top], by simp [FifoStep, executing, top],
      by simp [FifoStep, notifying, top]⟩
  | notify did =>
    obtain ⟨q, i, stop, e, rest, top, rfl, rfl⟩ := notify_some did
    obtain ⟨rfl, rfl, all, inside⟩ := h.top top
    exact ⟨.busy rfl all inside, by simp [FifoStep, pending, ahead, top], by simp [FifoStep, executing, top],
      by simp [FifoStep, notifying, top]⟩
  | leave did =>
    obtain ⟨q, i, rest, top, rfl⟩ := leave_some did
    obtain ⟨rfl, rfl, all, inside⟩ := h.top top
    -- the iteration is over: nothing of the read queue is dropped by clearing it
    exact ⟨.idle rfl (by simp), by simp [FifoStep, pending, ahead, top, ← all],
      by simp [FifoStep, executing, top], by simp [FifoStep, notifying, top]⟩

/-! ## Whole runs -/

theorem finished_futures (tr : List (Label φ)) : (finished tr).map Event.future = (returned tr).map Prod.fst := by
  rw [finished, returned, List.map_flatMap, List.map_flatMap]
  congr 1
  funext l
  cases l <;> rfl

/-- The histories of a run with a single iteration at a time. -/
structure Histories (tr : List (Label φ)) (s : AsyncFuncScheduler φ) : Prop where
  sole : Sole s
  waits : accepted tr = called tr ++ pending s
  runs : called tr = finished tr ++ executing s
  reports : returned tr = notified tr ++ notifying s

theorem Histories.of_run {maxEventCount : Nat} {tr : List (Label φ)} {s : AsyncFuncScheduler φ}
    (h : Run Step (.new maxEventCount) tr s) (flat : ∀ l ∈ tr, Flat l) : Histories tr s := by
  have init : Sole (AsyncFuncScheduler.new maxEventCount : AsyncFuncScheduler φ) := .new maxEventCount
  refine ⟨h.preserves Flat Sole init (fun s l s' sole flat step => (sole.step flat step).1) flat, ?_, ?_, ?_⟩
  · exact h.fifo Flat Sole init (fun s l s' sole flat step => ⟨(sole.step flat step).1, (sole.step flat step).2.waits⟩) rfl flat
  · exact h.fifo Flat Sole init (fun s l s' sole flat step => ⟨(sole.step flat step).1, (sole.step flat step).2.runs⟩) rfl flat
  · exact h.fifo Flat Sole init (fun s l s' sole flat step => ⟨(sole.step flat step).1, (sole.step flat step).2.reports⟩) rfl flat

/-- The calls of `add` are numbered in order. -/
theorem adds_range {maxEventCount : Nat} {tr : List (Label φ)} {s : AsyncFuncScheduler φ}
    (h : Run Step (.new maxEventCount) tr s) : tr.flatMap Label.adds = List.range s.adds := by
  refine h.invariant (fun _ => True) (fun tr s => tr.flatMap Label.adds = List.range s.adds) rfl ?_
    (fun _ _ => trivial)
  intro tr s l s' numbered _ step
  rw [List.flatMap_append, List.flatMap_singleton, numbered]
  cases step with
  | accept added => obtain ⟨rfl, _, rfl⟩ := add_some added; simp [setQueue, List.range_succ]
  | reject refused => obtain rfl := add_none refused; simp [List.range_succ]
  | runEmpty ready empty => simp
  | runSwap ready swapped => obtain ⟨_, rfl⟩ := swap_some swapped; simp
  | call did => obtain ⟨_, _, _, _, _, _, _, rfl⟩ := call_some did; simp
  | ret did => obtain ⟨_, _, _, _, _, rfl⟩ := return_some did; simp
  | notify did => obtain ⟨_, _, _, _, _, _, _, rfl⟩ := notify_some did; simp
  | leave did => obtain ⟨_, _, _, _, rfl⟩ := leave_some did; simp [setQueue]

theorem accepted_adds (tr : List (Label φ)) : List.Sublist ((accepted tr).map Event.future) (tr.flatMap Label.adds) := by
  induction tr with
  | nil => exact .slnil
  | cons l tr ih =>
    rw [accepted, List.flatMap_cons, List.map_append, List.flatMap_cons]
    refine List.Sublist.append ?_ ih
    cases l <;> simp

theorem Label.rejects_adds {l : Label φ} {e : Event φ} (h : e ∈ l.rejects) : e.future ∈ l.adds := by
  cases l <;> simp_all

theorem Label.accepts_adds {l : Label φ} {e : Event φ} (h : e ∈ l.accepts) : e.future ∈ l.adds := by
  cases l <;> simp_all

theorem rejected_adds {tr : List (Label φ)} {e : Event φ} (h : e ∈ rejected tr) : e.future ∈ tr.flatMap Label.adds := by
  obtain ⟨l, member, refused⟩ := List.mem_flatMap.mp h
  exact List.mem_flatMap.mpr ⟨l, member, Label.rejects_adds refused⟩

/-- A call of `add` has one result. -/
theorem rejected_apart : ∀ {tr : List (Label φ)}, (tr.flatMap Label.adds).Nodup →
    ∀ e ∈ rejected tr, ∀ e' ∈ accepted tr, e'.future ≠ e.future := by
  intro tr
  induction tr with
  | nil => intro _ e refused; cases refused
  | cons l tr ih =>
    intro distinct e refused e' taken
    rw [List.flatMap_cons, List.nodup_append] at distinct
    obtain ⟨_, rest, apart⟩ := distinct
    rw [rejected, List.flatMap_cons, List.mem_append] at refused
    rw [accepted, List.flatMap_cons, List.mem_append] at taken
    rcases refused with here | later <;> rcases taken with here' | later'
    · cases l <;> simp_all
    · have taken' := (accepted_adds tr).subset (List.mem_map_of_mem later')
      exact (apart _ (Label.rejects_adds here) _ taken').symm
    · exact apart _ (Label.accepts_adds here') _ (rejected_adds later)
    · exact ih rest e later e' later'

/-- A notified future keeps the status, as there is no other notification of it. -/
theorem notified_code {maxEventCount : Nat} {tr : List (Label φ)} {s : AsyncFuncScheduler φ}
    (h : Run Step (.new maxEventCount) tr s) (once : ((notified tr).map Prod.fst).Nodup) :
    ∀ p ∈ notified tr, s.futures p.1 = ⟨p.2⟩ := by
  induction h with
  | start => intro p member; cases member
  | @next tr s s' l before step ih =>
    rw [notified, List.flatMap_append, List.flatMap_singleton] at once ⊢
    rw [List.map_append, List.nodup_append] at once
    obtain ⟨distinct, _, apart⟩ := once
    intro p member
    rcases List.mem_append.mp member with earlier | now
    · rw [step.futures_eq fun again => apart _ (List.mem_map_of_mem earlier) _ again rfl]
      exact ih distinct p earlier
    · cases l with
      | notify future code =>
        obtain rfl := List.mem_singleton.mp now
        exact step.futures_notified
      | _ => cases now

theorem Step.maxEventCount_eq {s s' : AsyncFuncScheduler φ} {l : Label φ} (step : Step s l s') :
    s'.maxEventCount = s.maxEventCount := by
  cases step with
  | accept added => obtain ⟨rfl, _, rfl⟩ := add_some added; rfl
  | reject refused => obtain rfl := add_none refused; rfl
  | runEmpty ready empty => rfl
  | runSwap ready swapped => obtain ⟨_, rfl⟩ := swap_some swapped; rfl
  | call did => obtain ⟨_, _, _, _, _, _, _, rfl⟩ := call_some did; rfl
  | ret did => obtain ⟨_, _, _, _, _, rfl⟩ := return_some did; rfl
  | notify did => obtain ⟨_, _, _, _, _, _, _, rfl⟩ := notify_some did; rfl
  | leave did => obtain ⟨_, _, _, _, rfl⟩ := leave_some did; rfl

/-- No queue ever holds more than `max_event_count_` functions, whatever is nested. -/
theorem queues_room {maxEventCount : Nat} {tr : List (Label φ)} {s : AsyncFuncScheduler φ}
    (h : Run Step (.new maxEventCount) tr s) :
    s.maxEventCount = maxEventCount ∧ ∀ q, (s.queues q).length ≤ maxEventCount := by
  refine h.preserves (fun _ => True)
    (fun s => s.maxEventCount = maxEventCount ∧ ∀ q, (s.queues q).length ≤ maxEventCount)
    ⟨rfl, fun _ => Nat.zero_le _⟩ ?_ (fun _ _ => trivial)
  rintro s l s' ⟨same, room⟩ _ step
  refine ⟨step.maxEventCount_eq.trans same, fun q => ?_⟩
  cases l with
  | accept e =>
    cases step with
    | accept added =>
      obtain ⟨rfl, free, rfl⟩ := add_some added
      have := room s.writeQueue
      rw [setQueue_queues]
      split
      · rw [List.length_append, List.length_singleton]
        omega
      · exact room q
  | leave =>
    cases step with
    | leave did =>
      obtain ⟨_, _, _, _, rfl⟩ := leave_some did
      dsimp only
      rw [setQueue_queues]
      split
      · exact Nat.zero_le _
      · exact room q
  | _ =>
    rw [step.queues_eq rfl (by simp)]
    exact room q

/-! ## What is outstanding -/

theorem Histories.outstanding {tr : List (Label φ)} {s : AsyncFuncScheduler φ} (h : Histories tr s) :
    accepted tr = finished tr ++ Scheduler.outstanding s := by
  rw [h.waits, h.runs, List.append_assoc, Scheduler.outstanding]

/-- A step of a scheduler with a single iteration adds what it accepts to what is
outstanding, and takes the function that finishes from it. -/
theorem Sole.outstanding_step {s s' : AsyncFuncScheduler φ} {l : Label φ} (h : Sole s) (flat : Flat l)
    (step : Step s l s') : FifoStep Label.accepts Label.finishes outstanding s l s' := by
  obtain ⟨_, moves⟩ := h.step flat step
  have waits : pending s ++ l.accepts = l.calls ++ pending s' := moves.waits
  have runs : executing s ++ l.calls = l.finishes ++ executing s' := moves.runs
  rw [FifoStep, outstanding, outstanding, List.append_assoc, waits, ← List.append_assoc, runs, List.append_assoc]

/-- A future nobody was told of is as `add` made it. -/
theorem unnotified_code {maxEventCount : Nat} {tr : List (Label φ)} {s : AsyncFuncScheduler φ}
    (h : Run Step (.new maxEventCount) tr s) : ∀ i, i ∉ (notified tr).map Prod.fst → s.futures i = .new := by
  induction h with
  | start => intro i _; rfl
  | @next tr s s' l before step ih =>
    intro i silent
    rw [notified, List.flatMap_append, List.flatMap_singleton, List.map_append, List.mem_append, not_or] at silent
    rw [step.futures_eq silent.2]
    exact ih i silent.1

/-- The future of a function that has not finished is not set. -/
theorem outstanding_code {maxEventCount : Nat} {tr : List (Label φ)} {s : AsyncFuncScheduler φ}
    (h : Run Step (.new maxEventCount) tr s) (flat : ∀ l ∈ tr, Flat l) :
    ∀ e ∈ outstanding s, s.futures e.future = .new := by
  intro e member
  have history := Histories.of_run h flat
  refine unnotified_code h _ (fun told => ?_)
  -- notified futures belong to functions that have finished
  have done : e.future ∈ (finished tr).map Event.future := by
    rw [finished_futures, history.reports, List.map_append]
    exact List.mem_append_left _ told
  have distinct : ((accepted tr).map Event.future).Nodup :=
    (accepted_adds tr).nodup (by rw [adds_range h]; exact List.nodup_range)
  rw [history.outstanding, List.map_append, List.nodup_append] at distinct
  exact distinct.2.2 _ done _ (List.mem_map_of_mem member) rfl

end

end OcsComponents.Scheduler
