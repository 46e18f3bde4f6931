import Mathlib.Data.List.Nodup
import OcsComponents.Scheduler.History

/-!
# Every accepted function is delivered once

What the histories add up to: functions are called in the order they were accepted in and
at most once, each future is notified at most once and with the function's status, and
nothing accepted is lost.
-/

namespace OcsComponents.Scheduler
open Status OcsComponents.Core Transition AsyncFuncScheduler

section
variable {φ : Type}

/-- What a run has delivered, for any number of tasks that call `add` and one that
calls `run()`. -/
structure Delivery (maxEventCount : Nat) (tr : List (Label φ)) (s : AsyncFuncScheduler φ) : Prop where
  order : called tr <+: accepted tr
  once : ((called tr).map Event.future).Nodup
  refused : ∀ e ∈ rejected tr, ∀ e' ∈ called tr, e'.future ≠ e.future
  results : (returned tr).map Prod.fst <+: (called tr).map Event.future
  notifications : notified tr <+: returned tr
  notifiedOnce : ((notified tr).map Prod.fst).Nodup
  codes : ∀ p ∈ notified tr, s.futures p.1 = ⟨p.2⟩
  room : (s.queues s.writeQueue).length ≤ maxEventCount
  drained : s.frames = [] → s.queues s.writeQueue = [] →
    called tr = accepted tr ∧ (notified tr).map Prod.fst = (accepted tr).map Event.future

/-- Between two calls of `run()` what was called has returned and was notified. -/
theorem Histories.idle {tr : List (Label φ)} {s : AsyncFuncScheduler φ} (h : Histories tr s) (idle : s.frames = []) :
    accepted tr = called tr ++ s.queues s.writeQueue ∧ (called tr).map Event.future = (returned tr).map Prod.fst ∧
      returned tr = notified tr := by
  refine ⟨?_, ?_, ?_⟩
  · simpa [pending, ahead, idle] using h.waits
  · rw [← finished_futures, h.runs, show executing s = [] by simp [executing, idle], List.append_nil]
  · simpa [notifying, idle] using h.reports

theorem Delivery.of_run {maxEventCount : Nat} {tr : List (Label φ)} {s : AsyncFuncScheduler φ}
    (h : Run Step (.new maxEventCount) tr s) (flat : ∀ l ∈ tr, Flat l) : Delivery maxEventCount tr s := by
  have history := Histories.of_run h flat
  have distinct : (tr.flatMap Label.adds).Nodup := by rw [adds_range h]; exact List.nodup_range
  have order : called tr <+: accepted tr := ⟨_, history.waits.symm⟩
  have once : ((called tr).map Event.future).Nodup :=
    ((order.sublist.map _).trans (accepted_adds tr)).nodup distinct
  have results : (returned tr).map Prod.fst <+: (called tr).map Event.future := by
    rw [← finished_futures, history.runs, List.map_append]
    exact List.prefix_append _ _
  have notifications : notified tr <+: returned tr := ⟨_, history.reports.symm⟩
  have notifiedOnce : ((notified tr).map Prod.fst).Nodup :=
    ((notifications.sublist.map _).trans results.sublist).nodup once
  refine ⟨order, once, ?_, results, notifications, notifiedOnce, notified_code h notifiedOnce, (queues_room h).2 _, ?_⟩
  · intro e refused e' ran
    exact rejected_apart distinct e refused e' (order.subset ran)
  · intro idle empty
    obtain ⟨waits, runs, reports⟩ := history.idle idle
    rw [empty, List.append_nil] at waits
    exact ⟨waits.symm, by rw [← reports, ← runs, waits]⟩

/-- Accepted functions are told apart by their futures. -/
theorem accepted_unique {maxEventCount : Nat} {tr : List (Label φ)} {s : AsyncFuncScheduler φ}
    (h : Run Step (.new maxEventCount) tr s) {e e' : Event φ} (accept : e ∈ accepted tr) (accept' : e' ∈ accepted tr)
    (same : e.future = e'.future) : e = e' := by
  have distinct : ((accepted tr).map Event.future).Nodup :=
    (accepted_adds tr).nodup (by rw [adds_range h]; exact List.nodup_range)
  exact List.inj_on_of_nodup_map distinct accept accept' same

/-- A set future holds the status that its function has returned. -/
theorem returned_of_set {maxEventCount future : Nat} {tr : List (Label φ)} {s : AsyncFuncScheduler φ}
    (h : Run Step (.new maxEventCount) tr s) (flat : ∀ l ∈ tr, Flat l) (set : (s.futures future).poll = some .ok) :
    ∃ e, .ret e (s.futures future).code ∈ tr ∧ e ∈ accepted tr ∧ e.future = future := by
  have delivery := Delivery.of_run h flat
  have told : future ∈ (notified tr).map Prod.fst := by
    by_contra silent
    rw [unnotified_code h future silent] at set
    cases set
  obtain ⟨⟨i, code⟩, notification, rfl⟩ := List.mem_map.mp told
  obtain ⟨l, member, gives⟩ := List.mem_flatMap.mp (delivery.notifications.subset notification)
  rw [delivery.codes _ notification]
  cases l with
  | ret e code' =>
    obtain ⟨rfl, rfl⟩ := Prod.mk.inj (List.mem_singleton.mp gives)
    have finishes : e ∈ finished tr := List.mem_flatMap.mpr ⟨_, member, List.mem_singleton.mpr rfl⟩
    have history := Histories.of_run h flat
    exact ⟨e, member, by rw [history.outstanding]; exact List.mem_append_left _ finishes, rfl⟩
  | _ => cases gives

/-! ## A call of run() delivers what it finds -/

/-- A step calls the next function ahead, and no other. -/
theorem Sole.ahead_step {s s' : AsyncFuncScheduler φ} {l : Label φ} (h : Sole s) (flat : Flat l) (step : Step s l s') :
    ahead s <+: Label.calls l ++ ahead s' := by
  cases h with
  | idle frames clear => simp [ahead, frames]
  | busy frames all inside =>
    cases step with
    | accept added => obtain ⟨rfl, _, rfl⟩ := add_some added; simp [ahead, frames]
    | reject refused => obtain rfl := add_none refused; simp [ahead]
    | runEmpty ready empty => simp
    | runSwap ready swapped => simp [Flat, nested, frames] at flat
    | call did =>
      obtain ⟨q, i, stop, rest, top, more, at', rfl⟩ := call_some did
      rw [frames] at top
      cases top
      obtain ⟨bound, here⟩ := List.getElem?_eq_some_iff.mp at'
      simp [ahead, frames, List.drop_eq_getElem_cons bound, here]
    | ret did =>
      obtain ⟨q, i, stop, rest, top, rfl⟩ := return_some did
      rw [frames] at top
      cases top
      simp [ahead, frames]
    | notify did =>
      obtain ⟨q, i, stop, e, rest, top, rfl, rfl⟩ := notify_some did
      rw [frames] at top
      cases top
      simp [ahead, frames]
    | leave did =>
      obtain ⟨q, i, rest, top, rfl⟩ := leave_some did
      rw [frames] at top
      cases top
      simp [ahead, frames, ← all]

/-- `run()` is called by the consumer's loop. -/
def Label.starts : Label φ → Prop
  | .runEmpty nested => nested = false
  | .runSwap nested => nested = false
  | _ => False

/-- After a call of `run()` that began in between, all that was accepted before has been called. -/
theorem called_of_started {maxEventCount : Nat} {tr₁ tr₂ : List (Label φ)} {l : Label φ} {s : AsyncFuncScheduler φ}
    (h : Run Step (.new maxEventCount) (tr₁ ++ l :: tr₂) s) (flat : ∀ l' ∈ tr₁ ++ l :: tr₂, Flat l')
    (starts : l.starts) (idle : s.frames = []) : accepted tr₁ <+: called (tr₁ ++ l :: tr₂) := by
  obtain ⟨s₁, before, after⟩ := h.split
  obtain ⟨s₂, first, rest⟩ := after.uncons
  have history := Histories.of_run before (fun l' member => flat l' (List.mem_append_left _ member))
  have flat₂ : ∀ l' ∈ tr₂, Flat l' := fun l' member => flat l' (by simp [member])
  -- what the call of `run()` found is ahead of it
  have found : Sole s₂ ∧ accepted tr₁ <+: called tr₁ ++ ahead s₂ := by
    refine ⟨(history.sole.step (flat l (by simp)) first).1, ?_⟩
    cases first with
    | runEmpty ready empty =>
      have idle₁ : s₁.frames = [] := by simpa [Label.starts, nested] using starts
      have none : s₁.queues s₁.writeQueue = [] := by
        by_contra some
        simp [swap, some] at empty
      simp [(history.idle idle₁).1, none]
    | runSwap ready swapped =>
      have idle₁ : s₁.frames = [] := by simpa [Label.starts, nested] using starts
      obtain ⟨_, rfl⟩ := swap_some swapped
      simp [(history.idle idle₁).1, ahead]
    | _ => cases starts
  have kept : Sole s ∧ accepted tr₁ <+: called tr₁ ++ called tr₂ ++ ahead s := by
    refine rest.invariant Flat (fun tr s => Sole s ∧ accepted tr₁ <+: called tr₁ ++ called tr ++ ahead s)
      ⟨found.1, by simpa [called] using found.2⟩ ?_ flat₂
    rintro tr s l s' ⟨sole, inv⟩ flat step
    refine ⟨(sole.step flat step).1, inv.trans ?_⟩
    have more := sole.ahead_step flat step
    simpa [called, List.append_assoc] using (List.prefix_append_right_inj (called tr₁ ++ called tr)).mpr more
  have none : Label.calls l = [] := by cases l <;> simp_all [Label.starts]
  have history := kept.2
  rw [show ahead s = [] by simp [ahead, idle], List.append_nil] at history
  rwa [called, List.flatMap_append, List.flatMap_cons, none, List.nil_append]

/-! ## The consumer alone drains the queues -/

/-- A step of the consumer, of functions that call nothing of the scheduler. -/
def Label.Driven : Label φ → Prop
  | .accept _ => False
  | .reject _ => False
  | .runEmpty nested => nested = false
  | .runSwap nested => nested = false
  | _ => True

theorem Label.Driven.flat {l : Label φ} (h : l.Driven) : Flat l := by
  cases l <;> simp_all [Label.Driven, Flat]

theorem accepted_driven {tr : List (Label φ)} (h : ∀ l ∈ tr, l.Driven) : accepted tr = [] := by
  refine List.flatMap_eq_nil_iff.mpr (fun l member => ?_)
  have := h l member
  cases l <;> simp_all [Label.Driven]

/-- The function being executed returns and its future is notified. -/
theorem finish_function {s : AsyncFuncScheduler φ} {q : Bool} {i stop : Nat} {stage : Stage φ}
    (frames : s.frames = [⟨q, i, stop, stage⟩]) :
    ∃ tr s', Run Step s tr s' ∧ (∀ l ∈ tr, l.Driven) ∧ s'.frames = [⟨q, i, stop, .fetch⟩] ∧
      s'.queues = s.queues ∧ s'.writeQueue = s.writeQueue := by
  cases stage with
  | fetch => exact ⟨[], s, .start, by simp, frames, rfl, rfl⟩
  | executing e =>
    have returns : Step s (.ret e .ok) _ := .ret (return_of frames .ok)
    exact ⟨[.ret e .ok, .notify e.future .ok], _, .next (.single returns) (.notify (notify_of rfl)),
      by simp [Label.Driven], rfl, rfl, rfl⟩
  | notifying e code =>
    exact ⟨[.notify e.future code], _, .single (.notify (notify_of frames)), by simp [Label.Driven], rfl, rfl, rfl⟩

/-- `n` more functions, and `run()` returns. -/
theorem finish_run : ∀ (n : Nat) {s : AsyncFuncScheduler φ} {i stop : Nat} {stage : Stage φ},
    s.frames = [⟨!s.writeQueue, i, stop, stage⟩] → stop = (s.queues (!s.writeQueue)).length → i + n = stop →
    ∃ tr s', Run Step s tr s' ∧ (∀ l ∈ tr, l.Driven) ∧ s'.frames = [] ∧
      s'.queues s'.writeQueue = s.queues s.writeQueue := by
  intro n
  induction n with
  | zero =>
    intro s i stop stage frames all last
    obtain ⟨tr, s₁, run, driven, top, queues, write⟩ := finish_function frames
    obtain rfl : i = stop := last
    refine ⟨tr ++ [.leave], _, .next run (.leave (leave_of top)), ?_, rfl, by simp [queues, write]⟩
    exact List.forall_mem_append.mpr ⟨driven, by simp [Label.Driven]⟩
  | succ n ih =>
    intro s i stop stage frames all last
    obtain ⟨tr, s₁, run, driven, top, queues, write⟩ := finish_function frames
    have bound : i < (s₁.queues (!s.writeQueue)).length := by rw [queues]; omega
    obtain ⟨s₂, l, calls, free, frames₂, queues₂, write₂⟩ : ∃ s₂ l, Step s₁ l s₂ ∧ l.Driven ∧
        s₂.frames = [⟨!s.writeQueue, i + 1, stop, .executing (s₁.queues (!s.writeQueue))[i]⟩] ∧
        s₂.queues = s₁.queues ∧ s₂.writeQueue = s₁.writeQueue :=
      ⟨_, _, .call (call_of top (by omega) (List.getElem?_eq_getElem bound)), trivial, rfl, rfl, rfl⟩
    obtain ⟨tr', s', run', driven', idle, same⟩ := ih (by rw [frames₂, write₂, write])
      (by rw [queues₂, write₂, write, queues, all]) (by omega)
    refine ⟨tr ++ l :: tr', s', run.trans (run'.cons calls), ?_, idle, by rw [same, queues₂, write₂, queues, write]⟩
    exact List.forall_mem_append.mpr ⟨driven, List.forall_mem_cons.mpr ⟨free, driven'⟩⟩

/-- **Progress**: the consumer can always go on until nothing waits. -/
theorem Sole.drains {s : AsyncFuncScheduler φ} (h : Sole s) :
    ∃ tr s', Run Step s tr s' ∧ (∀ l ∈ tr, l.Driven) ∧ s'.frames = [] ∧ s'.queues s'.writeQueue = [] := by
  have fromIdle : ∀ {s : AsyncFuncScheduler φ}, s.frames = [] → s.queues (!s.writeQueue) = [] →
      ∃ tr s', Run Step s tr s' ∧ (∀ l ∈ tr, l.Driven) ∧ s'.frames = [] ∧ s'.queues s'.writeQueue = [] := by
    intro s idle clear
    by_cases empty : (s.queues s.writeQueue).length = 0
    · exact ⟨[], s, .start, by simp, idle, List.eq_nil_of_length_eq_zero empty⟩
    · have swaps : Step s (.runSwap s.nested) { s with
          writeQueue := !s.writeQueue
          frames := ⟨s.writeQueue, 0, (s.queues s.writeQueue).length, .fetch⟩ :: s.frames } :=
        .runSwap (by simp [Ready, idle]) (by rw [swap, if_neg empty])
      obtain ⟨tr, s', run, driven, idle', same⟩ := finish_run (s.queues s.writeQueue).length
        (s := { s with
          writeQueue := !s.writeQueue
          frames := ⟨s.writeQueue, 0, (s.queues s.writeQueue).length, .fetch⟩ :: s.frames })
        (by rw [idle, Bool.not_not]) (by simp) (Nat.zero_add _)
      refine ⟨_, s', run.cons swaps, ?_, idle', by rw [same]; exact clear⟩
      simpa [Label.Driven, nested, idle] using driven
  cases h with
  | idle frames clear => exact fromIdle frames clear
  | @busy i stop stage frames all inside =>
    obtain ⟨tr, s₁, run, driven, idle, _⟩ := finish_run (stop - i) frames all (by omega)
    have sole : Sole s₁ := run.preserves Flat Sole (.busy frames all inside)
      (fun s l s' sole flat step => (sole.step flat step).1) (fun l member => (driven l member).flat)
    cases sole with
    | busy frames => rw [frames] at idle; cases idle
    | idle _ clear =>
      obtain ⟨tr', s', run', driven', idle', empty⟩ := fromIdle idle clear
      refine ⟨tr ++ tr', s', run.trans run', fun l member => ?_, idle', empty⟩
      exact (List.mem_append.mp member).elim (driven l) (driven' l)

/-- Nothing accepted is lost: a `run()` begun after it, once over, has delivered it,
and the consumer can always deliver all there is. -/
structure Complete (tr : List (Label φ)) (s : AsyncFuncScheduler φ) : Prop where
  started : ∀ tr₁ l tr₂, tr = tr₁ ++ l :: tr₂ → l.starts → s.frames = [] → ∀ e ∈ accepted tr₁,
    e ∈ called tr ∧ ∃ code, (e.future, code) ∈ returned tr ∧ (e.future, code) ∈ notified tr
  drains : ∃ tr' s', Run Step s tr' s' ∧ (∀ l ∈ tr', l.Driven) ∧ s'.frames = [] ∧
    called (tr ++ tr') = accepted tr ∧ (notified (tr ++ tr')).map Prod.fst = (accepted tr).map Event.future

theorem Complete.of_run {maxEventCount : Nat} {tr : List (Label φ)} {s : AsyncFuncScheduler φ}
    (h : Run Step (.new maxEventCount) tr s) (flat : ∀ l ∈ tr, Flat l) : Complete tr s := by
  have history := Histories.of_run h flat
  constructor
  · rintro tr₁ l tr₂ rfl starts idle e taken
    obtain ⟨_, runs, reports⟩ := history.idle idle
    have ran := (called_of_started h flat starts idle).subset taken
    have future : e.future ∈ (returned (tr₁ ++ l :: tr₂)).map Prod.fst := runs ▸ List.mem_map_of_mem ran
    obtain ⟨⟨_, code⟩, result, rfl⟩ := List.mem_map.mp future
    exact ⟨ran, code, result, reports ▸ result⟩
  · obtain ⟨tr', s', run, driven, idle, empty⟩ := history.sole.drains
    have delivery := Delivery.of_run (h.trans run)
      (List.forall_mem_append.mpr ⟨flat, fun l member => (driven l member).flat⟩)
    have same : accepted (tr ++ tr') = accepted tr := by
      have none := accepted_driven driven
      rw [accepted] at none ⊢
      rw [List.flatMap_append, none, List.append_nil, accepted]
    obtain ⟨all, told⟩ := delivery.drained idle empty
    exact ⟨tr', s', run, driven, idle, all.trans same, told.trans (by rw [same])⟩

/-- No function calls `run()`. -/
def Label.Plain : Label φ → Prop
  | .runEmpty nested => nested = false
  | .runSwap nested => nested = false
  | _ => True

theorem Label.Plain.flat {l : Label φ} (h : l.Plain) : Flat l := by
  cases l <;> first | exact h | trivial

/-- **Every accepted function is delivered exactly once**, under any interleaving of
calls of `add` with the steps of one consumer. -/
theorem scheduler_delivers_once {maxEventCount : Nat} {tr : List (Label φ)} {s : AsyncFuncScheduler φ}
    (h : Run Step (.new maxEventCount) tr s) (plain : ∀ l ∈ tr, l.Plain) :
    Delivery maxEventCount tr s ∧ Complete tr s :=
  ⟨.of_run h fun l member => (plain l member).flat, .of_run h fun l member => (plain l member).flat⟩

end

/-- Two functions, the second added while the first is executed, in two calls of `run()`. -/
def rescheduled : List (Label Nat) :=
  [.accept ⟨10, 0⟩, .runSwap false, .call ⟨10, 0⟩, .accept ⟨11, 1⟩, .ret ⟨10, 0⟩ .ok, .notify 0 .ok, .leave,
    .runSwap false, .call ⟨11, 1⟩, .ret ⟨11, 1⟩ .error, .notify 1 .error, .leave]

theorem scheduler_delivers_rescheduled : ∃ s, Delivery 1 rescheduled s ∧ Complete rescheduled s := by
  obtain ⟨s, ends⟩ := Option.isSome_iff_exists.mp
    (by decide : (rescheduled.foldlM exec (.new 1 : AsyncFuncScheduler Nat)).isSome = true)
  exact ⟨s, scheduler_delivers_once (.of_exec exec_sound ends) (by simp [rescheduled, Label.Plain])⟩

end OcsComponents.Scheduler
