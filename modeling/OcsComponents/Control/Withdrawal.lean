import OcsComponents.Control.FsmStore

/-!
# Requests that are withdrawn

Here anyone may call `set_next`, with any state, between two runs as well as in a handler. The run
that raises the flag has asked `is_in_transit`; the one that commits does not ask again.
It enters whatever is next by then: the state last requested in the `handle_transit`
calls that come first, or what `next_state_` was before the run. So a transition is one that is
requested exactly where this state is neither 0 nor the current one (`commits_requested`).
-/

namespace OcsComponents.Control.Withdrawal
open Status FsmStore

variable {η : Type}

/-- A call of `set_next` between two runs, or a run. -/
inductive Event where
  | setNext (state : State)
  | run (input : Input)

def exec (s : FsmStore η) : Event → Ran η
  | .setNext state => ⟨[], some { s with block := s.block.setNext state }⟩
  | .run input => s.run input

/-- The events one after another, up to an assertion that fails. -/
def history (s : FsmStore η) : List Event → Ran η
  | [] => ⟨[], some s⟩
  | event :: events => (exec s event).andThen fun s' => history s' events

/-- The block is in transit when `FsmBlock::transit` is called. -/
def InTransit : Call η → Prop
  | .transit inTransit _ _ => inTransit = true
  | _ => True

instance (call : Call η) : Decidable (InTransit call) :=
  match call with
  | .handleState _ => isTrue trivial
  | .handleTransit _ => isTrue trivial
  | .transit inTransit _ _ => inferInstanceAs (Decidable (inTransit = true))

/-- What is next when the flag is up and the handlers have been told is still a request to
move. -/
def Requested (s : FsmStore η) : Event → Prop
  | .setNext _ => True
  | .run input => s.isTransitBegin = true → ∀ handlers, s.stateToHandlers s.block.currState = some handlers →
      lastRequest input.onTransit handlers.length s.block.nextState ≠ 0 ∧
        lastRequest input.onTransit handlers.length s.block.nextState ≠ s.block.currState

/-- Every event of the history meets the condition. -/
def AllRequested (s : FsmStore η) : List Event → Prop
  | [] => True
  | event :: events => Requested s event ∧ ∀ s', (exec s event).store = some s' → AllRequested s' events

theorem isInTransit_iff (b : FsmBlock) : b.isInTransit = true ↔ b.nextState ≠ 0 ∧ b.nextState ≠ b.currState := by
  rw [FsmBlock.isInTransit, Bool.and_eq_true, bne_iff_ne, bne_iff_ne, ne_comm (a := b.currState)]

theorem andThen_calls (ran : Ran η) (k : FsmStore η → Ran η) (call : Call η) :
    call ∈ (ran.andThen k).calls ↔ call ∈ ran.calls ∨ ∃ s', ran.store = some s' ∧ call ∈ (k s').calls := by
  unfold Ran.andThen
  split
  · next failed => simp [failed]
  · next s' store => simp [store]

/-- The second half of a run commits nothing. -/
theorem runState_commits (s : FsmStore η) (input : Input) (inTransit : Bool) (curr next : State) :
    Call.transit inTransit curr next ∉ (s.runState input).calls := by
  cases found : s.stateToHandlers s.block.currState with
  | none => simp [runState_none found]
  | some handlers => simp [runState_eq found]

/-- The commit of the first half. -/
theorem handleTransitEnd_commits (s : FsmStore η) (input : Input) (inTransit : Bool) (curr next : State) :
    Call.transit inTransit curr next ∈ (s.handleTransitEnd input).calls ↔
      ∃ handlers, s.stateToHandlers s.block.currState = some handlers ∧ curr = s.block.currState ∧
        next = lastRequest input.onTransit handlers.length s.block.nextState ∧
        inTransit = (s.block.setNext next).isInTransit := by
  cases found : s.stateToHandlers s.block.currState with
  | none => simp [handleTransitEnd, found]
  | some handlers =>
    rw [handleTransitEnd_eq found]
    constructor
    · intro member
      obtain ⟨rfl, rfl, rfl⟩ : inTransit = _ ∧ curr = _ ∧ next = _ := by simpa using member
      exact ⟨handlers, rfl, rfl, rfl, rfl⟩
    · rintro ⟨_, same, rfl, rfl, rfl⟩
      cases same
      simp [FsmBlock.setNext]

/-- **The commit of a run**: there is one where the flag is up and the current state has
handlers, into the state that is next after these have been called. -/
theorem run_commits (s : FsmStore η) (input : Input) (inTransit : Bool) (curr next : State) :
    Call.transit inTransit curr next ∈ (s.run input).calls ↔
      s.isTransitBegin = true ∧ ∃ handlers, s.stateToHandlers s.block.currState = some handlers ∧
        curr = s.block.currState ∧ next = lastRequest input.onTransit handlers.length s.block.nextState ∧
        inTransit = (s.block.setNext next).isInTransit := by
  cases flag : s.isTransitBegin with
  | false =>
    rw [run_down flag]
    simp [runState_commits]
  | true =>
    rw [run_up flag, andThen_calls, handleTransitEnd_commits]
    simp only [runState_commits, and_false, exists_false, or_false, true_and]
    rfl

/-- **One event** commits requested transitions only, if it meets the condition and only then. -/
theorem exec_requested_iff (s : FsmStore η) (event : Event) :
    (∀ call ∈ (exec s event).calls, InTransit call) ↔ Requested s event := by
  cases event with
  | setNext state => simp [exec, Requested]
  | run input =>
    constructor
    · intro all up handlers found
      have commit := all _ ((run_commits s input _ _ _).mpr ⟨up, handlers, found, rfl, rfl, rfl⟩)
      exact (isInTransit_iff _).mp commit
    · intro requested call member
      cases call with
      | handleState handler => trivial
      | handleTransit handler => trivial
      | transit inTransit curr next =>
        obtain ⟨up, handlers, found, rfl, rfl, rfl⟩ := (run_commits s input inTransit curr next).mp member
        exact (isInTransit_iff _).mpr (requested up handlers found)

/-- What a commit is recorded with says whether it was requested. -/
theorem run_inTransit_iff {s : FsmStore η} {input : Input} {inTransit : Bool} {curr next : State}
    (h : Call.transit inTransit curr next ∈ (s.run input).calls) : inTransit = true ↔ next ≠ 0 ∧ next ≠ curr := by
  obtain ⟨_, _, _, rfl, _, rfl⟩ := (run_commits s input inTransit curr next).mp h
  exact isInTransit_iff _

theorem history_inTransit_iff {s : FsmStore η} {events : List Event} {inTransit : Bool} {curr next : State}
    (h : Call.transit inTransit curr next ∈ (history s events).calls) : inTransit = true ↔ next ≠ 0 ∧ next ≠ curr := by
  induction events generalizing s with
  | nil => cases h
  | cons event events ih =>
    rw [history, andThen_calls] at h
    rcases h with now | ⟨s', _, later⟩
    · cases event with
      | setNext state => cases now
      | run input => exact run_inTransit_iff now
    · exact ih later

/-- **Only what is requested is committed, exactly where every run meets the condition.**
Then no transition enters state 0, and none enters the state it leaves. -/
theorem commits_requested (s : FsmStore η) (events : List Event) :
    ((∀ call ∈ (history s events).calls, InTransit call) ↔ AllRequested s events) ∧
      (AllRequested s events → ∀ inTransit curr next,
        Call.transit inTransit curr next ∈ (history s events).calls → next ≠ 0 ∧ next ≠ curr) := by
  have same : (∀ call ∈ (history s events).calls, InTransit call) ↔ AllRequested s events := by
    induction events generalizing s with
    | nil => simp [history, AllRequested]
    | cons event events ih =>
      simp only [history, andThen_calls, AllRequested, ← ih, ← exec_requested_iff]
      constructor
      · intro all
        exact ⟨fun call now => all call (Or.inl now), fun s' store call later => all call (Or.inr ⟨s', store, later⟩)⟩
      · rintro ⟨now, later⟩ call (member | ⟨s', store, member⟩)
        · exact now call member
        · exact later s' store call member
  refine ⟨same, ?_⟩
  intro requested inTransit curr next commit
  exact (history_inTransit_iff commit).mp (same.mpr requested _ commit)

/-- No handler asks for anything. -/
def quiet : Input := ⟨0, 0, allOk, fun _ => ⟨[], .ok⟩, fun _ => ⟨[], .ok⟩⟩

/-- A request that is replaced by another one in time. -/
theorem commits_requested_replaced :
    let s : FsmStore Nat := start [(0, 10), (1, 11), (2, 12)] 1 (fun _ => none) allOk
    ∀ inTransit curr next,
      Call.transit inTransit curr next ∈
        (history s [.setNext 1, .run quiet, .setNext 2, .run quiet]).calls → next ≠ 0 ∧ next ≠ curr := by
  intro s
  have met := commits_requested s [.setNext 1, .run quiet, .setNext 2, .run quiet]
  exact met.2 (met.1.mp (by decide))

/-- **A withdrawn request is committed.** From state 1 state 2 is requested, and the request is
replaced by 0 or by 1 before the commit. -/
theorem withdrawn_commits :
    let s : FsmStore Nat := start [(0, 10), (1, 11), (2, 12)] 1 (fun _ => none) allOk
    let first : List Event := [.setNext 1, .run quiet, .run quiet, .setNext 2, .run quiet]
    Call.transit false 1 0 ∈ (history s (first ++ [.setNext 0, .run quiet])).calls ∧
      Call.transit false 1 1 ∈ (history s (first ++ [.setNext 1, .run quiet])).calls := by
  decide

end OcsComponents.Control.Withdrawal
