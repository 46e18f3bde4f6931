import OcsComponents.Lib.Transition
import OcsComponents.Control.FsmStore

/-!
# The two phases of a transition

The handlers are those of a fixed registration, `set_next` is called from `handle_state`
only, and only with states that are not 0 and have handlers. Between two runs the flag of the
store is then what the block answers (`Agrees`), so a run commits what the one before
left requested, and no lookup of handlers fails.
-/

namespace OcsComponents.Control.TwoPhase
open Status Transition FsmStore

variable {η : Type}

/-- The state has handlers. -/
def Registered (registered : List (State × η)) (state : State) : Prop := handlersOf registered state ≠ []

instance (registered : List (State × η)) (state : State) : Decidable (Registered registered state) :=
  decidable_of_iff ((handlersOf registered state).isEmpty = false) (by simp [Registered])

/-- `set_next` is called from `handle_state` only, with states that have handlers. -/
structure Disciplined (registered : List (State × η)) (input : Input) : Prop where
  onTransit : ∀ i, (input.onTransit i).requests = []
  onState : ∀ i, ∀ state ∈ (input.onState i).requests, state ≠ 0 ∧ Registered registered state

/-- The flag of the store is what the block answers, and the states have handlers. -/
structure Agrees (registered : List (State × η)) (s : FsmStore η) : Prop where
  handlers : ∀ state, Registered registered state → s.stateToHandlers state = some (handlersOf registered state)
  flag : s.isTransitBegin = s.block.isInTransit
  curr : Registered registered s.block.currState
  next : s.block.nextState = 0 ∨ Registered registered s.block.nextState

section
variable {registered : List (State × η)} {s : FsmStore η} {input : Input}

theorem requests_onTransit (disciplined : Disciplined registered input) (i count : Nat) :
    requests input.onTransit i count = [] := by
  simp [requests, disciplined.onTransit]

theorem lastRequest_registered (disciplined : Disciplined registered input) (count : Nat) {next : State}
    (h : next = 0 ∨ Registered registered next) :
    lastRequest input.onState count next = 0 ∨ Registered registered (lastRequest input.onState count next) := by
  rcases List.mem_cons.mp (List.getLastD_mem_cons (l := requests input.onState 0 count) (a := next)) with same | member
  · rw [lastRequest, same]
    exact h
  · obtain ⟨i, _, requested⟩ := List.mem_flatMap.mp member
    exact Or.inr (disciplined.onState i _ requested).2

/-- **The second half of a run** leaves the flag as the block answers. -/
theorem runState_agrees (disciplined : Disciplined registered input) (down : s.isTransitBegin = false)
    (handlers : ∀ state, Registered registered state → s.stateToHandlers state = some (handlersOf registered state))
    (curr : Registered registered s.block.currState)
    (next : s.block.nextState = 0 ∨ Registered registered s.block.nextState) :
    ∃ s', s.runState input = ⟨(handlersOf registered s.block.currState).map .handleState, some s'⟩ ∧
      Agrees registered s' ∧ s'.block.currState = s.block.currState := by
  refine ⟨_, runState_eq (handlers _ curr) input, ?_, rfl⟩
  exact {
    handlers := handlers
    flag := by rw [down, Bool.false_or]
    curr := curr
    next := lastRequest_registered disciplined _ next }

/-- **The first half of a run** commits what was requested before it. -/
theorem handleTransitEnd_disciplined {handlers : List η} (disciplined : Disciplined registered input)
    (found : s.stateToHandlers s.block.currState = some handlers) :
    s.handleTransitEnd input =
      ⟨handlers.map .handleTransit ++ [.transit s.block.isInTransit s.block.currState s.block.nextState],
        some { s with block := (s.block.transit input.transitNow input.io).2, isTransitBegin := false }⟩ := by
  have unanswered : lastRequest input.onTransit handlers.length s.block.nextState = s.block.nextState := by
    rw [lastRequest, requests_onTransit disciplined, List.getLastD_nil]
  rw [handleTransitEnd_eq found, unanswered]
  rfl

/-- **One run**: the transition requested, if there is one, then the handlers of the state
the block is in. -/
theorem run_agrees (agrees : Agrees registered s) (disciplined : Disciplined registered input) :
    ∃ s', s.run input =
        ⟨(if s.block.isInTransit then
            (handlersOf registered s.block.currState).map .handleTransit ++
              [.transit true s.block.currState s.block.nextState]
          else []) ++ (handlersOf registered s'.block.currState).map .handleState, some s'⟩ ∧
      Agrees registered s' ∧
      s'.block.currState = if s.block.isInTransit then s.block.nextState else s.block.currState := by
  by_cases moving : s.block.isInTransit = true
  · have up : s.isTransitBegin = true := agrees.flag.trans moving
    have goal : Registered registered s.block.nextState := by
      rcases agrees.next with zero | registered
      · simp [FsmBlock.isInTransit, zero] at moving
      · exact registered
    obtain ⟨_, entered, cleared⟩ :=
      FsmBlock.transit_states (s.block.update input.updateNow) input.transitNow input.io
    obtain ⟨s', ran, agrees', curr⟩ := runState_agrees
      (s := { s with
        block := ((s.block.update input.updateNow).transit input.transitNow input.io).2, isTransitBegin := false })
      disciplined rfl agrees.handlers (entered ▸ goal) (Or.inl cleared)
    have curr' : s'.block.currState = s.block.nextState := curr.trans entered
    refine ⟨s', ?_, agrees', by rw [curr', if_pos moving]⟩
    have ended := handleTransitEnd_disciplined (s := { s with block := s.block.update input.updateNow })
      disciplined (agrees.handlers _ agrees.curr)
    have answer : (s.block.update input.updateNow).isInTransit = true := moving
    rw [run_up up, ended, answer, Ran.andThen]
    dsimp only
    rw [ran, curr', if_pos moving]
    simp only [entered]
    rfl
  · have still : s.block.isInTransit = false := Bool.of_not_eq_true moving
    have down : s.isTransitBegin = false := agrees.flag.trans still
    obtain ⟨s', ran, agrees', curr⟩ := runState_agrees (s := { s with block := s.block.update input.updateNow })
      disciplined down agrees.handlers agrees.curr agrees.next
    refine ⟨s', ?_, agrees', ?_⟩
    · rw [run_down down, ran, curr]
      simp [still, FsmBlock.update]
    · rw [curr]
      simp [still, FsmBlock.update]

end

/-! ## Every sequence of runs -/

def Step (s : FsmStore η) (input : Input) (s' : FsmStore η) : Prop := (s.run input).store = some s'

theorem start_agrees {registered : List (State × η)} {resolution : Time} {storage : Storage} {io : Key → StatusCode}
    (initial : Registered registered (FsmBlock.new resolution storage io).currState) :
    Agrees registered (start registered resolution storage io) := by
  have block : (start registered resolution storage io).block = .new resolution storage io := register_block ..
  have down : (start registered resolution storage io).isTransitBegin = false := register_flag ..
  exact {
    handlers := fun state some => by
      rw [start, register_handlers, if_neg some]
      rfl
    flag := by
      rw [down, block, FsmBlock.isInTransit, FsmBlock.new_nextState]
      rfl
    curr := by rwa [block]
    next := Or.inl (by rw [block, FsmBlock.new_nextState]) }

theorem run_agree {registered : List (State × η)} {resolution : Time} {storage : Storage} {io : Key → StatusCode}
    (initial : Registered registered (FsmBlock.new resolution storage io).currState) {tr : List Input} {s : FsmStore η}
    (h : Run Step (start registered resolution storage io) tr s) (disciplined : ∀ input ∈ tr, Disciplined registered input) :
    Agrees registered s := by
  refine h.preserves (Disciplined registered) (Agrees registered) (start_agrees initial) ?_ disciplined
  intro s input s'' agrees disciplined step
  obtain ⟨s', ran, agrees', _⟩ := run_agrees agrees disciplined
  have same : some s'' = some s' := step.symm.trans (congrArg Ran.store ran)
  rwa [Option.some.inj same]

/-- **The two-phase protocol.** After any sequence of runs the next one fails no
assertion. If the block was left in transit, it calls `handle_transit` on the handlers of
the current state and commits the transition; in any case it then calls `handle_state` on
the handlers of the state the block is in, and nothing else. -/
theorem two_phase {registered : List (State × η)} {resolution : Time} {storage : Storage} {io : Key → StatusCode}
    (initial : Registered registered (FsmBlock.new resolution storage io).currState) {tr : List Input} {s : FsmStore η}
    (h : Run Step (start registered resolution storage io) tr s) (disciplined : ∀ input ∈ tr, Disciplined registered input)
    {input : Input} (now : Disciplined registered input) :
    ∃ s', s.run input =
        ⟨(if s.block.isInTransit then
            (handlersOf registered s.block.currState).map .handleTransit ++
              [.transit true s.block.currState s.block.nextState]
          else []) ++ (handlersOf registered s'.block.currState).map .handleState, some s'⟩ ∧
      s'.block.currState = if s.block.isInTransit then s.block.nextState else s.block.currState := by
  obtain ⟨s', ran, _, curr⟩ := run_agrees (run_agree initial h disciplined) now
  exact ⟨s', ran, curr⟩

/-- Every handler of a state asks for state 1, and everything that can fail fails. -/
def askFirst : Input := ⟨0, 0, fun _ => .error, fun _ => ⟨[], .error⟩, fun _ => ⟨[1], .error⟩⟩

theorem askFirst_disciplined : Disciplined [((0 : State), 10), (1, 11), (1, 12)] askFirst where
  onTransit := fun _ => rfl
  onState := by
    intro i state member
    cases List.mem_singleton.mp member
    exact ⟨by decide, by decide⟩

theorem two_phase_askFirst :
    ∃ s s' : FsmStore Nat, Step (start [(0, 10), (1, 11), (1, 12)] 1 (fun _ => none) allOk) askFirst s ∧
      s.run askFirst =
        ⟨[.handleTransit 10, .transit true 0 1, .handleState 11, .handleState 12], some s'⟩ := by
  let s₀ : FsmStore Nat := start [(0, 10), (1, 11), (1, 12)] 1 (fun _ => none) allOk
  let s := (s₀.run askFirst).store.get (by decide)
  have step : Step s₀ askFirst s := (Option.some_get _).symm
  obtain ⟨s', ran, curr⟩ := two_phase (by decide) (.single step)
    (fun input member => List.mem_singleton.mp member ▸ askFirst_disciplined) askFirst_disciplined
  have moved : s'.block.currState = 1 := curr.trans (by decide)
  refine ⟨s, s', step, ran.trans ?_⟩
  rw [moved]
  exact congrArg (fun calls => (⟨calls, some s'⟩ : Ran Nat)) (by decide)

end OcsComponents.Control.TwoPhase
