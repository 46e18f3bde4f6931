import OcsComponents.Control.FsmBlock

/-!
# The FSM store

`ocs_control/fsm_store.{h,cpp}`: the handlers of the states, and the run that moves the
block in two phases. A run that finds the block in transit raises a flag at its end
(`handle_transit_begin_`), and the next run commits the transition at its start
(`handle_transit_end_`). The handlers are not modelled but asked: each of their calls is
answered with the states it passes to `set_next` and the status it returns.
-/

namespace OcsComponents.Control
open Status KeyedRecord

/-- What a run calls. A call of `FsmBlock::transit` is recorded with what `is_in_transit`
answers right before it, and with the states it is about to leave and to enter. -/
inductive Call (η : Type) where
  | handleState (handler : η)
  | handleTransit (handler : η)
  | transit (inTransit : Bool) (curr next : State)
  deriving DecidableEq

/-- What a handler does when it is called. -/
structure Reply where
  requests : List State
  status : StatusCode

/-- What a run reads from outside: the clock, the statuses of the storage, and the reply
of the handler that is called first, second and so on. -/
structure Input where
  updateNow : Time
  transitNow : Time
  io : Key → StatusCode
  onTransit : Nat → Reply
  onState : Nat → Reply

/-- `FsmStore` -/
structure FsmStore (η : Type) where
  block : FsmBlock
  isTransitBegin : Bool
  stateToHandlers : State → Option (List η)

/-- The calls of a run and the store after it, `none` if a `configASSERT` failed. -/
structure Ran (η : Type) where
  calls : List (Call η)
  store : Option (FsmStore η)

/-- Code goes on unless an assertion failed. -/
def Ran.andThen {η : Type} (ran : Ran η) (k : FsmStore η → Ran η) : Ran η :=
  match ran.store with
  | none => ran
  | some s => ⟨ran.calls ++ (k s).calls, (k s).store⟩

namespace FsmStore
variable {η : Type}

/-- The constructor. -/
def new (block : FsmBlock) : FsmStore η := ⟨block, false, fun _ => none⟩

/-- `add` -/
def add (s : FsmStore η) (state : State) (handler : η) : FsmStore η :=
  { s with
    stateToHandlers := Function.update s.stateToHandlers state
      (some ((s.stateToHandlers state).getD [] ++ [handler])) }

/-- `for (auto& handler : it->second)`, from the handler called as number `i`. A status that
is not `OK` is only logged. -/
def callEach (call : η → Call η) (reply : Nat → Reply) : Nat → List η → FsmBlock → List (Call η) × FsmBlock
  | _, [], b => ([], b)
  | i, handler :: handlers, b =>
    let rest := callEach call reply (i + 1) handlers ((reply i).requests.foldl FsmBlock.setNext b)
    (call handler :: rest.1, rest.2)

/-- `handle_transit_begin_` -/
def handleTransitBegin (s : FsmStore η) : FsmStore η := { s with isTransitBegin := true }

/-- `handle_transit_end_` -/
def handleTransitEnd (s : FsmStore η) (input : Input) : Ran η :=
  match s.stateToHandlers s.block.currState with
  | none => ⟨[], none⟩
  | some handlers =>
    let called := callEach .handleTransit input.onTransit 0 handlers s.block
    let b := called.2
    ⟨called.1 ++ [.transit b.isInTransit b.currState b.nextState],
      some { s with block := (b.transit input.transitNow input.io).2, isTransitBegin := false }⟩

/-- `handle_state_` -/
def handleState (s : FsmStore η) (input : Input) : Ran η :=
  match s.stateToHandlers s.block.currState with
  | none => ⟨[], none⟩
  | some handlers =>
    let called := callEach .handleState input.onState 0 handlers s.block
    ⟨called.1, some { s with block := called.2 }⟩

/-- `run`, from the call of `handle_state_` on. -/
def runState (s : FsmStore η) (input : Input) : Ran η :=
  (s.handleState input).andThen fun s => ⟨[], some (if s.block.isInTransit then s.handleTransitBegin else s)⟩

/-- `run`, which always returns `OK`. -/
def run (s : FsmStore η) (input : Input) : Ran η :=
  let s := { s with block := s.block.update input.updateNow }
  let ended : Ran η := if s.isTransitBegin then s.handleTransitEnd input else ⟨[], some s⟩
  ended.andThen fun s => s.runState input

/-! ## The handlers -/

/-- What handlers number `i`, `i + 1`, … request, `count` of them. -/
def requests (reply : Nat → Reply) (i count : Nat) : List State :=
  (List.range' i count).flatMap fun i => (reply i).requests

theorem foldl_setNext (states : List State) (b : FsmBlock) :
    states.foldl FsmBlock.setNext b = b.setNext (states.getLastD b.nextState) := by
  induction states generalizing b with
  | nil => rfl
  | cons state states ih => rw [List.foldl_cons, ih, List.getLastD_cons]; rfl

/-- **The loop over the handlers** calls each of them once, in order, and the last request wins. -/
theorem callEach_eq (call : η → Call η) (reply : Nat → Reply) (i : Nat) (handlers : List η) (b : FsmBlock) :
    callEach call reply i handlers b =
      (handlers.map call, b.setNext ((requests reply i handlers.length).getLastD b.nextState)) := by
  induction handlers generalizing i b with
  | nil => rfl
  | cons handler handlers ih =>
    have last : ((reply i).requests ++ requests reply (i + 1) handlers.length).getLastD b.nextState =
        (requests reply (i + 1) handlers.length).getLastD ((reply i).requests.getLastD b.nextState) := by
      simp only [List.getLastD_eq_getLast?, List.getLast?_append, Option.getD_or]
    rw [callEach, ih, foldl_setNext]
    simp only [requests, List.length_cons, List.range'_succ, List.flatMap_cons, List.map_cons] at last ⊢
    rw [last]
    rfl

/-- The state that is next after the handlers have been called. -/
def lastRequest (reply : Nat → Reply) (count : Nat) (next : State) : State := (requests reply 0 count).getLastD next

theorem handleTransitEnd_eq {s : FsmStore η} {handlers : List η}
    (found : s.stateToHandlers s.block.currState = some handlers) (input : Input) :
    s.handleTransitEnd input =
      let b := s.block.setNext (lastRequest input.onTransit handlers.length s.block.nextState)
      ⟨handlers.map .handleTransit ++ [.transit b.isInTransit b.currState b.nextState],
        some { s with block := (b.transit input.transitNow input.io).2, isTransitBegin := false }⟩ := by
  simp only [handleTransitEnd, found, callEach_eq, lastRequest]

/-- **The second half of a run** calls the handlers of the current state and raises the
flag if the block is in transit then. -/
theorem runState_eq {s : FsmStore η} {handlers : List η}
    (found : s.stateToHandlers s.block.currState = some handlers) (input : Input) :
    s.runState input =
      let b := s.block.setNext (lastRequest input.onState handlers.length s.block.nextState)
      ⟨handlers.map .handleState, some { s with block := b, isTransitBegin := s.isTransitBegin || b.isInTransit }⟩ := by
  simp only [runState, handleState, found, callEach_eq, lastRequest, Ran.andThen, List.append_nil]
  split
  · next inTransit => rw [inTransit, Bool.or_true, handleTransitBegin]
  · next still => rw [Bool.of_not_eq_true still, Bool.or_false]

theorem runState_none {s : FsmStore η} (missing : s.stateToHandlers s.block.currState = none) (input : Input) :
    s.runState input = ⟨[], none⟩ := by
  simp only [runState, handleState, missing, Ran.andThen]

/-- A run with the flag down. -/
theorem run_down {s : FsmStore η} (down : s.isTransitBegin = false) (input : Input) :
    s.run input = { s with block := s.block.update input.updateNow : FsmStore η }.runState input := by
  unfold run
  simp [down, Ran.andThen]

/-- A run with the flag up. -/
theorem run_up {s : FsmStore η} (up : s.isTransitBegin = true) (input : Input) :
    s.run input = ({ s with block := s.block.update input.updateNow : FsmStore η }.handleTransitEnd input).andThen
      fun s => s.runState input := by
  unfold run
  simp [up]

/-- The handlers of a state, in the order they were registered in. -/
def handlersOf (registered : List (State × η)) (state : State) : List η :=
  (registered.filter fun r => r.1 = state).map Prod.snd

/-- The store with the handlers added one after another. -/
def register (s : FsmStore η) (registered : List (State × η)) : FsmStore η :=
  registered.foldl (fun s r => s.add r.1 r.2) s

/-- The handlers registered for a block just constructed. -/
def start (registered : List (State × η)) (resolution : Time) (storage : Storage) (io : Key → StatusCode) : FsmStore η :=
  (FsmStore.new (.new resolution storage io)).register registered

theorem register_block (s : FsmStore η) (registered : List (State × η)) : (s.register registered).block = s.block := by
  induction registered generalizing s with
  | nil => rfl
  | cons r registered ih => exact ih (s.add r.1 r.2)

theorem register_flag (s : FsmStore η) (registered : List (State × η)) :
    (s.register registered).isTransitBegin = s.isTransitBegin := by
  induction registered generalizing s with
  | nil => rfl
  | cons r registered ih => exact ih (s.add r.1 r.2)

theorem register_handlers (s : FsmStore η) (registered : List (State × η)) (state : State) :
    (s.register registered).stateToHandlers state =
      if handlersOf registered state = [] then s.stateToHandlers state
      else some ((s.stateToHandlers state).getD [] ++ handlersOf registered state) := by
  induction registered generalizing s with
  | nil => rfl
  | cons r registered ih =>
    rw [register, List.foldl_cons, ← register, ih]
    by_cases here : r.1 = state
    · have added : (s.add r.1 r.2).stateToHandlers state = some ((s.stateToHandlers state).getD [] ++ [r.2]) := by
        rw [← here]
        exact Function.update_self ..
      have first : handlersOf (r :: registered) state = r.2 :: handlersOf registered state := by
        simp [handlersOf, here]
      rw [added, first, if_neg (List.cons_ne_nil _ _)]
      split
      · next none => rw [none]
      · simp
    · have other : (s.add r.1 r.2).stateToHandlers state = s.stateToHandlers state :=
        Function.update_of_ne (Ne.symm here) _ _
      have rest : handlersOf (r :: registered) state = handlersOf registered state := by
        simp [handlersOf, here]
      rw [other, rest]

end FsmStore

end OcsComponents.Control
