import OcsComponents.Scheduler.Delivery

/-!
# The DS18B20 store

`ocs_sensor/ds18b20/store.{h,cpp}`: one node a GPIO, each with its own function
scheduler, and a `run()` that runs the nodes one after another. The bus, the sensors and
the delayer of a node are what its functions work on; they do not matter here.
-/

namespace OcsComponents.Sensor.Ds18b20
open Status OcsComponents.Core Transition Scheduler

/-- `Store::Node` -/
structure Node (φ : Type) where
  gpio : Int
  funcScheduler : AsyncFuncScheduler φ

/-- The nodes in the order they were added in, and the node a call of `Store::run()` is at. -/
structure Store (φ : Type) where
  nodes : List (Node φ)
  cursor : Option Nat

namespace Store
variable {φ : Type}

/-- The store with a node for each GPIO. -/
def new (maxEventCount : Nat) (gpios : List Int) : Store φ :=
  ⟨gpios.map fun gpio => ⟨gpio, .new maxEventCount⟩, none⟩

/-- `get_node_`, by the place of the node. -/
def getNode (s : Store φ) (gpio : Int) : Option Nat := s.nodes.findIdx? (fun node => node.gpio = gpio)

/-- The scheduler of node `i` is now `scheduler`. -/
def setNode (s : Store φ) (i : Nat) (scheduler : AsyncFuncScheduler φ) : Store φ :=
  { s with nodes := s.nodes.modify i fun node => { node with funcScheduler := scheduler } }

/-- `Store::schedule`: the node and the event, or `nullptr` without a node or without room. -/
def schedule (s : Store φ) (gpio : Int) (func : φ) (memory : Bool) : Option (Nat × Event φ) × Store φ :=
  match s.getNode gpio with
  | none => (none, s)
  | some i =>
    match s.nodes[i]? with
    | none => (none, s)
    | some node =>
      match node.funcScheduler.add func memory with
      | (some e, scheduler) => (some (i, e), s.setNode i scheduler)
      | (none, scheduler) => (none, s.setNode i scheduler)

/-- The three ends of `schedule`: no node, no room, or an event of the node. -/
theorem schedule_cases (s : Store φ) (gpio : Int) (func : φ) (memory : Bool) :
    s.schedule gpio func memory = (none, s) ∨
      ∃ (i : Nat) (node : Node φ) (scheduler : AsyncFuncScheduler φ), s.nodes[i]? = some node ∧
        (node.funcScheduler.add func memory = (none, scheduler) ∧
            s.schedule gpio func memory = (none, s.setNode i scheduler) ∨
          ∃ e, node.funcScheduler.add func memory = (some e, scheduler) ∧
            s.schedule gpio func memory = (some (i, e), s.setNode i scheduler)) := by
  cases place : s.getNode gpio with
  | none => exact Or.inl (by simp only [schedule, place])
  | some i =>
    cases found : s.nodes[i]? with
    | none => exact Or.inl (by simp only [schedule, place, found])
    | some node =>
      cases added : node.funcScheduler.add func memory with
      | mk event scheduler =>
        refine Or.inr ⟨i, node, scheduler, found, ?_⟩
        cases event with
        | none => exact Or.inl ⟨added, by simp only [schedule, place, found, added]⟩
        | some e => exact Or.inr ⟨e, added, by simp only [schedule, place, found, added]⟩

theorem setNode_nodes {s : Store φ} {i j : Nat} {scheduler : AsyncFuncScheduler φ} {node : Node φ}
    (h : (s.setNode i scheduler).nodes[j]? = some node) :
    i = j ∧ node.funcScheduler = scheduler ∨ i ≠ j ∧ s.nodes[j]? = some node := by
  simp only [setNode, List.getElem?_modify] at h
  by_cases same : i = j
  · obtain ⟨old, found, rfl⟩ : ∃ old, s.nodes[j]? = some old ∧ _ = node := by simpa [same] using h
    exact Or.inl ⟨same, rfl⟩
  · exact Or.inr ⟨same, by simpa [same] using h⟩

end Store

/-- The node's `run()` returns with this step. -/
def endsRun {φ : Type} : Label φ → Bool
  | .runEmpty _ => true
  | .leave => true
  | _ => false

inductive StoreLabel (φ : Type) where
  | enter
  | node (i : Nat) (l : Label φ)
  | exit

/-- The steps of `Store::run()`, when the functions call nothing of the store. -/
inductive StoreStep {φ : Type} (s : Store φ) : StoreLabel φ → Store φ → Prop where
  | enter (idle : s.cursor = none) : StoreStep s .enter { s with cursor := some 0 }
  | node {i node l scheduler} (here : s.cursor = some i) (found : s.nodes[i]? = some node) (driven : l.Driven)
      (step : Step node.funcScheduler l scheduler) :
      StoreStep s (.node i l) { s.setNode i scheduler with cursor := some (if endsRun l then i + 1 else i) }
  | exit (last : s.cursor = some s.nodes.length) : StoreStep s .exit { s with cursor := none }

end OcsComponents.Sensor.Ds18b20
