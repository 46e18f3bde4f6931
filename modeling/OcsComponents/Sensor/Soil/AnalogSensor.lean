import OcsComponents.Control.FsmBlock
import OcsComponents.Lib.Transition

/-!
# The analog soil sensor

`ocs_sensor/soil/analog_sensor.{h,cpp}`. A call of `run()` carries what it meets: the answers of
the ADC, the readings of the clock by `update` and `transit`, and the storage's answers to
the write of the block. `int` and `unsigned` are 32 bits wide, and a comparison of the two is one of `unsigned`.
The moisture is computed in `float` and not modelled.
-/

namespace OcsComponents.Sensor.Soil
open Status Transition OcsComponents.Control

/-- `SoilStatus`: its enumerators, and the values a cast can give it besides. -/
inductive SoilStatus where
  | none
  | saturated
  | wet
  | depletion
  | dry
  | error
  | last
  | unnamed (value : State)
  deriving DecidableEq, Repr

namespace SoilStatus

/-- `static_cast<control::FsmBlock::State>`. -/
def toState : SoilStatus → State
  | none => 0
  | saturated => 1
  | wet => 2
  | depletion => 3
  | dry => 4
  | error => 5
  | last => 6
  | unnamed value => value

/-- `static_cast<SoilStatus>`. -/
def ofState (state : State) : SoilStatus :=
  match state.toNat with
  | 0 => none
  | 1 => saturated
  | 2 => wet
  | 3 => depletion
  | 4 => dry
  | 5 => error
  | 6 => last
  | _ => unnamed state

end SoilStatus

def parseStatus (state : State) : SoilStatus :=
  if state < SoilStatus.none.toState ∧ state ≥ SoilStatus.last.toState then .none else .ofState state

/-- `AnalogSensor::Params`, with the constructor's assertion. -/
structure Params where
  valueMin : BitVec 32
  valueMax : BitVec 32
  valid : valueMin < valueMax

namespace Params

/-- `status_count_`: saturated, wet, depletion, dry. -/
def statusCount : BitVec 32 := 4

/-- `status_len_`, a `uint16_t`. -/
def statusLen (p : Params) : BitVec 16 := ((p.valueMax - p.valueMin) / statusCount).setWidth 16

def calculateStatus (p : Params) (raw : BitVec 32) : SoilStatus :=
  let len := p.statusLen.setWidth 32
  if raw < p.valueMin ∨ raw > p.valueMax then .error
  else if raw < p.valueMin + len then .saturated
  else if raw < p.valueMin + len + len then .wet
  else if raw < p.valueMin + len + len + len then .depletion
  else .dry

/-- `calculate_status_position_`. There is no result where the length is 0 and divided by. -/
def calculateStatusPosition (p : Params) (raw : BitVec 32) : Option (BitVec 16) :=
  if raw < p.valueMin then some (-1)
  else
    let len := p.statusLen.setWidth 32
    let offset := raw - p.valueMin
    if len = 0 then none
    else
      let count := offset / len
      let pos := offset - len * count
      some (pos.setWidth 16)

end Params

/-- `AnalogSensor::Data`. -/
structure Data where
  raw : BitVec 32 := 0
  voltage : BitVec 32 := 0
  prevStatus : SoilStatus := .none
  currStatus : SoilStatus := .none
  prevStatusDuration : Time := 0
  currStatusDuration : Time := 0
  writeCount : BitVec 64 := 0
  statusLen : BitVec 16 := 0
  statusPos : BitVec 16 := 0

/-- What a call of `run()` meets. -/
structure Reading where
  read : StatusCode × BitVec 32
  convert : StatusCode × BitVec 32
  updated : Time
  moved : Time
  io : Key → StatusCode

/-- Both calls of the ADC succeed. -/
abbrev Reading.Good (r : Reading) : Prop := r.read.1 = .ok ∧ r.convert.1 = .ok

structure AnalogSensor where
  params : Params
  block : FsmBlock
  data : Data

namespace AnalogSensor

def new (params : Params) (block : FsmBlock) : AnalogSensor := ⟨params, block, {}⟩

/-- `update_data_`. -/
def updateData (s : AnalogSensor) (raw voltage : BitVec 32) : Option AnalogSensor := do
  let pos ← s.params.calculateStatusPosition raw
  return { s with data := {
    raw, voltage
    prevStatus := parseStatus s.block.prevState
    currStatus := parseStatus s.block.currState
    prevStatusDuration := s.block.prevStateDur
    currStatusDuration := s.block.currStateDur
    writeCount := s.block.writeCount
    statusLen := s.params.statusLen
    statusPos := pos } }

/-- What `run()` does with the block; a failed `transit` is only logged. -/
def advance (b : FsmBlock) (status : SoilStatus) (r : Reading) : FsmBlock :=
  let b := (b.update r.updated).setNext status.toState
  if b.isInTransit then (b.transit r.moved r.io).2 else b

/-- `run`. There is no result where it traps. -/
def run (s : AnalogSensor) (r : Reading) : Option (StatusCode × AnalogSensor) :=
  if r.read.1 ≠ .ok then some (r.read.1, s)
  else if r.convert.1 ≠ .ok then some (r.convert.1, s)
  else do
    let s' ← { s with block := advance s.block (s.params.calculateStatus r.read.2) r }.updateData r.read.2 r.convert.2
    return (.ok, s')

end AnalogSensor

/-- A call of `run()` that returns. -/
def Step (s : AnalogSensor) (r : Reading) (s' : AnalogSensor) : Prop := ∃ code, s.run r = some (code, s')

end OcsComponents.Sensor.Soil
