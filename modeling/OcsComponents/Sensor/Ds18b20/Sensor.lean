import OcsComponents.Lib.Transition
import OcsComponents.Sensor.Ds18b20.Scratchpad
import Mathlib.Tactic.IntervalCases

/-!
# The DS18B20 sensor

`ocs_sensor/ds18b20/sensor.{h,cpp}`: what a sensor object holds, and `Sensor::run()`. The
bus of a sensor is one of `buses`, and between two calls the buses may do anything: every
call starts in any state of them. `Published` is what the readers of `get_data()` rely on.
-/

set_option linter.dupNamespace false

namespace OcsComponents.Sensor.Ds18b20
open Status OcsComponents.OneWire Transition

/-- `Sensor::Configuration::Resolution`. -/
inductive Resolution where
  | none
  | bit12
  | bit11
  | bit10
  | bit9
  deriving DecidableEq, Repr

/-- `Sensor::Configuration`, packed, so that `memcmp` compares its values. -/
structure Configuration where
  romCode : RomCode
  resolution : Resolution
  deriving DecidableEq, Repr

/-- The default-constructed configuration. -/
def Configuration.new : Configuration := ⟨.new, .none⟩

/-- `Sensor`, with its bus as one of `ι`. -/
structure Sensor (ι : Type) where
  id : String
  bus : Option ι
  configuration : Configuration
  data : ℚ
  deriving DecidableEq

namespace Sensor
variable {ι β : Type} (buses : ι → Bus β)

/-- The constructor; `data` is what the memory of `data_` holds. -/
def new (id : String) (data : ℚ) : Sensor ι := ⟨id, none, .new, data⟩

/-- `Sensor::configured`. -/
def configured (s : Sensor ι) : Bool := s.bus.isSome

/-- The bus operations of `Sensor::run`, into a new scratchpad. -/
def convert (B : Bus β) (romCode : RomCode) (w : β) : StatusCode × Scratchpad × β :=
  let (code, w) := romCode.matchOn B w
  returnOnError (code, Scratchpad.new, w) fun (pad, w) =>
    -- `Command::ConvertT`
    let (code, w) := B.writeByte 0x44 w
    returnOnError (code, pad, w) fun (pad, w) => pad.read B romCode w

/-- `Sensor::run`. -/
def run (s : Sensor ι) (w : β) : StatusCode × Sensor ι × β :=
  match s.bus with
  | none => (.invalidState, s, w)
  | some i =>
    let (code, pad, w) := convert (buses i) s.configuration.romCode w
    returnOnError (code, s, w) fun (s, w) =>
      (.ok, if pad.valid then { s with data := pad.getTemperature } else s, w)

/-- The nine bytes that the bus has for a `run()` in the state `w`, if every slot works. -/
def delivered (s : Sensor ι) (w : β) : Option Scratchpad :=
  match s.bus with
  | none => none
  | some i =>
    match convert (buses i) s.configuration.romCode w with
    | (.ok, pad, _) => some pad
    | _ => none

/-- A call of `run()`: what the bus had for it, what it returned, and `get_data()` after it. -/
structure Measured where
  delivered : Option Scratchpad
  code : StatusCode
  data : ℚ
  deriving DecidableEq

inductive Step : Sensor ι → Measured → Sensor ι → Prop
  | run {s s' w w' code} (ran : s.run buses w = (code, s', w')) : Step s ⟨s.delivered buses w, code, s'.data⟩ s'

/-- What a call does with the value that was published `before`. -/
structure Measured.Right (before : ℚ) (m : Measured) : Prop where
  decoded : ∀ pad, m.delivered = some pad → pad.valid = true → pad.SignExtended → m.data = pad.celsius
  kept : (m.code ≠ .ok ∨ ∀ pad, m.delivered = some pad → pad.valid = false) → m.data = before

/-- Every call does right by the one before it. -/
def Published : ℚ → List Measured → Prop
  | _, [] => True
  | before, m :: ms => m.Right before ∧ Published m.data ms

/-- The scratchpads that the code decodes as the device means them. -/
def Measured.Readable (m : Measured) : Prop :=
  ∀ pad, m.delivered = some pad → pad.valid = true → pad.SignExtended → pad.NonNegative ∨ pad.MinusSixtyFour

variable {buses}

/-- The ends of a call: a failure that changes nothing, or a scratchpad. -/
theorem Step.cases {s s' : Sensor ι} {m : Measured} (h : Step buses s m s') :
    m.data = s'.data ∧ (m.delivered = none ∧ m.code ≠ .ok ∧ s' = s ∨
      ∃ pad, m.delivered = some pad ∧ m.code = .ok ∧
        s' = if pad.valid then { s with data := pad.getTemperature } else s) := by
  cases h with
  | @run _ w w' code ran =>
    refine ⟨rfl, ?_⟩
    obtain ⟨id, bus, configuration, data⟩ := s
    unfold Sensor.run at ran
    show Sensor.delivered _ _ w = _ ∧ _ ∨ ∃ pad, Sensor.delivered _ _ w = _ ∧ _
    unfold delivered
    cases bus with
    | none =>
      cases ran
      exact Or.inl ⟨rfl, nofun, rfl⟩
    | some i =>
      rcases converted : convert (buses i) configuration.romCode w with ⟨code', pad, w₁⟩
      simp only [converted] at ran ⊢
      by_cases good : code' = .ok
      · subst good
        cases ran
        exact Or.inr ⟨pad, rfl, rfl, rfl⟩
      · rw [returnOnError_fail _ _ good] at ran
        cases ran
        refine Or.inl ⟨?_, good, rfl⟩
        split
        · rename_i same
          cases same
          exact absurd rfl good
        · rfl

/-- One call does right when the scratchpad is readable, and only then. -/
theorem Step.right_iff {s s' : Sensor ι} {m : Measured} (h : Step buses s m s') :
    m.Right s.data ↔ m.Readable := by
  obtain ⟨data, ⟨nothing, failed, rfl⟩ | ⟨pad, got, good, after⟩⟩ := h.cases
  · have none : ∀ pad, m.delivered ≠ some pad := fun pad got => by rw [nothing] at got; cases got
    exact iff_of_true ⟨fun pad got => absurd got (none pad), fun _ => data⟩ fun pad got => absurd got (none pad)
  · constructor
    · intro right pad' got' valid extended
      rw [← Scratchpad.decodes_iff extended, ← right.decoded pad' got' valid extended, data, after]
      obtain rfl : pad = pad' := Option.some.inj (got.symm.trans got')
      rw [if_pos valid]
    · intro readable
      refine ⟨fun pad' got' valid extended => ?_, fun bad => ?_⟩
      · obtain rfl : pad = pad' := Option.some.inj (got.symm.trans got')
        rw [data, after, if_pos valid]
        exact (Scratchpad.decodes_iff extended).mpr (readable pad got valid extended)
      · rcases bad with failed | invalid
        · exact absurd good failed
        · rw [data, after, invalid pad got]
          rfl

/-- **The published temperature**: over any calls of `run()`, every value is the device's
reading exactly when no scratchpad has a negative reading other than −64 °C. -/
theorem published_iff {s t : Sensor ι} {ms : List Measured} (run : Run (Step buses) s ms t) :
    Published s.data ms ↔ ∀ m ∈ ms, m.Readable := by
  induction ms generalizing s with
  | nil => exact iff_of_true trivial fun m member => absurd member (by simp)
  | cons m ms ih =>
    obtain ⟨s', first, rest⟩ := run.uncons
    show m.Right s.data ∧ Published m.data ms ↔ _
    rw [first.right_iff, first.cases.1, ih rest, List.forall_mem_cons]

/-! ## Readings of a bus that follows a script -/

/-- A bus on which every slot works and the read slots give the bits of the state. -/
def scripted : Bus (List Bool) where
  reset := fun w => (.ok, w)
  writeBit := fun _ w => (.ok, w)
  readBit := fun w => ((.ok, w.headD true), w.tail)

/-- Bytes in the order of the wire. -/
def wireBits (bytes : List (BitVec 8)) : List Bool :=
  bytes.flatMap fun byte => (List.range 8).map byte.getLsbD

/-- A sensor on the scripted bus. -/
def onScript : Sensor Unit := ⟨"sensor", some (), .new, 0⟩

/-- −0.5 °C at 12 bits. -/
def halfBelow : Scratchpad := ⟨#v[0xF8, 0xFF, 0x4B, 0x46, 0x7F, 0xFF, 0x08, 0x10, 0xF8]⟩

/-- +25.0625 °C at 12 bits. -/
def spring : Scratchpad := ⟨#v[0x91, 0x01, 0x4B, 0x46, 0x7F, 0xFF, 0x08, 0x10, 0x4B]⟩

example : spring.valid = true ∧ spring.getTemperature = spring.celsius := by decide +kernel

/-- A call of `run()` that finds `pad` on the scripted bus. -/
theorem step_script (s s' : Sensor Unit) (pad : Scratchpad)
    (ran : s.run (fun _ => scripted) (wireBits pad.bytes.toList) = (.ok, s', []))
    (got : s.delivered (fun _ => scripted) (wireBits pad.bytes.toList) = some pad) :
    Step (fun _ => scripted) s ⟨some pad, .ok, s'.data⟩ s' := by
  rw [← got]
  exact .run ran

theorem spring_step : Step (fun _ => scripted) onScript ⟨some spring, .ok, 401 / 16⟩ { onScript with data := 401 / 16 } :=
  step_script onScript { onScript with data := 401 / 16 } spring (by decide +kernel) (by decide +kernel)

theorem published_spring : Published 0 [⟨some spring, .ok, 401 / 16⟩] := by
  refine (published_iff (.single spring_step)).mpr ?_
  intro m member pad got _ _
  obtain rfl := List.mem_singleton.mp member
  cases got
  exact Or.inl rfl

/-- −0.5 °C is published as −127.5 °C. -/
theorem published_below_zero : ∃ (s t : Sensor Unit) (ms : List Measured), s.configured = true ∧
    Run (Step fun _ => scripted) s ms t ∧ ¬ Published s.data ms ∧
    ms = [⟨some halfBelow, .ok, -255 / 2⟩] ∧ halfBelow.valid = true ∧ halfBelow.celsius = -1 / 2 := by
  have step : Step (fun _ => scripted) onScript ⟨some halfBelow, .ok, -255 / 2⟩ { onScript with data := -255 / 2 } :=
    step_script onScript { onScript with data := -255 / 2 } halfBelow (by decide +kernel) (by decide +kernel)
  have reads : halfBelow.celsius = -1 / 2 := by decide +kernel
  have valid : halfBelow.valid = true := by decide +kernel
  refine ⟨onScript, _, _, rfl, .single step, ?_, rfl, valid, reads⟩
  rintro ⟨right, -⟩
  have wrong := right.decoded halfBelow rfl valid fun i low high => by interval_cases i <;> rfl
  rw [reads] at wrong
  norm_num at wrong

end Sensor

end OcsComponents.Sensor.Ds18b20
