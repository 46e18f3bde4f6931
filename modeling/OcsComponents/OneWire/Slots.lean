import OcsComponents.OneWire.Simulation

/-!
# Slots on the line

What the devices on a bus make of the calls on the pin. They follow the edges of the line and the time
since: a long pulse is a reset; any other is a slot, of the level that the line has when it is sampled,
and a device keeps the line low for a while after the falling edge to answer with a 0. Where the line is
kept low already there is no edge to follow. With intervals that fit, `ocs_onewire/bus.cpp` over its pin
and delayer is the bus of these slots, whatever the devices are.
-/

namespace OcsComponents.OneWire
open Status

variable {σ β γ : Type}

/-- Devices by their slots. What they answer is whether they keep the line low: as a presence pulse after
a reset, or in a slot of a level. -/
structure Slave (σ : Type) where
  reset : σ → Bool × σ
  slot : Bool → σ → Bool × σ

namespace Slave

/-- The operations of `Bus` in slots: reading is a slot like that of a 1. -/
def bus (D : Slave σ) : Bus σ where
  reset s := (if (D.reset s).1 then .ok else .error, (D.reset s).2)
  writeBit bit s := (.ok, (D.slot bit s).2)
  readBit s := ((.ok, !(D.slot true s).1), (D.slot true s).2)

end Slave

/-- The times that devices keep, in microseconds. -/
structure SlaveTimes where
  /-- The shortest pulse that is a reset. -/
  reset : Int
  /-- From the end of a reset to the presence pulse, and to its end. -/
  presence : Int
  released : Int
  /-- From the falling edge to when a slot is sampled, and to when the line is let up. -/
  sample : Int
  hold : Int

/-- What the devices keep the line low for. -/
inductive Drive where
  | none
  | presence
  | slot
  deriving DecidableEq

/-- The line: the devices, whether the master holds it low, and the time since the last edge that the
devices follow. -/
structure Line (σ : Type) where
  state : σ
  held : Bool
  elapsed : Int
  drive : Drive

namespace Line
variable (D : Slave σ) (t : SlaveTimes)

/-- The devices keep the line low. -/
def kept (l : Line σ) : Bool :=
  match l.drive with
  | .none => false
  | .presence => t.presence ≤ l.elapsed && l.elapsed < t.released
  | .slot => l.elapsed < t.hold

/-- The line goes up after it was held: the end of a reset, or of the low part of a slot. -/
def rise (l : Line σ) : Line σ :=
  if t.reset ≤ l.elapsed then
    let (present, state) := D.reset l.state
    ⟨state, false, 0, if present then .presence else .none⟩
  else
    let (low, state) := D.slot (decide (l.elapsed < t.sample)) l.state
    ⟨state, false, l.elapsed, if low then .slot else .none⟩

/-- A call on the pin or the delayer. -/
def access (l : Line σ) (a : Access) : Line σ :=
  if a.status ≠ .ok then l
  else match a.call with
    | .setDirection _ => l
    | .delay interval => { l with elapsed := l.elapsed + interval }
    | .turnOff => if l.held || l.kept t then { l with held := true } else ⟨l.state, true, 0, .none⟩
    | .turnOn => if l.held && l.drive = .none then l.rise D t else { l with held := false }

/-- After the calls so far. -/
def after (s : σ) (log : List Access) : Line σ := log.foldl (access D t) ⟨s, false, 0, .none⟩

/-- The pin and the delayer on this line. No call of theirs fails, and a delay lasts as long as it is asked to. -/
def pins (s : σ) : Pins where
  answer _ _ := .ok
  level log := if (after D t s log).held || (after D t s log).kept t then 0 else 1

/-- Nobody holds the line low. -/
structure Free (l : Line σ) : Prop where
  held : l.held = false
  kept : l.kept t = false

end Line

/-- The intervals of the master fit the times of the devices. -/
structure BusParams.Fits (p : BusParams) (t : SlaveTimes) : Prop where
  reset : t.reset ≤ p.resetPulseInterval
  presence : t.presence ≤ p.presencePulseInterval
  answered : p.presencePulseInterval < t.released
  released : t.released ≤ p.resetPulseInterval
  one : p.writeBitInterval < t.sample
  zero : t.sample ≤ p.writeSlotInterval
  slot : p.writeSlotInterval < t.reset
  written : t.hold ≤ p.writeSlotInterval + p.writeRecoveryInterval
  read : p.readBitInitInterval < t.sample
  heard : p.readBitInitInterval + p.readBitRcInterval < t.hold
  ended : t.hold ≤ p.readSlotInterval + p.readRecoveryInterval

namespace Line
variable {D : Slave σ} {t : SlaveTimes} {p : BusParams} {s : σ}

theorem calls_pins (cs : List PinCall) (log : List Access) :
    (pins D t s).calls cs log = (.ok, log ++ cs.map fun c => ⟨c, .ok⟩) := by
  induction cs generalizing log with
  | nil => rw [Pins.calls, List.map_nil, List.append_nil]
  | cons c cs ih =>
    have answer : (pins D t s).answer log c = .ok := rfl
    rw [Pins.calls, answer, returnOnError_ok, ih, List.append_assoc, List.singleton_append, List.map_cons]

theorem after_append (log more : List Access) :
    after D t s (log ++ more) = more.foldl (access D t) (after D t s log) := List.foldl_append

/-- The master drives the line low, from a free line, and lets it go after an interval. -/
theorem pulse {l : Line σ} (free : l.Free t) (interval : Int) :
    ([PinCall.setDirection .output, .turnOff, .delay interval, .turnOn].map fun c => Access.mk c .ok).foldl
      (access D t) l =
      rise D t ⟨l.state, true, interval, .none⟩ := by
  simp [access, free.held, free.kept]

/-- The pulse of a slot. -/
theorem rise_slot {l : Line σ} (short : l.elapsed < t.reset) :
    rise D t l = ⟨(D.slot (decide (l.elapsed < t.sample)) l.state).2, false, l.elapsed,
      if (D.slot (decide (l.elapsed < t.sample)) l.state).1 then .slot else .none⟩ :=
  if_neg (Int.not_le.mpr short)

/-- The pulse of a reset. -/
theorem rise_reset {l : Line σ} (long : t.reset ≤ l.elapsed) :
    rise D t l = ⟨(D.reset l.state).2, false, 0, if (D.reset l.state).1 then .presence else .none⟩ := if_pos long

theorem Free.of_released {l : Line σ} (held : l.held = false) (slot : l.drive = .slot → t.hold ≤ l.elapsed)
    (presence : l.drive = .presence → t.released ≤ l.elapsed) : l.Free t := by
  refine ⟨held, ?_⟩
  unfold Line.kept
  cases drive : l.drive with
  | none => rfl
  | presence =>
    have ended := presence drive
    simp only [Bool.and_eq_false_imp, decide_eq_true_eq, decide_eq_false_iff_not, Int.not_lt]
    exact fun _ => ended
  | slot => simpa using slot drive

/-- The line is free, and the devices are in a state. -/
structure At (D : Slave σ) (t : SlaveTimes) (s : σ) (log : List Access) (s' : σ) : Prop where
  free : (after D t s log).Free t
  state : (after D t s log).state = s'

theorem at_nil (s : σ) : At D t s [] s := ⟨⟨rfl, rfl⟩, rfl⟩

/-- From a pulse on, the calls go on from the line that it leaves. -/
theorem At.pulse {log : List Access} {s' : σ} (h : At D t s log s') (interval : Int) (rest : List PinCall) :
    after D t s (log ++ (PinCall.setDirection .output :: .turnOff :: .delay interval :: .turnOn :: rest).map
      fun c => ⟨c, .ok⟩) =
      (rest.map fun c => Access.mk c .ok).foldl (access D t) (rise D t ⟨s', true, interval, .none⟩) := by
  have cut : PinCall.setDirection .output :: .turnOff :: .delay interval :: .turnOn :: rest =
      [PinCall.setDirection .output, .turnOff, .delay interval, .turnOn] ++ rest := rfl
  rw [after_append, cut, List.map_append, List.foldl_append, Line.pulse h.free, h.state]

section
variable {log : List Access} {s' : σ}

theorem reset_at (fits : p.Fits t) (h : At D t s log s') :
    (((pins D t s).bus p).reset log).1 = (D.bus.reset s').1 ∧
      At D t s (((pins D t s).bus p).reset log).2 (D.bus.reset s').2 := by
  have heard := h.pulse p.resetPulseInterval [.delay p.presencePulseInterval, .setDirection .input]
  rw [rise_reset (show t.reset ≤ (⟨s', true, p.resetPulseInterval, .none⟩ : Line σ).elapsed from fits.reset)] at heard
  simp only [Pins.bus, Pins.reset, calls_pins, returnOnError_ok]
  generalize log ++ _ = start at heard ⊢
  have line : after D t s start = ⟨(D.reset s').2, false, p.presencePulseInterval,
      if (D.reset s').1 then .presence else .none⟩ := by
    rw [heard]
    simp [access]
  have ends : after D t s (start ++ [⟨.delay p.resetRemainTimeSlot, .ok⟩]) = ⟨(D.reset s').2, false,
      p.presencePulseInterval + p.resetRemainTimeSlot, if (D.reset s').1 then .presence else .none⟩ := by
    rw [after_append, line]
    simp [access]
  constructor
  · have low : (after D t s start).held = false ∧ (after D t s start).kept t = (D.reset s').1 := by
      rw [line]
      cases (D.reset s').1 with
      | true => simp [kept, fits.presence, fits.answered]
      | false => simp [kept]
    simp only [pins, low.1, low.2, Slave.bus, Bool.false_or]
    cases (D.reset s').1 <;> rfl
  · refine ⟨?_, ?_⟩
    · rw [List.map_singleton, ends]
      have ended := fits.released
      apply Free.of_released rfl
      · cases (D.reset s').1 <;> simp
      · intro _
        simp only [BusParams.resetRemainTimeSlot]
        omega
    · rw [List.map_singleton, ends]
      rfl

/-- A slot, and the calls after its pulse that wait until the devices have let the line up. -/
theorem At.slot (h : At D t s log s') (interval : Int) (rest : List PinCall) {waits : Int} (short : interval < t.reset)
    (later : ∀ l : Line σ, (rest.map fun c => Access.mk c .ok).foldl (access D t) l =
      { l with elapsed := l.elapsed + waits })
    (ended : t.hold ≤ interval + waits) :
    At D t s (log ++ (PinCall.setDirection .output :: .turnOff :: .delay interval :: .turnOn :: rest).map
      fun c => ⟨c, .ok⟩)
      (D.slot (decide (interval < t.sample)) s').2 := by
  have line := h.pulse interval rest
  rw [rise_slot (show (⟨s', true, interval, .none⟩ : Line σ).elapsed < t.reset from short), later] at line
  refine ⟨?_, by rw [line]⟩
  rw [line]
  apply Free.of_released rfl
  · exact fun _ => ended
  · cases (D.slot (decide (interval < t.sample)) s').1 <;> simp

theorem writeBit_at (fits : p.Fits t) (bit : Bool) (h : At D t s log s') :
    (((pins D t s).bus p).writeBit bit log).1 = (D.bus.writeBit bit s').1 ∧
      At D t s (((pins D t s).bus p).writeBit bit log).2 (D.bus.writeBit bit s').2 := by
  have written := fits.written
  cases bit with
  | true =>
    simp only [Pins.bus, Pins.writeBit, if_true, Pins.writeBitOne, calls_pins, Slave.bus]
    have one : decide (p.writeBitInterval < t.sample) = true := decide_eq_true fits.one
    have short : p.writeBitInterval < t.reset := Int.lt_trans fits.one (Int.lt_of_le_of_lt fits.zero fits.slot)
    have ended : t.hold ≤ p.writeBitInterval + (p.writeRemainTimeSlot + p.writeRecoveryInterval) := by
      simp only [BusParams.writeRemainTimeSlot]
      omega
    have slot := h.slot p.writeBitInterval [.delay p.writeRemainTimeSlot, .delay p.writeRecoveryInterval] short
      (fun l => by simp [access, Int.add_assoc]) ended
    rw [one] at slot
    exact ⟨trivial, slot⟩
  | false =>
    simp only [Pins.bus, Pins.writeBit, Bool.false_eq_true, if_false, Pins.writeBitZero, calls_pins, Slave.bus]
    have zero : decide (p.writeSlotInterval < t.sample) = false := decide_eq_false (Int.not_lt.mpr fits.zero)
    have slot := h.slot p.writeSlotInterval [.delay p.writeRecoveryInterval] fits.slot
      (fun l => by simp [access]) written
    rw [zero] at slot
    exact ⟨trivial, slot⟩

theorem readBit_at (fits : p.Fits t) (h : At D t s log s') :
    (((pins D t s).bus p).readBit log).1 = (D.bus.readBit s').1 ∧
      At D t s (((pins D t s).bus p).readBit log).2 (D.bus.readBit s').2 := by
  have short : p.readBitInitInterval < t.reset := Int.lt_trans fits.read (Int.lt_of_le_of_lt fits.zero fits.slot)
  have one : decide (p.readBitInitInterval < t.sample) = true := decide_eq_true fits.read
  have heard := h.pulse p.readBitInitInterval [.delay p.readBitRcInterval, .setDirection .input]
  rw [rise_slot (show (⟨s', true, p.readBitInitInterval, .none⟩ : Line σ).elapsed < t.reset from short), one] at heard
  have ended : t.hold ≤ p.readBitInitInterval +
    (p.readBitRcInterval + (p.readRemainTimeSlot + p.readRecoveryInterval)) := by
    have ended := fits.ended
    simp only [BusParams.readRemainTimeSlot]
    omega
  have slot := h.slot p.readBitInitInterval [.delay p.readBitRcInterval, .setDirection .input,
    .delay p.readRemainTimeSlot, .delay p.readRecoveryInterval] short (fun l => by simp [access, Int.add_assoc]) ended
  rw [one] at slot
  have level : (pins D t s).level (log ++ [PinCall.setDirection .output, .turnOff, .delay p.readBitInitInterval,
      .turnOn, .delay p.readBitRcInterval, .setDirection .input].map fun c => ⟨c, .ok⟩) =
        if (D.slot true s').1 then 0 else 1 := by
    have inside := fits.heard
    simp only [pins, heard]
    cases (D.slot true s').1 <;> simp [access, kept, inside]
  have bit : ∀ low : Bool, ((if low then 0 else 1 : BitVec 32).setWidth 8 != 0#8) = !low := by decide
  simp only [Pins.bus, Pins.readBit, calls_pins, if_true, Slave.bus, level, bit, true_and]
  rw [List.append_assoc, ← List.map_append]
  exact slot

theorem everywhere (D : Slave σ) (fits : p.Fits t) (s : σ) : Everywhere ((pins D t s).bus p) D.bus (At D t s) where
  reset := reset_at fits
  readBit := fun h _ => readBit_at fits h
  writeBit := fun bit h _ => writeBit_at fits bit h

end

end Line

/-- **Over the pin, the operations of a bus are those of its slots**, whatever the devices are: what they return
and read, and what the devices make of it. -/
theorem pins_transfer {p : BusParams} {t : SlaveTimes} (fits : p.Fits t) (D : Slave σ) (s : σ) (ops : List Operation) :
    let r := transfers ((Line.pins D t s).bus p) ops []
    let slots := transfers D.bus ops s
    r.1 = slots.1 ∧ Line.At D t s r.2 slots.2 :=
  (Line.everywhere D fits s).transfers ops (Line.at_nil s)

/-! ## Devices with ROM codes -/

/-- The devices of `wiredAnd` by their slots. While they send, the level of a slot does not matter. -/
def Wire.slave (sets : Nat → Finset RomCode) : Slave Wire where
  reset w := (decide (sets w.session).Nonempty, (Wire.reset sets w).2)
  slot bit w :=
    match w.phase with
    | .bit _ => (!(Wire.readBit w).1.2, (Wire.readBit w).2)
    | .complement _ => (!(Wire.readBit w).1.2, (Wire.readBit w).2)
    | _ => (false, (Wire.writeBit bit w).2)

theorem Wire.slave_simulation (sets : Nat → Finset RomCode) : Attached (Wire.slave sets).bus sets Eq := by
  constructor
  · intro s w same
    subst same
    refine ⟨?_, rfl⟩
    simp only [Slave.bus, Wire.slave, wiredAnd, Wire.reset, decide_eq_true_eq]
  · intro s w same sends
    subst same
    rcases sends with ⟨n, phase⟩ | ⟨n, phase⟩
    · simp [Alike, Slave.bus, Wire.slave, wiredAnd, Wire.readBit, phase]
    · simp [Alike, Slave.bus, Wire.slave, wiredAnd, Wire.readBit, phase]
  · intro s w bit same hears
    subst same
    rcases hears with ⟨bits, phase⟩ | ⟨n, phase⟩
    · simp only [Alike, Slave.bus, Wire.slave, wiredAnd, phase, and_true, Wire.writeBit]
      split <;> rfl
    · simp [Alike, Slave.bus, Wire.slave, wiredAnd, Wire.writeBit, phase]

/-- **A scanner over the pin** finds what it finds on the bus of its devices, in any number of calls, also when
devices come and go. -/
theorem pins_scanCalls {p : BusParams} {t : SlaveTimes} (fits : p.Fits t) (sets : Nat → Finset RomCode) (k : Nat) :
    scanCalls ((Line.pins (Wire.slave sets) t .idle).bus p) k .new [] = scanCalls (wiredAnd sets) k .new .idle := by
  have sim := (Line.everywhere (Wire.slave sets) fits Wire.idle).trans (Wire.slave_simulation sets)
  apply Attached.scanCalls_eq sim
  exact ⟨Wire.idle, Line.at_nil Wire.idle, rfl⟩

/-- The intervals of `Store::Node`. -/
def storeParams : BusParams where
  resetPulseInterval := 480
  presencePulseInterval := 60
  writeSlotInterval := 60
  writeBitInterval := 10
  writeRecoveryInterval := 1
  readSlotInterval := 60
  readBitInitInterval := 5
  readBitRcInterval := 5
  readRecoveryInterval := 1

/-- The devices that it fits. -/
theorem storeParams_fits {t : SlaveTimes} : storeParams.Fits t ↔
    (60 < t.reset ∧ t.reset ≤ 480) ∧ (t.presence ≤ 60 ∧ 60 < t.released ∧ t.released ≤ 480) ∧
      (10 < t.sample ∧ t.sample ≤ 60) ∧ 10 < t.hold ∧ t.hold ≤ 61 := by
  constructor
  · intro fits
    exact ⟨⟨fits.slot, fits.reset⟩, ⟨fits.presence, fits.answered, fits.released⟩, ⟨fits.one, fits.zero⟩, fits.heard,
      fits.ended⟩
  · rintro ⟨⟨slot, reset⟩, ⟨presence, answered, released⟩, ⟨one, zero⟩, heard, ended⟩
    exact {
      reset, presence, answered, released, one, zero, slot, heard, ended
      written := ended
      read := Int.lt_trans (by decide) one }

/-- A DS18B20. -/
def sensorTimes : SlaveTimes := ⟨480, 30, 150, 30, 15⟩

theorem storeParams_fits_sensor : storeParams.Fits sensorTimes := storeParams_fits.mpr (by decide)

theorem pins_transfer_one : Line.At (Wire.slave fun _ => {thermometer0}) sensorTimes .idle
    (transfers ((Line.pins (Wire.slave fun _ => {thermometer0}) sensorTimes .idle).bus storeParams)
      [.reset, .writeByte 0xF0, .readBit] []).2
    (transfers (Wire.slave fun _ => {thermometer0}).bus [.reset, .writeByte 0xF0, .readBit] .idle).2 :=
  (pins_transfer storeParams_fits_sensor (Wire.slave fun _ => {thermometer0}) .idle
    [.reset, .writeByte 0xF0, .readBit]).2

theorem pins_scanCalls_two :
    scanCalls ((Line.pins (Wire.slave fun _ => {thermometer0, thermometer1}) sensorTimes .idle).bus storeParams)
      3 .new [] =
      scanCalls (fixedBus {thermometer0, thermometer1}) 3 .new .idle :=
  pins_scanCalls storeParams_fits_sensor (fun _ => {thermometer0, thermometer1}) 3

end OcsComponents.OneWire
