import Mathlib.Algebra.Group.Nat.Defs
import OcsComponents.Algo.BitOps
import OcsComponents.Algo.CrcOps
import OcsComponents.Lib.Transition
import OcsComponents.Storage.Storage

/-!
# The SHT41 sensor

`ocs_sensor/sht41/sensor.{h,cpp}`. A call carries what the transceiver does in it: the status of
each send and receive, and the bytes received. The `double`s of a measurement are functions of
its two words, which stand for them.

The heater is on once the transceiver has accepted the command. `heat_` counts it later, after
the measurement was received: an activation whose measurement is lost is not counted.
-/

namespace OcsComponents.Sensor.Sht41
open Status Transition Algo OcsComponents.Storage

/-- `Sensor::Command`. -/
inductive Command where
  | measureHighPrecision
  | measureMediumPrecision
  | measureLowPrecision
  | readSerialNumber
  | softReset
  | activateHeater200mW1000ms
  | activateHeater200mW100ms
  | activateHeater110mW1000ms
  | activateHeater110mW100ms
  | activateHeater20mW1000ms
  | activateHeater20mW100ms
  deriving DecidableEq, Repr

/-- `estimate_heating_delay_`, in milliseconds. -/
def estimateHeatingDelay : Command → Nat
  | .activateHeater200mW1000ms | .activateHeater110mW1000ms | .activateHeater20mW1000ms => 1100 + 10 + 50
  | .activateHeater200mW100ms | .activateHeater110mW100ms | .activateHeater20mW100ms => 110 + 10 + 50
  | .measureHighPrecision | .measureMediumPrecision | .measureLowPrecision | .readSerialNumber | .softReset => 0

/-- The command activates the heater. -/
def Command.heats (c : Command) : Bool := estimateHeatingDelay c != 0

/-- `Sensor::Params`, as the constructor accepts them. -/
structure Params where
  measureCommand : Command
  heatingCommand : Command
  heats : heatingCommand.heats = true

/-- `Sensor::Data`. -/
structure Data where
  temperature : BitVec 16 := 0
  humidity : BitVec 16 := 0
  heatingCount : BitVec 32 := 0
  deriving DecidableEq, Repr

/-- What `ITransceiver::receive` returns, and the buffer after it. -/
structure Received where
  code : StatusCode
  buf : Fin 6 → BitVec 8

/-- `heating_count_key_`. -/
def heatingCountKey : String := "heating_count"

/-- A sensor with its storage, and the commands that its transceiver has accepted. `recorded`: a
heating count has been written. -/
structure Setup where
  heatingCount : BitVec 32
  serialNumber : List (BitVec 8)
  data : Data
  storage : Storage (BitVec 32)
  accepted : List Command
  recorded : Bool

def calculateCrc (hi lo : BitVec 8) : BitVec 8 := CrcOps.crc8 [hi, lo] 0xFF 0x31 .msb

/-- `receive_data_`. -/
def receiveData (r : Received) (data : Data) : StatusCode × Data :=
  returnOnError (r.code, data) fun data =>
    if r.buf 2 ≠ calculateCrc (r.buf 0) (r.buf 1) then (.invalidState, data)
    else if r.buf 5 ≠ calculateCrc (r.buf 3) (r.buf 4) then (.invalidState, data)
    else (.ok, { data with
      temperature := BitOps.packU8 (r.buf 0) (r.buf 1), humidity := BitOps.packU8 (r.buf 3) (r.buf 4) })

namespace Setup

/-- `send_command_`. -/
def sendCommand (s : Setup) (sent : StatusCode) (c : Command) : StatusCode × Setup :=
  if sent = .ok then (.ok, { s with accepted := s.accepted ++ [c] }) else (sent, s)

/-- `read_heating_count_`. -/
def readHeatingCount (s : Setup) (fault : Option StorageFault) : StatusCode × Setup :=
  let (code, count) := s.storage.read fault heatingCountKey s.heatingCount
  let s := { s with heatingCount := count }
  if code ≠ .ok ∧ code ≠ .noData then (code, s) else (.ok, s)

/-- `write_heating_count_`. -/
def writeHeatingCount (s : Setup) (fault : Option StorageFault) : StatusCode × Setup :=
  let (code, storage) := s.storage.write fault heatingCountKey s.heatingCount
  (code, { s with storage := storage, recorded := s.recorded || code = .ok })

/-- `read_serial_number_`. -/
def readSerialNumber (s : Setup) (sent : StatusCode) (r : Received) : StatusCode × Setup :=
  returnOnError (s.sendCommand sent .readSerialNumber) fun s =>
    returnOnError (r.code, s) fun s =>
      if r.buf 2 ≠ calculateCrc (r.buf 0) (r.buf 1) then (.invalidState, s)
      else if r.buf 5 ≠ calculateCrc (r.buf 3) (r.buf 4) then (.invalidState, s)
      else (.ok, { s with serialNumber := [r.buf 0, r.buf 1, r.buf 2, r.buf 3] })

/-- `Sensor::reset`. -/
def reset (s : Setup) (sent : StatusCode) : StatusCode × Setup := s.sendCommand sent .softReset

/-- `Sensor::run`. -/
def run (p : Params) (s : Setup) (sent : StatusCode) (r : Received) : StatusCode × Setup :=
  returnOnError (s.sendCommand sent p.measureCommand) fun s =>
    let (code, data) := receiveData r { heatingCount := s.heatingCount }
    returnOnError (code, s) fun s => (.ok, { s with data := data })

/-- `heat_`. The failure of the write is logged. -/
def heat (p : Params) (s : Setup) (sent : StatusCode) (r : Received) (fault : Option StorageFault) :
    StatusCode × Setup :=
  returnOnError (s.sendCommand sent p.heatingCommand) fun s =>
    let (code, data) := receiveData r {}
    returnOnError (code, s) fun s =>
      let s := { s with heatingCount := s.heatingCount + 1 }
      let data := { data with heatingCount := s.heatingCount }
      let (_, s) := s.writeHeatingCount fault
      (.ok, { s with data := data })

end Setup

/-- The constructor, with what the transceiver and the storage do in it. Failures are logged. -/
def Setup.new (storage : Storage (BitVec 32)) (resetSent : StatusCode) (fault : Option StorageFault)
    (serialSent : StatusCode) (serial : Received) : Setup :=
  let s : Setup := ⟨0, [0, 0, 0, 0], {}, storage, [], false⟩
  let (_, s) := s.reset resetSent
  let (_, s) := s.readHeatingCount fault
  let (_, s) := s.readSerialNumber serialSent serial
  s

/-! ## Calls, over a storage that does not fail -/

inductive Call where
  | run (sent : StatusCode) (received : Received)
  | heat (sent : StatusCode) (received : Received)
  | reset (sent : StatusCode)

/-- What a call returns and leaves. -/
def Setup.perform (p : Params) (s : Setup) : Call → StatusCode × Setup
  | .run sent received => s.run p sent received
  | .heat sent received => s.heat p sent received none
  | .reset sent => s.reset sent

abbrev Step (p : Params) (s : Setup) (call : Call) (s' : Setup) : Prop := (s.perform p call).2 = s'

/-- How often the heater was activated. -/
def Setup.activations (s : Setup) : Nat := s.accepted.countP Command.heats

/-- The count is that of the activations, in memory and in the storage. -/
structure Counts (start : BitVec 32) (s : Setup) : Prop where
  counted : s.heatingCount.toNat = start.toNat + s.activations
  persisted : s.recorded = true → s.storage heatingCountKey = some s.heatingCount

/-- A call that publishes its data. -/
def Publishes (p : Params) (s : Setup) : Call → Prop
  | .reset _ => False
  | .run sent received => (s.perform p (.run sent received)).1 = .ok
  | .heat sent received => (s.perform p (.heat sent received)).1 = .ok

/-- The measurement was received, and its checksums are right. -/
def Received.Valid (r : Received) : Prop :=
  r.code = .ok ∧ r.buf 2 = calculateCrc (r.buf 0) (r.buf 1) ∧ r.buf 5 = calculateCrc (r.buf 3) (r.buf 4)

instance (r : Received) : Decidable r.Valid := inferInstanceAs (Decidable (_ ∧ _))

/-- An accepted heating command is that of a `heat()` whose measurement is received, and the
count does not overflow. -/
def Covered (p : Params) (s : Setup) : Call → Prop
  | .run sent _ => p.measureCommand.heats = true → sent ≠ .ok
  | .heat sent received => sent = .ok → received.Valid ∧ s.heatingCount.toNat + 1 < 2 ^ 32
  | .reset _ => True

instance (p : Params) (s : Setup) (call : Call) : Decidable (Covered p s call) :=
  match call with
  | .run sent _ => inferInstanceAs (Decidable (p.measureCommand.heats = true → sent ≠ .ok))
  | .heat sent received =>
    inferInstanceAs (Decidable (sent = .ok → received.Valid ∧ s.heatingCount.toNat + 1 < 2 ^ 32))
  | .reset _ => inferInstanceAs (Decidable True)

theorem receiveData_ok_iff {r : Received} {data : Data} : (receiveData r data).1 = .ok ↔ r.Valid := by
  unfold receiveData Received.Valid returnOnError
  by_cases code : r.code = .ok
  · by_cases temperature : r.buf 2 = calculateCrc (r.buf 0) (r.buf 1)
    · by_cases humidity : r.buf 5 = calculateCrc (r.buf 3) (r.buf 4) <;> simp [code, temperature, humidity]
    · simp [code, temperature]
  · simp [code]

@[simp] theorem receiveData_heatingCount (r : Received) (data : Data) :
    (receiveData r data).2.heatingCount = data.heatingCount := by
  unfold receiveData returnOnError
  split
  · split
    · rfl
    · split <;> rfl
  · rfl

namespace Setup
variable {p : Params} {s : Setup} {sent : StatusCode} {r : Received}

/-- `run()` leaves the count and the storage, and has sent its command or not. -/
theorem run_eq (p : Params) (s : Setup) (sent : StatusCode) (r : Received) : ((s.run p sent r).2.heatingCount = s.heatingCount ∧ (s.run p sent r).2.storage = s.storage ∧
      (s.run p sent r).2.recorded = s.recorded) ∧
    (s.run p sent r).2.accepted = (if sent = .ok then s.accepted ++ [p.measureCommand] else s.accepted) ∧
    ((s.run p sent r).1 = .ok → (s.run p sent r).2.data.heatingCount = s.heatingCount) := by
  unfold run sendCommand
  by_cases accepted : sent = .ok
  · rw [if_pos accepted, returnOnError_ok, if_pos accepted]
    rcases received : receiveData r { heatingCount := s.heatingCount } with ⟨code, data⟩
    have count : data.heatingCount = s.heatingCount := by
      have := receiveData_heatingCount r { heatingCount := s.heatingCount }
      rwa [received] at this
    by_cases ok : code = .ok
    · subst ok
      simp [returnOnError, count]
    · simp [returnOnError, ok]
  · rw [if_neg accepted, returnOnError_fail _ _ accepted, if_neg accepted]
    exact ⟨⟨rfl, rfl, rfl⟩, rfl, fun ok => absurd ok accepted⟩

/-- A `heat()` that gets its measurement. -/
theorem heat_valid (p : Params) (s : Setup) (valid : r.Valid) : ∃ data, data.heatingCount = s.heatingCount + 1 ∧
    s.heat p .ok r none = (.ok, { s with
      heatingCount := s.heatingCount + 1, data := data, accepted := s.accepted ++ [p.heatingCommand],
      storage := (s.storage.write none heatingCountKey (s.heatingCount + 1)).2, recorded := true }) := by
  have ok : (receiveData r {}).1 = .ok := receiveData_ok_iff.mpr valid
  refine ⟨{ (receiveData r {}).2 with heatingCount := s.heatingCount + 1 }, rfl, ?_⟩
  rw [heat, sendCommand, if_pos rfl, returnOnError_ok]
  rcases measured : receiveData r {} with ⟨code, data⟩
  obtain rfl : code = .ok := by rwa [measured] at ok
  simp [writeHeatingCount, Storage.write]

/-- A `heat()` whose measurement is lost has activated the heater. -/
theorem heat_lost (p : Params) (s : Setup) (lost : ¬ r.Valid) : ∃ code, code ≠ .ok ∧
    s.heat p .ok r none = (code, { s with accepted := s.accepted ++ [p.heatingCommand] }) := by
  have failed : (receiveData r {}).1 ≠ .ok := fun ok => lost (receiveData_ok_iff.mp ok)
  refine ⟨(receiveData r {}).1, failed, ?_⟩
  rw [heat, sendCommand, if_pos rfl, returnOnError_ok]
  exact returnOnError_fail _ _ failed

theorem heat_refused (refused : sent ≠ .ok) : s.heat p sent r none = (sent, s) := by
  simp [heat, sendCommand, returnOnError, refused]

theorem readHeatingCount_eq (s : Setup) : (s.readHeatingCount none).2 =
    { s with heatingCount := (s.storage heatingCountKey).getD s.heatingCount } := by
  unfold readHeatingCount
  rw [← Storage.read_sound]
  rcases s.storage.read none heatingCountKey s.heatingCount with ⟨code, count⟩
  simp only
  split <;> rfl

end Setup

theorem activations_append {s s' : Setup} {c : Command} (sent : s'.accepted = s.accepted ++ [c]) :
    s'.activations = s.activations + if c.heats then 1 else 0 := by
  rw [Setup.activations, sent, List.countP_append, List.countP_singleton, Setup.activations]

/-- Where count and storage are as before, the count is right as long as nothing was activated. -/
theorem Counts.same_iff {start : BitVec 32} {s s' : Setup} (counts : Counts start s)
    (same : s'.heatingCount = s.heatingCount ∧ s'.storage = s.storage ∧ s'.recorded = s.recorded) :
    Counts start s' ↔ s'.activations = s.activations := by
  obtain ⟨count, storage, recorded⟩ := same
  have counted := counts.counted
  constructor
  · intro counts'
    have counted' := counts'.counted
    rw [count] at counted'
    omega
  · intro activations
    refine ⟨by rw [count, activations, counted], fun written => ?_⟩
    rw [storage, count]
    exact counts.persisted (recorded ▸ written)

/-- One more accepted command. -/
theorem Counts.accept_iff {start : BitVec 32} {s : Setup} (counts : Counts start s) (c : Command) :
    Counts start { s with accepted := s.accepted ++ [c] } ↔ c.heats = false := by
  have same : Counts start { s with accepted := s.accepted ++ [c] } ↔
      Setup.activations { s with accepted := s.accepted ++ [c] } = s.activations :=
    counts.same_iff ⟨rfl, rfl, rfl⟩
  rw [same, activations_append (s := s) rfl]
  cases c.heats <;> simp

theorem counts_run_iff {p : Params} {start : BitVec 32} {s : Setup} (counts : Counts start s) (sent : StatusCode)
    (r : Received) : Counts start (s.run p sent r).2 ↔ (p.measureCommand.heats = true → sent ≠ .ok) := by
  obtain ⟨same, accepted, -⟩ := Setup.run_eq p s sent r
  rw [counts.same_iff same]
  by_cases ok : sent = .ok
  · rw [if_pos ok] at accepted
    rw [activations_append accepted]
    cases p.measureCommand.heats <;> simp [ok]
  · rw [if_neg ok] at accepted
    rw [Setup.activations, accepted]
    exact iff_of_true rfl fun _ => ok

theorem counts_heat_iff {p : Params} {start : BitVec 32} {s : Setup} (counts : Counts start s) (sent : StatusCode)
    (r : Received) : Counts start (s.heat p sent r none).2 ↔
      (sent = .ok → r.Valid ∧ s.heatingCount.toNat + 1 < 2 ^ 32) := by
  by_cases ok : sent = .ok
  case neg =>
    rw [Setup.heat_refused ok]
    exact iff_of_true counts fun accepted => absurd accepted ok
  subst ok
  rw [forall_prop_of_true rfl]
  have counted := counts.counted
  by_cases valid : r.Valid
  · obtain ⟨data, -, heated⟩ := Setup.heat_valid p s valid
    rw [heated]
    have activations : (s.heat p .ok r none).2.activations = s.activations + if p.heatingCommand.heats then 1 else 0 :=
      activations_append (by rw [heated])
    rw [heated, if_pos p.heats] at activations
    constructor
    · intro counts'
      have counted' := counts'.counted
      rw [activations, BitVec.toNat_add] at counted'
      refine ⟨valid, ?_⟩
      have := Nat.mod_lt (s.heatingCount.toNat + (1#32).toNat) (Nat.two_pow_pos 32)
      omega
    · rintro ⟨-, small⟩
      have next : (s.heatingCount + 1).toNat = s.heatingCount.toNat + 1 := BitVec.toNat_add_of_lt small
      refine ⟨?_, fun _ => Storage.write_sound s.storage heatingCountKey (s.heatingCount + 1)⟩
      rw [activations, next, counted, Nat.add_assoc]
  · obtain ⟨code, -, heated⟩ := Setup.heat_lost p s valid
    rw [heated, counts.accept_iff p.heatingCommand, p.heats]
    exact iff_of_false Bool.noConfusion fun both => valid both.1

theorem counts_reset {start : BitVec 32} {s : Setup} (counts : Counts start s) (sent : StatusCode) :
    Counts start (s.reset sent).2 := by
  unfold Setup.reset Setup.sendCommand
  split
  · exact (counts.accept_iff .softReset).mpr rfl
  · exact counts

/-- **One call**: the count stays right exactly when the call is covered. -/
theorem counts_iff (p : Params) (start : BitVec 32) (s : Setup) (call : Call) (s' : Setup) (counts : Counts start s)
    (step : Step p s call s') : (Counts start s' ↔ Covered p s call) ∧ (Covered p s call → Counts start s') := by
  suffices iff : Counts start s' ↔ Covered p s call from ⟨iff, iff.mpr⟩
  subst step
  cases call with
  | run sent received => exact counts_run_iff counts sent received
  | heat sent received => exact counts_heat_iff counts sent received
  | reset sent => exact iff_of_true (counts_reset counts sent) trivial

/-- What is published carries the count of its moment. -/
theorem published_count {p : Params} {s s' : Setup} {call : Call} (step : Step p s call s')
    (publishes : Publishes p s call) : s'.data.heatingCount = s'.heatingCount := by
  subst step
  cases call with
  | run sent received =>
    obtain ⟨⟨count, -⟩, -, data⟩ := Setup.run_eq p s sent received
    exact (data publishes).trans count.symm
  | heat sent received =>
    by_cases ok : sent = .ok
    · subst ok
      by_cases valid : received.Valid
      · obtain ⟨data, count, heated⟩ := Setup.heat_valid p s valid
        show (s.heat p .ok received none).2.data.heatingCount = (s.heat p .ok received none).2.heatingCount
        rw [heated]
        exact count
      · obtain ⟨code, failed, heated⟩ := Setup.heat_lost p s valid
        have returned : (s.heat p .ok received none).1 = .ok := publishes
        rw [heated] at returned
        exact absurd returned failed
    · have returned : (s.heat p sent received none).1 = .ok := publishes
      rw [Setup.heat_refused ok] at returned
      exact absurd returned ok
  | reset sent => exact publishes.elim

theorem counts_serial {start : BitVec 32} {s : Setup} (counts : Counts start s) (sent : StatusCode) (r : Received) :
    Counts start (s.readSerialNumber sent r).2 := by
  unfold Setup.readSerialNumber Setup.sendCommand
  by_cases ok : sent = .ok
  · have counts' := (counts.accept_iff .readSerialNumber).mpr rfl
    rw [if_pos ok, returnOnError_ok]
    unfold returnOnError
    split
    · split
      · exact counts'
      · split
        · exact counts'
        · exact ⟨counts'.counted, counts'.persisted⟩
    · exact counts'
  · rw [if_neg ok, returnOnError_fail _ _ ok]
    exact counts

/-- The constructor starts with the persisted count. -/
theorem counts_new (storage : Storage (BitVec 32)) (resetSent serialSent : StatusCode) (serial : Received) :
    Counts ((storage heatingCountKey).getD 0) (Setup.new storage resetSent none serialSent serial) := by
  apply counts_serial
  let boot : Setup := ⟨0, [0, 0, 0, 0], {}, storage, [], false⟩
  show Counts _ ((boot.reset resetSent).2.readHeatingCount none).2
  have boots : (boot.reset resetSent).2.storage = storage ∧ (boot.reset resetSent).2.heatingCount = 0 ∧
      (boot.reset resetSent).2.recorded = false ∧ (boot.reset resetSent).2.activations = 0 := by
    unfold Setup.reset Setup.sendCommand
    split <;> exact ⟨rfl, rfl, rfl, rfl⟩
  obtain ⟨same, count, recorded, activations⟩ := boots
  rw [Setup.readHeatingCount_eq, same, count]
  refine ⟨?_, fun written => absurd (recorded.symm.trans written) Bool.noConfusion⟩
  show ((storage heatingCountKey).getD 0).toNat = _ + (boot.reset resetSent).2.activations
  rw [activations, Nat.add_zero]

theorem step_functional (p : Params) (s : Setup) (call : Call) (s' s'' : Setup) (h : Step p s call s')
    (h' : Step p s call s'') : s' = s'' := h.symm.trans h'

/-- **The heating count is that of the activations**, at every moment of a run between two calls
and in everything that is published, exactly when every call is covered. -/
theorem counts_run {p : Params} {storage : Storage (BitVec 32)} {resetSent serialSent : StatusCode}
    {serial : Received} {tr : List Call} {s : Setup}
    (h : Run (Step p) (.new storage resetSent none serialSent serial) tr s) :
    ((∀ tr' s', tr' <+: tr → Run (Step p) (.new storage resetSent none serialSent serial) tr' s' →
        Counts ((storage heatingCountKey).getD 0) s') ∧
      ∀ tr' call s₁ s₂, tr' ++ [call] <+: tr →
        Run (Step p) (.new storage resetSent none serialSent serial) tr' s₁ → Step p s₁ call s₂ →
        Publishes p s₁ call → s₂.data.heatingCount = s₂.heatingCount) ↔
    ∀ tr' call s₁, tr' ++ [call] <+: tr → Run (Step p) (.new storage resetSent none serialSent serial) tr' s₁ →
      Covered p s₁ call := by
  have start := counts_new storage resetSent serialSent serial
  have exact_rule := h.every_step_iff (step_functional p) (Counts ((storage heatingCountKey).getD 0))
    (fun _ _ s' => Counts ((storage heatingCountKey).getD 0) s') (Covered p) start (counts_iff p _)
  rw [← exact_rule, ← Run.every_state_iff start tr]
  exact and_iff_left fun _ _ _ _ _ _ step publishes => published_count step publishes

def exec (p : Params) (s : Setup) (call : Call) : Option Setup :=
  if Covered p s call then some (s.perform p call).2 else none

theorem exec_sound {p : Params} {s s' : Setup} {call : Call} (h : exec p s call = some s') :
    Step p s call s' ∧ Covered p s call := by
  obtain ⟨covered, step⟩ := Option.ite_none_right_eq_some.mp h
  exact ⟨Option.some.inj step, covered⟩

/-- The default parameters. -/
def Params.default : Params := ⟨.measureLowPrecision, .activateHeater20mW100ms, rfl⟩

/-- A measurement of zeros, with their checksums. -/
def Received.zeros : Received := ⟨.ok, fun i => if i = 2 ∨ i = 5 then 0x81 else 0⟩

/-- A sensor without a record. -/
def Setup.blank : Setup := .new (fun _ => none) .ok none .ok .zeros

/-- Two activations, of which the second is refused, and a measurement. -/
theorem counts_run_heats : ∃ s, Run (Step .default) .blank [.heat .ok .zeros, .heat .timeout .zeros, .run .ok .zeros] s ∧
    (s.heatingCount = 1 ∧ s.data.heatingCount = 1) ∧
    ∀ tr' s', tr' <+: [.heat .ok .zeros, .heat .timeout .zeros, .run .ok .zeros] → Run (Step .default) .blank tr' s' →
      Counts 0 s' := by
  obtain ⟨s, run, ends⟩ := Run.exists_of_exec (exec .default) exec_sound
    [.heat .ok .zeros, .heat .timeout .zeros, .run .ok .zeros] .blank
    (fun s => s.heatingCount = 1 ∧ s.data.heatingCount = 1) (by decide +kernel)
  have plain := run.mono And.left
  exact ⟨s, plain, ends, ((counts_run plain).mpr (run.covered (step_functional .default))).1⟩

/-- The heater is activated, and the measurement after it is lost: the count stays 0. -/
theorem activation_not_counted : ∃ s, Run (Step .default) .blank [.heat .ok ⟨.timeout, fun _ => 0⟩] s ∧
    s.activations = 1 ∧ s.heatingCount = 0 ∧ ¬ Counts 0 s := by
  refine ⟨_, .next .start rfl, by decide +kernel, by decide +kernel, fun counts => ?_⟩
  exact absurd counts.counted (by decide +kernel)

end OcsComponents.Sensor.Sht41
