import OcsComponents.Sensor.Ds18b20.Sensor
import OcsComponents.Storage.Storage

/-!
# The configuration of a DS18B20 in memory and in flash

`Sensor::read_configuration`, `write_configuration`, `erase_configuration` and
`Store::Node::add`, over a storage whose operations may fail and then leave their key
unchanged. A move is one call, or a reboot with the `Store::add()` of the new object; its
operation carries what the bus and the storage did. A sensor is configured from the record
under its id, or not at all (`Consistent`). What can break this is the comparison with a
default-constructed configuration when there is no record.
-/

namespace OcsComponents.Sensor.Ds18b20
open Status OcsComponents.OneWire OcsComponents.Storage

/-- `configuration_resolution_to_proto`, from `r0 = 0` and `r1 = 0`. -/
def Resolution.toProto : Resolution → Bool × Bool
  | .bit12 => (true, true)
  | .bit11 => (false, true)
  | .bit10 => (true, false)
  | .bit9 => (false, false)
  | .none => (false, false)

/-- A sensor and the storage it works on. -/
structure Stored (ι : Type) where
  sensor : Sensor ι
  storage : Storage Configuration

namespace Stored
variable {ι β : Type} (buses : ι → Bus β)

/-- `Sensor::read_configuration`. -/
def readConfiguration (s : Stored ι) (fault : Option StorageFault) (out : Configuration) : StatusCode × Configuration :=
  if s.sensor.configured then (.ok, s.sensor.configuration) else s.storage.read fault s.sensor.id out

/-- The device's part of `write_configuration`: write the resolution, and see that it is there. -/
def updateDevice (B : Bus β) (c : Configuration) (w : β) : StatusCode × β :=
  let (r0, r1) := c.resolution.toProto
  let pad := Scratchpad.new.setResolution r0 r1
  returnOnError (pad.write B c.romCode w) fun w =>
    let (code, pad, w) := pad.read B c.romCode w
    returnOnError (code, w) fun w =>
      if pad.valid = false then (.invalidState, w)
      else if pad.r0 ≠ r0 ∨ pad.r1 ≠ r1 then (.invalidState, w)
      else (.ok, w)

/-- `Sensor::write_configuration`. -/
def writeConfiguration (s : Stored ι) (i : ι) (c : Configuration) (w : β) (readFault writeFault : Option StorageFault) :
    StatusCode × Stored ι × β :=
  if c.romCode.valid = false then (.invalidArg, s, w)
  else
    let (code, w) := updateDevice (buses i) c w
    returnOnError (code, s, w) fun (s, w) =>
      let (code, persisted) := s.storage.read readFault s.sensor.id .new
      if code ≠ .ok ∧ code ≠ .noData then (code, s, w)
      else
        let (code, storage) := if persisted ≠ c then s.storage.write writeFault s.sensor.id c else (.ok, s.storage)
        returnOnError (code, { s with storage := storage }, w) fun (s, w) =>
          (.ok, { s with sensor := { s.sensor with bus := some i, configuration := c } }, w)

/-- `Sensor::erase_configuration`, with the configuration that it hands out. -/
def eraseConfiguration (s : Stored ι) (fault : Option StorageFault) (out : Configuration) :
    StatusCode × Configuration × Stored ι :=
  let (code, storage) := s.storage.erase fault s.sensor.id
  if code ≠ .ok then (code, out, { s with storage := storage })
  else (.ok, s.sensor.configuration, ⟨{ s.sensor with bus := none, configuration := .new }, storage⟩)

/-- `Store::Node::add` on the node of bus `i`, which has the sensors `ids`. -/
def add (s : Stored ι) (ids : List String) (i : ι) (w : β) (loadFault readFault writeFault : Option StorageFault) :
    StatusCode × List String × Stored ι × β :=
  if s.sensor.id ∈ ids then (.invalidArg, ids, s, w)
  else
    let (code, c) := s.readConfiguration loadFault .new
    -- a failure is logged, and the sensor is added without a bus
    let (s, w) := if code = .ok then (s.writeConfiguration buses i c w readFault writeFault).2 else (s, w)
    (.ok, ids ++ [s.sensor.id], s, w)

/-- The object of the sensor after a reboot. -/
def reboot (s : Stored ι) (data : ℚ) : Stored ι := ⟨.new s.sensor.id data, s.storage⟩

/-- What a reboot meets: the memory of the new object, the sensors before it on its node, the
node's bus with its state, and the faults of the storage. -/
structure Boot (ι β : Type) where
  data : ℚ
  ids : List String
  i : ι
  w : β
  loadFault : Option StorageFault
  readFault : Option StorageFault
  writeFault : Option StorageFault

/-- A reboot, up to the end of `Store::add()`. -/
def boot (s : Stored ι) (b : Boot ι β) : StatusCode × Stored ι :=
  let (code, _, s, _) := (s.reboot b.data).add buses b.ids b.i b.w b.loadFault b.readFault b.writeFault
  (code, s)

/-- Reboots one after another. -/
def boots (s : Stored ι) (bs : List (Boot ι β)) : Stored ι := bs.foldl (fun s b => (s.boot buses b).2) s

/-- A call, with what the bus and the storage do in it. -/
inductive Operation (ι β : Type) where
  | write (i : ι) (c : Configuration) (w : β) (readFault writeFault : Option StorageFault)
  | erase (fault : Option StorageFault)
  | reboot (b : Boot ι β)

/-- What a call returns and leaves. -/
def perform (s : Stored ι) : Operation ι β → StatusCode × Stored ι
  | .write i c w readFault writeFault =>
    let (code, s, _) := s.writeConfiguration buses i c w readFault writeFault
    (code, s)
  | .erase fault =>
    let (code, _, s) := s.eraseConfiguration fault .new
    (code, s)
  | .reboot b => s.boot buses b

structure Move (ι β : Type) where
  before : Stored ι
  operation : Operation ι β
  code : StatusCode
  after : Stored ι

/-- The moves of a sequence of operations. -/
def moves (s : Stored ι) : List (Operation ι β) → List (Move ι β)
  | [] => []
  | op :: ops => ⟨s, op, (s.perform buses op).1, (s.perform buses op).2⟩ :: moves (s.perform buses op).2 ops

/-- A configured sensor has its configuration in the storage. -/
def Consistent (s : Stored ι) : Prop :=
  s.sensor.configured = true → s.storage s.sensor.id = some s.sensor.configuration

/-- What a move promises. -/
structure Move.Right (m : Move ι β) : Prop where
  consistent : m.after.Consistent
  /-- A call that fails changes nothing; a reboot never changes the storage. -/
  unchanged : match m.operation with
    | .reboot _ => m.after.storage = m.before.storage
    | _ => m.code ≠ .ok → m.after = m.before
  /-- What was written is read, now and after any reboots. -/
  written : ∀ i c w readFault writeFault, m.operation = .write i c w readFault writeFault → m.code = .ok →
    (∀ fault out, m.after.readConfiguration fault out = (.ok, c)) ∧
      ∀ (bs : List (Boot ι β)) out, (m.after.boots buses bs).readConfiguration none out = (.ok, c)

/-- The bus answers of `w` with which the device's part of `write_configuration` goes through. -/
def Accepts (B : Bus β) (c : Configuration) (w : β) : Prop :=
  let pad := Scratchpad.new.setResolution c.resolution.toProto.1 c.resolution.toProto.2
  ∃ w₁ w₂ got, pad.write B c.romCode w = (.ok, w₁) ∧ pad.read B c.romCode w₁ = (.ok, got, w₂) ∧
    got.valid = true ∧ got.r0 = c.resolution.toProto.1 ∧ got.r1 = c.resolution.toProto.2

/-- Not the default configuration where the storage has no record, on a bus that accepts it
and with a storage that can be read. -/
def Move.Covered (m : Move ι β) : Prop :=
  match m.operation with
  | .write i c w readFault _ =>
    ¬ (m.before.storage m.before.sensor.id = none ∧ c = .new ∧ Accepts (buses i) c w ∧ readFault = none)
  | _ => True

variable {buses}

theorem updateDevice_ok_iff (B : Bus β) (c : Configuration) (w : β) :
    (updateDevice B c w).1 = .ok ↔ Accepts B c w := by
  unfold updateDevice Accepts
  obtain ⟨r0, r1⟩ := c.resolution.toProto
  rcases wrote : (Scratchpad.new.setResolution r0 r1).write B c.romCode w with ⟨code, w₁⟩
  by_cases good : code = .ok
  · subst good
    rcases got : (Scratchpad.new.setResolution r0 r1).read B c.romCode w₁ with ⟨code, pad, w₂⟩
    by_cases good : code = .ok
    · subst good
      simp [wrote, got]
      grind
    · simp [wrote, got, returnOnError_fail _ _ good, good]
  · simp [wrote, returnOnError_fail _ _ good, good]

/-- The ends of `write_configuration`: a failure that changes nothing, or a configured sensor,
whose record is written, was there, or is missing. -/
theorem writeConfiguration_cases (buses : ι → Bus β) (s : Stored ι) (i : ι) (c : Configuration) (w : β)
    (readFault writeFault : Option StorageFault) :
    (s.writeConfiguration buses i c w readFault writeFault).1 ≠ .ok ∧
        (s.writeConfiguration buses i c w readFault writeFault).2.1 = s ∨
      (s.writeConfiguration buses i c w readFault writeFault).1 = .ok ∧ ∃ storage,
        (s.writeConfiguration buses i c w readFault writeFault).2.1 =
          ⟨{ s.sensor with bus := some i, configuration := c }, storage⟩ ∧
        (storage = Function.update s.storage s.sensor.id (some c) ∨ storage = s.storage ∧
          (s.storage s.sensor.id = some c ∨
            s.storage s.sensor.id = none ∧ c = .new ∧ Accepts (buses i) c w ∧ readFault = none)) := by
  unfold writeConfiguration
  by_cases valid : c.romCode.valid = false
  · rw [if_pos valid]
    exact Or.inl ⟨nofun, rfl⟩
  rw [if_neg valid]
  have device := updateDevice_ok_iff (buses i) c w
  rcases updated : updateDevice (buses i) c w with ⟨code, w₁⟩
  rw [updated] at device
  by_cases good : code = .ok
  · subst good
    have accepts := device.mp rfl
    simp only [returnOnError_ok]
    unfold Storage.read Storage.write
    cases readFault with
    | some f => simp [f.failed]
    | none =>
      cases record : s.storage s.sensor.id with
      | some p =>
        by_cases same : p = c
        · simp [same]
        · cases writeFault with
          | some f => simp [same, returnOnError_fail _ _ f.failed.1, f.failed.1]
          | none => simp [same]
      | none =>
        by_cases same : .new = c
        · subst same
          simp [accepts]
        · cases writeFault with
          | some f => simp [same, returnOnError_fail _ _ f.failed.1, f.failed.1]
          | none => simp [same]
  · simp [returnOnError_fail _ _ good, good]

/-- Without a record, the default configuration is configured and not written. -/
theorem writeConfiguration_default {s : Stored ι} {i : ι} {w : β} (missing : s.storage s.sensor.id = none)
    (accepts : Accepts (buses i) .new w) (writeFault : Option StorageFault) :
    (s.writeConfiguration buses i .new w none writeFault).2.1 =
      ⟨{ s.sensor with bus := some i, configuration := .new }, s.storage⟩ := by
  have valid : Configuration.new.romCode.valid = true := by decide +kernel
  have device := (updateDevice_ok_iff _ _ _).mpr accepts
  unfold writeConfiguration
  rcases updated : updateDevice (buses i) .new w with ⟨code, w₁⟩
  rw [updated] at device
  obtain rfl : code = .ok := device
  simp [valid, Storage.read, missing]

theorem eraseConfiguration_cases (s : Stored ι) (fault : Option StorageFault) (out : Configuration) :
    (s.eraseConfiguration fault out).1 ≠ .ok ∧ (s.eraseConfiguration fault out).2.2 = s ∨
      (s.eraseConfiguration fault out).1 = .ok ∧ (s.eraseConfiguration fault out).2.2.sensor.bus = none := by
  unfold eraseConfiguration Storage.erase
  cases fault with
  | some f => simp [f.failed]
  | none => cases s.storage s.sensor.id <;> simp

/-- After a reboot the sensor is as constructed, or configured from its record. -/
theorem boot_cases (buses : ι → Bus β) (s : Stored ι) (b : Boot ι β) :
    (s.boot buses b).2 = s.reboot b.data ∨ ∃ c, s.storage s.sensor.id = some c ∧
      (s.boot buses b).2 = ⟨⟨s.sensor.id, some b.i, c, b.data⟩, s.storage⟩ := by
  unfold boot add
  by_cases known : (s.reboot b.data).sensor.id ∈ b.ids
  · rw [if_pos known]
    exact Or.inl rfl
  rw [if_neg known]
  rcases loaded : (s.reboot b.data).readConfiguration b.loadFault .new with ⟨code, c⟩
  by_cases good : code = .ok
  · subst good
    have record : s.storage s.sensor.id = some c := by
      rw [reboot, readConfiguration, if_neg (by simp [Sensor.configured, Sensor.new])] at loaded
      unfold Storage.read at loaded
      split at loaded
      · rename_i f _
        exact absurd (congrArg Prod.fst loaded) f.failed.1
      · split at loaded
        · rename_i c' record
          cases loaded
          exact record
        · cases loaded
    rcases writeConfiguration_cases buses (s.reboot b.data) b.i c b.w b.readFault b.writeFault with
      ⟨_, same⟩ | ⟨_, storage, after, written⟩
    · left
      exact same
    · right
      refine ⟨c, record, ?_⟩
      have kept : storage = s.storage := by
        rcases written with rfl | ⟨rfl, _⟩
        · exact Function.update_eq_self_iff.mpr record.symm
        · rfl
      rw [kept] at after
      exact after
  · simp [good]

theorem Consistent.boot {s : Stored ι} (b : Boot ι β) : (s.boot buses b).2.Consistent := by
  rcases s.boot_cases buses b with after | ⟨c, record, after⟩ <;> rw [after]
  · exact nofun
  · exact fun _ => record

/-- The storage has `c`, and the sensor has it too when it is configured. -/
def Holds (c : Configuration) (s : Stored ι) : Prop :=
  s.storage s.sensor.id = some c ∧ (s.sensor.configured = true → s.sensor.configuration = c)

theorem Holds.boot {c : Configuration} {s : Stored ι} (h : s.Holds c) (b : Boot ι β) : (s.boot buses b).2.Holds c := by
  rcases s.boot_cases buses b with after | ⟨c', record, after⟩ <;> rw [after]
  · exact ⟨h.1, nofun⟩
  · exact ⟨h.1, fun _ => Option.some.inj (record.symm.trans h.1)⟩

theorem Holds.boots {c : Configuration} {s : Stored ι} (h : s.Holds c) (bs : List (Boot ι β)) :
    (s.boots buses bs).Holds c := by
  induction bs generalizing s with
  | nil => exact h
  | cons b bs ih => exact ih (h.boot b)

theorem Holds.read {c : Configuration} {s : Stored ι} (h : s.Holds c) (out : Configuration) :
    s.readConfiguration none out = (.ok, c) := by
  unfold readConfiguration Storage.read
  by_cases on : s.sensor.configured = true
  · rw [if_pos on, h.2 on]
  · rw [if_neg on, h.1]

/-- The move that an operation makes. -/
abbrev move (buses : ι → Bus β) (s : Stored ι) (op : Operation ι β) : Move ι β :=
  ⟨s, op, (s.perform buses op).1, (s.perform buses op).2⟩

/-- A default configuration without a record leaves a sensor configured from nothing. -/
theorem write_not_right {s : Stored ι} {i : ι} {w : β} (missing : s.storage s.sensor.id = none)
    (accepts : Accepts (buses i) .new w) (writeFault : Option StorageFault) :
    ¬ (s.move buses (.write i .new w none writeFault)).Right buses := by
  intro right
  have consistent := right.consistent
  unfold Consistent at consistent
  simp only [perform, writeConfiguration_default missing accepts] at consistent
  rw [missing] at consistent
  exact nomatch consistent rfl

theorem write_right {s : Stored ι} (h : s.Consistent) {i : ι} {c : Configuration} {w : β}
    {readFault writeFault : Option StorageFault}
    (covered : (s.move buses (.write i c w readFault writeFault)).Covered buses) :
    (s.move buses (.write i c w readFault writeFault)).Right buses := by
  rcases s.writeConfiguration_cases buses i c w readFault writeFault with
    ⟨failed, same⟩ | ⟨good, storage, after, written⟩
  · refine ⟨?_, fun _ => same, ?_⟩
    · show Consistent (s.writeConfiguration buses i c w readFault writeFault).2.1
      rw [same]
      exact h
    · rintro i' c' w' r' wr' ⟨⟩ ok
      exact absurd ok failed
  · have record : storage s.sensor.id = some c := by
      rcases written with rfl | ⟨rfl, record | defaulted⟩
      · exact Function.update_self ..
      · exact record
      · exact absurd defaulted covered
    have holds : (s.writeConfiguration buses i c w readFault writeFault).2.1.Holds c := by
      rw [after]
      exact ⟨record, fun _ => rfl⟩
    refine ⟨?_, fun failed => absurd good failed, ?_⟩
    · show Consistent (s.writeConfiguration buses i c w readFault writeFault).2.1
      rw [after]
      exact fun _ => record
    · rintro i' c' w' r' wr' ⟨⟩ _
      refine ⟨fun fault out => ?_, fun bs out => (holds.boots bs).read out⟩
      show Stored.readConfiguration (s.writeConfiguration buses i c w readFault writeFault).2.1 fault out = _
      rw [after]
      rfl

theorem erase_right (buses : ι → Bus β) {s : Stored ι} (h : s.Consistent) (fault : Option StorageFault) :
    (s.move buses (.erase fault)).Right buses := by
  rcases s.eraseConfiguration_cases fault .new with ⟨failed, same⟩ | ⟨good, off⟩
  · refine ⟨?_, fun _ => same, nofun⟩
    show Consistent (s.eraseConfiguration fault .new).2.2
    rw [same]
    exact h
  · refine ⟨?_, fun failed => absurd good failed, nofun⟩
    intro on
    unfold Sensor.configured at on
    simp only [perform] at on
    rw [off] at on
    exact nomatch on

theorem reboot_right (buses : ι → Bus β) (s : Stored ι) (b : Boot ι β) : (s.move buses (.reboot b)).Right buses := by
  refine ⟨Consistent.boot b, ?_, nofun⟩
  rcases s.boot_cases buses b with after | ⟨c, record, after⟩
  · show (s.boot buses b).2.storage = s.storage
    rw [after]
    rfl
  · show (s.boot buses b).2.storage = s.storage
    rw [after]

/-- **One move** is right exactly when it is covered. -/
theorem perform_right_iff (buses : ι → Bus β) {s : Stored ι} (h : s.Consistent) (op : Operation ι β) :
    (s.move buses op).Right buses ↔ (s.move buses op).Covered buses := by
  cases op with
  | write i c w readFault writeFault =>
    refine ⟨fun right => ?_, write_right h⟩
    rintro ⟨missing, rfl, accepts, rfl⟩
    exact write_not_right missing accepts writeFault right
  | erase fault => exact iff_of_true (erase_right buses h fault) trivial
  | reboot b => exact iff_of_true (reboot_right buses s b) trivial

theorem consistent_new (id : String) (data : ℚ) (storage : Storage Configuration) :
    (⟨.new id data, storage⟩ : Stored ι).Consistent := by
  intro on
  simp [Sensor.configured, Sensor.new] at on

theorem moves_right_of_consistent {s : Stored ι} (h : s.Consistent) (ops : List (Operation ι β)) :
    (∀ m ∈ s.moves buses ops, m.Right buses) ↔ ∀ m ∈ s.moves buses ops, m.Covered buses := by
  induction ops generalizing s with
  | nil => simp [moves]
  | cons op ops ih =>
    unfold moves
    rw [List.forall_mem_cons, List.forall_mem_cons]
    have first := perform_right_iff buses h op
    constructor
    · rintro ⟨right, rest⟩
      exact ⟨first.mp right, (ih right.consistent).mp rest⟩
    · rintro ⟨covered, rest⟩
      have right := first.mpr covered
      exact ⟨right, (ih right.consistent).mpr rest⟩

/-- **Memory and flash**: in a sequence of calls and reboots, every one keeps its promise
exactly when every one is covered. -/
theorem moves_right_iff (id : String) (data : ℚ) (storage : Storage Configuration) (ops : List (Operation ι β)) :
    (∀ m ∈ (⟨.new id data, storage⟩ : Stored ι).moves buses ops, m.Right buses) ↔
      ∀ m ∈ (⟨.new id data, storage⟩ : Stored ι).moves buses ops, m.Covered buses :=
  moves_right_of_consistent (consistent_new id data storage) ops

/-! ## A shorted line -/

/-- The line is held low: there is a presence pulse, and every slot reads 0. -/
def shorted : Bus Unit where
  reset := fun w => (.ok, w)
  writeBit := fun _ w => (.ok, w)
  readBit := fun w => ((.ok, false), w)

/-- The zero ROM code and a zero scratchpad have the right CRC: the sensor is configured
with nothing in the storage, and not any more after a reboot. -/
theorem configured_without_record : ∃ m ∈ (⟨.new "sensor" 0, fun _ => none⟩ : Stored Unit).moves (fun _ => shorted)
    [.write () .new () none none], m.code = .ok ∧ m.after.sensor.configured = true ∧
      m.after.storage "sensor" = none ∧ ¬ m.Right fun _ => shorted := by
  refine ⟨_, List.mem_singleton.mpr rfl, by decide +kernel, by decide +kernel, by decide +kernel, ?_⟩
  intro right
  have record := right.consistent (by decide +kernel)
  revert record
  decide +kernel

end Stored

end OcsComponents.Sensor.Ds18b20
