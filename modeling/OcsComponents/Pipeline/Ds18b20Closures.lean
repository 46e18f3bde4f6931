import OcsComponents.Pipeline.JsonFmt
import OcsComponents.Pipeline.RomSearch
import OcsComponents.Sensor.Ds18b20.ParseConfiguration
import OcsComponents.Sensor.Ds18b20.Persistence

/-!
# The closures of the DS18B20 requests

What `httpserver/ds18b20_handler.cpp` schedules on the node of a GPIO, executed: the functions
`scan_`, `read_configuration_`, `write_configuration_` and `erase_configuration_`, with the document
they write into. A node has sensors with different ids, and all of them share one storage. What the
bus and the storage do in a closure comes with it.
-/

namespace OcsComponents.Pipeline
open Status Fmt OneWire WhileLoop Transition Sensor.Ds18b20 OcsComponents.Storage

variable {ι β δ : Type}

/-- `resolution_to_str`. -/
def resolutionToStr : Resolution → String
  | .bit12 => "Bit_12"
  | .bit11 => "Bit_11"
  | .bit10 => "Bit_10"
  | .bit9 => "Bit_9"
  | .none => "<none>"

/-- The members that `format_configuration` adds. -/
def configurationMembers (c : Configuration) : List (String × Value δ) :=
  [("resolution", .string (resolutionToStr c.resolution)),
    ("serial_number", .string (serialNumberToStr c.romCode.serialNumber))]

/-- `format_configuration`. -/
def formatConfiguration (c : Configuration) : Formatter δ := addMembers (configurationMembers c)

/-- `get_sensor`: the sensor, with those before and after it. -/
def getSensor (sensorId : String) : List (Sensor ι) → Option (List (Sensor ι) × Sensor ι × List (Sensor ι))
  | [] => none
  | sensor :: rest =>
    if sensorId = sensor.id then some ([], sensor, rest)
    else (getSensor sensorId rest).map fun (before, found, after) => (sensor :: before, found, after)

/-! ## One sensor -/

/-- `read_configuration_`. -/
def readConfiguration_ (fault : Option StorageFault) (s : Stored ι) : Formatter δ := fun json h =>
  let (code, c) := s.readConfiguration fault .new
  if code ≠ .ok ∧ code ≠ .noData then (code, json, h) else formatConfiguration c json h

/-- `erase_configuration_`. -/
def eraseConfiguration_ (fault : Option StorageFault) (s : Stored ι) (json : Items δ) (h : Heap) :
    Stored ι × StatusCode × Items δ × Heap :=
  let (code, c, s) := s.eraseConfiguration fault .new
  if code ≠ .ok ∧ code ≠ .noData then (s, code, json, h) else (s, formatConfiguration c json h)

/-- What a write meets: the state of the bus for the search and for the device, and the faults of the
storage. -/
structure WriteEnv (β : Type) where
  search : β
  device : β
  readFault : Option StorageFault
  writeFault : Option StorageFault
  loadFault : Option StorageFault

/-- `write_configuration_`, when the ROM code has been found on the bus of node `i`. -/
def writeFound (buses : ι → Bus β) (i : ι) (e : WriteEnv β) (c : Configuration) (s : Stored ι) (json : Items δ)
    (h : Heap) : Stored ι × Outcome × Items δ × Heap :=
  let (code, s, _) := s.writeConfiguration buses i c e.device e.readFault e.writeFault
  if code ≠ .ok then (s, .ret code, json, h)
  else
    let (code, json, h) := readConfiguration_ e.loadFault s json h
    (s, .ret code, json, h)

/-- `write_configuration_` for a sensor that exists. -/
def writeConfiguration_ (buses : ι → Bus β) (i : ι) (e : WriteEnv β) (serialNumber resolution : StringView)
    (fuel : Nat) (s : Stored ι) (json : Items δ) (h : Heap) : Option (Stored ι × Outcome × Items δ × Heap) :=
  (parseConfiguration .new serialNumber resolution fuel).bind fun (code, c) =>
    if code ≠ .ok then some (s, .ret code, json, h)
    else
      (findRomCode (buses i) e.search c.romCode fuel).map fun (outcome, romCode) =>
        if outcome ≠ .ret .ok then (s, outcome, json, h)
        else writeFound buses i e { c with romCode := romCode } s json h

/-! ## A node -/

/-- The sensors in the order they were added, and the storage. -/
structure SensorNode (ι : Type) where
  sensors : List (Sensor ι)
  storage : Storage Configuration

/-- A request that names a sensor, and what its closure meets. -/
inductive SensorRequest (β : Type) where
  | read (fault : Option StorageFault)
  | erase (fault : Option StorageFault)
  | write (serialNumber resolution : StringView) (e : WriteEnv β)

namespace SensorNode
variable (buses : ι → Bus β)

/-- The function of a request, for one sensor. -/
def function (i : ι) (fuel : Nat) (s : Stored ι) (json : Items δ) (h : Heap) :
    SensorRequest β → Option (Stored ι × Outcome × Items δ × Heap)
  | .read fault =>
    let (code, json, h) := readConfiguration_ fault s json h
    some (s, .ret code, json, h)
  | .erase fault =>
    let (s, code, json, h) := eraseConfiguration_ fault s json h
    some (s, .ret code, json, h)
  | .write serialNumber resolution e => writeConfiguration_ buses i e serialNumber resolution fuel s json h

/-- The closure of a request: `get_sensor`, and the function for the sensor. -/
def closure (n : SensorNode ι) (i : ι) (sensorId : String) (r : SensorRequest β) (fuel : Nat) (json : Items δ)
    (h : Heap) : Option (SensorNode ι × Outcome × Items δ × Heap) :=
  match getSensor sensorId n.sensors with
  | none => some (n, .ret .invalidArg, json, h)
  | some (before, sensor, after) =>
    (function buses i fuel ⟨sensor, n.storage⟩ json h r).map fun (s, result) =>
      (⟨before ++ s.sensor :: after, s.storage⟩, result)

/-- What a sensor meets when it is added after a reboot, besides the sensors before it. -/
structure Reload (ι β : Type) where
  data : ℚ
  i : ι
  w : β
  loadFault : Option StorageFault
  readFault : Option StorageFault
  writeFault : Option StorageFault

/-- `Store::Node::add` of a new object of a sensor. -/
def add (e : Reload ι β) (n : SensorNode ι) (sensor : Sensor ι) : SensorNode ι :=
  let (code, s) := (Stored.mk sensor n.storage).boot buses
    ⟨e.data, n.sensors.map (·.id), e.i, e.w, e.loadFault, e.readFault, e.writeFault⟩
  ⟨if code = .ok then n.sensors ++ [s.sensor] else n.sensors, s.storage⟩

/-- A reboot of the device: the sensors are added again, one after another. -/
def reboot (e : String → Reload ι β) (n : SensorNode ι) : SensorNode ι :=
  n.sensors.foldl (fun n sensor => n.add buses (e sensor.id) sensor) ⟨[], n.storage⟩

end SensorNode

/-! ## What the functions do -/

/-- The document of a configuration. -/
def configurationDocument (c : Configuration) : Document δ := membersDocument (configurationMembers c)

theorem formatConfiguration_eq (c : Configuration) :
    formatConfiguration c = (configurationDocument c : Document δ).format := addMembers_eq _

/-- What is written when a configuration has been formatted: all of it, unless a call of cJSON failed. -/
theorem formatConfiguration_cases (c : Configuration) (json : Items δ) (h : Heap) {code : StatusCode}
    {json' : Items δ} {h' : Heap} (result : formatConfiguration c json h = (code, json', h')) :
    code = .ok ∧ json' = json ++ (configurationDocument c).items ∨ code ≠ .ok ∧ ¬ h.Clean h' := by
  rw [formatConfiguration_eq] at result
  obtain ⟨written, outcome⟩ := (configurationDocument c : Document δ).formats json h
  have completes := (configurationDocument c : Document δ).completes (by simp [configurationDocument,
    membersDocument, Document.fanout, Document.member, configurationMembers]) json h
  rw [result] at outcome completes
  by_cases ok : code = .ok
  · exact Or.inl ⟨ok, by rw [← outcome.whole ok]; exact outcome.items⟩
  · exact Or.inr ⟨ok, fun clean => ok (completes clean)⟩

section
variable {buses : ι → Bus β} {i : ι} {s : Stored ι}

/-- A configuration that is written is valid, and the device has taken it. -/
theorem writeConfiguration_ok {c : Configuration} {w : β} {readFault writeFault : Option StorageFault}
    (ok : (s.writeConfiguration buses i c w readFault writeFault).1 = .ok) :
    c.romCode.valid = true ∧ Stored.Accepts (buses i) c w := by
  unfold Stored.writeConfiguration at ok
  by_cases valid : c.romCode.valid = false
  · rw [if_pos valid] at ok
    cases ok
  rw [if_neg valid] at ok
  refine ⟨by simpa using valid, (Stored.updateDevice_ok_iff _ _ _).mp ?_⟩
  generalize Stored.updateDevice (buses i) c w = device at ok
  obtain ⟨code, w'⟩ := device
  by_cases good : code = .ok
  · exact good
  · simp [returnOnError_fail _ _ good] at ok
    exact ok

/-- What has been written is on record, whatever was before. -/
theorem writeConfiguration_recorded {c : Configuration} {w : β} {readFault writeFault : Option StorageFault}
    (named : c.resolution ≠ .none) (ok : (s.writeConfiguration buses i c w readFault writeFault).1 = .ok) :
    (s.writeConfiguration buses i c w readFault writeFault).2.1 =
      ⟨{ s.sensor with bus := some i, configuration := c }, Function.update s.storage s.sensor.id (some c)⟩ := by
  rcases Stored.writeConfiguration_cases buses s i c w readFault writeFault with
    ⟨failed, _⟩ | ⟨_, storage, after, written⟩
  · exact absurd ok failed
  rw [after]
  rcases written with rfl | ⟨rfl, there | ⟨_, rfl, _⟩⟩
  · rfl
  · rw [Function.update_eq_self_iff.mpr there.symm]
  · exact absurd rfl named

end

/-- `find_rom_code` ends with `OK` at a code that has the serial number. -/
theorem findRomCode_ok {B : Bus β} {bus : β} {configured code : RomCode} {fuel : Nat}
    (found : findRomCode B bus configured fuel = some (.ret .ok, code)) :
    code.serialNumber = configured.serialNumber := by
  suffices all : ∀ s : RomSearch β RomCode, run (findRomCodeBody B) fuel s = some (.ret .ok, code) →
      code.serialNumber = s.acc.serialNumber from all _ found
  clear found
  induction fuel with
  | zero => exact fun s none => by cases none
  | succ fuel ih =>
    intro s ends
    rw [run, findRomCodeBody, searchBody] at ends
    rcases call : Scan.scan B ⟨s.scanner, .new, s.bus⟩ with ⟨outcome, r⟩
    rw [call] at ends
    cases outcome with
    | fault f => cases ends
    | ret status =>
      by_cases ok : status = .ok
      · subst ok
        by_cases same : r.buf.serialNumber = s.acc.serialNumber
        · simp only [same, if_true] at ends
          cases ends
          exact same
        · simp only [same, if_false] at ends
          exact ih ⟨r.scanner, r.bus, s.acc⟩ ends
      · cases status <;> first | exact absurd rfl ok | cases ends

/-- A configuration that is parsed has a resolution. -/
theorem parseConfiguration_named {configuration c : Configuration} {serialNumber resolution : StringView} {fuel : Nat}
    (parsed : parseConfiguration configuration serialNumber resolution fuel = some (.ok, c)) :
    c.resolution ≠ .none := by
  obtain ⟨⟨accepted, bytes⟩, _, configured⟩ := Option.map_eq_some_iff.mp parsed
  unfold configure at configured
  cases accepted with
  | false => cases configured
  | true =>
    simp only [Bool.not_true, Bool.false_eq_true, if_false] at configured
    split at configured
    · cases configured
    · next named =>
      cases configured
      exact named

section
variable {buses : ι → Bus β} {i : ι} {s s' : Stored ι} {json json' : Items δ} {h h' : Heap} {fuel : Nat}

/-- What was asked for, as it was found on the bus and taken by the device. -/
structure Requested (buses : ι → Bus β) (i : ι) (serialNumber resolution : StringView) (e : WriteEnv β)
    (c : Configuration) : Prop where
  found : ∃ fuel romCode, parseConfiguration .new serialNumber resolution fuel = some (.ok, ⟨romCode, c.resolution⟩) ∧
    findRomCode (buses i) e.search romCode fuel = some (.ret .ok, c.romCode) ∧
    c.romCode.serialNumber = romCode.serialNumber
  valid : c.romCode.valid = true
  named : c.resolution ≠ .none
  accepted : Stored.Accepts (buses i) c e.device

/-- A sensor that is configured is read from memory. -/
theorem readConfiguration_configured (fault : Option StorageFault) (on : s.sensor.configured = true) :
    readConfiguration_ fault s = (formatConfiguration s.sensor.configuration : Formatter δ) := by
  funext json h
  simp [readConfiguration_, Stored.readConfiguration, on]

theorem writeFound_cases {e : WriteEnv β} {c : Configuration} (named : c.resolution ≠ .none) {outcome : Outcome}
    (result : writeFound buses i e c s json h = (s', outcome, json', h')) :
    s' = s ∧ outcome ≠ .ret .ok ∨
      c.romCode.valid = true ∧ Stored.Accepts (buses i) c e.device ∧
        s' = ⟨{ s.sensor with bus := some i, configuration := c }, Function.update s.storage s.sensor.id (some c)⟩ ∧
        (outcome = .ret .ok ∧ json' = json ++ (configurationDocument c).items ∨ outcome ≠ .ret .ok ∧ ¬ h.Clean h') := by
  have kept := Stored.writeConfiguration_cases buses s i c e.device e.readFault e.writeFault
  have accepted := @writeConfiguration_ok _ _ buses i s c e.device e.readFault e.writeFault
  have recorded := @writeConfiguration_recorded _ _ buses i s c e.device e.readFault e.writeFault named
  unfold writeFound at result
  generalize s.writeConfiguration buses i c e.device e.readFault e.writeFault = wrote at *
  obtain ⟨code, s₁, w₁⟩ := wrote
  dsimp only at result kept accepted recorded
  by_cases ok : code = .ok
  · right
    obtain rfl := recorded ok
    rw [if_neg (not_not_intro ok), readConfiguration_configured _ rfl] at result
    rcases formatted : formatConfiguration c json h with ⟨code', json₁, h₁⟩
    rw [formatted] at result
    cases result
    refine ⟨(accepted ok).1, (accepted ok).2, rfl, ?_⟩
    rcases formatConfiguration_cases c json h formatted with ⟨rfl, whole⟩ | ⟨failed, unclean⟩
    · exact Or.inl ⟨rfl, whole⟩
    · exact Or.inr ⟨fun same => failed (by cases same; rfl), unclean⟩
  · left
    rw [if_pos ok] at result
    cases result
    rcases kept with ⟨_, same⟩ | ⟨good, _⟩
    · exact ⟨same, fun same => ok (by cases same; rfl)⟩
    · exact absurd good ok

/-- A write changes nothing, or it is carried out and only its document may be missing. -/
theorem writeConfiguration_outcome {e : WriteEnv β} {serialNumber resolution : StringView} {outcome : Outcome}
    (result : writeConfiguration_ buses i e serialNumber resolution fuel s json h = some (s', outcome, json', h')) :
    s' = s ∧ outcome ≠ .ret .ok ∨
      ∃ c, Requested buses i serialNumber resolution e c ∧
        s' = ⟨{ s.sensor with bus := some i, configuration := c }, Function.update s.storage s.sensor.id (some c)⟩ ∧
        (outcome = .ret .ok ∧ json' = json ++ (configurationDocument c).items ∨ outcome ≠ .ret .ok ∧ ¬ h.Clean h') := by
  unfold writeConfiguration_ at result
  obtain ⟨⟨code, c⟩, parsed, result⟩ := Option.bind_eq_some_iff.mp result
  dsimp only at result
  by_cases ok : code = .ok
  · subst ok
    rw [if_neg (not_not_intro rfl)] at result
    obtain ⟨⟨found, romCode⟩, search, result⟩ := Option.map_eq_some_iff.mp result
    dsimp only at result
    by_cases ok : found = .ret .ok
    · subst ok
      rw [if_neg (not_not_intro rfl)] at result
      have named := parseConfiguration_named parsed
      rcases writeFound_cases (c := ⟨romCode, c.resolution⟩) named result with same | ⟨valid, accepted, rest⟩
      · exact Or.inl same
      · exact Or.inr ⟨⟨romCode, c.resolution⟩, {
          found := ⟨fuel, c.romCode, parsed, search, findRomCode_ok search⟩
          valid := valid
          named := named
          accepted := accepted }, rest⟩
    · left
      rw [if_pos ok] at result
      cases result
      exact ⟨rfl, ok⟩
  · left
    rw [if_pos ok] at result
    cases result
    exact ⟨rfl, fun same => ok (by cases same; rfl)⟩

/-- A sensor is configured from its record, or as it is constructed. -/
structure Settled (s : Stored ι) : Prop where
  consistent : s.Consistent
  blank : s.sensor.configured = false → s.sensor.configuration = .new

theorem eraseConfiguration_outcome (settled : Settled s) {fault : Option StorageFault} {code : StatusCode}
    (result : eraseConfiguration_ fault s json h = (s', code, json', h')) :
    s' = s ∧ code ≠ .ok ∨
      s'.sensor = ⟨s.sensor.id, none, .new, s.sensor.data⟩ ∧
        s'.storage = Function.update s.storage s.sensor.id none ∧
        ((∃ c, (c = .new ∨ s.storage s.sensor.id = some c) ∧ code = .ok ∧
          json' = json ++ (configurationDocument c).items) ∨
          code ≠ .ok ∧ ¬ h.Clean h') := by
  unfold eraseConfiguration_ Stored.eraseConfiguration Storage.erase at result
  cases fault with
  | some f =>
    left
    simp only [f.failed.1, f.failed.2, ne_eq, not_false_eq_true, and_self, if_true] at result
    cases result
    exact ⟨rfl, f.failed.1⟩
  | none =>
    right
    cases record : s.storage s.sensor.id with
    | none =>
      have off : s.sensor.configured = false := by
        by_contra on
        have there := settled.consistent (by simpa using on)
        rw [record] at there
        cases there
      have same : s.sensor = ⟨s.sensor.id, none, .new, s.sensor.data⟩ := by
        have blank := settled.blank off
        have bus : s.sensor.bus = none := by simpa [Sensor.configured] using off
        rw [← blank, ← bus]
      rw [record] at result
      rcases formatted : (formatConfiguration .new : Formatter δ) json h with ⟨code', json₁, h₁⟩
      simp only [ne_eq, reduceCtorEq, not_false_eq_true, not_true, and_false, if_true, if_false, formatted] at result
      cases result
      refine ⟨same, (Function.update_eq_self_iff.mpr record.symm).symm, ?_⟩
      rcases formatConfiguration_cases _ json h formatted with ⟨ok, whole⟩ | failed
      · exact Or.inl ⟨.new, Or.inl rfl, ok, whole⟩
      · exact Or.inr failed
    | some c =>
      rw [record] at result
      rcases formatted : (formatConfiguration s.sensor.configuration : Formatter δ) json h with ⟨code', json₁, h₁⟩
      simp only [ne_eq, not_true, false_and, if_false, formatted] at result
      cases result
      refine ⟨rfl, rfl, ?_⟩
      rcases formatConfiguration_cases _ json h formatted with ⟨ok, whole⟩ | failed
      · refine Or.inl ⟨s.sensor.configuration, ?_, ok, whole⟩
        by_cases on : s.sensor.configured = true
        · exact Or.inr (record.symm.trans (settled.consistent on))
        · exact Or.inl (settled.blank (by simpa using on))
      · exact Or.inr failed

theorem readConfiguration_outcome (settled : Settled s) {fault : Option StorageFault} {code : StatusCode}
    (result : readConfiguration_ fault s json h = (code, json', h')) :
    code = .ok ∧ json' = json ++ (configurationDocument ((s.storage s.sensor.id).getD .new)).items ∨ code ≠ .ok := by
  have formatted : ∀ c, formatConfiguration c json h = (code, json', h') →
      code = .ok ∧ json' = json ++ (configurationDocument c).items ∨ code ≠ .ok :=
    fun c formatted => (formatConfiguration_cases c json h formatted).imp id And.left
  by_cases on : s.sensor.configured = true
  · rw [readConfiguration_configured fault on] at result
    rw [settled.consistent on]
    exact formatted _ result
  · unfold readConfiguration_ Stored.readConfiguration Storage.read at result
    rw [if_neg on] at result
    cases fault with
    | some f =>
      right
      simp only [f.failed.1, f.failed.2, ne_eq, not_false_eq_true, and_self, if_true] at result
      cases result
      exact f.failed.1
    | none =>
      cases record : s.storage s.sensor.id with
      | none =>
        rw [record] at result
        exact formatted _ (by simpa using result)
      | some c =>
        rw [record] at result
        exact formatted _ (by simpa using result)

end

/-! ## The node as a map -/

/-- A closure that was executed, with its outcome and what it wrote, or a reboot. -/
inductive NodeLabel (ι β δ : Type) where
  | request (sensorId : String) (r : SensorRequest β) (outcome : Outcome) (json json' : Items δ) (h h' : Heap)
  | reboot (e : String → SensorNode.Reload ι β)

section
variable (buses : ι → Bus β) (i : ι)

/-- The steps of the node of bus `i`. -/
inductive NodeStep : SensorNode ι → NodeLabel ι β δ → SensorNode ι → Prop where
  | request {n n' : SensorNode ι} {sensorId : String} {r : SensorRequest β} {outcome : Outcome} {json json' : Items δ}
      {h h' : Heap} (fuel : Nat) (done : n.closure buses i sensorId r fuel json h = some (n', outcome, json', h')) :
      NodeStep n (.request sensorId r outcome json json' h h') n'
  | reboot (n : SensorNode ι) (e : String → SensorNode.Reload ι β) : NodeStep n (.reboot e) (n.reboot buses e)

/-- The configuration is the answer, unless a call of cJSON failed. -/
def Answers (c : Configuration) (outcome : Outcome) (json json' : Items δ) (h h' : Heap) : Prop :=
  outcome = .ret .ok ∧ json' = json ++ (configurationDocument c).items ∨ outcome ≠ .ret .ok ∧ ¬ h.Clean h'

/-- What a node is for: a map from the ids of its sensors to their configurations, that is read, written
and erased. A request that fails changes nothing, except that one whose answer does not fit into memory
has been carried out; a reboot changes nothing. An erase answers with what was on record, or with the
default configuration: this one also where there is a record, but the sensor could not be configured
from it at boot. -/
inductive RecordStep (ids : List String) (m : Storage Configuration) :
    NodeLabel ι β δ → Storage Configuration → Prop where
  | failed {sensorId : String} {r : SensorRequest β} {outcome : Outcome} (json json' : Items δ) (h h' : Heap)
      (not_ok : outcome ≠ .ret .ok) : RecordStep ids m (.request sensorId r outcome json json' h h') m
  | read {sensorId : String} (known : sensorId ∈ ids) (fault : Option StorageFault) (json : Items δ) (h h' : Heap) :
      RecordStep ids m (.request sensorId (.read fault) (.ret .ok) json
        (json ++ (configurationDocument ((m sensorId).getD .new)).items) h h') m
  | erase {sensorId : String} (known : sensorId ∈ ids) (fault : Option StorageFault) {c : Configuration}
      (erased : c = .new ∨ m sensorId = some c) {outcome : Outcome} {json json' : Items δ} {h h' : Heap}
      (answers : Answers c outcome json json' h h') :
      RecordStep ids m (.request sensorId (.erase fault) outcome json json' h h') (Function.update m sensorId none)
  | write {sensorId : String} (known : sensorId ∈ ids) {serialNumber resolution : StringView} {e : WriteEnv β}
      {c : Configuration} (requested : Requested buses i serialNumber resolution e c) {outcome : Outcome}
      {json json' : Items δ} {h h' : Heap} (answers : Answers c outcome json json' h h') :
      RecordStep ids m (.request sensorId (.write serialNumber resolution e) outcome json json' h h')
        (Function.update m sensorId (some c))
  | reboot (e : String → SensorNode.Reload ι β) : RecordStep ids m (.reboot e) m

end

/-- Different sensors, each of them configured from its record or not at all. -/
structure SensorNode.Sound (n : SensorNode ι) : Prop where
  distinct : (n.sensors.map (·.id)).Nodup
  settled : ∀ sensor ∈ n.sensors, Settled ⟨sensor, n.storage⟩

theorem getSensor_some {sensorId : String} {sensor : Sensor ι} {sensors before after : List (Sensor ι)}
    (found : getSensor sensorId sensors = some (before, sensor, after)) :
    sensors = before ++ sensor :: after ∧ sensor.id = sensorId := by
  induction sensors generalizing before with
  | nil => cases found
  | cons first rest ih =>
    rw [getSensor] at found
    by_cases here : sensorId = first.id
    · rw [if_pos here] at found
      cases found
      exact ⟨rfl, here.symm⟩
    · rw [if_neg here] at found
      obtain ⟨⟨before', found', after'⟩, inner, same⟩ := Option.map_eq_some_iff.mp found
      cases same
      obtain ⟨rfl, id⟩ := ih inner
      exact ⟨rfl, id⟩

section
variable {buses : ι → Bus β} {i : ι} {json json' : Items δ} {h h' : Heap} {outcome : Outcome}

/-- What a function does for its sensor, and that it leaves the records of the others alone. -/
theorem function_step {s s' : Stored ι} {fuel : Nat} {r : SensorRequest β} {ids : List String}
    (known : s.sensor.id ∈ ids)
    (settled : Settled s) (done : SensorNode.function buses i fuel s json h r = some (s', outcome, json', h')) :
    RecordStep buses i ids s.storage (.request s.sensor.id r outcome json json' h h') s'.storage ∧
      s'.sensor.id = s.sensor.id ∧ Settled s' ∧ ∀ key, key ≠ s.sensor.id → s'.storage key = s.storage key := by
  cases r with
  | read fault =>
    rcases result : readConfiguration_ fault s json h with ⟨code, json₁, h₁⟩
    simp only [SensorNode.function, result] at done
    cases done
    refine ⟨?_, rfl, settled, fun _ _ => rfl⟩
    rcases readConfiguration_outcome settled result with ⟨rfl, rfl⟩ | failed
    · exact .read known fault json h h'
    · exact .failed _ _ _ _ fun same => failed (by cases same; rfl)
  | erase fault =>
    rcases result : eraseConfiguration_ fault s json h with ⟨s₁, code, json₁, h₁⟩
    simp only [SensorNode.function, result] at done
    cases done
    rcases eraseConfiguration_outcome settled result with ⟨rfl, failed⟩ | ⟨sensor, storage, answer⟩
    · exact ⟨.failed _ _ _ _ fun same => failed (by cases same; rfl), rfl, settled, fun _ _ => rfl⟩
    · refine ⟨?_, by rw [sensor], ⟨by rw [Stored.Consistent, sensor]; nofun, by rw [sensor]; exact fun _ => rfl⟩, ?_⟩
      · rw [storage]
        rcases answer with ⟨c, erased, rfl, rfl⟩ | ⟨failed, unclean⟩
        · exact .erase known fault erased (Or.inl ⟨rfl, rfl⟩)
        · exact .erase known fault (Or.inl rfl) (Or.inr ⟨fun same => failed (by cases same; rfl), unclean⟩)
      · intro key other
        rw [storage, Function.update_of_ne other]
  | write serialNumber resolution e =>
    rcases writeConfiguration_outcome done with ⟨rfl, failed⟩ | ⟨c, requested, rfl, answers⟩
    · exact ⟨.failed _ _ _ _ failed, rfl, settled, fun _ _ => rfl⟩
    · refine ⟨.write known requested answers, rfl, ⟨fun _ => Function.update_self .., nofun⟩, ?_⟩
      exact fun key other => Function.update_of_ne other ..

/-- A sensor that is settled stays so while its record does. -/
theorem Settled.frame {sensor : Sensor ι} {st st' : Storage Configuration} (h : Settled ⟨sensor, st⟩)
    (same : st' sensor.id = st sensor.id) : Settled ⟨sensor, st'⟩ :=
  ⟨fun on => same.trans (h.consistent on), h.blank⟩

theorem closure_step {n n' : SensorNode ι} (sound : n.Sound) {sensorId : String} {r : SensorRequest β} {fuel : Nat}
    (done : n.closure buses i sensorId r fuel json h = some (n', outcome, json', h')) :
    RecordStep buses i (n.sensors.map (·.id)) n.storage (.request sensorId r outcome json json' h h') n'.storage ∧
      n'.sensors.map (·.id) = n.sensors.map (·.id) ∧ n'.Sound := by
  unfold SensorNode.closure at done
  cases found : getSensor sensorId n.sensors with
  | none =>
    rw [found] at done
    cases done
    exact ⟨.failed _ _ _ _ (by decide), rfl, sound⟩
  | some place =>
    obtain ⟨before, sensor, after⟩ := place
    rw [found] at done
    obtain ⟨whole, rfl⟩ := getSensor_some found
    obtain ⟨⟨s', result⟩, executed, same⟩ := Option.map_eq_some_iff.mp done
    cases same
    have member : sensor ∈ n.sensors := by rw [whole]; simp
    obtain ⟨step, id, settled, frame⟩ :=
      function_step (List.mem_map_of_mem member) (sound.settled sensor member) executed
    have ids : (before ++ s'.sensor :: after).map (·.id) = n.sensors.map (·.id) := by
      rw [whole]
      simp [id]
    refine ⟨step, ids, ?_, ?_⟩
    · rw [ids]
      exact sound.distinct
    · have distinct := sound.distinct
      rw [whole, List.map_append, List.map_cons, List.nodup_middle, List.nodup_cons, List.mem_append] at distinct
      intro other mem
      have others : ∀ other ∈ before ++ after, Settled ⟨other, s'.storage⟩ := by
        intro other mem
        have old : other ∈ n.sensors := by
          rw [whole]
          rcases List.mem_append.mp mem with left | right
          · exact List.mem_append_left _ left
          · exact List.mem_append_right _ (List.mem_cons_of_mem _ right)
        refine (sound.settled other old).frame (frame _ fun same => distinct.1 ?_)
        rw [← List.mem_append, ← List.map_append]
        exact List.mem_map.mpr ⟨other, mem, same⟩
      rcases List.mem_append.mp mem with left | right
      · exact others other (List.mem_append_left _ left)
      · rcases List.mem_cons.mp right with rfl | right
        · exact settled
        · exact others other (List.mem_append_right _ right)

/-- A sensor with a new id is added; it is settled then, and has its id. -/
theorem boot_added {s : Stored ι} {b : Stored.Boot ι β} (new : s.sensor.id ∉ b.ids) :
    (s.boot buses b).1 = .ok ∧ (s.boot buses b).2.sensor.id = s.sensor.id ∧
      (s.boot buses b).2.storage = s.storage ∧ Settled (s.boot buses b).2 := by
  constructor
  · unfold Stored.boot Stored.add
    rw [if_neg (show (s.reboot b.data).sensor.id ∉ b.ids from new)]
  · rcases s.boot_cases buses b with after | ⟨c, record, after⟩ <;> rw [after]
    · exact ⟨rfl, rfl, nofun, fun _ => rfl⟩
    · exact ⟨rfl, rfl, fun _ => record, nofun⟩

theorem add_sound {n : SensorNode ι} (sound : n.Sound) (e : SensorNode.Reload ι β) {sensor : Sensor ι}
    (new : sensor.id ∉ n.sensors.map (·.id)) :
    (n.add buses e sensor).Sound ∧ (n.add buses e sensor).storage = n.storage ∧
      (n.add buses e sensor).sensors.map (·.id) = n.sensors.map (·.id) ++ [sensor.id] := by
  have added := @boot_added _ _ buses ⟨sensor, n.storage⟩
    ⟨e.data, n.sensors.map (·.id), e.i, e.w, e.loadFault, e.readFault, e.writeFault⟩ new
  unfold SensorNode.add
  generalize Stored.boot buses (Stored.mk sensor n.storage) _ = booted at *
  obtain ⟨code, ⟨object, storage⟩⟩ := booted
  obtain ⟨rfl, id, rfl, settled⟩ := added
  have ids : (n.sensors ++ [object]).map (·.id) = n.sensors.map (·.id) ++ [sensor.id] := by
    rw [List.map_append, List.map_singleton, id]
  refine ⟨⟨?_, ?_⟩, rfl, ids⟩
  · simp only [if_true, ids]
    exact List.nodup_append'.mpr ⟨sound.distinct, List.nodup_singleton _, List.disjoint_singleton.mpr new⟩
  · simp only [if_true]
    exact List.forall_mem_append.mpr ⟨sound.settled, List.forall_mem_singleton.mpr settled⟩

/-- Sensors that are added behind others with other ids are all there; the records stay. -/
theorem foldl_add_sound (e : String → SensorNode.Reload ι β) :
    ∀ (sensors : List (Sensor ι)) (n : SensorNode ι), n.Sound →
    (n.sensors.map (·.id) ++ sensors.map (·.id)).Nodup →
    let n' := sensors.foldl (fun n sensor => n.add buses (e sensor.id) sensor) n
    n'.Sound ∧ n'.storage = n.storage ∧ n'.sensors.map (·.id) = n.sensors.map (·.id) ++ sensors.map (·.id) := by
  intro sensors
  induction sensors with
  | nil => exact fun n sound _ => ⟨sound, rfl, (List.append_nil _).symm⟩
  | cons sensor rest ih =>
    intro n sound distinct
    have new : sensor.id ∉ n.sensors.map (·.id) := by
      rw [List.map_cons, List.nodup_middle, List.nodup_cons, List.mem_append, not_or] at distinct
      exact distinct.1.1
    obtain ⟨sound', storage, ids⟩ := @add_sound _ _ buses _ sound (e sensor.id) _ new
    have order : (n.add buses (e sensor.id) sensor).sensors.map (·.id) ++ rest.map (·.id) =
        n.sensors.map (·.id) ++ (sensor :: rest).map (·.id) := by
      rw [ids, List.map_cons, List.append_assoc, List.singleton_append]
    obtain ⟨sound'', storage', ids'⟩ := ih _ sound' (by rw [order]; exact distinct)
    exact ⟨sound'', storage'.trans storage, ids'.trans order⟩

theorem reboot_sound {n : SensorNode ι} (sound : n.Sound) (e : String → SensorNode.Reload ι β) :
    (n.reboot buses e).Sound ∧ (n.reboot buses e).storage = n.storage ∧
      (n.reboot buses e).sensors.map (·.id) = n.sensors.map (·.id) :=
  foldl_add_sound e n.sensors ⟨[], n.storage⟩ ⟨List.nodup_nil, List.forall_mem_nil _⟩ sound.distinct

theorem node_step {ids : List String} {n n' : SensorNode ι} {l : NodeLabel ι β δ} (sound : n.Sound)
    (known : n.sensors.map (·.id) = ids) (step : NodeStep buses i n l n') :
    RecordStep buses i ids n.storage l n'.storage ∧ n'.sensors.map (·.id) = ids ∧ n'.Sound := by
  subst known
  cases step with
  | request fuel done => exact closure_step sound done
  | reboot e =>
    obtain ⟨sound', storage, same⟩ := @reboot_sound _ _ buses _ sound e
    rw [storage]
    exact ⟨.reboot e, same, sound'⟩

end

/-- **A node is a map from the ids of its sensors to their configurations**, whatever requests come in
whatever order, whatever fails, and across reboots: every answer is that of the map. In every state a
sensor that is configured has its record. -/
theorem node_refines_records (buses : ι → Bus β) (i : ι) {n₀ n : SensorNode ι} {tr : List (NodeLabel ι β δ)}
    (sound : n₀.Sound) (run : Run (NodeStep buses i) n₀ tr n) :
    Run (RecordStep buses i (n₀.sensors.map (·.id))) n₀.storage tr n.storage ∧ n.Sound ∧
      n.sensors.map (·.id) = n₀.sensors.map (·.id) := by
  induction run with
  | start => exact ⟨.start, sound, rfl⟩
  | next before last ih =>
    obtain ⟨records, sound', ids⟩ := ih
    obtain ⟨step, ids', sound''⟩ := node_step sound' ids last
    exact ⟨.next records step, sound'', ids'⟩

/-- A sensor that has never been configured. -/
def oneSensor : SensorNode Unit := ⟨[.new "probe" 0], fun _ => none⟩

/-- A device, and what the bus answers to a search for it and then to a write of 12 bits. -/
def probe : RomCode := ⟨#v[0x28, 0xAA, 0xBB, 0xCC, 0xDD, 0xEE, 0xFF, 0x0C]⟩

def probeEnv : WriteEnv (List Bool) :=
  ⟨(Sensor.wireBits probe.bytes.toList).flatMap fun bit => [bit, !bit], Sensor.wireBits Sensor.spring.bytes.toList,
    none, none, none⟩

/-- A write that is carried out, a reboot, and an erase. -/
theorem node_refines_records_two :
    ∃ (serialNumber resolution : StringView) (e : String → SensorNode.Reload Unit (List Bool)) (h h₁ h₂ : Heap)
      (json₁ json₂ : Items Int) (n : SensorNode Unit),
      Run (RecordStep (fun _ => Sensor.scripted) () ["probe"]) (fun _ => none)
        [.request "probe" (.write serialNumber resolution probeEnv) (.ret .ok) .nil json₁ h h₁, .reboot e,
          .request "probe" (.erase none) (.ret .ok) .nil json₂ h h₂] n.storage ∧
        n.Sound ∧ n.sensors.map (·.id) = ["probe"] := by
  have sound : oneSensor.Sound := ⟨List.nodup_singleton _, List.forall_mem_singleton.mpr ⟨nofun, fun _ => rfl⟩⟩
  let serialNumber : StringView := .ofCString ⟨"AA:BB:CC:DD:EE:FF".toList, by decide +kernel⟩
  let resolution : StringView := .ofCString ⟨"12".toList, by decide +kernel⟩
  let e : String → SensorNode.Reload Unit (List Bool) := fun _ => ⟨0, (), [], none, none, none⟩
  let h : Heap := ⟨0, 0, fun _ => false⟩
  have executed :
      ((oneSensor.closure (fun _ => Sensor.scripted) () "probe" (.write serialNumber resolution probeEnv) 20
          (.nil : Items Int) h).bind fun wrote =>
        ((wrote.1.reboot (fun _ => Sensor.scripted) e).closure (fun _ => Sensor.scripted) () "probe" (.erase none) 0
            (.nil : Items Int) h).map fun erased => (wrote.2.1, erased.2.1)) = some (.ret .ok, .ret .ok) := by
    decide +kernel
  obtain ⟨⟨n₁, _, json₁, h₁⟩, wrote, rest⟩ := Option.bind_eq_some_iff.mp executed
  obtain ⟨⟨n₂, _, json₂, h₂⟩, erased, same⟩ := Option.map_eq_some_iff.mp rest
  cases same
  exact ⟨serialNumber, resolution, e, h, h₁, h₂, json₁, json₂, n₂, node_refines_records (fun _ => Sensor.scripted) ()
    sound (.next (.next (.single (.request 20 wrote)) (.reboot _ e)) (.request 0 erased))⟩

/-! ## Scanning -/

section
variable (B : Bus β)

/-- `scan_rom_code_`: the array is there before the search. -/
def scanRomCode_ (bus : β) (fuel : Nat) (json : Items δ) (h : Heap) : Option (Outcome × Items δ × Heap) :=
  match h.make with
  | (false, h) => some (.ret .noMem, json, h)
  | (true, h) =>
    (scanRomCodes B (fun str (s : Items δ × Heap) => CjsonArrayFormatter.appendString str s.1 s.2) bus
      (.nil, h) fuel).map
      fun (outcome, child, h) => (outcome, json ++ .item (some "rom_codes") .array child, h)

/-- `format_sensor_`. -/
def formatSensor_ (sensor : Sensor ι) : Formatter δ :=
  attach none .object (addMembers [("id", .string sensor.id), ("configured", .bool sensor.configured)])

/-- `format_sensors_`. -/
def formatSensors_ (sensors : List (Sensor ι)) : Formatter δ :=
  addArrayToObject "sensors" (FanoutFormatter.format (sensors.map formatSensor_))

/-- `scan_`. -/
def scan_ (bus : β) (sensors : List (Sensor ι)) (fuel : Nat) (json : Items δ) (h : Heap) :
    Option (Outcome × Items δ × Heap) :=
  (scanRomCode_ B bus fuel json h).map fun (outcome, json, h) =>
    if outcome ≠ .ret .ok then (outcome, json, h)
    else
      let (code, json, h) := formatSensors_ sensors json h
      (.ret code, json, h)

end

/-- The serial numbers of ROM codes. -/
def romCodesDocument (codes : List RomCode) : Document δ :=
  .array "rom_codes" (.fanout (codes.map fun code => .element (.string (serialNumberToStr code.serialNumber))))

/-- A sensor of a node. -/
def sensorDocument (sensor : Sensor ι) : Document δ :=
  (membersDocument [("id", .string sensor.id), ("configured", .bool sensor.configured)]).attached none .object

/-- The sensors of a node. -/
def sensorsDocument (sensors : List (Sensor ι)) : Document δ := .array "sensors" (.fanout (sensors.map sensorDocument))

theorem formatSensors_eq (sensors : List (Sensor ι)) :
    formatSensors_ sensors = (sensorsDocument sensors : Document δ).format := by
  have each : (formatSensor_ : Sensor ι → Formatter δ) = fun sensor => (sensorDocument sensor).format := by
    funext sensor
    rw [formatSensor_, addMembers_eq]
    rfl
  rw [formatSensors_, each]
  simp [sensorsDocument, Document.array, Document.fanout, Function.comp_def]

section
variable {σ : Type} {B : Bus β}

/-- What `scan_rom_codes` makes of the codes it is given. -/
def appendAll (append : String → σ → Bool × σ) : List RomCode → σ → StatusCode × σ
  | [], acc => (.ok, acc)
  | code :: codes, acc =>
    match append (serialNumberToStr code.serialNumber) acc with
    | (true, acc) => appendAll append codes acc
    | (false, acc) => (.noMem, acc)

/-- The first of the calls of a scanner. -/
theorem scanCalls_uncons {calls : Nat} {sc : RomCodeScanner} {bus : β} {status : StatusCode} {code : RomCode}
    {rest : List (Outcome × RomCode)} (results : scanCalls B calls sc bus = (.ret status, code) :: rest) :
    ∃ r k, calls = k + 1 ∧ Scan.scan B ⟨sc, .new, bus⟩ = (.ret status, r) ∧ r.buf = code ∧
      scanCalls B k r.scanner r.bus = rest := by
  cases calls with
  | zero => cases results
  | succ k =>
    rcases call : Scan.scan B ⟨sc, .new, bus⟩ with ⟨outcome, r⟩
    cases outcome with
    | fault f => simp [scanCalls, call] at results
    | ret status' =>
      simp only [scanCalls, call, List.cons.injEq, Prod.mk.injEq, Outcome.ret.injEq] at results
      obtain ⟨⟨rfl, rfl⟩, later⟩ := results
      exact ⟨r, k, rfl, rfl, rfl, later⟩

theorem leaves_appendAll (append : String → σ → Bool × σ) :
    ∀ (codes : List RomCode) sc bus acc,
      scanCalls B (codes.length + 1) sc bus = codes.map (fun code => (.ret .ok, code)) ++ [(.ret .noData, .new)] →
      Leaves (scanRomCodesBody B append) ⟨sc, bus, acc⟩
        (.ret (appendAll append codes acc).1, (appendAll append codes acc).2) := by
  intro codes
  induction codes with
  | nil =>
    intro sc bus acc calls
    obtain ⟨r, _, _, call, _⟩ := scanCalls_uncons calls
    exact leaves_now (by simp [scanRomCodesBody, searchBody, call, appendAll])
  | cons found codes ih =>
    intro sc bus acc calls
    obtain ⟨r, k, same, call, rfl, rest⟩ := scanCalls_uncons calls
    obtain rfl := Nat.succ.inj same
    rcases added : append (serialNumberToStr r.buf.serialNumber) acc with ⟨fits, acc'⟩
    cases fits with
    | false =>
      simp only [appendAll, added]
      exact leaves_now (by simp only [scanRomCodesBody, searchBody, call, added])
    | true =>
      simp only [appendAll, added]
      exact .later (by simp only [scanRomCodesBody, searchBody, call, added]; rfl) (ih r.scanner r.bus acc' rest)

end

/-- The serial numbers in an array. -/
theorem appendAll_eq (codes : List RomCode) (s : Items δ × Heap) :
    appendAll (fun str s => CjsonArrayFormatter.appendString str s.1 s.2) codes s =
      FanoutFormatter.format (codes.map fun code =>
        (Document.element (.string (serialNumberToStr code.serialNumber))).format) s.1 s.2 := by
  induction codes generalizing s with
  | nil => rfl
  | cons code codes ih =>
    rcases added : addNew none (.string (serialNumberToStr code.serialNumber)) s.1 s.2 with ⟨fits, s'⟩
    simp only [appendAll, CjsonArrayFormatter.appendString, List.map_cons, FanoutFormatter.format, Document.element,
      orNoMem, added] at ih ⊢
    cases fits with
    | false => rfl
    | true => exact ih s'

/-- The parts of what `scan_` writes. -/
def scanParts (codes : List RomCode) (sensors : List (Sensor ι)) : List (Document δ) :=
  [romCodesDocument codes, sensorsDocument sensors]

section
variable {B : Bus β} {bus : β} {codes : List RomCode}

theorem scanRomCode_gives
    (calls : scanCalls B (codes.length + 1) .new bus = codes.map (fun code => (.ret .ok, code)) ++
      [(.ret .noData, .new)])
    (json : Items δ) (h : Heap) :
    ∃ fuel, scanRomCode_ B bus fuel json h =
      some (.ret ((romCodesDocument codes : Document δ).format json h).1,
        ((romCodesDocument codes).format json h).2) := by
  simp only [scanRomCode_, romCodesDocument, Document.array, addArrayToObject, Heap.make]
  cases h.failures h.calls with
  | true => exact ⟨0, rfl⟩
  | false =>
    obtain ⟨fuel, ends⟩ := leaves_appendAll
      (fun str (s : Items δ × Heap) => CjsonArrayFormatter.appendString str s.1 s.2)
      codes .new bus (.nil, h.made) calls
    rw [appendAll_eq] at ends
    refine ⟨fuel, ?_⟩
    simp only [Bool.false_eq_true, if_false, scanRomCodes, ends, Option.map_some, Document.fanout, List.map_map,
      Function.comp_def]

/-- When the search yields `codes` and ends, `scan_` formats them and the sensors. -/
theorem scan_gives
    (calls : scanCalls B (codes.length + 1) .new bus = codes.map (fun code => (.ret .ok, code)) ++
      [(.ret .noData, .new)])
    (sensors : List (Sensor ι)) (json : Items δ) (h : Heap) :
    let r := FanoutFormatter.format ((scanParts codes sensors).map (·.format)) json h
    ∃ fuel, scan_ B bus sensors fuel json h = some (.ret r.1, r.2) := by
  obtain ⟨fuel, rom⟩ := scanRomCode_gives calls json h
  refine ⟨fuel, ?_⟩
  simp only [scan_, rom, Option.map_some, scanParts, List.map_cons, List.map_nil, FanoutFormatter.format, returnOnError,
    formatSensors_eq]
  generalize (romCodesDocument codes : Document δ).format json h = r
  obtain ⟨code, json, h⟩ := r
  by_cases ok : code = .ok
  · subst ok
    simp only [not_true, ne_eq, if_false, if_true]
    generalize (sensorsDocument sensors : Document δ).format json h = r'
    obtain ⟨code, json, h⟩ := r'
    by_cases ok : code = .ok
    · subst ok
      rfl
    · simp only [ok, if_false]
  · simp [ok]

/-- What it writes is the documents of the codes and of the sensors, whole or cut where a call of cJSON failed. -/
theorem scan_outcome (calls : scanCalls B (codes.length + 1) .new bus = codes.map (fun code => (.ret .ok, code)) ++
      [(.ret .noData, .new)]) (sensors : List (Sensor ι)) (json : Items δ) (h : Heap) :
    ∃ fuel code written h', scan_ B bus sensors fuel json h = some (.ret code, json ++ written, h') ∧
      Cut written ((romCodesDocument codes).items ++ (sensorsDocument sensors).items) ∧
      h'.live = h.live + written.size ∧ (code = .ok ↔ h.Clean h') ∧
      (code = .ok → written = (romCodesDocument codes).items ++ (sensorsDocument sensors).items) := by
  obtain ⟨written, outcome⟩ := formats_fanout (scanParts codes sensors : List (Document δ)) json h
  have completes := completes_fanout (scanParts codes sensors : List (Document δ)) (by simp [scanParts,
    romCodesDocument, sensorsDocument, sensorDocument, Document.array, Document.fanout, Document.element,
    Document.attached, membersDocument, Document.member]) json h
  obtain ⟨fuel, gives⟩ := scan_gives calls sensors json h
  have whole : Items.join ((scanParts codes sensors : List (Document δ)).map (·.items)) =
      (romCodesDocument codes).items ++ (sensorsDocument sensors).items := by
    simp [scanParts, Items.join]
  rw [whole] at outcome
  generalize FanoutFormatter.format ((scanParts codes sensors : List (Document δ)).map (·.format)) json h = r at *
  obtain ⟨code, json', h'⟩ := r
  obtain rfl : json' = json ++ written := outcome.items
  exact ⟨fuel, code, written, h', gives, outcome.cut, outcome.live, ⟨outcome.clean, completes⟩, outcome.whole⟩

end

/-- **A scan lists every device of a comb once**, then the sensors of the node, on a bus that is not empty. It is `OK` if
and only if no call of cJSON failed, and otherwise the document is cut there. -/
theorem scan_lists_comb {D : Finset RomCode} (nonempty : D.Nonempty) (valid : ∀ d ∈ D, d.valid = true)
    (comb : BitTrie.Comb RomCode.bit RomCode.width D) (sensors : List (Sensor ι)) :
    ∃ codes : List RomCode, codes.Nodup ∧ (∀ d, d ∈ codes ↔ d ∈ D) ∧ ∀ (json : Items δ) (h : Heap),
      ∃ fuel code written h', scan_ (fixedBus D) .idle sensors fuel json h = some (.ret code, json ++ written, h') ∧
        Cut written ((romCodesDocument codes).items ++ (sensorsDocument sensors).items) ∧
        h'.live = h.live + written.size ∧ (code = .ok ↔ h.Clean h') ∧
        (code = .ok → written = (romCodesDocument codes).items ++ (sensorsDocument sensors).items) := by
  obtain ⟨codes, nodup, members, calls⟩ := enumerates_of_comb nonempty valid comb
  exact ⟨codes, nodup, members, scan_outcome calls sensors⟩

/-- Two sensors on the bus. -/
theorem scan_lists_two : ∃ codes : List RomCode, codes.Nodup ∧
    (∀ d, d ∈ codes ↔ d ∈ ({thermometer0, thermometer1} : Finset RomCode)) ∧ ∀ (json : Items Int) (h : Heap),
      ∃ fuel code written h', scan_ (fixedBus {thermometer0, thermometer1}) .idle oneSensor.sensors fuel json h =
          some (.ret code, json ++ written, h') ∧
        Cut written ((romCodesDocument codes).items ++ (sensorsDocument oneSensor.sensors).items) ∧
        h'.live = h.live + written.size ∧ (code = .ok ↔ h.Clean h') ∧
        (code = .ok → written = (romCodesDocument codes).items ++ (sensorsDocument oneSensor.sensors).items) :=
  scan_lists_comb ⟨thermometer0, by simp⟩ (by decide +kernel) (by decide +kernel) oneSensor.sensors

end OcsComponents.Pipeline
