import OcsComponents.Core.VersionText
import OcsComponents.Fmt.Json
import OcsComponents.Sensor.Soil.AnalogSensor

/-!
# The formatters of the pipelines

`ocs_pipeline/jsonfmt`. Most of them add one member after another and return `NoMem` for the
first that is not added. `δ` is `double`, and the integers come in as `double` has them.
-/

namespace OcsComponents.Pipeline
open Status Fmt

variable {δ : Type}

/-- `if (!formatter.add_..(key, value)) return NoMem`, for one member after another. -/
def addMembers (members : List (String × Value δ)) : Formatter δ :=
  FanoutFormatter.format (members.map fun (key, value) => orNoMem (addNew (some key) value))

/-- `esp_reset_reason_t`. -/
inductive ResetReason where
  | unknown
  | poweron
  | ext
  | sw
  | panic
  | intWdt
  | taskWdt
  | wdt
  | deepsleep
  | brownout
  | sdio
  | usb
  | jtag
  | other
  deriving DecidableEq, Repr

/-- `reset_reason_to_str`. -/
def resetReasonToStr : ResetReason → String
  | .unknown => "RST_UNKNOWN"
  | .poweron => "RST_POWERON"
  | .ext => "RST_EXT"
  | .sw => "RST_SW"
  | .panic => "RST_PANIC"
  | .intWdt => "RST_INT_WDT"
  | .taskWdt => "RST_TASK_WDT"
  | .wdt => "RST_WDT"
  | .deepsleep => "RST_DEEPSLEEP"
  | .brownout => "RST_BROWNOUT"
  | .sdio => "RST_SDIO"
  | .usb => "RST_USB"
  | .jtag => "RST_JTAG"
  | .other => "<none>"

/-- `task_state_to_str` of `eTaskState`. -/
inductive TaskState where
  | running
  | ready
  | blocked
  | suspended
  | deleted
  | invalid
  deriving DecidableEq, Repr

def taskStateToStr : TaskState → String
  | .running => "Running"
  | .ready => "Ready"
  | .blocked => "Blocked"
  | .suspended => "Suspended"
  | .deleted => "Deleted"
  | .invalid => "<none>"

/-- `soil_status_to_str`. -/
def soilStatusToStr : Sensor.Soil.SoilStatus → String
  | .saturated => "Saturated"
  | .wet => "Wet"
  | .depletion => "Depletion"
  | .dry => "Dry"
  | .error => "Error"
  | _ => "<none>"

/-- `rssi_to_signal_strength`. -/
def rssiToSignalStrength (rssi : Int) : String :=
  if rssi > -50 then "excellent"
  else if rssi > -60 then "good"
  else if rssi > -70 then "fair"
  else if rssi > -80 then "poor"
  else "unreliable"

/-! ## Members -/

section
variable (double : Int → δ)

/-- `SystemFormatter`: the three sizes of the heap that it asks for, and the reset reason. -/
def SystemFormatter.members (heap heapMin heapInternal : Nat) (reason : ResetReason) : List (String × Value δ) :=
  [("system_memory_heap", .number (double heap)), ("system_memory_heap_min", .number (double heapMin)),
    ("system_memory_heap_internal", .number (double heapInternal)),
    ("system_reset_reason", .string (resetReasonToStr reason))]

/-- `CounterFormatter`: the id and the value of each counter. -/
def CounterFormatter.members (counters : List (String × Nat)) : List (String × Value δ) :=
  counters.map fun (id, value) => (id, .number (double value))

/-- `ApNetworkFormatter`. -/
def ApNetworkFormatter.members (channel curConnection maxConnection : Nat) : List (String × Value δ) :=
  [("network_ap_channel", .number (double channel)), ("network_ap_cur_conn", .number (double curConnection)),
    ("network_ap_max_conn", .number (double maxConnection))]

/-- `StaNetworkFormatter`. `ip` is what `ip_addr_to_str` makes of the address. -/
def StaNetworkFormatter.members (ssid : String) (rssi : Int) (ip : String) : List (String × Value δ) :=
  [("network_sta_ssid", .string ssid), ("network_sta_rssi", .number (double rssi)),
    ("network_sta_signal_strength", .string (rssiToSignalStrength rssi)), ("network_sta_ip", .string ip)]

/-- `LdrSensorFormatter`. -/
def LdrSensorFormatter.members (flat : Bool) (raw voltage lightness : Int) : List (String × Value δ) :=
  if flat then
    [("sensor_ldr_raw", .number (double raw)), ("sensor_ldr_voltage", .number (double voltage)),
      ("sensor_ldr_lightness", .number (double lightness))]
  else
    [("raw", .number (double raw)), ("voltage", .number (double voltage)), ("lightness", .number (double lightness))]

/-- `SHT41SensorFormatter`. -/
def SHT41SensorFormatter.members (flat : Bool) (humidity temperature : δ) (heatingCount : Nat) :
    List (String × Value δ) :=
  if flat then
    [("sensor_sht41_humidity", .number humidity), ("sensor_sht41_temperature", .number temperature),
      ("sensor_sht41_heating_count", .number (double heatingCount))]
  else
    [("humidity", .number humidity), ("temperature", .number temperature),
      ("heating_count", .number (double heatingCount))]

/-- `BME280SensorFormatter`. -/
def BME280SensorFormatter.members (flat : Bool) (pressure temperature humidity : δ) : List (String × Value δ) :=
  if flat then
    [("sensor_bme280_pressure", .number pressure), ("sensor_bme280_temperature", .number temperature),
      ("sensor_bme280_humidity", .number humidity)]
  else [("pressure", .number pressure), ("temperature", .number temperature), ("humidity", .number humidity)]

/-- `DS18B20SensorFormatter`. -/
def DS18B20SensorFormatter.members (id : String) (data : δ) : List (String × Value δ) := [(id, .number data)]

/-- `SoilAnalogSensorFormatter`. -/
def SoilAnalogSensorFormatter.members (flat : Bool) (data : Sensor.Soil.Data) (moisture : Int) :
    List (String × Value δ) :=
  if flat then
    [("sensor_soil_raw", .number (double data.raw.toInt)), ("sensor_soil_voltage", .number (double data.voltage.toInt)),
      ("sensor_soil_moisture", .number (double moisture)),
      ("sensor_soil_prev_status", .string (soilStatusToStr data.prevStatus)),
      ("sensor_soil_prev_status_dur", .number (double data.prevStatusDuration)),
      ("sensor_soil_curr_status", .string (soilStatusToStr data.currStatus)),
      ("sensor_soil_curr_status_dur", .number (double data.currStatusDuration)),
      ("sensor_soil_write_count", .number (double data.writeCount.toNat)),
      ("sensor_soil_status_len", .number (double data.statusLen.toNat)),
      ("sensor_soil_status_pos", .number (double data.statusPos.toInt))]
  else
    [("raw", .number (double data.raw.toInt)), ("voltage", .number (double data.voltage.toInt)),
      ("moisture", .number (double moisture)), ("prev_status", .string (soilStatusToStr data.prevStatus)),
      ("prev_status_dur", .number (double data.prevStatusDuration)),
      ("curr_status", .string (soilStatusToStr data.currStatus)),
      ("curr_status_dur", .number (double data.currStatusDuration)),
      ("write_count", .number (double data.writeCount.toNat)), ("status_len", .number (double data.statusLen.toNat)),
      ("status_pos", .number (double data.statusPos.toInt))]

/-- `TaskStatus_t`. `relative` is the rounded share of the run time, and is asked for with a total time
that is not 0. -/
structure TaskStatus (δ : Type) where
  name : String
  state : TaskState
  number : Nat
  priority : Nat
  stackHighWaterMark : Nat
  coreId : Int
  runTimeCounter : Nat
  relative : Nat → δ

/-- `CONFIG_FREERTOS_VTASKLIST_INCLUDE_COREID` and `CONFIG_FREERTOS_GENERATE_RUN_TIME_STATS`. -/
structure TaskConfig where
  includeCoreId : Bool
  generateRunTimeStats : Bool

/-- `format_task_state`. -/
def formatTaskState (config : TaskConfig) (totalTime : Nat) (task : TaskStatus δ) : List (String × Value δ) :=
  [("name", .string task.name), ("state", .string (taskStateToStr task.state)),
    ("number", .number (double task.number)), ("priority", .number (double task.priority)),
    ("stack_free", .number (double task.stackHighWaterMark))] ++
  (if config.includeCoreId then [("core_id", .number (double task.coreId))] else []) ++
  if config.generateRunTimeStats ∧ totalTime ≠ 0 then
    [("runtime_abs", .number (double task.runTimeCounter)), ("runtime_rel", .number (task.relative totalTime))]
  else []

end

/-! ## Formatters -/

/-- `SystemStateFormatter::format`: an array of objects, one for a task. -/
def SystemStateFormatter.format (double : Int → δ) (config : TaskConfig) (totalTime : Nat)
    (states : List (TaskStatus δ)) : Formatter δ :=
  addArrayToObject "tasks" (FanoutFormatter.format (states.map fun task =>
    attach none .object (addMembers (formatTaskState double config (totalTime / 100) task))))

/-- `TelemetryFormatter::format`: the system, then what has been added to the fanout. -/
def TelemetryFormatter.format (system : Formatter δ) (added : List (Formatter δ)) : Formatter δ :=
  FanoutFormatter.format (system :: added)

/-- What `RegistrationFormatter` gets from `system::DeviceInfo`. -/
structure RegistrationInfo where
  fwVersion : CString
  fwName : String
  fwDescription : String
  deviceId : String

/-- What `RegistrationFormatter` has in its `VersionFormatter`, in the order it is added. -/
def RegistrationFormatter.values (idfVersion : String) (info : RegistrationInfo) : List (String × String) :=
  let accepted := (Core.Version.parse ⟨0, 0, 0⟩ info.fwVersion).1
  [("version_esp_idf", idfVersion),
    ("fw_version", if accepted then .ofList info.fwVersion.text else "<none>"), ("fw_name", info.fwName),
    ("fw_description", info.fwDescription), ("device_id", info.deviceId)]

/-- `RegistrationFormatter::format`: the versions, as the map has them, then what has been added. -/
def RegistrationFormatter.format (values : List (String × String)) (added : List (Formatter δ)) : Formatter δ :=
  FanoutFormatter.format (StringFormatter.format values :: added)

/-! ## Documents -/

/-- Members stand for themselves. -/
def membersDocument (members : List (String × Value δ)) : Document δ :=
  .fanout (members.map fun (key, value) => .member key value)

theorem addMembers_eq (members : List (String × Value δ)) : addMembers members = (membersDocument members).format := by
  simp [addMembers, membersDocument, Document.fanout, Document.member, Function.comp_def]

/-- The object of a task. -/
def taskDocument (double : Int → δ) (config : TaskConfig) (totalTime : Nat) (task : TaskStatus δ) : Document δ :=
  (membersDocument (formatTaskState double config (totalTime / 100) task)).attached none .object

/-- The document of `SystemStateFormatter`. -/
def systemStateDocument (double : Int → δ) (config : TaskConfig) (totalTime : Nat) (states : List (TaskStatus δ)) :
    Document δ :=
  .array "tasks" (.fanout (states.map (taskDocument double config totalTime)))

theorem systemStateFormatter_eq (double : Int → δ) (config : TaskConfig) (totalTime : Nat)
    (states : List (TaskStatus δ)) :
    SystemStateFormatter.format double config totalTime states =
      (systemStateDocument double config totalTime states).format := by
  simp [SystemStateFormatter.format, systemStateDocument, taskDocument, Document.array, Document.fanout,
    Document.attached, addMembers_eq, Function.comp_def]

/-- The document of `TelemetryFormatter`. -/
def telemetryDocument (system : List (String × Value δ)) (added : List (Document δ)) : Document δ :=
  .fanout (membersDocument system :: added)

theorem telemetryFormatter_eq (system : List (String × Value δ)) (added : List (Document δ)) :
    TelemetryFormatter.format (addMembers system) (added.map (·.format)) = (telemetryDocument system added).format := by
  rw [addMembers_eq]
  rfl

/-- The document of `RegistrationFormatter`. -/
def registrationDocument (values : List (String × String)) (added : List (Document δ)) : Document δ :=
  .fanout (membersDocument (values.map fun (key, val) => (key, .string val)) :: added)

theorem registrationFormatter_eq (values : List (String × String)) (added : List (Document δ)) :
    RegistrationFormatter.format values (added.map (·.format)) = (registrationDocument values added).format := by
  have strings : StringFormatter.format values =
      addMembers (values.map fun (key, val) => (key, (.string val : Value δ))) := by
    simp [StringFormatter.format, addMembers, CjsonObjectFormatter.addStringRefCs, Function.comp_def]
  rw [RegistrationFormatter.format, strings, addMembers_eq]
  rfl

end OcsComponents.Pipeline
