import OcsComponents.Pipeline.Ds18b20Closures
import OcsComponents.Sensor.Ds18b20.Registers
import OcsComponents.Sensor.Ds18b20.SerialNumberText

/-!
# Requests down to the devices

The closures of `DS18B20Handler` on a line with any number of DS18B20 devices behind a pin. The devices may
have been used in any way before. When a search finds all of them, a scan lists their serial numbers, and
a write by a serial number goes to the device that has it, and to no other.
-/

namespace OcsComponents.Pipeline
open Status Fmt OneWire WhileLoop Sensor.Ds18b20 OcsComponents.Storage

variable {ι β δ μ : Type}

/-! ## The search by a serial number -/

/-- The search stops at the first code that has the serial number. -/
theorem leaves_findRomCode {B : Bus β} {configured found : RomCode}
    (asked : found.serialNumber = configured.serialNumber)
    {rest : List (Outcome × RomCode)} : ∀ (before : List RomCode) {calls : Nat} {sc : RomCodeScanner} {bus : β},
      (∀ code ∈ before, code.serialNumber ≠ configured.serialNumber) →
      scanCalls B calls sc bus = before.map (fun code => (.ret .ok, code)) ++ (.ret .ok, found) :: rest →
      Leaves (findRomCodeBody B) ⟨sc, bus, configured⟩ (.ret .ok, found) := by
  intro before
  induction before with
  | nil =>
    intro calls sc bus _ results
    obtain ⟨r, _, _, call, rfl, _⟩ := scanCalls_uncons results
    exact leaves_now (by simp only [findRomCodeBody, searchBody, call, if_pos asked])
  | cons first before ih =>
    intro calls sc bus others results
    obtain ⟨r, k, -, call, rfl, later⟩ := scanCalls_uncons results
    have other : r.buf.serialNumber ≠ configured.serialNumber := others _ List.mem_cons_self
    have goesOn : findRomCodeBody B ⟨sc, bus, configured⟩ = .inr (r.buf, ⟨r.scanner, r.bus, configured⟩) := by
      simp only [findRomCodeBody, searchBody, call, if_neg other]
    exact (ih (fun code member => others code (List.mem_cons_of_mem _ member)) later).later goesOn

/-- Where different devices have different serial numbers, the search finds the one that is asked for. -/
theorem findRomCode_gives {B : Bus β} {bus : β} {configured found : RomCode} {codes : List RomCode} {calls : Nat}
    {rest : List (Outcome × RomCode)}
    (results : scanCalls B calls .new bus = codes.map (fun code => (.ret .ok, code)) ++ rest) (nodup : codes.Nodup)
    (serials : ∀ code ∈ codes, code.serialNumber = found.serialNumber → code = found) (member : found ∈ codes)
    (asked : found.serialNumber = configured.serialNumber) :
    Gives (findRomCode B bus configured) (.ret .ok, found) := by
  obtain ⟨before, after, rfl⟩ := List.append_of_mem member
  rw [List.map_append, List.map_cons, List.append_assoc, List.cons_append] at results
  refine (leaves_findRomCode asked before (fun code earlier same => ?_) results).gives
  have twice := serials code (List.mem_append_left _ earlier) (same.trans asked.symm)
  exact (List.disjoint_of_nodup_append nodup) earlier (twice ▸ List.mem_cons_self)

theorem steady_findRomCode (B : Bus β) (bus : β) (configured : RomCode) : Steady (findRomCode B bus configured) :=
  steady_run _

theorem steady_parseConfiguration (configuration : Configuration) (serialNumber resolution : StringView) :
    Steady (parseConfiguration configuration serialNumber resolution) := by
  apply Steady.map
  unfold parseSerialNumber
  split
  · exact steady_const _
  · apply Steady.map
    unfold Algo.StringOps.split
    split
    · exact steady_const _
    · exact steady_run _

/-! ## A write to a device -/

/-- A storage without faults has the record when the device has taken the configuration. -/
theorem writeConfiguration_sound (buses : ι → Bus β) (s : Stored ι) (i : ι) {c : Configuration} (w : β)
    (valid : c.romCode.valid = true) (named : c.resolution ≠ .none) :
    (s.writeConfiguration buses i c w none none).1 = (Stored.updateDevice (buses i) c w).1 ∧
      (s.writeConfiguration buses i c w none none).2.1 =
        if (Stored.updateDevice (buses i) c w).1 = .ok then
          ⟨{ s.sensor with bus := some i, configuration := c }, Function.update s.storage s.sensor.id (some c)⟩
        else s := by
  have status : (s.writeConfiguration buses i c w none none).1 = (Stored.updateDevice (buses i) c w).1 := by
    unfold Stored.writeConfiguration
    rw [if_neg (by rw [valid]; exact Bool.noConfusion)]
    rcases Stored.updateDevice (buses i) c w with ⟨code, w₁⟩
    by_cases good : code = .ok
    · subst good
      simp only [returnOnError_ok]
      unfold Storage.read Storage.write
      cases record : s.storage s.sensor.id with
      | some p => by_cases same : p = c <;> simp [same]
      | none => by_cases same : .new = c <;> simp [same]
    · simp [returnOnError_fail _ _ good]
  refine ⟨status, ?_⟩
  by_cases good : (Stored.updateDevice (buses i) c w).1 = .ok
  · rw [if_pos good]
    exact writeConfiguration_recorded named (status.trans good)
  · rw [if_neg good]
    rcases Stored.writeConfiguration_cases buses s i c w none none with ⟨-, same⟩ | ⟨ok, -⟩
    · exact same
    · exact absurd (status.symm.trans ok) good

/-- What a write does when the storage has no faults. -/
theorem writeFound_sound (buses : ι → Bus β) (s : Stored ι) (i : ι) {c : Configuration} (e : WriteEnv β)
    (valid : c.romCode.valid = true) (named : c.resolution ≠ .none) (reads : e.readFault = none)
    (writes : e.writeFault = none) (json : Items δ) (h : Heap) :
    ((Stored.updateDevice (buses i) c e.device).1 ≠ .ok ∧
        writeFound buses i e c s json h = (s, .ret (Stored.updateDevice (buses i) c e.device).1, json, h)) ∨
      (Stored.updateDevice (buses i) c e.device).1 = .ok ∧ ∃ outcome json' h',
        writeFound buses i e c s json h =
          (⟨{ s.sensor with bus := some i, configuration := c }, Function.update s.storage s.sensor.id (some c)⟩,
            outcome, json', h') ∧ Answers c outcome json json' h h' := by
  obtain ⟨status, effect⟩ := writeConfiguration_sound buses s i e.device valid named
  unfold writeFound
  rw [reads, writes]
  generalize Stored.updateDevice (buses i) c e.device = device at *
  generalize s.writeConfiguration buses i c e.device none none = wrote at *
  obtain ⟨code, s₁, w₁⟩ := wrote
  obtain rfl : code = device.1 := status
  obtain rfl : s₁ = _ := effect
  by_cases good : device.1 = .ok
  · right
    refine ⟨good, ?_⟩
    simp only [good, if_true, ne_eq, not_true, if_false]
    rw [readConfiguration_configured _ rfl]
    rcases formatted : formatConfiguration c json h with ⟨code, json', h'⟩
    refine ⟨_, _, _, rfl, ?_⟩
    rcases formatConfiguration_cases c json h formatted with ⟨rfl, whole⟩ | ⟨failed, unclean⟩
    · exact Or.inl ⟨rfl, whole⟩
    · exact Or.inr ⟨fun same => failed (by cases same; rfl), unclean⟩
  · left
    refine ⟨good, ?_⟩
    simp only [good, ne_eq, not_false_eq_true, if_true, if_false]

theorem writeConfiguration_found {buses : ι → Bus β} {i : ι} {e : WriteEnv β} {serialNumber resolution : StringView}
    {fuel : Nat} {asked : Configuration} {romCode : RomCode}
    (parses : parseConfiguration .new serialNumber resolution fuel = some (.ok, asked))
    (search : findRomCode (buses i) e.search asked.romCode fuel = some (.ret .ok, romCode)) (s : Stored ι)
    (json : Items δ) (h : Heap) :
    writeConfiguration_ buses i e serialNumber resolution fuel s json h =
      some (writeFound buses i e ⟨romCode, asked.resolution⟩ s json h) := by
  simp only [writeConfiguration_, parses, Option.bind_some, ne_eq, not_true, if_false, search, Option.map_some]

theorem closure_written {buses : ι → Bus β} {i : ι} {n : SensorNode ι} {sensorId : String} {sensor : Sensor ι}
    {before after : List (Sensor ι)} (there : getSensor sensorId n.sensors = some (before, sensor, after))
    {e : WriteEnv β} {serialNumber resolution : StringView} {fuel : Nat} {json json' : Items δ} {h h' : Heap}
    {s : Stored ι} {outcome : Outcome}
    (executed : writeConfiguration_ buses i e serialNumber resolution fuel ⟨sensor, n.storage⟩ json h =
      some (s, outcome, json', h')) :
    n.closure buses i sensorId (.write serialNumber resolution e) fuel json h =
      some (⟨before ++ s.sensor :: after, s.storage⟩, outcome, json', h') := by
  simp only [SensorNode.closure, there, SensorNode.function, executed, Option.map_some]

/-! ## The line -/

section
variable {p : BusParams} {t : SlaveTimes} {M : Memory μ} {ds ds' : List (Addressed (Thermometer μ))} {log : List Access}

/-- Devices on one line that a search finds, each of them. -/
structure Searchable (ds : List (Addressed (Thermometer μ))) : Prop where
  some : ds ≠ []
  distinct : (ds.map (·.romCode)).Nodup
  valid : ∀ d ∈ ds, d.romCode.valid = true
  comb : BitTrie.Comb RomCode.bit RomCode.width (codes (registers ds))

/-- The devices after any requests are those that there were. -/
theorem line_after (fits : p.Fits t) (M : Memory μ) (distinct : (ds.map (·.romCode)).Nodup)
    (rs : List Sensor.Ds18b20.Request) :
    ∃ ds', Line.At M.line t ds (Request.execs ((Line.pins M.line t ds).bus p) rs []).2 ds' ∧
      registers ds' = (Request.directs M rs (registers ds)).2 ∧ ds'.map (·.romCode) = ds.map (·.romCode) := by
  obtain ⟨-, related⟩ := execs_alike (Line.everywhere M.line fits ds) rs (Line.at_nil ds)
  exact ⟨_, related, (execs_direct M distinct rs).2, execs_romCode M distinct rs⟩

/-- Calls of a new scanner leave the registers. -/
theorem line_scans (fits : p.Fits t) (h : Line.At M.line t ds log ds') (calls : Nat) :
    (scans ((Line.pins M.line t ds).bus p) calls .new log).1 =
        scanCalls (fixedBus (codes (registers ds'))) calls .new .idle ∧
      ∃ ds'', Line.At M.line t ds (scans ((Line.pins M.line t ds).bus p) calls .new log).2 ds'' ∧
        registers ds'' = registers ds' := by
  obtain ⟨found, related⟩ := (Line.everywhere M.line fits ds).scans calls .new h
  obtain ⟨same, kept⟩ := scans_wired M ds' calls
  exact ⟨found.trans same, _, related, kept⟩

theorem Searchable.of_romCodes (h : Searchable ds) (same : ds'.map (·.romCode) = ds.map (·.romCode)) :
    Searchable ds' := by
  have romCodes : ∀ ds : List (Addressed (Thermometer μ)), codes (registers ds) = (ds.map (·.romCode)).toFinset := by
    intro ds
    rw [codes, registers, List.map_map]
    rfl
  constructor
  · intro none
    rw [none] at same
    exact h.some (List.map_eq_nil_iff.mp same.symm)
  · rw [same]
    exact h.distinct
  · intro d member
    have there : d.romCode ∈ ds.map (·.romCode) := same ▸ List.mem_map_of_mem member
    obtain ⟨d', member', romCode⟩ := List.mem_map.mp there
    rw [← romCode]
    exact h.valid d' member'
  · rw [romCodes, same, ← romCodes]
    exact h.comb

/-- The ROM codes in the order in which every search finds them. -/
theorem Searchable.found (h : Searchable ds) : ∃ found : List RomCode, found.Nodup ∧
    (∀ c, c ∈ found ↔ ∃ d ∈ ds, d.romCode = c) ∧
      scanCalls (fixedBus (codes (registers ds))) (found.length + 1) .new .idle =
        found.map (fun code => (.ret .ok, code)) ++ [(.ret .noData, .new)] := by
  have members : ∀ c, c ∈ codes (registers ds) ↔ ∃ d ∈ ds, d.romCode = c := by
    intro c
    simp [codes, registers]
  obtain ⟨d, there⟩ := List.exists_mem_of_ne_nil ds h.some
  have nonempty : (codes (registers ds)).Nonempty := ⟨d.romCode, (members _).mpr ⟨d, there, rfl⟩⟩
  have valid : ∀ c ∈ codes (registers ds), c.valid = true := by
    intro c member
    obtain ⟨d', there', rfl⟩ := (members c).mp member
    exact h.valid d' there'
  obtain ⟨found, nodup, same, calls⟩ := enumerates_of_comb nonempty valid h.comb
  exact ⟨found, nodup, fun c => (same c).trans (members c), calls⟩

/-- **A scan over the pin lists every device once**, then the sensors of the node, whatever was done with the
devices before. There is at least one device: without any the search ends with an error. -/
theorem scan_lists_line (fits : p.Fits t) (M : Memory μ) (searchable : Searchable ds)
    (rs : List Sensor.Ds18b20.Request) (sensors : List (Sensor ι)) :
    let B := (Line.pins M.line t ds).bus p
    ∃ found : List RomCode, found.Nodup ∧ (∀ c, c ∈ found ↔ ∃ d ∈ ds, d.romCode = c) ∧
      ∀ (json : Items δ) (h : Heap), ∃ fuel code written h',
        scan_ B (Request.execs B rs []).2 sensors fuel json h = some (.ret code, json ++ written, h') ∧
        Cut written ((romCodesDocument found).items ++ (sensorsDocument sensors).items) ∧
        h'.live = h.live + written.size ∧ (code = .ok ↔ h.Clean h') ∧
        (code = .ok → written = (romCodesDocument found).items ++ (sensorsDocument sensors).items) := by
  intro B
  obtain ⟨ds', related, -, romCodes⟩ := line_after fits M searchable.distinct rs
  obtain ⟨found, nodup, members, calls⟩ := (searchable.of_romCodes romCodes).found
  obtain ⟨same, -⟩ := line_scans fits related (found.length + 1)
  rw [scans_results, calls] at same
  have sameDevices : ∀ c, (∃ d ∈ ds', d.romCode = c) ↔ ∃ d ∈ ds, d.romCode = c := by
    intro c
    rw [← List.mem_map, ← List.mem_map, romCodes]
  exact ⟨found, nodup, fun c => (members c).trans (sameDevices c), scan_outcome same sensors⟩

/-- The device's part of a configuration, on the line. -/
theorem line_updateDevice (fits : p.Fits t) (h : Line.At M.line t ds log ds') (distinct : (ds'.map (·.romCode)).Nodup)
    (c : Configuration) :
    let r := Stored.updateDevice ((Line.pins M.line t ds).bus p) c log
    (Sensor.Ds18b20.Request.configure c).direct M (registers ds') =
      (.wrote r.1, ((Sensor.Ds18b20.Request.configure c).direct M (registers ds')).2) ∧
      ∃ ds'', Line.At M.line t ds r.2 ds'' ∧
        registers ds'' = ((Sensor.Ds18b20.Request.configure c).direct M (registers ds')).2 := by
  intro r
  obtain ⟨same, related⟩ := updateDevice_alike (Line.everywhere M.line fits ds) c h
  obtain ⟨result, effect, -⟩ := exec_direct M distinct (.configure c)
  refine ⟨?_, _, related, effect⟩
  have status : ((Sensor.Ds18b20.Request.configure c).direct M (registers ds')).1 = .wrote r.1 := by
    rw [← result, same]
    rfl
  rw [← status]

/-- **A write by serial number reaches the device that has it**, and no other, whatever was done with the devices
before. The sensor is configured and its record written if the device has taken the configuration,
and nothing is changed otherwise. -/
theorem write_reaches_device (fits : p.Fits t) (M : Memory μ) (searchable : Searchable ds)
    (serials : (ds.map (·.romCode.serialNumber)).Nodup) (rs : List Sensor.Ds18b20.Request)
    {d : Addressed (Thermometer μ)} (member : d ∈ ds) {serialNumber resolution : StringView} {asked : Configuration}
    (parsed : Gives (parseConfiguration .new serialNumber resolution) (.ok, asked))
    (same : asked.romCode.serialNumber = d.romCode.serialNumber) {n : SensorNode Unit} {sensorId : String}
    {before after : List (Sensor Unit)} {sensor : Sensor Unit}
    (there : getSensor sensorId n.sensors = some (before, sensor, after)) :
    let B := (Line.pins M.line t ds).bus p
    let log := (Request.execs B rs []).2
    let c : Configuration := ⟨d.romCode, asked.resolution⟩
    let written := (Sensor.Ds18b20.Request.configure c).direct M (Request.directs M rs (registers ds)).2
    ∀ (calls : Nat) (loadFault : Option StorageFault),
      let e : WriteEnv (List Access) := ⟨log, (scans B calls .new log).2, none, none, loadFault⟩
      (∃ ds', Line.At M.line t ds (Stored.updateDevice B c e.device).2 ds' ∧ registers ds' = written.2) ∧
        ∃ code, written.1 = .wrote code ∧ ∀ (json : Items δ) (h : Heap), ∃ fuel n' outcome json' h',
          n.closure (fun _ => B) () sensorId (.write serialNumber resolution e) fuel json h =
            some (n', outcome, json', h') ∧
          (code ≠ .ok ∧ n' = n ∧ outcome = .ret code ∧ json' = json ∨
            code = .ok ∧ n'.sensors = before ++ { sensor with bus := some (), configuration := c } :: after ∧
              n'.storage = Function.update n.storage sensorId (some c) ∧ Answers c outcome json json' h h') := by
  intro B log c written calls loadFault e
  obtain ⟨ds₁, related, regs, romCodes⟩ := line_after fits M searchable.distinct rs
  have searchable₁ := searchable.of_romCodes romCodes
  -- the search
  obtain ⟨found, nodup, members, results⟩ := searchable₁.found
  obtain ⟨searched, -⟩ := line_scans fits related (found.length + 1)
  rw [scans_results, results] at searched
  have devices : ∀ code, code ∈ found ↔ ∃ d ∈ ds, d.romCode = code := by
    intro code
    rw [members, ← List.mem_map, ← List.mem_map, romCodes]
  have unique : ∀ code ∈ found, code.serialNumber = d.romCode.serialNumber → code = d.romCode := by
    intro code there equal
    obtain ⟨d', member', rfl⟩ := (devices code).mp there
    rw [List.inj_on_of_nodup_map serials member' member equal]
  have finds := findRomCode_gives searched nodup unique ((devices _).mpr ⟨d, member, rfl⟩) same.symm
  -- the device
  obtain ⟨-, ds₂, related₂, kept⟩ := line_scans fits related calls
  have distinct₂ : (ds₂.map (·.romCode)).Nodup := by
    rw [codes_registers kept]
    exact searchable₁.distinct
  obtain ⟨status, effect⟩ := line_updateDevice fits related₂ distinct₂ c
  rw [kept, regs] at status effect
  refine ⟨effect, _, congrArg Prod.fst status, fun json h => ?_⟩
  -- the record and the answer
  obtain ⟨fuel, parses, search⟩ := parsed.both finds (steady_parseConfiguration _ _ _) (steady_findRomCode _ _ _)
  have named := parseConfiguration_named parses
  have executed := @writeConfiguration_found _ _ _ (fun _ => B) () e _ _ _ _ _ parses search
    ⟨sensor, n.storage⟩ json h
  obtain ⟨whole, rfl⟩ := getSensor_some there
  rcases @writeFound_sound _ _ _ (fun _ => B) ⟨sensor,
    n.storage⟩ () c e (searchable.valid d member) named rfl rfl json h with
    ⟨failed, wrote⟩ | ⟨taken, outcome, json', h', wrote, answers⟩
  · refine ⟨fuel, _, _, _, _, closure_written there (executed.trans (congrArg some wrote)), .inl ⟨failed, ?_, rfl, rfl⟩⟩
    rw [← whole]
  · exact ⟨fuel, _, _, _, _, closure_written there (executed.trans (congrArg some wrote)),
      .inr ⟨taken, rfl, rfl, answers⟩⟩

end

/-! ## Two devices -/

/-- Devices that keep the resolution. -/
def resolutionKeeper : Memory (Bool × Bool) where
  scratchpad := fun (r0, r1) =>
    let bytes := (Scratchpad.new.setResolution r0 r1).bytes
    ⟨bytes.setIfInBounds 8 (calculateCrc (bytes.toList.take 8))⟩
  write bits _ := (bits.getD 21 false, bits.getD 22 false)
  convert := id

def twoThermometers : List (Addressed (Thermometer (Bool × Bool))) :=
  [⟨thermometer0, .idle, ⟨(false, false), .idle⟩⟩, ⟨thermometer1, .idle, ⟨(false, false), .idle⟩⟩]

theorem searchable_twoThermometers : Searchable twoThermometers where
  some := by decide
  distinct := by decide
  valid := by decide +kernel
  comb := by decide +kernel

theorem scan_lists_line_two :
    let B := (Line.pins resolutionKeeper.line sensorTimes twoThermometers).bus storeParams
    ∃ found : List RomCode, (∀ c, c ∈ found ↔ ∃ d ∈ twoThermometers, d.romCode = c) ∧ ∀ (json : Items Int) (h : Heap),
      ∃ fuel code written h', scan_ B (Request.execs B [.configure ⟨thermometer0, .bit9⟩] []).2 oneSensor.sensors fuel
        json h = some (.ret code, json ++ written, h') ∧ (code = .ok ↔ h.Clean h') := by
  intro B
  obtain ⟨found, -, members, lists⟩ := @scan_lists_line Unit Int _ _ _ _ storeParams_fits_sensor resolutionKeeper
    searchable_twoThermometers [.configure ⟨thermometer0, .bit9⟩] oneSensor.sensors
  refine ⟨found, members, fun json h => ?_⟩
  obtain ⟨fuel, code, written, h', scans, -, -, clean, -⟩ := lists json h
  exact ⟨fuel, code, written, h', scans, clean⟩

/-- The second device gets its resolution, and the first keeps its own. -/
theorem write_reaches_device_two :
    let B := (Line.pins resolutionKeeper.line sensorTimes twoThermometers).bus storeParams
    ∃ serialNumber resolution : StringView, ∀ (json : Items Int) (h : Heap), ∃ fuel n' outcome json' h',
      oneSensor.closure (fun _ => B) () "probe"
          (.write serialNumber resolution ⟨[], (scans B 2 .new []).2, none, none, none⟩) fuel json h =
        some (n', outcome, json', h') ∧
      n'.storage "probe" = some ⟨thermometer1, .bit12⟩ ∧
        (Sensor.Ds18b20.Request.configure ⟨thermometer1, .bit12⟩).direct resolutionKeeper (registers twoThermometers) =
          (.wrote .ok, [(thermometer0, (false, false)), (thermometer1, (true, true))]) := by
  intro B
  have printed := (@isSerial_printed [1, 0, 0, 0, 0, 0] rfl).1
  let text : CString := ⟨(serialNumberToStr [1, 0, 0, 0, 0, 0]).toList, printed.terminated⟩
  let name : CString := ⟨['1', '2'], by decide⟩
  obtain ⟨asked, gives, serial, resolution⟩ := @IsSerial.parses .new text name _ .bit12 printed (by decide)
  have written : (Sensor.Ds18b20.Request.configure ⟨thermometer1, .bit12⟩).direct resolutionKeeper
      (registers twoThermometers) =
        (.wrote .ok, [(thermometer0, (false, false)), (thermometer1, (true, true))]) := by
    decide +kernel
  refine ⟨.ofCString text, .ofCString name, fun json h => ?_⟩
  obtain ⟨-, code, result, answers⟩ := @write_reaches_device Int _ _ _ _ storeParams_fits_sensor resolutionKeeper
    searchable_twoThermometers (by decide) [] ⟨thermometer1, .idle, ⟨(false, false), .idle⟩⟩ (by simp [twoThermometers])
    _ _ asked gives (serial.trans (by decide)) oneSensor "probe" [] [] (.new "probe" 0) rfl 2 none
  obtain ⟨fuel, n', outcome, json', h', closed, done⟩ := answers json h
  refine ⟨fuel, n', outcome, json', h', closed, ?_, written⟩
  rw [resolution] at result done
  rcases done with ⟨failed, -⟩ | ⟨-, -, storage, -⟩
  · exact absurd (Result.wrote.inj (result.symm.trans (congrArg Prod.fst written))) failed
  · rw [storage, Function.update_self]

end OcsComponents.Pipeline
