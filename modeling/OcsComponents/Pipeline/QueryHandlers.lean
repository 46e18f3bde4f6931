import OcsComponents.Algo.SystemTime
import OcsComponents.Algo.UriQuery
import OcsComponents.Lib.Decimal
import OcsComponents.Pipeline.Ds18b20Closures
import OcsComponents.Pipeline.Ds18b20Requests
import OcsComponents.Pipeline.JsonEndpoints
import OcsComponents.Sensor.Ds18b20.SerialNumberText

/-!
# Requests with a query

`time_handler.cpp`, and what the handlers of `ds18b20_handler.cpp` do with their query before they
schedule a closure. A value is a view into the URI: the time is copied out of it, the number of the
GPIO is read by `std::from_chars`, and the other values are passed on as views.
-/

namespace OcsComponents.Pipeline
open Status Transition Fmt Http OneWire OcsComponents.Storage Algo Algo.UriOps Scan WhileLoop Sensor.Ds18b20

/-! ## The time -/

/-- `TimeOps::get_time`. -/
def getTime (clock : TimeVal) : Option Int := if clock.sec = -1 then none else some clock.sec

/-- The beginning of a view's text that `strtol` sees in a buffer that it has been copied to. -/
def TimeHandler.copy (text : List Char) : CString := .ofMemory (text ++ [CString.nul])

/-- What `TimeHandler` does, and the text that it sends. A view of a negative size has no copy. -/
def TimeHandler.handle (settimeofday : TimeVal → Bool) (startPoint : Int) (http : JsonHttpd) (clock : TimeVal)
    (uri : CString) (fuel : Nat) : Option ((StatusCode × List Emission) × List Char × TimeVal) :=
  (parseQuery (some uri) fuel).bind fun values =>
    match values.find uri "value".toList with
    | none =>
      match getTime clock with
      | none => some ((.error, []), [], clock)
      | some timestamp => some (http.sendText, toDecimal timestamp, clock)
    | some v =>
      (v.text uri).map fun text =>
        let (code, clock) := setTime settimeofday clock (copy text) startPoint
        if code ≠ .ok then ((code, []), [], clock) else (http.sendText, "OK".toList, clock)

/-- The times that are set. -/
structure Settable (settimeofday : TimeVal → Bool) (startPoint t : Int) : Prop where
  time : IsTime t
  late : startPoint ≤ t
  accepted : settimeofday ⟨t, 0⟩ = true

section
variable {settimeofday : TimeVal → Bool} {startPoint t : Int} {clock : TimeVal}

/-- A time that is written as a number is set if it can be. -/
theorem setTime_toDecimal {str : CString} (text : str.text = toDecimal t) :
    (Settable settimeofday startPoint t ∧ setTime settimeofday clock str startPoint = (.ok, ⟨t, 0⟩)) ∨
      ¬ Settable settimeofday startPoint t ∧ ∃ code ≠ .ok,
        setTime settimeofday clock str startPoint = (code, clock) := by
  have number : ∀ v, parseTime str = some v ↔ IsTime v ∧ v = t := by
    intro v
    rw [parseTime_eq_some]
    refine and_congr_right fun _ => ⟨?_, ?_⟩
    · rintro ⟨n, same, rfl⟩
      have whole : (decimal t [] nofun).text = str.text := by rw [decimal_text, text, List.append_nil]
      have equal : n = decimal t [] nofun :=
        Option.some.inj ((Numeral.read_iff.mpr same).symm.trans (Numeral.read_iff.mpr whole))
      rw [equal, decimal_value]
    · rintro rfl
      exact ⟨decimal v [] nofun, by rw [decimal_text, text, List.append_nil], decimal_value _⟩
  unfold setTime
  cases parsed : parseTime str with
  | none =>
    right
    refine ⟨fun settable => ?_, _, StatusCode.noConfusion, rfl⟩
    have := (number t).mpr ⟨settable.time, rfl⟩
    rw [parsed] at this
    cases this
  | some v =>
    obtain ⟨time, rfl⟩ := (number v).mp parsed
    dsimp only
    by_cases early : v < startPoint
    · rw [if_pos early]
      exact Or.inr ⟨fun settable => absurd settable.late (Int.not_le.mpr early), _, StatusCode.noConfusion, rfl⟩
    · rw [if_neg early]
      by_cases refused : settimeofday ⟨v, 0⟩ = false
      · rw [if_pos refused]
        refine Or.inr ⟨fun settable => ?_, _, StatusCode.noConfusion, rfl⟩
        have accepted := settable.accepted
        rw [refused] at accepted
        cases accepted
      · rw [if_neg refused]
        exact Or.inl ⟨⟨time, Int.not_lt.mp early, by simpa using refused⟩, rfl⟩

theorem copy_text {text : List Char} (terminated : CString.nul ∉ text) : (TimeHandler.copy text).text = text := by
  rw [TimeHandler.copy, CString.ofMemory_append terminated]
  exact List.append_nil _

section
variable {http : JsonHttpd} {uri : CString}

/-- Without a query, the time is answered. -/
theorem timeHandler_answers (plain : '?' ∉ uri.text) (valid : clock.sec ≠ -1) :
    Gives (TimeHandler.handle settimeofday startPoint http clock uri) (http.sendText, toDecimal clock.sec, clock) := by
  have unqueried : ∀ fuel, parseQuery (some uri) fuel = some [] := by
    intro fuel
    rw [parseQuery, CString.strchr_zero (by decide), List.findIdx?_eq_none_iff.mpr]
    intro c mem
    rw [beq_eq_false_iff_ne]
    rintro rfl
    exact plain mem
  have answer : TimeHandler.handle settimeofday startPoint http clock uri =
      fun _ => some (http.sendText, toDecimal clock.sec, clock) := by
    funext fuel
    simp only [TimeHandler.handle, unqueried, Option.bind_some, Values.find, List.find?_nil, Option.map_none, getTime,
      valid, if_false]
  rw [answer]
  exact gives_const _

/-- A time that is written into a query is set if it can be, and otherwise nothing is done. -/
theorem timeHandler_sets {path : List Char} {pairs : List (List Char × List Char)} (w : Writable path pairs)
    (text : uri.text = queryText path pairs) (mem : ("value".toList, toDecimal t) ∈ pairs) :
    ∃ result, Gives (TimeHandler.handle settimeofday startPoint http clock uri) result ∧
      (Settable settimeofday startPoint t ∧ result = (http.sendText, "OK".toList, ⟨t, 0⟩) ∨
        ¬ Settable settimeofday startPoint t ∧ ∃ code ≠ .ok, result = ((code, []), [], clock)) := by
  obtain ⟨v, found, shows⟩ := find_of_mem w text mem
  have terminated : CString.nul ∉ toDecimal t := by
    have shown := shows.text
    rw [View.text, if_pos (by rw [shows.place]; exact Int.natCast_nonneg _)] at shown
    intro nul
    rw [← Option.some.inj shown] at nul
    exact uri.terminated (List.mem_of_mem_drop (List.mem_of_mem_take nul))
  have parsed := parseQuery_pairs w text
  have copied : (TimeHandler.copy (toDecimal t)).text = toDecimal t := copy_text terminated
  rcases @setTime_toDecimal settimeofday startPoint t clock _ copied with
    ⟨settable, sets⟩ | ⟨not, code, failed, kept⟩
  · refine ⟨_, parsed.bind ?_, Or.inl ⟨settable, rfl⟩⟩
    simp only [found, shows.text, Option.map_some, sets, ne_eq, not_true, if_false]
  · refine ⟨_, parsed.bind ?_, Or.inr ⟨not, code, failed, rfl⟩⟩
    simp only [found, shows.text, Option.map_some, kept, ne_eq, failed, not_false_iff, if_true]

end

/-- **The time of a device is copied to another** through the text of a reply and the query of a request, where the
time can be set there; from 2038 on it cannot. Otherwise nothing is done. -/
theorem time_copied {http http' : JsonHttpd} {clock' : TimeVal} {uri : CString} (plain : '?' ∉ uri.text)
    (valid : clock.sec ≠ -1) :
    Gives (TimeHandler.handle settimeofday startPoint http clock uri) (http.sendText, toDecimal clock.sec, clock) ∧
      ∀ {path : List Char} {pairs : List (List Char × List Char)} {uri' : CString}, Writable path pairs →
        uri'.text = queryText path pairs → ("value".toList, toDecimal clock.sec) ∈ pairs →
        ∃ result, Gives (TimeHandler.handle settimeofday startPoint http' clock' uri') result ∧
          (Settable settimeofday startPoint clock.sec ∧ result = (http'.sendText, "OK".toList, ⟨clock.sec, 0⟩) ∨
            ¬ Settable settimeofday startPoint clock.sec ∧ ∃ code ≠ .ok, result = ((code, []), [], clock')) :=
  ⟨timeHandler_answers plain valid, timeHandler_sets⟩

end

/-- Five seconds, copied to a device that is at zero. -/
theorem time_copied_five : ∃ result,
    Gives (TimeHandler.handle (fun _ => true) 1 ⟨true, true, true⟩ ⟨0, 0⟩ ⟨"/t?value=5".toList, by decide⟩) result ∧
      result.2.2 = ⟨5, 0⟩ := by
  obtain ⟨-, copies⟩ := @time_copied (fun _ => true) 1 ⟨5, 0⟩ ⟨true, true, true⟩ ⟨true, true, true⟩ ⟨0, 0⟩
    ⟨"/t".toList, by decide⟩ (by decide) (by decide)
  have writable : Writable "/t".toList [("value".toList, ['5'])] :=
    ⟨by decide, by decide, by decide, by decide, by decide, by decide⟩
  obtain ⟨result, gives, ⟨-, rfl⟩ | ⟨not, -⟩⟩ := @copies _ _ ⟨"/t?value=5".toList, by decide⟩ writable
    (by decide) (by decide)
  · exact ⟨_, gives, rfl⟩
  · exact absurd ⟨by decide, by decide, rfl⟩ not

/-! ## The requests of the DS18B20 -/

/-- The keys that are looked for after `gpio`. -/
def Handler.keys : Handler → List String
  | .scan => []
  | .readConfiguration => ["sensor_id"]
  | .eraseConfiguration => ["sensor_id"]
  | .writeConfiguration => ["sensor_id", "serial_number", "resolution"]

/-- The GPIO and the values of the other keys, unless there is `InvalidArg`. -/
def Handler.arguments (handler : Handler) (uri : CString) (fuel : Nat) : Option (Option (Int × List View)) :=
  (parseQuery (some uri) fuel).map fun values =>
    (values.find uri "gpio".toList).bind fun v =>
      (v.text uri).bind fun text =>
        (fromChars text).bind fun gpio =>
          (handler.keys.mapM fun key => values.find uri key.toList).map fun views => (gpio, views)

/-- What a request does with its arguments, where there is memory for the object or not. -/
def Handler.label (handler : Handler) (memory : Bool) : Option (Int × List View) → RequestLabel
  | none => .refuse .invalidArg
  | some (gpio, _) => if memory then .schedule handler gpio else .refuse .noMem

/-- What becomes of a request whose arguments are there. -/
structure Admits (handler : Handler) (arguments : Int × List View) (s : Requests) : Prop where
  scheduled : s.Roomy arguments.1 → ∃ s', RequestStep s (handler.label true (some arguments)) s' ∧
    Scheduled handler arguments.1 s s'
  crowded : ¬ s.Roomy arguments.1 → ∀ s', RequestStep s (handler.label true (some arguments)) s' →
    s'.frames = s.frames ++ [.returned .invalidState]
  unallocated : ∀ s', RequestStep s (handler.label false (some arguments)) s' →
    s'.frames = s.frames ++ [.returned .noMem]

/-- A request is scheduled where there is memory and room, and fails otherwise. -/
theorem admits (handler : Handler) (arguments : Int × List View) (s : Requests) : Admits handler arguments s where
  scheduled roomy := ⟨_, .schedule handler arguments.1 true, s.schedule_roomy handler roomy⟩
  crowded crowded s' step := by
    cases step with
    | schedule _ _ memory => exact s.schedule_crowded handler memory crowded
  unallocated s' step := by
    cases step with
    | refuse => rfl

/-- A view that ends in the URI. -/
def stringView (uri : CString) (v : View) : Option StringView :=
  if inside : 0 ≤ v.size ∧ v.data + v.size.toNat ≤ uri.text.length then
    some ⟨uri.buffer.drop v.data, v.size.toNat, by
      rw [List.drop_drop, CString.buffer_drop inside.2]
      simp⟩
  else none

/-- The query asks for a configuration of a sensor. -/
structure Asks (pairs : List (List Char × List Char)) (gpio : Int) (sensorId : String) (serialNumber : List Char)
    (bytes : List (BitVec 8)) (resolution : Resolution) : Prop where
  node : ("gpio".toList, toDecimal gpio) ∈ pairs
  low : longMin ≤ gpio
  high : gpio ≤ longMax
  sensor : ("sensor_id".toList, sensorId.toList) ∈ pairs
  /-- No `:` comes after the serial number. -/
  serial : ∃ before after, pairs = before ++ ("serial_number".toList, serialNumber) :: after ∧ ':' ∉ tailText after
  bytes : IsSerial serialNumber bytes
  resolution : ∃ name, ("resolution".toList, name) ∈ pairs ∧ Names name resolution

section
variable {path : List Char} {pairs : List (List Char × List Char)} {uri : CString}
  {serialNumber resolution : StringView}

theorem stringView_shows {v : View} {value : List Char} (shows : v.Shows uri v.data value) (filled : value ≠ []) :
    ∃ sv, stringView uri v = some sv ∧ sv.text = value ∧ sv.memory = uri.buffer.drop v.data ∧
      sv.size = value.length := by
  have size : v.size = value.length := by rw [shows.place]
  have taken : (uri.text.drop v.data).take value.length = value := by
    have shown := shows.text
    rw [View.text, size, if_pos (Int.natCast_nonneg _), Int.toNat_natCast] at shown
    exact Option.some.inj shown
  have inside : v.data + value.length ≤ uri.text.length := by
    have length := congrArg List.length taken
    have positive := List.length_pos_iff.mpr filled
    rw [List.length_take, List.length_drop] at length
    omega
  have fits : 0 ≤ v.size ∧ v.data + v.size.toNat ≤ uri.text.length := by
    rw [size]
    exact ⟨Int.natCast_nonneg _, inside⟩
  refine ⟨_, dif_pos fits, ?_, rfl, by simp only [size, Int.toNat_natCast]⟩
  rw [StringView.text]
  simp only [size, Int.toNat_natCast]
  rw [CString.buffer_drop (by omega), List.take_append_of_le_length (by rw [List.length_drop]; omega), taken]

/-- A view of a serial number, without a `:` behind it, is parsed like the text. -/
theorem parses_view {bytes : List (BitVec 8)} {r : Resolution} (is : IsSerial serialNumber.text bytes)
    (tight : ¬ StringOps.Leaks ':' serialNumber) (named : Names resolution.text r) :
    ∃ parsed, Gives (parseConfiguration .new serialNumber resolution) (.ok, parsed) ∧
      parsed.romCode.serialNumber = bytes ∧ parsed.resolution = r := by
  have name_terminated : CString.nul ∉ resolution.text := by
    simp only [Names, List.mem_cons, Prod.mk.injEq, List.not_mem_nil, or_false] at named
    rcases named with ⟨same, -⟩ | ⟨same, -⟩ | ⟨same, -⟩ | ⟨same, -⟩ <;> rw [same] <;> decide
  let text : CString := ⟨serialNumber.text, is.terminated⟩
  let name : CString := ⟨resolution.text, name_terminated⟩
  have alone : ¬ StringOps.Leaks ':' (.ofCString text) := by
    rintro ⟨-, -, -, behind⟩
    simp [StringView.ofCString, CString.buffer] at behind
  have serial : ∀ bytes,
      parseSerialNumber bytes serialNumber = parseSerialNumber bytes (.ofCString text) := fun bytes =>
    parseSerialNumber_congr (StringView.ofCString_text text).symm tight alone bytes
  have same : parseConfiguration .new serialNumber resolution =
    parseConfiguration .new (.ofCString text) (.ofCString name) := by
    funext fuel
    rw [parseConfiguration, parseConfiguration, serial]
    congr 1
    funext r
    simp only [configure, StringView.ofCString_text]
    rfl
  rw [same]
  exact @IsSerial.parses .new text name _ _ is named

/-- What a query gives to its closure. -/
theorem arguments_of_asks (w : Writable path pairs) (text : uri.text = queryText path pairs) {gpio : Int}
    {sensorId : String} {serial : List Char} {bytes : List (BitVec 8)} {r : Resolution}
    (asks : Asks pairs gpio sensorId serial bytes r) :
    ∃ id sn res sn' res', Gives (Handler.writeConfiguration.arguments uri) (some (gpio, [id, sn, res])) ∧
      id.text uri = some sensorId.toList ∧ stringView uri sn = some sn' ∧ stringView uri res = some res' ∧
      sn'.text = serial ∧ ¬ StringOps.Leaks ':' sn' ∧ Names res'.text r := by
  obtain ⟨g, g_found, g_shows⟩ := find_of_mem w text asks.node
  obtain ⟨id, id_found, id_shows⟩ := find_of_mem w text asks.sensor
  obtain ⟨name, name_mem, named⟩ := asks.resolution
  obtain ⟨res, res_found, res_shows⟩ := find_of_mem w text name_mem
  obtain ⟨res', res_view, res_text, -⟩ := stringView_shows res_shows (w.filled _ name_mem).2
  obtain ⟨before, after, split, clean⟩ := asks.serial
  subst split
  obtain ⟨sn, sn_found, sn_shows, rest⟩ := find_placePairs w text
  have serial_filled : serial ≠ [] := (w.filled ("serial_number".toList, serial) (by simp)).2
  obtain ⟨sn', sn_view, sn_text, memory, size⟩ := stringView_shows sn_shows serial_filled
  have read : fromChars (toDecimal gpio) = some gpio := by
    have whole : fromChars (toDecimal gpio ++ []) = some gpio := fromChars_toDecimal nofun asks.low asks.high
    rwa [List.append_nil] at whole
  refine ⟨id, sn, res, sn', res', ?_, id_shows.text, sn_view, res_view, sn_text, ?_, res_text ▸ named⟩
  · have gives := (parseQuery_pairs w text).map fun values =>
      (values.find uri "gpio".toList).bind fun v => (v.text uri).bind fun text => (fromChars text).bind fun gpio =>
        (Handler.writeConfiguration.keys.mapM fun key => values.find uri key.toList).map fun views => (gpio, views)
    have found : (Handler.writeConfiguration.keys.mapM fun key =>
        Values.find uri (placePairs (path.length + 1) (before ++ ("serial_number".toList, serial) :: after))
          key.toList) =
          some [id, sn, res] := by
      simp only [Handler.keys, List.mapM_cons, List.mapM_nil, id_found, sn_found, res_found]
      rfl
    rw [g_found, Option.bind_some, g_shows.text, Option.bind_some, read, Option.bind_some, found] at gives
    exact gives
  · rintro ⟨-, -, -, behind⟩
    have inside : sn.data ≤ uri.text.length := by
      have length := congrArg List.length rest
      have positive := List.length_pos_iff.mpr serial_filled
      rw [List.length_drop, List.length_append] at length
      omega
    have tail : sn'.memory.drop sn'.size = tailText after ++ [CString.nul] := by
      rw [memory, size, CString.buffer_drop inside, rest, List.append_assoc, List.drop_left]
    rw [tail] at behind
    rcases List.mem_append.mp ((List.takeWhile_prefix _).subset behind) with colon | nul
    · exact clean colon
    · cases List.mem_singleton.mp nul

variable {ι β δ : Type} {buses : ι → Bus β}

/-- A write that ends with `OK` is on record. -/
theorem closure_write_ok {n n' : SensorNode ι} {i : ι} {sensorId : String} {e : WriteEnv β} {fuel : Nat}
    {json json' : Items δ} {h h' : Heap}
    (done : n.closure buses i sensorId (.write serialNumber resolution e) fuel json h =
      some (n', .ret .ok, json', h')) :
    ∃ c, Requested buses i serialNumber resolution e c ∧ n'.storage = Function.update n.storage sensorId (some c) ∧
      json' = json ++ (configurationDocument c).items := by
  unfold SensorNode.closure at done
  cases found : getSensor sensorId n.sensors with
  | none =>
    rw [found] at done
    cases done
  | some place =>
    obtain ⟨before, sensor, after⟩ := place
    rw [found] at done
    obtain ⟨-, rfl⟩ := getSensor_some found
    obtain ⟨⟨s', result⟩, executed, same⟩ := Option.map_eq_some_iff.mp done
    cases same
    rcases writeConfiguration_outcome executed with ⟨-, failed⟩ | ⟨c, requested, rfl, ⟨-, written⟩ | ⟨failed, -⟩⟩
    · exact absurd rfl failed
    · exact ⟨c, requested, rfl, written⟩
    · exact absurd rfl failed

/-- **A write that is answered with `OK` has recorded what its query says**, and its answer shows the serial number as
it was written, in capitals. The request is scheduled for its GPIO where there is memory and room, and the views that
its closure gets are into its URI as long as it waits. -/
theorem write_request_recorded (buses : ι → Bus β) (w : Writable path pairs) (text : uri.text = queryText path pairs)
    {gpio : Int} {sensorId : String} {serial : List Char} {bytes : List (BitVec 8)} {r : Resolution}
    (asks : Asks pairs gpio sensorId serial bytes r) :
    ∃ id sn res sn' res', Gives (Handler.writeConfiguration.arguments uri) (some (gpio, [id, sn, res])) ∧
      id.text uri = some sensorId.toList ∧ stringView uri sn = some sn' ∧ stringView uri res = some res' ∧
      (∀ s : Requests, Admits .writeConfiguration (gpio, [id, sn, res]) s) ∧
      ∀ {s : Requests} {request : Nat}, Attended s ⟨request, .writeConfiguration⟩ →
        ∀ {n n' : SensorNode ι} {i : ι} {e : WriteEnv β} {fuel : Nat} {json json' : Items δ} {h h' : Heap},
          n.closure buses i sensorId (.write sn' res' e) fuel json h = some (n', .ret .ok, json', h') →
          ∃ c : Configuration, c.romCode.serialNumber = bytes ∧ c.resolution = r ∧
            n'.storage = Function.update n.storage sensorId (some c) ∧ json' = json ++ (configurationDocument c).items ∧
            (serialNumberToStr c.romCode.serialNumber).toList = serial.map Char.toUpper := by
  obtain ⟨id, sn, res, sn', res', gives, id_text, sn_view, res_view, sn_text, tight, named⟩ :=
    arguments_of_asks w text asks
  refine ⟨id, sn, res, sn', res', gives, id_text, sn_view, res_view, admits _ _, ?_⟩
  intro s request _ n n' i e fuel json json' h h' done
  obtain ⟨c, requested, storage, written⟩ := closure_write_ok done
  obtain ⟨fuel', romCode, parsed, -, same⟩ := requested.found
  have is : IsSerial sn'.text bytes := sn_text ▸ asks.bytes
  obtain ⟨parsed', reads, read, resolution⟩ := parses_view is tight named
  cases reads.2 fuel' _ parsed
  have serialNumber : c.romCode.serialNumber = bytes := same.trans read
  exact ⟨c, serialNumber, resolution, storage, written, by rw [serialNumber, is.print, sn_text]⟩

end

/-- The pairs of a request for a configuration. -/
def writePairs : List (List Char × List Char) :=
  [("gpio".toList, "26".toList), ("sensor_id".toList, "probe".toList),
    ("serial_number".toList, "AA:BB:CC:DD:EE:FF".toList), ("resolution".toList, "12".toList)]

/-- The request. -/
def writeUri : CString := ⟨queryText "/write".toList writePairs, by decide +kernel⟩

/-- The request is scheduled and waits while its closure is executed; on a bus with the device the closure
ends with `OK`. -/
theorem write_request_recorded_one : ∃ id sn res sn' res',
    Gives (Handler.writeConfiguration.arguments writeUri) (some (26, [id, sn, res])) ∧
      stringView writeUri sn = some sn' ∧ stringView writeUri res = some res' ∧
      (∃ s', RequestStep (.new 1 [26]) (.schedule .writeConfiguration 26) s' ∧
        Scheduled .writeConfiguration 26 (.new 1 [26]) s') ∧
      (∃ tr s, Run TimelyStep (.new 1 [26]) tr s ∧ Attended s ⟨0, .writeConfiguration⟩) ∧
      ∃ fuel n' json' h' c, oneSensor.closure (fun _ => Sensor.scripted) () "probe" (.write sn' res' probeEnv) fuel
          (.nil : Items Int) ⟨0, 0, fun _ => false⟩ = some (n', .ret .ok, json', h') ∧
        n'.storage = Function.update (fun _ => none) "probe" (some c) ∧ c.resolution = .bit12 ∧
          (serialNumberToStr c.romCode.serialNumber).toList = "AA:BB:CC:DD:EE:FF".toList := by
  have serial : IsSerial "AA:BB:CC:DD:EE:FF".toList [0xAA, 0xBB, 0xCC, 0xDD, 0xEE, 0xFF] := by
    have printed := (@isSerial_printed [0xAA, 0xBB, 0xCC, 0xDD, 0xEE, 0xFF] rfl).1
    have text : (serialNumberToStr [0xAA, 0xBB, 0xCC, 0xDD, 0xEE, 0xFF]).toList = "AA:BB:CC:DD:EE:FF".toList := by
      decide +kernel
    rwa [text] at printed
  have writable : Writable "/write".toList writePairs :=
    ⟨by decide +kernel, by decide, by decide +kernel, by decide +kernel, by decide +kernel, by decide +kernel⟩
  have asks : Asks writePairs 26 "probe" "AA:BB:CC:DD:EE:FF".toList [0xAA, 0xBB, 0xCC, 0xDD, 0xEE, 0xFF] .bit12 := {
    node := by decide +kernel
    low := by decide
    high := by decide
    sensor := by decide +kernel
    serial := ⟨[("gpio".toList, "26".toList), ("sensor_id".toList, "probe".toList)],
      [("resolution".toList, "12".toList)], rfl, by decide +kernel⟩
    bytes := serial
    resolution := ⟨"12".toList, by decide +kernel, by decide +kernel⟩ }
  obtain ⟨id, sn, res, sn', res', gives, -, sn_view, res_view, requests, recorded⟩ :=
    write_request_recorded (fun _ : Unit => Sensor.scripted) writable (rfl : writeUri.text = _) asks
  -- the values are where they are in the URI
  have parsed : Handler.writeConfiguration.arguments writeUri 20 = some (some (26, [⟨25, 5⟩, ⟨45, 17⟩, ⟨74, 2⟩])) := by
    decide +kernel
  cases gives.2 20 _ parsed
  have executed : ((stringView writeUri ⟨45, 17⟩).bind fun sn => (stringView writeUri ⟨74, 2⟩).bind fun res =>
      (oneSensor.closure (fun _ => Sensor.scripted) () "probe" (.write sn res probeEnv) 20 (.nil : Items Int)
        ⟨0, 0, fun _ => false⟩).map fun done => done.2.1) = some (.ret .ok) := by
    decide +kernel
  rw [sn_view, res_view] at executed
  obtain ⟨⟨n', _, json', h'⟩, done, rfl⟩ := Option.map_eq_some_iff.mp executed
  obtain ⟨tr, s, run, attended⟩ : ∃ tr s, Run TimelyStep (.new 1 [26]) tr s ∧ Attended s ⟨0, .writeConfiguration⟩ := by
    have first : Run TimelyStep (.new 1 [26]) [.schedule .writeConfiguration 26]
        ((Requests.new 1 [26]).schedule .writeConfiguration 26 true) :=
      .single ⟨.schedule .writeConfiguration 26 true, timely_of_ne nofun⟩
    obtain ⟨tr, run⟩ := store_executes (s := (Requests.new 1 [26]).schedule .writeConfiguration 26 true)
      (e := ⟨⟨0, .writeConfiguration⟩, 0⟩) rfl rfl rfl rfl
    exact ⟨_, _, first.trans run, 0, _, ⟨⟨0, .writeConfiguration⟩, 0⟩, rfl, List.Mem.head _, rfl, rfl⟩
  obtain ⟨c, -, resolution, storage, -, shown⟩ := recorded attended done
  exact ⟨_, _, _, sn', res', gives, sn_view, res_view,
    (requests (.new 1 [26])).scheduled ⟨0, _, rfl, rfl, by decide⟩, ⟨tr, s, run, attended⟩, 20, n', json', h', c, done,
    storage, resolution, shown.trans (by decide +kernel)⟩

end OcsComponents.Pipeline
