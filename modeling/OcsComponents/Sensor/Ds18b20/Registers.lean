import OcsComponents.OneWire.Addressing
import OcsComponents.Sensor.Ds18b20.Persistence

/-!
# Devices that share a bus with their sensors

`Scratchpad::read`, `Scratchpad::write`, `Sensor::run`, what `Sensor::write_configuration` does with its device
and the calls of a new scanner on a line with any number of DS18B20 devices. What a device keeps is its own
matter (`Memory`); it sends its scratchpad, takes three bytes or converts when it is told to. The operations have the results and the effects that they would have on
the registers of the addressed device, without a bus between them (`Request.direct`), and a scan finds the
ROM codes and leaves the registers alone.
-/

namespace OcsComponents.Sensor.Ds18b20
open Status OcsComponents.OneWire Transition

variable {β γ μ : Type}

/-- What a device keeps: its scratchpad, and what becomes of it when bytes are written and when it
converts. The bytes are given as they come over the line. -/
structure Memory (μ : Type) where
  scratchpad : μ → Scratchpad
  write : List Bool → μ → μ
  convert : μ → μ

/-- What an addressed device does with the next slot. -/
inductive Mode where
  | idle
  | command (bits : List Bool)
  | sending (bits : List Bool)
  | receiving (bits : List Bool)
  deriving DecidableEq, Repr

structure Thermometer (μ : Type) where
  memory : μ
  mode : Mode

namespace Memory
variable (M : Memory μ)

/-- A command: `ConvertT`, `ReadScratchpad` or `WriteScratchpad`. -/
def obey (bits : List Bool) (m : μ) : Thermometer μ :=
  if bits = lowBits 8 0x44 then ⟨M.convert m, .idle⟩
  else if bits = lowBits 8 0xBE then ⟨m, .sending (wireBits (M.scratchpad m).bytes.toList)⟩
  else if bits = lowBits 8 0x4E then ⟨m, .receiving []⟩
  else ⟨m, .idle⟩

/-- The device once it is addressed. -/
def slave : Slave (Thermometer μ) where
  reset d := (true, { d with mode := .command [] })
  slot level d :=
    match d.mode with
    | .idle => (false, d)
    | .command bits =>
      if bits.length < 7 then (false, { d with mode := .command (bits ++ [level]) })
      else (false, M.obey (bits ++ [level]) d.memory)
    | .sending [] => (false, d)
    | .sending (bit :: bits) => (!bit, { d with mode := .sending bits })
    | .receiving bits =>
      if bits.length < 23 then (false, { d with mode := .receiving (bits ++ [level]) })
      else (false, ⟨M.write (bits ++ [level]) d.memory, .idle⟩)

/-- The line with such devices. -/
abbrev line : Slave (List (Addressed (Thermometer μ))) := M.slave.addressed.wired

end Memory

/-- The memories of the devices by their ROM codes. -/
abbrev Registers (μ : Type) := List (RomCode × μ)

namespace Registers

/-- The registers of one device are changed. -/
def modify (c : RomCode) (f : μ → μ) (regs : Registers μ) : Registers μ :=
  regs.map fun (c', m) => (c', if c' = c then f m else m)

/-- The scratchpad with a ROM code, or what a line that nobody keeps low is read as. -/
def contents (M : Memory μ) (c : RomCode) (regs : Registers μ) : Scratchpad :=
  match regs.find? (·.1 = c) with
  | some (_, m) => M.scratchpad m
  | none => ⟨Vector.replicate 9 0xFF⟩

end Registers

/-- The registers of the devices on a line. -/
def registers (ds : List (Addressed (Thermometer μ))) : Registers μ := ds.map fun d => (d.romCode, d.state.memory)

/-- `Scratchpad::read` and `Scratchpad::write` for a ROM code, the device's part of `Sensor::write_configuration`,
`Sensor::run`, and calls of a new scanner. -/
inductive Request where
  | read (romCode : RomCode)
  | write (romCode : RomCode) (pad : Scratchpad)
  | configure (c : Configuration)
  | run (s : Sensor Unit)
  | scan (calls : Nat)

/-- What a request returns: its status, the scratchpad, the sensor, or the outcomes with the codes. -/
inductive Result where
  | scratchpad (code : StatusCode) (pad : Scratchpad)
  | wrote (code : StatusCode)
  | ran (code : StatusCode) (s : Sensor Unit)
  | scanned (found : List (Outcome × RomCode))
  deriving DecidableEq

namespace Request

/-- On a bus. -/
def exec (B : Bus β) (w : β) : Request → Result × β
  | read c =>
    let (code, pad, w) := Scratchpad.new.read B c w
    (.scratchpad code pad, w)
  | write c pad =>
    let (code, w) := pad.write B c w
    (.wrote code, w)
  | configure c =>
    let (code, w) := Stored.updateDevice B c w
    (.wrote code, w)
  | run s =>
    let (code, s, w) := s.run (fun _ => B) w
    (.ran code s, w)
  | scan calls =>
    let (found, w) := scans B calls .new w
    (.scanned found, w)

def execs (B : Bus β) : List Request → β → List Result × β
  | [], w => ([], w)
  | r :: rs, w =>
    let (result, w) := r.exec B w
    let (results, w) := execs B rs w
    (result :: results, w)

/-- On the registers. Without devices the reset fails. A scan is one on the bus of the ROM codes. -/
def direct (M : Memory μ) (regs : Registers μ) : Request → Result × Registers μ
  | read c => if regs = [] then (.scratchpad .error .new, regs) else (.scratchpad .ok (regs.contents M c), regs)
  | write c pad =>
    if regs = [] then (.wrote .error, regs)
    else (.wrote .ok, regs.modify c (M.write (wireBits ((pad.bytes.toList.drop 2).take 3))))
  | configure c =>
    if regs = [] then (.wrote .error, regs)
    else
      let (r0, r1) := c.resolution.toProto
      let pad := Scratchpad.new.setResolution r0 r1
      let regs := regs.modify c.romCode (M.write (wireBits ((pad.bytes.toList.drop 2).take 3)))
      let pad := regs.contents M c.romCode
      (.wrote (if pad.valid = false ∨ pad.r0 ≠ r0 ∨ pad.r1 ≠ r1 then .invalidState else .ok), regs)
  | run s =>
    match s.bus with
    | none => (.ran .invalidState s, regs)
    | some _ =>
      if regs = [] then (.ran .error s, regs)
      else
        let regs := regs.modify s.configuration.romCode M.convert
        let pad := regs.contents M s.configuration.romCode
        (.ran .ok (if pad.valid then { s with data := pad.getTemperature } else s), regs)
  | scan calls => (.scanned (scanCalls (fixedBus (codes regs)) calls .new .idle), regs)

def directs (M : Memory μ) : List Request → Registers μ → List Result × Registers μ
  | [], regs => ([], regs)
  | r :: rs, regs =>
    let (result, regs) := r.direct M regs
    let (results, regs) := directs M rs regs
    (result :: results, regs)

end Request

/-! ## The addressed device -/

section
variable {M : Memory μ} {c : RomCode} {ds : List (Addressed (Thermometer μ))}
  {g : Addressed (Thermometer μ) → Thermometer μ}

theorem reads_sending (m : μ) (bits : List Bool) : M.slave.bus.Reads ⟨m, .sending bits⟩ bits ⟨m, .sending []⟩ := by
  induction bits with
  | nil => exact .start
  | cons bit bits ih =>
    refine ih.cons ?_
    show ((StatusCode.ok, !!bit), _) = _
    rw [Bool.not_not]
    rfl

/-- The bytes come in, and the last bit of them is the last slot that the device listens to. -/
theorem slots_receiving (m : μ) (bits before : List Bool) (due : before.length + bits.length = 24) (more : bits ≠ []) :
    M.slave.slots ⟨m, .receiving before⟩ bits = ⟨M.write (before ++ bits) m, .idle⟩ := by
  induction bits generalizing before with
  | nil => exact absurd rfl more
  | cons bit bits ih =>
    rw [List.length_cons] at due
    have slot : (M.slave.slot bit ⟨m, .receiving before⟩).2 =
        if before.length < 23 then ⟨m, .receiving (before ++ [bit])⟩ else ⟨M.write (before ++ [bit]) m, .idle⟩ := by
      show (if _ then _ else _ : Bool × Thermometer μ).2 = _
      split
      · rfl
      · rfl
    show M.slave.slots (M.slave.slot bit ⟨m, .receiving before⟩).2 bits = _
    rw [slot]
    by_cases last : bits = []
    · subst last
      rw [if_neg (by simp at due; omega)]
      rfl
    · have some := List.length_pos_of_ne_nil last
      rw [if_pos (by omega), ih (before ++ [bit]) (by simp; omega) last, List.append_assoc]
      rfl

theorem registers_chosen : registers (chosen c g ds) =
    ds.map fun d => (d.romCode, if d.romCode = c then (g d).memory else d.state.memory) := by
  rw [registers, chosen, List.map_map]
  apply List.map_congr_left
  intro d _
  rw [Function.comp_apply]
  split
  · rfl
  · rfl

theorem registers_modify (f : μ → μ) (same : ∀ d, (g d).memory = f d.state.memory) :
    registers (chosen c g ds) = (registers ds).modify c f := by
  rw [registers_chosen, registers, Registers.modify, List.map_map]
  apply List.map_congr_left
  intro d _
  rw [same]
  rfl

theorem contents_of_mem (distinct : (ds.map (·.romCode)).Nodup) {d : Addressed (Thermometer μ)} (member : d ∈ ds)
    (here : d.romCode = c) : (registers ds).contents M c = M.scratchpad d.state.memory := by
  induction ds with
  | nil => cases member
  | cons first ds ih =>
    obtain ⟨fresh, distinct⟩ := List.nodup_cons.mp distinct
    rcases List.mem_cons.mp member with rfl | later
    · simp [registers, Registers.contents, here]
    · have other : first.romCode ≠ c := fun same => fresh (List.mem_map.mpr ⟨d, later, here.trans same.symm⟩)
      rw [← ih distinct later]
      simp [registers, Registers.contents, other]

theorem contents_none (none : ∀ d ∈ ds, d.romCode ≠ c) : (registers ds).contents M c = ⟨Vector.replicate 9 0xFF⟩ := by
  have found : (registers ds).find? (·.1 = c) = Option.none := by
    rw [List.find?_eq_none]
    intro r member
    obtain ⟨d, inside, rfl⟩ := List.mem_map.mp member
    simpa using none d inside
  rw [Registers.contents, found]

/-- A command for the addressed device. -/
theorem command_wired (M : Memory μ) (c : RomCode) (byte : BitVec 8) (some : ds ≠ []) :
    returnOnError (c.matchOn M.line.bus ds) (M.line.bus.writeByte byte) =
      (.ok, chosen c (fun d => M.obey (lowBits 8 byte) d.state.memory) ds) := by
  rw [matchOn_wired _ _ _ some, returnOnError_ok, Bus.writeByte, Bus.writeBits_slots, writeSlots_chosen]
  rfl

/-- `Scratchpad::write` on the line. -/
theorem write_wired (M : Memory μ) (c : RomCode) (pad : Scratchpad) (some : ds ≠ []) :
    pad.write M.line.bus c ds = (.ok, chosen c
      (fun d => ⟨M.write (wireBits ((pad.bytes.toList.drop 2).take 3)) d.state.memory, .idle⟩) ds) := by
  have length : ((pad.bytes.toList.drop 2).take 3).length = 3 := by simp
  have nonempty : (pad.bytes.toList.drop 2).take 3 ≠ [] := List.ne_nil_of_length_pos (by omega)
  have command := command_wired M c 0x4E some
  rw [matchOn_wired _ _ _ some, returnOnError_ok] at command
  rw [Scratchpad.write, matchOn_wired _ _ _ some, returnOnError_ok, command, returnOnError_ok,
    Bus.writeBytes_slots _ nonempty, writeSlots_chosen]
  congr 2
  funext d
  exact slots_receiving _ _ [] (by rw [wireBits_length, length]; rfl)
    (List.ne_nil_of_length_pos (by rw [wireBits_length]; omega))

/-- A buffer that is read whole is what was sent. -/
theorem readBytes_ok {B : Bus β} {s s' : β} (pad : Scratchpad) (buf : Vector (BitVec 8) 9)
    (sends : B.Reads s (wireBits pad.bytes.toList) s') : B.readBytes buf s = (.ok, pad.bytes, s') := by
  obtain ⟨buf', reads, bytes⟩ := Bus.readLast_ok buf sends (by simp)
  have length : pad.bytes.toList.length = 9 := Vector.length_toList
  have same : buf' = pad.bytes := by
    apply Vector.toList_inj.mp
    apply List.ext_getElem?
    intro i
    rw [Vector.getElem?_toList, bytes i, length, Nat.sub_self, if_neg (Nat.not_lt_zero i), Nat.sub_zero]
  rw [length] at reads
  rw [Bus.readBytes, if_neg (by decide), reads, same]

/-- The scratchpad comes from the addressed device. -/
theorem readScratchpad_wired (M : Memory μ) (distinct : (ds.map (·.romCode)).Nodup) (buf : Vector (BitVec 8) 9) :
    M.line.bus.readBytes buf (chosen c (fun d => M.obey (lowBits 8 0xBE) d.state.memory) ds) =
      (.ok, ((registers ds).contents M c).bytes, chosen c (fun d => ⟨d.state.memory, .sending []⟩) ds) := by
  apply readBytes_ok
  apply reads_chosen
  · intro d member here
    rw [contents_of_mem distinct member here]
    exact reads_sending _ _
  · intro none
    rw [contents_none none]
    decide

/-- `Scratchpad::read` on the line. -/
theorem read_wired (M : Memory μ) (distinct : (ds.map (·.romCode)).Nodup) (pad : Scratchpad) (some : ds ≠ []) :
    pad.read M.line.bus c ds =
      (.ok, (registers ds).contents M c, chosen c (fun d => ⟨d.state.memory, .sending []⟩) ds) := by
  have command := command_wired M c 0xBE some
  rw [matchOn_wired _ _ _ some, returnOnError_ok] at command
  rw [Scratchpad.read, matchOn_wired _ _ _ some]
  dsimp only
  rw [returnOnError_ok]
  dsimp only
  rw [command]
  dsimp only
  rw [returnOnError_ok]
  dsimp only
  rw [readScratchpad_wired M distinct]

/-- A write that is read back. -/
theorem writeRead_wired (M : Memory μ) (distinct : (ds.map (·.romCode)).Nodup) (pad pad' : Scratchpad)
    (some : ds ≠ []) :
    let bits := wireBits ((pad.bytes.toList.drop 2).take 3)
    let w := (pad.write M.line.bus c ds).2
    pad'.read M.line.bus c w = (.ok, ((registers ds).modify c (M.write bits)).contents M c,
      chosen c (fun d => ⟨M.write bits d.state.memory, .sending []⟩) ds) := by
  intro bits w
  have written : w = chosen c (fun d => ⟨M.write bits d.state.memory, .idle⟩) ds := by
    exact congrArg Prod.snd (write_wired M c pad some)
  have effect : registers w = (registers ds).modify c (M.write bits) := by
    rw [written]
    exact registers_modify _ fun _ => rfl
  have distinct' : (w.map (·.romCode)).Nodup := by
    rwa [written, chosen_romCode]
  have some' : w ≠ [] := by
    rw [written]
    simpa [chosen] using some
  rw [read_wired M distinct' pad' some', effect, written, chosen_chosen]

/-- The device's part of `Sensor::write_configuration` on the line. -/
theorem updateDevice_wired (M : Memory μ) (distinct : (ds.map (·.romCode)).Nodup) (c : Configuration) (some : ds ≠ []) :
    let (r0, r1) := c.resolution.toProto
    let bits := wireBits (((Scratchpad.new.setResolution r0 r1).bytes.toList.drop 2).take 3)
    let pad := ((registers ds).modify c.romCode (M.write bits)).contents M c.romCode
    Stored.updateDevice M.line.bus c ds = (if pad.valid = false ∨ pad.r0 ≠ r0 ∨ pad.r1 ≠ r1 then .invalidState else .ok,
      chosen c.romCode (fun d => ⟨M.write bits d.state.memory, .sending []⟩) ds) := by
  have written := write_wired M c.romCode
    (Scratchpad.new.setResolution c.resolution.toProto.1 c.resolution.toProto.2) some
  have read := writeRead_wired M distinct (c := c.romCode)
    (Scratchpad.new.setResolution c.resolution.toProto.1 c.resolution.toProto.2)
    (Scratchpad.new.setResolution c.resolution.toProto.1 c.resolution.toProto.2) some
  simp only [written] at read
  simp only [Stored.updateDevice, written, returnOnError_ok, read]
  split
  · next invalid => rw [if_pos (Or.inl invalid)]
  · next valid =>
    split
    · next other => rw [if_pos (Or.inr other)]
    · next same => rw [if_neg fun any => any.elim valid same]

/-- The bus operations of `Sensor::run` on the line. -/
theorem convert_wired (M : Memory μ) (distinct : (ds.map (·.romCode)).Nodup) (some : ds ≠ []) :
    Sensor.convert M.line.bus c ds = (.ok, ((registers ds).modify c M.convert).contents M c,
      chosen c (fun d => ⟨M.convert d.state.memory, .sending []⟩) ds) := by
  have command := command_wired M c 0x44 some
  rw [matchOn_wired _ _ _ some, returnOnError_ok] at command
  have converted : registers (chosen c (fun d => M.obey (lowBits 8 0x44) d.state.memory) ds) =
      (registers ds).modify c M.convert := registers_modify M.convert fun _ => rfl
  have distinct' : ((chosen c (fun d => M.obey (lowBits 8 0x44) d.state.memory) ds).map (·.romCode)).Nodup := by
    rwa [chosen_romCode]
  have some' : chosen c (fun d => M.obey (lowBits 8 0x44) d.state.memory) ds ≠ [] := by
    simpa [chosen] using some
  rw [Sensor.convert, matchOn_wired _ _ _ some]
  dsimp only
  rw [returnOnError_ok]
  dsimp only
  rw [command]
  dsimp only
  rw [returnOnError_ok]
  dsimp only
  rw [read_wired M distinct' _ some', converted, chosen_chosen]
  rfl

theorem codes_registers {ds' : List (Addressed (Thermometer μ))} (same : registers ds' = registers ds) :
    ds'.map (·.romCode) = ds.map (·.romCode) := by
  have romCodes : ∀ ds : List (Addressed (Thermometer μ)), (registers ds).map Prod.fst = ds.map (·.romCode) :=
    fun _ => List.map_map
  rw [← romCodes, ← romCodes, same]

/-- A scan leaves the devices as they were. -/
theorem scans_wired (M : Memory μ) (ds : List (Addressed (Thermometer μ))) (calls : Nat) :
    (scans M.line.bus calls .new ds).1 = scanCalls (fixedBus (codes (registers ds))) calls .new .idle ∧
      registers (scans M.line.bus calls .new ds).2 = registers ds := by
  have silent : Searched (·.memory) (registers ds) ds Wire.idle :=
    ⟨rfl, fun _ _ => trivial, fun _ member => absurd member (Finset.notMem_empty _)⟩
  have keeps : ∀ d, (M.slave.reset d).2.memory = d.memory := fun _ => rfl
  have attached := addressed_attached M.slave keeps (registers ds)
  obtain ⟨found, after⟩ := attached.scans calls .new silent
  exact ⟨found.trans (scans_results _ _ _ _), after.views⟩

/-- **One request** has the result and the effect that it has on the registers. -/
theorem exec_direct (M : Memory μ) (distinct : (ds.map (·.romCode)).Nodup) (r : Request) :
    (r.exec M.line.bus ds).1 = (r.direct M (registers ds)).1 ∧
      registers (r.exec M.line.bus ds).2 = (r.direct M (registers ds)).2 ∧
        (r.exec M.line.bus ds).2.map (·.romCode) = ds.map (·.romCode) := by
  by_cases none : ds = []
  · subst none
    cases r with
    | read c => exact ⟨rfl, rfl, rfl⟩
    | write c pad => exact ⟨rfl, rfl, rfl⟩
    | configure c => exact ⟨rfl, rfl, rfl⟩
    | run s =>
      obtain ⟨id, bus, configuration, data⟩ := s
      cases bus <;> exact ⟨rfl, rfl, rfl⟩
    | scan calls =>
      obtain ⟨found, same⟩ := scans_wired M ([] : List (Addressed (Thermometer μ))) calls
      exact ⟨congrArg _ found, same, codes_registers same⟩
  · have some : registers ds ≠ [] := by simpa [registers] using none
    cases r with
    | read c =>
      simp only [Request.exec, Request.direct, read_wired M distinct _ none, if_neg some]
      refine ⟨trivial, ?_, chosen_romCode⟩
      rw [registers_chosen]
      simp [registers]
    | write c pad =>
      simp only [Request.exec, Request.direct, write_wired M c pad none, if_neg some]
      exact ⟨trivial, registers_modify _ fun _ => rfl, chosen_romCode⟩
    | configure c =>
      have configured := updateDevice_wired M distinct c none
      simp only [Request.exec, Request.direct, configured, if_neg some]
      exact ⟨trivial, registers_modify _ fun _ => rfl, chosen_romCode⟩
    | run s =>
      obtain ⟨id, bus, configuration, data⟩ := s
      cases bus with
      | none => exact ⟨rfl, rfl, rfl⟩
      | some i =>
        simp only [Request.exec, Request.direct, Sensor.run, convert_wired M distinct none, returnOnError_ok,
          if_neg some]
        exact ⟨trivial, registers_modify _ fun _ => rfl, chosen_romCode⟩
    | scan calls =>
      obtain ⟨found, same⟩ := scans_wired M ds calls
      exact ⟨congrArg _ found, same, codes_registers same⟩

/-- Requests one after another. -/
theorem execs_direct (M : Memory μ) (distinct : (ds.map (·.romCode)).Nodup) (rs : List Request) :
    (Request.execs M.line.bus rs ds).1 = (Request.directs M rs (registers ds)).1 ∧
      registers (Request.execs M.line.bus rs ds).2 = (Request.directs M rs (registers ds)).2 := by
  induction rs generalizing ds with
  | nil => exact ⟨rfl, rfl⟩
  | cons r rs ih =>
    obtain ⟨result, effect, codes⟩ := exec_direct M distinct r
    have distinct' : ((r.exec M.line.bus ds).2.map (·.romCode)).Nodup := by rwa [codes]
    obtain ⟨results, effects⟩ := ih distinct'
    rw [effect] at results effects
    exact ⟨congrArg₂ List.cons result results, effects⟩

theorem execs_romCode (M : Memory μ) (distinct : (ds.map (·.romCode)).Nodup) (rs : List Request) :
    (Request.execs M.line.bus rs ds).2.map (·.romCode) = ds.map (·.romCode) := by
  induction rs generalizing ds with
  | nil => rfl
  | cons r rs ih =>
    obtain ⟨-, -, codes⟩ := exec_direct M distinct r
    have distinct' : ((r.exec M.line.bus ds).2.map (·.romCode)).Nodup := by rwa [codes]
    exact (ih distinct').trans codes

end

/-! ## Down to the pin -/

section
variable {B : Bus β} {B' : Bus γ} {R : β → γ → Prop}

/-- The same answer with the same value, and related states. -/
abbrev ValueAlike {α ρ : Type} (R : β → γ → Prop) (r : ρ × α × β) (r' : ρ × α × γ) : Prop :=
  Alike (fun a b => a.1 = b.1 ∧ R a.2 b.2) r r'

/-- A call whose status decides what becomes of a value. -/
theorem ValueAlike.of_status {α : Type} (x : α) {r : StatusCode × β} {r' : StatusCode × γ}
    {k : α × β → StatusCode × α × β} {k' : α × γ → StatusCode × α × γ} (h : Alike R r r')
    (next : R r.2 r'.2 → ValueAlike R (k (x, r.2)) (k' (x, r'.2))) :
    ValueAlike R (returnOnError (r.1, x, r.2) k) (returnOnError (r'.1, x, r'.2) k') := by
  obtain ⟨same, related⟩ := h
  have given : ValueAlike R (r.1, x, r.2) (r'.1, x, r'.2) := ⟨same, rfl, related⟩
  apply given.bind
  exact fun both => next both.2

variable (sim : Everywhere B B' R) {s : β} {w : γ}
include sim

theorem matchOn_alike (c : RomCode) (related : R s w) : Alike R (c.matchOn B s) (c.matchOn B' w) := by
  apply (sim.reset related).bind
  intro related
  apply (sim.writeBits 8 0x55 related).bind
  exact sim.writeBytes c.bytes.toList

theorem write_alike (c : RomCode) (pad : Scratchpad) (related : R s w) :
    Alike R (pad.write B c s) (pad.write B' c w) := by
  apply (matchOn_alike sim c related).bind
  intro related
  apply (sim.writeBits 8 0x4E related).bind
  exact sim.writeBytes _

theorem read_alike (c : RomCode) (pad : Scratchpad) (related : R s w) :
    ValueAlike R (pad.read B c s) (pad.read B' c w) := by
  apply ValueAlike.of_status pad (matchOn_alike sim c related)
  intro related
  apply ValueAlike.of_status pad (sim.writeBits 8 0xBE related)
  intro related
  obtain ⟨same, bytes, related⟩ := sim.readBytes pad.bytes related
  exact ⟨same, congrArg Scratchpad.mk bytes, related⟩

theorem updateDevice_alike (c : Configuration) (related : R s w) :
    Alike R (Stored.updateDevice B c s) (Stored.updateDevice B' c w) := by
  rw [Stored.updateDevice, Stored.updateDevice]
  generalize c.resolution.toProto = proto
  obtain ⟨r0, r1⟩ := proto
  dsimp only
  generalize Scratchpad.new.setResolution r0 r1 = pad
  apply (write_alike sim c.romCode pad related).bind
  intro related
  obtain ⟨same, bytes, related⟩ := read_alike sim c.romCode pad related
  generalize pad.read B c.romCode _ = r at *
  generalize pad.read B' c.romCode _ = r' at *
  obtain ⟨code, read, s⟩ := r
  obtain ⟨code', read', w⟩ := r'
  obtain rfl : code = code' := same
  obtain rfl : read = read' := bytes
  have done : Alike R (code, s) (code, w) := ⟨rfl, related⟩
  apply done.bind
  intro related
  split
  · exact ⟨rfl, related⟩
  · split
    · exact ⟨rfl, related⟩
    · exact ⟨rfl, related⟩

theorem convert_alike (c : RomCode) (related : R s w) :
    ValueAlike R (Sensor.convert B c s) (Sensor.convert B' c w) := by
  apply ValueAlike.of_status Scratchpad.new (matchOn_alike sim c related)
  intro related
  apply ValueAlike.of_status Scratchpad.new (sim.writeBits 8 0x44 related)
  exact read_alike sim c Scratchpad.new

theorem run_alike (sensor : Sensor Unit) (related : R s w) :
    ValueAlike R (sensor.run (fun _ => B) s) (sensor.run (fun _ => B') w) := by
  obtain ⟨id, bus, configuration, data⟩ := sensor
  cases bus with
  | none => exact ⟨rfl, rfl, related⟩
  | some i =>
    obtain ⟨same, bytes, related⟩ := convert_alike sim configuration.romCode related
    simp only [Sensor.run]
    generalize Sensor.convert B _ s = r at *
    generalize Sensor.convert B' _ w = r' at *
    obtain ⟨code, pad, s⟩ := r
    obtain ⟨code', pad', w⟩ := r'
    obtain rfl : code = code' := same
    obtain rfl : pad = pad' := bytes
    have measured : Alike R (code, s) (code, w) := ⟨rfl, related⟩
    apply ValueAlike.of_status _ measured
    exact fun related => ⟨rfl, rfl, related⟩

theorem exec_alike (r : Request) (related : R s w) : Alike R (r.exec B s) (r.exec B' w) := by
  cases r with
  | read c =>
    obtain ⟨same, bytes, related⟩ := read_alike sim c Scratchpad.new related
    exact ⟨congrArg₂ Result.scratchpad same bytes, related⟩
  | write c pad =>
    obtain ⟨same, related⟩ := write_alike sim c pad related
    exact ⟨congrArg Result.wrote same, related⟩
  | configure c =>
    obtain ⟨same, related⟩ := updateDevice_alike sim c related
    exact ⟨congrArg Result.wrote same, related⟩
  | run sensor =>
    obtain ⟨same, after, related⟩ := run_alike sim sensor related
    exact ⟨congrArg₂ Result.ran same after, related⟩
  | scan calls =>
    obtain ⟨same, related⟩ := sim.scans calls .new related
    exact ⟨congrArg _ same, related⟩

theorem execs_alike (rs : List Request) (related : R s w) : Alike R (Request.execs B rs s) (Request.execs B' rs w) := by
  induction rs generalizing s w with
  | nil => exact ⟨rfl, related⟩
  | cons r rs ih =>
    obtain ⟨same, related'⟩ := exec_alike sim r related
    obtain ⟨rest, related''⟩ := ih related'
    exact ⟨congrArg₂ List.cons same rest, related''⟩

end

/-- **Sensors on one line do not disturb one another**: with devices of different ROM codes behind a pin and
a delayer whose intervals fit, every sequence of requests has the results that it has on the registers of
the addressed devices, and leaves the registers of all devices as it does there. The temperature that a
sensor keeps is what `get_temperature` makes of the registers, below zero as well. -/
theorem pins_registers {p : BusParams} {t : SlaveTimes} (fits : p.Fits t) (M : Memory μ)
    (ds : List (Addressed (Thermometer μ))) (distinct : (ds.map (·.romCode)).Nodup) (rs : List Request) :
    (Request.execs ((Line.pins M.line t ds).bus p) rs []).1 = (Request.directs M rs (registers ds)).1 ∧
      ∃ ds', Line.At M.line t ds (Request.execs ((Line.pins M.line t ds).bus p) rs []).2 ds' ∧
        registers ds' = (Request.directs M rs (registers ds)).2 := by
  obtain ⟨results, related⟩ := execs_alike (Line.everywhere M.line fits ds) rs (Line.at_nil ds)
  obtain ⟨direct, effects⟩ := execs_direct M distinct rs
  exact ⟨results.trans direct, _, related, effects⟩

/-- Devices that keep their scratchpad and take the written bits for its first byte. -/
def bitKeeper : Memory Scratchpad where
  scratchpad := id
  write bits s := ⟨s.bytes.setIfInBounds 0 (if bits.getD 0 false then 1 else 0)⟩
  convert := id

/-- Two devices. -/
def twoKeepers : List (Addressed (Thermometer Scratchpad)) :=
  [⟨thermometer0, .idle, ⟨.new, .idle⟩⟩, ⟨thermometer1, .idle, ⟨.new, .idle⟩⟩]

/-- What is written to one of them is read from it, and not from the other one. -/
theorem pins_registers_two :
    (Request.execs ((Line.pins bitKeeper.line sensorTimes twoKeepers).bus storeParams)
      [.write thermometer0 ⟨Vector.replicate 9 1⟩, .read thermometer0, .read thermometer1] []).1 =
    [.wrote .ok, .scratchpad .ok ⟨Scratchpad.new.bytes.setIfInBounds 0 1⟩, .scratchpad .ok .new] :=
  (pins_registers storeParams_fits_sensor bitKeeper twoKeepers (by decide)
    [.write thermometer0 ⟨Vector.replicate 9 1⟩, .read thermometer0, .read thermometer1]).1.trans (by decide)

end OcsComponents.Sensor.Ds18b20
