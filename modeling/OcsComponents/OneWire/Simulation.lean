import OcsComponents.OneWire.Enumeration
import OcsComponents.OneWire.LineHold

/-!
# Buses that answer alike

When one bus simulates another, slot by slot, so do all their operations. A bus may do so only where the
other expects a slot to be read or written; the scanner asks for no more of a bus with devices, so its
calls have the same results on any bus that simulates it.
-/

namespace OcsComponents.OneWire
open Status

variable {β γ : Type} {B : Bus β} {B' : Bus γ} {R : β → γ → Prop}

/-- The same answer, and related states. -/
def Alike {α : Type} (R : β → γ → Prop) (r : α × β) (r' : α × γ) : Prop := r.1 = r'.1 ∧ R r.2 r'.2

/-- `B` answers like `B'` to a reset, to reading where `Reads`, and to writing where `Writes`. -/
structure Simulation (B : Bus β) (B' : Bus γ) (R : β → γ → Prop) (Reads Writes : γ → Prop) : Prop where
  reset : ∀ {s w}, R s w → Alike R (B.reset s) (B'.reset w)
  readBit : ∀ {s w}, R s w → Reads w → Alike R (B.readBit s) (B'.readBit w)
  writeBit : ∀ {s w} (bit : Bool), R s w → Writes w → Alike R (B.writeBit bit s) (B'.writeBit bit w)

/-- Wherever the slots are. -/
abbrev Everywhere (B : Bus β) (B' : Bus γ) (R : β → γ → Prop) : Prop := Simulation B B' R (fun _ => True) fun _ => True

theorem Simulation.trans {δ : Type} {C : Bus δ} {Q : γ → δ → Prop} {Reads Writes : δ → Prop} (first : Everywhere B B' R)
    (second : Simulation B' C Q Reads Writes) : Simulation B C (fun s w => ∃ m, R s m ∧ Q m w) Reads Writes := by
  constructor
  · intro s w ⟨m, r, q⟩
    obtain ⟨same, related⟩ := first.reset r
    obtain ⟨same', related'⟩ := second.reset q
    exact ⟨same.trans same', _, related, related'⟩
  · intro s w ⟨m, r, q⟩ reads
    obtain ⟨same, related⟩ := first.readBit r trivial
    obtain ⟨same', related'⟩ := second.readBit q reads
    exact ⟨same.trans same', _, related, related'⟩
  · intro s w bit ⟨m, r, q⟩ writes
    obtain ⟨same, related⟩ := first.writeBit bit r trivial
    obtain ⟨same', related'⟩ := second.writeBit bit q writes
    exact ⟨same.trans same', _, related, related'⟩

/-- One call after another. -/
theorem Alike.bind {r : StatusCode × β} {r' : StatusCode × γ} {k : β → StatusCode × β} {k' : γ → StatusCode × γ}
    (h : Alike R r r') (next : R r.2 r'.2 → Alike R (k r.2) (k' r'.2)) :
    Alike R (returnOnError r k) (returnOnError r' k') := by
  obtain ⟨code, s⟩ := r
  obtain ⟨code', w⟩ := r'
  obtain ⟨same, related⟩ := h
  subst same
  by_cases ok : code = .ok
  · subst ok
    exact next related
  · rw [returnOnError_fail _ _ ok, returnOnError_fail _ _ ok]
    exact ⟨rfl, related⟩

/-! ## The operations -/

/-- What an operation returns, and the bytes it has read. -/
def Operation.transfer (B : Bus β) (s : β) : Operation → (StatusCode × List (BitVec 8)) × β
  | .reset => (((B.reset s).1, []), (B.reset s).2)
  | .writeBit bit => (((B.writeBit bit s).1, []), (B.writeBit bit s).2)
  | .readBit => (((B.readBit s).1.1, [if (B.readBit s).1.2 then 1 else 0]), (B.readBit s).2)
  | .writeByte byte => (((B.writeByte byte s).1, []), (B.writeByte byte s).2)
  | .readByte byte => (((B.readByte byte s).1, [(B.readByte byte s).2.1]), (B.readByte byte s).2.2)
  | .writeBytes none => ((.invalidArg, []), s)
  | .writeBytes (some buf) => (((B.writeBytes buf s).1, []), (B.writeBytes buf s).2)
  | .readBytes none => ((.invalidArg, []), s)
  | .readBytes (some buf) => (((B.readBytes buf s).1, (B.readBytes buf s).2.1.toList), (B.readBytes buf s).2.2)

/-- Operations one after another. -/
def transfers (B : Bus β) : List Operation → β → List (StatusCode × List (BitVec 8)) × β
  | [], s => ([], s)
  | op :: ops, s =>
    let (r, s) := op.transfer B s
    let (rs, s) := transfers B ops s
    (r :: rs, s)

/-- `k` calls of `scan`, and the bus that they leave. -/
def scans (B : Bus β) : Nat → RomCodeScanner → β → List (Outcome × RomCode) × β
  | 0, _, s => ([], s)
  | k + 1, sc, s =>
    match Scan.scan B ⟨sc, .new, s⟩ with
    | (.ret code, x) =>
      let (found, s) := scans B k x.scanner x.bus
      ((.ret code, x.buf) :: found, s)
    | (.fault f, x) => ([(.fault f, x.buf)], x.bus)

theorem scans_results (B : Bus β) (k : Nat) (sc : RomCodeScanner) (s : β) :
    (scans B k sc s).1 = scanCalls B k sc s := by
  induction k generalizing sc s with
  | zero => rfl
  | succ k ih =>
    rw [scans, scanCalls]
    generalize Scan.scan B ⟨sc, .new, s⟩ = r
    obtain ⟨o, x⟩ := r
    cases o with
    | ret code => exact congrArg _ (ih x.scanner x.bus)
    | fault f => rfl

namespace Simulation
variable (sim : Everywhere B B' R) {s : β} {w : γ}
include sim

theorem writeBits (n : Nat) (byte : BitVec 8) (related : R s w) :
    Alike R (B.writeBits n byte s) (B'.writeBits n byte w) := by
  induction n generalizing byte s w with
  | zero => exact ⟨rfl, related⟩
  | succ n ih =>
    apply (sim.writeBit (byte.getLsbD 0) related trivial).bind
    exact ih (byte >>> 1)

theorem writeList (bytes : List (BitVec 8)) (related : R s w) :
    Alike R (B.writeList bytes s) (B'.writeList bytes w) := by
  induction bytes generalizing s w with
  | nil => exact ⟨rfl, related⟩
  | cons byte bytes ih =>
    apply (sim.writeBits 8 byte related).bind
    exact ih

theorem writeBytes (bytes : List (BitVec 8)) (related : R s w) :
    Alike R (B.writeBytes bytes s) (B'.writeBytes bytes w) := by
  unfold Bus.writeBytes
  split
  · exact ⟨rfl, related⟩
  · exact sim.writeList bytes related

theorem readBits (n : Nat) (byte : BitVec 8) (related : R s w) :
    Alike (fun a b => a.1 = b.1 ∧ R a.2 b.2) (B.readBits n byte s) (B'.readBits n byte w) := by
  induction n generalizing byte s w with
  | zero => exact ⟨rfl, rfl, related⟩
  | succ n ih =>
    obtain ⟨same, related'⟩ := sim.readBit related trivial
    rw [Bus.readBits, Bus.readBits]
    generalize B.readBit s = r at *
    generalize B'.readBit w = r' at *
    obtain ⟨⟨code, bit⟩, s'⟩ := r
    obtain ⟨answer', w'⟩ := r'
    obtain rfl : (code, bit) = answer' := same
    have slot : Alike (fun a b => a.1 = b.1 ∧ R a.2 b.2) (code, byte, s') (code, byte, w') := ⟨rfl, rfl, related'⟩
    apply slot.bind
    exact fun _ => ih _ related'

theorem readLast {size : Nat} (n : Nat) (buf : Vector (BitVec 8) size) (related : R s w) :
    Alike (fun a b => a.1 = b.1 ∧ R a.2 b.2) (B.readLast n buf s) (B'.readLast n buf w) := by
  induction n generalizing buf s w with
  | zero => exact ⟨rfl, rfl, related⟩
  | succ n ih =>
    obtain ⟨same, byte, related'⟩ := sim.readBits 8 (buf[size - (n + 1)]?.getD 0) related
    rw [Bus.readLast, Bus.readLast]
    simp only [Bus.readByte] at *
    generalize B.readBits 8 _ s = r at *
    generalize B'.readBits 8 _ w = r' at *
    obtain ⟨code, byte', s'⟩ := r
    obtain ⟨code', byte'', w'⟩ := r'
    obtain rfl : code = code' := same
    obtain rfl : byte' = byte'' := byte
    let buf' := buf.setIfInBounds (size - (n + 1)) byte'
    have stored : Alike (fun a b => a.1 = b.1 ∧ R a.2 b.2) (code, buf', s') (code, buf', w') := ⟨rfl, rfl, related'⟩
    apply stored.bind
    exact fun _ => ih _ related'

theorem readBytes {size : Nat} (buf : Vector (BitVec 8) size) (related : R s w) :
    Alike (fun a b => a.1 = b.1 ∧ R a.2 b.2) (B.readBytes buf s) (B'.readBytes buf w) := by
  unfold Bus.readBytes
  split
  · exact ⟨rfl, rfl, related⟩
  · exact sim.readLast size buf related

/-- **Every operation.** -/
theorem transfer (op : Operation) (related : R s w) : Alike R (op.transfer B s) (op.transfer B' w) := by
  cases op with
  | reset =>
    obtain ⟨same, related'⟩ := sim.reset related
    exact ⟨by rw [Operation.transfer, Operation.transfer, same], related'⟩
  | writeBit bit =>
    obtain ⟨same, related'⟩ := sim.writeBit bit related trivial
    exact ⟨by rw [Operation.transfer, Operation.transfer, same], related'⟩
  | readBit =>
    obtain ⟨same, related'⟩ := sim.readBit related trivial
    exact ⟨by rw [Operation.transfer, Operation.transfer, same], related'⟩
  | writeByte byte =>
    obtain ⟨same, related'⟩ := sim.writeBits 8 byte related
    exact ⟨by rw [Operation.transfer, Operation.transfer, Bus.writeByte, Bus.writeByte, same], related'⟩
  | readByte byte =>
    obtain ⟨same, bytes, related'⟩ := sim.readBits 8 byte related
    exact ⟨by rw [Operation.transfer, Operation.transfer, Bus.readByte, Bus.readByte, same, bytes], related'⟩
  | writeBytes buf =>
    cases buf with
    | none => exact ⟨rfl, related⟩
    | some buf =>
      obtain ⟨same, related'⟩ := sim.writeBytes buf related
      exact ⟨by rw [Operation.transfer, Operation.transfer, same], related'⟩
  | readBytes buf =>
    cases buf with
    | none => exact ⟨rfl, related⟩
    | some buf =>
      obtain ⟨same, bytes, related'⟩ := sim.readBytes buf related
      exact ⟨by rw [Operation.transfer, Operation.transfer, same, bytes], related'⟩

theorem transfers (ops : List Operation) (related : R s w) : Alike R (transfers B ops s) (transfers B' ops w) := by
  induction ops generalizing s w with
  | nil => exact ⟨rfl, related⟩
  | cons op ops ih =>
    obtain ⟨same, related'⟩ := sim.transfer op related
    obtain ⟨rest, related''⟩ := ih related'
    exact ⟨congrArg₂ List.cons same rest, related''⟩

/-- The same scanner and buffer, on related buses. -/
structure SameScan (R : β → γ → Prop) (s : Scan β) (s' : Scan γ) : Prop where
  scanner : s.scanner = s'.scanner
  buf : s.buf = s'.buf
  bus : R s.bus s'.bus

variable {x : Scan β} {x' : Scan γ}

theorem putBit (n : Nat) (bit : Bool) (h : SameScan R x x') :
    Alike (SameScan R) (Scan.putBit B n bit x) (Scan.putBit B' n bit x') := by
  obtain ⟨sc, buf, s⟩ := x
  obtain ⟨sc', buf', w⟩ := x'
  obtain ⟨scanner, same_buf, related⟩ := h
  dsimp only at scanner same_buf related
  subst scanner same_buf
  obtain ⟨same, related'⟩ := sim.writeBit bit related trivial
  simp only [Scan.putBit]
  generalize B.writeBit bit s = r at *
  generalize B'.writeBit bit w = r' at *
  obtain ⟨code, s'⟩ := r
  obtain ⟨code', w'⟩ := r'
  obtain rfl : code = code' := same
  cases code <;> exact ⟨rfl, rfl, rfl, related'⟩

theorem scanBit (n : Nat) (h : SameScan R x x') :
    Alike (SameScan R) (Scan.scanBit B n x) (Scan.scanBit B' n x') := by
  obtain ⟨sc, buf, s⟩ := x
  obtain ⟨sc', buf', w⟩ := x'
  obtain ⟨scanner, same_buf, related⟩ := h
  dsimp only at scanner same_buf related
  subst scanner same_buf
  obtain ⟨same₁, related₁⟩ := sim.readBit related trivial
  simp only [Scan.scanBit]
  generalize B.readBit s = r₁ at *
  generalize B'.readBit w = r₁' at *
  obtain ⟨⟨code₁, bit₁⟩, s₁⟩ := r₁
  obtain ⟨⟨code₁', bit₁'⟩, w₁⟩ := r₁'
  obtain ⟨rfl, rfl⟩ := Prod.mk.inj same₁
  by_cases ok₁ : code₁ = .ok
  · subst ok₁
    obtain ⟨same₂, related₂⟩ := sim.readBit related₁ trivial
    dsimp only at *
    generalize B.readBit s₁ = r₂ at *
    generalize B'.readBit w₁ = r₂' at *
    obtain ⟨⟨code₂, bit₂⟩, s₂⟩ := r₂
    obtain ⟨⟨code₂', bit₂'⟩, w₂⟩ := r₂'
    obtain ⟨rfl, rfl⟩ := Prod.mk.inj same₂
    by_cases ok₂ : code₂ = .ok
    · subst ok₂
      dsimp only
      cases bit₁ && bit₂ with
      | true => exact ⟨rfl, rfl, rfl, related₂⟩
      | false =>
        cases !bit₁ && !bit₂ with
        | false => exact sim.putBit n _ ⟨rfl, rfl, related₂⟩
        | true =>
          cases sc.handleDiscrepancy buf n with
          | error f => exact ⟨rfl, rfl, rfl, related₂⟩
          | ok handled => exact sim.putBit n _ ⟨rfl, rfl, related₂⟩
    · cases code₂ <;> first | exact absurd rfl ok₂ | exact ⟨rfl, rfl, rfl, related₂⟩
  · cases code₁ <;> first | exact absurd rfl ok₁ | exact ⟨rfl, rfl, rfl, related₁⟩

theorem scanBits (k n : Nat) (h : SameScan R x x') :
    Alike (SameScan R) (Scan.scanBits B n k x) (Scan.scanBits B' n k x') := by
  induction k generalizing n x x' with
  | zero => exact ⟨rfl, h⟩
  | succ k ih =>
    obtain ⟨same, next⟩ := sim.scanBit n h
    rw [Scan.scanBits, Scan.scanBits]
    generalize Scan.scanBit B n x = r at *
    generalize Scan.scanBit B' n x' = r' at *
    obtain ⟨o, y⟩ := r
    obtain ⟨o', y'⟩ := r'
    obtain rfl : o = o' := same
    cases o with
    | none => exact ih (n + 1) next
    | some o => exact ⟨rfl, next⟩

omit sim in
/-- The end of a search. -/
theorem SameScan.valid (h : SameScan R x x') : Alike (SameScan R)
    (if x.buf.valid then
      (Outcome.ret .ok,
        if x.scanner.conflictCount = 0 then { x with scanner := { x.scanner with finished := true } } else x)
    else (.ret .error, x))
    (if x'.buf.valid then
      (Outcome.ret .ok,
        if x'.scanner.conflictCount = 0 then { x' with scanner := { x'.scanner with finished := true } } else x')
    else (.ret .error, x')) := by
  obtain ⟨sc, buf, s⟩ := x
  obtain ⟨sc', buf', w⟩ := x'
  obtain ⟨scanner, same_buf, related⟩ := h
  dsimp only at scanner same_buf related
  subst scanner same_buf
  by_cases valid : buf.valid = true
  · simp only [if_pos valid]
    by_cases last : sc.conflictCount = 0
    · rw [if_pos last, if_pos last]
      exact ⟨rfl, rfl, rfl, related⟩
    · rw [if_neg last, if_neg last]
      exact ⟨rfl, rfl, rfl, related⟩
  · simp only [if_neg valid]
    exact ⟨rfl, rfl, rfl, related⟩

/-- **A call of a scanner.** -/
theorem scan (h : SameScan R x x') : Alike (SameScan R) (Scan.scan B x) (Scan.scan B' x') := by
  obtain ⟨sc, buf, s⟩ := x
  obtain ⟨sc', buf', w⟩ := x'
  obtain ⟨scanner, same_buf, related⟩ := h
  dsimp only at scanner same_buf related
  subst scanner same_buf
  rw [Scan.scan, Scan.scan]
  by_cases finished : sc.finished = true
  · simp only [finished, if_true]
    exact ⟨rfl, rfl, rfl, related⟩
  simp only [finished, Bool.false_eq_true, if_false]
  obtain ⟨same, related₁⟩ := sim.reset related
  generalize B.reset s = r at *
  generalize B'.reset w = r' at *
  obtain ⟨code, s₁⟩ := r
  obtain ⟨code', w₁⟩ := r'
  obtain rfl : code = code' := same
  by_cases ok : code = .ok
  · subst ok
    obtain ⟨same₂, related₂⟩ := sim.writeBits 8 0xF0 related₁
    simp only [Bus.writeByte]
    generalize B.writeBits 8 0xF0 s₁ = r at *
    generalize B'.writeBits 8 0xF0 w₁ = r' at *
    obtain ⟨code, s₂⟩ := r
    obtain ⟨code', w₂⟩ := r'
    obtain rfl : code = code' := same₂
    by_cases ok : code = .ok
    · subst ok
      have start : SameScan R ⟨sc, buf, s₂⟩ ⟨sc, buf, w₂⟩ := ⟨rfl, rfl, related₂⟩
      obtain ⟨outcome, after⟩ := sim.scanBits RomCode.width 0 start
      dsimp only
      generalize Scan.scanBits B 0 RomCode.width _ = r at *
      generalize Scan.scanBits B' 0 RomCode.width _ = r' at *
      obtain ⟨o, y⟩ := r
      obtain ⟨o', y'⟩ := r'
      obtain rfl : o = o' := outcome
      cases o with
      | fault f => exact ⟨rfl, after⟩
      | ret code => cases code <;> first | exact after.valid | exact ⟨rfl, after⟩
    · cases code <;> first | exact absurd rfl ok | exact ⟨rfl, rfl, rfl, related₂⟩
  · cases code <;> first | exact absurd rfl ok | exact ⟨rfl, rfl, rfl, related₁⟩

theorem scans (k : Nat) (sc : RomCodeScanner) (related : R s w) : Alike R (scans B k sc s) (scans B' k sc w) := by
  induction k generalizing sc s w with
  | zero => exact ⟨rfl, related⟩
  | succ k ih =>
    have start : SameScan R ⟨sc, .new, s⟩ ⟨sc, .new, w⟩ := ⟨rfl, rfl, related⟩
    obtain ⟨outcome, after⟩ := sim.scan start
    rw [OneWire.scans, OneWire.scans]
    generalize Scan.scan B _ = r at *
    generalize Scan.scan B' _ = r' at *
    obtain ⟨o, x⟩ := r
    obtain ⟨o', x'⟩ := r'
    obtain rfl : o = o' := outcome
    obtain ⟨sc₁, buf, s₁⟩ := x
    obtain ⟨sc₁', buf', w₁⟩ := x'
    obtain ⟨scanner, same_buf, related'⟩ := after
    dsimp only at scanner same_buf related'
    subst scanner same_buf
    cases o with
    | ret code =>
      obtain ⟨found, left⟩ := ih sc₁ related'
      exact ⟨congrArg _ found, left⟩
    | fault f => exact ⟨rfl, related'⟩

end Simulation

/-! ## Scanning -/

namespace Wire

/-- The devices send a bit next, or its complement. -/
def Sends (w : Wire) : Prop := (∃ n, w.phase = .bit n) ∨ ∃ n, w.phase = .complement n

/-- The devices are told a bit of the command next, or the side of a bit. -/
def Hears (w : Wire) : Prop := (∃ bits, w.phase = .command bits) ∨ ∃ n, w.phase = .select n

end Wire

/-- A bus that answers like one with devices to what these expect. -/
abbrev Attached (B : Bus β) (sets : Nat → Finset RomCode) (R : β → Wire → Prop) : Prop :=
  Simulation B (wiredAnd sets) R Wire.Sends Wire.Hears

namespace Attached
variable {sets : Nat → Finset RomCode} {R : β → Wire → Prop} (sim : Attached B sets R) {s : β} {w : Wire}
include sim

/-- A command, bit by bit. -/
theorem writeCommand (n : Nat) (byte : BitVec 8) (bits : List Bool) (due : bits.length + n = 8)
    (phase : w.phase = .command bits)
    (related : R s w) : Alike R (B.writeBits n byte s) ((wiredAnd sets).writeBits n byte w) := by
  induction n generalizing byte bits s w with
  | zero => exact ⟨rfl, related⟩
  | succ n ih =>
    apply (sim.writeBit (byte.getLsbD 0) related (.inl ⟨bits, phase⟩)).bind
    intro related'
    by_cases last : bits.length < 7
    · have next : ((wiredAnd sets).writeBit (byte.getLsbD 0) w).2.phase = .command (bits ++ [byte.getLsbD 0]) := by
        simp [wiredAnd, Wire.writeBit, phase, last]
      exact ih (byte >>> 1) _ (by simp; omega) next related'
    · obtain rfl : n = 0 := by omega
      exact ⟨rfl, related'⟩

/-- Where the loop of a scan has come to. -/
structure Scanning (R : β → Wire → Prop) (n : Nat) (s : Scan β) (s' : Scan Wire) : Prop where
  scanner : s.scanner = s'.scanner
  buf : s.buf = s'.buf
  bus : R s.bus s'.bus
  phase : s'.bus.phase = phaseAt n

/-- The same outcome, scanner and buffer. -/
structure Returns (R : β → Wire → Prop) (r : Outcome × Scan β) (r' : Outcome × Scan Wire) : Prop where
  outcome : r.1 = r'.1
  scanner : r.2.scanner = r'.2.scanner
  buf : r.2.buf = r'.2.buf
  bus : R r.2.bus r'.2.bus

theorem putBit {n : Nat} {bit : Bool} {sc : RomCodeScanner} {buf : RomCode} (select : w.phase = .select n)
    (related : R s w) :
    (∃ s₁ w₁, Scan.putBit B n bit ⟨sc, buf, s⟩ = (none, s₁) ∧
      Scan.putBit (wiredAnd sets) n bit ⟨sc, buf, w⟩ = (none, w₁) ∧
        Scanning R (n + 1) s₁ w₁) := by
  obtain ⟨same, related'⟩ := sim.writeBit bit related (.inr ⟨n, select⟩)
  have wire : (wiredAnd sets).writeBit bit w = (.ok, { w with
      selected := w.selected.filter (fun d => d.bit n = bit), phase := phaseAt (n + 1) }) := by
    simp [wiredAnd, Wire.writeBit, select, phaseAt]
  rw [wire] at same related'
  rcases slot : B.writeBit bit s with ⟨code, s'⟩
  rw [slot] at same related'
  obtain rfl : code = .ok := same
  refine ⟨⟨sc, buf.assign n bit, s'⟩, ⟨sc, buf.assign n bit, _⟩, ?_, ?_, rfl, rfl, related', rfl⟩
  · simp only [Scan.putBit, slot]
  · simp only [Scan.putBit, wire]

/-- A bit that the devices send. -/
theorem readSent {bit : Bool} {w' : Wire} (sends : w.Sends) (answer : (wiredAnd sets).readBit w = ((.ok, bit), w'))
    (related : R s w) : ∃ s', B.readBit s = ((.ok, bit), s') ∧ R s' w' := by
  obtain ⟨same, related'⟩ := sim.readBit related sends
  rw [answer] at same related'
  exact ⟨_, Prod.ext same rfl, related'⟩

/-- A bit of a scan. -/
theorem scanBit {n : Nat} (inside : n < RomCode.width) {s : Scan β} {s' : Scan Wire} (h : Scanning R n s s') :
    (∃ s₁ s₁', Scan.scanBit B n s = (none, s₁) ∧ Scan.scanBit (wiredAnd sets) n s' = (none, s₁') ∧
      Scanning R (n + 1) s₁ s₁') ∨
      ∃ o s₁ s₁', Scan.scanBit B n s = (some o, s₁) ∧ Scan.scanBit (wiredAnd sets) n s' = (some o, s₁') ∧
        Returns R (o, s₁) (o, s₁') := by
  obtain ⟨sc, buf, bus⟩ := s
  obtain ⟨sc', buf', w⟩ := s'
  obtain ⟨scanner, same_buf, related, phase⟩ := h
  dsimp only at scanner same_buf related phase
  subst scanner same_buf
  rw [phaseAt, if_pos inside] at phase
  let bit1 := decide (∀ d ∈ w.selected, d.bit n = true)
  let bit2 := decide (∀ d ∈ w.selected, d.bit n = false)
  have first : (wiredAnd sets).readBit w = ((.ok, bit1), { w with phase := .complement n }) := by
    simp only [wiredAnd, Wire.readBit, phase, bit1]
  have second : (wiredAnd sets).readBit { w with phase := .complement n } =
    ((.ok, bit2), { w with phase := .select n }) := by
    simp only [wiredAnd, Wire.readBit, bit2]
  obtain ⟨bus₁, read1, related₁⟩ := sim.readSent (.inl ⟨n, phase⟩) first related
  obtain ⟨bus₂, read2, related₂⟩ := sim.readSent (.inr ⟨n, rfl⟩) second related₁
  simp only [Scan.scanBit, first, second, read1, read2]
  cases bit1 && bit2 with
  | true => exact Or.inr ⟨_, _, _, rfl, rfl, rfl, rfl, rfl, related₂⟩
  | false =>
    cases !bit1 && !bit2 with
    | false => exact Or.inl (sim.putBit rfl related₂)
    | true =>
      cases sc.handleDiscrepancy buf n with
      | error f => exact Or.inr ⟨_, _, _, rfl, rfl, rfl, rfl, rfl, related₂⟩
      | ok handled => exact Or.inl (sim.putBit rfl related₂)

theorem scanBits (k n : Nat) (due : n + k = RomCode.width) {s : Scan β} {s' : Scan Wire} (h : Scanning R n s s') :
    Returns R (Scan.scanBits B n k s) (Scan.scanBits (wiredAnd sets) n k s') := by
  induction k generalizing n s s' with
  | zero => exact ⟨rfl, h.scanner, h.buf, h.bus⟩
  | succ k ih =>
    rw [Scan.scanBits, Scan.scanBits]
    rcases sim.scanBit (by omega) h with ⟨s₁, s₁', step, step', next⟩ | ⟨o, s₁, s₁', step, step', returns⟩
    · rw [step, step']
      exact ih (n + 1) (by omega) next
    · rw [step, step']
      exact returns

theorem scan (sc : RomCodeScanner) (buf : RomCode) (related : R s w) :
    Returns R (Scan.scan B ⟨sc, buf, s⟩) (Scan.scan (wiredAnd sets) ⟨sc, buf, w⟩) := by
  rw [Scan.scan, Scan.scan]
  by_cases finished : sc.finished = true
  · simp only [finished, if_true]
    exact ⟨rfl, rfl, rfl, related⟩
  simp only [finished, Bool.false_eq_true, if_false]
  obtain ⟨same, related₁⟩ := sim.reset related
  rcases reset : B.reset s with ⟨code, s₁⟩
  rw [reset] at same related₁
  obtain rfl : code = (if (sets w.session).Nonempty then .ok else .error) := same
  by_cases present : (sets w.session).Nonempty
  · have wire : (wiredAnd sets).reset w = (.ok, ⟨w.session + 1, sets w.session, .command []⟩) := by
      simp [wiredAnd, Wire.reset, present]
    rw [wire] at related₁
    obtain ⟨same₂, related₂⟩ := sim.writeCommand 8 0xF0 [] rfl rfl related₁
    rcases command : B.writeByte 0xF0 s₁ with ⟨code, s₂⟩
    have search := wiredAnd_search sets (w.session + 1) (sets w.session)
    rw [Bus.writeByte] at command search
    rw [command, search] at same₂ related₂
    obtain rfl : code = .ok := same₂
    have start : Scanning R 0 ⟨sc, buf, s₂⟩ ⟨sc, buf, ⟨w.session + 1, sets w.session, .bit 0⟩⟩ :=
      ⟨rfl, rfl, related₂, rfl⟩
    have loop := sim.scanBits RomCode.width 0 (Nat.zero_add _) start
    simp only [if_pos present, wire, Bus.writeByte, command, search]
    generalize Scan.scanBits B 0 RomCode.width ⟨sc, buf, s₂⟩ = r at *
    generalize Scan.scanBits (wiredAnd sets) 0 RomCode.width ⟨sc, buf, _⟩ = r' at *
    obtain ⟨o, ⟨sc₁, buf₁, b₁⟩⟩ := r
    obtain ⟨o', ⟨sc₂, buf₂, w₁⟩⟩ := r'
    obtain ⟨outcome, scanner, bufs, related₃⟩ := loop
    dsimp only at outcome scanner bufs related₃
    subst outcome scanner bufs
    have same : Returns R (o, ⟨sc₁, buf₁, b₁⟩) (o, ⟨sc₁, buf₁, w₁⟩) := ⟨rfl, rfl, rfl, related₃⟩
    cases o with
    | fault f => exact same
    | ret code =>
      by_cases ok : code = .ok
      · subst ok
        dsimp only
        by_cases valid : buf₁.valid = true
        · rw [if_pos valid, if_pos valid]
          by_cases last : sc₁.conflictCount = 0
          · rw [if_pos last, if_pos last]
            exact ⟨rfl, rfl, rfl, related₃⟩
          · rw [if_neg last, if_neg last]
            exact ⟨rfl, rfl, rfl, related₃⟩
        · rw [if_neg valid, if_neg valid]
          exact ⟨rfl, rfl, rfl, related₃⟩
      · cases code <;> first | exact absurd rfl ok | exact same
  · have wire : (wiredAnd sets).reset w = (.error, ⟨w.session + 1, sets w.session, .command []⟩) := by
      simp [wiredAnd, Wire.reset, present]
    simp only [if_neg present, wire]
    rw [wire] at related₁
    exact ⟨rfl, rfl, rfl, related₁⟩

/-- **The calls of a scanner.** -/
theorem scans (k : Nat) (sc : RomCodeScanner) (related : R s w) :
    Alike R (scans B k sc s) (scans (wiredAnd sets) k sc w) := by
  induction k generalizing sc s w with
  | zero => exact ⟨rfl, related⟩
  | succ k ih =>
    obtain ⟨outcome, scanner, buf, related'⟩ := sim.scan sc .new related
    rw [OneWire.scans, OneWire.scans]
    generalize Scan.scan B ⟨sc, .new, s⟩ = r at *
    generalize Scan.scan (wiredAnd sets) ⟨sc, .new, w⟩ = r' at *
    obtain ⟨o, ⟨sc₁, buf₁, s₁⟩⟩ := r
    obtain ⟨o', ⟨sc₂, buf₂, w₁⟩⟩ := r'
    dsimp only at outcome scanner buf related'
    subst outcome scanner buf
    cases o with
    | fault f => exact ⟨rfl, related'⟩
    | ret code =>
      obtain ⟨found, left⟩ := ih sc₁ related'
      exact ⟨congrArg _ found, left⟩

theorem scanCalls_eq (k : Nat) (sc : RomCodeScanner) (related : R s w) :
    scanCalls B k sc s = scanCalls (wiredAnd sets) k sc w := by
  rw [← scans_results, ← scans_results]
  exact (sim.scans k sc related).1

end Attached

end OcsComponents.OneWire
