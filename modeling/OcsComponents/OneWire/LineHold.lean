import Mathlib.Data.List.Chain
import OcsComponents.Lib.Transition
import OcsComponents.OneWire.Bus

/-!
# Holding the line

`ocs_onewire/bus.cpp` down to the calls on the pin and the delayer, each of which may fail.
Every slot begins by driving the line low for a while: `turn_off()`, a delay, `turn_on()`.
All calls return early, also the delay between the two, and an operation that ends there
leaves the line low. It is the only way to leave it so (`released_iff`): any other call is
made before the line is held, or after an attempt to release it.
-/

namespace OcsComponents.OneWire
open Status Transition

/-- `IGpio::Direction` -/
inductive Direction where
  | output
  | input
  deriving DecidableEq

/-- The calls that can fail. -/
inductive PinCall where
  | setDirection (direction : Direction)
  | turnOn
  | turnOff
  | delay (interval : Int)
  deriving DecidableEq

/-- A call and the status it returned. -/
structure Access where
  call : PinCall
  status : StatusCode
  deriving DecidableEq

/-- `IGpio` and `IDelayer`, by what they answer after the calls so far. -/
structure Pins where
  answer : List Access → PinCall → StatusCode
  level : List Access → BitVec 32

/-- `Bus::Params` -/
structure BusParams where
  resetPulseInterval : Int
  presencePulseInterval : Int
  writeSlotInterval : Int
  writeBitInterval : Int
  writeRecoveryInterval : Int
  readSlotInterval : Int
  readBitInitInterval : Int
  readBitRcInterval : Int
  readRecoveryInterval : Int

namespace BusParams

def resetRemainTimeSlot (p : BusParams) : Int := p.resetPulseInterval - p.presencePulseInterval

def writeRemainTimeSlot (p : BusParams) : Int := p.writeSlotInterval - p.writeBitInterval

def readRemainTimeSlot (p : BusParams) : Int := p.readSlotInterval - p.readBitInitInterval - p.readBitRcInterval

end BusParams

namespace Pins
variable (P : Pins) (p : BusParams)

/-- `OCS_STATUS_RETURN_ON_ERROR(call)`, call after call. -/
def calls : List PinCall → List Access → StatusCode × List Access
  | [], log => (.ok, log)
  | c :: cs, log => returnOnError (P.answer log c, log ++ [⟨c, P.answer log c⟩]) (calls cs)

/-- `Bus::reset` -/
def reset (log : List Access) : StatusCode × List Access :=
  let start := P.calls [.setDirection .output, .turnOff, .delay p.resetPulseInterval, .turnOn,
    .delay p.presencePulseInterval, .setDirection .input] log
  returnOnError start fun log =>
    let level := P.level log
    returnOnError (P.calls [.delay p.resetRemainTimeSlot] log) fun log => (if level = 0 then .ok else .error, log)

/-- `Bus::write_bit_one_` -/
def writeBitOne : List Access → StatusCode × List Access :=
  P.calls [.setDirection .output, .turnOff, .delay p.writeBitInterval, .turnOn, .delay p.writeRemainTimeSlot,
    .delay p.writeRecoveryInterval]

/-- `Bus::write_bit_zero_` -/
def writeBitZero : List Access → StatusCode × List Access :=
  P.calls [.setDirection .output, .turnOff, .delay p.writeSlotInterval, .turnOn, .delay p.writeRecoveryInterval]

/-- `Bus::write_bit` -/
def writeBit (bit : Bool) : List Access → StatusCode × List Access :=
  if bit then P.writeBitOne p else P.writeBitZero p

/-- `Bus::read_bit`. Up to the call of `get()` the bit is as `read_byte` has set it. -/
def readBit (log : List Access) : (StatusCode × Bool) × List Access :=
  let start := P.calls [.setDirection .output, .turnOff, .delay p.readBitInitInterval, .turnOn,
    .delay p.readBitRcInterval, .setDirection .input] log
  if start.1 = .ok then
    let bit := (P.level start.2).setWidth 8 != 0#8
    let rest := P.calls [.delay p.readRemainTimeSlot, .delay p.readRecoveryInterval] start.2
    ((rest.1, bit), rest.2)
  else ((start.1, false), start.2)

/-- `Bus` over the pin and the delayer. -/
def bus : Bus (List Access) where
  reset := P.reset p
  writeBit := P.writeBit p
  readBit := P.readBit p

end Pins

/-- The operations of `Bus`, with their arguments. A buffer may be `nullptr`. -/
inductive Operation where
  | reset
  | writeBit (bit : Bool)
  | readBit
  | writeByte (byte : BitVec 8)
  | readByte (byte : BitVec 8)
  | writeBytes (buf : Option (List (BitVec 8)))
  | readBytes {size : Nat} (buf : Option (Vector (BitVec 8) size))

namespace Operation

/-- The status an operation returns, and the calls so far. -/
def exec (B : Bus (List Access)) (log : List Access) : Operation → StatusCode × List Access
  | reset => B.reset log
  | writeBit bit => B.writeBit bit log
  | readBit => ((B.readBit log).1.1, (B.readBit log).2)
  | writeByte byte => B.writeByte byte log
  | readByte byte => ((B.readByte byte log).1, (B.readByte byte log).2.2)
  | writeBytes none => (.invalidArg, log)
  | writeBytes (some buf) => B.writeBytes buf log
  | readBytes none => (.invalidArg, log)
  | readBytes (some buf) => ((B.readBytes buf log).1, (B.readBytes buf log).2.2)

end Operation

/-! ## The line -/

/-- The line is driven low. -/
def Access.Holds (a : Access) : Prop := a = ⟨.turnOff, .ok⟩

theorem Access.not_holds {a : Access} (other : a.call ≠ .turnOff) : ¬ a.Holds := by
  rintro rfl
  exact other rfl

/-- An attempt to release the line. -/
def Access.Releases (a : Access) : Prop := a.call = .turnOn ∨ a.call = .setDirection .input

/-- After the last call that drove the line low there is an attempt to release it. -/
def Released (log : List Access) : Prop :=
  ∀ before a after, LastAt Access.Holds log before a after → ∃ a' ∈ after, a'.Releases

/-- No delay made directly after the line was driven low fails. -/
def HeldThrough (log : List Access) : Prop :=
  log.IsChain fun a a' => a.Holds → ∀ interval, a'.call = .delay interval → a'.status = .ok

/-- The calls so far have left the line alone. -/
structure Idle (log : List Access) : Prop where
  released : Released log
  held : HeldThrough log

theorem idle_nil : Idle [] where
  released := by
    rintro before a after ⟨cut, -, -⟩
    simp at cut
  held := List.IsChain.nil

theorem Idle.last {log : List Access} (h : Idle log) : ∀ a ∈ log.getLast?, ¬ a.Holds := by
  intro a last holds
  obtain ⟨before, rfl⟩ := List.getLast?_eq_some_iff.mp last
  obtain ⟨_, none, _⟩ := h.released before a [] (.now holds)
  cases none

/-- Any call that does not drive the line low leaves it alone. -/
theorem Idle.call {log : List Access} (h : Idle log) {a : Access} (other : ¬ a.Holds) : Idle (log ++ [a]) where
  released := by
    rintro before a' after ⟨cut, here, last⟩
    rcases concat_eq_cut.mp cut with ⟨rfl, rfl, rfl⟩ | ⟨after', rfl, rfl⟩
    · exact absurd here other
    · obtain ⟨a'', member, releases⟩ := h.released before a' after' ⟨rfl, here, fun l m => last l (by simp [m])⟩
      exact ⟨a'', by simp [member], releases⟩
  held := by
    apply List.isChain_append.mpr
    refine ⟨h.held, List.IsChain.singleton _, ?_⟩
    intro x last _ _ holds
    exact absurd holds (h.last x last)

/-- The line held for a delay and released again. -/
theorem Idle.pulse {log : List Access} (h : Idle log) (interval : Int) (status : StatusCode) :
    Idle (log ++ [⟨.turnOff, .ok⟩, ⟨.delay interval, .ok⟩, ⟨.turnOn, status⟩]) where
  released := by
    intro before a after last
    have held : LastAt Access.Holds (log ++ [⟨.turnOff, .ok⟩] ++ [⟨.delay interval, .ok⟩] ++ [⟨.turnOn, status⟩]) log
        ⟨.turnOff, .ok⟩ ([] ++ [⟨.delay interval, .ok⟩] ++ [⟨.turnOn, status⟩]) :=
      .concat (.concat (.now rfl) (Access.not_holds nofun)) (Access.not_holds nofun)
    rw [List.append_assoc, List.append_assoc] at held
    obtain ⟨-, -, rfl⟩ := last.unique held
    exact ⟨⟨.turnOn, status⟩, by simp, .inl rfl⟩
  held := by
    apply List.isChain_append.mpr
    refine ⟨h.held, ?_, ?_⟩
    · simp [Access.Holds]
    · intro x last _ _ holds
      exact absurd holds (h.last x last)

/-- The line is low and stays so: the delay has failed. -/
structure Stuck (log : List Access) : Prop where
  low : ¬ Released log
  cut : ¬ HeldThrough log

theorem stuck_delay (log : List Access) (interval : Int) {status : StatusCode} (failed : status ≠ .ok) :
    Stuck (log ++ [⟨.turnOff, .ok⟩, ⟨.delay interval, status⟩]) where
  low := by
    intro released
    have last : LastAt Access.Holds (log ++ [⟨.turnOff, .ok⟩] ++ [⟨.delay interval, status⟩]) log ⟨.turnOff, .ok⟩
        ([] ++ [⟨.delay interval, status⟩]) := .concat (.now rfl) (Access.not_holds nofun)
    rw [List.append_assoc] at last
    obtain ⟨a, member, releases⟩ := released _ _ _ last
    cases List.mem_singleton.mp member
    rcases releases with none | none <;> cases none
  cut := by
    intro held
    obtain ⟨-, pair, -⟩ := List.isChain_append.mp held
    have ok := (List.isChain_cons_cons.mp pair).1 rfl interval rfl
    exact failed ok

/-! ## Every operation -/

/-- A call that left the line alone, or failed while it held it. -/
def Ends (r : StatusCode × List Access) : Prop := Idle r.2 ∨ r.1 ≠ .ok ∧ Stuck r.2

/-- Where two calls end so, one after the other does. The state may hold more than the calls so far. -/
theorem Ends.bind {σ : Type} (logOf : σ → List Access) {r : StatusCode × σ} {k : σ → StatusCode × σ}
    (h : Ends (r.1, logOf r.2)) (next : ∀ s, Idle (logOf s) → Ends ((k s).1, logOf (k s).2)) :
    Ends ((returnOnError r k).1, logOf (returnOnError r k).2) := by
  obtain ⟨code, s⟩ := r
  by_cases ok : code = .ok
  · subst ok
    rcases h with idle | ⟨failed, -⟩
    · exact next s idle
    · exact absurd rfl failed
  · rwa [returnOnError_fail _ _ ok]

/-- Where the line was left alone, it is released, and no delay has failed while it was held; else neither. -/
theorem Ends.both_or_neither {r : StatusCode × List Access} (h : Ends r) : Released r.2 ↔ HeldThrough r.2 := by
  rcases h with idle | ⟨-, stuck⟩
  · exact iff_of_true idle.released idle.held
  · exact iff_of_false stuck.low stuck.cut

namespace Pins
variable (P : Pins) (p : BusParams)

theorem calls_append (cs cs' : List PinCall) (log : List Access) :
    P.calls (cs ++ cs') log = returnOnError (P.calls cs log) (P.calls cs') := by
  induction cs generalizing log with
  | nil => rfl
  | cons c cs ih =>
    rw [List.cons_append, calls, calls]
    by_cases ok : P.answer log c = .ok
    · rw [ok, returnOnError_ok, returnOnError_ok, ih]
    · rw [returnOnError_fail _ _ ok, returnOnError_fail _ _ ok, returnOnError_fail _ _ ok]

/-- Calls that do not drive the line low. -/
theorem calls_idle {cs : List PinCall} (other : ∀ c ∈ cs, c ≠ .turnOff) {log : List Access} (h : Idle log) :
    Idle (P.calls cs log).2 := by
  induction cs generalizing log with
  | nil => exact h
  | cons c cs ih =>
    obtain ⟨here, rest⟩ := List.forall_mem_cons.mp other
    have called : Idle (log ++ [⟨c, P.answer log c⟩]) := h.call (Access.not_holds here)
    rw [calls]
    unfold returnOnError
    split
    · exact ih rest called
    · exact called

theorem calls_single (c : PinCall) (log : List Access) : (P.calls [c] log).2 = log ++ [⟨c, P.answer log c⟩] := by
  unfold calls returnOnError
  split <;> rfl

/-- **The beginning of every slot**: only its delay can leave the line low. -/
theorem hold_ends {log : List Access} (h : Idle log) (interval : Int) :
    Ends (P.calls [.turnOff, .delay interval, .turnOn] log) := by
  by_cases held : P.answer log .turnOff = .ok
  · rw [calls, held, returnOnError_ok, calls]
    by_cases waited : P.answer (log ++ [⟨.turnOff, .ok⟩]) (.delay interval) = .ok
    · rw [waited, returnOnError_ok]
      left
      rw [calls_single, List.append_assoc, List.append_assoc]
      exact h.pulse interval _
    · rw [returnOnError_fail _ _ waited, List.append_assoc]
      exact .inr ⟨waited, stuck_delay log interval waited⟩
  · rw [calls, returnOnError_fail _ _ held]
    left
    apply h.call
    intro holds
    exact held (congrArg Access.status holds)

/-- **A slot**: the line is set to output and held, and the calls after that leave it alone. -/
theorem slot_ends (interval : Int) {rest : List PinCall} (other : ∀ c ∈ rest, c ≠ .turnOff) {log : List Access}
    (h : Idle log) : Ends (P.calls (.setDirection .output :: .turnOff :: .delay interval :: .turnOn :: rest) log) := by
  have cut : PinCall.setDirection .output :: .turnOff :: .delay interval :: .turnOn :: rest =
      [.setDirection .output] ++ ([.turnOff, .delay interval, .turnOn] ++ rest) := rfl
  have output : Ends (P.calls [.setDirection .output] log) := .inl (P.calls_idle (by simp) h)
  rw [cut, calls_append]
  apply output.bind id
  intro log h
  rw [calls_append]
  apply (P.hold_ends h interval).bind id
  intro log h
  exact .inl (P.calls_idle other h)

theorem reset_ends {log : List Access} (h : Idle log) : Ends (P.reset p log) := by
  unfold reset
  apply (P.slot_ends p.resetPulseInterval (by simp) h).bind id
  intro log h
  have wait : Ends (P.calls [.delay p.resetRemainTimeSlot] log) := .inl (P.calls_idle (by simp) h)
  apply wait.bind id
  intro log h
  exact .inl h

theorem writeBit_ends (bit : Bool) {log : List Access} (h : Idle log) : Ends (P.writeBit p bit log) := by
  unfold writeBit
  cases bit with
  | true => exact P.slot_ends p.writeBitInterval (by simp) h
  | false => exact P.slot_ends p.writeSlotInterval (by simp) h

theorem readBit_ends {log : List Access} (h : Idle log) : Ends ((P.readBit p log).1.1, (P.readBit p log).2) := by
  have other : ∀ c ∈ [PinCall.delay p.readBitRcInterval, .setDirection .input], c ≠ .turnOff := by simp
  have start := P.slot_ends p.readBitInitInterval other h
  unfold readBit
  dsimp only
  split
  · next ok =>
    rcases start with idle | ⟨failed, -⟩
    · exact .inl (P.calls_idle (by simp) idle)
    · exact absurd ok failed
  · exact start

/-! ### The loops over bits and bytes -/

theorem writeBits_ends (n : Nat) (byte : BitVec 8) {log : List Access} (h : Idle log) :
    Ends ((P.bus p).writeBits n byte log) := by
  induction n generalizing byte log with
  | zero => exact .inl h
  | succ n ih =>
    apply (P.writeBit_ends p (byte.getLsbD 0) h).bind id
    intro log h
    exact ih (byte >>> 1) h

theorem writeList_ends (bs : List (BitVec 8)) {log : List Access} (h : Idle log) :
    Ends ((P.bus p).writeList bs log) := by
  induction bs generalizing log with
  | nil => exact .inl h
  | cons b bs ih =>
    apply (P.writeBits_ends p 8 b h).bind id
    intro log h
    exact ih h

theorem readBits_ends (n : Nat) (byte : BitVec 8) {log : List Access} (h : Idle log) :
    Ends (((P.bus p).readBits n byte log).1, ((P.bus p).readBits n byte log).2.2) := by
  induction n generalizing byte log with
  | zero => exact .inl h
  | succ n ih =>
    have slot := P.readBit_ends p h
    exact Ends.bind (r := (_, byte, _)) Prod.snd slot fun s h => ih _ h

theorem readLast_ends {size : Nat} (n : Nat) (buf : Vector (BitVec 8) size) {log : List Access} (h : Idle log) :
    Ends (((P.bus p).readLast n buf log).1, ((P.bus p).readLast n buf log).2.2) := by
  induction n generalizing buf log with
  | zero => exact .inl h
  | succ n ih =>
    let i := size - (n + 1)
    have byte := P.readBits_ends p 8 (buf[i]?.getD 0) h
    exact Ends.bind (r := (_, buf.setIfInBounds i _, _)) Prod.snd byte fun s h => ih s.1 h

theorem writeBytes_ends (buf : List (BitVec 8)) {log : List Access} (h : Idle log) :
    Ends ((P.bus p).writeBytes buf log) := by
  unfold Bus.writeBytes
  split
  · exact .inl h
  · exact P.writeList_ends p buf h

theorem readBytes_ends {size : Nat} (buf : Vector (BitVec 8) size) {log : List Access} (h : Idle log) :
    Ends (((P.bus p).readBytes buf log).1, ((P.bus p).readBytes buf log).2.2) := by
  unfold Bus.readBytes
  split
  · exact .inl h
  · exact P.readLast_ends p size buf h

/-- **Every operation** leaves the line alone or fails while it holds it. -/
theorem exec_ends (op : Operation) {log : List Access} (h : Idle log) : Ends (op.exec (P.bus p) log) := by
  cases op with
  | reset => exact P.reset_ends p h
  | writeBit bit => exact P.writeBit_ends p bit h
  | readBit => exact P.readBit_ends p h
  | writeByte byte => exact P.writeBits_ends p 8 byte h
  | readByte byte => exact P.readBits_ends p 8 byte h
  | writeBytes buf =>
    cases buf with
    | none => exact .inl h
    | some buf => exact P.writeBytes_ends p buf h
  | readBytes buf =>
    cases buf with
    | none => exact .inl h
    | some buf => exact P.readBytes_ends p buf h

/-- **The line is released** when an operation returns, exactly where every delay made while
it is held comes through. -/
theorem released_iff (op : Operation) : Released (op.exec (P.bus p) []).2 ↔ HeldThrough (op.exec (P.bus p) []).2 :=
  (P.exec_ends p op idle_nil).both_or_neither

/-- No delay comes through. -/
def brokenDelayer : Pins where
  answer _ c := match c with
    | .delay _ => .error
    | _ => .ok
  level _ := 1

/-- The reset pulse never ends. -/
theorem reset_leaves_low :
    ¬ Released (Operation.reset.exec (brokenDelayer.bus ⟨480, 70, 70, 6, 1, 70, 6, 9, 1⟩) []).2 :=
  (stuck_delay [⟨.setDirection .output, .ok⟩] 480 (by decide)).low

end Pins

end OcsComponents.OneWire
