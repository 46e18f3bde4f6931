import OcsComponents.Storage.Storage
import OcsComponents.Lib.Transition

/-!
# Persistent counters

`ocs_diagnostic/basic_persistent_counter.{h,cpp}` and its two kinds, the accumulating
counter and the one that forgets at a power cut. A counter object lives for one session; what
it wraps starts afresh with it. `exec` runs the sessions of one counter over a storage whose
operations may fail.
-/

namespace OcsComponents.Diagnostic
open Status Transition OcsComponents.Storage

/-- `ICounter::Value`. -/
abbrev Value := BitVec 64

/-- `BasicPersistentCounter`, with the id of the counter that it wraps. -/
structure BasicPersistentCounter where
  id : String
  value : Value

/-- The constructor: `value_` is 0 without a record, and also when the read fails, which is only logged. -/
def BasicPersistentCounter.new (st : Storage Value) (readFault : Option StorageFault) (id : String) :
    BasicPersistentCounter :=
  ⟨id, (st.read readFault id 0).2⟩

/-- `AccPersistentCounter::get`, for the value of the wrapped counter. -/
def AccPersistentCounter.get (c : BasicPersistentCounter) (counter : Value) : Value := c.value + counter

/-- `MemPersistentCounter::MemPersistentCounter`: what was read is erased. -/
def MemPersistentCounter.new (st : Storage Value) (readFault eraseFault : Option StorageFault) (id : String) :
    BasicPersistentCounter × Storage Value :=
  let c := BasicPersistentCounter.new st readFault id
  (c, (st.erase eraseFault c.id).2)

/-- `MemPersistentCounter::get`. -/
def MemPersistentCounter.get (c : BasicPersistentCounter) (counter : Value) : Value := c.value + counter

/-- The kinds of a persistent counter. -/
inductive Kind where
  | acc
  | mem
  deriving DecidableEq, Repr

namespace Kind

/-- `get()`, which is virtual. -/
def get : Kind → BasicPersistentCounter → Value → Value
  | .acc => AccPersistentCounter.get
  | .mem => MemPersistentCounter.get

/-- The constructor of the kind. -/
def new : Kind → Storage Value → Option StorageFault → Option StorageFault → String →
    BasicPersistentCounter × Storage Value
  | .acc, st, readFault, _, id => (.new st readFault id, st)
  | .mem, st, readFault, eraseFault, id => MemPersistentCounter.new st readFault eraseFault id

/-- `save_`. -/
def save (k : Kind) (c : BasicPersistentCounter) (counter : Value) (st : Storage Value) (fault : Option StorageFault) :
    StatusCode × Storage Value :=
  st.write fault c.id (k.get c counter)

/-- `run`. -/
def run (k : Kind) (c : BasicPersistentCounter) (counter : Value) (st : Storage Value) (fault : Option StorageFault) :
    StatusCode × Storage Value :=
  k.save c counter st fault

/-- `handle_reboot`: the status is only logged. -/
def handleReboot (k : Kind) (c : BasicPersistentCounter) (counter : Value) (st : Storage Value)
    (fault : Option StorageFault) : Storage Value :=
  (k.save c counter st fault).2

theorem get_eq (k : Kind) (c : BasicPersistentCounter) (counter : Value) : k.get c counter = c.value + counter := by
  cases k <;> rfl

end Kind

/-- A session: the object, the wrapped counter's value, and whether the object could not read its record. -/
structure Session where
  object : BasicPersistentCounter
  counter : Value
  unread : Bool

/-- The storage, and the session when there is one. -/
structure Device where
  storage : Storage Value
  session : Option Session

/-- What happens to a counter, with the faults of the storage. -/
inductive Label where
  | boot (counter : Value) (readFault eraseFault : Option StorageFault)
  | count (counter : Value)
  | run (fault : Option StorageFault)
  | handleReboot (fault : Option StorageFault)
  | powerCut

namespace Device

/-- Before the first session. -/
def off (st : Storage Value) : Device := ⟨st, none⟩

/-- One event in the life of the counter `id`. A reboot and a power cut end the session. -/
def exec (k : Kind) (id : String) (d : Device) : Label → Option Device
  | .boot counter readFault eraseFault =>
    match d.session with
    | some _ => none
    | none =>
      let (object, st) := k.new d.storage readFault eraseFault id
      some ⟨st, some ⟨object, counter, readFault.isSome⟩⟩
  | .count counter => d.session.map fun s => { d with session := some { s with counter := counter } }
  | .run fault => d.session.map fun s => { d with storage := (k.run s.object s.counter d.storage fault).2 }
  | .handleReboot fault => d.session.map fun s => ⟨k.handleReboot s.object s.counter d.storage fault, none⟩
  | .powerCut => d.session.map fun _ => { d with session := none }

abbrev Step (k : Kind) (id : String) (d : Device) (l : Label) (d' : Device) : Prop := d.exec k id l = some d'

theorem step_functional (k : Kind) (id : String) (d : Device) (l : Label) (d' d'' : Device) (h : Step k id d l d')
    (h' : Step k id d l d'') : d' = d'' :=
  Option.some.inj (h.symm.trans h')

/-- An object is constructed between two sessions only. -/
theorem boots {k : Kind} {id : String} {d d' : Device} {counter : Value} {readFault eraseFault : Option StorageFault}
    (h : Step k id d (.boot counter readFault eraseFault) d') :
    d.session = none ∧
      d' = ⟨(k.new d.storage readFault eraseFault id).2,
        some ⟨(k.new d.storage readFault eraseFault id).1, counter, readFault.isSome⟩⟩ := by
  cases off : d.session with
  | some s => simp [Step, exec, off] at h
  | none =>
    simp only [Step, exec, off, Option.some.injEq] at h
    exact ⟨rfl, h.symm⟩

end Device

end OcsComponents.Diagnostic
