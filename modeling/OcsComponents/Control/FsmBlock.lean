import Mathlib.Data.List.TakeWhile
import OcsComponents.Status.Code
import OcsComponents.Lib.KeyedRecord

/-!
# The FSM block

`ocs_control/fsm_block.{h,cpp}`: the previous, the current and the next state of a machine,
the time spent in the first two, and the record of them kept in a storage under five keys.
A member function gets what it reads from outside as arguments: the clock's reading, and the
status the storage answers with, key by key. A storage that fails a write leaves the key as
it was, one that fails a read leaves the variable as it was.
-/

namespace OcsComponents.Control
open Status KeyedRecord

/-- `FsmBlock::State` -/
abbrev State := BitVec 16

/-- `core::Time`, an `int64_t` in microseconds. Sums of durations and of readings are exact here: below 2^63 microseconds,
some 292000 years, they fit. -/
abbrev Time := Int

/-- The keys of the record. -/
inductive Key where
  | writeCount
  | prevState
  | prevStateDur
  | currState
  | currStateDur
  deriving DecidableEq, Repr

namespace Key

/-- What is kept under a key. -/
abbrev Val : Key → Type
  | writeCount => BitVec 64
  | prevState => State
  | prevStateDur => Time
  | currState => State
  | currStateDur => Time

/-- The variables of a block with nothing restored. -/
def zero : (k : Key) → k.Val
  | writeCount => 0
  | prevState => 0
  | prevStateDur => 0
  | currState => 0
  | currStateDur => 0

/-- The keys in the order they are written and read in. -/
def order : List Key := [writeCount, prevState, prevStateDur, currState, currStateDur]

theorem order_nodup : order.Nodup := by decide

@[simp] theorem mem_order (k : Key) : k ∈ order := by cases k <;> decide

end Key

/-- The values `IStorage` holds for a block. -/
abbrev Storage := Cells Key.Val

/-- Every key answers `OK`. -/
def allOk : Key → StatusCode := fun _ => .ok

/-- `FsmBlock`, together with the contents of the storage it refers to. -/
structure FsmBlock where
  resolution : Time
  storage : Storage
  prevState : State
  currState : State
  nextState : State
  prevStateDur : Time
  currStateDur : Time
  writeCount : BitVec 64
  startTs : Time
  savedTs : Time

namespace FsmBlock

/-- The variable kept under a key. -/
def get (b : FsmBlock) : (k : Key) → k.Val
  | .writeCount => b.writeCount
  | .prevState => b.prevState
  | .prevStateDur => b.prevStateDur
  | .currState => b.currState
  | .currStateDur => b.currStateDur

def put (b : FsmBlock) : (k : Key) → k.Val → FsmBlock
  | .writeCount, v => { b with writeCount := v }
  | .prevState, v => { b with prevState := v }
  | .prevStateDur, v => { b with prevStateDur := v }
  | .currState, v => { b with currState := v }
  | .currStateDur, v => { b with currStateDur := v }

@[simp] theorem get_prevStateDur (b : FsmBlock) : b.get .prevStateDur = b.prevStateDur := rfl

@[simp] theorem get_currStateDur (b : FsmBlock) : b.get .currStateDur = b.currStateDur := rfl

@[simp] theorem get_put (b : FsmBlock) (k : Key) (v : k.Val) : (b.put k v).get k = v := by
  cases k <;> rfl

theorem get_put_ne (b : FsmBlock) {k k' : Key} (v : k.Val) (h : k' ≠ k) : (b.put k v).get k' = b.get k' := by
  cases k <;> cases k' <;> first | rfl | exact absurd rfl h

@[simp] theorem put_storage (b : FsmBlock) (k : Key) (v : k.Val) : (b.put k v).storage = b.storage := by
  cases k <;> rfl

/-- The block over other contents of its storage. -/
def withStorage (b : FsmBlock) (storage : Storage) : FsmBlock := { b with storage := storage }

@[simp] theorem withStorage_get (b : FsmBlock) (storage : Storage) : (b.withStorage storage).get = b.get := by
  funext k
  cases k <;> rfl

@[simp] theorem withStorage_storage (b : FsmBlock) (storage : Storage) : (b.withStorage storage).storage = storage := rfl

/-- `storage_.write(key, ..)` -/
def writeKey (io : Key → StatusCode) (k : Key) (b : FsmBlock) : StatusCode × FsmBlock :=
  match io k with
  | .ok => (.ok, b.withStorage (Function.update b.storage k (some (b.get k))))
  | code => (code, b)

/-- `storage_.read(key, ..)`: a key that was never written is `NoData`. -/
def readKey (io : Key → StatusCode) (k : Key) (b : FsmBlock) : StatusCode × FsmBlock :=
  match io k, b.storage k with
  | .ok, some v => (.ok, b.put k v)
  | .ok, none => (.noData, b)
  | code, _ => (code, b)

/-- `OCS_STATUS_RETURN_ON_ERROR(access(key))`, key after key. -/
def forKeys (access : Key → FsmBlock → StatusCode × FsmBlock) : List Key → FsmBlock → StatusCode × FsmBlock
  | [], b => (.ok, b)
  | k :: ks, b => returnOnError (access k b) (forKeys access ks)

/-- `++write_count_` -/
def counted (b : FsmBlock) : FsmBlock := { b with writeCount := b.writeCount + 1 }

/-- `write_` -/
def write_ (b : FsmBlock) (io : Key → StatusCode) : StatusCode × FsmBlock :=
  forKeys (writeKey io) Key.order b.counted

/-- `read_` -/
def read_ (b : FsmBlock) (io : Key → StatusCode) : StatusCode × FsmBlock :=
  forKeys (readKey io) Key.order b

/-- The variables before the constructor reads them. -/
def blank (resolution : Time) (storage : Storage) : FsmBlock := ⟨resolution, storage, 0, 0, 0, 0, 0, 0, 0, 0⟩

/-- The constructor, past its assertion that the resolution is not 0. Only a record that was
read to the end sets `saved_ts_`. -/
def new (resolution : Time) (storage : Storage) (io : Key → StatusCode) : FsmBlock :=
  let read := (blank resolution storage).read_ io
  if read.1 = .ok then { read.2 with savedTs := read.2.currStateDur } else read.2

/-- A block on an empty storage. -/
def firstBoot (resolution : Time) : FsmBlock := new resolution (fun _ => none) allOk

/-- `is_in_transit` -/
def isInTransit (b : FsmBlock) : Bool := b.nextState != 0 && b.currState != b.nextState

/-- `set_next` -/
def setNext (b : FsmBlock) (state : State) : FsmBlock := { b with nextState := state }

/-- `update`. The division of the source rounds towards zero. -/
def update (b : FsmBlock) (now : Time) : FsmBlock :=
  { b with currStateDur := b.savedTs + (now - b.startTs).tdiv b.resolution }

/-- `transit`, up to the call of `write_`. -/
def move (b : FsmBlock) (now : Time) : FsmBlock :=
  { b with
    prevState := b.currState
    prevStateDur := b.currStateDur
    currState := b.nextState
    currStateDur := 0
    nextState := 0
    startTs := now
    savedTs := 0 }

/-- `transit` -/
def transit (b : FsmBlock) (now : Time) (io : Key → StatusCode) : StatusCode × FsmBlock := (b.move now).write_ io

/-- `run` -/
def run (b : FsmBlock) (io : Key → StatusCode) : StatusCode × FsmBlock := b.write_ io

/-- `handle_reboot`: a failure is only logged. -/
def handleReboot (b : FsmBlock) (now : Time) (io : Key → StatusCode) : FsmBlock := ((b.update now).write_ io).2

/-! ## What is written -/

/-- The keys whose write came through: those before the first that failed. -/
def written (io : Key → StatusCode) (ks : List Key) : List Key := ks.takeWhile fun k => io k = .ok

theorem written_first (io : Key → StatusCode) (ks : List Key) : written io ks <+: ks := List.takeWhile_prefix _

theorem written_allOk (ks : List Key) : written allOk ks = ks :=
  List.takeWhile_eq_self_iff.mpr (by simp [allOk])

theorem writeKeys_eq (io : Key → StatusCode) (ks : List Key) (b : FsmBlock) :
    (forKeys (writeKey io) ks b).2 = b.withStorage (putAll b.get (written io ks) b.storage) := by
  induction ks generalizing b with
  | nil => rfl
  | cons k ks ih =>
    by_cases ok : io k = .ok
    · have step : writeKey io k b = (.ok, b.withStorage (Function.update b.storage k (some (b.get k)))) := by
        simp [writeKey, ok]
      rw [forKeys, step, returnOnError_ok, ih, withStorage_get, withStorage_storage]
      simp [written, ok, putAll, withStorage]
    · have step : writeKey io k b = (io k, b) := by
        unfold writeKey
        split
        · contradiction
        · rfl
      rw [forKeys, step, returnOnError_fail _ _ ok]
      simp [written, ok, putAll, withStorage]

/-- **`write_`** counts itself and puts the record under the keys it gets to. -/
theorem write_eq (b : FsmBlock) (io : Key → StatusCode) :
    (b.write_ io).2 = b.counted.withStorage (putAll b.counted.get (written io Key.order) b.storage) :=
  writeKeys_eq io Key.order b.counted

/-- A `write_` without a failure leaves the whole record. -/
theorem write_allOk (b : FsmBlock) (k : Key) : (b.write_ allOk).2.storage k = some ((b.write_ allOk).2.get k) := by
  rw [write_eq, withStorage_get, withStorage_storage, putAll_apply, written_allOk, if_pos (Key.mem_order k)]

/-- **`transit`** enters the next state and leaves none requested, whatever the storage answers. -/
theorem transit_states (b : FsmBlock) (now : Time) (io : Key → StatusCode) :
    (b.transit now io).2.prevState = b.currState ∧ (b.transit now io).2.currState = b.nextState ∧
      (b.transit now io).2.nextState = 0 := by
  rw [transit, write_eq]
  exact ⟨rfl, rfl, rfl⟩

/-! ## What is restored -/

/-- The value a new block restores from under a key. -/
def stored (storage : Storage) (k : Key) : k.Val := (storage k).getD k.zero

/-- `storage_.read(key, ..)` returns `OK`. -/
def readable (io : Key → StatusCode) (storage : Storage) (k : Key) : Bool := decide (io k = .ok) && (storage k).isSome

theorem readKey_readable {io : Key → StatusCode} {k : Key} {b : FsmBlock} (h : readable io b.storage k) :
    ∃ v, b.storage k = some v ∧ readKey io k b = (.ok, b.put k v) := by
  unfold readable at h
  rw [Bool.and_eq_true, decide_eq_true_eq] at h
  obtain ⟨answers, present⟩ := h
  obtain ⟨v, found⟩ := Option.isSome_iff_exists.mp present
  exact ⟨v, found, by simp [readKey, answers, found]⟩

theorem readKey_unreadable {io : Key → StatusCode} {k : Key} {b : FsmBlock} (h : ¬ readable io b.storage k) :
    ∃ code, code ≠ .ok ∧ readKey io k b = (code, b) := by
  by_cases answers : io k = .ok
  · cases found : b.storage k with
    | none => exact ⟨.noData, by decide, by simp [readKey, answers, found]⟩
    | some v => simp [readable, answers, found] at h
  · refine ⟨io k, answers, ?_⟩
    unfold readKey
    split
    · contradiction
    · contradiction
    · rfl

/-- The keys whose read came through: those before the first that failed. -/
def restored (io : Key → StatusCode) (storage : Storage) (ks : List Key) : List Key := ks.takeWhile (readable io storage)

theorem mem_restored {io : Key → StatusCode} {storage : Storage} {ks : List Key} {k : Key}
    (h : k ∈ restored io storage ks) : k ∈ ks ∧ readable io storage k :=
  ⟨(List.takeWhile_prefix _).subset h, List.mem_takeWhile_imp h⟩

theorem restored_cons {io : Key → StatusCode} {storage : Storage} {k : Key} (h : readable io storage k) (ks : List Key) :
    restored io storage (k :: ks) = k :: restored io storage ks :=
  List.takeWhile_cons_of_pos h

theorem restored_stops {io : Key → StatusCode} {storage : Storage} {k : Key} (h : ¬ readable io storage k) (ks : List Key) :
    restored io storage (k :: ks) = [] :=
  List.takeWhile_cons_of_neg h

/-- **Reading the record** takes over the keys it gets to. -/
theorem readKeys_get (io : Key → StatusCode) (ks : List Key) (b : FsmBlock) (nodup : ks.Nodup) (k : Key) :
    (forKeys (readKey io) ks b).2.get k =
      if k ∈ restored io b.storage ks then (b.storage k).getD (b.get k) else b.get k := by
  induction ks generalizing b with
  | nil => rfl
  | cons k' ks ih =>
    obtain ⟨new, nodup⟩ := List.nodup_cons.mp nodup
    by_cases reads : readable io b.storage k'
    · obtain ⟨v, found, step⟩ := readKey_readable reads
      rw [forKeys, step, returnOnError_ok, ih (b.put k' v) nodup, put_storage, restored_cons reads]
      by_cases same : k = k'
      · subst same
        have past : k ∉ restored io b.storage ks := fun later => new (mem_restored later).1
        simp [past, found]
      · rw [get_put_ne b v same]
        simp [same]
    · obtain ⟨code, fails, step⟩ := readKey_unreadable reads
      rw [forKeys, step, returnOnError_fail _ _ fails, restored_stops reads, if_neg List.not_mem_nil]

theorem readKeys_ok (io : Key → StatusCode) (ks : List Key) (b : FsmBlock) :
    (forKeys (readKey io) ks b).1 = .ok ↔ ∀ k ∈ ks, readable io b.storage k := by
  induction ks generalizing b with
  | nil => simp [forKeys]
  | cons k ks ih =>
    rw [List.forall_mem_cons]
    by_cases reads : readable io b.storage k
    · obtain ⟨v, -, step⟩ := readKey_readable reads
      rw [forKeys, step, returnOnError_ok, ih, put_storage, and_iff_right reads]
    · obtain ⟨code, fails, step⟩ := readKey_unreadable reads
      rw [forKeys, step, returnOnError_fail _ _ fails]
      exact iff_of_false fails fun all => reads all.1

/-- Where the keys present come first, a reading without a failure gets to each of them. -/
theorem restored_present {storage : Storage} {ks : List Key} (first : Prefixed ks storage) {k : Key} (member : k ∈ ks)
    (present : (storage k).isSome) : k ∈ restored allOk storage ks := by
  induction ks with
  | nil => cases member
  | cons k' ks ih =>
    obtain ⟨later, first⟩ := List.pairwise_cons.mp first
    rcases List.mem_cons.mp member with rfl | member
    · rw [restored_cons (by simpa [readable, allOk] using present)]
      exact List.mem_cons_self
    · rw [restored_cons (by simpa [readable, allOk] using later k member present)]
      exact List.mem_cons_of_mem _ (ih first member)

/-- Reading the record changes nothing but the variables of the record. -/
theorem readKeys_preserves {P : FsmBlock → Prop} (keep : ∀ b k v, P b → P (b.put k v)) (io : Key → StatusCode)
    (ks : List Key) (b : FsmBlock) (init : P b) : P (forKeys (readKey io) ks b).2 := by
  induction ks generalizing b with
  | nil => exact init
  | cons k ks ih =>
    have kept : P (readKey io k b).2 := by
      unfold readKey
      split
      · exact keep b k _ init
      · exact init
      · exact init
    unfold forKeys returnOnError
    split
    · exact ih _ kept
    · exact kept

/-- Once the record is read, the constructor only sets `saved_ts_`. -/
theorem new_eq (resolution : Time) (storage : Storage) (io : Key → StatusCode) :
    ∃ t, new resolution storage io = { ((blank resolution storage).read_ io).2 with savedTs := t } := by
  unfold new
  dsimp only
  split
  · exact ⟨_, rfl⟩
  · exact ⟨_, rfl⟩

theorem new_preserves {P : FsmBlock → Prop} (keep : ∀ b k v, P b → P (b.put k v))
    (saved : ∀ b t, P b → P { b with savedTs := t }) (resolution : Time) (storage : Storage) (io : Key → StatusCode)
    (init : P (blank resolution storage)) : P (new resolution storage io) := by
  obtain ⟨t, same⟩ := new_eq resolution storage io
  rw [same]
  exact saved _ t (readKeys_preserves keep io Key.order _ init)

@[simp] theorem new_storage (resolution : Time) (storage : Storage) (io : Key → StatusCode) :
    (new resolution storage io).storage = storage :=
  new_preserves (P := fun b => b.storage = storage) (fun b k v h => by rwa [put_storage]) (fun _ _ h => h) _ _ _ rfl

@[simp] theorem new_resolution (resolution : Time) (storage : Storage) (io : Key → StatusCode) :
    (new resolution storage io).resolution = resolution :=
  new_preserves (P := fun b => b.resolution = resolution) (fun b k v h => by cases k <;> exact h) (fun _ _ h => h) _ _ _ rfl

@[simp] theorem new_startTs (resolution : Time) (storage : Storage) (io : Key → StatusCode) :
    (new resolution storage io).startTs = 0 :=
  new_preserves (P := fun b => b.startTs = 0) (fun b k v h => by cases k <;> exact h) (fun _ _ h => h) _ _ _ rfl

@[simp] theorem new_nextState (resolution : Time) (storage : Storage) (io : Key → StatusCode) :
    (new resolution storage io).nextState = 0 :=
  new_preserves (P := fun b => b.nextState = 0) (fun b k v h => by cases k <;> exact h) (fun _ _ h => h) _ _ _ rfl

/-- A block restored from a whole record goes on from the duration saved. -/
theorem new_savedTs (resolution : Time) (storage : Storage) (present : ∀ k, (storage k).isSome) :
    (new resolution storage allOk).savedTs = (new resolution storage allOk).currStateDur := by
  have read : ((blank resolution storage).read_ allOk).1 = .ok := by
    apply (readKeys_ok allOk Key.order _).mpr
    intro k _
    simpa [readable, allOk, blank] using present k
  unfold new
  dsimp only
  rw [if_pos read]

@[simp] theorem get_blank (resolution : Time) (storage : Storage) (k : Key) : (blank resolution storage).get k = k.zero := by
  cases k <;> rfl

/-- **The constructor** takes over the keys it gets to and leaves the others at zero. -/
theorem new_get_restored (resolution : Time) (storage : Storage) (io : Key → StatusCode) (k : Key) :
    (new resolution storage io).get k = if k ∈ restored io storage Key.order then stored storage k else k.zero := by
  obtain ⟨t, same⟩ := new_eq resolution storage io
  have read := readKeys_get io Key.order (blank resolution storage) Key.order_nodup k
  rw [get_blank] at read
  rw [same]
  calc get { ((blank resolution storage).read_ io).2 with savedTs := t } k
      = ((blank resolution storage).read_ io).2.get k := by cases k <;> rfl
    _ = if k ∈ restored io storage Key.order then stored storage k else k.zero := read

/-- Without a failure it restores the keys present. -/
theorem new_get (resolution : Time) (storage : Storage) (first : Prefixed Key.order storage) (k : Key) :
    (new resolution storage allOk).get k = stored storage k := by
  rw [new_get_restored]
  split
  · rfl
  · next missed =>
    have missing : storage k = none := by
      rw [← Option.not_isSome_iff_eq_none]
      intro present
      exact missed (restored_present first (Key.mem_order k) present)
    rw [stored, missing, Option.getD_none]

/-- **A block constructed after a whole `write_`** holds what was written. -/
theorem new_write (resolution : Time) (b : FsmBlock) (k : Key) :
    (new resolution (b.write_ allOk).2.storage allOk).get k = (b.write_ allOk).2.get k := by
  rw [new_get, stored, write_allOk, Option.getD_some]
  exact prefixed_all _ fun k => by rw [write_allOk]; rfl

end FsmBlock

end OcsComponents.Control
