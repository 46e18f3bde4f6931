import OcsComponents.Lib.Transition
import OcsComponents.Control.FsmBlock

/-!
# Failed writes and power losses

The five writes of `write_()` are five single writes and nothing ties them together. Each of
them is atomic and durable. A write that fails ends the operation there, and so does a power
loss, after which a new block is constructed on the same storage. What it restores is the new
record on the keys that were written and the old record on the others
(`interrupted_record`). The two records of `run()` and of `handle_reboot()` differ in one
key at most where the last transition was written to its end, and then no mixture of them
exists; those of `transit()` differ in all of them.
-/

namespace OcsComponents.Control
open Status Transition KeyedRecord

namespace FsmBlock

/-- Previous state and duration, current state and duration. -/
def record (b : FsmBlock) : State × Time × State × Time :=
  (b.prevState, b.prevStateDur, b.currState, b.currStateDur)

theorem record_eq {b b' : FsmBlock} (same : ∀ k, k ≠ .writeCount → b.get k = b'.get k) : b.record = b'.record := by
  have prevState : b.prevState = b'.prevState := same .prevState (by decide)
  have prevStateDur : b.prevStateDur = b'.prevStateDur := same .prevStateDur (by decide)
  have currState : b.currState = b'.currState := same .currState (by decide)
  have currStateDur : b.currStateDur = b'.currStateDur := same .currStateDur (by decide)
  simp only [record, prevState, prevStateDur, currState, currStateDur]

end FsmBlock

namespace PowerLoss
open FsmBlock

/-- The operations that persist the block. -/
inductive Persist where
  | transit (now : Time)
  | run
  | handleReboot (now : Time)
  deriving DecidableEq

/-- Up to the power loss before write number `n` the storage answers as it would; no later
write reaches it. -/
def untilCut (n : Nat) (io : Key → StatusCode) (k : Key) : StatusCode :=
  if Key.order.idxOf k < n then io k else .error

namespace Persist

/-- The block after the operation. -/
def exec (op : Persist) (b : FsmBlock) (io : Key → StatusCode) : FsmBlock :=
  match op with
  | transit now => (b.transit now io).2
  | run => (b.run io).2
  | handleReboot now => b.handleReboot now io

/-- The storage when the power is lost before write number `n` of the operation. -/
def interrupted (op : Persist) (b : FsmBlock) (io : Key → StatusCode) (n : Nat) : Storage :=
  (op.exec b (untilCut n io)).storage

/-- The block when the operation calls `write_`. -/
def prepared (op : Persist) (b : FsmBlock) : FsmBlock :=
  match op with
  | transit now => b.move now
  | run => b
  | handleReboot now => b.update now

theorem exec_eq (op : Persist) (b : FsmBlock) (io : Key → StatusCode) : op.exec b io = ((op.prepared b).write_ io).2 := by
  cases op <;> rfl

@[simp] theorem prepared_storage (op : Persist) (b : FsmBlock) : (op.prepared b).storage = b.storage := by
  cases op <;> rfl

theorem exec_get (op : Persist) (b : FsmBlock) (io : Key → StatusCode) :
    (op.exec b io).get = (op.prepared b).counted.get := by
  rw [exec_eq, write_eq, withStorage_get]

/-- **The storage after the operation**: the record intended, on the keys written. -/
theorem exec_storage (op : Persist) (b : FsmBlock) (io : Key → StatusCode) :
    (op.exec b io).storage = putAll (op.exec b allOk).get (written io Key.order) b.storage := by
  rw [exec_get, exec_eq, write_eq, withStorage_storage, prepared_storage]

end Persist

theorem stored_putAll (record : (k : Key) → k.Val) (ks : List Key) (storage : Storage) (k : Key) :
    stored (putAll record ks storage) k = if k ∈ ks then record k else stored storage k := by
  unfold stored
  rw [putAll_apply]
  split <;> rfl

/-! ## Every run of the block -/

/-- What happens to a block, in any order. A constructor reads with the statuses given. -/
inductive Label where
  | update (now : Time)
  | setNext (state : State)
  | persist (op : Persist) (io : Key → StatusCode)
  | powerLoss (op : Persist) (io : Key → StatusCode) (n : Nat) (read : Key → StatusCode)
  | restart (read : Key → StatusCode)

def next (b : FsmBlock) : Label → FsmBlock
  | .update now => b.update now
  | .setNext state => b.setNext state
  | .persist op io => op.exec b io
  | .powerLoss op io n read => .new b.resolution (op.interrupted b io n) read
  | .restart read => .new b.resolution b.storage read

def Step (b : FsmBlock) (l : Label) (b' : FsmBlock) : Prop := b' = next b l

theorem run_foldl (b : FsmBlock) (tr : List Label) : Run Step b tr (tr.foldl next b) := by
  induction tr generalizing b with
  | nil => exact .start
  | cons l tr ih => exact (ih (next b l)).cons rfl

theorem exec_prefixed {op : Persist} {b : FsmBlock} {io : Key → StatusCode} (h : Prefixed Key.order b.storage) :
    Prefixed Key.order (op.exec b io).storage := by
  rw [op.exec_storage]
  exact h.putAll_first Key.order_nodup (written_first io _) _

theorem step_prefixed {b : FsmBlock} {l : Label} (h : Prefixed Key.order b.storage) :
    Prefixed Key.order (next b l).storage := by
  cases l with
  | update now => exact h
  | setNext state => exact h
  | persist op io => exact exec_prefixed h
  | powerLoss op io n read => rw [next, new_storage]; exact exec_prefixed h
  | restart read => rw [next, new_storage]; exact h

/-- The keys present always come first in the order of the writes. -/
theorem run_prefixed {resolution : Time} {tr : List Label} {b : FsmBlock} (h : Run Step (firstBoot resolution) tr b) :
    Prefixed Key.order b.storage := by
  refine h.preserves (fun _ => True) (fun b => Prefixed Key.order b.storage) ?_ ?_ (fun _ _ => trivial)
  · rw [firstBoot, new_storage]; exact prefixed_none _
  · rintro b l _ first - rfl
    exact step_prefixed first

/-! ## The two records -/

theorem exec_stored (op : Persist) (b : FsmBlock) (io : Key → StatusCode) (k : Key) :
    stored (op.exec b io).storage k =
      if k ∈ written io Key.order then (op.exec b allOk).get k else stored b.storage k := by
  rw [op.exec_storage, stored_putAll]

/-- Everything a new block restores but the current duration is what the block holds. -/
def InSync (b : FsmBlock) : Prop := ∀ k, k ≠ .writeCount → k ≠ .currStateDur → stored b.storage k = b.get k

/-- `run()` and `handle_reboot()` -/
def Persist.Saves : Persist → Prop
  | .transit _ => False
  | .run => True
  | .handleReboot _ => True

theorem Persist.Saves.get {op : Persist} (h : op.Saves) (b : FsmBlock) (io : Key → StatusCode) {k : Key}
    (count : k ≠ .writeCount) (duration : k ≠ .currStateDur) : (op.exec b io).get k = b.get k := by
  rw [op.exec_get]
  cases op with
  | transit now => exact h.elim
  | run => cases k <;> first | rfl | contradiction
  | handleReboot now => cases k <;> first | rfl | contradiction

/-- A transition that returns is written to its end, and a constructor can read. -/
def Label.Whole : Label → Prop
  | .persist (.transit _) io => written io Key.order = Key.order
  | .powerLoss _ _ _ read => read = allOk
  | .restart read => read = allOk
  | _ => True

theorem new_inSync (resolution : Time) {storage : Storage} (first : Prefixed Key.order storage) :
    InSync (.new resolution storage allOk) := by
  intro k _ _
  rw [new_storage, new_get resolution storage first]

theorem persist_inSync {op : Persist} {b : FsmBlock} {io : Key → StatusCode} (sync : InSync b)
    (whole : (Label.persist op io).Whole) : InSync (op.exec b io) := by
  intro k count duration
  rw [exec_stored]
  by_cases done : k ∈ written io Key.order
  · rw [if_pos done, op.exec_get, op.exec_get]
  · have saves : op.Saves := by
      cases op with
      | transit now =>
        have all : written io Key.order = Key.order := whole
        exact done (by rw [all]; exact Key.mem_order k)
      | run => trivial
      | handleReboot now => trivial
    rw [if_neg done, saves.get b io count duration]
    exact sync k count duration

theorem run_inSync {resolution : Time} {tr : List Label} {b : FsmBlock} (h : Run Step (firstBoot resolution) tr b)
    (whole : ∀ l ∈ tr, l.Whole) : InSync b := by
  have both : Prefixed Key.order b.storage ∧ InSync b := by
    refine h.preserves Label.Whole (fun b => Prefixed Key.order b.storage ∧ InSync b) ?_ ?_ whole
    · exact ⟨run_prefixed .start, new_inSync resolution (prefixed_none _)⟩
    · rintro b l _ ⟨first, sync⟩ whole rfl
      refine ⟨step_prefixed first, ?_⟩
      cases l with
      | update now =>
        intro k count duration
        rw [show (next b (.update now)).get k = b.get k by cases k <;> first | rfl | contradiction]
        exact sync k count duration
      | setNext state =>
        intro k count duration
        rw [show (next b (.setNext state)).get k = b.get k by cases k <;> rfl]
        exact sync k count duration
      | persist op io => exact persist_inSync sync whole
      | powerLoss op io n read =>
        have ok : read = allOk := whole
        subst ok
        exact new_inSync b.resolution (exec_prefixed first)
      | restart read =>
        have ok : read = allOk := whole
        subst ok
        exact new_inSync b.resolution first
  exact both.2

/-- The first write is the count's. -/
theorem unreached {io : Key → StatusCode} {k : Key} (short : (written io Key.order).length ≤ 1)
    (count : k ≠ .writeCount) : k ∉ written io Key.order := by
  have first := List.prefix_iff_eq_take.mp (written_first io Key.order)
  generalize (written io Key.order).length = m at first short
  have : m = 0 ∨ m = 1 := by omega
  rw [first]
  rcases this with rfl | rfl
  · simp
  · simpa [Key.order] using count

/-- A new block restores what was intended on the keys written, the old record on the others. -/
theorem restored_get {b : FsmBlock} (first : Prefixed Key.order b.storage) (op : Persist) (io : Key → StatusCode) (k : Key) :
    (FsmBlock.new b.resolution (op.exec b io).storage allOk).get k =
      if k ∈ written io Key.order then (op.exec b allOk).get k else (FsmBlock.new b.resolution b.storage allOk).get k := by
  rw [new_get _ _ (exec_prefixed first), new_get _ _ first]
  exact exec_stored op b io k

section
variable {old intended restored : FsmBlock} {done : List Key}
  (mixed : ∀ k, restored.get k = if k ∈ done then intended.get k else old.get k)
include mixed

theorem old_of_unreached (unreached : ∀ k, k ≠ .writeCount → k ∉ done) : restored.record = old.record := by
  apply record_eq
  intro k count
  rw [mixed k, if_neg (unreached k count)]

theorem intended_of_all (all : done = Key.order) : restored.record = intended.record := by
  apply record_eq
  intro k _
  rw [mixed k, if_pos (all ▸ Key.mem_order k)]

/-- Where the two records differ in the current duration at most, there is no third one. -/
theorem old_or_intended (same : ∀ k, k ≠ .writeCount → k ≠ .currStateDur → intended.get k = old.get k) :
    restored.record = old.record ∨ restored.record = intended.record := by
  by_cases last : .currStateDur ∈ done
  · apply Or.inr
    apply record_eq
    intro k count
    by_cases duration : k = .currStateDur
    · rw [mixed k, duration, if_pos last]
    · rw [mixed k, same k count duration, ite_self]
  · apply Or.inl
    apply record_eq
    intro k count
    by_cases duration : k = .currStateDur
    · rw [mixed k, duration, if_neg last]
    · rw [mixed k, same k count duration, ite_self]

end

/-- **What an interrupted operation leaves.** A new block restores the record the
operation intended on the keys whose write came through, and on the others the record
that was restored before: the old one where `prev_state` was not reached, the intended
one where all five keys were. `run()` and `handle_reboot()` leave one of the two in any case. -/
theorem interrupted_record {resolution : Time} {tr : List Label} {b : FsmBlock}
    (h : Run Step (firstBoot resolution) tr b) (op : Persist) (io : Key → StatusCode) (n : Nat) :
    let old := FsmBlock.new b.resolution b.storage allOk
    let intended := op.exec b allOk
    let restored := FsmBlock.new b.resolution (op.interrupted b io n) allOk
    let done := written (untilCut n io) Key.order
    (∀ k, restored.get k = if k ∈ done then intended.get k else old.get k) ∧
      (done.length ≤ 1 → restored.record = old.record) ∧
      (done = Key.order → restored.record = intended.record) ∧
      ((∀ l ∈ tr, l.Whole) → op.Saves → restored.record = old.record ∨ restored.record = intended.record) := by
  intro old intended restored done
  have first := run_prefixed h
  have mixed : ∀ k, restored.get k = if k ∈ done then intended.get k else old.get k :=
    restored_get first op (untilCut n io)
  refine ⟨mixed, ?_, intended_of_all mixed, ?_⟩
  · intro short
    exact old_of_unreached mixed fun k count => unreached short count
  · intro whole saves
    have sync := run_inSync h whole
    apply old_or_intended mixed
    intro k count duration
    rw [saves.get b allOk count duration, new_get _ _ first]
    exact (sync k count duration).symm

/-- A block in state 1 with state 2 requested. -/
def requestedSecond : List Label := [.setNext 1, .persist (.transit 0) allOk, .update 7, .setNext 2]

theorem requestedSecond_run : Run Step (firstBoot 1) requestedSecond (requestedSecond.foldl next (firstBoot 1)) :=
  run_foldl _ _

theorem interrupted_record_reboot :
    let b := requestedSecond.foldl next (firstBoot 1)
    let restored := FsmBlock.new b.resolution (Persist.interrupted (.handleReboot 9) b allOk 3) allOk
    (∀ k, restored.get k =
        if k ∈ written (untilCut 3 allOk) Key.order then (Persist.exec (.handleReboot 9) b allOk).get k
        else (FsmBlock.new b.resolution b.storage allOk).get k) ∧
      (restored.record = (FsmBlock.new b.resolution b.storage allOk).record ∨
        restored.record = (Persist.exec (.handleReboot 9) b allOk).record) := by
  have whole : ∀ l ∈ requestedSecond, l.Whole := by
    simp [requestedSecond, Label.Whole, written_allOk]
  have left := interrupted_record requestedSecond_run (.handleReboot 9) allOk 3
  exact ⟨left.1, left.2.2.2 whole trivial⟩

/-- **A torn record.** The power is lost in the transition from 1 to 2, before `curr_state`
is written. The new block was in state 1 before it came to state 1. -/
theorem torn_record : ∃ (b : FsmBlock) (op : Persist) (n : Nat),
    Run Step (firstBoot 1) requestedSecond b ∧
      (FsmBlock.new b.resolution b.storage allOk).record = (0, 0, 1, 0) ∧
      (op.exec b allOk).record = (1, 7, 2, 0) ∧
      (FsmBlock.new b.resolution (op.interrupted b allOk n) allOk).record = (1, 7, 1, 0) :=
  ⟨requestedSecond.foldl next (firstBoot 1), .transit 7, 3, requestedSecond_run, by decide, by decide, by decide⟩

end PowerLoss

end OcsComponents.Control
