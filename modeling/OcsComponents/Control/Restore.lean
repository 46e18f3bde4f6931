import OcsComponents.Control.FsmBlock

/-!
# Restoring the record

`read_()` reads the five keys one after another into the variables of the block itself, and
the constructor only logs a failure. A record of which every key can be read is restored as
it was stored. Where a read fails, what came before it stays in the block: the block is fresh
only where all of that was zero (`allOrNothing_iff`), and the next record is built on it.
-/

namespace OcsComponents.Control
open Status KeyedRecord

namespace FsmBlock

/-- What the accessors of a block with nothing restored return. -/
structure Fresh (b : FsmBlock) : Prop where
  prevState : b.prevState = 0
  currState : b.currState = 0
  nextState : b.nextState = 0
  prevStateDur : b.prevStateDur = 0
  currStateDur : b.currStateDur = 0
  writeCount : b.writeCount = 0

theorem fresh_iff {b : FsmBlock} (idle : b.nextState = 0) : b.Fresh ↔ ∀ k, b.get k = k.zero := by
  constructor
  · intro fresh k
    cases k with
    | writeCount => exact fresh.writeCount
    | prevState => exact fresh.prevState
    | prevStateDur => exact fresh.prevStateDur
    | currState => exact fresh.currState
    | currStateDur => exact fresh.currStateDur
  · intro zero
    exact ⟨zero .prevState, zero .currState, idle, zero .prevStateDur, zero .currStateDur, zero .writeCount⟩

/-- The first record of a fresh block: its time counts from 0. -/
def freshRecord (resolution now : Time) : (k : Key) → k.Val
  | .writeCount => 1
  | .prevState => 0
  | .prevStateDur => 0
  | .currState => 0
  | .currStateDur => now.tdiv resolution

theorem Fresh.reboot {b : FsmBlock} (fresh : b.Fresh) (started : b.startTs = 0) (saved : b.savedTs = 0) (now : Time)
    (io : Key → StatusCode) :
    (b.handleReboot now io).storage = putAll (freshRecord b.resolution now) (written io Key.order) b.storage := by
  have record : (b.update now).counted.get = freshRecord b.resolution now := by
    funext k
    cases k with
    | writeCount => exact congrArg (· + 1) fresh.writeCount
    | prevState => exact fresh.prevState
    | prevStateDur => exact fresh.prevStateDur
    | currState => exact fresh.currState
    | currStateDur => simp [update, counted, freshRecord, started, saved]
  rw [handleReboot, write_eq, withStorage_storage, record]
  rfl

/-! ## The five reads -/

theorem read_ok (resolution : Time) (storage : Storage) (io : Key → StatusCode) :
    ((blank resolution storage).read_ io).1 = .ok ↔ ∀ k, readable io storage k := by
  rw [read_, readKeys_ok]
  constructor
  · intro all k
    exact all k (Key.mem_order k)
  · intro all k _
    exact all k

theorem new_failed {resolution : Time} {storage : Storage} {io : Key → StatusCode}
    (failed : ((blank resolution storage).read_ io).1 ≠ .ok) : (new resolution storage io).savedTs = 0 := by
  unfold new
  dsimp only
  rw [if_neg failed]
  exact readKeys_preserves (P := fun b => b.savedTs = 0) (fun b k v h => by cases k <;> exact h) io Key.order _ rfl

/-- Where every read succeeds, the block holds what is stored. -/
theorem new_whole (resolution : Time) {storage : Storage} {io : Key → StatusCode} (whole : ∀ k, readable io storage k)
    (k : Key) : storage k = some ((new resolution storage io).get k) := by
  have reached : k ∈ restored io storage Key.order := by
    rw [restored, List.takeWhile_eq_self_iff.mpr fun k _ => whole k]
    exact Key.mem_order k
  obtain ⟨v, found, -⟩ := readKey_readable (b := blank resolution storage) (whole k)
  have found : storage k = some v := found
  rw [new_get_restored, if_pos reached, stored, found, Option.getD_some]

/-- Where one fails, the block is fresh if what was read before is zero, and only then. -/
theorem new_fresh_iff (resolution : Time) (storage : Storage) (io : Key → StatusCode) :
    (new resolution storage io).Fresh ↔ ∀ k ∈ restored io storage Key.order, storage k = some k.zero := by
  rw [fresh_iff (new_nextState resolution storage io)]
  refine forall_congr' fun k => ?_
  rw [new_get_restored]
  by_cases reached : k ∈ restored io storage Key.order
  · obtain ⟨v, found, -⟩ := readKey_readable (b := blank resolution storage) (mem_restored reached).2
    have found : storage k = some v := found
    rw [if_pos reached, stored, found, Option.getD_some, Option.some_inj]
    exact ⟨fun zero _ => zero, fun zero => zero reached⟩
  · rw [if_neg reached]
    exact ⟨fun _ member => absurd member reached, fun _ => rfl⟩

/-! ## All or nothing -/

/-- The constructor restores the whole record or leaves a fresh block, whose next record is
the first of a fresh block. -/
def AllOrNothing (resolution : Time) (storage : Storage) (io : Key → StatusCode) : Prop :=
  if ((blank resolution storage).read_ io).1 = .ok then
    ∀ k, storage k = some ((new resolution storage io).get k)
  else
    (new resolution storage io).Fresh ∧
      ∀ now io', ((new resolution storage io).handleReboot now io').storage =
        putAll (freshRecord resolution now) (written io' Key.order) storage

/-- **All or nothing is restored** where every read succeeds, or where those before the first
that fails read nothing but zeros. -/
theorem allOrNothing_iff (resolution : Time) (storage : Storage) (io : Key → StatusCode) :
    AllOrNothing resolution storage io ↔
      (∀ k, readable io storage k) ∨ ∀ k ∈ restored io storage Key.order, storage k = some k.zero := by
  unfold AllOrNothing
  split
  · next ok =>
    have whole := (read_ok resolution storage io).mp ok
    exact iff_of_true (new_whole resolution whole) (.inl whole)
  · next failed =>
    have partly : ¬ ∀ k, readable io storage k := fun whole => failed ((read_ok resolution storage io).mpr whole)
    rw [or_iff_right partly, ← new_fresh_iff resolution]
    refine ⟨And.left, fun fresh => ⟨fresh, ?_⟩⟩
    intro now io'
    have reboot := fresh.reboot (new_startTs resolution storage io) (new_failed failed) now io'
    rwa [new_resolution, new_storage] at reboot

/-- A record whose second read fails. -/
def halfReadable : Storage
  | .writeCount => some 5
  | .prevState => some 1
  | .prevStateDur => some 60
  | .currState => some 2
  | .currStateDur => some 30

/-- The number of writes is restored and nothing else. -/
theorem allOrNothing_fails :
    ¬ AllOrNothing 1000000 halfReadable (fun k => if k = .prevState then .error else .ok) := by
  unfold AllOrNothing
  rw [if_neg (by decide)]
  rintro ⟨fresh, -⟩
  exact absurd fresh.writeCount (by decide)

end FsmBlock

end OcsComponents.Control
