import Mathlib.Algebra.Ring.Int.Defs
import OcsComponents.Lib.Transition
import OcsComponents.Control.FsmBlock

/-!
# State durations over boot sessions

Sessions of a block on one storage, where every access of the storage succeeds. The clock of a
session starts at 0 and does not go back, a transition follows an update at the same
reading, and a session ends with `handle_reboot()`. The time a state is worked in for is
counted apart from the block, from the events alone (`Ledger`): one part a session, each
rounded down to whole intervals.
-/

namespace OcsComponents.Control.Sessions
open Status Transition KeyedRecord FsmBlock

/-- What happens in a session. -/
inductive Label where
  | clock (reading : Time)
  | update
  | setNext (state : State)
  | transit
  | run
  | reboot
  deriving DecidableEq

/-- The block and the clock, and whether there was an update at this reading. -/
structure Session where
  block : FsmBlock
  now : Time
  updated : Bool

/-- The session after a reboot. -/
def rebooted (s : Session) : Session :=
  ⟨.new s.block.resolution (s.block.handleReboot s.now allOk).storage allOk, 0, false⟩

/-- One event, or `none` if it cannot happen here. -/
def exec (s : Session) : Label → Option Session
  | .clock reading => if s.now < reading then some ⟨s.block, reading, false⟩ else none
  | .update => some { s with block := s.block.update s.now, updated := true }
  | .setNext state => some { s with block := s.block.setNext state }
  | .transit => if s.updated then some { s with block := (s.block.transit s.now allOk).2 } else none
  | .run => some { s with block := (s.block.run allOk).2 }
  | .reboot => some (rebooted s)

def Step (s : Session) (l : Label) (s' : Session) : Prop := exec s l = some s'

theorem Step.reboot {s s' : Session} (h : Step s .reboot s') : s' = rebooted s := (Option.some.inj h).symm

def firstSession (resolution : Time) : Session := ⟨.firstBoot resolution, 0, false⟩

/-! ## The time spent -/

/-- The time spent in the current state in the sessions that are over, the reading it goes on
from in this one, and what was counted for the previous state when it was left. -/
structure Ledger where
  parts : List Time
  entered : Time
  now : Time
  left : Time

/-- The intervals counted for the current state. -/
def Ledger.duration (resolution : Time) (l : Ledger) : Time :=
  (l.parts.map (· / resolution)).sum + (l.now - l.entered) / resolution

def Ledger.next (resolution : Time) (l : Ledger) : Label → Ledger
  | .clock reading => { l with now := reading }
  | .transit => ⟨[], l.now, l.now, l.duration resolution⟩
  | .reboot => ⟨l.parts ++ [l.now - l.entered], 0, 0, l.left⟩
  | _ => l

/-- The ledger after the events. -/
def ledger (resolution : Time) (tr : List Label) : Ledger := tr.foldl (Ledger.next resolution) ⟨[], 0, 0, 0⟩

theorem ledger_append (resolution : Time) (tr : List Label) (l : Label) :
    ledger resolution (tr ++ [l]) = (ledger resolution tr).next resolution l := by
  simp [ledger]

/-! ## The block keeps the ledger -/

/-- The three variables the duration is made of, against the ledger. -/
structure Accounts (resolution : Time) (l : Ledger) (s : Session) : Prop where
  unit : s.block.resolution = resolution
  now : s.now = l.now
  startTs : s.block.startTs = l.entered
  started : l.entered ≤ l.now
  savedTs : s.block.savedTs = (l.parts.map (· / resolution)).sum
  left : s.block.prevStateDur = l.left
  updated : s.updated → s.block.currStateDur = l.duration resolution

section
variable {resolution : Time} {l : Ledger} {s : Session}

/-- **`update()`** counts what the ledger counts. -/
theorem Accounts.update_eq (h : Accounts resolution l s) :
    (s.block.update s.now).currStateDur = l.duration resolution := by
  have spent : 0 ≤ s.now - s.block.startTs := by
    rw [h.now, h.startTs]
    exact Int.sub_nonneg_of_le h.started
  calc (s.block.update s.now).currStateDur
      = s.block.savedTs + (s.now - s.block.startTs).tdiv s.block.resolution := rfl
    _ = s.block.savedTs + (s.now - s.block.startTs) / s.block.resolution := by
      rw [Int.tdiv_eq_ediv_of_nonneg spent]
    _ = l.duration resolution := by
      rw [h.savedTs, h.now, h.startTs, h.unit, Ledger.duration]

theorem Accounts.clock {reading : Time} (h : Accounts resolution l s) (later : s.now < reading) :
    Accounts resolution { l with now := reading } ⟨s.block, reading, false⟩ where
  unit := h.unit
  now := rfl
  startTs := h.startTs
  started := by
    rw [h.now] at later
    exact Int.le_of_lt (Int.lt_of_le_of_lt h.started later)
  savedTs := h.savedTs
  left := h.left
  updated := fun no => by cases no

theorem Accounts.update (h : Accounts resolution l s) :
    Accounts resolution l { s with block := s.block.update s.now, updated := true } where
  unit := h.unit
  now := h.now
  startTs := h.startTs
  started := h.started
  savedTs := h.savedTs
  left := h.left
  updated := fun _ => h.update_eq

/-- **A reboot** restores what `handle_reboot()` held. -/
theorem rebooted_get (s : Session) (k : Key) :
    (rebooted s).block.get k = (s.block.handleReboot s.now allOk).get k := by
  simpa only [rebooted, FsmBlock.handleReboot] using new_write s.block.resolution (s.block.update s.now) k

theorem rebooted_currStateDur (s : Session) :
    (rebooted s).block.currStateDur = (s.block.handleReboot s.now allOk).currStateDur := by
  rw [← get_currStateDur, rebooted_get, get_currStateDur]

theorem rebooted_prevStateDur (s : Session) :
    (rebooted s).block.prevStateDur = (s.block.handleReboot s.now allOk).prevStateDur := by
  rw [← get_prevStateDur, rebooted_get, get_prevStateDur]

/-- The restored block goes on from the duration saved. -/
theorem rebooted_savedTs (s : Session) :
    (rebooted s).block.savedTs = (s.block.handleReboot s.now allOk).currStateDur := by
  have whole : ∀ k, ((s.block.handleReboot s.now allOk).storage k).isSome := by
    intro k
    rw [FsmBlock.handleReboot, write_allOk]
    rfl
  rw [← rebooted_currStateDur]
  simpa only [rebooted] using new_savedTs s.block.resolution _ whole

/-- A transition closes the account of the state it leaves and opens an empty one. -/
theorem Accounts.transit (h : Accounts resolution l s) (updated : s.updated) :
    Accounts resolution ⟨[], l.now, l.now, l.duration resolution⟩
      { s with block := (s.block.transit s.now allOk).2 } := by
  rw [FsmBlock.transit, write_eq]
  exact {
    unit := h.unit
    now := h.now
    startTs := h.now
    started := Int.le_refl _
    savedTs := rfl
    left := h.updated updated
    updated := fun _ => by simp [Ledger.duration, withStorage, counted, move] }

/-- Saving the block moves none of the account. -/
theorem Accounts.write (h : Accounts resolution l s) :
    Accounts resolution l { s with block := (s.block.write_ allOk).2 } := by
  rw [write_eq]
  exact ⟨h.unit, h.now, h.startTs, h.started, h.savedTs, h.left, h.updated⟩

/-- **A reboot** makes the session that ends a part of its own. -/
theorem Accounts.reboot (h : Accounts resolution l s) :
    Accounts resolution ⟨l.parts ++ [l.now - l.entered], 0, 0, l.left⟩ (rebooted s) := by
  have saved : Accounts resolution l ⟨s.block.handleReboot s.now allOk, s.now, true⟩ := h.update.write
  exact {
    unit := by simp only [rebooted, new_resolution, h.unit]
    now := rfl
    startTs := by simp only [rebooted, new_startTs]
    started := Int.le_refl 0
    savedTs := by
      rw [rebooted_savedTs, saved.updated rfl, Ledger.duration, List.map_append, List.sum_append, List.map_singleton,
        List.sum_singleton]
    left := (rebooted_prevStateDur s).trans saved.left
    updated := fun no => by cases no }

/-- **One event** moves the block and the ledger alike. -/
theorem Accounts.step (h : Accounts resolution l s) {event : Label} {s' : Session} (last : Step s event s') :
    Accounts resolution (l.next resolution event) s' := by
  cases event with
  | clock reading =>
    obtain ⟨later, same⟩ := Option.ite_none_right_eq_some.mp last
    cases same
    exact h.clock later
  | update => cases last; exact h.update
  | setNext state => cases last; exact ⟨h.unit, h.now, h.startTs, h.started, h.savedTs, h.left, h.updated⟩
  | transit =>
    obtain ⟨updated, same⟩ := Option.ite_none_right_eq_some.mp last
    cases same
    exact h.transit updated
  | run => cases last; exact h.write
  | reboot => rw [last.reboot]; exact h.reboot

end

theorem firstSession_accounts (resolution : Time) : Accounts resolution (ledger resolution []) (firstSession resolution) where
  unit := new_resolution ..
  now := rfl
  startTs := new_startTs ..
  started := Int.le_refl 0
  savedTs := rfl
  left := rfl
  updated := fun no => by cases no

theorem run_accounts {resolution : Time} {tr : List Label} {s : Session} (h : Run Step (firstSession resolution) tr s) :
    Accounts resolution (ledger resolution tr) s := by
  refine h.invariant (fun _ => True) (fun tr s => Accounts resolution (ledger resolution tr) s)
    (firstSession_accounts resolution) ?_ (fun _ _ => trivial)
  intro tr s event s' before _ last
  rw [ledger_append]
  exact before.step last

/-- **Durations survive reboots.** After any sessions the previous state has the duration the
ledger closed it with, an update gives the current state the duration of the ledger, and
a reboot restores all that `handle_reboot()` held, this duration included. -/
theorem durations_survive {resolution : Time} {tr : List Label} {s : Session}
    (h : Run Step (firstSession resolution) tr s) :
    s.block.prevStateDur = (ledger resolution tr).left ∧
      (∀ s', Step s .update s' → s'.block.currStateDur = (ledger resolution tr).duration resolution) ∧
      (∀ s', Step s .reboot s' →
        (∀ k, s'.block.get k = (s.block.handleReboot s.now allOk).get k) ∧
          s'.block.currStateDur = (ledger resolution tr).duration resolution) := by
  have accounts := run_accounts h
  refine ⟨accounts.left, ?_, ?_⟩
  · rintro s' last
    cases last
    exact accounts.update_eq
  · rintro s' last
    rw [last.reboot]
    have saved : (s.block.handleReboot s.now allOk).currStateDur = (ledger resolution tr).duration resolution :=
      accounts.update.write.updated rfl
    exact ⟨rebooted_get s, (rebooted_currStateDur s).trans saved⟩

/-- State 1 is entered in the first session and left in the second. -/
def twoSessions : List Label :=
  [.clock 1500, .update, .setNext 1, .transit, .clock 4200, .update, .run, .reboot,
    .clock 2600, .update, .setNext 2, .transit, .clock 2700]

theorem durations_survive_twoSessions : ∃ s, Run Step (firstSession 1000) twoSessions s ∧ s.block.prevStateDur = 4 := by
  obtain ⟨s, run⟩ := Option.isSome_iff_exists.mp
    (show (twoSessions.foldlM exec (firstSession 1000)).isSome by decide)
  have sessions : Run Step (firstSession 1000) twoSessions s := Run.of_exec id run
  exact ⟨s, sessions, (durations_survive sessions).1.trans (by decide)⟩

end OcsComponents.Control.Sessions
