import Mathlib.Data.List.Induction
import OcsComponents.Sensor.Soil.AnalogSensor

/-!
# The history of the soil status

What the readings say: which status is held since when, and which one was held before and
for how long. The sensor tells its block of every good reading by `update`, `set_next` and `transit`,
and the block holds this history, so what is published is the history too.
-/

namespace OcsComponents.Sensor.Soil
open Status Transition OcsComponents.Control

/-- A clock that does not go back, and stands still within a call. -/
structure Clock (tr : List Reading) : Prop where
  still : ∀ r ∈ tr, r.moved = r.updated
  started : ∀ r ∈ tr, 0 ≤ r.updated
  forward : tr.Pairwise fun a b => a.updated ≤ b.updated

theorem Clock.earlier {tr : List Reading} {r : Reading} (clock : Clock (tr ++ [r])) : Clock tr where
  still r' inside := clock.still r' (List.mem_append_left _ inside)
  started r' inside := clock.started r' (List.mem_append_left _ inside)
  forward := (List.pairwise_append.mp clock.forward).1

/-- The status held, and when it was entered. -/
def current : List (SoilStatus × Time) → SoilStatus × Time
  | [] => (.none, 0)
  | c :: _ => c

/-- The status held before, and for how long in whole units. -/
def left (resolution : Time) : List (SoilStatus × Time) → SoilStatus × Time
  | [] => (.none, 0)
  | (_, since) :: earlier => ((current earlier).1, (since - (current earlier).2) / resolution)

/-- A good reading of another status than the one held. -/
abbrev Differs (p : Params) (h : List (SoilStatus × Time)) (r : Reading) : Prop :=
  r.Good ∧ (current h).1 ≠ p.calculateStatus r.read.2

def observe (p : Params) (h : List (SoilStatus × Time)) (r : Reading) : List (SoilStatus × Time) :=
  if Differs p h r then (p.calculateStatus r.read.2, r.updated) :: h else h

/-- The changes of status seen by some readings, the latest first. -/
def changes (p : Params) (tr : List Reading) : List (SoilStatus × Time) := tr.foldl (observe p) []

@[simp] theorem changes_concat (p : Params) (tr : List Reading) (r : Reading) :
    changes p (tr ++ [r]) = observe p (changes p tr) r := by simp [changes]

/-- After a good reading its status is the one held. -/
theorem current_observe (p : Params) (h : List (SoilStatus × Time)) {r : Reading} (good : r.Good) :
    (current (observe p h r)).1 = p.calculateStatus r.read.2 := by
  unfold observe
  split
  · rfl
  · next same => exact not_not.mp fun differs => same ⟨good, differs⟩

theorem mem_changes {p : Params} {tr : List Reading} {c : SoilStatus × Time} (member : c ∈ changes p tr) :
    ∃ r ∈ tr, c = (p.calculateStatus r.read.2, r.updated) := by
  induction tr using List.reverseRecOn with
  | nil => cases member
  | append_singleton tr r ih =>
    rw [changes_concat, observe] at member
    split at member
    · rcases List.mem_cons.mp member with rfl | old
      · exact ⟨r, by simp, rfl⟩
      · obtain ⟨r', inside, same⟩ := ih old
        exact ⟨r', List.mem_append_left _ inside, same⟩
    · obtain ⟨r', inside, same⟩ := ih member
      exact ⟨r', List.mem_append_left _ inside, same⟩

/-- The status held was entered in the past. -/
theorem current_since {p : Params} {tr : List Reading} {r : Reading} (clock : Clock (tr ++ [r])) :
    (current (changes p tr)).2 ≤ r.updated := by
  cases seen : changes p tr with
  | nil => exact clock.started r (by simp)
  | cons c earlier =>
    obtain ⟨r', inside, rfl⟩ := mem_changes (seen ▸ List.mem_cons_self : c ∈ changes p tr)
    exact (List.pairwise_append.mp clock.forward).2.2 r' inside r (by simp)

/-! ## The block follows it -/

/-- Statuses of readings come back from the block's states. -/
theorem parse_calculate (p : Params) (raw : BitVec 32) :
    parseStatus (p.calculateStatus raw).toState = p.calculateStatus raw := by
  unfold Params.calculateStatus
  dsimp only
  split
  · rfl
  · split
    · rfl
    · split
      · rfl
      · split <;> rfl

/-- No status of a reading is 0, the state that `is_in_transit` ignores. -/
theorem calculate_ne_zero (p : Params) (raw : BitVec 32) : (p.calculateStatus raw).toState ≠ 0 := by
  unfold Params.calculateStatus
  dsimp only
  split
  · decide
  · split
    · decide
    · split
      · decide
      · split <;> decide

theorem parse_current (p : Params) (tr : List Reading) :
    parseStatus (current (changes p tr)).1.toState = (current (changes p tr)).1 := by
  cases seen : changes p tr with
  | nil => rfl
  | cons c earlier =>
    obtain ⟨r, _, rfl⟩ := mem_changes (seen ▸ List.mem_cons_self : c ∈ changes p tr)
    exact parse_calculate p _

theorem parse_left (p : Params) (resolution : Time) (tr : List Reading) :
    parseStatus (left resolution (changes p tr)).1.toState = (left resolution (changes p tr)).1 := by
  cases seen : changes p tr with
  | nil => rfl
  | cons c earlier =>
    cases earlier with
    | nil => rfl
    | cons c' rest =>
      have member : c' ∈ changes p tr := by simp [seen]
      obtain ⟨r, _, rfl⟩ := mem_changes member
      exact parse_calculate p _

/-- The block holds the history. -/
structure Holds (resolution : Time) (h : List (SoilStatus × Time)) (b : FsmBlock) : Prop where
  unit : b.resolution = resolution
  currState : b.currState = (current h).1.toState
  prevState : b.prevState = (left resolution h).1.toState
  prevStateDur : b.prevStateDur = (left resolution h).2
  startTs : b.startTs = (current h).2
  savedTs : b.savedTs = 0

/-- Nothing is restored from an empty storage, whatever it answers. -/
theorem new_empty (resolution : Time) (io : Key → StatusCode) :
    FsmBlock.new resolution (fun _ => none) io = .blank resolution fun _ => none := by
  have first : (FsmBlock.readKey io .writeCount (.blank resolution fun _ => none)).1 ≠ .ok ∧
      (FsmBlock.readKey io .writeCount (.blank resolution fun _ => none)).2 = .blank resolution fun _ => none := by
    by_cases ok : io .writeCount = .ok
    · simp [FsmBlock.readKey, FsmBlock.blank, ok]
    · unfold FsmBlock.readKey
      split
      · contradiction
      · contradiction
      · exact ⟨ok, rfl⟩
  have read : (FsmBlock.blank resolution fun _ => none).read_ io =
      FsmBlock.readKey io .writeCount (.blank resolution fun _ => none) :=
    returnOnError_fail _ _ first.1
  rw [FsmBlock.new, read]
  dsimp only
  rw [if_neg first.1, first.2]

theorem Holds.new (resolution : Time) (io : Key → StatusCode) :
    Holds resolution [] (.new resolution (fun _ => none) io) := by
  rw [new_empty]
  exact ⟨rfl, rfl, rfl, rfl, rfl, rfl⟩

section
variable {resolution : Time} {h : List (SoilStatus × Time)} {b : FsmBlock} {r : Reading}

/-- `update` measures the status held. -/
theorem Holds.update (holds : Holds resolution h b) (later : (current h).2 ≤ r.updated) :
    (b.update r.updated).currStateDur = (r.updated - (current h).2) / resolution := by
  rw [FsmBlock.update, holds.unit, holds.startTs, holds.savedTs, Int.zero_add]
  exact Int.tdiv_eq_ediv_of_nonneg (Int.sub_nonneg_of_le later)

/-- A reading that repeats the status only updates the duration. -/
theorem Holds.repeats (holds : Holds resolution h b) {status : SoilStatus}
    (same : (current h).1 = status) : AnalogSensor.advance b status r = (b.update r.updated).setNext status.toState := by
  have still : ((b.update r.updated).setNext status.toState).isInTransit = false := by
    rw [FsmBlock.isInTransit, Bool.and_eq_false_iff]
    refine Or.inr ?_
    rw [bne_eq_false_iff_eq, FsmBlock.setNext, FsmBlock.update, holds.currState, same]
  rw [AnalogSensor.advance, still]
  rfl

/-- One that changes it is a `transit`. -/
theorem Holds.changes (holds : Holds resolution h b) {status : SoilStatus} (some : status.toState ≠ 0)
    (differs : (current h).1.toState ≠ status.toState) :
    AnalogSensor.advance b status r = (((b.update r.updated).setNext status.toState).transit r.moved r.io).2 := by
  have moves : ((b.update r.updated).setNext status.toState).isInTransit = true := by
    rw [FsmBlock.isInTransit, Bool.and_eq_true]
    refine ⟨bne_iff_ne.mpr some, bne_iff_ne.mpr ?_⟩
    rw [FsmBlock.setNext, FsmBlock.update, holds.currState]
    exact differs
  rw [AnalogSensor.advance, moves]
  rfl

/-- **One good reading**, at the block. -/
theorem Holds.observe (holds : Holds resolution h b) (p : Params) (good : r.Good) (still : r.moved = r.updated)
    (later : (current h).2 ≤ r.updated) (named : parseStatus (current h).1.toState = (current h).1) :
    Holds resolution (observe p h r) (AnalogSensor.advance b (p.calculateStatus r.read.2) r) ∧
      (AnalogSensor.advance b (p.calculateStatus r.read.2) r).currStateDur =
        (r.updated - (current (Soil.observe p h r)).2) / resolution ∧
      (AnalogSensor.advance b (p.calculateStatus r.read.2) r).writeCount =
        b.writeCount + if Differs p h r then 1 else 0 := by
  by_cases same : (current h).1 = p.calculateStatus r.read.2
  · have repeated : ¬ Differs p h r := fun differs => differs.2 same
    rw [Soil.observe, if_neg repeated, if_neg repeated, holds.repeats same]
    refine ⟨⟨holds.unit, holds.currState, holds.prevState, holds.prevStateDur, holds.startTs, holds.savedTs⟩, ?_, ?_⟩
    · exact holds.update later
    · exact (BitVec.add_zero _).symm
  · have differs : (current h).1.toState ≠ (p.calculateStatus r.read.2).toState := by
      intro equal
      rw [equal, parse_calculate] at named
      exact same named.symm
    have changed : Differs p h r := ⟨good, same⟩
    rw [Soil.observe, if_pos changed, if_pos changed, holds.changes (calculate_ne_zero p _) differs]
    rw [FsmBlock.transit, FsmBlock.write_eq]
    refine ⟨⟨holds.unit, rfl, holds.currState, holds.update later, still, rfl⟩, ?_, rfl⟩
    show (0 : Time) = (r.updated - r.updated) / resolution
    rw [Int.sub_self, Int.zero_ediv]

end

/-! ## What is published -/

/-- A call whose ADC fails leaves everything as it was, another one publishes the block's view. -/
theorem run_cases {s s' : AnalogSensor} {r : Reading} {code : StatusCode} (h : s.run r = some (code, s')) :
    (¬ r.Good ∧ code ≠ .ok ∧ s' = s) ∨
      (r.Good ∧ code = .ok ∧ s'.params = s.params ∧
        s'.block = AnalogSensor.advance s.block (s.params.calculateStatus r.read.2) r ∧
        s'.data.prevStatus = parseStatus s'.block.prevState ∧ s'.data.currStatus = parseStatus s'.block.currState ∧
        s'.data.prevStatusDuration = s'.block.prevStateDur ∧ s'.data.currStatusDuration = s'.block.currStateDur) := by
  unfold AnalogSensor.run at h
  split at h
  · next fails =>
    cases h
    exact Or.inl ⟨fun good => fails good.1, fails, rfl⟩
  · next read =>
    split at h
    · next fails =>
      cases h
      exact Or.inl ⟨fun good => fails good.2, fails, rfl⟩
    · next convert =>
      simp only [AnalogSensor.updateData, Option.bind_eq_bind, Option.pure_def, Option.bind_eq_some_iff] at h
      obtain ⟨_, ⟨pos, _, published⟩, returned⟩ := h
      cases published
      cases returned
      exact Or.inr ⟨⟨not_not.mp read, not_not.mp convert⟩, rfl, rfl, rfl, rfl, rfl, rfl, rfl⟩

section
variable {p : Params} {resolution : Time} {boot : Key → StatusCode} {tr : List Reading} {r : Reading}
  {s s' : AnalogSensor} {code : StatusCode}

theorem holds_of_run (run : Run Step (.new p (.new resolution (fun _ => none) boot)) tr s) (clock : Clock tr) :
    s.params = p ∧ Holds resolution (changes p tr) s.block := by
  refine run.invariant (fun _ => True) (fun tr s => Clock tr → s.params = p ∧ Holds resolution (changes p tr) s.block)
    (fun _ => ⟨rfl, .new resolution boot⟩) ?_ (fun _ _ => trivial) clock
  rintro tr s r s' ih _ ⟨code, ran⟩ clock
  obtain ⟨rfl, holds⟩ := ih clock.earlier
  rw [changes_concat]
  rcases run_cases ran with ⟨bad, _, rfl⟩ | ⟨good, _, same, block, _⟩
  · rw [observe, if_neg fun differs => bad differs.1]
    exact ⟨rfl, holds⟩
  · rw [block]
    exact ⟨same, (holds.observe _ good (clock.still r (by simp)) (current_since clock) (parse_current _ tr)).1⟩

/-- **The published status follows the readings.** A call that returns `OK` publishes the status of its reading and the
history up to it, a write is attempted when the status differs from the one held, and a call whose ADC fails
changes nothing. -/
theorem follows_readings (run : Run Step (.new p (.new resolution (fun _ => none) boot)) tr s)
    (clock : Clock (tr ++ [r])) (last : s.run r = some (code, s')) :
    (code = .ok →
      s'.data.currStatus = p.calculateStatus r.read.2 ∧
      s'.data.currStatus = (current (changes p (tr ++ [r]))).1 ∧
      s'.data.currStatusDuration = (r.updated - (current (changes p (tr ++ [r]))).2) / resolution ∧
      s'.data.prevStatus = (left resolution (changes p (tr ++ [r]))).1 ∧
      s'.data.prevStatusDuration = (left resolution (changes p (tr ++ [r]))).2) ∧
    s'.block.writeCount = s.block.writeCount + (if Differs p (changes p tr) r then 1 else 0) ∧
    (¬ r.Good → code ≠ .ok ∧ s'.data = s.data ∧ s'.block = s.block) := by
  obtain ⟨rfl, holds⟩ := holds_of_run run clock.earlier
  rcases run_cases last with ⟨bad, fails, rfl⟩ | ⟨good, rfl, _, block, prev, curr, prevDur, currDur⟩
  · rw [if_neg fun differs => bad differs.1]
    exact ⟨fun ok => absurd ok fails, (BitVec.add_zero _).symm, fun _ => ⟨fails, rfl, rfl⟩⟩
  · obtain ⟨held, duration, count⟩ :=
      holds.observe _ good (clock.still r (by simp)) (current_since clock) (parse_current _ tr)
    rw [← block] at held duration count
    rw [← changes_concat] at held duration
    have published : s'.data.currStatus = (current (changes s.params (tr ++ [r]))).1 := by
      rw [curr, held.currState, parse_current]
    refine ⟨fun _ => ⟨?_, published, ?_, ?_, ?_⟩, count, fun bad => absurd good bad⟩
    · rw [published, changes_concat, current_observe _ _ good]
    · rw [currDur, duration]
    · rw [prev, held.prevState, parse_left]
    · rw [prevDur, held.prevStateDur]

end

/-- The soil dries while the storage is down, then the ADC fails once. -/
def drying : List Reading := [
  ⟨(.ok, 150), (.ok, 1), 10, 10, allOk⟩,
  ⟨(.ok, 450), (.ok, 3), 2000, 2000, fun _ => .error⟩,
  ⟨(.error, 0), (.ok, 0), 3000, 3000, allOk⟩]

/-- A reading that repeats the status. -/
def dry : Reading := ⟨(.ok, 460), (.ok, 3), 5500, 5500, allOk⟩

theorem follows_readings_drying : ∃ s s' : AnalogSensor,
    Run Step (.new ⟨100, 500, by decide⟩ (.new 1000 (fun _ => none) allOk)) drying s ∧
      s.run dry = some (.ok, s') ∧ s'.data.currStatus = .dry ∧ s'.data.currStatusDuration = 3 ∧
      s'.data.prevStatus = .saturated ∧ s'.data.prevStatusDuration = 1 := by
  have run : Run Step (.new ⟨100, 500, by decide⟩ (.new 1000 (fun _ => none) allOk)) drying _ :=
    ((Run.start.next ⟨_, rfl⟩).next ⟨_, rfl⟩).next ⟨_, rfl⟩
  have clock : Clock (drying ++ [dry]) := ⟨by decide, by decide, by decide⟩
  obtain ⟨published, _, _⟩ := follows_readings run clock rfl
  obtain ⟨status, _, duration, prev, prevDuration⟩ := published rfl
  exact ⟨_, _, run, rfl, status, duration, prev, prevDuration⟩

end OcsComponents.Sensor.Soil
