import OcsComponents.Sensor.Soil.StatusHistory

/-!
# Statuses that do not exist

A block starts from the states of the storage, whatever they are, and the condition by which
`parse_status` replaces a state without a status is never true. The first good reading puts its
own status into the block; the restored states can be published up to then, and after it as the
previous one.
-/

namespace OcsComponents.Sensor.Soil
open Status Transition OcsComponents.Control

/-- A status before `Last`. -/
def SoilStatus.Exists (status : SoilStatus) : Prop := status ∈ [none, saturated, wet, depletion, dry, error]

instance (status : SoilStatus) : Decidable status.Exists := inferInstanceAs (Decidable (_ ∈ _))

/-- A state that is a status before `Last`. -/
abbrev Ranged (state : State) : Prop := state < SoilStatus.last.toState

/-- What is to be published: no other statuses, and `None` for a state without one. -/
structure Published (s : AnalogSensor) : Prop where
  prev : s.data.prevStatus.Exists
  curr : s.data.currStatus.Exists
  prev_none : ¬ Ranged s.block.prevState → s.data.prevStatus = .none
  curr_none : ¬ Ranged s.block.currState → s.data.currStatus = .none

/-- The range check has no effect. -/
theorem parseStatus_eq (state : State) : parseStatus state = .ofState state :=
  if_neg fun both => Nat.not_lt_zero _ both.1

theorem exists_ofState_iff (state : State) : (SoilStatus.ofState state).Exists ↔ Ranged state := by
  have range : Ranged state ↔ state.toNat < 6 := Iff.rfl
  rw [range]
  unfold SoilStatus.ofState SoilStatus.Exists
  split <;> simp_all
  omega

theorem exists_parseStatus_iff (state : State) : (parseStatus state).Exists ↔ Ranged state := by
  rw [parseStatus_eq, exists_ofState_iff]

theorem ranged_calculateStatus (p : Params) (raw : BitVec 32) : Ranged (p.calculateStatus raw).toState := by
  unfold Params.calculateStatus
  dsimp only
  repeat' split
  all_goals decide

/-- The states after a good reading of a status. -/
theorem advance_states (b : FsmBlock) {status : SoilStatus} (some : status.toState ≠ 0) (r : Reading) :
    (AnalogSensor.advance b status r).currState = status.toState ∧
      (AnalogSensor.advance b status r).prevState =
        if b.currState = status.toState then b.prevState else b.currState := by
  have moves : ((b.update r.updated).setNext status.toState).isInTransit = (b.currState != status.toState) := by
    have next : (status.toState != 0) = true := bne_iff_ne.mpr some
    rw [FsmBlock.isInTransit]
    exact (congrArg (· && _) next).trans (Bool.true_and _)
  rw [AnalogSensor.advance, moves]
  by_cases same : b.currState = status.toState
  · rw [if_pos same, if_neg (by simp [same])]
    exact ⟨same, rfl⟩
  · rw [if_neg same, if_pos (bne_iff_ne.mpr same)]
    have states := FsmBlock.transit_states ((b.update r.updated).setNext status.toState) r.moved r.io
    exact ⟨states.2.1, states.1⟩

/-- What a good reading publishes exists if what it finds in the block as the previous state, or
moves there, is in range. -/
theorem published_step_iff {s s' : AnalogSensor} {r : Reading} (step : Step s r s') (good : r.Good) :
    (Published s' ↔ Ranged s'.block.prevState) ∧ Ranged s'.block.currState ∧
      s'.block.prevState =
        if s.block.currState = (s.params.calculateStatus r.read.2).toState then s.block.prevState
        else s.block.currState := by
  obtain ⟨code, ran⟩ := step
  rcases run_cases ran with ⟨bad, _⟩ | ⟨_, _, _, block, prev, curr, _⟩
  · exact absurd good bad
  · have states := advance_states s.block (calculate_ne_zero s.params r.read.2) r
    rw [← block] at states
    have ranged : Ranged s'.block.currState := by
      rw [states.1]
      exact ranged_calculateStatus s.params r.read.2
    refine ⟨⟨?_, fun inRange => ⟨?_, ?_, absurd inRange, absurd ranged⟩⟩, ranged, states.2⟩
    · intro published
      rw [← exists_parseStatus_iff, ← prev]
      exact published.prev
    · rw [prev, exists_parseStatus_iff]
      exact inRange
    · rw [curr, exists_parseStatus_iff]
      exact ranged

theorem step_bad {s s' : AnalogSensor} {r : Reading} (step : Step s r s') (bad : ¬ r.Good) : s' = s := by
  obtain ⟨code, ran⟩ := step
  rcases run_cases ran with ⟨_, _, same⟩ | ⟨good, _⟩
  · exact same
  · exact absurd good bad

/-! ## Over a run -/

/-- The status of the first good reading. -/
def firstStatus (p : Params) : List Reading → Option SoilStatus
  | [] => none
  | r :: tr => if r.Good then some (p.calculateStatus r.read.2) else firstStatus p tr

theorem firstStatus_append (p : Params) (tr tr' : List Reading) :
    firstStatus p (tr ++ tr') = (firstStatus p tr).or (firstStatus p tr') := by
  induction tr with
  | nil => rfl
  | cons r tr ih =>
    rw [List.cons_append, firstStatus, firstStatus, ih]
    split <;> rfl

theorem firstStatus_split {p : Params} {tr : List Reading} {status : SoilStatus}
    (first : firstStatus p tr = some status) :
    ∃ before r after, tr = before ++ r :: after ∧ firstStatus p before = none ∧ r.Good ∧
      p.calculateStatus r.read.2 = status := by
  induction tr with
  | nil => cases first
  | cons r tr ih =>
    rw [firstStatus] at first
    split at first
    · next good => exact ⟨[], r, tr, rfl, rfl, good, Option.some.inj first⟩
    · next bad =>
      obtain ⟨before, r', after, rfl, nothing, found⟩ := ih first
      refine ⟨r :: before, r', after, rfl, ?_, found⟩
      rw [firstStatus, if_neg bad, nothing]

/-- The states with which a sensor starts are no harm to a run whose first status is this one. -/
def Harmless (b : FsmBlock) : Option SoilStatus → Prop
  | none => True
  | some status => Ranged b.currState ∧ (b.currState = status.toState → Ranged b.prevState)

instance (b : FsmBlock) (first : Option SoilStatus) : Decidable (Harmless b first) := by
  cases first <;> unfold Harmless <;> infer_instance

section
variable {p : Params} {b : FsmBlock} {tr : List Reading} {s : AnalogSensor}

/-- Before a good reading nothing happens. -/
theorem run_before (run : Run Step (.new p b) tr s) (before : firstStatus p tr = none) : s = .new p b := by
  induction run with
  | start => rfl
  | @next tr s s' r _ last ih =>
    rw [firstStatus_append, Option.or_eq_none_iff] at before
    have bad : ¬ r.Good := by
      intro good
      rw [firstStatus, if_pos good] at before
      exact absurd before.2 (Option.some_ne_none _)
    rw [step_bad last bad, ih before.1]

theorem run_params (run : Run Step (.new p b) tr s) : s.params = p := by
  induction run with
  | start => rfl
  | next _ last ih =>
    obtain ⟨code, ran⟩ := last
    rcases run_cases ran with ⟨_, _, rfl⟩ | ⟨_, _, same, _⟩
    · exact ih
    · exact same.trans ih

/-- After one the states are in range, if those at the start were no harm. -/
theorem run_after (run : Run Step (.new p b) tr s) {status : SoilStatus} (first : firstStatus p tr = some status)
    (harmless : Harmless b (some status)) :
    Ranged s.block.prevState ∧ Ranged s.block.currState ∧ Published s := by
  induction run with
  | start => cases first
  | @next tr s s' r before last ih =>
    rw [firstStatus_append, firstStatus] at first
    by_cases good : r.Good
    · obtain ⟨iff, ranged, prev⟩ := published_step_iff last good
      rw [run_params before] at prev
      suffices kept : Ranged s'.block.prevState from ⟨kept, ranged, iff.mpr kept⟩
      cases earlier : firstStatus p tr with
      | none =>
        rw [earlier, if_pos good, Option.none_or, Option.some.injEq] at first
        rw [run_before before earlier, first] at prev
        rw [prev]
        split
        · next same => exact harmless.2 same
        · exact harmless.1
      | some status' =>
        rw [earlier, Option.some_or] at first
        obtain ⟨prevRanged, currRanged, _⟩ := ih (earlier.trans first)
        rw [prev]
        split
        · exact prevRanged
        · exact currRanged
    · rw [if_neg good, firstStatus, Option.or_none] at first
      rw [step_bad last good]
      exact ih first

theorem published_new (p : Params) (b : FsmBlock) : Published (.new p b) where
  prev := List.mem_cons_self
  curr := List.mem_cons_self
  prev_none _ := rfl
  curr_none _ := rfl

/-- **Only existing statuses are published in a run exactly if** it has no good reading, or the
block starts in a state in range, and its previous state is in range too if the first good reading
is of the state it starts in. -/
theorem published_statuses_iff (run : Run Step (.new p b) tr s) :
    (∀ tr' s', tr' <+: tr → Run Step (.new p b) tr' s' → Published s') ↔ Harmless b (firstStatus p tr) := by
  constructor
  · intro all
    cases first : firstStatus p tr with
    | none => trivial
    | some status =>
      -- the first good reading, of a sensor that did not change since its start
      obtain ⟨before, r, after, rfl, nothing, good, rfl⟩ := firstStatus_split first
      obtain ⟨s₁, restored, rest⟩ := run.split
      obtain ⟨s₂, step, _⟩ := rest.uncons
      obtain ⟨iff, _, prev⟩ := published_step_iff step good
      have ranged :
          Ranged (if b.currState = (p.calculateStatus r.read.2).toState then b.prevState else b.currState) := by
        have kept := iff.mp (all (before ++ [r]) s₂ ⟨after, by simp⟩ (restored.next step))
        rwa [prev, run_before restored nothing] at kept
      by_cases same : b.currState = (p.calculateStatus r.read.2).toState
      · rw [if_pos same] at ranged
        exact ⟨same ▸ ranged_calculateStatus p r.read.2, fun _ => ranged⟩
      · rw [if_neg same] at ranged
        exact ⟨ranged, fun equal => absurd equal same⟩
  · rintro harmless tr' s' ⟨rest, rfl⟩ run'
    cases first : firstStatus p tr' with
    | none =>
      rw [run_before run' first]
      exact published_new p b
    | some status =>
      have same : firstStatus p (tr' ++ rest) = some status := by
        rw [firstStatus_append, first, Option.some_or]
      rw [same] at harmless
      exact (run_after run' first harmless).2.2

end

/-- A record with a state of its own. -/
def persisted (state : State) : Storage
  | .writeCount => some 1
  | .prevState => some 0
  | .prevStateDur => some 0
  | .currState => some state
  | .currStateDur => some 0

/-- The soil is dry again after a reboot. -/
theorem published_statuses_iff_dry :
    (∀ tr' s', tr' <+: [dry] →
        Run Step (.new ⟨100, 500, by decide⟩ (.new 1000 (persisted 2) allOk)) tr' s' → Published s') ↔
      Harmless (.new 1000 (persisted 2) allOk) (firstStatus ⟨100, 500, by decide⟩ [dry]) :=
  published_statuses_iff (.single ⟨_, rfl⟩)

/-- A state that is no status. -/
theorem not_published : ∃ s,
    Run Step (.new ⟨100, 500, by decide⟩ (.new 1000 (persisted 9999) allOk)) [dry] s ∧
      s.data.prevStatus = .unnamed 9999 ∧ ¬ Published s :=
  ⟨_, .single ⟨_, rfl⟩, rfl, fun published => absurd published.prev (by decide)⟩

end OcsComponents.Sensor.Soil
