import OcsComponents.Diagnostic.PersistentCounter

/-!
# What persistent counters account for

The ledger of a history knows nothing of storage: for every past session it has what the
wrapped counter was when the session last saved, if it did. Over a storage without faults
the accumulating counter is the total of the ledger, and the other one the total since the
last session that did not save, each with the wrapped counter's value now.
-/

namespace OcsComponents.Diagnostic
open Status Transition OcsComponents.Storage

/-- The past sessions, oldest first, and the session at hand. -/
structure Ledger where
  past : List (Option Value)
  saved : Option Value
  counter : Value
  deriving DecidableEq

namespace Ledger

/-- An event is entered. -/
def enter (g : Ledger) : Label → Ledger
  | .boot counter _ _ => { g with saved := none, counter := counter }
  | .count counter => { g with counter := counter }
  | .run _ => { g with saved := some g.counter }
  | .handleReboot _ => { g with past := g.past ++ [some g.counter], saved := none }
  | .powerCut => { g with past := g.past ++ [g.saved], saved := none }

/-- The ledger of a history. -/
def of (tr : List Label) : Ledger := tr.foldl enter ⟨[], none, 0⟩

theorem of_snoc (tr : List Label) (l : Label) : of (tr ++ [l]) = (of tr).enter l := by
  simp [of, List.foldl_append]

/-- The sum of what the sessions saved, where one that never saved counts for 0. -/
def total (sessions : List (Option Value)) : Value := sessions.foldl (fun sum saved => sum + saved.getD 0) 0

@[simp] theorem total_snoc (sessions : List (Option Value)) (saved : Option Value) :
    total (sessions ++ [saved]) = total sessions + saved.getD 0 := by
  simp [total, List.foldl_append]

/-- The sessions after the last one that never saved. -/
def recent (sessions : List (Option Value)) : List (Option Value) :=
  (sessions.reverse.takeWhile Option.isSome).reverse

@[simp] theorem recent_saved (sessions : List (Option Value)) (v : Value) :
    recent (sessions ++ [some v]) = recent sessions ++ [some v] := by
  simp [recent]

@[simp] theorem recent_unsaved (sessions : List (Option Value)) : recent (sessions ++ [none]) = [] := by
  simp [recent]

/-- What a kind of counter remembers of the past. -/
def remembered : Kind → List (Option Value) → Value
  | .acc, past => total past
  | .mem, past => total (recent past)

theorem remembered_saved (k : Kind) (past : List (Option Value)) (v : Value) :
    remembered k (past ++ [some v]) = remembered k past + v := by
  cases k <;> simp [remembered]

end Ledger

/-- No operation of the storage fails. -/
def Label.FaultFree : Label → Prop
  | .boot _ readFault eraseFault => readFault = none ∧ eraseFault = none
  | .run fault => fault = none
  | .handleReboot fault => fault = none
  | _ => True

/-- The record of a session that has not saved: it is still what is remembered or, where that is
lost at a power cut, erased. -/
def Kind.Unsaved (record : Option Value) (remembered : Value) : Kind → Prop
  | .acc => record.getD 0 = remembered
  | .mem => record = none

namespace Device

/-- The record agrees with a ledger, between sessions and in one that has saved or not. -/
structure Booked (k : Kind) (id : String) (g : Ledger) (d : Device) : Prop where
  between : d.session = none → (d.storage id).getD 0 = Ledger.remembered k g.past
  object : ∀ s, d.session = some s → s.object = ⟨id, Ledger.remembered k g.past⟩ ∧ s.counter = g.counter
  saved : ∀ s v, d.session = some s → g.saved = some v → d.storage id = some (Ledger.remembered k g.past + v)
  unsaved : ∀ s, d.session = some s → g.saved = none → k.Unsaved (d.storage id) (Ledger.remembered k g.past)

section
variable {k : Kind} {id : String} {g : Ledger} {d d' : Device} {s : Session}

/-- An object that boots has read what is remembered. -/
theorem Booked.object_new (h : Booked k id g d) (off : d.session = none) :
    (k.new d.storage none none id).1 = ⟨id, Ledger.remembered k g.past⟩ := by
  have record := h.between off
  cases k <;> simpa [Kind.new, MemPersistentCounter.new, BasicPersistentCounter.new] using record

/-- A save records what is remembered and the wrapped counter's value. -/
theorem Booked.save (h : Booked k id g d) (on : d.session = some s) :
    (k.save s.object s.counter d.storage none).2 id = some (Ledger.remembered k g.past + g.counter) := by
  obtain ⟨same, counter⟩ := h.object s on
  simp [Kind.save, Kind.get_eq, same, counter]

/-- A session that is cut off leaves what the ledger remembers with it. -/
theorem Booked.cut (h : Booked k id g d) (on : d.session = some s) :
    (d.storage id).getD 0 = Ledger.remembered k (g.past ++ [g.saved]) := by
  cases saved : g.saved with
  | some v => simp [h.saved s v on saved, Ledger.remembered_saved]
  | none =>
    have record := h.unsaved s on saved
    cases k with
    | acc =>
      have kept : (d.storage id).getD 0 = Ledger.total g.past := record
      simpa [Ledger.remembered] using kept
    | mem =>
      have erased : d.storage id = none := record
      simp [erased, Ledger.remembered, Ledger.total]

/-- **One event**: without faults, the record goes on agreeing with the ledger. -/
theorem Booked.step {l : Label} (h : Booked k id g d) (sound : l.FaultFree) (step : Step k id d l d') :
    Booked k id (g.enter l) d' := by
  cases l with
  | boot counter readFault eraseFault =>
    obtain ⟨rfl, rfl⟩ := sound
    obtain ⟨off, rfl⟩ := boots step
    have record := h.between off
    refine ⟨nofun, ?_, nofun, ?_⟩
    · rintro _ ⟨⟩
      exact ⟨h.object_new off, rfl⟩
    · rintro _ ⟨⟩ -
      cases k with
      | acc => exact record
      | mem => exact Storage.erase_sound _ _
  | count counter =>
    obtain ⟨s, on, rfl⟩ := Option.map_eq_some_iff.mp step
    refine ⟨nofun, ?_, ?_, ?_⟩
    · rintro _ ⟨⟩
      exact ⟨(h.object s on).1, rfl⟩
    · rintro _ v ⟨⟩ saved
      exact h.saved s v on saved
    · rintro _ ⟨⟩ unsaved
      exact h.unsaved s on unsaved
  | run fault =>
    cases sound
    obtain ⟨s, on, rfl⟩ := Option.map_eq_some_iff.mp step
    refine ⟨fun off => ?_, fun s' on' => h.object s' on', ?_, nofun⟩
    · cases on.symm.trans off
    · rintro _ _ - ⟨⟩
      exact h.save on
  | handleReboot fault =>
    cases sound
    obtain ⟨s, on, rfl⟩ := Option.map_eq_some_iff.mp step
    refine ⟨fun _ => ?_, nofun, nofun, nofun⟩
    exact (congrArg (·.getD 0) (h.save on)).trans (Ledger.remembered_saved k g.past g.counter).symm
  | powerCut =>
    obtain ⟨s, on, rfl⟩ := Option.map_eq_some_iff.mp step
    exact ⟨fun _ => h.cut on, nofun, nofun, nofun⟩

/-- **Every history**: without faults, the record agrees with the ledger of the history. -/
theorem Booked.run {st : Storage Value} {tr : List Label} (empty : st id = none) (h : Run (Step k id) (off st) tr d)
    (sound : ∀ l ∈ tr, l.FaultFree) : Booked k id (Ledger.of tr) d := by
  refine h.invariant Label.FaultFree (fun tr d => Booked k id (Ledger.of tr) d) ?_ ?_ sound
  · refine ⟨fun _ => ?_, nofun, nofun, nofun⟩
    cases k <;> simp [off, empty, Ledger.of, Ledger.remembered, Ledger.total, Ledger.recent]
  · intro tr d l d' booked sound step
    rw [Ledger.of_snoc]
    exact booked.step sound step

theorem Booked.get (h : Booked k id g d) (on : d.session = some s) :
    k.get s.object s.counter = Ledger.remembered k g.past + s.counter := by
  rw [Kind.get_eq, (h.object s on).1]

end

/-- **Every session counts exactly once**: the accumulating counter is what all past sessions saved
and the value now; the other one what the sessions since the last that never saved did. -/
theorem sessions_accounted (id : String) (st : Storage Value) (empty : st id = none) (tr : List Label)
    (sound : ∀ l ∈ tr, l.FaultFree) :
    (∀ d s, Run (Step .acc id) (off st) tr d → d.session = some s →
      AccPersistentCounter.get s.object s.counter = Ledger.total (Ledger.of tr).past + s.counter) ∧
    ∀ d s, Run (Step .mem id) (off st) tr d → d.session = some s →
      MemPersistentCounter.get s.object s.counter = Ledger.total (Ledger.recent (Ledger.of tr).past) + s.counter :=
  ⟨fun _ _ h on => (Booked.run (k := .acc) empty h sound).get on,
    fun _ _ h on => (Booked.run (k := .mem) empty h sound).get on⟩

/-- Sessions that reboot at 3, are cut off before a save at 2 and after one at 4, and a session at 1. -/
def history : List Label :=
  [.boot 0 none none, .count 3, .handleReboot none, .boot 0 none none, .count 2, .powerCut,
    .boot 0 none none, .count 4, .run none, .count 9, .powerCut, .boot 0 none none, .count 1]

theorem sessions_accounted_history :
    (∃ d s, Run (Step .acc "c") (off fun _ => none) history d ∧ d.session = some s ∧
      AccPersistentCounter.get s.object s.counter = 8) ∧
    ∃ d s, Run (Step .mem "c") (off fun _ => none) history d ∧ d.session = some s ∧
      MemPersistentCounter.get s.object s.counter = 5 := by
  have sound : ∀ l ∈ history, l.FaultFree := by simp [history, Label.FaultFree]
  have accounted := sessions_accounted "c" (fun _ => none) rfl history sound
  have runs (k : Kind) : ∃ d, Run (Step k "c") (off fun _ => none) history d ∧ d.session.map (·.counter) = some 1 :=
    Run.exists_of_exec (exec k "c") id history (off fun _ => none) _ (by cases k <;> decide +kernel)
  constructor
  · obtain ⟨d, run, counts⟩ := runs .acc
    obtain ⟨s, on, one⟩ := Option.map_eq_some_iff.mp counts
    refine ⟨d, s, run, on, (accounted.1 d s run on).trans ?_⟩
    rw [one]
    decide
  · obtain ⟨d, run, counts⟩ := runs .mem
    obtain ⟨s, on, one⟩ := Option.map_eq_some_iff.mp counts
    refine ⟨d, s, run, on, (accounted.2 d s run on).trans ?_⟩
    rw [one]
    decide

end Device

end OcsComponents.Diagnostic
