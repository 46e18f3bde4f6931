import Mathlib.Algebra.Group.Nat.Defs
import OcsComponents.Diagnostic.PersistentCounter

/-!
# What the lifetime counter keeps

The accumulating counter over a storage that may fail at every operation, where what it wraps
only grows within a session and no sum overflows. A session that has read its record has it in
its sum. One that could not read it, which the constructor only logs, saves without it.
-/

namespace OcsComponents.Diagnostic
open Status Transition OcsComponents.Storage

namespace Device

/-- The wrapped counter only grows within a session, and what is saved does not overflow. -/
def Legal (d : Device) : Label → Prop
  | .count counter => ∀ s, d.session = some s → s.counter ≤ counter
  | .run _ | .handleReboot _ => ∀ s, d.session = some s → s.object.value.toNat + s.counter.toNat < 2 ^ 64
  | _ => True

instance (d : Device) (l : Label) : Decidable (d.Legal l) :=
  match l with
  | .count counter => inferInstanceAs (Decidable (∀ s ∈ d.session, s.counter ≤ counter))
  | .run _ | .handleReboot _ =>
    inferInstanceAs (Decidable (∀ s ∈ d.session, s.object.value.toNat + s.counter.toNat < 2 ^ 64))
  | .boot .. | .powerCut => inferInstanceAs (Decidable True)

abbrev LegalStep (id : String) (d : Device) (l : Label) (d' : Device) : Prop := Step .acc id d l d' ∧ d.Legal l

theorem legalStep_functional (id : String) (d : Device) (l : Label) (d' d'' : Device) (h : LegalStep id d l d')
    (h' : LegalStep id d l d'') : d' = d'' :=
  step_functional _ _ _ _ _ _ h.1 h'.1

/-- A record is kept, and has not decreased. -/
def Keeps (id : String) (d d' : Device) : Prop :=
  ∀ a, d.storage id = some a → ∃ b, d'.storage id = some b ∧ a ≤ b

theorem Keeps.refl (id : String) (d : Device) : Keeps id d d := fun a record => ⟨a, record, BitVec.le_refl a⟩

theorem Keeps.trans {id : String} {d d' d'' : Device} (h : Keeps id d d') (h' : Keeps id d' d'') : Keeps id d d'' := by
  intro a record
  obtain ⟨b, record', le⟩ := h a record
  obtain ⟨c, record'', le'⟩ := h' b record'
  exact ⟨c, record'', BitVec.le_trans le le'⟩

/-- A save of a session that could not read its record finds no larger one. -/
def Covered (id : String) (d : Device) : Label → Prop
  | .run none | .handleReboot none =>
    ∀ s, d.session = some s → s.unread = true → ∀ a, d.storage id = some a → a ≤ s.counter
  | _ => True

instance (id : String) (d : Device) (l : Label) : Decidable (d.Covered id l) :=
  match l with
  | .run none | .handleReboot none =>
    -- and not by all 64-bit values
    have (s : Session) : Decidable (∀ a ∈ d.storage id, a ≤ s.counter) := Option.decidableForallMem _
    inferInstanceAs (Decidable (∀ s ∈ d.session, s.unread = true → ∀ a ∈ d.storage id, a ≤ s.counter))
  | .run (some _) | .handleReboot (some _) | .boot .. | .count _ | .powerCut => inferInstanceAs (Decidable True)

/-- The object of a session sums its record in, unless it could not read it. -/
structure Sums (id : String) (st : Storage Value) (s : Session) : Prop where
  key : s.object.id = id
  unread : s.unread = true → s.object.value = 0
  read : s.unread = false → ∀ a, st id = some a → a.toNat ≤ s.object.value.toNat + s.counter.toNat

/-- A save that does not overflow records the sum. -/
theorem Sums.save {id : String} {st : Storage Value} {s : Session} (h : Sums id st s)
    (small : s.object.value.toNat + s.counter.toNat < 2 ^ 64) :
    ∃ b, (Kind.save .acc s.object s.counter st none).2 id = some b ∧
      b.toNat = s.object.value.toNat + s.counter.toNat := by
  refine ⟨s.object.value + s.counter, ?_, ?_⟩
  · simp [Kind.save, Kind.get_eq, h.key]
  · exact BitVec.toNat_add_of_lt small

/-- The record is not decreased by a save exactly when it was read, or is not larger than what is counted. -/
theorem Sums.save_keeps_iff {id : String} {d : Device} {s : Session} (h : Sums id d.storage s) (on : d.session = some s)
    (small : s.object.value.toNat + s.counter.toNat < 2 ^ 64) (session : Option Session) :
    Keeps id d ⟨(Kind.save .acc s.object s.counter d.storage none).2, session⟩ ↔ d.Covered id (.run none) := by
  obtain ⟨b, saved, sum⟩ := h.save small
  constructor
  · intro keeps s' on' unread a record
    cases on.symm.trans on'
    obtain ⟨b', saved', le⟩ := keeps a record
    cases saved.symm.trans saved'
    simpa [BitVec.le_def, sum, h.unread unread] using le
  · intro covered a record
    refine ⟨b, saved, ?_⟩
    rw [BitVec.le_def, sum]
    cases unread : s.unread with
    | false => exact h.read unread a record
    | true => exact Nat.le_add_left_of_le (BitVec.le_def.mp (covered s on unread a record))

/-- In a session, the object sums its record in. -/
def Summing (id : String) (d : Device) : Prop := ∀ s, d.session = some s → Sums id d.storage s

/-- **One event**: the record is not decreased exactly when the event is covered. -/
theorem keeps_iff (id : String) (d : Device) (l : Label) (d' : Device) (sums : Summing id d) (step : LegalStep id d l d') :
    (Keeps id d d' ↔ d.Covered id l) ∧ (d.Covered id l → Summing id d') := by
  obtain ⟨step, legal⟩ := step
  cases l with
  | boot counter readFault eraseFault =>
    obtain ⟨-, rfl⟩ := boots step
    refine ⟨iff_of_true (Keeps.refl id d) trivial, ?_⟩
    rintro - _ ⟨⟩
    cases readFault with
    | some f => exact ⟨rfl, fun _ => rfl, nofun⟩
    | none =>
      refine ⟨rfl, nofun, fun _ a record => ?_⟩
      simp [Kind.new, BasicPersistentCounter.new, show d.storage id = some a from record]
  | count counter =>
    obtain ⟨s, on, rfl⟩ := Option.map_eq_some_iff.mp step
    refine ⟨iff_of_true (Keeps.refl id d) trivial, ?_⟩
    rintro - _ ⟨⟩
    have before := sums s on
    have grows : s.counter.toNat ≤ counter.toNat := BitVec.le_def.mp (legal s on)
    refine ⟨before.key, before.unread, fun read a record => ?_⟩
    exact Nat.le_trans (before.read read a record) (Nat.add_le_add_left grows _)
  | run fault =>
    obtain ⟨s, on, rfl⟩ := Option.map_eq_some_iff.mp step
    have before := sums s on
    cases fault with
    | some f => exact ⟨iff_of_true (Keeps.refl id d) trivial, fun _ => sums⟩
    | none =>
      refine ⟨before.save_keeps_iff on (legal s on) _, ?_⟩
      intro _ s' on'
      cases on.symm.trans on'
      obtain ⟨b, saved, sum⟩ := before.save (legal s on)
      refine ⟨before.key, before.unread, fun _ a record => ?_⟩
      cases saved.symm.trans record
      exact Nat.le_of_eq sum
  | handleReboot fault =>
    obtain ⟨s, on, rfl⟩ := Option.map_eq_some_iff.mp step
    cases fault with
    | some f => exact ⟨iff_of_true (Keeps.refl id d) trivial, fun _ => nofun⟩
    | none => exact ⟨(sums s on).save_keeps_iff on (legal s on) _, fun _ => nofun⟩
  | powerCut =>
    obtain ⟨s, on, rfl⟩ := Option.map_eq_some_iff.mp step
    exact ⟨iff_of_true (Keeps.refl id d) trivial, fun _ => nofun⟩

/-- **The record never decreases** between two moments of a run exactly when no session that could not
read it saves less. -/
theorem lifetime_kept_iff {id : String} {st : Storage Value} {tr : List Label} {d : Device}
    (h : Run (LegalStep id) (off st) tr d) :
    (∀ tr₁ tr₂ d₁ d₂, tr₁ <+: tr₂ → tr₂ <+: tr → Run (LegalStep id) (off st) tr₁ d₁ →
      Run (LegalStep id) (off st) tr₂ d₂ → Keeps id d₁ d₂) ↔
    ∀ tr' l d', tr' ++ [l] <+: tr → Run (LegalStep id) (off st) tr' d' → d'.Covered id l :=
  (Run.every_pair_iff (legalStep_functional id) (Keeps.refl id) (fun _ _ _ => Keeps.trans) (off st) tr).trans
    (h.every_step_iff (legalStep_functional id) (Summing id) (fun d _ d' => Keeps id d d') (Covered id)
      (fun _ none => by cases none) (keeps_iff id))

def execLegal (id : String) (d : Device) (l : Label) : Option Device := if d.Legal l then d.exec .acc id l else none

theorem execLegal_sound {id : String} {d d' : Device} {l : Label} (h : d.execLegal id l = some d') :
    LegalStep id d l d' := by
  obtain ⟨legal, step⟩ := Option.ite_none_right_eq_some.mp h
  exact ⟨step, legal⟩

def execCovered (id : String) (d : Device) (l : Label) : Option Device :=
  if d.Covered id l then d.execLegal id l else none

theorem execCovered_sound {id : String} {d d' : Device} {l : Label} (h : d.execCovered id l = some d') :
    LegalStep id d l d' ∧ d.Covered id l := by
  obtain ⟨covered, step⟩ := Option.ite_none_right_eq_some.mp h
  exact ⟨execLegal_sound step, covered⟩

/-- A session that could not read saves when it has counted more. -/
def unreadCounts : List Label :=
  [.boot 0 none none, .count 5, .handleReboot none, .boot 0 (some .error) none, .count 7, .run none]

theorem lifetime_kept_unreadCounts : ∃ d, Run (LegalStep "c") (off fun _ => none) unreadCounts d ∧
    d.storage "c" = some 7 ∧
    ∀ tr₁ tr₂ d₁ d₂, tr₁ <+: tr₂ → tr₂ <+: unreadCounts → Run (LegalStep "c") (off fun _ => none) tr₁ d₁ →
      Run (LegalStep "c") (off fun _ => none) tr₂ d₂ → Keeps "c" d₁ d₂ := by
  obtain ⟨d, run, record⟩ := Run.exists_of_exec (execCovered "c") execCovered_sound unreadCounts (off fun _ => none)
    (fun d => d.storage "c" = some 7) (by decide +kernel)
  have plain := run.mono And.left
  exact ⟨d, plain, record, (lifetime_kept_iff plain).mpr (run.covered (legalStep_functional "c"))⟩

/-- A session stores 5; the next one cannot read it. -/
def unreadRecord : List Label :=
  [.boot 0 none none, .count 5, .run none, .powerCut, .boot 0 (some .error) none, .count 2]

/-- Its save takes the record from 5 to 2. -/
theorem unread_record_lost : ∃ d₁ d₂, Run (LegalStep "c") (off fun _ => none) unreadRecord d₁ ∧
    Run (LegalStep "c") (off fun _ => none) (unreadRecord ++ [.run none]) d₂ ∧
    d₁.storage "c" = some 5 ∧ d₂.storage "c" = some 2 ∧ ¬ Keeps "c" d₁ d₂ := by
  obtain ⟨d₁, run₁, five⟩ := Run.exists_of_exec (execLegal "c") execLegal_sound unreadRecord (off fun _ => none)
    (fun d => d.storage "c" = some 5) (by decide +kernel)
  obtain ⟨d₂, run₂, two⟩ := Run.exists_of_exec (execLegal "c") execLegal_sound (unreadRecord ++ [.run none])
    (off fun _ => none) (fun d => d.storage "c" = some 2) (by decide +kernel)
  refine ⟨d₁, d₂, run₁, run₂, five, two, fun keeps => ?_⟩
  obtain ⟨b, record, le⟩ := keeps 5 five
  cases two.symm.trans record
  exact absurd le (by decide)

end Device

end OcsComponents.Diagnostic
