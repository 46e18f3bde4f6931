import OcsComponents.Lib.Transition
import OcsComponents.OneWire.Search

/-!
# The ROM search on a line that answers anything

The bus is a stream of answers, one for each slot: noise, errors, devices that come and go. What
a call does to the scanner depends on the conflicts it is answered. As long as none
meets an assertion, the conflicts that would (`Trips`) are the same after it as before, among
those to come; so whether a call stops the program is read off its answers
and the scanner it begins with.
-/

namespace OcsComponents.OneWire
open Status Transition

/-- The status of every slot to come, with the bit it reads if it is a read slot. -/
abbrev Answers := Nat → StatusCode × Bool

namespace Answers

/-- What comes after `n` slots. -/
def drop (n : Nat) (a : Answers) : Answers := fun i => a (n + i)

theorem drop_drop (a : Answers) (n m : Nat) : (a.drop n).drop m = a.drop (n + m) := by
  funext i
  simp [drop, Nat.add_assoc]

/-- The bus that answers so. -/
def bus : Bus Answers where
  reset a := ((a 0).1, a.drop 1)
  writeBit _ a := ((a 0).1, a.drop 1)
  readBit a := (a 0, a.drop 1)

/-- The two read slots of an iteration find a conflict. -/
def Conflicts (a : Answers) : Prop := a 0 = (.ok, false) ∧ a 1 = (.ok, false)

/-- The three slots of an iteration let the loop go on. -/
def GoesOn (a : Answers) : Prop :=
  (a 0).1 = .ok ∧ (a 1).1 = .ok ∧ ((a 0).2 && (a 1).2) = false ∧ (a 2).1 = .ok

/-- The loop gets to the iteration `k` and finds a conflict there. -/
def ConflictAt : Nat → Answers → Prop
  | 0, a => a.Conflicts
  | k + 1, a => a.GoesOn ∧ ConflictAt k (a.drop 3)

end Answers

open Answers

/-! ## The command -/

theorem writeBits_answers (n : Nat) (byte : BitVec 8) (a : Answers) :
    (∀ i < n, (a i).1 = .ok) ∧ Answers.bus.writeBits n byte a = (.ok, a.drop n) ∨
      (¬ ∀ i < n, (a i).1 = .ok) ∧ (Answers.bus.writeBits n byte a).1 ≠ .ok := by
  induction n generalizing byte a with
  | zero =>
    have nothing : a.drop 0 = a := by
      funext i
      simp [Answers.drop]
    exact Or.inl ⟨fun i none => absurd none (Nat.not_lt_zero i), by rw [nothing]; rfl⟩
  | succ n ih =>
    have write : Answers.bus.writeBits (n + 1) byte a =
        returnOnError ((a 0).1, a.drop 1) (Answers.bus.writeBits n (byte >>> 1)) := rfl
    by_cases ok : (a 0).1 = .ok
    · rw [write, ok, returnOnError_ok]
      have all : (∀ i < n + 1, (a i).1 = .ok) ↔ ∀ i < n, (a.drop 1 i).1 = .ok := by
        constructor
        · intro every i inside
          exact every (1 + i) (by omega)
        · intro every i inside
          cases i with
          | zero => exact ok
          | succ i => simpa [Answers.drop, Nat.add_comm] using every i (by omega)
      rw [all, Nat.add_comm n 1, ← Answers.drop_drop]
      exact ih (byte >>> 1) (a.drop 1)
    · rw [write, returnOnError_fail _ _ ok]
      exact Or.inr ⟨fun every => ok (every 0 (Nat.succ_pos n)), ok⟩

/-! ## One iteration -/

/-- What an iteration makes of the scanner. -/
def Chosen (a : Answers) (sc : RomCodeScanner) (buf : RomCode) (n : Nat) (sc' : RomCodeScanner) : Prop :=
  ¬ a.Conflicts ∧ sc' = sc ∨ a.Conflicts ∧ ∃ b, sc.handleDiscrepancy buf n = .ok (sc', b)

/-- The end of an iteration does not touch the scanner. -/
theorem putBit_cases (n : Nat) (bit : Bool) (sc : RomCodeScanner) (buf : RomCode) (a : Answers) :
    (a 0).1 = .ok ∧ Scan.putBit Answers.bus n bit ⟨sc, buf, a⟩ = (none, ⟨sc, buf.assign n bit, a.drop 1⟩) ∨
      (a 0).1 ≠ .ok ∧
        Scan.putBit Answers.bus n bit ⟨sc, buf, a⟩ = (some (.ret (a 0).1), ⟨sc, buf.assign n bit, a.drop 1⟩) := by
  unfold Scan.putBit
  split
  · next bus written =>
    obtain ⟨ok, rfl⟩ := Prod.mk.inj written
    exact Or.inl ⟨ok, rfl⟩
  · next code bus fails written =>
    obtain ⟨rfl, rfl⟩ := Prod.mk.inj written
    exact Or.inr ⟨fails, rfl⟩

/-- With the scanner it has chosen, an iteration goes on if its last slot does. -/
theorem putBit_chosen {sc sc' : RomCodeScanner} {buf : RomCode} {a : Answers} {n : Nat} (bit : Bool)
    (chosen : Chosen a sc buf n sc') (goes : a.GoesOn ↔ (a 2).1 = .ok) :
    (∃ code s, Scan.putBit Answers.bus n bit ⟨sc', buf, a.drop 2⟩ = (some (.ret code), s) ∧ ¬ a.GoesOn ∧
        Chosen a sc buf n s.scanner) ∨
      (∃ s, Scan.putBit Answers.bus n bit ⟨sc', buf, a.drop 2⟩ = (none, s) ∧ a.GoesOn ∧ s.bus = a.drop 3 ∧
        Chosen a sc buf n s.scanner) := by
  rcases putBit_cases n bit sc' buf (a.drop 2) with ⟨ok, put⟩ | ⟨fails, put⟩
  · exact Or.inr ⟨_, put, goes.mpr ok, a.drop_drop 2 1, chosen⟩
  · exact Or.inl ⟨_, _, put, fun h => fails (goes.mp h), chosen⟩

/-- An iteration stops at an assertion, or ends the loop, or goes on. -/
theorem scanBit_cases (n : Nat) (sc : RomCodeScanner) (buf : RomCode) (a : Answers) :
    (∃ f s, Scan.scanBit Answers.bus n ⟨sc, buf, a⟩ = (some (.fault f), s) ∧ s.scanner = sc ∧ a.Conflicts ∧
        sc.handleDiscrepancy buf n = .error f) ∨
      (∃ code s, Scan.scanBit Answers.bus n ⟨sc, buf, a⟩ = (some (.ret code), s) ∧ ¬ a.GoesOn ∧ Chosen a sc buf n s.scanner) ∨
      (∃ s, Scan.scanBit Answers.bus n ⟨sc, buf, a⟩ = (none, s) ∧ a.GoesOn ∧ s.bus = a.drop 3 ∧ Chosen a sc buf n s.scanner) := by
  have slot : Answers.bus.readBit (a.drop 1) = (a 1, a.drop 2) := by
    rw [← a.drop_drop 1 1]
    rfl
  unfold Scan.scanBit
  split
  · next bit1 bus first =>
    obtain ⟨read1, rfl⟩ : a 0 = (.ok, bit1) ∧ a.drop 1 = bus := Prod.mk.inj first
    split
    · next bit2 bus second =>
      rw [slot] at second
      obtain ⟨read2, rfl⟩ : a 1 = (.ok, bit2) ∧ a.drop 2 = bus := Prod.mk.inj second
      have goes : a.GoesOn ↔ (bit1 && bit2) = false ∧ (a 2).1 = .ok := by
        rw [Answers.GoesOn, read1, read2]
        simp
      have conflicts : a.Conflicts ↔ bit1 = false ∧ bit2 = false := by
        rw [Answers.Conflicts, read1, read2]
        simp
      dsimp only
      split
      · next both =>
        -- nobody answers
        rw [Bool.and_eq_true] at both
        refine Or.inr (Or.inl ⟨_, _, rfl, ?_, Or.inl ⟨?_, rfl⟩⟩)
        · rw [goes, both.1, both.2]
          exact fun absurd => by cases absurd.1
        · rw [conflicts, both.1]
          exact fun absurd => by cases absurd.1
      · next answered =>
        rw [Bool.not_eq_true] at answered
        have last : a.GoesOn ↔ (a 2).1 = .ok := goes.trans (and_iff_right answered)
        split
        · next neither =>
          have conflict : a.Conflicts := by
            rw [conflicts]
            simpa using neither
          split
          · next sc' bit handled => exact Or.inr (putBit_chosen bit (Or.inr ⟨conflict, bit, handled⟩) last)
          · next f handled => exact Or.inl ⟨f, _, rfl, rfl, conflict, handled⟩
        · next one =>
          have quiet : ¬ a.Conflicts := by
            rw [conflicts]
            rintro ⟨rfl, rfl⟩
            exact one rfl
          exact Or.inr (putBit_chosen (bit1 && !bit2) (Or.inl ⟨quiet, rfl⟩) last)
    · next code bit bus fails second =>
      rw [slot] at second
      obtain ⟨read2, rfl⟩ : a 1 = (code, bit) ∧ a.drop 2 = bus := Prod.mk.inj second
      refine Or.inr (Or.inl ⟨code, _, rfl, fun goes => fails ?_, Or.inl ⟨fun conflict => fails ?_, rfl⟩⟩)
      · simpa [read2] using goes.2.1
      · simpa [read2] using congrArg Prod.fst conflict.2
  · next code bit bus fails first =>
    obtain ⟨read1, rfl⟩ : a 0 = (code, bit) ∧ a.drop 1 = bus := Prod.mk.inj first
    refine Or.inr (Or.inl ⟨code, _, rfl, fun goes => fails ?_, Or.inl ⟨fun conflict => fails ?_, rfl⟩⟩)
    · simpa [read1] using goes.1
    · simpa [read1] using congrArg Prod.fst conflict.1

/-! ## The conflicts that meet an assertion -/

/-- What every call keeps of the scanner, whatever it is answered. -/
structure Bounded (sc : RomCodeScanner) : Prop where
  prev : sc.prevDiscrepancy < RomCode.width
  curr : sc.currDiscrepancy < RomCode.width
  ordered : sc.prevDiscrepancy ≤ max sc.currDiscrepancy 0

theorem Bounded.new : Bounded .new := ⟨by decide, by decide, by decide⟩

theorem Bounded.handled {sc sc' : RomCodeScanner} {buf : RomCode} {n : Nat} {b : Bool} (h : Bounded sc)
    (hn : n < RomCode.width) (step : Handled sc buf n sc' b) : Bounded sc' := by
  obtain ⟨prev, curr, ordered⟩ := h
  cases step with
  | resolveFirst here zero => exact ⟨by simp, by simp, by simp⟩
  | resolve here nonzero counted => exact ⟨prev, prev, by dsimp only; omega⟩
  | found past =>
    refine ⟨?_, by dsimp only; omega, ?_⟩
    · dsimp only; split <;> omega
    · dsimp only; split <;> omega
  | follow before nonneg bound => exact ⟨by dsimp only; omega, curr, by dsimp only; omega⟩

/-- A conflict at this position fails one of the assertions: it is before `curr_discrepancy_` and there is no
previous path to follow, or it is at `curr_discrepancy_` and no conflict is counted. -/
def Trip (sc : RomCodeScanner) (m : Nat) : Prop :=
  sc.prevDiscrepancy < 0 ∧ m < sc.currDiscrepancy ∨ sc.conflictCount = 0 ∧ m ≠ 0 ∧ sc.currDiscrepancy = m

instance (sc : RomCodeScanner) (m : Nat) : Decidable (Trip sc m) := by
  unfold Trip
  infer_instance

/-- A conflict stops the program or is handled. -/
theorem Bounded.handles {sc : RomCodeScanner} (h : Bounded sc) (buf : RomCode) (n : Nat) :
    Trip sc n ∧ (∃ f, f ≠ .romBounds ∧ sc.handleDiscrepancy buf n = .error f) ∨
      ¬ Trip sc n ∧ ∃ sc' b, sc.handleDiscrepancy buf n = .ok (sc', b) := by
  have bound := h.prev
  rcases Int.lt_trichotomy sc.currDiscrepancy n with past | here | before
  · refine Or.inr ⟨?_, _, _, handleDiscrepancy_ok.mpr (.found past)⟩
    unfold Trip
    omega
  · by_cases zero : n = 0
    · refine Or.inr ⟨?_, _, _, handleDiscrepancy_ok.mpr (.resolveFirst here zero)⟩
      unfold Trip
      omega
    · by_cases counted : sc.conflictCount = 0
      · refine Or.inl ⟨Or.inr ⟨counted, zero, here⟩, .conflictCount, by decide, ?_⟩
        simp only [RomCodeScanner.handleDiscrepancy, here, zero, counted, if_true, if_false]
      · refine Or.inr ⟨?_, _, _, handleDiscrepancy_ok.mpr (.resolve here zero counted)⟩
        rintro (⟨_, below⟩ | ⟨none, _⟩)
        · omega
        · exact counted none
  · by_cases unset : sc.prevDiscrepancy < 0
    · refine Or.inl ⟨Or.inl ⟨unset, before⟩, .prevDiscrepancy, by decide, ?_⟩
      have elsewhere : sc.currDiscrepancy ≠ n := by omega
      have notPast : ¬ sc.currDiscrepancy < n := by omega
      simp only [RomCodeScanner.handleDiscrepancy, elsewhere, notPast, unset, if_true, if_false]
    · have nonneg : 0 ≤ sc.prevDiscrepancy := Int.not_lt.mp unset
      have inside : sc.prevDiscrepancy.toNat < RomCode.width := by omega
      refine Or.inr ⟨?_, _, _, handleDiscrepancy_ok.mpr (.follow before nonneg inside)⟩
      unfold Trip
      omega

/-- Handling a conflict leaves the later ones as they were. -/
theorem Bounded.trip_handled {sc sc' : RomCodeScanner} {buf : RomCode} {n m : Nat} {b : Bool} (h : Bounded sc)
    (step : Handled sc buf n sc' b) (later : n < m) : Trip sc' m ↔ Trip sc m := by
  have ordered := h.ordered
  unfold Trip
  cases step with
  | resolveFirst here zero => dsimp only; omega
  | resolve here nonzero counted => dsimp only; omega
  | found past => dsimp only; omega
  | follow before nonneg bound =>
    have set : ¬ (sc.prevDiscrepancy < 0 ∧ m < sc.currDiscrepancy) := by omega
    have set' : ¬ ((n : Int) < 0 ∧ m < sc.currDiscrepancy) := by omega
    exact (or_iff_right set').trans (or_iff_right set).symm

/-- From iteration `n` on, the answers hold a conflict that fails an assertion. -/
def Trips (sc : RomCodeScanner) (a : Answers) (n : Nat) : Prop := ∃ k, a.ConflictAt k ∧ Trip sc (n + k)

/-- The first iteration and the others. -/
theorem trips_first {sc : RomCodeScanner} {a : Answers} {n : Nat} :
    Trips sc a n ↔ a.Conflicts ∧ Trip sc n ∨ a.GoesOn ∧ Trips sc (a.drop 3) (n + 1) := by
  constructor
  · rintro ⟨k, conflict, trip⟩
    cases k with
    | zero => exact Or.inl ⟨conflict, trip⟩
    | succ k => exact Or.inr ⟨conflict.1, k, conflict.2, by rwa [Nat.add_right_comm] ⟩
  · rintro (⟨conflict, trip⟩ | ⟨goes, k, conflict, trip⟩)
    · exact ⟨0, conflict, trip⟩
    · exact ⟨k + 1, ⟨goes, conflict⟩, by rwa [Nat.add_right_comm] at trip⟩

/-- The scanner an iteration leaves meets the assertions at the same later conflicts. -/
theorem Chosen.kept {a : Answers} {sc sc' : RomCodeScanner} {buf : RomCode} {n : Nat} (h : Bounded sc)
    (hn : n < RomCode.width) (chosen : Chosen a sc buf n sc') :
    Bounded sc' ∧ (¬ (a.Conflicts ∧ Trip sc n)) ∧ ∀ m, n < m → (Trip sc' m ↔ Trip sc m) := by
  rcases chosen with ⟨quiet, rfl⟩ | ⟨conflict, b, handled⟩
  · exact ⟨h, fun both => quiet both.1, fun _ _ => Iff.rfl⟩
  · have step := handleDiscrepancy_ok.mp handled
    refine ⟨h.handled hn step, ?_, fun m later => h.trip_handled step later⟩
    rcases h.handles buf n with ⟨_, f, _, stops⟩ | ⟨clear, _⟩
    · rw [handled] at stops
      cases stops
    · exact fun both => clear both.2

/-! ## One call -/

section
variable {β : Type} {B : Bus β} {sc : RomCodeScanner} {buf : RomCode} {bus bus₁ bus₂ : β}

theorem scan_noReset (searching : sc.finished = false) (fails : (B.reset bus).1 ≠ .ok) :
    ∃ code s, Scan.scan B ⟨sc, buf, bus⟩ = (.ret code, s) ∧ s.scanner = sc := by
  rw [Scan.scan, if_neg (by rw [searching]; decide)]
  split
  · next reset => exact absurd (congrArg Prod.fst reset) fails
  · exact ⟨_, _, rfl, rfl⟩

theorem scan_noCommand (searching : sc.finished = false) (reset : B.reset bus = (.ok, bus₁))
    (fails : (B.writeByte 0xF0 bus₁).1 ≠ .ok) : ∃ code s, Scan.scan B ⟨sc, buf, bus⟩ = (.ret code, s) ∧ s.scanner = sc := by
  rw [Scan.scan, if_neg (by rw [searching]; decide), reset]
  dsimp only
  split
  · next written => exact absurd (congrArg Prod.fst written) fails
  · exact ⟨_, _, rfl, rfl⟩

/-- The end of a call, once the loop has ended. -/
theorem scan_loop (searching : sc.finished = false) (reset : B.reset bus = (.ok, bus₁))
    (written : B.writeByte 0xF0 bus₁ = (.ok, bus₂)) {outcome : Outcome} {s : Scan β}
    (loop : Scan.scanBits B 0 RomCode.width ⟨sc, buf, bus₂⟩ = (outcome, s)) :
    Scan.scan B ⟨sc, buf, bus⟩ = (outcome, s) ∨ outcome = .ret .ok ∧ ∃ code finished,
      Scan.scan B ⟨sc, buf, bus⟩ = (.ret code, { s with scanner := { s.scanner with finished } }) := by
  rw [Scan.scan, if_neg (by rw [searching]; decide), reset]
  dsimp only
  rw [written]
  dsimp only
  rw [loop]
  split
  · next s' ended =>
    cases ended
    refine Or.inr ⟨rfl, ?_⟩
    split
    · split
      · exact ⟨_, true, rfl⟩
      · exact ⟨_, s.scanner.finished, rfl⟩
    · exact ⟨_, s.scanner.finished, rfl⟩
  · exact Or.inl rfl

end

/-- The loop stops the program exactly at a conflict that fails an assertion, and only by one. -/
theorem scanBits_trips (k : Nat) {n : Nat} {s : Scan Answers} (bounded : Bounded s.scanner) (rest : n + k = RomCode.width) :
    Bounded (Scan.scanBits Answers.bus n k s).2.scanner ∧
      (Scan.scanBits Answers.bus n k s).1 ≠ .fault .romBounds ∧
      ((∃ f, (Scan.scanBits Answers.bus n k s).1 = .fault f) ↔ Trips s.scanner s.bus n) := by
  induction k generalizing n s with
  | zero =>
    have none : ¬ Trips s.scanner s.bus n := by
      rintro ⟨j, _, trip⟩
      have curr := bounded.curr
      unfold Trip at trip
      omega
    exact ⟨bounded, by simp [Scan.scanBits], iff_of_false (by simp [Scan.scanBits]) none⟩
  | succ k ih =>
    obtain ⟨sc, buf, a⟩ := s
    have inside : n < RomCode.width := by omega
    rcases scanBit_cases n sc buf a with ⟨f, s, step, same, conflict, stops⟩ | ⟨code, s, step, ends, chosen⟩ |
      ⟨s, step, goes, bus, chosen⟩
    · rw [Scan.scanBits, step]
      rcases bounded.handles buf n with ⟨trip, g, inBounds, failed⟩ | ⟨_, _, _, handled⟩
      · rw [stops] at failed
        cases failed
        refine ⟨by rwa [same], fun fault => inBounds (by injection fault), iff_of_true ⟨f, rfl⟩ ?_⟩
        exact trips_first.mpr (Or.inl ⟨conflict, trip⟩)
      · rw [stops] at handled
        cases handled
    · obtain ⟨kept, clear, _⟩ := chosen.kept bounded inside
      rw [Scan.scanBits, step]
      refine ⟨kept, by simp, iff_of_false (by simp) fun trips => ?_⟩
      rcases trips_first.mp trips with now | ⟨goes, _⟩
      · exact clear now
      · exact ends goes
    · obtain ⟨kept, clear, later⟩ := chosen.kept bounded inside
      obtain ⟨bounded', inBounds, trips⟩ := ih kept (by omega : n + 1 + k = RomCode.width)
      rw [Scan.scanBits, step]
      have same : Trips s.scanner s.bus (n + 1) ↔ Trips sc (a.drop 3) (n + 1) := by
        rw [bus]
        exact exists_congr fun j => and_congr_right fun _ => later _ (by omega)
      have first : Trips sc a n ↔ Trips sc (a.drop 3) (n + 1) :=
        trips_first.trans ((or_iff_right clear).trans (and_iff_right goes))
      exact ⟨bounded', inBounds, trips.trans (same.trans first.symm)⟩

/-- The reset and the command are answered `OK`. -/
def Answers.Opens (a : Answers) : Prop := ∀ i < 9, (a i).1 = .ok

/-- `scan()` with a new `RomCode`. -/
def RomCodeScanner.scanNew (sc : RomCodeScanner) (a : Answers) : Outcome × RomCodeScanner :=
  let result := Scan.scan Answers.bus ⟨sc, .new, a⟩
  (result.1, result.2.scanner)

/-- **One call** stops the program exactly when it is answered a conflict that fails an assertion. -/
theorem scanNew_trips {sc : RomCodeScanner} (bounded : Bounded sc) (a : Answers) :
    Bounded (sc.scanNew a).2 ∧ (sc.scanNew a).1 ≠ .fault .romBounds ∧
      ((∃ f, (sc.scanNew a).1 = .fault f) ↔ sc.finished = false ∧ a.Opens ∧ Trips sc (a.drop 9) 0) := by
  have opens : a.Opens ↔ (a 0).1 = .ok ∧ ∀ i < 8, (a.drop 1 i).1 = .ok := by
    constructor
    · exact fun all => ⟨all 0 (by decide), fun i inside => all (1 + i) (by omega)⟩
    · rintro ⟨first, others⟩ i inside
      cases i with
      | zero => exact first
      | succ i =>
        rw [Nat.add_comm]
        exact others i (by omega)
  -- a call that returns without a conflict leaves the scanner as it was
  have quiet (code : StatusCode) (s : Scan Answers) (returns : Scan.scan Answers.bus ⟨sc, .new, a⟩ = (.ret code, s))
      (same : s.scanner = sc) (clear : ¬ (sc.finished = false ∧ a.Opens ∧ Trips sc (a.drop 9) 0)) :
      Bounded (sc.scanNew a).2 ∧ (sc.scanNew a).1 ≠ .fault .romBounds ∧
        ((∃ f, (sc.scanNew a).1 = .fault f) ↔ sc.finished = false ∧ a.Opens ∧ Trips sc (a.drop 9) 0) := by
    rw [RomCodeScanner.scanNew, returns]
    exact ⟨same.symm ▸ bounded, by simp, iff_of_false (by simp) clear⟩
  by_cases searching : sc.finished = false
  · by_cases ok : (a 0).1 = .ok
    · have reset : Answers.bus.reset a = (.ok, a.drop 1) := Prod.ext ok rfl
      rcases writeBits_answers 8 0xF0 (a.drop 1) with ⟨all, wrote⟩ | ⟨some, fails⟩
      · rw [a.drop_drop 1 8] at wrote
        obtain ⟨kept, inBounds, trips⟩ :=
          scanBits_trips RomCode.width (s := ⟨sc, .new, a.drop 9⟩) bounded (Nat.zero_add _)
        obtain ⟨outcome, s, loop⟩ : ∃ outcome s, Scan.scanBits Answers.bus 0 RomCode.width ⟨sc, .new, a.drop 9⟩ =
          (outcome, s) := ⟨_, _, rfl⟩
        rw [loop] at kept inBounds trips
        rw [and_iff_right searching, and_iff_right (opens.mpr ⟨ok, all⟩), ← trips]
        rcases scan_loop searching reset wrote loop with whole | ⟨rfl, code, finished, whole⟩
        · rw [RomCodeScanner.scanNew, whole]
          exact ⟨kept, inBounds, Iff.rfl⟩
        · rw [RomCodeScanner.scanNew, whole]
          exact ⟨⟨kept.prev, kept.curr, kept.ordered⟩, by simp, by simp⟩
      · obtain ⟨code, s, returns, same⟩ : ∃ code s, Scan.scan Answers.bus ⟨sc, .new, a⟩ = (.ret code, s) ∧
          s.scanner = sc := scan_noCommand searching reset fails
        exact quiet code s returns same fun h => some (opens.mp h.2.1).2
    · obtain ⟨code, s, returns, same⟩ : ∃ code s, Scan.scan Answers.bus ⟨sc, .new, a⟩ = (.ret code, s) ∧
        s.scanner = sc := scan_noReset searching ok
      exact quiet code s returns same fun h => ok (opens.mp h.2.1).1
  · have finished : sc.finished = true := by rwa [Bool.not_eq_false] at searching
    exact quiet .noData _ (if_pos finished) rfl fun h => searching h.1

/-! ## All calls -/

/-- A call on the scanner. -/
inductive Call where
  | scan (answers : Answers)
  | reset

/-- The scanner after a call. There is none once the program was stopped. -/
def RomCodeScanner.called (sc : RomCodeScanner) : Call → Option RomCodeScanner
  | .scan a =>
    match sc.scanNew a with
    | (.ret _, sc') => some sc'
    | (.fault _, _) => none
  | .reset => some sc.reset

def CallStep (s : Option RomCodeScanner) (call : Call) (s' : Option RomCodeScanner) : Prop :=
  ∃ sc, s = some sc ∧ sc.called call = s'

/-- The call is not answered a conflict that fails an assertion. -/
def Clear (s : Option RomCodeScanner) (call : Call) : Prop :=
  ∀ sc a, s = some sc → call = .scan a → ¬ (sc.finished = false ∧ a.Opens ∧ Trips sc (a.drop 9) 0)

theorem CallStep.det (s : Option RomCodeScanner) (call : Call) (s' s'' : Option RomCodeScanner)
    (h : CallStep s call s') (h' : CallStep s call s'') : s' = s'' := by
  obtain ⟨sc, rfl, rfl⟩ := h
  obtain ⟨_, same, rfl⟩ := h'
  cases same
  rfl

theorem CallStep.clear_iff {s s' : Option RomCodeScanner} {call : Call} (bounded : ∀ sc, s = some sc → Bounded sc)
    (h : CallStep s call s') : (s' ≠ none ↔ Clear s call) ∧ ∀ sc, s' = some sc → Bounded sc := by
  obtain ⟨sc, rfl, rfl⟩ := h
  cases call with
  | reset =>
    refine ⟨iff_of_true (by simp [RomCodeScanner.called]) (by rintro _ _ _ ⟨⟩), ?_⟩
    rintro _ ⟨⟩
    exact .new
  | scan a =>
    obtain ⟨kept, _, trips⟩ := scanNew_trips (bounded sc rfl) a
    have clear : Clear (some sc) (.scan a) ↔ ¬ (sc.finished = false ∧ a.Opens ∧ Trips sc (a.drop 9) 0) := by
      refine ⟨fun h => h sc a rfl rfl, ?_⟩
      rintro h _ _ ⟨⟩ ⟨⟩
      exact h
    rw [clear, ← trips]
    obtain ⟨outcome, sc', result⟩ : ∃ outcome sc', sc.scanNew a = (outcome, sc') := ⟨_, _, rfl⟩
    rw [result] at kept ⊢
    cases outcome with
    | ret code =>
      have returned : sc.called (.scan a) = some sc' := by rw [RomCodeScanner.called, result]
      rw [returned]
      refine ⟨by simp, ?_⟩
      rintro _ ⟨⟩
      exact kept
    | fault f =>
      have stopped : sc.called (.scan a) = none := by rw [RomCodeScanner.called, result]
      rw [stopped]
      refine ⟨by simp, ?_⟩
      rintro _ ⟨⟩

/-- **The assertions hold** in every call of a run exactly when no call is answered a conflict that is before the current
discrepancy while the previous one is unset, or at the current one, past bit 0, while no conflict is counted. -/
theorem assertions_hold_iff {tr : List Call} {s : Option RomCodeScanner} (run : Run CallStep (some .new) tr s) :
    (∀ tr' call s₁ s₂, tr' ++ [call] <+: tr → Run CallStep (some .new) tr' s₁ → CallStep s₁ call s₂ → s₂ ≠ none) ↔
      ∀ tr' call s₁, tr' ++ [call] <+: tr → Run CallStep (some .new) tr' s₁ → Clear s₁ call := by
  refine run.every_step_iff CallStep.det (fun s => ∀ sc, s = some sc → Bounded sc) (fun _ _ s' => s' ≠ none) Clear ?_ ?_
  · rintro _ ⟨⟩
    exact .new
  · intro s call s' bounded step
    obtain ⟨same, kept⟩ := step.clear_iff bounded
    exact ⟨same, fun _ => kept⟩

/-- A line that answers the reset and the command, then these slots, and then only errors. -/
def lineOf (slots : List Bool) : Answers := fun i =>
  if i < 9 then (.ok, true)
  else match slots[i - 9]? with
    | some bit => (.ok, bit)
    | none => (.error, false)

/-- The first call meets none of them. -/
theorem assertions_hold_iff_first : ∃ s, Run CallStep (some .new) [.scan (lineOf [false, false, true])] s ∧
    ∀ tr' call s₁ s₂, tr' ++ [call] <+: [.scan (lineOf [false, false, true])] → Run CallStep (some .new) tr' s₁ →
      CallStep s₁ call s₂ → s₂ ≠ none := by
  have run : Run CallStep (some .new) [.scan (lineOf [false, false, true])] _ := Run.single ⟨_, rfl, rfl⟩
  refine ⟨_, run, (assertions_hold_iff run).mpr fun tr' call s₁ within before => ?_⟩
  obtain ⟨rest, whole⟩ := within
  cases tr' with
  | cons first tr' => simp at whole
  | nil =>
    rcases before.first with ⟨_, rfl⟩ | ⟨_, _, _, none, _⟩
    · rintro _ a ⟨⟩ _ ⟨_, _, k, _, trip⟩
      revert trip
      simp [Trip, RomCodeScanner.new]
    · cases none

/-- Two calls that fail half-way are enough, for each of the assertions: with a conflict at bit 0 that is gone back to
and then one at bit 1, the third call has no path to follow at bit 0; with a conflict at bit 1 in all calls, the
third one goes back to it again. -/
theorem assertions_fail :
    (∃ sc, Run CallStep (some .new) [.scan (lineOf [false, false, true]),
        .scan (lineOf [false, false, true, false, false, true])] (some sc) ∧
      (sc.scanNew (lineOf [false, false])).1 = .fault .prevDiscrepancy) ∧
    ∃ sc, Run CallStep (some .new) [.scan (lineOf [false, true, true, false, false, true]),
        .scan (lineOf [false, true, true, false, false, true])] (some sc) ∧
      (sc.scanNew (lineOf [false, true, true, false, false])).1 = .fault .conflictCount := by
  refine ⟨⟨⟨false, -1, 1, 1⟩, ?_, ?_⟩, ⟨⟨false, 1, 1, 0⟩, ?_, ?_⟩⟩
  · exact (Run.start.next ⟨_, rfl, rfl⟩).next ⟨_, rfl, by decide⟩
  · decide
  · exact (Run.start.next ⟨_, rfl, rfl⟩).next ⟨_, rfl, by decide⟩
  · decide

end OcsComponents.OneWire
