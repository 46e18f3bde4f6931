import OcsComponents.OneWire.Walk

/-!
# The ROM search over a fixed set of devices

The scanner reads the bit of an earlier conflict at the previous discrepancy and
not at the conflict itself, from a buffer that holds only this call's bits. So
before `currDiscrepancy` it can only repeat 0, and no call turns to the set side of more
than one conflict (`walk_turns_once`): a device behind two turns is out of reach. On a
comb there is no such device, and the calls take the conflicts of the
leftmost path one by one, last one first (`scanCalls_pending`).
-/

namespace OcsComponents.OneWire
open Status BitTrie

/-! ## What a conflict does to the scanner -/

/-- The four successful branches of `handleDiscrepancy`. -/
inductive Handled (sc : RomCodeScanner) (buf : RomCode) (n : Nat) : RomCodeScanner → Bool → Prop where
  | resolveFirst (here : sc.currDiscrepancy = n) (zero : n = 0) :
      Handled sc buf n { sc with prevDiscrepancy := 0, currDiscrepancy := -1, conflictCount := 0 } true
  | resolve (here : sc.currDiscrepancy = n) (nonzero : n ≠ 0) (counted : sc.conflictCount ≠ 0) :
      Handled sc buf n
        { sc with currDiscrepancy := sc.prevDiscrepancy, conflictCount := sc.conflictCount - 1 } true
  | found (past : sc.currDiscrepancy < n) :
      Handled sc buf n
        { sc with
          prevDiscrepancy := if sc.prevDiscrepancy < 0 then (n : Int) else sc.currDiscrepancy
          currDiscrepancy := n
          conflictCount := sc.conflictCount + 1 } false
  | follow (before : n < sc.currDiscrepancy) (nonneg : 0 ≤ sc.prevDiscrepancy)
      (bound : sc.prevDiscrepancy.toNat < RomCode.width) :
      Handled sc buf n { sc with prevDiscrepancy := n } (buf.bit sc.prevDiscrepancy.toNat)

theorem handleDiscrepancy_ok {sc sc' : RomCodeScanner} {buf : RomCode} {n : Nat} {b : Bool} :
    sc.handleDiscrepancy buf n = .ok (sc', b) ↔ Handled sc buf n sc' b := by
  constructor
  · intro h
    unfold RomCodeScanner.handleDiscrepancy at h
    split at h
    · rename_i here
      split at h
      · rename_i zero
        cases h; exact .resolveFirst here zero
      · rename_i nonzero
        split at h
        · cases h
        · rename_i counted
          cases h; exact .resolve here nonzero counted
    · rename_i elsewhere
      split at h
      · rename_i past
        split at h
        · rename_i unset
          cases h
          have found : Handled sc buf n _ _ := .found past
          simpa [unset] using found
        · rename_i kept
          cases h
          have found : Handled sc buf n _ _ := .found past
          simpa [kept] using found
      · rename_i notPast
        split at h
        · cases h
        · rename_i nonneg
          split at h
          · cases h
          · rename_i bound
            cases h
            exact .follow (by omega) (by omega) (by omega)
  · intro h
    cases h with
    | resolveFirst here zero => subst zero; simp [RomCodeScanner.handleDiscrepancy, here]
    | resolve here nonzero counted =>
      simp only [RomCodeScanner.handleDiscrepancy, here, nonzero, counted, if_true, if_false]
    | found past =>
      have elsewhere : sc.currDiscrepancy ≠ n := by omega
      by_cases unset : sc.prevDiscrepancy < 0 <;>
        simp [RomCodeScanner.handleDiscrepancy, elsewhere, past, unset]
    | follow before nonneg bound =>
      have elsewhere : sc.currDiscrepancy ≠ n := by omega
      have notPast : ¬ sc.currDiscrepancy < n := by omega
      have kept : ¬ sc.prevDiscrepancy < 0 := by omega
      have inside : ¬ RomCode.width ≤ sc.prevDiscrepancy.toNat := by omega
      simp only [RomCodeScanner.handleDiscrepancy, elsewhere, notPast, kept, inside, if_false]

/-! ## At most one turn -/

/-- `x` is unset, or not before the first conflict of `D`. -/
def AtRoot (D : Finset RomCode) (x : Int) : Prop := ∀ n, Common RomCode.bit D n → x < 0 ∨ (n : Int) ≤ x

theorem AtRoot.conflict {D : Finset RomCode} {p : RomCode} {n : Nat} (h : Conflict D p n) : AtRoot D n := by
  intro k common
  have := h.common_le common
  omega

theorem AtRoot.unset {D : Finset RomCode} : AtRoot D (-1) := fun _ _ => Or.inl (by omega)

/-- The scanner between two calls over the set `D`, the search not being over. -/
structure Ready (D : Finset RomCode) (sc : RomCodeScanner) : Prop where
  opened : sc.finished = false
  prevRoot : AtRoot D sc.prevDiscrepancy
  currRoot : AtRoot D sc.currDiscrepancy
  ordered : sc.prevDiscrepancy ≤ sc.currDiscrepancy

theorem Ready.new (D : Finset RomCode) : Ready D .new := ⟨rfl, .unset, .unset, Int.le_refl _⟩

/-- Bit `i` of the path is a turn to the set side of a conflict, among the first `n`. -/
def Turn (D : Finset RomCode) (buf : RomCode) (n i : Nat) : Prop :=
  i < n ∧ Conflict D buf i ∧ buf.bit i = true

theorem turn_assign {D : Finset RomCode} {buf : RomCode} {n i : Nat} {b : Bool} (hn : n < RomCode.width) :
    Turn D (buf.assign n b) (n + 1) i ↔ Turn D buf n i ∨ i = n ∧ Conflict D buf n ∧ b = true := by
  unfold Turn
  by_cases lt : i < n
  · have bound : i < RomCode.width := by omega
    simp [lt, Nat.lt_succ_of_lt lt, conflict_assign hn (Nat.le_of_lt lt), RomCode.assign_bit buf b hn bound,
      show i ≠ n by omega]
  · by_cases same : i = n
    · subst same
      simp [conflict_assign hn (Nat.le_refl i), RomCode.assign_bit buf b hn hn]
    · simp [lt, same, show ¬ i < n + 1 by omega]

/-- A clear bit is no turn. -/
theorem turn_assign_false {D : Finset RomCode} {buf : RomCode} {n i : Nat} (hn : n < RomCode.width) :
    Turn D (buf.assign n false) (n + 1) i ↔ Turn D buf n i := by
  rw [turn_assign hn]
  constructor
  · rintro (old | ⟨_, _, set⟩)
    · exact old
    · cases set
  · exact Or.inl

/-- Where there was no turn before, the last bit is the only one. -/
theorem Turn.eq_last {D : Finset RomCode} {buf : RomCode} {n i : Nat} {b : Bool} (hn : n < RomCode.width)
    (turn : Turn D (buf.assign n b) (n + 1) i) (none : ∀ i, ¬ Turn D buf n i) : i = n := by
  rcases (turn_assign hn).mp turn with old | ⟨here, _⟩
  · exact absurd old (none i)
  · exact here

/-- Where a call is on its path: before the first conflict, following the previous
path, or past the current discrepancy, after which it takes the clear side only. -/
inductive Trail (D : Finset RomCode) (sc₀ : RomCodeScanner) (n : Nat) (sc : RomCodeScanner) (buf : RomCode) : Prop where
  | untouched (none : ∀ i < n, ¬ Conflict D buf i) (same : sc = sc₀)
  | following (ahead : (n : Int) ≤ sc.currDiscrepancy) (none : ∀ i, ¬ Turn D buf n i)
      (nonneg : 0 ≤ sc.prevDiscrepancy) (below : sc.prevDiscrepancy < n)
      (clear : buf.bit sc.prevDiscrepancy.toNat = false)
  | past (behind : sc.currDiscrepancy < n) (once : ∀ i j, Turn D buf n i → Turn D buf n j → i = j)
      (ordered : sc.prevDiscrepancy ≤ sc.currDiscrepancy ∨ sc.conflictCount = 0)

/-- The invariant of a call: the trail, and fields that are never before the root. -/
structure Searching (D : Finset RomCode) (sc₀ : RomCodeScanner) (n : Nat) (sc : RomCodeScanner)
    (buf : RomCode) : Prop where
  opened : sc.finished = false
  prevRoot : AtRoot D sc.prevDiscrepancy
  currRoot : AtRoot D sc.currDiscrepancy
  trail : Trail D sc₀ n sc buf

/-- A forced bit moves the trail on without touching the scanner. -/
theorem Searching.forced {D : Finset RomCode} {sc₀ sc : RomCodeScanner} {n : Nat} {buf : RomCode} {b : Bool}
    (h : Searching D sc₀ n sc buf) (hn : n < RomCode.width) (forced : ¬ Conflict D buf n) :
    Searching D sc₀ (n + 1) sc (buf.assign n b) := by
  refine ⟨h.opened, h.prevRoot, h.currRoot, ?_⟩
  have turns : ∀ i, Turn D (buf.assign n b) (n + 1) i → Turn D buf n i := by
    intro i turn
    rcases (turn_assign hn).mp turn with old | ⟨_, conflict, _⟩
    · exact old
    · exact absurd conflict forced
  cases h.trail with
  | untouched none same =>
    refine .untouched (fun i hi conflict => ?_) same
    rw [conflict_assign hn (by omega)] at conflict
    rcases Nat.lt_succ_iff_lt_or_eq.mp hi with lt | rfl
    · exact none i lt conflict
    · exact forced conflict
  | following ahead none nonneg below clear =>
    have bit : (buf.assign n b).bit sc.prevDiscrepancy.toNat = false := by
      rw [RomCode.assign_bit buf b hn (by omega), if_neg (by omega), clear]
    by_cases more : (n : Int) < sc.currDiscrepancy
    · exact .following (by omega) (fun i turn => none i (turns i turn)) nonneg (by omega) bit
    · -- the discrepancy is not a conflict of this set: the call has walked past it
      exact .past (by omega) (fun i _ turn _ => absurd (turns i turn) (none i)) (Or.inl (by omega))
  | past behind once ordered =>
    exact .past (by omega) (fun i j turnI turnJ => once i j (turns i turnI) (turns j turnJ)) ordered

/-- A conflict moves the trail on by one of the four branches. -/
theorem Searching.handled {D : Finset RomCode} {sc₀ sc sc' : RomCodeScanner} {n : Nat} {buf : RomCode} {b : Bool}
    (ready : Ready D sc₀) (h : Searching D sc₀ n sc buf) (hn : n < RomCode.width) (path : OnPath D buf n)
    (conflict : Conflict D buf n) (step : Handled sc buf n sc' b) :
    Searching D sc₀ (n + 1) sc' (buf.assign n b) := by
  have root : AtRoot D n := .conflict conflict
  have noTurn : b = false → (∀ i, ¬ Turn D buf n i) → ∀ i, ¬ Turn D (buf.assign n b) (n + 1) i := by
    intro clear none i turn
    subst clear
    exact none i ((turn_assign_false hn).mp turn)
  have onlyHere : (∀ i, ¬ Turn D buf n i) →
      ∀ i j, Turn D (buf.assign n b) (n + 1) i → Turn D (buf.assign n b) (n + 1) j → i = j := by
    intro none i j turnI turnJ
    exact (turnI.eq_last hn none).trans (turnJ.eq_last hn none).symm
  -- up to the current discrepancy there is no turn yet
  have untilNow : ¬ sc.currDiscrepancy < n → ∀ i, ¬ Turn D buf n i := by
    intro notPast i turn
    cases h.trail with
    | untouched none _ => exact none i turn.1 turn.2.1
    | following _ none _ _ _ => exact none i turn
    | past behind _ _ => exact notPast behind
  cases step with
  | resolveFirst here zero =>
    subst zero
    exact ⟨h.opened, root, .unset,
      .past (by dsimp only; omega) (onlyHere (untilNow (by omega))) (Or.inr rfl)⟩
  | resolve here nonzero counted =>
    have back : sc.prevDiscrepancy < n + 1 := by
      cases h.trail with
      | untouched none same => subst same; have := ready.ordered; omega
      | following ahead none nonneg below clear => omega
      | past behind once ordered => omega
    exact ⟨h.opened, h.prevRoot, h.prevRoot,
      .past (by dsimp only; omega) (onlyHere (untilNow (by omega))) (Or.inl (Int.le_refl _))⟩
  | found past =>
    refine ⟨h.opened, ?_, root, .past (by dsimp only; omega) ?_ (Or.inl ?_)⟩
    · dsimp only; split
      · exact root
      · exact h.currRoot
    · intro i j turnI turnJ
      have oldI := (turn_assign_false hn).mp turnI
      have oldJ := (turn_assign_false hn).mp turnJ
      cases h.trail with
      | untouched none _ => exact absurd oldI.2.1 (none i oldI.1)
      | following ahead _ _ _ _ => omega
      | past _ once _ => exact once i j oldI oldJ
    · dsimp only; split <;> omega
  | follow before nonneg bound =>
    -- the bit read is 0: not written yet at the first conflict, and 0 ever after
    have clear : buf.bit sc.prevDiscrepancy.toNat = false := by
      cases h.trail with
      | untouched none same =>
        obtain ⟨d, hd, agree⟩ := path.device
        have below := common_of_no_fork hd agree none
        have common : Common RomCode.bit D n := fun a ha e he => (below a ha).trans (below e he).symm
        rcases h.prevRoot n common with neg | ahead
        · omega
        · exact path.fresh _ (by omega) bound
      | following _ _ _ _ clear => exact clear
      | past behind _ _ => omega
    refine ⟨h.opened, root, h.currRoot, .following (by dsimp only; omega)
      (noTurn clear (untilNow (by omega))) (by dsimp only; omega) (by dsimp only; omega) ?_⟩
    simpa [RomCode.assign_bit buf _ hn hn] using clear

theorem walk_searching {D : Finset RomCode} (nonempty : D.Nonempty) {sc₀ : RomCodeScanner} (ready : Ready D sc₀) :
    ∀ n ≤ RomCode.width, ∀ {sc buf}, walk D sc₀ n = .ok (sc, buf) → Searching D sc₀ n sc buf := by
  apply walk_rule nonempty
  · exact ⟨ready.opened, ready.prevRoot, ready.currRoot,
      .untouched (fun i hi => absurd hi (Nat.not_lt_zero i)) rfl⟩
  · intro n hn sc buf sc' b path inv step
    by_cases conflict : Conflict D buf n
    · rw [chooseBit_conflict conflict] at step
      exact inv.handled ready hn path conflict (handleDiscrepancy_ok.mp step)
    · obtain ⟨d, hd, agree⟩ := path.device
      rw [chooseBit_forced hd agree conflict] at step
      cases step
      exact inv.forced hn conflict

/-- **One turn a call.** The code of a call has the set bit at one conflict at
most, and the scanner is ready for the next call unless the search is over. -/
theorem walk_turns_once {D : Finset RomCode} (nonempty : D.Nonempty) {sc sc' : RomCodeScanner} {code : RomCode}
    (ready : Ready D sc) (h : walk D sc RomCode.width = .ok (sc', code)) :
    (∀ i j, Turn D code RomCode.width i → Turn D code RomCode.width j → i = j) ∧
      (Ready D sc' ∨ sc'.conflictCount = 0) := by
  have inv := walk_searching nonempty ready _ (Nat.le_refl _) h
  cases inv.trail with
  | untouched none same =>
    subst same
    exact ⟨fun i j turn _ => absurd turn.2.1 (none i turn.1), Or.inl ready⟩
  | following ahead none nonneg below clear =>
    exact ⟨fun i j turn _ => absurd turn (none i),
      Or.inl ⟨inv.opened, inv.prevRoot, inv.currRoot, by omega⟩⟩
  | past behind once ordered =>
    exact ⟨once, ordered.imp (fun le => ⟨inv.opened, inv.prevRoot, inv.currRoot, le⟩) id⟩

end OcsComponents.OneWire
