import OcsComponents.OneWire.Retrace

/-!
# Which calls trip an assertion

Whatever the devices were before, between two calls the scanner keeps its discrepancies
in order and counts at least one conflict while one is pending (`Tidy`). The one
thing left to go wrong is to follow a path with `prevDiscrepancy` unset, which a call does
when its devices conflict before `currDiscrepancy` (`walk_ok`, `walk_fault`).
-/

namespace OcsComponents.OneWire
open Status BitTrie

/-- What every call keeps of the scanner, as long as the search is not over. -/
structure Tidy (sc : RomCodeScanner) : Prop where
  opened : sc.finished = false
  bound : sc.prevDiscrepancy < RomCode.width
  inside : sc.currDiscrepancy < RomCode.width
  ordered : sc.prevDiscrepancy ≤ sc.currDiscrepancy
  counted : 0 ≤ sc.currDiscrepancy → sc.conflictCount ≠ 0

theorem Tidy.new : Tidy .new :=
  ⟨rfl, by decide, by decide, Int.le_refl _, fun h => absurd h (by decide)⟩

/-- The devices do not make a call follow an unset discrepancy. -/
def Steady (D : Finset RomCode) (sc : RomCodeScanner) : Prop :=
  sc.prevDiscrepancy < 0 → Common RomCode.bit D sc.currDiscrepancy.toNat

theorem Steady.new (D : Finset RomCode) : Steady D .new := fun _ _ _ _ _ i hi => absurd hi (Nat.not_lt_zero i)

/-- A call that retraces follows no unset discrepancy: without one its path has no conflict. -/
theorem Retraceable.steady {D : Finset RomCode} {p : RomCode} {sc : RomCodeScanner} {c : Nat}
    (h : Retraceable D p sc c) : Steady D sc := by
  intro unset
  obtain ⟨⟨a, ha, agree, _⟩, _⟩ := h.conflict
  have none : ∀ i < c, ¬ Conflict D p i := by
    intro i
    induction i using Nat.strong_induction_on with
    | _ i ih =>
      intro hi conflict
      have := h.first i hi conflict (conflicts_eq_zero.mpr (fun j hj => ih j hj (Nat.lt_trans hj hi)))
      omega
  have below := common_of_no_fork ha agree none
  rw [h.curr, Int.toNat_natCast]
  exact fun a ha e he => (below a ha).trans (below e he).symm

/-- How far a call has come, by the scanner's fields alone. -/
inductive Stage (sc₀ : RomCodeScanner) (n : Nat) (sc : RomCodeScanner) : Prop where
  | untouched (same : sc = sc₀)
  | following (ahead : (n : Int) ≤ sc.currDiscrepancy) (nonneg : 0 ≤ sc.prevDiscrepancy)
      (below : sc.prevDiscrepancy < n) (count : sc.conflictCount = sc₀.conflictCount)
      (curr : sc.currDiscrepancy = sc₀.currDiscrepancy) (opened : sc.finished = sc₀.finished)
  | past (behind : sc.currDiscrepancy < n) (bound : sc.prevDiscrepancy < RomCode.width)
      (ordered : sc.prevDiscrepancy ≤ sc.currDiscrepancy ∨ sc.conflictCount = 0)
      (opened : sc.finished = sc₀.finished)

theorem Stage.forced {sc₀ sc : RomCodeScanner} {n : Nat} (h : Stage sc₀ n sc) (hn : n < RomCode.width) :
    Stage sc₀ (n + 1) sc := by
  cases h with
  | untouched same => exact .untouched same
  | following ahead nonneg below count curr opened =>
    by_cases more : (n : Int) < sc.currDiscrepancy
    · exact .following (by omega) nonneg (by omega) count curr opened
    · exact .past (by omega) (by omega) (Or.inl (by omega)) opened
  | past behind bound ordered opened => exact .past (by omega) bound ordered opened

theorem Stage.handled {sc₀ sc sc' : RomCodeScanner} {buf : RomCode} {n : Nat} {b : Bool} (tidy : Tidy sc₀)
    (h : Stage sc₀ n sc) (hn : n < RomCode.width) (step : Handled sc buf n sc' b) : Stage sc₀ (n + 1) sc' := by
  have opened : sc.finished = sc₀.finished := by
    cases h with
    | untouched same => rw [same]
    | following _ _ _ _ _ opened => exact opened
    | past _ _ _ opened => exact opened
  cases step with
  | resolveFirst here zero =>
    exact .past (by dsimp only; omega) (by simp) (Or.inr rfl) opened
  | resolve here nonzero counted =>
    have back : sc.prevDiscrepancy ≤ n := by
      cases h with
      | untouched same => subst same; have := tidy.ordered; omega
      | following ahead nonneg below => omega
      | past behind => omega
    exact .past (by dsimp only; omega) (by dsimp only; omega) (Or.inl (Int.le_refl _)) opened
  | found past =>
    refine .past (by dsimp only; omega) ?_ (Or.inl ?_) opened
    · dsimp only; split <;> omega
    · dsimp only; split <;> omega
  | follow before nonneg bound =>
    cases h with
    | untouched same =>
      subst same
      exact .following (by dsimp only; omega) (by dsimp only; omega) (by dsimp only; omega) rfl rfl rfl
    | following ahead nonneg' below count curr _ =>
      exact .following (by dsimp only; omega) (by dsimp only; omega) (by dsimp only; omega) count curr opened
    | past behind => omega

/-- A conflict has a branch to take, unless it is followed with nothing to follow. -/
theorem Stage.total {sc₀ sc : RomCodeScanner} {n : Nat} (tidy : Tidy sc₀) (h : Stage sc₀ n sc) (buf : RomCode)
    (hn : n < RomCode.width) (set : sc = sc₀ → n < sc₀.currDiscrepancy → 0 ≤ sc₀.prevDiscrepancy) :
    ∃ sc' b, Handled sc buf n sc' b := by
  rcases Int.lt_trichotomy sc.currDiscrepancy n with past | here | before
  · exact ⟨_, _, .found past⟩
  · by_cases zero : n = 0
    · exact ⟨_, _, .resolveFirst here zero⟩
    · refine ⟨_, _, .resolve here zero ?_⟩
      cases h with
      | untouched same => subst same; exact tidy.counted (by omega)
      | following _ _ _ count curr => rw [count]; exact tidy.counted (by omega)
      | past behind => omega
  · have held : 0 ≤ sc.prevDiscrepancy ∧ sc.prevDiscrepancy.toNat < RomCode.width := by
      cases h with
      | untouched same =>
        have nonneg := set same (same ▸ before)
        have := tidy.bound
        subst same
        omega
      | following ahead nonneg below => omega
      | past behind => omega
    exact ⟨_, _, .follow before held.1 held.2⟩

theorem Stage.tidy {sc₀ sc : RomCodeScanner} (tidy : Tidy sc₀) (h : Stage sc₀ RomCode.width sc) :
    sc.conflictCount = 0 ∨ Tidy sc := by
  cases h with
  | untouched same => exact Or.inr (same ▸ tidy)
  | following ahead nonneg below count curr opened =>
    have := tidy.inside
    omega
  | past behind bound ordered opened =>
    by_cases zero : sc.conflictCount = 0
    · exact Or.inl zero
    · exact Or.inr ⟨opened.trans tidy.opened, bound, behind, ordered.resolve_right zero, fun _ => zero⟩

/-! ## The walks -/

/-- A call on devices that do not conflict before the point it goes back to ends,
and leaves the scanner tidy. -/
theorem walk_ok {D : Finset RomCode} (nonempty : D.Nonempty) {sc₀ : RomCodeScanner} (tidy : Tidy sc₀)
    (steady : Steady D sc₀) :
    ∃ sc code, walk D sc₀ RomCode.width = .ok (sc, code) ∧ (sc.conflictCount = 0 ∨ Tidy sc) := by
  obtain ⟨sc, code, result, stage⟩ := walk_total nonempty (fun n sc _ => Stage sc₀ n sc) (Nat.le_refl _)
    ⟨sc₀, .new, rfl, .untouched rfl⟩
    (by
      intro n _ hn sc buf path stage
      by_cases conflict : Conflict D buf n
      · rw [chooseBit_conflict conflict]
        obtain ⟨sc', b, step⟩ := stage.total tidy buf hn (by
          intro _ ahead
          by_contra unset
          have := conflict.common_le (steady (by omega))
          omega)
        exact ⟨sc', b, handleDiscrepancy_ok.mpr step, stage.handled tidy hn step⟩
      · obtain ⟨d, hd, agree⟩ := path.device
        exact ⟨sc, d.bit n, chooseBit_forced hd agree conflict, stage.forced hn⟩)
    RomCode.width (Nat.zero_le _) (Nat.le_refl _)
  exact ⟨sc, code, result, stage.tidy tidy⟩

/-- Any other call stops at `configASSERT(prev_discrepancy_ >= 0)`. -/
theorem walk_fault {D : Finset RomCode} (nonempty : D.Nonempty) {sc₀ : RomCodeScanner} (tidy : Tidy sc₀)
    (loose : ¬ Steady D sc₀) :
    walk D sc₀ RomCode.width = .error .prevDiscrepancy := by
  simp only [Steady, Classical.not_imp] at loose
  obtain ⟨unset, apart⟩ := loose
  obtain ⟨k, lt, common, fork⟩ := exists_common_fork apart
  have hk : k < RomCode.width := by have := tidy.inside; omega
  obtain ⟨d, hd⟩ := nonempty
  obtain ⟨sc, buf, before, rfl, same⟩ := walk_total ⟨d, hd⟩ (fun n sc buf => sc = sc₀ ∧ Same n d buf)
    (Nat.le_of_lt hk) ⟨sc₀, .new, rfl, rfl, fun i hi => absurd hi (Nat.not_lt_zero i)⟩
    (by
      rintro n _ hn sc buf path ⟨rfl, same⟩
      have there : ¬ Conflict D buf n := fun conflict => by
        have := conflict.common_le common
        omega
      exact ⟨sc, d.bit n, chooseBit_forced hd same there, rfl,
        (same_assign_succ (Nat.lt_trans hn hk)).mpr ⟨same, rfl⟩⟩)
    k (Nat.zero_le k) (Nat.le_refl k)
  refine walk_stays (n := k + 1) ?_ _ hk
  have notHere : sc.currDiscrepancy ≠ k := by omega
  have notPast : ¬ sc.currDiscrepancy < k := by omega
  rw [walk_succ before, chooseBit_conflict ((fork d hd).congr same)]
  simp only [RomCodeScanner.handleDiscrepancy, notHere, notPast, unset, if_true, if_false]

end OcsComponents.OneWire
