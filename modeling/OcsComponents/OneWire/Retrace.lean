import OcsComponents.OneWire.Search
import Mathlib.Data.Nat.Count

/-!
# Retracing the path of an earlier call

A call that finds the conflict at `currDiscrepancy` again, and only clear bits at the
conflicts before it, takes the path of the earlier call up to there and turns to the
set side (`walk_retraced`). This is what the search relies on, and what the
enumeration of a comb and the end of the search loops are proved from.
-/

namespace OcsComponents.OneWire
open Status BitTrie

/-! ## The conflicts of a path -/

/-- The last conflict of the path `p` before bit `n`. -/
structure LastConflict (D : Finset RomCode) (p : RomCode) (n c : Nat) : Prop where
  before : c < n
  conflict : Conflict D p c
  last : ∀ i, c < i → i < n → ¬ Conflict D p i

/-- How many conflicts the path `p` has before bit `n`. -/
def conflicts (D : Finset RomCode) (p : RomCode) (n : Nat) : Nat := Nat.count (Conflict D p) n

theorem conflicts_le (D : Finset RomCode) (p : RomCode) (n : Nat) : conflicts D p n ≤ n := Nat.count_le _

theorem conflicts_succ (D : Finset RomCode) (p : RomCode) (n : Nat) :
    conflicts D p (n + 1) = conflicts D p n + if Conflict D p n then 1 else 0 := Nat.count_succ _ _

theorem conflicts_eq_zero {D : Finset RomCode} {p : RomCode} {n : Nat} :
    conflicts D p n = 0 ↔ ∀ i < n, ¬ Conflict D p i := by
  induction n with
  | zero => exact ⟨fun _ i hi => absurd hi (Nat.not_lt_zero i), fun _ => rfl⟩
  | succ n ih =>
    rw [conflicts_succ, Nat.add_eq_zero_iff, ih]
    constructor
    · rintro ⟨none, here⟩ i hi
      rcases Nat.lt_succ_iff_lt_or_eq.mp hi with lt | rfl
      · exact none i lt
      · intro conflict; simp [conflict] at here
    · intro none
      exact ⟨fun i hi => none i (Nat.lt_succ_of_lt hi), by simp [none n (Nat.lt_succ_self n)]⟩

theorem conflicts_congr {D : Finset RomCode} {p q : RomCode} {n : Nat} (same : Same n p q) :
    conflicts D p n = conflicts D q n := by
  induction n with
  | zero => exact (Nat.count_zero _).trans (Nat.count_zero _).symm
  | succ n ih =>
    have below := same.mono (Nat.le_succ n)
    rw [conflicts_succ, conflicts_succ, ih below]
    simp only [fork_congr below]

/-- Up to the last conflict the count stays what it was right after it. -/
theorem LastConflict.conflicts_eq {D : Finset RomCode} {p : RomCode} {n c : Nat} (h : LastConflict D p n c) :
    conflicts D p n = conflicts D p c + 1 := by
  have stays : ∀ k, c + 1 + k ≤ n → conflicts D p (c + 1 + k) = conflicts D p c + 1 := by
    intro k
    induction k with
    | zero => intro _; rw [Nat.add_zero, conflicts_succ, if_pos h.conflict]
    | succ k ih =>
      intro le
      rw [← Nat.add_assoc, conflicts_succ, ih (by omega), if_neg (h.last _ (by omega) (by omega))]
  have := stays (n - (c + 1)) (by have := h.before; omega)
  rwa [show c + 1 + (n - (c + 1)) = n by have := h.before; omega] at this

theorem LastConflict.step {D : Finset RomCode} {p : RomCode} {n c : Nat} (h : LastConflict D p n c)
    (forced : ¬ Conflict D p n) : LastConflict D p (n + 1) c := by
  refine ⟨Nat.lt_succ_of_lt h.before, h.conflict, fun i lo hi => ?_⟩
  rcases Nat.lt_succ_iff_lt_or_eq.mp hi with lt | rfl
  · exact h.last i lo lt
  · exact forced

theorem LastConflict.le {D : Finset RomCode} {p : RomCode} {n c f : Nat} (h : LastConflict D p n c)
    (conflict : Conflict D p f) (before : f < n) : f ≤ c := by
  by_contra past
  exact h.last f (by omega) before conflict

theorem LastConflict.here {D : Finset RomCode} {p : RomCode} {n : Nat} (conflict : Conflict D p n) :
    LastConflict D p (n + 1) n :=
  ⟨Nat.lt_succ_self n, conflict, fun i lo hi => absurd lo (by omega)⟩

/-! ## The retraced prefix -/

/-- The scanner stands at a conflict `c` of the path `p` that the devices `D` still
have; before it `p` is clear at their conflicts, and the first of these
is not past `prevDiscrepancy`. -/
structure Retraceable (D : Finset RomCode) (p : RomCode) (sc : RomCodeScanner) (c : Nat) : Prop where
  bound : c < RomCode.width
  curr : sc.currDiscrepancy = c
  conflict : Conflict D p c
  clear : ∀ i < c, Conflict D p i → p.bit i = false
  first : ∀ i < c, Conflict D p i → conflicts D p i = 0 → (i : Int) ≤ sc.prevDiscrepancy

/-- The first `n` bits of `p` are a path through the devices `D` that the scanner follows:
their conflicts lie before `currDiscrepancy` and are clear in `p`, and the first
of them is not past `prevDiscrepancy`. -/
structure Follows (D : Finset RomCode) (p : RomCode) (sc : RomCodeScanner) (n : Nat) : Prop where
  bound : n ≤ RomCode.width
  device : ∃ d ∈ D, Same n d p
  inside : sc.prevDiscrepancy < RomCode.width
  behind : ∀ i < n, Conflict D p i → (i : Int) < sc.currDiscrepancy
  clear : ∀ i < n, Conflict D p i → p.bit i = false
  first : ∀ i < n, Conflict D p i → conflicts D p i = 0 → (i : Int) ≤ sc.prevDiscrepancy

/-- Only the path up to the conflict counts. -/
theorem Retraceable.congr {D : Finset RomCode} {p q : RomCode} {sc : RomCodeScanner} {c : Nat}
    (h : Retraceable D p sc c) (same : Same c p q) : Retraceable D q sc c := by
  have back : ∀ i < c, Conflict D q i → Conflict D p i := fun i hi conflict =>
    conflict.congr (same.mono (Nat.le_of_lt hi)).symm
  refine ⟨h.bound, h.curr, h.conflict.congr same, fun i hi conflict => ?_, fun i hi conflict none => ?_⟩
  · rw [← same i hi]
    exact h.clear i hi (back i hi conflict)
  · rw [← conflicts_congr (same.mono (Nat.le_of_lt hi))] at none
    exact h.first i hi (back i hi conflict) none

/-- After `n` bits of a call that follows `p`: only `prevDiscrepancy` has moved, to the
last conflict met. -/
structure Retracing (D : Finset RomCode) (p : RomCode) (sc₀ : RomCodeScanner) (n : Nat) (sc : RomCodeScanner)
    (buf : RomCode) : Prop where
  path : Same n p buf
  fields : sc = { sc₀ with prevDiscrepancy := sc.prevDiscrepancy }
  prev : (conflicts D p n = 0 ∧ sc.prevDiscrepancy = sc₀.prevDiscrepancy) ∨
    ∃ q, LastConflict D p n q ∧ sc.prevDiscrepancy = q

theorem Retraceable.follows {D : Finset RomCode} {p : RomCode} {sc : RomCodeScanner} {c : Nat}
    (h : Retraceable D p sc c) (ordered : sc.prevDiscrepancy ≤ sc.currDiscrepancy) : Follows D p sc c := by
  obtain ⟨⟨a, ha, agree, _⟩, _⟩ := h.conflict
  have bound := h.bound
  have curr := h.curr
  exact ⟨Nat.le_of_lt bound, ⟨a, ha, agree⟩, by omega, fun i hi _ => by omega, h.clear, h.first⟩

theorem walk_retracing {D : Finset RomCode} {p : RomCode} {sc₀ : RomCodeScanner} {c : Nat}
    (h : Follows D p sc₀ c) : ∃ sc buf, walk D sc₀ c = .ok (sc, buf) ∧ Retracing D p sc₀ c sc buf := by
  obtain ⟨d, hd, onPath⟩ := h.device
  have bound := h.bound
  refine walk_total ⟨d, hd⟩ (Retracing D p sc₀) bound
    ⟨sc₀, .new, rfl, fun i hi => absurd hi (Nat.not_lt_zero i), rfl, Or.inl ⟨rfl, rfl⟩⟩ ?_
    c (Nat.zero_le c) (Nat.le_refl c)
  intro n _ lt sc buf path inv
  have hn : n < RomCode.width := Nat.lt_of_lt_of_le lt bound
  by_cases conflict : Conflict D p n
  · have there : Conflict D buf n := conflict.congr inv.path
    have before : (n : Int) < sc.currDiscrepancy := by rw [inv.fields]; exact h.behind n lt conflict
    -- the previous discrepancy holds a clear bit: not written yet, or a conflict of `p`
    have held : 0 ≤ sc.prevDiscrepancy ∧ sc.prevDiscrepancy.toNat < RomCode.width ∧
        buf.bit sc.prevDiscrepancy.toNat = false := by
      rcases inv.prev with ⟨zero, kept⟩ | ⟨q, last, at'⟩
      · have ahead := h.first n lt conflict zero
        have within := h.inside
        exact ⟨by omega, by omega, path.fresh _ (by omega) (by omega)⟩
      · have before := last.before
        refine ⟨by omega, by omega, ?_⟩
        rw [at', Int.toNat_natCast, ← inv.path q before]
        exact h.clear q (by omega) last.conflict
    refine ⟨_, _, by rw [chooseBit_conflict there, handleDiscrepancy_ok]; exact .follow before held.1 held.2.1,
      (same_assign_succ hn).mpr ⟨inv.path, ?_⟩, ?_, Or.inr ⟨n, .here conflict, rfl⟩⟩
    · rw [held.2.2]; exact h.clear n lt conflict
    · rw [inv.fields]
  · have there : ¬ Conflict D buf n := fun f => conflict (f.congr inv.path.symm)
    refine ⟨sc, d.bit n, chooseBit_forced hd ((onPath.mono (Nat.le_of_lt lt)).trans inv.path) there,
      (same_assign_succ hn).mpr ⟨inv.path, (onPath n lt).symm⟩, inv.fields, ?_⟩
    exact inv.prev.imp (fun ⟨zero, kept⟩ => ⟨by rw [conflicts_succ, if_neg conflict, zero], kept⟩)
      (fun ⟨q, last, at'⟩ => ⟨q, last.step conflict, at'⟩)

/-! ## A call with nothing to take -/

/-- The scanner is past every conflict of the leftmost path `m`, and counts one all the same. -/
structure Repeating (D : Finset RomCode) (m : RomCode) (sc : RomCodeScanner) : Prop where
  left : Leftmost RomCode.bit RomCode.width D m
  counted : sc.conflictCount ≠ 0
  inside : sc.prevDiscrepancy < RomCode.width
  behind : ∀ i < RomCode.width, Conflict D m i → (i : Int) < sc.currDiscrepancy
  first : ∀ i < RomCode.width, Conflict D m i → conflicts D m i = 0 → (i : Int) ≤ sc.prevDiscrepancy

/-- Such a call yields `m`, and so does the next one. -/
theorem walk_repeating {D : Finset RomCode} {m : RomCode} {sc : RomCodeScanner} (repeating : Repeating D m sc) :
    ∃ sc', walk D sc RomCode.width = .ok (sc', m) ∧ Repeating D m sc' ∧ sc'.finished = sc.finished := by
  obtain ⟨sc', buf, result, inv⟩ := walk_retracing (c := RomCode.width)
    ⟨Nat.le_refl _, ⟨m, repeating.left.member, .refl _ m⟩, repeating.inside, repeating.behind,
      repeating.left.clear, repeating.first⟩
  obtain rfl : m = buf := RomCode.ext_bits inv.path
  have fields := inv.fields
  refine ⟨sc', result, ⟨repeating.left, by rw [fields]; exact repeating.counted, ?_,
    by rw [fields]; exact repeating.behind, fun i hi conflict none => ?_⟩, by rw [fields]⟩
  · rcases inv.prev with ⟨_, kept⟩ | ⟨q, last, at'⟩
    · rw [kept]; exact repeating.inside
    · have := last.before; omega
  · rcases inv.prev with ⟨zero, _⟩ | ⟨q, last, at'⟩
    · exact absurd conflict (conflicts_eq_zero.mp zero i hi)
    · have := last.le conflict hi; omega

/-! ## A call that takes a conflict -/

/-- The scanner right after the conflict `c` was taken. -/
structure Taken (D : Finset RomCode) (p : RomCode) (sc₀ : RomCodeScanner) (c : Nat) (sc : RomCodeScanner) : Prop where
  opened : sc.finished = sc₀.finished
  behind : sc.currDiscrepancy ≤ c
  count : sc.conflictCount = if c = 0 then 0 else sc₀.conflictCount - 1
  next : conflicts D p c = 0 ∨
    ∃ q, LastConflict D p c q ∧ sc.currDiscrepancy = q ∧ sc.prevDiscrepancy = q

/-- **The retraced prefix**: the call takes `p` up to the conflict, and the set side there. -/
theorem walk_retraced {D : Finset RomCode} {p : RomCode} {sc₀ : RomCodeScanner} {c : Nat}
    (h : Retraceable D p sc₀ c) (ordered : sc₀.prevDiscrepancy ≤ sc₀.currDiscrepancy)
    (counted : sc₀.conflictCount ≠ 0) :
    ∃ sc buf, walk D sc₀ (c + 1) = .ok (sc, buf) ∧ Same c p buf ∧ buf.bit c = true ∧ Taken D p sc₀ c sc := by
  obtain ⟨sc, buf, before, inv⟩ := walk_retracing (h.follows ordered)
  have bound := h.bound
  have here := h.curr
  have there : Conflict D buf c := h.conflict.congr inv.path
  have curr : sc.currDiscrepancy = c := by rw [inv.fields]; exact here
  have count : sc.conflictCount = sc₀.conflictCount := by rw [inv.fields]
  have opened : sc.finished = sc₀.finished := by rw [inv.fields]
  have path : Same c p (buf.assign c true) := ((same_assign bound (Nat.le_refl c)).mpr inv.path)
  have set : (buf.assign c true).bit c = true := by rw [RomCode.assign_bit buf true bound bound, if_pos rfl]
  rw [walk_succ before, chooseBit_conflict there]
  by_cases zero : c = 0
  · rw [handleDiscrepancy_ok.mpr (.resolveFirst curr zero)]
    exact ⟨_, _, rfl, path, set, opened, by dsimp only; omega, by rw [if_pos zero], Or.inl (by subst zero; rfl)⟩
  · rw [handleDiscrepancy_ok.mpr (.resolve curr zero (by rw [count]; exact counted))]
    refine ⟨_, _, rfl, path, set, opened, ?_, by rw [if_neg zero, count], ?_⟩
    · dsimp only
      rcases inv.prev with ⟨_, kept⟩ | ⟨q, last, at'⟩
      · omega
      · have := last.before; omega
    · exact inv.prev.imp And.left (fun ⟨q, last, at'⟩ => ⟨q, last, at', at'⟩)

end OcsComponents.OneWire
