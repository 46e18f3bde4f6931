import Mathlib.Data.List.Chain
import OcsComponents.Algo.TimeOps

/-!
# Rate limiters

`ocs_core/rate_limiter.{h,cpp}`: an operation is allowed when the interval has passed
since the last one that was. The time 0 stands for no operation yet, so that an
operation at the clock reading 0 is forgotten at once.
-/

namespace OcsComponents.Core
open Algo

structure RateLimiter where
  interval : Int
  start : Int
  deriving DecidableEq, Repr

namespace RateLimiter

def new (interval : Int) : RateLimiter := ⟨interval, 0⟩

/-- `RateLimiter::allow` at the clock reading `now`. -/
def allow (r : RateLimiter) (now : Int) : Bool × RateLimiter :=
  if r.start ≠ 0 ∧ after int64 r.start now r.interval = false then (false, r)
  else (true, { r with start := now })

theorem allow_first {r : RateLimiter} (now : Int) (first : r.start = 0) : r.allow now = (true, { r with start := now }) := by
  simp [allow, first]

theorem allow_passed {r : RateLimiter} {now : Int} (passed : after int64 r.start now r.interval = true) :
    r.allow now = (true, { r with start := now }) := by
  simp [allow, passed]

theorem allow_early {r : RateLimiter} {now : Int} (began : r.start ≠ 0)
    (early : after int64 r.start now r.interval = false) : r.allow now = (false, r) := by
  simp [allow, began, early]

/-- The answers at the clock readings, each with its reading. -/
def answers (r : RateLimiter) : List Int → List (Int × Bool)
  | [] => []
  | now :: readings => (now, (r.allow now).1) :: (r.allow now).2.answers readings

/-- The readings at which an operation was allowed. -/
def allowed (answers : List (Int × Bool)) : List Int := (answers.filter (·.2)).map (·.1)

/-- Since the operation at `last`: two operations in a row are an interval apart, and an
operation is allowed as soon as the interval has passed. -/
structure Paced (interval last : Int) (answers : List (Int × Bool)) : Prop where
  apart : (last :: allowed answers).IsChain fun t t' => t + interval ≤ t'
  due : ∀ before now ok rest, answers = before ++ (now, ok) :: rest →
    (last :: allowed before).getLast (List.cons_ne_nil _ _) + interval ≤ now → ok = true

/-- The first operation is allowed, and from then on the interval is honoured. -/
def Honoured (interval : Int) (answers : List (Int × Bool)) : Prop :=
  ∀ now ok rest, answers = (now, ok) :: rest → ok = true ∧ Paced interval now rest

theorem honoured_cons {interval now : Int} {answers : List (Int × Bool)} :
    Honoured interval ((now, true) :: answers) ↔ Paced interval now answers := by
  constructor
  · intro h
    exact (h now true answers rfl).2
  · intro paced now' ok rest same
    cases same
    exact ⟨rfl, paced⟩

theorem Paced.nil (interval last : Int) : Paced interval last [] := by
  refine ⟨List.isChain_singleton _, ?_⟩
  intro before now ok rest h
  cases before <;> cases h

theorem Paced.allow {interval last now : Int} {answers : List (Int × Bool)} (passed : last + interval ≤ now)
    (h : Paced interval now answers) : Paced interval last ((now, true) :: answers) := by
  obtain ⟨apart, due⟩ := h
  refine ⟨?_, ?_⟩
  · show (last :: now :: allowed answers).IsChain _
    exact List.isChain_cons_cons.mpr ⟨passed, apart⟩
  · intro before now' ok rest split
    cases before with
    | nil => cases split; simp
    | cons first before =>
      rw [List.cons_append, List.cons.injEq] at split
      obtain ⟨rfl, rfl⟩ := split
      intro passed'
      apply due before now' ok rest rfl
      simpa [allowed, List.getLast_cons] using passed'

theorem Paced.deny {interval last now : Int} {answers : List (Int × Bool)} (early : now < last + interval)
    (h : Paced interval last answers) : Paced interval last ((now, false) :: answers) := by
  obtain ⟨apart, due⟩ := h
  refine ⟨apart, ?_⟩
  intro before now' ok rest split
  cases before with
  | nil =>
    cases split
    intro passed
    exact absurd passed (Int.not_le.mpr early)
  | cons first before =>
    rw [List.cons_append, List.cons.injEq] at split
    obtain ⟨rfl, rfl⟩ := split
    exact due before now' ok rest rfl

/-- After an operation at a reading that is not 0 the limiter does what it should. -/
theorem answers_paced {interval last : Int} {readings : List Int} (positive : 0 < interval) (began : 0 < last)
    (forward : (last :: readings).Pairwise (· ≤ ·)) (far : ∀ t ∈ last :: readings, t + interval < 2 ^ 63) :
    Paced interval last (answers ⟨interval, last⟩ readings) := by
  induction readings generalizing last with
  | nil => exact .nil ..
  | cons now readings ih =>
    have next : last ≤ now := (List.pairwise_cons.mp forward).1 now (by simp)
    have same := after_forward (Int.le_of_lt began) next positive (far last (by simp))
    unfold answers
    by_cases passed : last + interval ≤ now
    · rw [allow_passed (r := ⟨interval, last⟩) (by rw [same]; exact decide_eq_true passed)]
      apply Paced.allow passed
      apply ih (by omega) (List.pairwise_cons.mp forward).2
      exact fun t h => far t (List.mem_cons_of_mem _ h)
    · rw [allow_early (r := ⟨interval, last⟩) (Int.ne_of_gt began) (by rw [same]; exact decide_eq_false passed)]
      apply Paced.deny (Int.not_le.mp passed)
      apply ih began (forward.sublist (by simp))
      intro t h
      apply far
      grind

/-- The limiter forgets its first operation. -/
def Forgets (interval : Int) (readings : List Int) : Prop :=
  ∃ now rest, readings = 0 :: now :: rest ∧ now < interval

/-- **A limiter honours its interval** if and only if it is not asked at the reading 0
and again within the interval. -/
theorem answers_honoured_iff {interval : Int} {readings : List Int} (positive : 0 < interval)
    (low : ∀ t ∈ readings, 0 ≤ t) (forward : readings.Pairwise (· ≤ ·))
    (far : ∀ t ∈ readings, t + interval < 2 ^ 63) :
    Honoured interval ((new interval).answers readings) ↔ ¬ Forgets interval readings := by
  cases readings with
  | nil =>
    refine iff_of_true ?_ ?_
    · intro now ok rest none
      cases none
    · rintro ⟨now, rest, none, _⟩
      cases none
  | cons first readings =>
    unfold answers
    rw [allow_first (r := new interval) first rfl, honoured_cons]
    show Paced interval first (answers ⟨interval, first⟩ readings) ↔ _
    rcases Int.lt_or_eq_of_le (low first (by simp)) with began | zero
    · refine iff_of_true (answers_paced positive began forward far) ?_
      rintro ⟨now, rest, same, _⟩
      cases same
      exact Int.lt_irrefl 0 began
    · subst zero
      cases readings with
      | nil =>
        refine iff_of_true (.nil ..) ?_
        rintro ⟨now, rest, same, _⟩
        cases same
      | cons now readings =>
        -- the second operation is allowed at any reading
        unfold answers
        rw [allow_first (r := ⟨interval, 0⟩) now rfl]
        constructor
        · rintro ⟨apart, _⟩ ⟨now', rest, same, early⟩
          cases same
          have gap : 0 + interval ≤ now := (List.isChain_cons_cons.mp apart).1
          omega
        · intro keeps
          have passed : interval ≤ now := by
            by_contra early
            exact keeps ⟨now, readings, rfl, Int.not_le.mp early⟩
          apply Paced.allow (by omega)
          apply answers_paced positive (by omega) (List.pairwise_cons.mp forward).2
          exact fun t h => far t (List.mem_cons_of_mem _ h)

end RateLimiter

end OcsComponents.Core
