import Mathlib.Data.Prod.Lex

/-!
# Versions

`ocs_core/version.{h,cpp}`: three 16-bit components and their comparisons.

`operator<` answers `true` as soon as one component is smaller, also under a more
significant component that is greater. So it is the lexicographic order on some pairs of
versions only: on those that `Ordered` describes, exactly.
-/

namespace OcsComponents.Core

structure Version where
  major : BitVec 16
  minor : BitVec 16
  patch : BitVec 16
  deriving DecidableEq, Repr

namespace Version

/-- A component as it lies in memory. -/
def halves (c : BitVec 16) : List (BitVec 8) := [c.extractLsb' 0 8, c.extractLsb' 8 8]

/-- The `sizeof(Version)` bytes of a version: three components in a row, with no padding. -/
def bytes (v : Version) : List (BitVec 8) := halves v.major ++ halves v.minor ++ halves v.patch

/-- `operator==`: `memcmp` of the two versions. -/
def eq (a b : Version) : Bool := bytes a == bytes b

/-- `operator!=`. -/
def ne (a b : Version) : Bool := !eq a b

/-- `operator<`. -/
def lt (a b : Version) : Bool :=
  if a.major < b.major then true
  else if a.minor < b.minor then true
  else decide (a.patch < b.patch)

theorem halves_inj {c d : BitVec 16} : halves c = halves d ↔ c = d := by
  constructor
  · intro same
    simp only [halves, List.cons.injEq, and_true] at same
    obtain ⟨low, high⟩ := same
    apply BitVec.eq_of_getLsbD_eq
    intro i bound
    by_cases low_half : i < 8
    · have bit := congrArg (·.getLsbD i) low
      simpa [BitVec.getLsbD_extractLsb', low_half] using bit
    · have bit := congrArg (·.getLsbD (i - 8)) high
      simpa [BitVec.getLsbD_extractLsb', show i - 8 < 8 by omega, show 8 + (i - 8) = i by omega] using bit
  · rintro rfl
    rfl

theorem eq_iff {a b : Version} : eq a b ↔ a = b := by
  obtain ⟨major, minor, patch⟩ := a
  obtain ⟨major', minor', patch'⟩ := b
  simp only [eq, bytes, beq_iff_eq, mk.injEq, ← halves_inj]
  simp [halves, and_assoc]

/-! ## The lexicographic order -/

/-- The components by their significance. -/
def rank (v : Version) : ℕ ×ₗ ℕ ×ₗ ℕ := toLex (v.major.toNat, toLex (v.minor.toNat, v.patch.toNat))

theorem rank_lt_iff {a b : Version} : rank a < rank b ↔ a.major < b.major ∨
    a.major = b.major ∧ (a.minor < b.minor ∨ a.minor = b.minor ∧ a.patch < b.patch) := by
  simp only [rank, Prod.Lex.toLex_lt_toLex, BitVec.lt_def, ← BitVec.toNat_inj]

theorem rank_inj {a b : Version} : rank a = rank b ↔ a = b := by
  obtain ⟨major, minor, patch⟩ := a
  obtain ⟨major', minor', patch'⟩ := b
  simp [rank, BitVec.toNat_inj]

theorem lt_iff {a b : Version} : lt a b ↔ a.major < b.major ∨ a.minor < b.minor ∨ a.patch < b.patch := by
  unfold lt
  by_cases major : a.major < b.major
  · simp [major]
  · by_cases minor : a.minor < b.minor <;> simp [major, minor]

/-- A smaller version is recognized always. -/
theorem lt_of_rank_lt {a b : Version} (less : rank a < rank b) : lt a b := by
  rw [rank_lt_iff] at less
  rw [lt_iff]
  obtain major | ⟨-, minor | ⟨-, patch⟩⟩ := less
  · exact .inl major
  · exact .inr (.inl minor)
  · exact .inr (.inr patch)

/-- No component of `a` is smaller than that of `b` under a more significant one that is greater. -/
def Ordered (a b : Version) : Prop :=
  ¬ (b.major < a.major ∧ (a.minor < b.minor ∨ a.patch < b.patch)) ∧
  ¬ (a.major = b.major ∧ b.minor < a.minor ∧ a.patch < b.patch)

instance (a b : Version) : Decidable (Ordered a b) := inferInstanceAs (Decidable (_ ∧ _))

theorem lt_iff_rank_lt_iff {a b : Version} : (lt a b ↔ rank a < rank b) ↔ Ordered a b := by
  rw [lt_iff, rank_lt_iff, Ordered]
  simp only [BitVec.lt_def, ← BitVec.toNat_inj]
  omega

/-- Exactly one of the three comparisons holds. -/
def Trichotomous (a b : Version) : Prop :=
  (lt a b ∧ ¬ eq a b ∧ ¬ lt b a) ∨ (¬ lt a b ∧ eq a b ∧ ¬ lt b a) ∨ (¬ lt a b ∧ ¬ eq a b ∧ lt b a)

theorem lt_irrefl (a : Version) : ¬ lt a a := by
  rw [lt_iff]
  simp only [BitVec.lt_def]
  omega

theorem Trichotomous.symm {a b : Version} (one : Trichotomous a b) : Trichotomous b a := by
  simp only [Trichotomous, eq_iff, @eq_comm _ b] at one ⊢
  tauto

theorem trichotomous_of_ordered {a b : Version} (forth : Ordered a b) (back : Ordered b a) : Trichotomous a b := by
  have less := lt_iff_rank_lt_iff.mpr forth
  have more := lt_iff_rank_lt_iff.mpr back
  rw [Trichotomous, less, more, eq_iff, ← rank_inj]
  obtain below | same | above := lt_trichotomy (rank a) (rank b)
  · exact .inl ⟨below, below.ne, below.not_gt⟩
  · exact .inr (.inl ⟨same.not_lt, same, same.not_gt⟩)
  · exact .inr (.inr ⟨above.not_gt, above.ne', above⟩)

/-- Where `operator<` is wrong, the versions are in order the other way round, which it answers as well. -/
theorem Trichotomous.ordered {a b : Version} (one : Trichotomous a b) : Ordered a b := by
  rw [← lt_iff_rank_lt_iff]
  refine ⟨fun less => ?_, lt_of_rank_lt⟩
  by_contra wrong
  obtain same | above := (not_lt.mp wrong).eq_or_lt
  · obtain rfl := rank_inj.mp same
    exact lt_irrefl _ less
  · have more := lt_of_rank_lt above
    simp [Trichotomous, less, more] at one

theorem trichotomous_iff {a b : Version} : Trichotomous a b ↔ Ordered a b ∧ Ordered b a :=
  ⟨fun one => ⟨one.ordered, one.symm.ordered⟩, fun ⟨forth, back⟩ => trichotomous_of_ordered forth back⟩

/-- No component of a smaller version is greater. -/
theorem le_of_lt {a b : Version} (forth : Ordered a b) (back : Ordered b a) (less : lt a b) :
    a.major ≤ b.major ∧ a.minor ≤ b.minor ∧ a.patch ≤ b.patch := by
  rw [lt_iff] at less
  simp only [Ordered, BitVec.lt_def, BitVec.le_def, ← BitVec.toNat_inj] at *
  omega

/-- Whatever is above the greater version has a component above that of the smaller one. -/
theorem lt_trans {a b c : Version} (forth : Ordered a b) (back : Ordered b a) (less : lt a b) (less' : lt b c) :
    lt a c := by
  obtain ⟨major, minor, patch⟩ := le_of_lt forth back less
  rw [lt_iff] at less' ⊢
  obtain above | above | above := less'
  · exact .inl (Std.lt_of_le_of_lt major above)
  · exact .inr (.inl (Std.lt_of_le_of_lt minor above))
  · exact .inr (.inr (Std.lt_of_le_of_lt patch above))

/-- What a strict total order by the components says of three versions. -/
def Lexicographic (a b c : Version) : Prop :=
  (lt a b ↔ rank a < rank b) ∧ ¬ lt a a ∧ (lt a b → lt b c → lt a c) ∧ Trichotomous a b

/-- **`operator<` is the lexicographic order on exactly the pairs that are `Ordered`**, and a strict
total order on exactly those that are so both ways. -/
theorem lexicographic_iff (a b c : Version) :
    ((lt a b ↔ rank a < rank b) ↔ Ordered a b) ∧ (Lexicographic a b c ↔ Ordered a b ∧ Ordered b a) := by
  refine ⟨lt_iff_rank_lt_iff, ?_, ?_⟩
  · rintro ⟨-, -, -, one⟩
    exact trichotomous_iff.mp one
  · rintro ⟨forth, back⟩
    exact ⟨lt_iff_rank_lt_iff.mpr forth, lt_irrefl a, lt_trans forth back, trichotomous_of_ordered forth back⟩

/-- `1.0.0` and `0.1.0` are each below the other. -/
theorem lexicographic_fails : ¬ ∀ a b c : Version, Lexicographic a b c := by
  intro total
  have disordered := lt_iff_rank_lt_iff.mp (total ⟨1, 0, 0⟩ ⟨0, 1, 0⟩ ⟨0, 0, 0⟩).1
  exact absurd disordered (by decide)

end Version

end OcsComponents.Core
