import Mathlib.Algebra.Group.Nat.Defs
import Mathlib.Data.Finset.Basic

/-!
# Finite sets of bit strings as binary tries

A finite set `D` of elements with bits `bit d 0, bit d 1, …` is the set of leaves of a
binary trie. A path is an element `p`; the subtree below its first `n` bits
holds the members of `D` that agree with it there, and the path forks at `n`
when that subtree has both a member with bit `n` clear and one with it set.

Two facts carry the searches over such a set. Some member takes the clear
side at every fork of its own path (`exists_leftmost`). And `D` is a *comb*,
every set side of a fork holding one member, exactly when no member takes the set side of two
forks (`exists_two_of_not_comb`, `Comb.no_fork_after`).
-/

namespace BitTrie

variable {δ : Type} (bit : δ → Nat → Bool)

/-- `a` and `b` have the same first `n` bits. -/
def Agree (n : Nat) (a b : δ) : Prop := ∀ i < n, bit a i = bit b i

instance (n : Nat) (a b : δ) : Decidable (Agree bit n a b) :=
  inferInstanceAs (Decidable (∀ i < n, bit a i = bit b i))

variable {bit}

theorem Agree.refl (n : Nat) (a : δ) : Agree bit n a a := fun _ _ => rfl

theorem Agree.symm {n : Nat} {a b : δ} (h : Agree bit n a b) : Agree bit n b a :=
  fun i hi => (h i hi).symm

theorem Agree.trans {n : Nat} {a b c : δ} (h : Agree bit n a b) (h' : Agree bit n b c) : Agree bit n a c :=
  fun i hi => (h i hi).trans (h' i hi)

theorem Agree.mono {n m : Nat} {a b : δ} (h : Agree bit n a b) (le : m ≤ n) : Agree bit m a b :=
  fun i hi => h i (Nat.lt_of_lt_of_le hi le)

theorem agree_succ {n : Nat} {a b : δ} :
    Agree bit (n + 1) a b ↔ Agree bit n a b ∧ bit a n = bit b n := by
  constructor
  · intro h
    exact ⟨h.mono (Nat.le_succ n), h n (Nat.lt_succ_self n)⟩
  · rintro ⟨h, last⟩ i hi
    rcases Nat.lt_succ_iff_lt_or_eq.mp hi with lt | rfl
    · exact h i lt
    · exact last

/-- Members that do not agree on `n` bits have a first difference below `n`. -/
theorem exists_first_difference {n : Nat} {a b : δ} (h : ¬ Agree bit n a b) :
    ∃ k < n, Agree bit k a b ∧ bit a k ≠ bit b k := by
  induction n with
  | zero => exact absurd (fun i hi => absurd hi (Nat.not_lt_zero i)) h
  | succ n ih =>
    by_cases below : Agree bit n a b
    · exact ⟨n, Nat.lt_succ_self n, below, fun same => h (agree_succ.mpr ⟨below, same⟩)⟩
    · obtain ⟨k, lt, agree, differ⟩ := ih below
      exact ⟨k, Nat.lt_succ_of_lt lt, agree, differ⟩

variable (bit)

/-- The members of `D` below the first `n` bits of the path `p`. -/
def subtree (D : Finset δ) (p : δ) (n : Nat) : Finset δ := D.filter (fun d => Agree bit n d p)

/-- The path `p` forks at `n`: both sides of the subtree there are inhabited. -/
def Fork (D : Finset δ) (p : δ) (n : Nat) : Prop :=
  (∃ a ∈ D, Agree bit n a p ∧ bit a n = false) ∧ ∃ b ∈ D, Agree bit n b p ∧ bit b n = true

instance (D : Finset δ) (p : δ) (n : Nat) : Decidable (Fork bit D p n) :=
  inferInstanceAs (Decidable (_ ∧ _))

/-- Every set side of a fork within the first `w` bits holds a single member. -/
def Comb (w : Nat) (D : Finset δ) : Prop :=
  ∀ a ∈ D, ∀ b ∈ D, ∀ c ∈ D, ∀ n < w, Agree bit n a c ∧ Agree bit n b c →
    bit a n = true ∧ bit b n = true ∧ bit c n = false → a = b

set_option synthInstance.maxSize 1024 in
instance [DecidableEq δ] (w : Nat) (D : Finset δ) : Decidable (Comb bit w D) :=
  inferInstanceAs (Decidable (∀ a ∈ D, ∀ b ∈ D, ∀ c ∈ D, ∀ n < w, Agree bit n a c ∧ Agree bit n b c →
    bit a n = true ∧ bit b n = true ∧ bit c n = false → a = b))

variable {bit}

@[simp] theorem mem_subtree {D : Finset δ} {p d : δ} {n : Nat} :
    d ∈ subtree bit D p n ↔ d ∈ D ∧ Agree bit n d p := by
  simp [subtree]

theorem subtree_zero (D : Finset δ) (p : δ) : subtree bit D p 0 = D := by
  ext d; simp [Agree]

/-- Forking depends on the path's earlier bits only. -/
theorem Fork.congr {D : Finset δ} {p q : δ} {n : Nat} (h : Agree bit n p q) (fork : Fork bit D p n) :
    Fork bit D q n := by
  obtain ⟨⟨a, ha, agreeA, clear⟩, b, hb, agreeB, set⟩ := fork
  exact ⟨⟨a, ha, agreeA.trans h, clear⟩, b, hb, agreeB.trans h, set⟩

theorem fork_congr {D : Finset δ} {p q : δ} {n : Nat} (h : Agree bit n p q) :
    Fork bit D p n ↔ Fork bit D q n :=
  ⟨Fork.congr h, Fork.congr h.symm⟩

/-- All of `D` has the same first `n` bits. -/
def Common (bit : δ → Nat → Bool) (D : Finset δ) (n : Nat) : Prop := ∀ a ∈ D, ∀ b ∈ D, Agree bit n a b

/-- Nothing past a fork is common. -/
theorem Fork.common_le {D : Finset δ} {p : δ} {n k : Nat} (fork : Fork bit D p n) (common : Common bit D k) :
    k ≤ n := by
  obtain ⟨⟨a, ha, _, clear⟩, b, hb, _, set⟩ := fork
  by_contra lt
  have same := common a ha b hb n (by omega)
  rw [clear, set] at same
  cases same

/-- Without a fork so far, the whole of `D` lies below the path. -/
theorem common_of_no_fork {D : Finset δ} {p d : δ} {n : Nat} (member : d ∈ D) (onPath : Agree bit n d p)
    (noFork : ∀ i < n, ¬ Fork bit D p i) : ∀ a ∈ D, Agree bit n a p := by
  induction n with
  | zero => intro a _ i hi; exact absurd hi (Nat.not_lt_zero i)
  | succ n ih =>
    intro a ha
    have below := ih (onPath.mono (Nat.le_succ n)) (fun i hi => noFork i (Nat.lt_succ_of_lt hi))
    refine agree_succ.mpr ⟨below a ha, ?_⟩
    by_contra differ
    have onBit : bit d n = bit p n := (agree_succ.mp onPath).2
    apply noFork n (Nat.lt_succ_self n)
    cases pn : bit p n with
    | false =>
      refine ⟨⟨d, member, below d member, by rw [onBit, pn]⟩, a, ha, below a ha, ?_⟩
      cases an : bit a n with
      | false => rw [an, pn] at differ; exact absurd rfl differ
      | true => rfl
    | true =>
      refine ⟨⟨a, ha, below a ha, ?_⟩, d, member, below d member, by rw [onBit, pn]⟩
      cases an : bit a n with
      | false => rfl
      | true => rw [an, pn] at differ; exact absurd rfl differ

/-- A set without a common path of `n` bits has a first fork before `n`, on every path. -/
theorem exists_common_fork {D : Finset δ} {n : Nat} (apart : ¬ Common bit D n) :
    ∃ k < n, Common bit D k ∧ ∀ d ∈ D, Fork bit D d k := by
  induction n with
  | zero => exact absurd (fun a _ b _ i hi => absurd hi (Nat.not_lt_zero i)) apart
  | succ n ih =>
    by_cases below : Common bit D n
    · refine ⟨n, Nat.lt_succ_self n, below, fun d hd => ?_⟩
      simp only [Common, not_forall] at apart
      obtain ⟨a, ha, b, hb, differ⟩ := apart
      rw [agree_succ, not_and] at differ
      have apart := differ (below a ha b hb)
      cases bitA : bit a n with
      | false => exact ⟨⟨a, ha, below a ha d hd, bitA⟩, b, hb, below b hb d hd, by simpa [bitA] using apart⟩
      | true => exact ⟨⟨b, hb, below b hb d hd, by simpa [bitA] using apart⟩, a, ha, below a ha d hd, bitA⟩
    · obtain ⟨k, lt, common, fork⟩ := ih below
      exact ⟨k, Nat.lt_succ_of_lt lt, common, fork⟩

/-- A member that takes the clear side at every fork of its own path. -/
structure Leftmost (bit : δ → Nat → Bool) (w : Nat) (D : Finset δ) (m : δ) : Prop where
  member : m ∈ D
  clear : ∀ n < w, Fork bit D m n → bit m n = false

theorem exists_leftmost {D : Finset δ} (nonempty : D.Nonempty) (w : Nat) : ∃ m, Leftmost bit w D m := by
  induction w with
  | zero =>
    obtain ⟨m, hm⟩ := nonempty
    exact ⟨m, hm, fun n hn => absurd hn (Nat.not_lt_zero n)⟩
  | succ w ih =>
    obtain ⟨m, hm, clear⟩ := ih
    by_cases turn : Fork bit D m w ∧ bit m w = true
    · -- switch to a member on the clear side: the earlier forks are the same
      obtain ⟨⟨⟨a, ha, agree, unset⟩, _⟩, _⟩ := turn
      refine ⟨a, ha, fun n hn fork => ?_⟩
      rcases Nat.lt_succ_iff_lt_or_eq.mp hn with lt | rfl
      · rw [agree n lt]
        exact clear n lt (fork.congr (agree.mono (Nat.le_of_lt lt)))
      · exact unset
    · refine ⟨m, hm, fun n hn fork => ?_⟩
      rcases Nat.lt_succ_iff_lt_or_eq.mp hn with lt | rfl
      · exact clear n lt fork
      · cases value : bit m n with
        | false => rfl
        | true => exact absurd ⟨fork, value⟩ turn

/-- A member off the leftmost path leaves it at a fork, to the set side. -/
theorem Leftmost.leaves {w : Nat} {D : Finset δ} {m d : δ} (left : Leftmost bit w D m) (member : d ∈ D)
    (off : ¬ Agree bit w d m) : ∃ n < w, Fork bit D m n ∧ Agree bit n d m ∧ bit d n = true := by
  obtain ⟨n, lt, agree, differ⟩ := exists_first_difference off
  have clear : bit m n = false := by
    cases value : bit m n with
    | false => rfl
    | true =>
      have unset : bit d n = false := by
        cases dn : bit d n with
        | false => rfl
        | true => rw [value, dn] at differ; exact absurd rfl differ
      have fork : Fork bit D m n := ⟨⟨d, member, agree, unset⟩, m, left.member, .refl n m, value⟩
      rw [left.clear n lt fork] at value
      cases value
  have set : bit d n = true := by
    cases dn : bit d n with
    | false => rw [clear, dn] at differ; exact absurd rfl differ
    | true => rfl
  exact ⟨n, lt, ⟨⟨m, left.member, .refl n m, clear⟩, d, member, agree, set⟩, agree, set⟩

/-- In a comb nothing forks past a set side. -/
theorem Comb.no_fork_after {w : Nat} {D : Finset δ} (comb : Comb bit w D) {p : δ} {n k : Nat}
    (lt : n < k) (bound : n < w) (fork : Fork bit D p n) (set : bit p n = true) : ¬ Fork bit D p k := by
  rintro ⟨⟨a, ha, agreeA, clearA⟩, b, hb, agreeB, setB⟩
  obtain ⟨⟨c, hc, agreeC, clearC⟩, _⟩ := fork
  have up : ∀ {d}, Agree bit k d p → Agree bit n d c ∧ bit d n = true := fun h =>
    ⟨(h.mono (Nat.le_of_lt lt)).trans agreeC.symm, (h n lt).trans set⟩
  have same : a = b := comb a ha b hb c hc n bound ⟨(up agreeA).1, (up agreeB).1⟩
    ⟨(up agreeA).2, (up agreeB).2, clearC⟩
  rw [same, setB] at clearA
  cases clearA

/-- A member that is on the set side of two forks, in a set that is not a comb. -/
theorem exists_two_of_not_comb {w : Nat} {D : Finset δ} (separated : ∀ a ∈ D, ∀ b ∈ D, Agree bit w a b → a = b)
    (notComb : ¬ Comb bit w D) :
    ∃ d ∈ D, ∃ n k, n < k ∧ k < w ∧ (Fork bit D d n ∧ bit d n = true) ∧ Fork bit D d k ∧ bit d k = true := by
  simp only [Comb, not_forall] at notComb
  obtain ⟨a, ha, b, hb, c, hc, n, hn, ⟨agreeA, agreeB⟩, ⟨setA, setB, clearC⟩, ne⟩ := notComb
  obtain ⟨k, hk, agree, differ⟩ := exists_first_difference (fun same => ne (separated a ha b hb same))
  -- the first difference of `a` and `b` lies past `n`, where both are set
  have past : n < k := by
    by_contra le
    rcases Nat.lt_or_ge k n with lt | ge
    · exact differ ((agreeA k lt).trans (agreeB k lt).symm)
    · obtain rfl : k = n := by omega
      exact differ (setA.trans setB.symm)
  cases value : bit a k with
  | true =>
    have clearB : bit b k = false := by
      cases bk : bit b k with
      | false => rfl
      | true => rw [value, bk] at differ; exact absurd rfl differ
    exact ⟨a, ha, n, k, past, hk,
      ⟨⟨⟨c, hc, agreeA.symm, clearC⟩, a, ha, .refl n a, setA⟩, setA⟩,
      ⟨⟨b, hb, agree.symm, clearB⟩, a, ha, .refl k a, value⟩, value⟩
  | false =>
    have setK : bit b k = true := by
      cases bk : bit b k with
      | false => rw [value, bk] at differ; exact absurd rfl differ
      | true => rfl
    exact ⟨b, hb, n, k, past, hk,
      ⟨⟨⟨c, hc, agreeB.symm, clearC⟩, b, hb, .refl n b, setB⟩, setB⟩,
      ⟨⟨a, ha, agree, value⟩, b, hb, .refl k b, setK⟩, setK⟩

/-! ## The rank of a path -/

/-- The first `n` bits of a path as a number, the first bit the highest. -/
def rank (bit : δ → Nat → Bool) : Nat → δ → Nat
  | 0, _ => 0
  | n + 1, d => 2 * rank bit n d + (bit d n).toNat

theorem rank_lt (n : Nat) (d : δ) : rank bit n d < 2 ^ n := by
  induction n with
  | zero => simp [rank]
  | succ n ih =>
    have := Bool.toNat_le (bit d n)
    rw [rank, Nat.pow_succ]
    omega

theorem Agree.rank_eq {n : Nat} {a b : δ} (h : Agree bit n a b) : rank bit n a = rank bit n b := by
  induction n with
  | zero => rfl
  | succ n ih =>
    obtain ⟨below, last⟩ := agree_succ.mp h
    rw [rank, rank, ih below, last]

/-- Turning to the set side raises the rank, whatever follows. -/
theorem Agree.rank_lt {n c : Nat} {a b : δ} (h : Agree bit c a b) (lt : c < n) (clear : bit a c = false)
    (set : bit b c = true) : rank bit n a < rank bit n b := by
  induction n, lt using Nat.le_induction with
  | base => simp [rank, h.rank_eq, clear, set]
  | succ n _ ih =>
    have := Bool.toNat_le (bit a n)
    rw [rank, rank]
    omega

end BitTrie
