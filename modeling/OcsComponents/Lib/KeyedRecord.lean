import Mathlib.Logic.Function.Basic
import Mathlib.Data.List.Basic

/-!
# Records kept under several keys

A store holds at most one value a key. A record is written to it key after key in a fixed
order. Each single write happens or does not happen, and the first that does not ends the
writing. So a writing that was interrupted leaves the record on the first keys of the order
and what was there before on the others, and where the keys present came first in the order
they still do.
-/

namespace KeyedRecord
variable {κ : Type} {V : κ → Type}

/-- At most one value a key. -/
abbrev Cells (V : κ → Type) := (k : κ) → Option (V k)

/-- The keys present come first in the order. -/
def Prefixed (order : List κ) (cells : Cells V) : Prop :=
  order.Pairwise fun k k' => (cells k').isSome → (cells k).isSome

theorem prefixed_none (order : List κ) : Prefixed order (fun _ => none : Cells V) :=
  List.pairwise_of_forall (by simp)

theorem prefixed_all (order : List κ) {cells : Cells V} (present : ∀ k, (cells k).isSome) : Prefixed order cells :=
  List.pairwise_of_forall fun k _ _ => present k

variable [DecidableEq κ]

/-- The record written at the keys, one after another. -/
def putAll (record : (k : κ) → V k) : List κ → Cells V → Cells V
  | [], cells => cells
  | k :: ks, cells => putAll record ks (Function.update cells k (some (record k)))

theorem putAll_apply (record : (k : κ) → V k) (ks : List κ) (cells : Cells V) (k : κ) :
    putAll record ks cells k = if k ∈ ks then some (record k) else cells k := by
  induction ks generalizing cells with
  | nil => simp [putAll]
  | cons k' ks ih =>
    rw [putAll, ih]
    by_cases later : k ∈ ks
    · simp [later]
    · by_cases here : k = k'
      · subst here; simp [later]
      · simp [later, here]

/-- **Writing the first keys keeps the order.** -/
theorem Prefixed.putAll_first {order ks : List κ} {cells : Cells V} (h : Prefixed order cells) (nodup : order.Nodup)
    (first : ks <+: order) (record : (k : κ) → V k) : Prefixed order (putAll record ks cells) := by
  obtain ⟨rest, rfl⟩ := first
  obtain ⟨written, old, _⟩ := List.pairwise_append.mp h
  have apart := (List.nodup_append.mp nodup).2.2
  refine List.pairwise_append.mpr ⟨?_, ?_, ?_⟩
  · refine written.imp_of_mem ?_
    intro k _ member _ _ _
    simp [putAll_apply, member]
  · refine old.imp_of_mem ?_
    intro k k' member member' kept
    have new : k ∉ ks := fun early => apart k early k member rfl
    have new' : k' ∉ ks := fun early => apart k' early k' member' rfl
    simpa [putAll_apply, new, new'] using kept
  · intro k member k' _ _
    simp [putAll_apply, member]

end KeyedRecord
