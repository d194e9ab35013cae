import Mathlib.Data.Set.Basic
import Mathlib.Tactic.Common

/-!
# Deadlock

`waits i j` says that process `i` can go on only after process `j` has moved. A set of processes is
deadlocked when each of them waits for one of the set.
-/

namespace Deadlock

variable {ι : Type*} {waits : ι → ι → Prop} {D : Set ι}

/-- No process of `D` will move: each waits for one of them. -/
def Deadlocked (waits : ι → ι → Prop) (D : Set ι) : Prop := D.Nonempty ∧ ∀ i ∈ D, ∃ j ∈ D, waits i j

lemma deadlocked_singleton {i : ι} (h : waits i i) : Deadlocked waits {i} := by
  refine ⟨⟨i, rfl⟩, ?_⟩
  rintro j rfl
  exact ⟨j, rfl, h⟩

lemma Deadlocked.rank_unbounded (h : Deadlocked waits D) (rank : ι → ℕ)
    (hrank : ∀ i j k, waits i j → waits j k → rank j < rank k) (n : ℕ) :
    ∃ i ∈ D, ∃ j ∈ D, waits i j ∧ n ≤ rank j := by
  induction n with
  | zero =>
    obtain ⟨i, hi⟩ := h.1
    obtain ⟨j, hj, hij⟩ := h.2 i hi
    exact ⟨i, hi, j, hj, hij, Nat.zero_le _⟩
  | succ n ih =>
    obtain ⟨i, _, j, hj, hij, hn⟩ := ih
    obtain ⟨k, hk, hjk⟩ := h.2 j hj
    have hlt := hrank i j k hij hjk
    exact ⟨j, hj, k, hk, hjk, by omega⟩

/-- If whoever is waited for and waits itself waits for something of higher rank, and ranks are bounded,
nothing is deadlocked. -/
theorem not_deadlocked_of_rank (rank : ι → ℕ) (bound : ℕ) (hbound : ∀ i, rank i < bound)
    (hrank : ∀ i j k, waits i j → waits j k → rank j < rank k) (D : Set ι) : ¬Deadlocked waits D := by
  intro h
  obtain ⟨_, _, j, _, _, hj⟩ := h.rank_unbounded rank hrank bound
  have hlt := hbound j
  omega

end Deadlock
