import Mathlib.Data.List.Perm.Subperm
import Mathlib.Tactic

/-!
# Arrival orders

Numbered items arrive one after the other, in any order.  `nextExpected A` is the
first number that is not among the arrived ones, and `held A` are the arrived
numbers behind it.

* `nextExpected_append_later`: an item behind the next one leaves it as it is;
* `nextExpected_append_next`: the next item brings with it all that are held
  directly behind it;
* `nextExpected_of_all`: when all have arrived, nothing is held back.
-/

namespace Arrivals

open List

variable {A : List ℕ} {e i : ℕ}

/-- The first number from `e` on that has not arrived, within so many. -/
def nextFrom (A : List ℕ) : ℕ → ℕ → ℕ
  | 0, e => e
  | n + 1, e => if e ∈ A then nextFrom A n (e + 1) else e

def nextExpected (A : List ℕ) : ℕ :=
  nextFrom A A.length 0

def held (A : List ℕ) : List ℕ :=
  A.filter (fun i => decide (nextExpected A < i))

theorem nextFrom_spec (A : List ℕ) (n e : ℕ) :
    e ≤ nextFrom A n e ∧ (∀ j, e ≤ j → j < nextFrom A n e → j ∈ A) ∧
      (nextFrom A n e ∉ A ∨ nextFrom A n e = e + n) := by
  induction n generalizing e with
  | zero =>
    refine ⟨le_rfl, ?_, .inr rfl⟩
    intro j hle hlt
    exact absurd (hle.trans_lt hlt) (Nat.lt_irrefl e)
  | succ n ih =>
    rw [nextFrom]
    split_ifs with hmem
    · obtain ⟨hle, hall, hend⟩ := ih (e + 1)
      refine ⟨by omega, ?_, ?_⟩
      · intro j hlow hhigh
        rcases Nat.eq_or_lt_of_le hlow with rfl | hlow
        · exact hmem
        · exact hall j hlow hhigh
      · rcases hend with hend | hend
        · exact .inl hend
        · exact .inr (by omega)
    · refine ⟨le_rfl, ?_, .inl hmem⟩
      intro j hle hlt
      exact absurd (hle.trans_lt hlt) (Nat.lt_irrefl e)

theorem nextExpected_spec (A : List ℕ) : (∀ j < nextExpected A, j ∈ A) ∧ nextExpected A ∉ A := by
  obtain ⟨-, hall, hend⟩ := nextFrom_spec A A.length 0
  refine ⟨fun j hlt => hall j (Nat.zero_le j) hlt, ?_⟩
  intro hmem
  rcases hend with hend | hend
  · exact hend hmem
  · have hsubset : List.range (A.length + 1) ⊆ A := by
      intro j hj
      have hlt : j < A.length + 1 := mem_range.mp hj
      rcases Nat.eq_or_lt_of_le (Nat.lt_succ_iff.mp hlt) with rfl | hlt
      · rw [Nat.zero_add] at hend
        rw [← hend]
        exact hmem
      · exact hall j (Nat.zero_le j) (by omega)
    have hle := (subperm_of_subset nodup_range hsubset).length_le
    rw [length_range] at hle
    omega

theorem nextExpected_unique (hall : ∀ j < e, j ∈ A) (hnot : e ∉ A) : nextExpected A = e := by
  obtain ⟨hall', hnot'⟩ := nextExpected_spec A
  rcases Nat.lt_trichotomy (nextExpected A) e with hlt | heq | hlt
  · exact absurd (hall _ hlt) hnot'
  · exact heq
  · exact absurd (hall' _ hlt) hnot

theorem nextExpected_append_later (h : i ≠ nextExpected A) :
    nextExpected (A ++ [i]) = nextExpected A := by
  obtain ⟨hall, hnot⟩ := nextExpected_spec A
  refine nextExpected_unique (fun j hj => mem_append_left _ (hall j hj)) ?_
  rw [mem_append, mem_singleton, not_or]
  exact ⟨hnot, h.symm⟩

theorem nextExpected_append_next (A : List ℕ) :
    nextExpected A < nextExpected (A ++ [nextExpected A]) ∧
      (∀ j, nextExpected A < j → j < nextExpected (A ++ [nextExpected A]) → j ∈ A) ∧
      nextExpected (A ++ [nextExpected A]) ∉ A := by
  obtain ⟨hall, hnot⟩ := nextExpected_spec A
  obtain ⟨hall', hnot'⟩ := nextExpected_spec (A ++ [nextExpected A])
  rw [mem_append, mem_singleton, not_or] at hnot'
  refine ⟨?_, ?_, hnot'.1⟩
  · rcases Nat.lt_trichotomy (nextExpected A) (nextExpected (A ++ [nextExpected A])) with
      hlt | heq | hlt
    · exact hlt
    · exact absurd heq.symm hnot'.2
    · exact absurd (hall _ hlt) hnot'.1
  · intro j hlow hhigh
    have hmem := hall' j hhigh
    rw [mem_append, mem_singleton] at hmem
    rcases hmem with hmem | hmem
    · exact hmem
    · omega

theorem nextExpected_of_all {n : ℕ} (hnodup : A.Nodup) (hlt : ∀ i ∈ A, i < n)
    (hlen : A.length = n) : nextExpected A = n := by
  have hsubset : A ⊆ List.range n := fun i hi => mem_range.mpr (hlt i hi)
  have hperm : A.Perm (List.range n) :=
    (subperm_of_subset hnodup hsubset).perm_of_length_le (by rw [length_range, hlen])
  refine nextExpected_unique (fun j hj => hperm.mem_iff.mpr (mem_range.mpr hj)) ?_
  intro hmem
  exact Nat.lt_irrefl n (hlt n hmem)

theorem nextExpected_le {n : ℕ} (hlt : ∀ i ∈ A, i < n) : nextExpected A ≤ n := by
  by_contra hle
  exact Nat.lt_irrefl n (hlt n ((nextExpected_spec A).1 n (Nat.lt_of_not_le hle)))

end Arrivals
