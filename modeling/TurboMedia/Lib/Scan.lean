import Mathlib.Tactic

/-!
# Scanning for the least key

A loop runs over a list and keeps the position and the key of the least element
it has seen; elements without a key are passed over, and of equal keys the first
one is kept.
-/

namespace Scan

variable {α κ : Type} [LinearOrder κ]

/-- The better of the best so far and an element with this key at position `i`. -/
def better (i : ℕ) : Option κ → Option (ℕ × κ) → Option (ℕ × κ)
  | none, best => best
  | some k, none => some (i, k)
  | some k, some (j, m) => if k < m then some (i, k) else some (j, m)

/-- The loop from position `i` on. -/
def firstMinFrom (key : α → Option κ) : ℕ → Option (ℕ × κ) → List α → Option (ℕ × κ)
  | _, best, [] => best
  | i, best, a :: l => firstMinFrom key (i + 1) (better i (key a) best) l

/-- Position and key of the first element with the least key. -/
def firstMin (key : α → Option κ) (l : List α) : Option (ℕ × κ) :=
  firstMinFrom key 0 none l

variable {key : α → Option κ} {l : List α}

theorem better_eq_none {i : ℕ} {k : Option κ} {best : Option (ℕ × κ)} :
    better i k best = none ↔ k = none ∧ best = none := by
  cases k with
  | none => simp [better]
  | some k =>
    cases best with
    | none => simp [better]
    | some p =>
      simp only [better, reduceCtorEq, false_and, iff_false]
      split_ifs <;> simp

theorem better_eq_some {i : ℕ} {k : Option κ} {best : Option (ℕ × κ)} {p : ℕ × κ}
    (h : better i k best = some p) :
    (best = some p ∨ (p.1 = i ∧ k = some p.2)) ∧ (∀ m, k = some m → p.2 ≤ m) ∧
      ∀ q, best = some q → p.2 ≤ q.2 := by
  cases k with
  | none =>
    have hbest : best = some p := h
    subst hbest
    simp
  | some k =>
    cases best with
    | none =>
      simp only [better, Option.some.injEq] at h
      subst h
      simp
    | some q =>
      simp only [better] at h
      split_ifs at h with hlt
      · simp only [Option.some.injEq] at h
        subst h
        simpa using hlt.le
      · simp only [Option.some.injEq] at h
        subst h
        simpa using not_lt.mp hlt

theorem firstMinFrom_eq_none {i : ℕ} {best : Option (ℕ × κ)}
    (h : firstMinFrom key i best l = none) : best = none ∧ ∀ a ∈ l, key a = none := by
  induction l generalizing i best with
  | nil => exact ⟨h, by simp⟩
  | cons a l ih =>
    obtain ⟨hbetter, hall⟩ := ih h
    obtain ⟨hkey, hbest⟩ := better_eq_none.mp hbetter
    refine ⟨hbest, fun b hb => ?_⟩
    rcases List.mem_cons.mp hb with rfl | hb
    · exact hkey
    · exact hall b hb

theorem firstMinFrom_eq_some {i : ℕ} {best : Option (ℕ × κ)} {p : ℕ × κ}
    (h : firstMinFrom key i best l = some p) :
    (best = some p ∨ ∃ j a, p.1 = i + j ∧ l[j]? = some a ∧ key a = some p.2) ∧
      (∀ a ∈ l, ∀ m, key a = some m → p.2 ≤ m) ∧ ∀ q, best = some q → p.2 ≤ q.2 := by
  induction l generalizing i best with
  | nil =>
    have hbest : best = some p := h
    subst hbest
    simp
  | cons a l ih =>
    obtain ⟨hwhere, hleast, hbest⟩ := ih h
    have hbetter : ∀ q, better i (key a) best = some q →
        (∀ m, key a = some m → p.2 ≤ m) ∧ ∀ q', best = some q' → p.2 ≤ q'.2 := by
      intro q hq
      obtain ⟨_, hkey, hold⟩ := better_eq_some hq
      have hle := hbest q hq
      exact ⟨fun m hm => hle.trans (hkey m hm), fun q' hq' => hle.trans (hold q' hq')⟩
    have hold : (∀ m, key a = some m → p.2 ≤ m) ∧ ∀ q', best = some q' → p.2 ≤ q'.2 := by
      cases hnext : better i (key a) best with
      | none =>
        obtain ⟨hkey, hnone⟩ := better_eq_none.mp hnext
        simp [hkey, hnone]
      | some q => exact hbetter q hnext
    refine ⟨?_, fun b hb m hm => ?_, hold.2⟩
    · rcases hwhere with hnext | ⟨j, b, hpos, hget, hkey⟩
      · rcases (better_eq_some hnext).1 with hbest | ⟨hpos, hkey⟩
        · exact .inl hbest
        · exact .inr ⟨0, a, hpos, rfl, hkey⟩
      · exact .inr ⟨j + 1, b, by omega, hget, hkey⟩
    · rcases List.mem_cons.mp hb with rfl | hb
      · exact hold.1 m hm
      · exact hleast b hb m hm

theorem firstMin_eq_none (h : firstMin key l = none) : ∀ a ∈ l, key a = none :=
  (firstMinFrom_eq_none h).2

theorem firstMin_eq_some {i : ℕ} {k : κ} (h : firstMin key l = some (i, k)) :
    ∃ a, l[i]? = some a ∧ key a = some k ∧ ∀ b ∈ l, ∀ m, key b = some m → k ≤ m := by
  obtain ⟨hwhere, hleast, _⟩ := firstMinFrom_eq_some h
  rcases hwhere with hnone | ⟨j, a, hpos, hget, hkey⟩
  · cases hnone
  · rw [Nat.zero_add] at hpos
    subst hpos
    exact ⟨a, hget, hkey, hleast⟩

end Scan
