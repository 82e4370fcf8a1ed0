import Mathlib.Tactic

/-!
# Machine words

Numbers that the code keeps in words are natural numbers here; what is done
modulo the size of the word is named, with the range in which it is plain
arithmetic.
-/

namespace Words

def max32 : ℕ := 4294967295

def max64 : ℕ := 18446744073709551615

def pred32 (n : ℕ) : ℕ :=
  (n + max32) % (max32 + 1)

def succ32 (n : ℕ) : ℕ :=
  (n + 1) % (max32 + 1)

def succ64 (n : ℕ) : ℕ :=
  (n + 1) % (max64 + 1)

theorem pred32_eq {n : ℕ} (hpos : 0 < n) (hle : n ≤ max32) : pred32 n = n - 1 := by
  simp only [pred32, max32] at *
  omega

theorem succ32_eq {n : ℕ} (hlt : n < max32) : succ32 n = n + 1 := by
  simp only [succ32, max32] at *
  omega

theorem succ64_eq {n : ℕ} (hlt : n < max64) : succ64 n = n + 1 := by
  simp only [succ64, max64] at *
  omega

end Words
