import Mathlib.Tactic

/-!
# 16-bit serial numbers

Sequence numbers that wrap at 2^16 are compared by their signed distance: the
difference reduced to the range of a signed 16-bit integer.  The distance is
the only number in range that leads from one to the other, and it behaves like
a difference of integers as long as it stays in range.
-/

namespace Serial

/-- Signed distance from `b` to `a`. -/
def diff (a b : UInt16) : ℤ :=
  Int.bmod ((a.toNat : ℤ) - b.toNat) 65536

theorem diff_range (a b : UInt16) : -32768 ≤ diff a b ∧ diff a b < 32768 := by
  unfold diff
  rw [Int.bmod_def]
  split_ifs with h <;> omega

/-- The distance leads from `b` to `a`. -/
theorem add_diff (a b : UInt16) : ((b.toNat : ℤ) + diff a b) % 65536 = a.toNat := by
  have ha := a.toNat_lt
  unfold diff
  rw [Int.bmod_def]
  split_ifs with h <;> omega

variable {a b : UInt16}

/-- The distance is the only number in range that leads from `b` to `a`. -/
theorem diff_unique {d : ℤ} (hlow : -32768 ≤ d) (hhigh : d < 32768)
    (h : ((b.toNat : ℤ) + d) % 65536 = a.toNat) : diff a b = d := by
  have hrange := diff_range a b
  have hadd := add_diff a b
  omega

@[simp] theorem diff_self (a : UInt16) : diff a a = 0 := by
  simp [diff]

theorem diff_eq_zero_iff : diff a b = 0 ↔ a = b := by
  constructor
  · intro h
    have hadd := add_diff a b
    have hb := b.toNat_lt
    apply UInt16.toNat_inj.mp
    omega
  · rintro rfl
    exact diff_self a

theorem toNat_succ (b : UInt16) : ((b + 1).toNat : ℤ) = ((b.toNat : ℤ) + 1) % 65536 := by
  rw [UInt16.toNat_add]
  have hone : (1 : UInt16).toNat = 1 := rfl
  omega

/-- One step toward `a` shortens the distance by one. -/
theorem diff_succ_right (h : -32768 < diff a b) : diff a (b + 1) = diff a b - 1 := by
  have hrange := diff_range a b
  have hadd := add_diff a b
  have hsucc := toNat_succ b
  apply diff_unique
  · omega
  · omega
  · omega

theorem emod_diff {m : ℕ} (hm : m ∣ 65536) :
    ((b.toNat : ℤ) + diff a b) % m = (a.toNat : ℤ) % m := by
  have hadd := add_diff a b
  have hdvd : (m : ℤ) ∣ 65536 := by exact_mod_cast hm
  rw [← hadd, Int.emod_emod_of_dvd _ hdvd]

/-- Place of `a` in the window that begins at `w`. -/
def offset (w a : UInt16) : ℕ :=
  (a - w).toNat

theorem toNat_add_offset (w a : UInt16) : (w.toNat + offset w a) % 65536 = a.toNat := by
  have ha := a.toNat_lt
  have hw := w.toNat_lt
  rw [offset, UInt16.toNat_sub]
  omega

theorem offset_lt (w a : UInt16) : offset w a < 65536 :=
  (a - w).toNat_lt

variable {w : UInt16}

theorem offset_inj : offset w a = offset w b ↔ a = b := by
  constructor
  · intro h
    have ha := toNat_add_offset w a
    have hb := toNat_add_offset w b
    apply UInt16.toNat_inj.mp
    omega
  · rintro rfl
    rfl

theorem diff_eq_offset (ha : offset w a < 32768) (hb : offset w b < 32768) :
    diff a b = (offset w a : ℤ) - offset w b := by
  have hadd := toNat_add_offset w a
  have hadd' := toNat_add_offset w b
  apply diff_unique
  · omega
  · omega
  · omega

theorem add_offset (w a : UInt16) : w + UInt16.ofNat (offset w a) = a := by
  rw [offset, UInt16.ofNat_toNat]
  grind

theorem offset_succ_left {n : ℕ} (h : offset w a = n + 1) :
    offset (w + 1) a = n := by
  have hlt := offset_lt w a
  have hsub : a - (w + 1) = UInt16.ofNat n := by
    rw [← add_offset w a, h, UInt16.ofNat_add]
    grind
  rw [offset, hsub, UInt16.toNat_ofNat', Nat.mod_eq_of_lt (by omega)]

theorem offset_add (w a : UInt16) {n : ℕ} (hn : offset w a + n < 65536) :
    offset w (a + UInt16.ofNat n) = offset w a + n := by
  have hsub : a + UInt16.ofNat n - w = UInt16.ofNat (offset w a + n) := by
    rw [offset, UInt16.ofNat_add, UInt16.ofNat_toNat]
    grind
  rw [offset, hsub, UInt16.toNat_ofNat', Nat.mod_eq_of_lt hn]

/-- The place of a later number in the window that begins at an earlier one. -/
theorem offset_sub (h : offset w a ≤ offset w b) :
    offset a b = offset w b - offset w a := by
  have hlt := offset_lt w b
  have hb : b = a + UInt16.ofNat (offset w b - offset w a) := by
    apply (offset_inj (w := w)).mp
    rw [offset_add w a (by omega)]
    omega
  have hself : offset a a = 0 := by
    simp [offset]
  nth_rewrite 1 [hb]
  rw [offset_add a a (by omega), hself, Nat.zero_add]

end Serial
