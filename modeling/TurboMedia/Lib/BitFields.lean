import Mathlib.Tactic

/-!
# Bit fields of equal width

Fields of `b` bits each are packed into a word one after the other, the first at
the position `top` and every further one `b` positions lower.  The two rules
used by codecs are `field_pack`, a packed field is read back at its position,
and `pack_high`, the bits above the fields are those of the word before.
-/

namespace BitFields

variable {n b : ℕ}

/-- Pack fields of `b` bits, the first one at `top`. -/
def pack (b : ℕ) : ℕ → BitVec n → List ℕ → BitVec n
  | _, word, [] => word
  | top, word, v :: vs => pack b (top - b) (word ||| BitVec.ofNat n v <<< top) vs

/-- The field of `b` bits at a position. -/
def field (b : ℕ) (word : BitVec n) (shift : ℕ) : ℕ :=
  ((word >>> shift) &&& BitVec.ofNat n (2 ^ b - 1)).toNat

theorem field_eq (word : BitVec n) (shift : ℕ) (hb : b ≤ n) :
    field b word shift = word.toNat / 2 ^ shift % 2 ^ b := by
  have hpow : 2 ^ b - 1 < 2 ^ n := by
    have hle : 2 ^ b ≤ 2 ^ n := Nat.pow_le_pow_right (by decide) hb
    have hpos : 0 < 2 ^ b := Nat.two_pow_pos b
    omega
  rw [field, BitVec.toNat_and, BitVec.toNat_ushiftRight, BitVec.toNat_ofNat,
    Nat.mod_eq_of_lt hpow, Nat.and_two_pow_sub_one_eq_mod, Nat.shiftRight_eq_div_pow]

theorem testBit_field (word : BitVec n) (shift : ℕ) (hb : b ≤ n) (j : ℕ) :
    (field b word shift).testBit j = (decide (j < b) && word.getLsbD (shift + j)) := by
  rw [field_eq word shift hb, Nat.testBit_mod_two_pow, Nat.testBit_div_two_pow,
    Nat.add_comm j shift]
  rfl

theorem getLsbD_or_field (word : BitVec n) {v top : ℕ} (hv : v < 2 ^ b) {k : ℕ} (hk : k < n) :
    (word ||| BitVec.ofNat n v <<< top).getLsbD k =
      (word.getLsbD k || (decide (top ≤ k) && decide (k < top + b) && v.testBit (k - top))) := by
  rw [BitVec.getLsbD_or, BitVec.getLsbD_shiftLeft, BitVec.getLsbD_ofNat]
  have hlow : k - top < n := by omega
  by_cases hrange : k < top + b
  · by_cases htop : top ≤ k
    · simp [hk, hlow, hrange, htop, not_lt.mpr htop]
    · simp [hk, htop, not_le.mp htop]
  · have htop : top ≤ k := by omega
    have hbit : v.testBit (k - top) = false := by
      apply Nat.testBit_lt_two_pow
      exact lt_of_lt_of_le hv (Nat.pow_le_pow_right (by decide) (by omega))
    simp [hbit]

theorem pack_high (vs : List ℕ) (top : ℕ) (word : BitVec n) (hvs : ∀ v ∈ vs, v < 2 ^ b) {k : ℕ}
    (hk : k < n) (htop : top + b ≤ k) : (pack b top word vs).getLsbD k = word.getLsbD k := by
  induction vs generalizing top word with
  | nil => rfl
  | cons v vs ih =>
    rw [pack, ih _ _ (fun v' hv' => hvs v' (by simp [hv'])) (by omega),
      getLsbD_or_field word (hvs v (by simp)) hk]
    simp [not_lt.mpr htop]

theorem field_pack (vs : List ℕ) (top : ℕ) (word : BitVec n) (hvs : ∀ v ∈ vs, v < 2 ^ b)
    (hword : ∀ k, k < top + b → word.getLsbD k = false) (htop : top + b ≤ n)
    (hroom : b * vs.length ≤ top + b) :
    (List.range vs.length).map (fun i => field b (pack b top word vs) (top - b * i)) = vs := by
  induction vs generalizing top word with
  | nil => rfl
  | cons v vs ih =>
    have hv := hvs v (by simp)
    have hrest : ∀ v' ∈ vs, v' < 2 ^ b := fun v' hv' => hvs v' (by simp [hv'])
    rw [List.length_cons, Nat.mul_succ] at hroom
    -- The fields that follow end below `top`.
    have hbelow : vs = [] ∨ b ≤ top := by
      cases vs with
      | nil => exact Or.inl rfl
      | cons v' vs =>
        rw [List.length_cons, Nat.mul_succ] at hroom
        exact Or.inr (by omega)
    have hfirst : field b (pack b top word (v :: vs)) top = v := by
      apply Nat.eq_of_testBit_eq
      intro j
      rw [testBit_field _ _ (by omega)]
      by_cases hj : j < b
      · have hbit : (pack b top word (v :: vs)).getLsbD (top + j) =
            (word ||| BitVec.ofNat n v <<< top).getLsbD (top + j) := by
          rcases hbelow with rfl | hbelow
          · rfl
          · exact pack_high vs _ _ hrest (by omega) (by omega)
        rw [hbit, getLsbD_or_field word hv (by omega), hword (top + j) (by omega)]
        simp [hj]
      · have hhigh : v.testBit j = false := by
          apply Nat.testBit_lt_two_pow
          exact lt_of_lt_of_le hv (Nat.pow_le_pow_right (by decide) (by omega))
        simp [hj, hhigh]
    have htail : (List.range vs.length).map
        (fun i => field b (pack b top word (v :: vs)) (top - b * (i + 1))) = vs := by
      rcases hbelow with rfl | hbelow
      · rfl
      · have hshift : ∀ i, top - b * (i + 1) = top - b - b * i := by
          intro i
          rw [Nat.mul_succ]
          omega
        simp only [hshift]
        apply ih (top - b) (word ||| BitVec.ofNat n v <<< top) hrest
        · intro k hk
          rw [getLsbD_or_field word hv (by omega), hword k (by omega)]
          simp [show ¬top ≤ k by omega]
        · omega
        · omega
    rw [List.length_cons, List.range_succ_eq_map, List.map_cons, List.map_map, Nat.mul_zero,
      Nat.sub_zero, hfirst]
    exact congrArg (List.cons v) htail

end BitFields
