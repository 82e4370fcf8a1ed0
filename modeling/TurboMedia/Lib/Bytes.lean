import Mathlib.Tactic

/-!
# Byte strings in network order

Reads at an offset and writes of big-endian words, over lists of bytes.  A
program that checks lengths before it reads never leaves the list, so a read
outside yields zero.

The rules used by codecs are

* `u8At_append_left` and `u8At_append_right`: where a byte of a concatenation
  comes from;
* `readU16_write` and `readU32_write`: a word is read back where it was written.
-/

namespace Bytes

open List

def u8At (b : List UInt8) (i : ℕ) : UInt8 :=
  b.getD i 0

theorem u8At_append_right (xs ys : List UInt8) (i : ℕ) :
    u8At (xs ++ ys) (xs.length + i) = u8At ys i := by
  simp [u8At, getElem?_append_right]

theorem u8At_last (xs : List UInt8) {ys : List UInt8} (h : ys ≠ []) :
    u8At (xs ++ ys) ((xs ++ ys).length - 1) = ys.getLast h := by
  have hpos : 0 < ys.length := length_pos_of_ne_nil h
  have hidx : (xs ++ ys).length - 1 = xs.length + (ys.length - 1) := by
    rw [length_append]
    omega
  rw [hidx, u8At_append_right, u8At, getLast_eq_getElem]
  simp [hpos]

theorem or_eq_add {x y k : ℕ} (h : y < 2 ^ k) : (x * 2 ^ k) ||| y = x * 2 ^ k + y := by
  rw [Nat.mul_comm, Nat.two_pow_add_eq_or_of_lt h]

def join16 (hi lo : UInt8) : UInt16 :=
  hi.toUInt16 <<< 8 ||| lo.toUInt16

def join32 (a b c d : UInt8) : UInt32 :=
  a.toUInt32 <<< 24 ||| b.toUInt32 <<< 16 ||| c.toUInt32 <<< 8 ||| d.toUInt32

theorem join16_toNat (hi lo : UInt8) : (join16 hi lo).toNat = hi.toNat * 2 ^ 8 + lo.toNat := by
  have hhi := hi.toNat_lt
  have hlo := lo.toNat_lt
  have hshift : (hi.toUInt16 <<< 8).toNat = hi.toNat * 2 ^ 8 := by
    rw [UInt16.toNat_shiftLeft, UInt8.toNat_toUInt16, Nat.shiftLeft_eq]
    change hi.toNat * 2 ^ 8 % 2 ^ 16 = hi.toNat * 2 ^ 8
    omega
  rw [join16, UInt16.toNat_or, hshift, UInt8.toNat_toUInt16, or_eq_add hlo]

theorem toUInt32_shift_toNat (x : UInt8) {k : UInt32} (hk : k.toNat ≤ 24) :
    (x.toUInt32 <<< k).toNat = x.toNat * 2 ^ k.toNat := by
  have hx := x.toNat_lt
  have hmod : k.toNat % 32 = k.toNat := Nat.mod_eq_of_lt (by omega)
  rw [UInt32.toNat_shiftLeft, UInt8.toNat_toUInt32, Nat.shiftLeft_eq, hmod]
  apply Nat.mod_eq_of_lt
  calc
    x.toNat * 2 ^ k.toNat
        ≤ x.toNat * 2 ^ 24 := Nat.mul_le_mul_left _ (Nat.pow_le_pow_right (by decide) hk)
    _ < 2 ^ 32 := by omega

theorem join32_toNat (a b c d : UInt8) :
    (join32 a b c d).toNat = a.toNat * 2 ^ 24 + b.toNat * 2 ^ 16 + c.toNat * 2 ^ 8 + d.toNat := by
  have hb := b.toNat_lt
  have hc := c.toNat_lt
  have hd := d.toNat_lt
  have h24 : (a.toUInt32 <<< 24).toNat = a.toNat * 2 ^ 24 := toUInt32_shift_toNat a (by decide)
  have h16 : (b.toUInt32 <<< 16).toNat = b.toNat * 2 ^ 16 := toUInt32_shift_toNat b (by decide)
  have h8 : (c.toUInt32 <<< 8).toNat = c.toNat * 2 ^ 8 := toUInt32_shift_toNat c (by decide)
  have hab : a.toNat * 2 ^ 24 ||| b.toNat * 2 ^ 16 = a.toNat * 2 ^ 24 + b.toNat * 2 ^ 16 :=
    or_eq_add (by omega)
  have habc : a.toNat * 2 ^ 24 + b.toNat * 2 ^ 16 ||| c.toNat * 2 ^ 8 =
      a.toNat * 2 ^ 24 + b.toNat * 2 ^ 16 + c.toNat * 2 ^ 8 := by
    have hfactor : a.toNat * 2 ^ 24 + b.toNat * 2 ^ 16 =
        (a.toNat * 2 ^ 8 + b.toNat) * 2 ^ 16 := by omega
    rw [hfactor]
    exact or_eq_add (by omega)
  have habcd : a.toNat * 2 ^ 24 + b.toNat * 2 ^ 16 + c.toNat * 2 ^ 8 ||| d.toNat =
      a.toNat * 2 ^ 24 + b.toNat * 2 ^ 16 + c.toNat * 2 ^ 8 + d.toNat := by
    have hfactor : a.toNat * 2 ^ 24 + b.toNat * 2 ^ 16 + c.toNat * 2 ^ 8 =
        (a.toNat * 2 ^ 16 + b.toNat * 2 ^ 8 + c.toNat) * 2 ^ 8 := by omega
    rw [hfactor]
    exact or_eq_add hd
  rw [join32, UInt32.toNat_or, UInt32.toNat_or, UInt32.toNat_or, h24, h16, h8,
    UInt8.toNat_toUInt32, hab, habc, habcd]

def readU16 (b : List UInt8) (i : ℕ) : UInt16 :=
  join16 (u8At b i) (u8At b (i + 1))

def readU32 (b : List UInt8) (i : ℕ) : UInt32 :=
  join32 (u8At b i) (u8At b (i + 1)) (u8At b (i + 2)) (u8At b (i + 3))

def writeU16 (v : UInt16) : List UInt8 :=
  [(v >>> 8).toUInt8, (v &&& 0xFF).toUInt8]

def writeU32 (v : UInt32) : List UInt8 :=
  [(v >>> 24).toUInt8, (v >>> 16).toUInt8, (v >>> 8).toUInt8, (v &&& 0xFF).toUInt8]

@[simp] theorem length_writeU16 (v : UInt16) : (writeU16 v).length = 2 := by
  rfl

@[simp] theorem length_writeU32 (v : UInt32) : (writeU32 v).length = 4 := by
  rfl

theorem join16_split (v : UInt16) : join16 (v >>> 8).toUInt8 (v &&& 0xFF).toUInt8 = v := by
  have hv := v.toNat_lt
  have hhi : (v >>> 8).toUInt8.toNat = v.toNat / 2 ^ 8 % 2 ^ 8 := by
    rw [UInt16.toNat_toUInt8, UInt16.toNat_shiftRight, Nat.shiftRight_eq_div_pow]
    rfl
  have hlo : (v &&& 0xFF).toUInt8.toNat = v.toNat % 2 ^ 8 := by
    rw [UInt16.toNat_toUInt8, UInt16.toNat_and]
    change (v.toNat &&& (2 ^ 8 - 1)) % 2 ^ 8 = _
    rw [Nat.and_two_pow_sub_one_eq_mod, Nat.mod_mod]
  apply UInt16.toNat_inj.mp
  rw [join16_toNat, hhi, hlo]
  omega

theorem join32_split (v : UInt32) :
    join32 (v >>> 24).toUInt8 (v >>> 16).toUInt8 (v >>> 8).toUInt8 (v &&& 0xFF).toUInt8 = v := by
  have hv := v.toNat_lt
  have hpart : ∀ k : UInt32, k.toNat < 32 →
      (v >>> k).toUInt8.toNat = v.toNat / 2 ^ k.toNat % 2 ^ 8 := by
    intro k hk
    rw [UInt32.toNat_toUInt8, UInt32.toNat_shiftRight, Nat.shiftRight_eq_div_pow,
      Nat.mod_eq_of_lt hk]
  have h24 : (v >>> 24).toUInt8.toNat = v.toNat / 2 ^ 24 % 2 ^ 8 := hpart 24 (by decide)
  have h16 : (v >>> 16).toUInt8.toNat = v.toNat / 2 ^ 16 % 2 ^ 8 := hpart 16 (by decide)
  have h8 : (v >>> 8).toUInt8.toNat = v.toNat / 2 ^ 8 % 2 ^ 8 := hpart 8 (by decide)
  have hlo : (v &&& 0xFF).toUInt8.toNat = v.toNat % 2 ^ 8 := by
    rw [UInt32.toNat_toUInt8, UInt32.toNat_and]
    change (v.toNat &&& (2 ^ 8 - 1)) % 2 ^ 8 = _
    rw [Nat.and_two_pow_sub_one_eq_mod, Nat.mod_mod]
  apply UInt32.toNat_inj.mp
  rw [join32_toNat, h24, h16, h8, hlo]
  omega

theorem readU16_append_right (xs ys : List UInt8) (i : ℕ) :
    readU16 (xs ++ ys) (xs.length + i) = readU16 ys i := by
  simp [readU16, add_assoc, u8At_append_right]

theorem readU32_append_right (xs ys : List UInt8) (i : ℕ) :
    readU32 (xs ++ ys) (xs.length + i) = readU32 ys i := by
  simp [readU32, add_assoc, u8At_append_right]

theorem readU16_write (v : UInt16) (ys : List UInt8) : readU16 (writeU16 v ++ ys) 0 = v := by
  exact join16_split v

theorem readU32_write (v : UInt32) (ys : List UInt8) : readU32 (writeU32 v ++ ys) 0 = v := by
  exact join32_split v

theorem map_readU32_flatMap (vs : List UInt32) (rest : List UInt8) :
    (List.range vs.length).map (fun i => readU32 (vs.flatMap writeU32 ++ rest) (i * 4)) = vs := by
  induction vs with
  | nil => rfl
  | cons v vs ih =>
    have htail : (List.range vs.length).map (fun i =>
        readU32 (writeU32 v ++ (vs.flatMap writeU32 ++ rest)) ((i + 1) * 4)) = vs := by
      have hidx : ∀ i, (i + 1) * 4 = (writeU32 v).length + i * 4 := by
        intro i
        rw [length_writeU32]
        omega
      simp only [hidx, readU32_append_right]
      exact ih
    rw [length_cons, range_succ_eq_map, map_cons, map_map,
      flatMap_cons, append_assoc, Nat.zero_mul, readU32_write]
    exact congrArg (List.cons v) htail

theorem length_flatMap_writeU32 (vs : List UInt32) :
    (vs.flatMap writeU32).length = vs.length * 4 := by
  induction vs with
  | nil => rfl
  | cons v vs ih =>
    simp [ih]
    omega

end Bytes
