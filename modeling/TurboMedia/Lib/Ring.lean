import Mathlib.Data.Nat.ModEq
import Mathlib.Tactic

/-!
# Lists stored in a ring

An array that is used as a ring stores a list from a base index on and wraps
around its end.  `Holds a base xs` says that the ring `a` stores `xs` from
`base` on.  The rules say how appending at the end, dropping at the front,
writing one cell and writing a block keep this.

The same notion serves rings of records and rings of bytes.
-/

namespace Ring

open List

universe u

variable {α : Type u} {a b xs ys : List α} {base : ℕ}

theorem index_injective {n p q : ℕ} (hp : p < n) (hq : q < n)
    (h : (base + p) % n = (base + q) % n) : p = q := by
  have hmod : p ≡ q [MOD n] := Nat.ModEq.add_left_cancel' base h
  rwa [Nat.ModEq, Nat.mod_eq_of_lt hp, Nat.mod_eq_of_lt hq] at hmod

theorem index_eq {n p : ℕ} (hbase : base < n) (hp : p < n) :
    (base + p) % n = if base + p < n then base + p else base + p - n := by
  split_ifs with h
  · exact Nat.mod_eq_of_lt h
  · rw [Nat.mod_eq_sub_mod (by omega), Nat.mod_eq_of_lt (by omega)]

/-- The ring `a` stores the list `xs` from `base` on. -/
def Holds (a : List α) (base : ℕ) (xs : List α) : Prop :=
  ∀ p < xs.length, a[(base + p) % a.length]? = xs[p]?

theorem Holds.nil (a : List α) (base : ℕ) : Holds a base [] := by
  intro p hp
  cases hp

theorem holds_mod :
    Holds a (base % a.length) xs ↔ Holds a base xs := by
  simp [Holds]

theorem Holds.left (h : Holds a base (xs ++ ys)) : Holds a base xs := by
  intro p hp
  rw [h p (by rw [length_append]; omega), getElem?_append_left hp]

theorem Holds.right (h : Holds a base (xs ++ ys)) : Holds a (base + xs.length) ys := by
  intro p hp
  rw [Nat.add_assoc, h (xs.length + p) (by rw [length_append]; omega),
    getElem?_append_right (by omega), Nat.add_sub_cancel_left]

/-- Another array of the same size stores more: what `a` stored, and a list
behind it. -/
theorem Holds.append (h : Holds a base xs) (hlen : b.length = a.length)
    (hkeep : ∀ p < xs.length, b[(base + p) % a.length]? = a[(base + p) % a.length]?)
    (hnew : Holds b (base + xs.length) ys) : Holds b base (xs ++ ys) := by
  intro p hp
  rw [length_append] at hp
  by_cases hlt : p < xs.length
  · rw [hlen, hkeep p hlt, h p hlt, getElem?_append_left hlt]
  · obtain ⟨q, rfl⟩ : ∃ q, p = xs.length + q := ⟨p - xs.length, by omega⟩
    rw [← Nat.add_assoc, hnew q (by omega), getElem?_append_right (by omega),
      Nat.add_sub_cancel_left]

theorem Holds.set_next {i : ℕ} {x : α} (h : Holds a base xs) (hroom : xs.length < a.length)
    (hi : i = (base + xs.length) % a.length) : Holds (a.set i x) base (xs ++ [x]) := by
  have hlt : i < a.length := by
    rw [hi]
    exact Nat.mod_lt _ (by omega)
  apply h.append length_set
  · intro p hp
    rw [getElem?_set_ne]
    intro heq
    have := index_injective (by omega) hroom (heq.symm.trans hi)
    omega
  · intro p hp
    obtain rfl : p = 0 := by simpa using hp
    rw [length_set, Nat.add_zero, ← hi, getElem?_set_self hlt]
    rfl

theorem Holds.set_first {i : ℕ} {x y : α} (h : Holds a base (x :: xs))
    (hfits : xs.length < a.length) (hi : i = base % a.length) :
    Holds (a.set i y) (base + 1) xs := by
  intro p hp
  have happ : Holds a base ([x] ++ xs) := h
  have htail : Holds a (base + 1) xs := happ.right
  rw [length_set, getElem?_set_ne, htail p hp]
  intro heq
  have hsame : (base + 0) % a.length = (base + (1 + p)) % a.length := by
    rw [Nat.add_zero, ← hi, heq, Nat.add_assoc]
  have := index_injective (by omega) (by omega) hsame
  omega

/-- The array with a block written at an offset. -/
def blit (a : List α) (offset : ℕ) (xs : List α) : List α :=
  a.take offset ++ xs ++ a.drop (offset + xs.length)

@[simp] theorem length_blit {offset : ℕ} (h : offset + xs.length ≤ a.length) :
    (blit a offset xs).length = a.length := by
  simp [blit]
  omega

theorem take_blit {offset : ℕ} (h : offset + xs.length ≤ a.length) :
    (blit a offset xs).take (offset + xs.length) = a.take offset ++ xs := by
  have hlen : (a.take offset ++ xs).length = offset + xs.length := by
    rw [length_append, length_take]
    omega
  rw [blit, ← hlen, take_left]

theorem getElem?_blit_inside {offset q : ℕ} (h : offset + xs.length ≤ a.length)
    (hq : q < xs.length) : (blit a offset xs)[offset + q]? = xs[q]? := by
  have htake : (a.take offset).length = offset := by
    rw [length_take]
    omega
  rw [blit, append_assoc, getElem?_append_right (by omega), htake,
    Nat.add_sub_cancel_left, getElem?_append_left hq]

theorem getElem?_blit_outside {offset i : ℕ} (h : offset + xs.length ≤ a.length)
    (hi : i < offset ∨ offset + xs.length ≤ i) : (blit a offset xs)[i]? = a[i]? := by
  have htake : (a.take offset).length = offset := by
    rw [length_take]
    omega
  rcases hi with hi | hi
  · rw [blit, append_assoc, getElem?_append_left (by omega), getElem?_take,
      if_pos hi]
  · have hlen : (a.take offset ++ xs).length = offset + xs.length := by
      rw [length_append, htake]
    rw [blit, getElem?_append_right (by omega), hlen, getElem?_drop]
    congr 1
    omega

end Ring
