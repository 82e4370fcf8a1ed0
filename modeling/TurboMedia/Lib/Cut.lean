import Mathlib.Data.List.TakeWhile
import Mathlib.Tactic

/-!
# Cutting a list into pieces

A list is cut into pieces of one size, the last of which may be shorter.  The
number of pieces is given, as a loop has it that counted them beforehand; the
rules say when it is the right number.

* `flatten_cut`: the pieces make up the list again;
* `mem_cut`: no piece is longer than the size, and none is empty;
* `ceilDiv_bounds`: the quotient that is rounded up is the right number;
* `splitOnP_eq`: the pieces between separators, one after the other;
* `sum_splitOnP`: the pieces and separators make up the length.
-/

namespace Cut

open List

variable {α : Type}

/-- So many pieces of size `m`. -/
def cut (m : ℕ) : ℕ → List α → List (List α)
  | 0, _ => []
  | n + 1, xs => xs.take m :: cut m n (xs.drop m)

variable {m n : ℕ} {xs : List α}

@[simp] theorem length_cut (m n : ℕ) (xs : List α) : (cut m n xs).length = n := by
  induction n generalizing xs with
  | zero => rfl
  | succ n ih => rw [cut, length_cons, ih]

theorem flatten_cut (h : xs.length ≤ m * n) : (cut m n xs).flatten = xs := by
  induction n generalizing xs with
  | zero =>
    have hnil : xs = [] := length_eq_zero_iff.mp (by omega)
    rw [hnil]
    rfl
  | succ n ih =>
    rw [cut, flatten_cons, ih, take_append_drop]
    rw [length_drop]
    rw [Nat.mul_succ] at h
    omega

/-- A piece is not longer than the size, and when all of them are needed none is empty. -/
theorem mem_cut {piece : List α} (h : m * (n - 1) < xs.length) (hpos : 0 < m)
    (hpiece : piece ∈ cut m n xs) : 0 < piece.length ∧ piece.length ≤ m := by
  induction n generalizing xs with
  | zero => cases hpiece
  | succ n ih =>
    rw [Nat.add_sub_cancel] at h
    rcases mem_cons.mp hpiece with rfl | hrest
    · rw [length_take]
      omega
    · refine ih ?_ hrest
      rw [length_drop]
      cases n with
      | zero => cases hrest
      | succ n =>
        rw [Nat.mul_succ] at h
        rw [Nat.add_sub_cancel]
        omega

theorem ceilDiv_bounds {len : ℕ} (hm : 0 < m) (hlen : 0 < len) :
    0 < (len + m - 1) / m ∧ len ≤ m * ((len + m - 1) / m) ∧ m * ((len + m - 1) / m - 1) < len := by
  have hmod := Nat.div_add_mod (len + m - 1) m
  have hlt := Nat.mod_lt (len + m - 1) hm
  have hpos : 0 < (len + m - 1) / m := Nat.div_pos (by omega) hm
  obtain ⟨q, hq⟩ : ∃ q, (len + m - 1) / m = q + 1 := ⟨_, (Nat.succ_pred_eq_of_pos hpos).symm⟩
  rw [hq, Nat.mul_succ] at hmod
  rw [hq, Nat.add_sub_cancel, Nat.mul_succ]
  omega

theorem splitOnP_eq [DecidableEq α] (separator : α) (xs : List α) :
    xs.splitOnP (· == separator) = xs.takeWhile (· ≠ separator) ::
      (match xs.dropWhile (· ≠ separator) with
      | [] => []
      | _ :: rest => rest.splitOnP (· == separator)) := by
  have hpiece : ∀ x ∈ xs.takeWhile (· ≠ separator), (x == separator) = false := by
    intro x hx
    simpa using mem_takeWhile_imp hx
  have hsplit := takeWhile_append_dropWhile (p := fun x : α => decide (x ≠ separator)) (l := xs)
  cases hdrop : xs.dropWhile (· ≠ separator) with
  | nil =>
    rw [hdrop, append_nil] at hsplit
    rw [hsplit] at hpiece ⊢
    exact splitOnP_eq_singleton hpiece
  | cons x rest =>
    have hx : (x == separator) = true := by
      have hhead := head_dropWhile_not (p := fun x : α => decide (x ≠ separator)) (l := xs)
        (by rw [hdrop]; simp)
      simp only [hdrop, head_cons] at hhead
      simpa using hhead
    rw [hdrop] at hsplit
    conv_lhs => rw [← hsplit]
    exact splitOnP_append_cons_of_forall_mem hpiece x hx rest

theorem sum_splitOnP (p : α → Bool) (xs : List α) :
    ((xs.splitOnP p).map (fun piece => piece.length + 1)).sum = xs.length + 1 := by
  induction xs with
  | nil => simp
  | cons x xs ih =>
    rw [splitOnP_cons_eq_if_modifyHead]
    split_ifs
    · simp [ih, add_comm]
    · cases hpieces : xs.splitOnP p with
      | nil => exact absurd hpieces (splitOnP_ne_nil p xs)
      | cons piece pieces =>
        rw [hpieces] at ih
        simp at ih ⊢
        omega

end Cut
