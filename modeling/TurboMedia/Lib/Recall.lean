import Mathlib.Data.Nat.ModEq
import TurboMedia.Lib.SlotTable

/-!
# Rings that recall what was written last

A ring of optional entries that is written at a cursor.  Before a write, the entries that
the written one does not keep are taken out.

**Input.**  A relation `keeps new old`, and the list of all entries ever written.

**Results.**  What the ring holds was written (`Recalls.sound`), and an entry is still there
when fewer entries were written after it than the ring has cells and all of them keep it
(`Recalls.complete`).
-/

namespace Recall

open List

universe u

variable {α : Type u}

def write (keeps : α → α → Bool) (cells : List (Option α)) (next : ℕ) (x : α) :
    List (Option α) :=
  (cells.map (Option.filter (keeps x))).set next (some x)

/-- The ring holds the entries of `log` that were written last and are still kept. -/
structure Recalls (keeps : α → α → Bool) (cells : List (Option α)) (next : ℕ)
    (log : List α) : Prop where
  pos : 0 < cells.length
  next_eq : next = log.length % cells.length
  sound : ∀ i x, cells[i]? = some (some x) →
    ∃ j, log[j]? = some x ∧ j % cells.length = i ∧ log.length ≤ j + cells.length
  complete : ∀ j x, log[j]? = some x → log.length ≤ j + cells.length →
    (∀ y ∈ log.drop (j + 1), keeps y x = true) → cells[j % cells.length]? = some (some x)

variable {keeps : α → α → Bool} {cells : List (Option α)} {next : ℕ} {log : List α} {x : α}

theorem Recalls.empty {n : ℕ} (h : 0 < n) :
    Recalls keeps (replicate n none) 0 [] where
  pos := by simpa using h
  next_eq := by simp
  sound := by
    intro i x hx
    simp [getElem?_replicate] at hx
  complete := by
    intro j x hx
    simp at hx

@[simp] theorem write_length : (write keeps cells next x).length = cells.length := by
  simp [write]

theorem write_getElem? {i : ℕ} (hnext : next < cells.length) (y : α) :
    (write keeps cells next x)[i]? = some (some y) ↔
      i = next ∧ y = x ∨ i ≠ next ∧ cells[i]? = some (some y) ∧ keeps x y = true := by
  rw [write, getElem?_set]
  split_ifs with heq hlt
  · subst heq
    rw [Option.some.injEq, Option.some.injEq]
    constructor
    · exact fun h => .inl ⟨rfl, h.symm⟩
    · rintro (⟨-, rfl⟩ | ⟨hne, -⟩)
      · rfl
      · exact absurd rfl hne
  · exact absurd hnext (by simpa using hlt)
  · have hne : i ≠ next := fun h => heq h.symm
    rw [getElem?_map]
    simp [hne, Option.filter_eq_some_iff]

theorem mod_ne {n m c : ℕ} (hlt : m < n) (hle : n < m + c) : n % c ≠ m % c := by
  intro heq
  have hdvd : c ∣ n - m := (Nat.modEq_iff_dvd' hlt.le).mp heq.symm
  have hle' := Nat.le_of_dvd (by omega) hdvd
  omega

theorem Recalls.write (h : Recalls keeps cells next log) :
    Recalls keeps (write keeps cells next x) ((next + 1) % cells.length) (log ++ [x]) := by
  have hpos := h.pos
  have hnext : next < cells.length := h.next_eq ▸ Nat.mod_lt _ hpos
  refine ⟨by simpa using hpos, ?_, ?_, ?_⟩
  · rw [write_length, length_append, length_singleton, h.next_eq, Nat.mod_add_mod]
  · intro i y hy
    rw [write_length, length_append, length_singleton]
    rcases (write_getElem? hnext y).mp hy with ⟨rfl, rfl⟩ | ⟨hne, hold, -⟩
    · exact ⟨log.length, by simp, h.next_eq.symm, by omega⟩
    · obtain ⟨j, hj, rfl, hle⟩ := h.sound i y hold
      have hlt := (List.getElem?_eq_some_iff.mp hj).1
      refine ⟨j, by rw [getElem?_append_left hlt]; exact hj, rfl, ?_⟩
      rcases Nat.lt_or_ge log.length (j + cells.length) with hroom | hfull
      · omega
      · have heq : log.length = j + cells.length := by omega
        exact absurd (by rw [h.next_eq, heq, Nat.add_mod_right]) hne
  · intro j y hj hle hkept
    rw [write_length] at hle ⊢
    rw [length_append, length_singleton] at hle
    rw [write_getElem? hnext]
    rcases Nat.lt_or_ge j log.length with hlt | hge
    · rw [getElem?_append_left hlt] at hj
      rw [drop_append_of_le_length (by omega)] at hkept
      refine .inr ⟨?_, h.complete j y hj (by omega) ?_, hkept x (by simp)⟩
      · rw [h.next_eq]
        exact (mod_ne hlt (by omega)).symm
      · exact fun z hz => hkept z (mem_append_left _ hz)
    · have hlast : j = log.length := by
        have := (List.getElem?_eq_some_iff.mp hj).1
        simp at this
        omega
      subst hlast
      simp only [getElem?_concat_length, Option.some.injEq] at hj
      exact .inl ⟨h.next_eq.symm, hj.symm⟩

variable {p : α → Bool}

theorem Recalls.find_none (h : Recalls keeps cells next log) (hnone : ∀ x ∈ log, p x = false) :
    SlotTable.findOccupied p cells = none := by
  refine SlotTable.findOccupied_eq_none ?_
  intro y hy
  rw [reduceOption_mem_iff] at hy
  obtain ⟨i, hi⟩ := mem_iff_getElem?.mp hy
  obtain ⟨j, hj, -, -⟩ := h.sound i y hi
  exact hnone y (mem_of_getElem? hj)

theorem Recalls.find_some {before after : List α}
    (h : Recalls keeps cells next (before ++ x :: after)) (hx : p x = true)
    (honly : ∀ y ∈ before ++ x :: after, p y = true → y = x) (hroom : after.length < cells.length)
    (hkept : ∀ y ∈ after, keeps y x = true) :
    ∃ i, SlotTable.findOccupied p cells = some (i, x) := by
  have hget : (before ++ x :: after)[before.length]? = some x := by
    simp
  have hcell := h.complete before.length x hget (by rw [length_append, length_cons]; omega)
    (by
      rw [drop_append, drop_of_length_le (by omega)]
      simpa using hkept)
  obtain ⟨⟨i, y⟩, hfind⟩ := SlotTable.findOccupied_isSome (SlotTable.mem_of_getElem? hcell) hx
  obtain ⟨hi, hy⟩ := SlotTable.findOccupied_some hfind
  obtain ⟨j, hj, -, -⟩ := h.sound i y hi
  rw [honly y (mem_of_getElem? hj) hy] at hfind
  exact ⟨i, hfind⟩

end Recall
