import Mathlib.Tactic

/-!
# Writing into a buffer of fixed size

A writer has a cursor and knows how many cells remain.  Pieces are put one after the other,
and the first one that does not fit ends it; every piece that fits is closed by a terminator,
which the next piece overwrites.

* `store` and `load`: memory from the beginning of the buffer on, also behind its end.
* `put` and `putAll`: one piece, and pieces until one fails.
* What was put is what is read (`putAll_load`), too much fails (`putAll_long`), and nothing
  behind the buffer changes (`putAll_frame`).
-/

namespace BoundedWriter

open List

variable {β : Type}

/-- The cells from `start` on are replaced. -/
def store (memory : ℕ → β) (start : ℕ) (cells : List β) : ℕ → β :=
  fun k => if start ≤ k then (cells[k - start]?).getD (memory k) else memory k

def load (memory : ℕ → β) (n : ℕ) : List β :=
  (List.range n).map memory

@[simp]
theorem load_length (memory : ℕ → β) (n : ℕ) : (load memory n).length = n := by
  rw [load, length_map, length_range]

theorem store_of_lt {memory : ℕ → β} {start k : ℕ} (h : k < start) (cells : List β) :
    store memory start cells k = memory k := by
  rw [store, if_neg (by omega)]

theorem store_of_le {memory : ℕ → β} {start k : ℕ} {cells : List β} (h : start + cells.length ≤ k) :
    store memory start cells k = memory k := by
  rw [store]
  split_ifs
  · rw [getElem?_eq_none (by omega), Option.getD_none]
  · rfl

theorem load_store {memory : ℕ → β} {start j : ℕ} {cells : List β} (h : j ≤ cells.length) :
    load (store memory start cells) (start + j) = load memory start ++ cells.take j := by
  rw [load, range_add, map_append]
  congr 1
  · refine map_congr_left (fun k hk => ?_)
    exact store_of_lt (mem_range.mp hk) cells
  · refine ext_getElem (by simp [h]) (fun k hk hk' => ?_)
    rw [length_map, length_map, length_range] at hk
    rw [getElem_map, getElem_map, getElem_range, getElem_take, store,
      if_pos (by omega), Nat.add_sub_cancel_left, getElem?_eq_getElem (by omega),
      Option.getD_some]

/-- A piece that is cut where it does not fit, one that is not written then, and one that is
not written at all. -/
inductive Piece (β : Type) where
  | format (cells : List β)
  | raw (cells : List β)
  | refused

structure Writer (β : Type) where
  memory : ℕ → β
  cursor : ℕ
  remaining : ℕ

def Piece.cells : Piece β → List β
  | .format cells => cells
  | .raw cells => cells
  | .refused => []

variable (zero : β) (limit : ℕ)

def Writer.advance (w : Writer β) (cells : List β) : Writer β :=
  ⟨store w.memory w.cursor (cells ++ [zero]), w.cursor + cells.length, w.remaining - cells.length⟩

/-- One piece; `limit` is the length of the longest one that can be formatted. -/
def put (w : Writer β) : Piece β → Writer β × Bool
  | .format cells =>
    if cells.length > limit ∨ cells.length ≥ w.remaining then
      if w.remaining = 0 then (w, false)
      else
        ({ w with
            memory := store w.memory w.cursor (cells.take (w.remaining - 1) ++ [zero]) }, false)
    else (w.advance zero cells, true)
  | .raw cells =>
    if cells.length ≥ w.remaining then (w, false) else (w.advance zero cells, true)
  | .refused => (w, false)

/-- Pieces one after the other, until one fails. -/
def putAll : Writer β → List (Piece β) → Writer β × Bool
  | w, [] => (w, true)
  | w, piece :: pieces =>
    if (put zero limit w piece).2 then putAll (put zero limit w piece).1 pieces
    else ((put zero limit w piece).1, false)

def cellsOf (pieces : List (Piece β)) : List β :=
  pieces.flatMap Piece.cells

variable {zero limit}
variable {w : Writer β} {piece : Piece β} {pieces : List (Piece β)}

theorem put_ok (h : (put zero limit w piece).2 = true) :
    piece ≠ .refused ∧ piece.cells.length < w.remaining ∧
      (put zero limit w piece).1 = w.advance zero piece.cells := by
  cases piece with
  | format cells =>
    rw [put] at h ⊢
    split_ifs at h with hlong
    rw [if_neg hlong]
    rw [not_or] at hlong
    exact ⟨by simp, not_le.mp hlong.2, rfl⟩
  | raw cells =>
    rw [put] at h ⊢
    split_ifs at h with hlong
    rw [if_neg hlong]
    exact ⟨by simp, not_le.mp hlong, rfl⟩
  | refused => cases h

theorem advance_load (w : Writer β) (cells : List β) :
    load (w.advance zero cells).memory (w.advance zero cells).cursor =
      load w.memory w.cursor ++ cells := by
  rw [Writer.advance, load_store (by simp), take_left]

theorem put_frame {k : ℕ} (h : w.cursor + w.remaining ≤ k) :
    (put zero limit w piece).1.memory k = w.memory k := by
  cases piece with
  | format cells =>
    rw [put]
    split_ifs with hlong hzero
    · rfl
    · refine store_of_le ?_
      rw [length_append, length_take, length_singleton]
      omega
    · rw [not_or] at hlong
      refine store_of_le ?_
      rw [length_append, length_singleton]
      omega
  | raw cells =>
    rw [put]
    split_ifs with hlong
    · rfl
    · refine store_of_le ?_
      rw [length_append, length_singleton]
      omega
  | refused => rfl

theorem put_end (h : (put zero limit w piece).2 = true) :
    (put zero limit w piece).1.cursor + (put zero limit w piece).1.remaining =
      w.cursor + w.remaining := by
  obtain ⟨_, hfits, hw⟩ := put_ok h
  rw [hw, Writer.advance]
  dsimp only
  omega

theorem putAll_frame {k : ℕ} (h : w.cursor + w.remaining ≤ k) :
    (putAll zero limit w pieces).1.memory k = w.memory k := by
  induction pieces generalizing w with
  | nil => rfl
  | cons piece pieces ih =>
    rw [putAll]
    split_ifs with hput
    · have hend := put_end hput
      rw [ih (by omega), put_frame h]
    · exact put_frame h

theorem putAll_load (h : (putAll zero limit w pieces).2 = true) :
    (∀ piece ∈ pieces, piece ≠ .refused) ∧
      (putAll zero limit w pieces).1.cursor = w.cursor + (cellsOf pieces).length ∧
      load (putAll zero limit w pieces).1.memory (putAll zero limit w pieces).1.cursor =
        load w.memory w.cursor ++ cellsOf pieces := by
  induction pieces generalizing w with
  | nil => exact ⟨fun piece hin => absurd hin not_mem_nil, rfl, (append_nil _).symm⟩
  | cons piece pieces ih =>
    rw [putAll] at h ⊢
    split_ifs at h ⊢ with hput
    obtain ⟨href, _, hw⟩ := put_ok hput
    obtain ⟨hpieces, hcursor, hload⟩ := ih h
    have hcells : cellsOf (piece :: pieces) = piece.cells ++ cellsOf pieces := rfl
    refine ⟨forall_mem_cons.mpr ⟨href, hpieces⟩, ?_, ?_⟩
    · rw [hcursor, hw, hcells, length_append, Writer.advance]
      dsimp only
      omega
    · rw [hload, hw, advance_load, hcells, append_assoc]

theorem putAll_long (hw : 0 < w.remaining) (h : w.remaining ≤ (cellsOf pieces).length) :
    (putAll zero limit w pieces).2 = false := by
  induction pieces generalizing w with
  | nil =>
    rw [cellsOf, flatMap_nil, length_nil] at h
    omega
  | cons piece pieces ih =>
    have hcells : cellsOf (piece :: pieces) = piece.cells ++ cellsOf pieces := rfl
    rw [hcells, length_append] at h
    rw [putAll]
    split_ifs with hput
    · obtain ⟨_, hfits, hnext⟩ := put_ok hput
      refine ih ?_ ?_
      · rw [hnext, Writer.advance]
        dsimp only
        omega
      · rw [hnext, Writer.advance]
        dsimp only
        omega
    · rfl

end BoundedWriter
