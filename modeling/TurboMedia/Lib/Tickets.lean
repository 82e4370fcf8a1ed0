import Mathlib.Tactic

/-!
# Recycled rows and their tickets

A table of rows that are given out and taken back again.  A row counts how often it was
given out, and a ticket names a row together with that count, so that a ticket of an
earlier use does not find the row any more.

Every change of a row is a change of what one ticket finds.
-/

namespace Tickets

variable {ρ : Type} (generation : ρ → ℕ) (used : ρ → Bool)

def find (rows : List ρ) (slot count : ℕ) : Option ρ :=
  match rows[slot]? with
  | none => none
  | some r => if used r = true ∧ generation r = count then some r else none

variable {generation used} {rows : List ρ} {i slot count : ℕ} {r r' : ρ}

theorem find_eq_some :
    find generation used rows slot count = some r ↔
      rows[slot]? = some r ∧ used r = true ∧ generation r = count := by
  rw [find]
  cases hrow : rows[slot]? with
  | none => simp
  | some x =>
    simp only [Option.ite_none_right_eq_some, Option.some.injEq]
    constructor
    · rintro ⟨hx, rfl⟩
      exact ⟨rfl, hx⟩
    · rintro ⟨rfl, hx⟩
      exact ⟨hx, rfl⟩

theorem find_set (hrow : rows[i]? = some r) (hcount : used r = true → generation r' = generation r)
    (slot count : ℕ) :
    find generation used (rows.set i r') slot count =
      if slot = i ∧ count = generation r' then (if used r' = true then some r' else none)
      else find generation used rows slot count := by
  have hlt : i < rows.length := (List.getElem?_eq_some_iff.mp hrow).1
  by_cases hslot : slot = i
  · subst hslot
    rw [find, find, List.getElem?_set_self hlt, hrow]
    dsimp only
    by_cases hc : count = generation r'
    · simp [hc]
    · rw [if_neg (fun h => hc h.2.symm), if_neg (fun h => hc h.2)]
      symm
      rw [if_neg]
      rintro ⟨hused, heq⟩
      exact hc (heq.symm.trans (hcount hused).symm)
  · rw [if_neg (fun h => hslot h.1), find, find, List.getElem?_set_ne (Ne.symm hslot)]

section Lookup

variable (generation used)

/-- A ticket also names the table it is for, and no row is given out under the count 0. -/
def lookup (own : ℕ) (rows : List ρ) (table slot count : ℕ) : Option ρ :=
  if table ≠ own ∨ count = 0 then none else find generation used rows slot count

variable {generation used} {own table : ℕ}

theorem lookup_eq_some :
    lookup generation used own rows table slot count = some r ↔
      (table = own ∧ count ≠ 0) ∧ rows[slot]? = some r ∧ used r = true ∧ generation r = count := by
  rw [lookup, Option.ite_none_left_eq_some, not_or, not_not, find_eq_some]

theorem lookup_set (hrow : rows[i]? = some r)
    (hcount : used r = true → generation r' = generation r) (hpos : generation r' ≠ 0)
    (table slot count : ℕ) :
    lookup generation used own (rows.set i r') table slot count =
      if table = own ∧ slot = i ∧ count = generation r' then
        (if used r' = true then some r' else none)
      else lookup generation used own rows table slot count := by
  rw [lookup, lookup]
  by_cases hvalid : table ≠ own ∨ count = 0
  · rw [if_pos hvalid, if_pos hvalid, if_neg]
    rintro ⟨htable, _, rfl⟩
    exact hvalid.elim (fun h => h htable) hpos
  · rw [if_neg hvalid, if_neg hvalid, find_set hrow hcount]
    rw [not_or, not_not] at hvalid
    simp [hvalid.1]

end Lookup

variable (generation) in
/-- The row has been given out under this count. -/
def Counted (rows : List ρ) (slot count : ℕ) : Prop :=
  ∃ r, rows[slot]? = some r ∧ count ≤ generation r

theorem Counted.set (h : Counted generation rows slot count) (hrow : rows[i]? = some r)
    (hle : generation r ≤ generation r') : Counted generation (rows.set i r') slot count := by
  obtain ⟨r'', hr'', hcount⟩ := h
  by_cases hslot : slot = i
  · subst hslot
    cases hrow.symm.trans hr''
    exact ⟨r', List.getElem?_set_self (List.getElem?_eq_some_iff.mp hrow).1, hcount.trans hle⟩
  · exact ⟨r'', (List.getElem?_set_ne (Ne.symm hslot)).trans hr'', hcount⟩

theorem counted_set_self (hrow : rows[i]? = some r) (hle : count ≤ generation r') :
    Counted generation (rows.set i r') i count :=
  ⟨r', List.getElem?_set_self (List.getElem?_eq_some_iff.mp hrow).1, hle⟩

variable {α : Type} {a b : α} {xs : List α}

theorem mem_append_singleton_of_ne (h : a ≠ b) : a ∈ xs ++ [b] ↔ a ∈ xs := by
  rw [List.mem_append, List.mem_singleton, or_iff_left h]

theorem nodup_append_singleton (h : xs.Nodup) (hb : b ∉ xs) : (xs ++ [b]).Nodup := by
  rw [List.nodup_append]
  refine ⟨h, List.nodup_singleton _, ?_⟩
  rintro a ha b' hb' rfl
  cases List.mem_singleton.mp hb'
  exact hb ha

end Tickets
