import TurboMedia.Lib.SlotTable
import TurboMedia.Lib.Words

/-!
# Tables of credits

A table holds numbered credits, each on one of a set of places, and every place
counts the credits on it in a word.  What is outstanding is a list of numbers
with what each was given for.  `Booked` says that table, counters and list tell
the same, and is kept by handing a credit out and taking one back.
-/

namespace Credits

open List SlotTable Function

variable {α β : Type}

/-- The table and the counters of the places agree with what is outstanding.  A
row has a number and a place; what a credit was given for has a home. -/
structure Booked (number place : α → ℕ) (home : β → ℕ) (rows : List (Option α))
    (live : List (ℕ × β)) (count : ℕ → ℕ) : Prop where
  perm : (rows.reduceOption.map (fun c => (number c, place c))).Perm
    (live.map (fun p => (p.1, home p.2)))
  counts : ∀ i, count i = live.countP (fun p => decide (home p.2 = i))
  small : rows.length ≤ Words.max32

theorem filter_ne_perm {live rest : List (ℕ × β)} {n : ℕ} {b : β}
    (hnodup : (live.map Prod.fst).Nodup) (hperm : live.Perm ((n, b) :: rest)) :
    (live.filter (fun p => p.1 ≠ n)).Perm rest := by
  have hrest : n ∉ rest.map Prod.fst := by
    have hcons := (hperm.map Prod.fst).nodup_iff.mp hnodup
    exact (nodup_cons.mp hcons).1
  have hself : rest.filter (fun p => p.1 ≠ n) = rest := by
    rw [filter_eq_self]
    intro p hp
    rw [decide_eq_true_eq]
    rintro rfl
    exact hrest (mem_map_of_mem hp)
  have hfilter := hperm.filter (fun p => p.1 ≠ n)
  rw [filter_cons_of_neg (by simp), hself] at hfilter
  exact hfilter

namespace Booked

variable {number place : α → ℕ} {home : β → ℕ}
variable {rows : List (Option α)} {live : List (ℕ × β)} {count : ℕ → ℕ}

theorem empty (n : ℕ) (hn : n ≤ Words.max32) :
    Booked number place home (replicate n none) [] (fun _ => 0) where
  perm := by
    rw [reduceOption_replicate_none]
    exact List.Perm.nil
  counts := fun _ => rfl
  small := by
    rw [length_replicate]
    exact hn

variable (h : Booked number place home rows live count)
include h

theorem length_le : live.length ≤ Words.max32 := by
  have hlen := h.perm.length_eq
  rw [length_map, length_map] at hlen
  have hrows : rows.reduceOption.length ≤ rows.length := by
    rw [reduceOption_length_eq]
    exact length_filter_le _ _
  have hsmall := h.small
  omega

theorem exists_live {row : ℕ} {c : α}
    (hrow : rows[row]? = some (some c)) : ∃ b, (number c, b) ∈ live ∧ home b = place c := by
  have hmem : (number c, place c) ∈ live.map (fun p => (p.1, home p.2)) :=
    h.perm.mem_iff.mp (mem_map.mpr ⟨c, mem_of_getElem? hrow, rfl⟩)
  obtain ⟨⟨t, b⟩, hb, heq⟩ := mem_map.mp hmem
  simp only [Prod.mk.injEq] at heq
  obtain ⟨rfl, hplace⟩ := heq
  exact ⟨b, hb, hplace⟩

theorem exists_row {t : ℕ} {b : β} (hb : (t, b) ∈ live) :
    ∃ row c, findOccupied (fun c => number c = t) rows = some (row, c) ∧
      number c = t := by
  have hmem : (t, home b) ∈ rows.reduceOption.map (fun c => (number c, place c)) :=
    h.perm.mem_iff.mpr (mem_map.mpr ⟨(t, b), hb, rfl⟩)
  obtain ⟨c, hc, heq⟩ := mem_map.mp hmem
  obtain ⟨e, he⟩ := findOccupied_isSome (p := fun c => number c = t) hc
    (by simpa using congrArg Prod.fst heq)
  obtain ⟨_, hp⟩ := findOccupied_some he
  exact ⟨e.1, e.2, he, by simpa using hp⟩

theorem findOccupied_eq_none {t : ℕ}
    (ht : t ∉ live.map Prod.fst) : findOccupied (fun c => number c = t) rows = none := by
  cases hfound : findOccupied (fun c => number c = t) rows with
  | none => rfl
  | some e =>
    obtain ⟨hrow, hp⟩ := findOccupied_some hfound
    obtain ⟨b, hb, _⟩ := h.exists_live hrow
    simp only [decide_eq_true_eq] at hp
    rw [hp] at hb
    exact absurd (mem_map.mpr ⟨_, hb, rfl⟩) ht

/-- Numbers that are outstanding are told apart, so a row gives what its number
was given for. -/
theorem place_eq {row : ℕ} {c : α} {b : β}
    (hnodup : (live.map Prod.fst).Nodup) (hrow : rows[row]? = some (some c))
    (hb : (number c, b) ∈ live) : place c = home b := by
  obtain ⟨b', hb', hplace⟩ := h.exists_live hrow
  have heq : (number c, b') = (number c, b) :=
    inj_on_of_nodup_map hnodup hb' hb rfl
  cases heq
  exact hplace.symm

theorem give {row : ℕ} {c : α} {b : β} (hrow : rows[row]? = some none) (hplace : place c = home b) :
    Booked number place home (rows.set row (some c)) ((number c, b) :: live)
      (update count (home b) (count (home b) + 1)) where
  perm := by
    have hset := (perm_set hrow (some c)).map (fun c => (number c, place c))
    have hself := (perm_expose hrow).map (fun c => (number c, place c))
    simp only [Option.toList_some, Option.toList_none, nil_append, singleton_append,
      map_cons] at hset hself ⊢
    rw [hplace] at hset
    exact hset.trans ((hself.symm.trans h.perm).cons _)
  counts := by
    intro i
    rw [countP_cons]
    by_cases hi : i = home b
    · subst hi
      rw [update_self, h.counts]
      simp
    · rw [update_of_ne hi, h.counts]
      simp [Ne.symm hi]
  small := by
    rw [length_set]
    exact h.small

theorem takeBack {row : ℕ} {c : α}
    (hnodup : (live.map Prod.fst).Nodup) (hrow : rows[row]? = some (some c)) :
    Booked number place home (rows.set row none) (live.filter (fun p => p.1 ≠ number c))
      (update count (place c) (Words.pred32 (count (place c)))) := by
  obtain ⟨b, hb, hplace⟩ := h.exists_live hrow
  have hlive : live.Perm ((number c, b) :: live.filter (fun p => p.1 ≠ number c)) := by
    obtain ⟨front, back, rfl⟩ := append_of_mem hb
    have hrest : (front ++ (number c, b) :: back).Perm ((number c, b) :: (front ++ back)) :=
      perm_middle
    exact hrest.trans ((filter_ne_perm hnodup hrest).symm.cons _)
  have hcount : ∀ i, live.countP (fun p => decide (home p.2 = i)) =
      (live.filter (fun p => p.1 ≠ number c)).countP (fun p => decide (home p.2 = i)) +
        if home b = i then 1 else 0 := by
    intro i
    rw [hlive.countP_eq, countP_cons]
    simp
  constructor
  · have hself := (perm_expose hrow).map (fun c => (number c, place c))
    have hboth := hself.symm.trans (h.perm.trans (hlive.map _))
    rw [map_cons, hplace] at hboth
    exact hboth.cons_inv
  · intro i
    have hle : count (place c) ≤ Words.max32 := by
      rw [h.counts]
      exact countP_le_length.trans h.length_le
    have hi := hcount i
    rw [← h.counts] at hi
    by_cases heq : i = place c
    · subst heq
      rw [hplace, if_pos rfl] at hi
      rw [update_self, Words.pred32_eq (by omega) hle]
      omega
    · rw [hplace, if_neg (Ne.symm heq)] at hi
      rw [update_of_ne heq]
      omega
  · rw [length_set]
    exact h.small

omit h

end Booked

end Credits
