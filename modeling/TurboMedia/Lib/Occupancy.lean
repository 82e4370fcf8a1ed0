import Mathlib.Data.List.Nodup
import Mathlib.Tactic

/-!
# Occupancy

Places, each with the occupants it holds, and a mark that every occupant is to carry.

**Input.**  A list of places and a predicate on occupants.

**Results.**  The places hold disjoint occupants, and the marked ones are those that some
place holds (`Occupancy`).  `Occupancy.set` is the only change of a place: it says what the
new mark has to be, in terms of what the place held and holds.
-/

universe u

/-- Nobody is held twice, and the marked ones are those that are held. -/
structure Occupancy {α : Type u} (places : List (List α)) (marked : α → Prop) : Prop where
  nodup : places.flatten.Nodup
  marked_iff : ∀ a, marked a ↔ a ∈ places.flatten

namespace Occupancy

open List

variable {α : Type u} {places : List (List α)} {marked marked' : α → Prop}

theorem empty (h : ∀ a, ¬ marked a) :
    Occupancy [] marked where
  nodup := nodup_nil
  marked_iff := fun a => by simp [h a]

theorem split_at {β : Type u} {xs : List β} {i : ℕ} {x : β} (h : xs[i]? = some x) :
    ∃ before after, xs = before ++ x :: after ∧ before.length = i := by
  obtain ⟨hlt, rfl⟩ := List.getElem?_eq_some_iff.mp h
  refine ⟨xs.take i, xs.drop (i + 1), ?_, ?_⟩
  · rw [← drop_eq_getElem_cons, take_append_drop]
  · rw [length_take]
    omega

theorem flatten_perm (before after : List (List α)) (place : List α) :
    (before ++ place :: after).flatten.Perm (place ++ (before ++ after).flatten) := by
  rw [flatten_append, flatten_cons, flatten_append]
  exact perm_append_comm_assoc _ _ _

variable (h : Occupancy places marked)
include h

/-- One place holds others: those it did not hold before were free, and the mark has gone
from those it held to those it holds. -/
theorem set {i : ℕ} {held holds : List α} (hget : places[i]? = some held) (hnodup : holds.Nodup)
    (hfree : ∀ a ∈ holds, a ∈ held ∨ ¬ marked a)
    (hmark : ∀ a, marked' a ↔ a ∈ holds ∨ marked a ∧ a ∉ held) :
    Occupancy (places.set i holds) marked' := by
  obtain ⟨before, after, rfl, rfl⟩ := split_at hget
  have hset : (before ++ held :: after).set before.length holds = before ++ holds :: after := by
    simp
  have hold := (flatten_perm before after held).nodup_iff.mp h.nodup
  rw [nodup_append] at hold
  have hmem : ∀ a, marked a ↔ a ∈ held ∨ a ∈ (before ++ after).flatten := by
    intro a
    rw [h.marked_iff, (flatten_perm before after held).mem_iff, mem_append]
  rw [hset]
  refine ⟨(flatten_perm before after holds).nodup_iff.mpr ?_, ?_⟩
  · rw [nodup_append]
    refine ⟨hnodup, hold.2.1, ?_⟩
    rintro a ha b hb rfl
    rcases hfree a ha with hheld | hunmarked
    · exact hold.2.2 a hheld a hb rfl
    · exact hunmarked ((hmem a).mpr (.inr hb))
  · intro a
    rw [hmark, (flatten_perm before after holds).mem_iff, mem_append, hmem]
    constructor
    · rintro (hin | ⟨hheld | hin, hnot⟩)
      · exact .inl hin
      · exact absurd hheld hnot
      · exact .inr hin
    · rintro (hin | hin)
      · exact .inl hin
      · exact .inr ⟨.inr hin, fun hheld => hold.2.2 a hheld a hin rfl⟩

theorem append_empty :
    Occupancy (places ++ [[]]) marked where
  nodup := by simpa using h.nodup
  marked_iff := fun a => by simpa using h.marked_iff a

theorem eraseIdx_empty {i : ℕ} (hget : places[i]? = some []) :
    Occupancy (places.eraseIdx i) marked := by
  obtain ⟨before, after, rfl, rfl⟩ := split_at hget
  have herase : (before ++ [] :: after).eraseIdx before.length = before ++ after := by
    rw [eraseIdx_append_of_length_le le_rfl]
    simp
  have hperm := flatten_perm before after []
  rw [herase]
  exact ⟨hperm.nodup_iff.mp h.nodup, fun a => by
    rw [h.marked_iff, hperm.mem_iff, nil_append]⟩

theorem marked_of_mem {i : ℕ} {place : List α} {a : α}
    (hget : places[i]? = some place) (ha : a ∈ place) : marked a :=
  (h.marked_iff a).mpr (mem_flatten.mpr ⟨place, mem_of_getElem? hget, ha⟩)

theorem nodup_of_mem {i : ℕ} {place : List α} (hget : places[i]? = some place) : place.Nodup :=
  (nodup_flatten.mp h.nodup).1 place (mem_of_getElem? hget)

theorem place_unique {i j : ℕ} {place other : List α} {a : α}
    (hi : places[i]? = some place) (hj : places[j]? = some other) (hai : a ∈ place)
    (haj : a ∈ other) : i = j := by
  have hpair := (nodup_flatten.mp h.nodup).2
  rw [pairwise_iff_getElem] at hpair
  obtain ⟨hilt, rfl⟩ := List.getElem?_eq_some_iff.mp hi
  obtain ⟨hjlt, rfl⟩ := List.getElem?_eq_some_iff.mp hj
  rcases Nat.lt_trichotomy i j with hlt | heq | hlt
  · exact absurd haj (hpair i j hilt hjlt hlt hai)
  · exact heq
  · exact absurd hai (hpair j i hjlt hilt hlt haj)

end Occupancy
