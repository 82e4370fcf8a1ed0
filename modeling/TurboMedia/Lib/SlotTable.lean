import Mathlib.Data.List.ReduceOption
import Mathlib.Data.List.Perm.Subperm
import Mathlib.Tactic

/-!
# Fixed tables of slots

A table of slots is a list of optional entries; `none` is a cleared slot.  The
entries present, in index order, are `List.reduceOption`.  Lookups return the
first matching slot, writes go through `List.set`.

The lemma `perm_expose` isolates one slot: up to permutation the entries of a
table are the content of that slot followed by the entries of the table with
the slot cleared.  Every write is a consequence of it, so statements about a
table that do not depend on the order of its entries are kept by reasoning on
lists alone.
-/

namespace SlotTable

open List

universe u

variable {α : Type u}

/-- First occupied slot whose entry satisfies `p`, with its index. -/
def findOccupied (p : α → Bool) : List (Option α) → Option (ℕ × α)
  | [] => none
  | some x :: t =>
    if p x then some (0, x)
    else (findOccupied p t).map (fun e => (e.1 + 1, e.2))
  | none :: t => (findOccupied p t).map (fun e => (e.1 + 1, e.2))

variable {p : α → Bool}

theorem findOccupied_some {t : List (Option α)} {i : ℕ} {x : α}
    (h : findOccupied p t = some (i, x)) : t[i]? = some (some x) ∧ p x = true := by
  induction t generalizing i with
  | nil => simp [findOccupied] at h
  | cons o t ih =>
    cases o with
    | none =>
      simp only [findOccupied, Option.map_eq_some_iff] at h
      obtain ⟨⟨j, y⟩, hj, heq⟩ := h
      simp only [Prod.mk.injEq] at heq
      obtain ⟨rfl, rfl⟩ := heq
      simpa using ih hj
    | some y =>
      simp only [findOccupied] at h
      split_ifs at h with hp
      · simp only [Option.some.injEq, Prod.mk.injEq] at h
        obtain ⟨rfl, rfl⟩ := h
        exact ⟨rfl, hp⟩
      · simp only [Option.map_eq_some_iff] at h
        obtain ⟨⟨j, z⟩, hj, heq⟩ := h
        simp only [Prod.mk.injEq] at heq
        obtain ⟨rfl, rfl⟩ := heq
        simpa using ih hj

theorem findOccupied_none {t : List (Option α)} (h : findOccupied p t = none) :
    ∀ x ∈ t.reduceOption, p x = false := by
  induction t with
  | nil => simp
  | cons o t ih =>
    cases o with
    | none =>
      simp only [findOccupied, Option.map_eq_none_iff] at h
      simpa using ih h
    | some y =>
      simp only [findOccupied] at h
      split_ifs at h with hp
      simp only [Option.map_eq_none_iff] at h
      intro x hx
      rw [reduceOption_cons_of_some] at hx
      rcases mem_cons.mp hx with rfl | hx
      · simpa using hp
      · exact ih h x hx

theorem findOccupied_isSome {t : List (Option α)} {x : α} (hx : x ∈ t.reduceOption)
    (hp : p x = true) : ∃ e, findOccupied p t = some e := by
  cases h : findOccupied p t with
  | none =>
    have := findOccupied_none h x hx
    simp [hp] at this
  | some e => exact ⟨e, rfl⟩

theorem findOccupied_eq_none {t : List (Option α)}
    (h : ∀ x ∈ t.reduceOption, p x = false) : findOccupied p t = none := by
  cases hfind : findOccupied p t with
  | none => rfl
  | some e =>
    obtain ⟨hget, hp⟩ := findOccupied_some hfind
    have hmem := reduceOption_mem_iff.mpr (mem_of_getElem? hget)
    exact absurd hp (by simp [h _ hmem])

variable {t : List (Option α)}

theorem length_of_full (h : t.findIdx? Option.isNone = none) :
    t.reduceOption.length = t.length := by
  rw [reduceOption_length_eq_iff]
  intro o ho
  have hfull := findIdx?_eq_none_iff.mp h o ho
  rwa [Option.isNone_eq_false_iff] at hfull

theorem mem_of_getElem? {i : ℕ} {x : α} (h : t[i]? = some (some x)) :
    x ∈ t.reduceOption := by
  rw [reduceOption_mem_iff]
  exact List.mem_of_getElem? h

theorem perm_expose {i : ℕ} {o : Option α} (h : t[i]? = some o) :
    t.reduceOption.Perm (o.toList ++ (t.set i none).reduceOption) := by
  induction t generalizing i with
  | nil => simp at h
  | cons a t ih =>
    cases i with
    | zero =>
      simp only [getElem?_cons_zero, Option.some.injEq] at h
      subst h
      cases a <;> simp
    | succ i =>
      simp only [getElem?_cons_succ] at h
      have hperm := ih h
      cases a with
      | none => simpa using hperm
      | some y =>
        rw [set_cons_succ, reduceOption_cons_of_some, reduceOption_cons_of_some]
        exact (hperm.cons y).trans perm_middle.symm

theorem perm_set {i : ℕ} {o : Option α} (h : t[i]? = some o) (o' : Option α) :
    (t.set i o').reduceOption.Perm (o'.toList ++ (t.set i none).reduceOption) := by
  have hlt : i < t.length := (List.getElem?_eq_some_iff.mp h).1
  have hset : (t.set i o')[i]? = some o' := by
    simp [hlt]
  simpa using perm_expose hset

/-- A list of which each entry shows something or nothing: a write exchanges what one
entry shows. -/
theorem perm_map_set {β : Type*} {f : β → Option α} {l : List β} {i : ℕ} {x : β}
    (h : l[i]? = some x) (y : β) :
    ∃ rest, (l.map f).reduceOption.Perm ((f x).toList ++ rest) ∧
      ((l.set i y).map f).reduceOption.Perm ((f y).toList ++ rest) := by
  have hshown : (l.map f)[i]? = some (f x) := by
    rw [getElem?_map, h]
    rfl
  refine ⟨_, perm_expose hshown, ?_⟩
  rw [map_set]
  exact perm_set hshown (f y)

theorem set_getElem? {t : List (Option α)} {i : ℕ} {o : Option α} (h : t[i]? = some o) :
    t.set i o = t := by
  obtain ⟨hlt, heq⟩ := List.getElem?_eq_some_iff.mp h
  rw [← heq, set_getElem_self]

section Keys

variable {κ : Type*} {f : α → κ} {t : List (Option α)} {i : ℕ}

theorem set_none_subperm {o : Option α} (h : t[i]? = some o) :
    (t.set i none).reduceOption.Subperm t.reduceOption := by
  have hsub : (t.set i none).reduceOption.Sublist (o.toList ++ (t.set i none).reduceOption) :=
    sublist_append_right _ _
  exact hsub.subperm.trans (perm_expose h).symm.subperm

variable (hnodup : (t.reduceOption.map f).Nodup)
include hnodup

theorem nodup_map_clear {o : Option α}
    (h : t[i]? = some o) : ((t.set i none).reduceOption.map f).Nodup := by
  have hperm := ((perm_expose h).map f).nodup_iff.mp hnodup
  rw [map_append] at hperm
  exact (nodup_append.mp hperm).2.1

theorem map_ne_of_occupied {x : α}
    (h : t[i]? = some (some x)) : ∀ y ∈ (t.set i none).reduceOption, f y ≠ f x := by
  have hperm := ((perm_expose h).map f).nodup_iff.mp hnodup
  simp only [Option.toList_some, singleton_append, map_cons,
    nodup_cons, mem_map, not_exists, not_and] at hperm
  exact hperm.1

theorem index_unique {j : ℕ} {x y : α}
    (hi : t[i]? = some (some x)) (hj : t[j]? = some (some y)) (hkey : f y = f x) : i = j := by
  by_contra hne
  refine map_ne_of_occupied hnodup hi y ?_ hkey
  refine mem_of_getElem? (i := j) ?_
  rw [getElem?_set_ne hne, hj]

/-- Keys stay distinct when a slot is written with a key that is new to the
other slots. -/
theorem nodup_map_set {o : Option α} {y : α}
    (h : t[i]? = some o) (hnew : ∀ x ∈ (t.set i none).reduceOption, f x ≠ f y) :
    ((t.set i (some y)).reduceOption.map f).Nodup := by
  rw [((perm_set h (some y)).map f).nodup_iff]
  simp only [Option.toList_some, singleton_append, map_cons,
    nodup_cons, mem_map, not_exists, not_and]
  exact ⟨hnew, nodup_map_clear hnodup h⟩

end Keys

/-- Clearing the slots that fail `p` filters the entries. -/
theorem reduceOption_map_filter (p : α → Bool) (t : List (Option α)) :
    (t.map (Option.filter p)).reduceOption = t.reduceOption.filter p := by
  induction t with
  | nil => rfl
  | cons o t ih =>
    cases o with
    | none => simpa using ih
    | some y => cases hp : p y <;> simp [Option.filter, hp, ih]

@[simp] theorem reduceOption_map_some (xs : List α) : (xs.map some).reduceOption = xs := by
  induction xs with
  | nil => rfl
  | cons x xs ih => simp [ih]

/-- A table of `n` slots filled from the front. -/
def fill (n : ℕ) (xs : List α) : List (Option α) :=
  xs.map some ++ replicate (n - xs.length) none

@[simp] theorem reduceOption_fill (n : ℕ) (xs : List α) : (fill n xs).reduceOption = xs := by
  simp [fill, reduceOption_append, reduceOption_replicate_none]

theorem findIdx?_getElem? {q : Option α → Bool} {t : List (Option α)} {i : ℕ}
    (h : t.findIdx? q = some i) : ∃ o, t[i]? = some o ∧ q o = true := by
  obtain ⟨hlt, hq, _⟩ := findIdx?_eq_some_iff_getElem.mp h
  exact ⟨t[i], getElem?_eq_getElem hlt, hq⟩

theorem map_filterMap_sublist {α β γ : Type*} {g : α → Option β} {f : β → γ} {k : α → γ}
    (h : ∀ a b, g a = some b → f b = k a) (xs : List α) :
    ((xs.filterMap g).map f).Sublist (xs.map k) := by
  induction xs with
  | nil => simp
  | cons a xs ih =>
    cases hg : g a with
    | none => simpa [hg] using ih.cons (k a)
    | some b => simpa [hg, h a b hg] using ih

end SlotTable
