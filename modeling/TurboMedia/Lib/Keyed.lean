import Mathlib.Data.List.AList
import Mathlib.Tactic

/-!
# Lists with distinct keys

A table kept as an array whose entries are looked up by a key.  Where no two entries have
the same key, taking out the entry found is the same as keeping the entries with another
key.

The last section sums a weight over a table of Mathlib's `AList`.
-/

namespace Keyed

open List

variable {α κ : Type} {key : α → κ} {xs : List α} {x : α} {k : κ} {i : ℕ}

theorem getElem?_of_findIdx? [BEq κ] [LawfulBEq κ]
    (h : xs.findIdx? (fun y => key y == k) = some i) : ∃ x, xs[i]? = some x ∧ key x = k := by
  obtain ⟨hlt, hkey, _⟩ := findIdx?_eq_some_iff_getElem.mp h
  exact ⟨xs[i], getElem?_eq_getElem hlt, by simpa using hkey⟩

theorem findIdx?_isSome_iff [BEq κ] [LawfulBEq κ] :
    (xs.findIdx? (fun y => key y == k)).isSome = true ↔ ∃ x ∈ xs, key x = k := by
  rw [findIdx?_isSome, any_eq_true]
  simp

theorem findIdx?_eq_none_iff [BEq κ] [LawfulBEq κ] :
    xs.findIdx? (fun y => key y == k) = none ↔ ∀ x ∈ xs, key x ≠ k := by
  rw [List.findIdx?_eq_none_iff]
  simp

theorem eraseIdx_eq_filter [DecidableEq κ] (h : (xs.map key).Nodup) (hx : xs[i]? = some x) :
    xs.eraseIdx i = xs.filter (fun y => decide (key y ≠ key x)) := by
  induction xs generalizing i with
  | nil => simp at hx
  | cons y ys ih =>
    rw [map_cons, nodup_cons] at h
    obtain ⟨hnot, hnodup⟩ := h
    cases i with
    | zero =>
      rw [getElem?_cons_zero, Option.some.injEq] at hx
      subst hx
      rw [eraseIdx_cons_zero, filter_cons_of_neg (by simp)]
      symm
      rw [filter_eq_self]
      intro z hz
      rw [decide_eq_true_eq]
      intro heq
      exact hnot (heq ▸ mem_map_of_mem hz)
    | succ i =>
      rw [getElem?_cons_succ] at hx
      have hne : key y ≠ key x := by
        intro heq
        exact hnot (heq ▸ mem_map_of_mem (mem_of_getElem? hx))
      rw [eraseIdx_cons_succ, filter_cons_of_pos (by simpa using hne), ih hnodup hx]

theorem modify_eq_set (f : α → α) (hx : xs[i]? = some x) : xs.modify i f = xs.set i (f x) := by
  refine ext_getElem? ?_
  intro j
  rw [getElem?_modify, getElem?_set]
  split_ifs with hij hlt
  · rw [← hij, hx]
    rfl
  · exact absurd (List.getElem?_eq_some_iff.mp hx).1 hlt
  · cases xs[j]? <;> rfl

theorem map_modify_same {f : α → α} (h : ∀ x, key (f x) = key x) (xs : List α) (i : ℕ) :
    (xs.modify i f).map key = xs.map key := by
  induction xs generalizing i with
  | nil => simp
  | cons x xs ih =>
    cases i with
    | zero => simp [h]
    | succ i => simp [ih]

/-- After a change of the entry under a key: the changed entry, or one under another key. -/
theorem mem_modify [BEq κ] [LawfulBEq κ] {f : α → α} {y : α} (hnodup : (xs.map key).Nodup)
    (h : xs.findIdx? (fun z => key z == k) = some i) (hy : y ∈ xs.modify i f) :
    (∃ z ∈ xs, key z = k ∧ y = f z) ∨ y ∈ xs ∧ key y ≠ k := by
  obtain ⟨z, hz, hkey⟩ := getElem?_of_findIdx? h
  obtain ⟨j, hj⟩ := mem_iff_getElem?.mp hy
  rw [getElem?_modify] at hj
  obtain ⟨y', hy', rfl⟩ := Option.map_eq_some_iff.mp hj
  by_cases hij : i = j
  · subst hij
    rw [hz, Option.some.injEq] at hy'
    subst hy'
    rw [if_pos rfl]
    exact .inl ⟨z, mem_of_getElem? hz, hkey, rfl⟩
  · rw [if_neg hij]
    refine .inr ⟨mem_of_getElem? hy', ?_⟩
    intro heq
    have hlt := (List.getElem?_eq_some_iff.mp hz).1
    refine hij ((getElem?_inj (by simpa using hlt) hnodup).mp ?_)
    rw [getElem?_map, getElem?_map, hz, hy', Option.map_some, Option.map_some, hkey, heq]

theorem not_of_mem_eraseP {p : α → Bool} {y : α} (hnodup : (xs.map key).Nodup)
    (hp : ∀ z ∈ xs, p z = true → key z = k) (hy : y ∈ xs.eraseP p) : p y = false := by
  induction xs with
  | nil => simp at hy
  | cons z zs ih =>
    rw [map_cons, nodup_cons] at hnodup
    rw [eraseP_cons] at hy
    cases hz : p z with
    | true =>
      rw [hz, cond_true] at hy
      rw [Bool.eq_false_iff]
      intro hpy
      have hsame := (hp y (mem_cons_of_mem _ hy) hpy).trans (hp z mem_cons_self hz).symm
      exact hnodup.1 (hsame ▸ mem_map_of_mem hy)
    | false =>
      rw [hz, cond_false] at hy
      rcases mem_cons.mp hy with rfl | hrest
      · exact hz
      · exact ih hnodup.2 (fun x hx => hp x (mem_cons_of_mem _ hx)) hrest

/-- The entry found is written under its key: only a search for that key notices. -/
theorem find?_set [BEq κ] [LawfulBEq κ] {k' : κ} (h : xs.findIdx? (fun y => key y == k) = some i)
    (hkey : key x = k) :
    (xs.set i x).find? (fun y => key y == k') =
      if k' == k then some x else xs.find? (fun y => key y == k') := by
  induction xs generalizing i with
  | nil => simp at h
  | cons y ys ih =>
    rw [findIdx?_cons] at h
    split_ifs at h with hy
    · rw [Option.some.injEq] at h
      subst h
      have hy' : key y = k := by simpa using hy
      rw [set_cons_zero, find?_cons, find?_cons, hkey, hy']
      split_ifs with hk
      · simp [eq_of_beq hk]
      · have hne : (k == k') = false := by
          simpa using fun heq => hk (by simp [heq])
        rw [hne]
    · rw [Option.map_eq_some_iff] at h
      obtain ⟨j, hj, rfl⟩ := h
      have hy' : key y ≠ k := by simpa using hy
      rw [set_cons_succ, find?_cons, find?_cons, ih hj]
      by_cases hk' : key y = k'
      · have hother : k' ≠ k := fun heq => hy' (hk'.trans heq)
        simp [hk', hother]
      · have hne : (key y == k') = false := by simpa using hk'
        rw [hne]

theorem find?_modify [BEq κ] [LawfulBEq κ] {f : α → α} {k' : κ} (hf : ∀ y, key (f y) = key y)
    (h : xs.findIdx? (fun y => key y == k) = some i) :
    (xs.modify i f).find? (fun y => key y == k') =
      if k' == k then (xs.find? (fun y => key y == k')).map f
      else xs.find? (fun y => key y == k') := by
  obtain ⟨x, hx, hkey⟩ := getElem?_of_findIdx? h
  have hself : xs.set i x = xs := by
    obtain ⟨hlt, rfl⟩ := List.getElem?_eq_some_iff.mp hx
    exact set_getElem_self hlt
  have hfound : xs.find? (fun y => key y == k') =
      if k' == k then some x else xs.find? (fun y => key y == k') := by
    rw [← find?_set h hkey, hself]
  rw [modify_eq_set f hx, find?_set h ((hf x).trans hkey)]
  split_ifs at hfound ⊢ with hk
  · rw [hfound, Option.map_some]
  · rfl

/-- The first entry under a key is taken out: a search for another key does not notice. -/
theorem find?_eraseP [BEq κ] [LawfulBEq κ] {k' : κ} (h : k' ≠ k) :
    (xs.eraseP (fun y => key y == k)).find? (fun y => key y == k') =
      xs.find? (fun y => key y == k') := by
  induction xs with
  | nil => rfl
  | cons y ys ih =>
    rw [eraseP_cons, find?_cons]
    by_cases hy : key y = k
    · have hne : (key y == k') = false := by
        simpa [hy] using fun heq => h heq.symm
      have hgone : (key y == k) = true := by simpa using hy
      rw [hgone, hne, cond_true]
    · have hkeep : (key y == k) = false := by simpa using hy
      rw [hkeep, cond_false, find?_cons, ih]

theorem eq_of_key_eq {y : α} (h : (xs.map key).Nodup) (hx : x ∈ xs) (hy : y ∈ xs)
    (hkey : key x = key y) : x = y :=
  inj_on_of_nodup_map h hx hy hkey

variable {α β : Type} (f : β → ℕ) {s : AList (fun _ : α => β)} {a : α} {b c : β}

/-- Sum of a weight over the values of a table. -/
def total (s : AList (fun _ : α => β)) : ℕ :=
  (s.entries.map (fun e => f e.2)).sum

variable [DecidableEq α]

theorem total_insert : total f (s.insert a b) = f b + total f (s.erase a) := by
  rw [total, AList.entries_insert, map_cons, sum_cons]
  rfl

theorem total_of_lookup (h : s.lookup a = some b) : total f s = f b + total f (s.erase a) := by
  have hmem : a ∈ s.entries.keys := AList.mem_keys.mp (AList.lookup_isSome.mp (by rw [h]; rfl))
  obtain ⟨b', l₁, l₂, hnot, hentries, herase⟩ := exists_of_kerase hmem
  have hlook : b' = b := by
    have hdlookup : s.entries.dlookup a = some b := h
    rw [hentries, dlookup_append, dlookup_eq_none.mpr hnot] at hdlookup
    simpa using hdlookup
  have herased : (s.erase a).entries = l₁ ++ l₂ := herase
  rw [total, total, herased, hentries, hlook]
  simp only [map_append, map_cons, sum_append, sum_cons]
  omega

theorem total_insert_new (h : s.lookup a = none) : total f (s.insert a b) = f b + total f s := by
  rw [total, AList.entries_insert_of_notMem (AList.lookup_eq_none.mp h), map_cons, sum_cons]
  rfl

theorem total_insert_old (h : s.lookup a = some b) :
    total f (s.insert a c) + f b = f c + total f s := by
  rw [total_insert, total_of_lookup f h]
  omega

end Keyed
