import Mathlib.Tactic

/-!
# Intrusive linked lists

Nodes that carry the links of a doubly linked list, and its two ends.  Nodes are named by
keys; a node that is not in the list has no links.

**Input.**  The links of every node and both ends.

**Results.**  `Holds` says which list they make up.  Taking out a node takes its key out of
the list (`Holds.remove`), and putting a node behind the tail appends its key
(`Holds.pushBack`).  The first key is the head (`Holds.head_cons`).
-/

namespace LinkedList

open List

universe u

/-- The links of all nodes, and the ends. -/
structure Links (κ : Type u) where
  next : κ → Option κ
  prev : κ → Option κ
  head : Option κ
  tail : Option κ

namespace Links

variable {κ : Type u}

/-- The links make up this list. -/
structure Holds (links : Links κ) (xs : List κ) : Prop where
  nodup : xs.Nodup
  head : links.head = xs.head?
  tail : links.tail = xs.getLast?
  between : ∀ front k back, xs = front ++ k :: back →
    links.prev k = front.getLast? ∧ links.next k = back.head?
  outside : ∀ k, k ∉ xs → links.prev k = none ∧ links.next k = none

def empty : Links κ where
  next := fun _ => none
  prev := fun _ => none
  head := none
  tail := none

theorem holds_empty : (empty : Links κ).Holds [] where
  nodup := nodup_nil
  head := rfl
  tail := rfl
  between := by simp
  outside := fun _ _ => ⟨rfl, rfl⟩

theorem Holds.head_cons {links : Links κ} {xs : List κ} {k : κ} (h : links.Holds xs)
    (hhead : links.head = some k) : ∃ back, xs = k :: back := by
  rw [h.head] at hhead
  exact List.head?_eq_some_iff.mp hhead

theorem Holds.congr {links links' : Links κ} {xs : List κ} (h : links.Holds xs)
    (hnext : ∀ k, links'.next k = links.next k) (hprev : ∀ k, links'.prev k = links.prev k)
    (hhead : links'.head = links.head) (htail : links'.tail = links.tail) :
    links'.Holds xs where
  nodup := h.nodup
  head := hhead.trans h.head
  tail := htail.trans h.tail
  between := by
    intro front k back hxs
    rw [hprev, hnext]
    exact h.between front k back hxs
  outside := by
    intro k hk
    rw [hprev, hnext]
    exact h.outside k hk

variable [DecidableEq κ]

/-- The node leaves the list: its neighbours, or the ends, take over its links. -/
def remove (links : Links κ) (k : κ) : Links κ where
  next := fun x =>
    if x = k then none else if links.prev k = some x then links.next k else links.next x
  prev := fun x =>
    if x = k then none else if links.next k = some x then links.prev k else links.prev x
  head := if links.prev k = none then links.next k else links.head
  tail := if links.next k = none then links.prev k else links.tail

def pushBack (links : Links κ) (k : κ) : Links κ where
  next := fun x => if links.tail = some x then some k else links.next x
  prev := fun x => if x = k then links.tail else links.prev x
  head := if links.tail = none then some k else links.head
  tail := some k

section Remove

variable {links : Links κ} {front back : List κ} {k : κ}

variable (h : links.Holds (front ++ k :: back))
include h

theorem Holds.remove_behind {as bs : List κ} {x : κ}
    (hback : back = as ++ x :: bs) :
    (links.remove k).prev x = (front ++ as).getLast? ∧ (links.remove k).next x = bs.head? := by
  subst hback
  obtain ⟨hprev, hnext⟩ := h.between front k (as ++ x :: bs) rfl
  obtain ⟨hprevx, hnextx⟩ := h.between (front ++ k :: as) x bs (by simp)
  have hnodup := h.nodup
  simp only [nodup_append, nodup_cons, mem_append, mem_cons] at hnodup
  have hxk : x ≠ k := by
    rintro rfl
    exact hnodup.2.1.1 (.inr (.inl rfl))
  have hxfront : x ∉ front := by
    intro hx
    exact hnodup.2.2 x hx x (.inr (.inr (.inl rfl))) rfl
  constructor
  · change (if x = k then none else
      if links.next k = some x then links.prev k else links.prev x) = _
    rw [if_neg hxk]
    cases as with
    | nil => rw [if_pos (by rw [hnext]; rfl), hprev, append_nil]
    | cons a as =>
      have hax : a ≠ x := by
        rintro rfl
        exact hnodup.2.1.2.2.2 a mem_cons_self a (.inl rfl) rfl
      rw [if_neg (by rw [hnext]; simpa using hax), hprevx]
      simp [getLast?_append, getLast?_cons]
  · change (if x = k then none else
      if links.prev k = some x then links.next k else links.next x) = _
    rw [if_neg hxk, if_neg, hnextx]
    rw [hprev]
    intro hlast
    exact hxfront (mem_of_getLast? hlast)

theorem Holds.remove_before {as bs : List κ} {x : κ}
    (hfront : front = as ++ x :: bs) :
    (links.remove k).prev x = as.getLast? ∧ (links.remove k).next x = (bs ++ back).head? := by
  subst hfront
  obtain ⟨hprev, hnext⟩ := h.between (as ++ x :: bs) k back rfl
  obtain ⟨hprevx, hnextx⟩ := h.between as x (bs ++ k :: back) (by simp)
  have hnodup := h.nodup
  simp only [nodup_append, nodup_cons, mem_append, mem_cons] at hnodup
  have hxk : x ≠ k := by
    rintro rfl
    exact hnodup.2.2 x (.inr (.inl rfl)) x (.inl rfl) rfl
  have hxback : x ∉ back := by
    intro hx
    exact hnodup.2.2 x (.inr (.inl rfl)) x (.inr hx) rfl
  constructor
  · change (if x = k then none else
      if links.next k = some x then links.prev k else links.prev x) = _
    rw [if_neg hxk, if_neg, hprevx]
    rw [hnext]
    intro hhead
    exact hxback (mem_of_head? hhead)
  · change (if x = k then none else
      if links.prev k = some x then links.next k else links.next x) = _
    rw [if_neg hxk]
    rcases eq_nil_or_concat bs with rfl | ⟨bs, b, rfl⟩
    · rw [if_pos (by rw [hprev]; simp), hnext, nil_append]
    · have hbx : b ≠ x := by
        rintro rfl
        exact hnodup.1.2.1.1 (by simp)
      rw [if_neg (by rw [hprev]; simpa [getLast?_append, getLast?_cons] using hbx),
        hnextx]
      cases bs <;> rfl

theorem Holds.remove :
    (links.remove k).Holds (front ++ back) where
  nodup := by
    have hnodup := h.nodup
    rw [nodup_middle, nodup_cons] at hnodup
    exact hnodup.2
  head := by
    obtain ⟨hprev, hnext⟩ := h.between front k back rfl
    change (if links.prev k = none then links.next k else links.head) = _
    rw [hprev, hnext, h.head]
    cases front <;> simp
  tail := by
    obtain ⟨hprev, hnext⟩ := h.between front k back rfl
    change (if links.next k = none then links.prev k else links.tail) = _
    rw [hprev, hnext, h.tail]
    rcases eq_nil_or_concat back with rfl | ⟨back, b, rfl⟩
    · simp
    · cases back <;> simp [getLast?_append, getLast?_cons]
  between := by
    intro as x bs hsplit
    rcases append_eq_append_iff.mp hsplit with ⟨cs, rfl, hback⟩ | ⟨cs, hfront, hcs⟩
    · exact h.remove_behind hback
    · cases cs with
      | nil =>
        rw [append_nil] at hfront
        subst hfront
        have hlinks := h.remove_behind (show back = [] ++ x :: bs by simpa using hcs.symm)
        rwa [append_nil] at hlinks
      | cons c cs =>
        rw [cons_append, cons.injEq] at hcs
        obtain ⟨rfl, rfl⟩ := hcs
        exact h.remove_before hfront
  outside := by
    intro x hx
    by_cases hxk : x = k
    · exact ⟨if_pos hxk, if_pos hxk⟩
    · have hout : x ∉ front ++ k :: back := by
        simp only [mem_append, mem_cons, not_or] at hx ⊢
        exact ⟨hx.1, hxk, hx.2⟩
      obtain ⟨hprev, hnext⟩ := h.between front k back rfl
      simp only [mem_append, not_or] at hx
      obtain ⟨hprevx, hnextx⟩ := h.outside x hout
      constructor
      · change (if x = k then none else
          if links.next k = some x then links.prev k else links.prev x) = _
        rw [if_neg hxk, if_neg, hprevx]
        rw [hnext]
        exact fun hhead => hx.2 (mem_of_head? hhead)
      · change (if x = k then none else
          if links.prev k = some x then links.next k else links.next x) = _
        rw [if_neg hxk, if_neg, hnextx]
        rw [hprev]
        exact fun hlast => hx.1 (mem_of_getLast? hlast)

end Remove

theorem Holds.pushBack {links : Links κ} {xs : List κ} {k : κ} (h : links.Holds xs) (hk : k ∉ xs) :
    (links.pushBack k).Holds (xs ++ [k]) where
  nodup := by
    rw [nodup_append]
    refine ⟨h.nodup, nodup_singleton k, ?_⟩
    rintro x hx y hy rfl
    exact hk (mem_singleton.mp hy ▸ hx)
  head := by
    change (if links.tail = none then some k else links.head) = _
    rw [h.tail, h.head]
    cases xs <;> simp
  tail := by
    change some k = _
    simp
  between := by
    intro front x back hsplit
    rcases eq_nil_or_concat back with rfl | ⟨back, b, rfl⟩
    · obtain ⟨rfl, hx⟩ := append_inj' hsplit rfl
      obtain rfl := head_eq_of_cons_eq hx
      constructor
      · change (if k = k then links.tail else links.prev k) = _
        rw [if_pos rfl, h.tail]
      · change (if links.tail = some k then some k else links.next k) = _
        rw [if_neg, (h.outside k hk).2]
        · rfl
        · rw [h.tail]
          exact fun hlast => hk (mem_of_getLast? hlast)
    · rw [concat_eq_append] at hsplit ⊢
      rw [← cons_append, ← append_assoc] at hsplit
      obtain ⟨rfl, hb⟩ := append_inj' hsplit rfl
      obtain rfl := head_eq_of_cons_eq hb
      obtain ⟨hprev, hnext⟩ := h.between front x back rfl
      have hxk : x ≠ k := by
        rintro rfl
        exact hk (by simp)
      constructor
      · change (if x = k then links.tail else links.prev x) = _
        rw [if_neg hxk, hprev]
      · change (if links.tail = some x then some k else links.next x) = _
        rw [h.tail, hnext]
        rcases eq_nil_or_concat back with rfl | ⟨back, b, rfl⟩
        · simp
        · have hbx : b ≠ x := by
            rintro rfl
            have hnodup := h.nodup
            simp [nodup_append] at hnodup
          rw [if_neg (by simpa [getLast?_append, getLast?_cons] using hbx)]
          cases back <;> rfl
  outside := by
    intro x hx
    simp only [mem_append, mem_singleton, not_or] at hx
    obtain ⟨hprev, hnext⟩ := h.outside x hx.1
    constructor
    · change (if x = k then links.tail else links.prev x) = _
      rw [if_neg hx.2, hprev]
    · change (if links.tail = some x then some k else links.next x) = _
      rw [if_neg, hnext]
      rw [h.tail]
      exact fun hlast => hx.1 (mem_of_getLast? hlast)

end Links

end LinkedList
