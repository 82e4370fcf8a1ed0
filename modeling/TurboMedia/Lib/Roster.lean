import Mathlib.Data.List.Nodup
import Mathlib.Tactic

/-!
# Rosters

Members, the items they own, links from members to items of others, and pointers to
members.  A roster is intact when all names are distinct and every reference leads
somewhere.

**Method.**  One lemma per kind of change.  Everything that takes entries away is
`Intact.shrink`: it asks that what stays refers to what stays.
-/

universe u v

/-- Items carry their owner, links their member and their item. -/
@[ext]
structure Roster (μ : Type u) (τ : Type v) where
  members : List μ
  items : List (τ × μ)
  links : List (μ × τ)
  pointers : List μ

namespace Roster

open List

variable {μ : Type u} {τ : Type v}

/-- Names are distinct and references lead somewhere; no member is linked to its own
item. -/
structure Intact (R : Roster μ τ) : Prop where
  members : R.members.Nodup
  items : (R.items.map Prod.fst).Nodup
  links : R.links.Nodup
  owners : ∀ i ∈ R.items, i.2 ∈ R.members
  linkers : ∀ l ∈ R.links, l.1 ∈ R.members
  linked : ∀ l ∈ R.links, ∃ owner, (l.2, owner) ∈ R.items ∧ owner ≠ l.1
  pointers : ∀ p ∈ R.pointers, p ∈ R.members

theorem intact_iff {R : Roster μ τ} :
    R.Intact ↔ R.members.Nodup ∧ (R.items.map Prod.fst).Nodup ∧ R.links.Nodup ∧
      (∀ i ∈ R.items, i.2 ∈ R.members) ∧ (∀ l ∈ R.links, l.1 ∈ R.members) ∧
      (∀ l ∈ R.links, ∃ i ∈ R.items, i.1 = l.2 ∧ i.2 ≠ l.1) ∧ ∀ p ∈ R.pointers, p ∈ R.members := by
  constructor
  · intro h
    refine ⟨h.members, h.items, h.links, h.owners, h.linkers, ?_, h.pointers⟩
    intro l hl
    obtain ⟨owner, hmem, hne⟩ := h.linked l hl
    exact ⟨(l.2, owner), hmem, rfl, hne⟩
  · rintro ⟨hmembers, hitems, hlinks, howners, hlinkers, hlinked, hpointers⟩
    refine ⟨hmembers, hitems, hlinks, howners, hlinkers, ?_, hpointers⟩
    intro l hl
    obtain ⟨⟨t, owner⟩, hmem, rfl, hne⟩ := hlinked l hl
    exact ⟨owner, hmem, hne⟩

instance [DecidableEq μ] [DecidableEq τ] (R : Roster μ τ) : Decidable R.Intact :=
  decidable_of_iff _ intact_iff.symm

variable {R : Roster μ τ} {m : μ} {t : τ}

theorem Intact.empty : (⟨[], [], [], []⟩ : Roster μ τ).Intact where
  members := nodup_nil
  items := nodup_nil
  links := nodup_nil
  owners := by simp
  linkers := by simp
  linked := by simp
  pointers := by simp

variable (h : R.Intact)
include h

theorem Intact.shrink {S : Roster μ τ} (hmembers : S.members.Sublist R.members)
    (hitems : S.items.Sublist R.items) (hlinks : S.links.Sublist R.links)
    (howners : ∀ i ∈ S.items, i.2 ∈ S.members) (hlinkers : ∀ l ∈ S.links, l.1 ∈ S.members)
    (hlinked : ∀ l ∈ S.links, ∀ owner, (l.2, owner) ∈ R.items → (l.2, owner) ∈ S.items)
    (hpointers : ∀ p ∈ S.pointers, p ∈ S.members) :
    S.Intact where
  members := hmembers.nodup h.members
  items := (hitems.map Prod.fst).nodup h.items
  links := hlinks.nodup h.links
  owners := howners
  linkers := hlinkers
  linked := by
    intro l hl
    obtain ⟨owner, hmem, hne⟩ := h.linked l (hlinks.subset hl)
    exact ⟨owner, hlinked l hl owner hmem, hne⟩
  pointers := hpointers

theorem Intact.point (pointers : List μ)
    (hpointers : ∀ p ∈ pointers, p ∈ R.members) : { R with pointers := pointers }.Intact :=
  h.shrink (.refl _) (.refl _) (.refl _) h.owners h.linkers (fun _ _ _ hmem => hmem) hpointers

theorem Intact.join (hnew : m ∉ R.members) :
    { R with members := R.members ++ [m] }.Intact where
  members := by
    rw [nodup_append]
    refine ⟨h.members, nodup_singleton m, ?_⟩
    intro a ha b hb heq
    rw [mem_singleton] at hb
    exact hnew (hb ▸ heq ▸ ha)
  items := h.items
  links := h.links
  owners := fun i hi => mem_append_left _ (h.owners i hi)
  linkers := fun l hl => mem_append_left _ (h.linkers l hl)
  linked := h.linked
  pointers := fun p hp => mem_append_left _ (h.pointers p hp)

theorem Intact.addItem (hnew : ∀ i ∈ R.items, i.1 ≠ t) (hm : m ∈ R.members) :
    { R with items := R.items ++ [(t, m)] }.Intact where
  members := h.members
  items := by
    rw [map_append, nodup_append]
    refine ⟨h.items, nodup_singleton t, ?_⟩
    intro a ha b hb heq
    obtain ⟨i, hi, rfl⟩ := mem_map.mp ha
    have hb : b = t := by simpa using hb
    exact hnew i hi (heq.trans hb)
  links := h.links
  owners := by
    intro i hi
    rcases mem_append.mp hi with hold | hadded
    · exact h.owners i hold
    · rw [mem_singleton.mp hadded]
      exact hm
  linkers := h.linkers
  linked := by
    intro l hl
    obtain ⟨owner, hmem, hne⟩ := h.linked l hl
    exact ⟨owner, mem_append_left _ hmem, hne⟩
  pointers := h.pointers

theorem Intact.setOwner {i : ℕ} {owner : μ} (hget : R.items[i]? = some (t, owner))
    (hm : m ∈ R.members) (hfree : (m, t) ∉ R.links) :
    { R with items := R.items.set i (t, m) }.Intact where
  members := h.members
  items := by
    have hfst : (R.items.set i (t, m)).map Prod.fst = R.items.map Prod.fst := by
      rw [map_set]
      refine ext_getElem? ?_
      intro j
      rw [List.getElem?_set, length_map]
      split_ifs with hij hlt
      · rw [← hij, List.getElem?_map, hget]
        rfl
      · exact absurd (List.getElem?_eq_some_iff.mp hget).1 hlt
      · rfl
    rw [hfst]
    exact h.items
  links := h.links
  owners := by
    intro j hj
    rcases mem_or_eq_of_mem_set hj with hold | rfl
    · exact h.owners j hold
    · exact hm
  linkers := h.linkers
  linked := by
    intro l hl
    obtain ⟨old, hmem, hne⟩ := h.linked l hl
    by_cases hlt : l.2 = t
    · refine ⟨m, ?_, ?_⟩
      · rw [hlt]
        exact mem_set (List.getElem?_eq_some_iff.mp hget).1 _
      · intro hself
        exact hfree (by rw [hself, ← hlt]; exact hl)
    · refine ⟨old, ?_, hne⟩
      obtain ⟨j, hj⟩ := mem_iff_getElem?.mp hmem
      have hij : i ≠ j := by
        intro heq
        rw [heq, hj] at hget
        exact hlt (congrArg Prod.fst (Option.some.inj hget))
      exact mem_of_getElem? ((List.getElem?_set_ne hij).trans hj)
  pointers := h.pointers

theorem Intact.addLink {owner : μ} (hm : m ∈ R.members)
    (hitem : (t, owner) ∈ R.items) (hother : owner ≠ m) (hnew : (m, t) ∉ R.links) :
    { R with links := R.links ++ [(m, t)] }.Intact where
  members := h.members
  items := h.items
  links := by
    rw [nodup_append]
    refine ⟨h.links, nodup_singleton _, ?_⟩
    intro a ha b hb heq
    rw [mem_singleton] at hb
    exact hnew (hb ▸ heq ▸ ha)
  owners := h.owners
  linkers := by
    intro l hl
    rcases mem_append.mp hl with hold | hadded
    · exact h.linkers l hold
    · rw [mem_singleton.mp hadded]
      exact hm
  linked := by
    intro l hl
    rcases mem_append.mp hl with hold | hadded
    · exact h.linked l hold
    · rw [mem_singleton.mp hadded]
      exact ⟨owner, hitem, hother⟩
  pointers := h.pointers

theorem Intact.owner_unique {a b : μ} (ha : (t, a) ∈ R.items)
    (hb : (t, b) ∈ R.items) : a = b :=
  congrArg Prod.snd (inj_on_of_nodup_map h.items ha hb rfl)

end Roster
