import Mathlib.Data.List.Perm.Subperm
import Mathlib.Tactic

/-!
# Delivery in order

Items are accepted one after the other; later each of them is delivered, is lost,
or still waits.  `Kept` says that what was not lost is, in the order of acceptance,
what was delivered followed by what waits.  It is kept by accepting a new item, by
delivering the first one that waits, and by losing any of those that wait.
-/

namespace Delivery

open List

variable {α : Type}

/-- In a list ordered by a stamp the first item is the one with the least stamp. -/
theorem head_of_least {stamp : α → ℕ} {queue : List α} {a : α}
    (hsorted : queue.Pairwise (fun a b => stamp a < stamp b)) (ha : a ∈ queue)
    (hleast : ∀ b ∈ queue, stamp a ≤ stamp b) : ∃ rest, queue = a :: rest := by
  cases queue with
  | nil => cases ha
  | cons b rest =>
    rcases mem_cons.mp ha with rfl | hrest
    · exact ⟨rest, rfl⟩
    · have hlt := (pairwise_cons.mp hsorted).1 a hrest
      have hle := hleast b mem_cons_self
      omega

variable [DecidableEq α]

/-- The items that were not lost are those delivered and then those that wait, in the
order in which they were accepted. -/
structure Kept (accepted delivered lost queue : List α) : Prop where
  nodup : accepted.Nodup
  order : accepted.filter (fun a => decide (a ∉ lost)) = delivered ++ queue
  lostNodup : lost.Nodup
  lostSubset : ∀ a ∈ lost, a ∈ accepted

namespace Kept

variable {accepted delivered lost lost' queue : List α} {a : α}

theorem empty : Kept ([] : List α) [] [] [] :=
  ⟨nodup_nil, rfl, nodup_nil, by simp⟩

theorem sublist (h : Kept accepted delivered lost queue) :
    (delivered ++ queue).Sublist accepted := by
  rw [← h.order]
  exact filter_sublist

theorem accept (h : Kept accepted delivered lost queue) (ha : a ∉ accepted) :
    Kept (accepted ++ [a]) delivered lost (queue ++ [a]) where
  nodup := by
    rw [nodup_append]
    refine ⟨h.nodup, nodup_singleton a, ?_⟩
    rintro b hb c hc rfl
    rw [mem_singleton] at hc
    exact ha (hc ▸ hb)
  order := by
    have hnew : [a].filter (fun a => decide (a ∉ lost)) = [a] := by
      rw [filter_eq_self]
      intro b hb
      rw [mem_singleton] at hb
      subst hb
      exact decide_eq_true (fun hlost => ha (h.lostSubset b hlost))
    rw [filter_append, h.order, hnew, append_assoc]
  lostNodup := h.lostNodup
  lostSubset := fun b hb => mem_append_left _ (h.lostSubset b hb)

theorem deliver (h : Kept accepted delivered lost (a :: queue)) :
    Kept accepted (delivered ++ [a]) lost queue where
  nodup := h.nodup
  order := by
    rw [h.order, append_assoc]
    rfl
  lostNodup := h.lostNodup
  lostSubset := h.lostSubset

variable (h : Kept accepted delivered lost queue)
include h

theorem waits_not_lost (ha : a ∈ queue) :
    a ∈ accepted ∧ a ∉ lost := by
  have hmem : a ∈ accepted.filter (fun a => decide (a ∉ lost)) := by
    rw [h.order]
    exact mem_append_right _ ha
  simpa using mem_filter.mp hmem

theorem lose {gone : List α} (hnodup : gone.Nodup)
    (hgone : ∀ a ∈ gone, a ∈ queue) :
    Kept accepted delivered (lost ++ gone) (queue.filter (fun a => decide (a ∉ gone))) where
  nodup := h.nodup
  order := by
    have hapart : ∀ a ∈ delivered, a ∉ gone := by
      intro a ha hlost
      have hsplit := h.sublist.nodup h.nodup
      rw [nodup_append] at hsplit
      exact hsplit.2.2 a ha a (hgone a hlost) rfl
    have hdel : delivered.filter (fun a => decide (a ∉ gone)) = delivered := by
      rw [filter_eq_self]
      exact fun a ha => decide_eq_true (hapart a ha)
    have hboth : accepted.filter (fun a => decide (a ∉ lost ++ gone)) =
        (accepted.filter (fun a => decide (a ∉ lost))).filter (fun a => decide (a ∉ gone)) := by
      rw [filter_filter]
      congr 1
      funext a
      simp [Bool.and_comm]
    rw [hboth, h.order, filter_append, hdel]
  lostNodup := by
    rw [nodup_append]
    refine ⟨h.lostNodup, hnodup, ?_⟩
    rintro a ha b hb rfl
    exact (h.waits_not_lost (hgone a hb)).2 ha
  lostSubset := by
    intro a ha
    rcases mem_append.mp ha with ha | ha
    · exact h.lostSubset a ha
    · exact (h.waits_not_lost (hgone a ha)).1

theorem perm_lost (hperm : lost.Perm lost') :
    Kept accepted delivered lost' queue where
  nodup := h.nodup
  order := by
    rw [← h.order]
    congr 1
    funext a
    simp [hperm.mem_iff]
  lostNodup := hperm.nodup_iff.mp h.lostNodup
  lostSubset := fun a ha => h.lostSubset a (hperm.mem_iff.mpr ha)

theorem perm :
    (delivered ++ queue ++ lost).Perm accepted := by
  have hlost : (accepted.filter (fun a => !decide (a ∉ lost))).Perm lost := by
    refine (perm_ext_iff_of_nodup (h.nodup.filter _) h.lostNodup).mpr (fun a => ?_)
    rw [mem_filter]
    refine ⟨fun ha => by simpa using ha.2, fun ha => ⟨h.lostSubset a ha, by simpa using ha⟩⟩
  rw [← h.order]
  exact (hlost.symm.append_left _).trans (filter_append_perm _ accepted)

end Kept

end Delivery
