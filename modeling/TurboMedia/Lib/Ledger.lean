import Mathlib.Data.List.Perm.Subperm
import Mathlib.Algebra.BigOperators.Group.List.Lemmas
import Mathlib.Tactic

/-!
# Capped ledgers

A ledger holds caps and claims.  Each cap belongs to an account and bounds
every resource; each claim is charged to one account.  The ledger is *funded*
when accounts have one cap each, claims have distinct keys, every claim is
charged to an account with a cap, and for each account and resource the claims
sum to at most the cap.

All facts are over lists up to permutation, with arbitrary entries, keys and
resources.  The operations are: forget claims, set the cap of one account, and
put one claim in the place of another or of none.
-/

namespace Ledger

open List

universe u v w x y

variable {P : Type u} {C : Type v} {α : Type w} {κ : Type x} {ρ : Type y}

/-- How caps and claims are read. -/
structure Books (P : Type u) (C : Type v) (α : Type w) (κ : Type x) (ρ : Type y) where
  account : P → α
  cap : P → ρ → ℕ
  owner : C → α
  key : C → κ
  amount : C → ρ → ℕ

variable [DecidableEq α]

/-- Sum of the claims charged to one account. -/
def committed (B : Books P C α κ ρ) (claims : List C) (a : α) (r : ρ) : ℕ :=
  ((claims.filter (fun c => B.owner c = a)).map (fun c => B.amount c r)).sum

variable {B : Books P C α κ ρ}

@[simp] theorem committed_nil (a : α) (r : ρ) : committed B [] a r = 0 := by
  rfl

theorem committed_cons (c : C) (claims : List C) (a : α) (r : ρ) :
    committed B (c :: claims) a r = (if B.owner c = a then B.amount c r else 0) +
        committed B claims a r := by
  unfold committed
  by_cases h : B.owner c = a <;> simp [h]

theorem committed_append (xs ys : List C) (a : α) (r : ρ) :
    committed B (xs ++ ys) a r = committed B xs a r + committed B ys a r := by
  simp [committed]

theorem committed_perm {xs ys : List C} (h : xs.Perm ys) (a : α) (r : ρ) :
    committed B xs a r = committed B ys a r := by
  unfold committed
  exact ((h.filter _).map _).sum_eq

theorem committed_le_of_sublist {xs ys : List C} (h : xs.Sublist ys) (a : α) (r : ρ) :
    committed B xs a r ≤ committed B ys a r := by
  unfold committed
  exact ((h.filter _).map _).sum_le_sum (fun _ _ => Nat.zero_le _)

theorem committed_le_of_subperm {xs ys : List C} (h : xs.Subperm ys) (a : α) (r : ρ) :
    committed B xs a r ≤ committed B ys a r := by
  obtain ⟨zs, hperm, hsub⟩ := h
  rw [← committed_perm hperm]
  exact committed_le_of_sublist hsub a r

theorem committed_eq_zero {claims : List C} {a : α} (h : ∀ c ∈ claims, B.owner c ≠ a) (r : ρ) :
    committed B claims a r = 0 := by
  have hnil : claims.filter (fun c => B.owner c = a) = [] := by
    simpa [filter_eq_nil_iff] using h
  simp [committed, hnil]

theorem committed_eq_amount {claims : List C} {c : C} (hnodup : (claims.map B.owner).Nodup)
    (hc : c ∈ claims) (r : ρ) : committed B claims (B.owner c) r = B.amount c r := by
  induction claims with
  | nil => simp at hc
  | cons d claims ih =>
    rw [map_cons, nodup_cons, mem_map] at hnodup
    rw [committed_cons]
    rcases mem_cons.mp hc with rfl | hc
    · have hrest : ∀ e ∈ claims, B.owner e ≠ B.owner c :=
        fun e he heq => hnodup.1 ⟨e, he, heq⟩
      rw [if_pos rfl, committed_eq_zero hrest, add_zero]
    · have hne : B.owner d ≠ B.owner c :=
        fun heq => hnodup.1 ⟨c, hc, heq.symm⟩
      rw [if_neg hne, zero_add]
      exact ih hnodup.2 hc

/-- Every claim is charged to a capped account and no account is exceeded. -/
structure Funded (B : Books P C α κ ρ) (caps : List P) (claims : List C) : Prop where
  caps_nodup : (caps.map B.account).Nodup
  claims_nodup : (claims.map B.key).Nodup
  owned : ∀ c ∈ claims, ∃ p ∈ caps, B.account p = B.owner c
  covered : ∀ p ∈ caps, ∀ r, committed B claims (B.account p) r ≤ B.cap p r

namespace Funded

theorem empty : Funded B [] [] :=
  ⟨by simp, by simp, by simp, by simp⟩

theorem perm {caps caps' : List P} {claims claims' : List C} (h : Funded B caps claims)
    (hcaps : caps.Perm caps') (hclaims : claims.Perm claims') : Funded B caps' claims' := by
  refine ⟨?_, ?_, ?_, ?_⟩
  · exact ((hcaps.map B.account).nodup_iff).mp h.caps_nodup
  · exact ((hclaims.map B.key).nodup_iff).mp h.claims_nodup
  · intro c hc
    obtain ⟨p, hp, hacc⟩ := h.owned c (hclaims.mem_iff.mpr hc)
    exact ⟨p, hcaps.mem_iff.mp hp, hacc⟩
  · intro p hp r
    rw [← committed_perm hclaims]
    exact h.covered p (hcaps.mem_iff.mpr hp) r

theorem forget {caps : List P} {claims claims' : List C} (h : Funded B caps claims)
    (hsub : claims'.Subperm claims) : Funded B caps claims' := by
  refine ⟨h.caps_nodup, ?_, ?_, ?_⟩
  · obtain ⟨zs, hperm, hzs⟩ := hsub
    exact ((hperm.map B.key).nodup_iff).mp ((hzs.map B.key).nodup h.claims_nodup)
  · intro c hc
    exact h.owned c (hsub.subset hc)
  · intro p hp r
    exact le_trans (committed_le_of_subperm hsub _ r) (h.covered p hp r)

theorem cap_unique {caps : List P} {claims : List C} (h : Funded B caps claims) {p q : P}
    (hp : p ∈ caps) (hq : q ∈ caps) (heq : B.account p = B.account q) : p = q :=
  inj_on_of_nodup_map h.caps_nodup hp hq heq

/-- The cap of one account is set: it replaces the old one, if there is one. -/
theorem setCap {caps rest : List P} {claims : List C} {old : Option P} {p : P}
    (h : Funded B caps claims) (hcaps : caps.Perm (old.toList ++ rest))
    (hold : ∀ q ∈ old, B.account q = B.account p)
    (hnew : old = none → ∀ q ∈ caps, B.account q ≠ B.account p)
    (hroom : ∀ r, committed B claims (B.account p) r ≤ B.cap p r) :
    Funded B (p :: rest) claims := by
  have h' := h.perm hcaps (List.Perm.refl claims)
  have hrest : ∀ q ∈ rest, B.account q ≠ B.account p := by
    intro q hq
    cases old with
    | none => exact hnew rfl q (hcaps.mem_iff.mpr (by simpa using hq))
    | some p₀ =>
      intro heq
      have hnodup := h'.caps_nodup
      simp only [Option.toList_some, singleton_append, map_cons,
        nodup_cons, mem_map, not_exists, not_and] at hnodup
      exact hnodup.1 q hq (heq.trans (hold p₀ rfl).symm)
  refine ⟨?_, h.claims_nodup, ?_, ?_⟩
  · rw [map_cons, nodup_cons]
    refine ⟨?_, ?_⟩
    · intro hmem
      obtain ⟨q, hq, heq⟩ := mem_map.mp hmem
      exact hrest q hq heq
    · have hsub : rest.Sublist (old.toList ++ rest) :=
        sublist_append_right _ _
      exact (hsub.map B.account).nodup h'.caps_nodup
  · intro c hc
    obtain ⟨q, hq, hacc⟩ := h'.owned c hc
    rcases mem_append.mp hq with hq | hq
    · have hq' : q ∈ old := by simpa using hq
      exact ⟨p, by simp, (hold q hq').symm.trans hacc⟩
    · exact ⟨q, mem_cons_of_mem _ hq, hacc⟩
  · intro q hq r
    rcases mem_cons.mp hq with rfl | hq
    · exact hroom r
    · exact h'.covered q (mem_append_right _ hq) r

/-- A claim is put in the place of the old claim with its key, if there is one. -/
theorem putClaim {caps : List P} {claims rest : List C} {old : Option C} {c : C} {p : P}
    (h : Funded B caps claims) (hclaims : claims.Perm (old.toList ++ rest))
    (hold : ∀ d ∈ old, B.key d = B.key c) (hnew : old = none → ∀ d ∈ claims, B.key d ≠ B.key c)
    (hp : p ∈ caps) (hacc : B.account p = B.owner c)
    (hroom : ∀ r, committed B rest (B.owner c) r + B.amount c r ≤ B.cap p r) :
    Funded B caps (c :: rest) := by
  have h' := h.perm (List.Perm.refl caps) hclaims
  have hsub : rest.Sublist (old.toList ++ rest) :=
    sublist_append_right _ _
  have hrest := h'.forget hsub.subperm
  refine ⟨h.caps_nodup, ?_, ?_, ?_⟩
  · rw [map_cons, nodup_cons]
    refine ⟨?_, hrest.claims_nodup⟩
    intro hmem
    obtain ⟨d, hd, heq⟩ := mem_map.mp hmem
    cases old with
    | none => exact hnew rfl d (hclaims.mem_iff.mpr (by simpa using hd)) heq
    | some c₀ =>
      have hnodup := h'.claims_nodup
      simp only [Option.toList_some, singleton_append, map_cons,
        nodup_cons, mem_map, not_exists, not_and] at hnodup
      exact hnodup.1 d hd (heq.trans (hold c₀ rfl).symm)
  · intro d hd
    rcases mem_cons.mp hd with rfl | hd
    · exact ⟨p, hp, hacc⟩
    · exact hrest.owned d hd
  · intro q hq r
    rw [committed_cons]
    by_cases howner : B.owner c = B.account q
    · have hqp : q = p := h.cap_unique hq hp (howner.symm.trans hacc.symm)
      subst hqp
      rw [if_pos howner, add_comm, ← howner]
      exact hroom r
    · rw [if_neg howner, zero_add]
      exact hrest.covered q hq r

end Funded

end Ledger
