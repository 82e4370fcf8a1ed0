import Mathlib.Data.List.Forall2
import Mathlib.Tactic

/-!
# Lists related entry by entry

What writes and searches do to two lists that are related by `List.Forall₂`:
the same write to both keeps them related, and a search for a property that
related entries share ends at the same index.
-/

namespace Related

universe u v

variable {α : Type u} {β : Type v} {R : α → β → Prop} {xs : List α} {ys : List β}

theorem modify {f : α → α} {g : β → β} (hfg : ∀ a b, R a b → R (f a) (g b))
    (h : List.Forall₂ R xs ys) (k : ℕ) : List.Forall₂ R (xs.modify k f) (ys.modify k g) := by
  induction h generalizing k with
  | nil => simp
  | @cons a b xs ys hab hxy ih =>
    cases k with
    | zero => simpa using ⟨hfg a b hab, hxy⟩
    | succ k => simpa using ⟨hab, ih k⟩

theorem set {a : α} {b : β} (hab : R a b) (h : List.Forall₂ R xs ys) (k : ℕ) :
    List.Forall₂ R (xs.set k a) (ys.set k b) := by
  induction h generalizing k with
  | nil => simp
  | @cons a' b' xs ys hab' hxy ih =>
    cases k with
    | zero => exact .cons hab hxy
    | succ k => exact .cons hab' (ih k)

theorem eraseIdx (h : List.Forall₂ R xs ys) (k : ℕ) :
    List.Forall₂ R (xs.eraseIdx k) (ys.eraseIdx k) := by
  induction h generalizing k with
  | nil => simp
  | @cons a b xs ys hab hxy ih =>
    cases k with
    | zero => exact hxy
    | succ k => exact .cons hab (ih k)

theorem findIdx?_eq {p : α → Bool} {q : β → Bool} (hpq : ∀ a b, R a b → p a = q b)
    (h : List.Forall₂ R xs ys) : xs.findIdx? p = ys.findIdx? q := by
  induction h with
  | nil => rfl
  | @cons a b xs ys hab hxy ih => rw [List.findIdx?_cons, List.findIdx?_cons, hpq a b hab, ih]

/-- The entries at one index are both absent or both present and related. -/
theorem getElem? (h : List.Forall₂ R xs ys) (k : ℕ) :
    (xs[k]? = none ∧ ys[k]? = none) ∨ ∃ a b, xs[k]? = some a ∧ ys[k]? = some b ∧ R a b := by
  induction h generalizing k with
  | nil => exact .inl ⟨rfl, rfl⟩
  | @cons a b xs ys hab hxy ih =>
    cases k with
    | zero => exact .inr ⟨a, b, rfl, rfl, hab⟩
    | succ k => simpa using ih k

end Related
