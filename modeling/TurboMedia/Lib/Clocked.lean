import TurboMedia.Lib.Machine

/-!
# Machines that read a clock

The calls of a machine read a clock, some of them more than once.  In a run in order the
clock never goes back.

**Input.**  What each call has read.

**Results.**  An invariant of the clock and the state holds along every run in order
(`run_invariant`).  A meter has a level that no step can spend without lowering it and that
rises with the clock; what the calls of a window of time spend is at most a full meter and
what flows in meanwhile (`spent_le`).
-/

universe u v w

namespace Clocked

open List

variable {σ : Type u} {ι : Type v} {ρ : Type w}
variable (times : ι → List ℕ)

def after (t : ℕ) (op : ι) : ℕ :=
  (times op).getLastD t

/-- The call reads the clock from `t` on, and never an earlier time than before. -/
def Reads (t : ℕ) (op : ι) : Prop :=
  (t :: times op).Pairwise (· ≤ ·)

/-- The calls of a run never read an earlier time than before. -/
def InOrder : ℕ → List ι → Prop
  | _, [] => True
  | t, op :: ops => Reads times t op ∧ InOrder (after times t op) ops

instance (t : ℕ) (op : ι) :
    Decidable (Reads times t op) :=
  inferInstanceAs (Decidable (List.Pairwise _ _))

instance decidableInOrder :
    ∀ t ops, Decidable (InOrder times t ops)
  | _, [] => .isTrue trivial
  | t, op :: ops =>
    haveI : Decidable (InOrder times (after times t op) ops) :=
      decidableInOrder (after times t op) ops
    inferInstanceAs (Decidable (Reads times t op ∧ InOrder times (after times t op) ops))

def clock (t : ℕ) (ops : List ι) : ℕ :=
  ops.foldl (after times) t

variable {times}

theorem Reads.le_after {t : ℕ} {op : ι} (h : Reads times t op) : t ≤ after times t op := by
  unfold Reads at h
  unfold after
  rcases eq_nil_or_concat (times op) with hnil | ⟨xs, x, hxs⟩
  · simp [hnil]
  · rw [hxs, concat_eq_append] at h ⊢
    rw [getLastD_eq_getLast?, getLast?_concat]
    exact (pairwise_cons.mp h).1 x (by simp)

theorem Reads.mem_le {t x : ℕ} {op : ι} (h : Reads times t op) (hx : x ∈ times op) :
    t ≤ x ∧ x ≤ after times t op := by
  refine ⟨(pairwise_cons.mp h).1 x hx, ?_⟩
  unfold Reads at h
  unfold after
  rcases eq_nil_or_concat (times op) with hnil | ⟨xs, y, hxs⟩
  · simp [hnil] at hx
  · rw [hxs, concat_eq_append] at h hx ⊢
    rw [getLastD_eq_getLast?, getLast?_concat, Option.getD_some]
    rcases mem_append.mp hx with hx | hx
    · exact (pairwise_append.mp (pairwise_cons.mp h).2).2.2 x hx y (by simp)
    · exact (mem_singleton.mp hx).le

variable {M : Machine σ ι ρ}

theorem run_invariant {P : ℕ → σ → Prop}
    (hstep : ∀ t s op, P t s → Reads times t op → P (after times t op) (M.next s op))
    {t : ℕ} {s : σ} (hs : P t s) {ops : List ι} (hops : InOrder times t ops) :
    P (clock times t ops) (M.run s ops) := by
  induction ops generalizing t s with
  | nil => exact hs
  | cons op ops ih => exact ih (hstep t s op hs hops.1) hops.2

def spent (M : Machine σ ι ρ) (weight : ι → ρ → ℕ) (s : σ) (ops : List ι) : ℕ :=
  ((M.transcript s ops).map (fun call => weight call.1 call.2)).sum

/-- The level of a meter: never above `capacity`, it rises by at most `rate` per unit of
time, and a call in the window from `start` to `finish` pays for what it spends; the other
calls spend nothing. -/
structure Metered (M : Machine σ ι ρ) (times : ι → List ℕ) (P : ℕ → σ → Prop)
    (C : σ → ι → Prop) (weight : ι → ρ → ℕ) (level : σ → ℕ → ℕ)
    (capacity rate start finish : ℕ) : Prop where
  capacity : ∀ s t, level s t ≤ capacity
  rise : ∀ s t t', t ≤ t' → level s t' ≤ level s t + rate * (t' - t)
  pays : ∀ t s op, P t s → Reads times t op → C s op →
    start ≤ after times t op → after times t op ≤ finish →
    level (M.next s op) (after times t op) + weight op (M.answer s op) ≤ level s (after times t op)
  outside : ∀ t s op, Reads times t op →
    after times t op < start ∨ finish < after times t op → weight op (M.answer s op) = 0

variable {P : ℕ → σ → Prop} {C : σ → ι → Prop} {weight : ι → ρ → ℕ} {level : σ → ℕ → ℕ}
variable {capacity rate start finish : ℕ}

def allowance (level : σ → ℕ → ℕ) (capacity rate start finish t : ℕ) (s : σ) : ℕ :=
  if t < start then capacity + rate * (finish - start)
  else if t ≤ finish then level s t + rate * (finish - t)
  else 0

theorem spent_le_allowance (hmeter : Metered M times P C weight level capacity rate start finish)
    (hstep : ∀ t s op, P t s → Reads times t op → P (after times t op) (M.next s op))
    (hwin : start ≤ finish) {t : ℕ} {s : σ} (hs : P t s) {ops : List ι}
    (hops : InOrder times t ops) (hcond : M.Along C s ops) :
    spent M weight s ops ≤ allowance level capacity rate start finish t s := by
  induction ops generalizing t s with
  | nil => exact Nat.zero_le _
  | cons op ops ih =>
    obtain ⟨hreads, hrest⟩ := hops
    have hle := hreads.le_after
    have hnext := ih (hstep t s op hs hreads) hrest hcond.2
    have hspent : spent M weight s (op :: ops) =
        weight op (M.answer s op) + spent M weight (M.next s op) ops := by
      simp [spent, Machine.transcript]
    have hpays := hmeter.pays t s op hs hreads hcond.1
    have houtside := hmeter.outside t s op hreads
    rw [hspent]
    generalize after times t op = t' at *
    unfold allowance at hnext ⊢
    by_cases hbef : t' < start
    · -- the window has not begun
      rw [if_pos hbef] at hnext
      rw [houtside (.inl hbef), if_pos (by omega), Nat.zero_add]
      exact hnext
    rw [if_neg hbef] at hnext
    by_cases hafter : t' ≤ finish
    · rw [if_pos hafter] at hnext
      have hpaid := hpays (by omega) hafter
      split
      · have hfull := hmeter.capacity s t'
        have hrest : rate * (finish - t') ≤ rate * (finish - start) :=
          Nat.mul_le_mul_left rate (by omega)
        omega
      · rw [if_pos (by omega)]
        have hrise := hmeter.rise s t t' hle
        have hsplit : rate * (finish - t) = rate * (finish - t') + rate * (t' - t) := by
          rw [← Nat.mul_add]
          congr 1
          omega
        omega
    · -- the window is over
      rw [if_neg hafter] at hnext
      rw [houtside (.inr (by omega))]
      omega

/-- What is spent in a window is at most a full meter and what flows in meanwhile. -/
theorem spent_le (hmeter : Metered M times P C weight level capacity rate start finish)
    (hstep : ∀ t s op, P t s → Reads times t op → P (after times t op) (M.next s op))
    (hwin : start ≤ finish) {t : ℕ} {s : σ} (hs : P t s) {ops : List ι}
    (hops : InOrder times t ops) (hcond : M.Along C s ops) :
    spent M weight s ops ≤ capacity + rate * (finish - start) := by
  refine le_trans (spent_le_allowance hmeter hstep hwin hs hops hcond) ?_
  unfold allowance
  split_ifs with hbef hafter
  · exact le_rfl
  · have hfull := hmeter.capacity s t
    have hrest : rate * (finish - t) ≤ rate * (finish - start) :=
      Nat.mul_le_mul_left rate (by omega)
    omega
  · exact Nat.zero_le _

end Clocked
