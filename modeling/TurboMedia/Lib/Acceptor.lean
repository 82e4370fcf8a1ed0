import Mathlib.Tactic

/-!
# Acceptors of event sequences

An acceptor reads a sequence of events one at a time and may refuse one.  What it
remembers of an accepted sequence is an invariant of the pair of the sequence read so
far and the state, and an event in the middle of an accepted sequence was taken in
the state that the events before it lead to.
-/

universe u v

/-- A state and an event give the next state, or the event is refused. -/
structure Acceptor (σ : Type u) (ε : Type v) where
  step : σ → ε → Option σ

namespace Acceptor

variable {σ : Type u} {ε : Type v}
variable (A : Acceptor σ ε)

/-- The state after a sequence, if all of it is accepted. -/
def run (q : σ) : List ε → Option σ
  | [] => some q
  | e :: es =>
    match A.step q e with
    | none => none
    | some q' => run q' es

variable {A} {q q' : σ} {e : ε} {es fs : List ε}

theorem run_cons (h : A.step q e = some q') : A.run q (e :: es) = A.run q' es := by
  rw [run, h]

theorem run_singleton (h : A.step q e = some q') : A.run q [e] = some q' := by
  rw [run_cons h]
  rfl

theorem run_append (h : A.run q es = some q') : A.run q (es ++ fs) = A.run q' fs := by
  induction es generalizing q with
  | nil =>
    cases h
    rfl
  | cons e es ih =>
    rw [run] at h
    cases hstep : A.step q e with
    | none =>
      rw [hstep] at h
      cases h
    | some r =>
      rw [hstep] at h
      rw [List.cons_append, run_cons hstep]
      exact ih h

theorem run_split (h : A.run q (es ++ e :: fs) = some q') :
    ∃ r r', A.run q es = some r ∧ A.step r e = some r' ∧ A.run r' fs = some q' := by
  induction es generalizing q with
  | nil =>
    rw [List.nil_append, run] at h
    cases hstep : A.step q e with
    | none =>
      rw [hstep] at h
      cases h
    | some r' =>
      rw [hstep] at h
      exact ⟨q, r', rfl, hstep, h⟩
  | cons d es ih =>
    rw [List.cons_append, run] at h
    cases hstep : A.step q d with
    | none =>
      rw [hstep] at h
      cases h
    | some r =>
      rw [hstep] at h
      obtain ⟨s, s', hrun, hs, hrest⟩ := ih h
      exact ⟨s, s', (run_cons hstep).trans hrun, hs, hrest⟩

/-- What every step keeps holds of the sequence read and the state reached. -/
theorem run_invariant {I : List ε → σ → Prop}
    (hstep : ∀ pre q e q', I pre q → A.step q e = some q' → I (pre ++ [e]) q') {pre : List ε}
    (hq : I pre q) (h : A.run q es = some q') : I (pre ++ es) q' := by
  induction es generalizing pre q with
  | nil =>
    cases h
    rw [List.append_nil]
    exact hq
  | cons e es ih =>
    rw [run] at h
    cases hs : A.step q e with
    | none =>
      rw [hs] at h
      cases h
    | some r =>
      rw [hs] at h
      have hnext := ih (hstep pre q e r hq hs) h
      rw [List.append_assoc] at hnext
      exact hnext

theorem run_keeps {I : σ → Prop} (hstep : ∀ q e q', e ∈ es → I q → A.step q e = some q' → I q')
    (hq : I q) (h : A.run q es = some q') : I q' := by
  induction es generalizing q with
  | nil =>
    cases h
    exact hq
  | cons e es ih =>
    rw [run] at h
    cases hs : A.step q e with
    | none =>
      rw [hs] at h
      cases h
    | some r =>
      rw [hs] at h
      exact ih (fun q d q' hmem => hstep q d q' (List.mem_cons_of_mem e hmem))
        (hstep q e r List.mem_cons_self hq hs) h

end Acceptor
