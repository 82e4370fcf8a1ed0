import Mathlib.Tactic

/-!
# Deterministic machines and their runs

A component that is driven by calls is a deterministic machine: one call takes
a state and an operation to the next state and an answer.  Runs are lists of
operations.  Two induction rules are provided: an invariant kept by every step
holds along every run, and an invariant kept by the steps that meet a condition
holds along every run whose steps all meet it.

An observer reads part of the answers; related states that stay related and show
the same cannot be told apart by any run.

The last section looks inside a run: the state before the `i`-th call, its
answer, and a tally of the answers.
-/

universe u v w

/-- One call takes a state and an operation to the next state and an answer. -/
structure Machine (σ : Type u) (ι : Type v) (ρ : Type w) where
  step : σ → ι → σ × ρ

namespace Machine

open List

variable {σ : Type u} {ι : Type v} {ρ : Type w}
variable (M : Machine σ ι ρ)

def next (s : σ) (op : ι) : σ :=
  (M.step s op).1

def answer (s : σ) (op : ι) : ρ :=
  (M.step s op).2

def run (s : σ) : List ι → σ
  | [] => s
  | op :: ops => run (M.next s op) ops

@[simp] theorem run_nil (s : σ) :
    M.run s [] = s := by
  rfl

@[simp] theorem run_cons (s : σ) (op : ι) (ops : List ι) :
    M.run s (op :: ops) = M.run (M.next s op) ops := by
  rfl

@[simp] theorem run_append (s : σ) (xs ys : List ι) :
    M.run s (xs ++ ys) = M.run (M.run s xs) ys := by
  induction xs generalizing s with
  | nil => rfl
  | cons op xs ih => simp [ih]

theorem run_invariant {P : σ → Prop} (hstep : ∀ s op, P s → P (M.next s op)) {s : σ} (hs : P s)
    (ops : List ι) : P (M.run s ops) := by
  induction ops generalizing s with
  | nil => exact hs
  | cons op ops ih => exact ih (hstep s op hs)

/-- Every step of the run meets the condition `C` in the state it starts from. -/
def Along (C : σ → ι → Prop) : σ → List ι → Prop
  | _, [] => True
  | s, op :: ops => C s op ∧ Along C (M.next s op) ops

instance decidableAlong {C : σ → ι → Prop} [∀ s op, Decidable (C s op)] :
    ∀ s ops, Decidable (M.Along C s ops)
  | _, [] => .isTrue trivial
  | s, op :: ops =>
    haveI : Decidable (M.Along C (M.next s op) ops) := decidableAlong (M.next s op) ops
    inferInstanceAs (Decidable (C s op ∧ M.Along C (M.next s op) ops))

theorem along_append_left {C : σ → ι → Prop} {s : σ} {xs ys : List ι} (h : M.Along C s (xs ++ ys)) :
    M.Along C s xs := by
  induction xs generalizing s with
  | nil => trivial
  | cons op xs ih => exact ⟨h.1, ih h.2⟩

theorem along_append_right {C : σ → ι → Prop} {s : σ} {xs ys : List ι}
    (h : M.Along C s (xs ++ ys)) : M.Along C (M.run s xs) ys := by
  induction xs generalizing s with
  | nil => exact h
  | cons op xs ih => exact ih h.2

theorem along_of_forall {C : ι → Prop} {ops : List ι} (h : ∀ op ∈ ops, C op) (s : σ) :
    M.Along (fun _ op => C op) s ops := by
  induction ops generalizing s with
  | nil => trivial
  | cons op ops ih =>
    refine ⟨h op (by simp), ?_⟩
    exact ih (fun op' hop' => h op' (by simp [hop'])) _

theorem along_imp {C D : σ → ι → Prop} (h : ∀ s op, C s op → D s op) {s : σ} {ops : List ι}
    (hops : M.Along C s ops) : M.Along D s ops := by
  induction ops generalizing s with
  | nil => trivial
  | cons op ops ih => exact ⟨h s op hops.1, ih hops.2⟩

theorem along_and {C D : σ → ι → Prop} {s : σ} {ops : List ι} (hC : M.Along C s ops)
    (hD : M.Along D s ops) : M.Along (fun s op => C s op ∧ D s op) s ops := by
  induction ops generalizing s with
  | nil => trivial
  | cons op ops ih => exact ⟨⟨hC.1, hD.1⟩, ih hC.2 hD.2⟩

/-- An invariant kept by the steps that meet `C` holds after a run of such steps. -/
theorem run_invariant_along {C : σ → ι → Prop} {P : σ → Prop}
    (hstep : ∀ s op, C s op → P s → P (M.next s op)) {s : σ} (hs : P s) {ops : List ι}
    (hops : M.Along C s ops) : P (M.run s ops) := by
  induction ops generalizing s with
  | nil => exact hs
  | cons op ops ih => exact ih (hstep s op hops.1 hs) hops.2

section Observation

variable {β : Type*}

/-- What an observer reads off the answers of a run. -/
def observe (f : ρ → List β) (s : σ) : List ι → List β
  | [] => []
  | op :: ops => f (M.answer s op) ++ observe f (M.next s op) ops

/-- Related states look the same along every run, when a step keeps the
relation and shows the same. -/
theorem observe_eq_of_related {f : ρ → List β} {R : σ → σ → Prop}
    (hstep : ∀ s t op, R s t →
      R (M.next s op) (M.next t op) ∧ f (M.answer s op) = f (M.answer t op)) {s t : σ} (h : R s t)
    (ops : List ι) : M.observe f s ops = M.observe f t ops := by
  induction ops generalizing s t with
  | nil => rfl
  | cons op ops ih =>
    obtain ⟨hnext, hans⟩ := hstep s t op h
    rw [observe, observe, hans, ih hnext]

end Observation

section Transcripts

universe u'

def transcript (s : σ) : List ι → List (ι × ρ)
  | [] => []
  | op :: ops => (op, M.answer s op) :: transcript (M.next s op) ops

theorem transcript_map_fst (s : σ) (ops : List ι) : (M.transcript s ops).map Prod.fst = ops := by
  induction ops generalizing s with
  | nil => rfl
  | cons op ops ih => rw [transcript, map_cons, ih]

/-- A part of the calls is answered as another machine answers it that sees no other
calls. -/
theorem transcript_filter {τ : Type u'} {N : Machine τ ι ρ} {R : σ → τ → Prop} {C : ι → Prop}
    {keep : ι × ρ → Bool}
    (hkeep : ∀ s t op, C op → R s t → keep (op, M.answer s op) = true →
      N.answer t op = M.answer s op ∧ R (M.next s op) (N.next t op))
    (hdrop : ∀ s t op, C op → R s t → keep (op, M.answer s op) = false →
      R (M.next s op) t) {s : σ} {t : τ} {ops : List ι} (hops : ∀ op ∈ ops, C op) (h : R s t) :
    N.transcript t (((M.transcript s ops).filter keep).map Prod.fst) =
      (M.transcript s ops).filter keep := by
  induction ops generalizing s t with
  | nil => rfl
  | cons op ops ih =>
    have hop := hops op mem_cons_self
    have hrest : ∀ op ∈ ops, C op := fun op hin => hops op (mem_cons_of_mem _ hin)
    rw [transcript]
    by_cases hk : keep (op, M.answer s op) = true
    · obtain ⟨hans, hnext⟩ := hkeep s t op hop h hk
      rw [filter_cons_of_pos hk, map_cons, transcript, hans, ih hrest hnext]
    · rw [filter_cons_of_neg hk]
      exact ih hrest (hdrop s t op hop h (Bool.not_eq_true _ ▸ hk))

theorem transcript_append (s : σ) (xs ys : List ι) :
    M.transcript s (xs ++ ys) = M.transcript s xs ++ M.transcript (M.run s xs) ys := by
  induction xs generalizing s with
  | nil => rfl
  | cons op xs ih => rw [cons_append, transcript, transcript, ih, run_cons, cons_append]

def withHistory : Machine (σ × List (ι × ρ)) ι ρ where
  step := fun s op =>
    ((M.next s.1 op, s.2 ++ [(op, M.answer s.1 op)]), M.answer s.1 op)

theorem withHistory_run (s : σ) (past : List (ι × ρ)) (ops : List ι) :
    M.withHistory.run (s, past) ops = (M.run s ops, past ++ M.transcript s ops) := by
  induction ops generalizing s past with
  | nil =>
    rw [transcript, append_nil]
    rfl
  | cons op ops ih =>
    rw [run_cons, run_cons, transcript, append_cons, ← ih]
    rfl

theorem withHistory_transcript (s : σ) (past : List (ι × ρ)) (ops : List ι) :
    M.withHistory.transcript (s, past) ops = M.transcript s ops := by
  induction ops generalizing s past with
  | nil => rfl
  | cons op ops ih =>
    rw [transcript, transcript, ← ih (M.next s op) (past ++ [(op, M.answer s op)])]
    rfl

section SameCalls

variable {β : Type*} {f : ι × ρ → List β} {p : ι → Bool} {C : σ → ι → Prop}
  {R : σ → σ → Prop}

theorem transcript_dropped
    (hdrop : ∀ s t op, C s op → p op = false → R s t →
      R (M.next s op) t ∧ f (op, M.answer s op) = []) {s t : σ} {ops : List ι}
    (hops : ∀ op ∈ ops, p op = false) (halong : M.Along C s ops) (h : R s t) :
    R (M.run s ops) t ∧ (M.transcript s ops).flatMap f = [] := by
  induction ops generalizing s with
  | nil => exact ⟨h, rfl⟩
  | cons op ops ih =>
    obtain ⟨hnext, hnone⟩ := hdrop s t op halong.1 (hops op mem_cons_self) h
    obtain ⟨hrun, hrest⟩ := ih (fun op' hop' => hops op' (mem_cons_of_mem _ hop'))
      halong.2 hnext
    rw [transcript, flatMap_cons, hnone, hrest]
    exact ⟨hrun, rfl⟩

/-- Two runs with the same kept calls show the same, when the other calls show nothing and
keep the relation that makes kept calls show the same. -/
theorem transcript_eq_of_kept (hsymm : ∀ s t, R s t → R t s)
    (hdrop : ∀ s t op, C s op → p op = false → R s t →
      R (M.next s op) t ∧ f (op, M.answer s op) = [])
    (hkeep : ∀ s t op, C s op → C t op → p op = true → R s t →
      R (M.next s op) (M.next t op) ∧ f (op, M.answer s op) = f (op, M.answer t op)) {s t : σ}
    {xs ys : List ι} (hxs : M.Along C s xs) (hys : M.Along C t ys)
    (hsame : xs.filter p = ys.filter p) (h : R s t) :
    (M.transcript s xs).flatMap f = (M.transcript t ys).flatMap f := by
  induction xs generalizing s t ys with
  | nil =>
    have hnone : ∀ op ∈ ys, p op = false := by
      simpa using filter_eq_nil_iff.mp hsame.symm
    exact (M.transcript_dropped hdrop hnone hys (hsymm s t h)).2.symm
  | cons op xs ih =>
    cases hop : p op with
    | false =>
      obtain ⟨hnext, hnone⟩ := hdrop s t op hxs.1 hop h
      rw [filter_cons_of_neg (by simp [hop])] at hsame
      rw [transcript, flatMap_cons, hnone, nil_append]
      exact ih hxs.2 hys hsame hnext
    | true =>
      rw [filter_cons_of_pos hop] at hsame
      obtain ⟨before, after, rfl, hbef, -, hafter⟩ :=
        filter_eq_cons_iff.mp hsame.symm
      -- the calls of the other run before the kept one change nothing that matters
      obtain ⟨hrun, hquiet⟩ := M.transcript_dropped hdrop (by simpa using hbef)
        (M.along_append_left hys) (hsymm s t h)
      have hrest := M.along_append_right hys
      obtain ⟨hnext, hshown⟩ := hkeep s _ op hxs.1 hrest.1 hop (hsymm _ _ hrun)
      rw [transcript_append, flatMap_append, hquiet, nil_append, transcript,
        transcript, flatMap_cons, flatMap_cons, hshown,
        ih hxs.2 hrest.2 hafter.symm hnext]

end SameCalls

end Transcripts

/-- State before the `i`-th call of a run. -/
def stateAt (s : σ) (ops : List ι) (i : ℕ) : σ :=
  M.run s (ops.take i)

/-- Answer of the `i`-th call of a run. -/
def answerAt (s : σ) (ops : List ι) (i : ℕ) : Option ρ :=
  (ops[i]?).map (M.answer (M.stateAt s ops i))

/-- Sum of a weight over the answers of a run. -/
def tally (f : ρ → ℕ) (s : σ) : List ι → ℕ
  | [] => 0
  | op :: ops => f (M.answer s op) + tally f (M.next s op) ops

variable {M} {s : σ} {ops : List ι}

theorem stateAt_append {i : ℕ} (h : i ≤ ops.length) (more : List ι) :
    M.stateAt s (ops ++ more) i = M.stateAt s ops i := by
  rw [stateAt, stateAt, take_append_of_le_length h]

theorem stateAt_length : M.stateAt s ops ops.length = M.run s ops := by
  rw [stateAt, take_length]

theorem answerAt_append {i : ℕ} (h : i < ops.length) (more : List ι) :
    M.answerAt s (ops ++ more) i = M.answerAt s ops i := by
  rw [answerAt, answerAt, stateAt_append h.le, getElem?_append_left h]

theorem answerAt_last (op : ι) :
    M.answerAt s (ops ++ [op]) ops.length = some (M.answer (M.run s ops) op) := by
  rw [answerAt, stateAt_append le_rfl, stateAt_length]
  simp

theorem answerAt_none {i : ℕ} (h : ops.length ≤ i) : M.answerAt s ops i = none := by
  simp [answerAt, getElem?_eq_none h]

theorem tally_append (f : ρ → ℕ) (xs ys : List ι) :
    M.tally f s (xs ++ ys) = M.tally f s xs + M.tally f (M.run s xs) ys := by
  induction xs generalizing s with
  | nil => simp [tally]
  | cons op xs ih => simp [tally, ih, Nat.add_assoc]

theorem stateAt_succ {i : ℕ} {op : ι} (h : ops[i]? = some op) :
    M.stateAt s ops (i + 1) = M.next (M.stateAt s ops i) op := by
  rw [stateAt, stateAt, take_add_one, h]
  simp

/-- A condition on the states and calls from `i` on, up to `n`. -/
theorem along_segment {C : σ → ι → Prop} {i n : ℕ} (hle : i ≤ n)
    (h : ∀ m op, i ≤ m → m < n → ops[m]? = some op → C (M.stateAt s ops m) op) :
    M.Along C (M.stateAt s ops i) ((ops.take n).drop i) ∧
      M.run (M.stateAt s ops i) ((ops.take n).drop i) = M.stateAt s ops n := by
  induction hd : n - i generalizing i with
  | zero =>
    obtain rfl : i = n := by omega
    rw [drop_eq_nil_of_le (by simp)]
    exact ⟨trivial, rfl⟩
  | succ d ih =>
    cases hop : ops[i]? with
    | none =>
      have hlen : ops.length ≤ i := List.getElem?_eq_none_iff.mp hop
      rw [drop_eq_nil_of_le (by rw [length_take]; omega)]
      refine ⟨trivial, ?_⟩
      rw [Machine.run_nil, stateAt, stateAt, take_of_length_le hlen,
        take_of_length_le (by omega)]
    | some op =>
      obtain ⟨hlt, hget⟩ := List.getElem?_eq_some_iff.mp hop
      have hcons : (ops.take n).drop i = op :: (ops.take n).drop (i + 1) := by
        rw [drop_eq_getElem_cons (by rw [length_take]; omega), getElem_take,
          hget]
      have hle' : i + 1 ≤ n := by omega
      obtain ⟨halong, hrun⟩ := ih hle'
        (fun m op' hm hlt' hop' => h m op' (by omega) hlt' hop') (by omega)
      rw [hcons]
      rw [stateAt_succ hop] at halong hrun
      exact ⟨⟨h i op le_rfl (by omega) hop, halong⟩, hrun⟩

end Machine
