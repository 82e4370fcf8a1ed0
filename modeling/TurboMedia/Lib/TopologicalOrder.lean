import Mathlib.Data.Fintype.Card
import Mathlib.Data.List.Count
import Mathlib.Logic.Relation
import Mathlib.Tactic

/-!
# Ordering a finite graph by elimination

A graph is a list of vertices and a list of arcs between them.  Elimination takes
the first vertex that is not done and has no pending arc, one whose source is not
done, and goes on until every vertex is done or none can be taken.

An order is `Sorted` if every vertex stands behind the sources of its arcs.
Elimination returns sorted orders only (`run_some`), and it succeeds exactly on
graphs without cycles (`order_isSome_iff`).
-/

namespace TopologicalOrder

open List

section Definitions

variable {V : Type*} [DecidableEq V]

def Arc (arcs : List (V × V)) (u v : V) : Prop :=
  (u, v) ∈ arcs

/-- No way along the arcs leads back to where it began. -/
def Acyclic (arcs : List (V × V)) : Prop :=
  ∀ v, ¬ Relation.TransGen (Arc arcs) v v

/-- Number of arcs into a vertex whose source is not done. -/
def pending (arcs : List (V × V)) (done : List V) (v : V) : ℕ :=
  arcs.countP (fun a => decide (a.2 = v) && decide (a.1 ∉ done))

def next (arcs : List (V × V)) (vertices done : List V) : Option V :=
  vertices.find? (fun v => decide (v ∉ done) && decide (pending arcs done v = 0))

/-- Take `n` more vertices. -/
def run (arcs : List (V × V)) (vertices : List V) : ℕ → List V → Option (List V)
  | 0, done => some done
  | n + 1, done =>
    match next arcs vertices done with
    | none => none
    | some v => run arcs vertices n (done ++ [v])

def order (arcs : List (V × V)) (vertices : List V) : Option (List V) :=
  run arcs vertices vertices.length []

/-- Every vertex stands behind the sources of its arcs. -/
def Sorted (arcs : List (V × V)) (done : List V) : Prop :=
  ∀ u v, Arc arcs u v → v ∈ done → u ∈ done ∧ done.idxOf u < done.idxOf v

end Definitions

variable {V : Type*} [DecidableEq V]
variable {arcs : List (V × V)} {vertices done : List V}

theorem pending_eq_zero_iff {v : V} : pending arcs done v = 0 ↔ ∀ u, Arc arcs u v → u ∈ done := by
  rw [pending, countP_eq_zero]
  constructor
  · intro h u harc
    by_contra hu
    exact h (u, v) harc (by simp [hu])
  · rintro h ⟨u, w⟩ harc hpend
    simp only [Bool.and_eq_true, decide_eq_true_eq] at hpend
    obtain ⟨rfl, hu⟩ := hpend
    exact hu (h u harc)

theorem pending_append {u v : V} (hu : u ∉ done) :
    pending arcs done v =
      pending arcs (done ++ [u]) v +
        arcs.countP (fun a => decide (a.1 = u) && decide (a.2 = v)) := by
  induction arcs with
  | nil => rfl
  | cons a arcs ih =>
    simp only [pending, countP_cons] at ih ⊢
    rw [ih]
    by_cases hv : a.2 = v
    · by_cases hsrc : a.1 = u
      · simp [hv, hsrc, hu]
        omega
      · by_cases hdone : a.1 ∈ done
        · simp [hv, hsrc, hdone]
        · simp [hv, hsrc, hdone]
          omega
    · simp [hv]

theorem next_some {v : V} (h : next arcs vertices done = some v) :
    v ∈ vertices ∧ v ∉ done ∧ ∀ u, Arc arcs u v → u ∈ done := by
  have hmem := mem_of_find?_eq_some h
  have hp := find?_some h
  simp only [Bool.and_eq_true, decide_eq_true_eq] at hp
  exact ⟨hmem, hp.1, pending_eq_zero_iff.mp hp.2⟩

theorem Sorted.concat {v : V} (hsorted : Sorted arcs done) (hv : v ∉ done)
    (hready : ∀ u, Arc arcs u v → u ∈ done) : Sorted arcs (done ++ [v]) := by
  intro u w harc hw
  rw [mem_append, mem_singleton] at hw
  by_cases hdone : w ∈ done
  · obtain ⟨hu, hlt⟩ := hsorted u w harc hdone
    rw [idxOf_append_of_mem hu, idxOf_append_of_mem hdone]
    exact ⟨by simp [hu], hlt⟩
  · have hwv : w = v := hw.resolve_left hdone
    subst hwv
    have hu := hready u harc
    rw [idxOf_append_of_mem hu, idxOf_append_of_notMem hdone]
    have hlt := idxOf_lt_length_iff.mpr hu
    exact ⟨by simp [hu], by omega⟩

theorem run_some {n : ℕ} {result : List V} (hnodup : done.Nodup) (hsub : done ⊆ vertices)
    (hsorted : Sorted arcs done) (h : run arcs vertices n done = some result) :
    result.Nodup ∧ result ⊆ vertices ∧ Sorted arcs result ∧ result.length = done.length + n := by
  induction n generalizing done with
  | zero =>
    rw [run, Option.some.injEq] at h
    subst h
    exact ⟨hnodup, hsub, hsorted, rfl⟩
  | succ n ih =>
    rw [run] at h
    cases hnext : next arcs vertices done with
    | none =>
      rw [hnext] at h
      cases h
    | some v =>
      rw [hnext] at h
      obtain ⟨hmem, hv, hready⟩ := next_some hnext
      have hnodup' : (done ++ [v]).Nodup := by
        rw [nodup_append_comm]
        exact nodup_cons.mpr ⟨hv, hnodup⟩
      have hsub' : done ++ [v] ⊆ vertices := by
        intro w hw
        rw [mem_append, mem_singleton] at hw
        rcases hw with hw | rfl
        · exact hsub hw
        · exact hmem
      obtain ⟨h1, h2, h3, h4⟩ := ih hnodup' hsub' (hsorted.concat hv hready) h
      exact ⟨h1, h2, h3, by rw [h4, length_append, length_singleton]; omega⟩

theorem order_some {result : List V} (h : order arcs vertices = some result) :
    result.Perm vertices ∧ Sorted arcs result := by
  obtain ⟨hnodup, hsub, hsorted, hlen⟩ := run_some nodup_nil (nil_subset _)
    (fun _ _ _ hv => absurd hv not_mem_nil) h
  rw [length_nil, Nat.zero_add] at hlen
  have hperm := (subperm_of_subset hnodup hsub).perm_of_length_le (by omega)
  exact ⟨hperm, hsorted⟩

/-- In a graph without cycles a vertex can be taken as long as one is not done. -/
theorem exists_ready (hacyclic : Acyclic arcs) (hsources : ∀ u v, Arc arcs u v → u ∈ vertices)
    (hleft : ∃ v ∈ vertices, v ∉ done) :
    ∃ v ∈ vertices, v ∉ done ∧ ∀ u, Arc arcs u v → u ∈ done := by
  let before : {v // v ∈ vertices} → {v // v ∈ vertices} → Prop :=
    fun u v => Relation.TransGen (Arc arcs) u v
  have htrans : IsTrans _ before := ⟨fun _ _ _ => Relation.TransGen.trans⟩
  have hirrefl : Std.Irrefl before := ⟨fun v => hacyclic v⟩
  have hwf : WellFounded before := Finite.wellFounded_of_trans_of_irrefl before
  obtain ⟨v, hv, hleftv⟩ := hleft
  obtain ⟨⟨w, hw⟩, hwleft, hmin⟩ := hwf.has_min {v | v.1 ∉ done} ⟨⟨v, hv⟩, hleftv⟩
  refine ⟨w, hw, hwleft, fun u harc => ?_⟩
  by_contra hu
  exact hmin ⟨u, hsources u w harc⟩ hu (.single harc)

theorem run_isSome (hacyclic : Acyclic arcs) (hsources : ∀ u v, Arc arcs u v → u ∈ vertices)
    (hvertices : vertices.Nodup) {n : ℕ} (hn : done.length + n ≤ vertices.length) :
    (run arcs vertices n done).isSome = true := by
  induction n generalizing done with
  | zero => rfl
  | succ n ih =>
    have hleft : ∃ v ∈ vertices, v ∉ done := by
      by_contra hall
      push Not at hall
      have hle := (subperm_of_subset hvertices hall).length_le
      omega
    obtain ⟨v, hv, hvleft, hready⟩ := exists_ready hacyclic hsources hleft
    have hfound : (next arcs vertices done).isSome = true := by
      rw [next, find?_isSome]
      exact ⟨v, hv, by simp [hvleft, pending_eq_zero_iff.mpr hready]⟩
    obtain ⟨w, hw⟩ := Option.isSome_iff_exists.mp hfound
    rw [run, hw]
    exact ih (by rw [length_append, length_singleton]; omega)

theorem Sorted.acyclic (hsorted : Sorted arcs done) (htargets : ∀ u v, Arc arcs u v → v ∈ done) :
    Acyclic arcs := by
  have hlt : ∀ u v, Relation.TransGen (Arc arcs) u v → done.idxOf u < done.idxOf v := by
    intro u v hpath
    induction hpath with
    | single harc => exact (hsorted _ _ harc (htargets _ _ harc)).2
    | tail _ harc ih => exact ih.trans (hsorted _ _ harc (htargets _ _ harc)).2
  exact fun v hcycle => lt_irrefl _ (hlt v v hcycle)

theorem order_isSome_iff (hvertices : vertices.Nodup)
    (harcs : ∀ u v, Arc arcs u v → u ∈ vertices ∧ v ∈ vertices) :
    (order arcs vertices).isSome = true ↔ Acyclic arcs := by
  constructor
  · intro h
    obtain ⟨result, hres⟩ := Option.isSome_iff_exists.mp h
    obtain ⟨hperm, hsorted⟩ := order_some hres
    exact hsorted.acyclic (fun u v harc => hperm.mem_iff.mpr (harcs u v harc).2)
  · intro hacyclic
    exact run_isSome hacyclic (fun u v harc => (harcs u v harc).1) hvertices (by simp)

end TopologicalOrder
