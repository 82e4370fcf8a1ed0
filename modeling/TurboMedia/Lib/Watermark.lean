import Mathlib.Order.Lattice
import Mathlib.Order.BoundedOrder.Basic
import TurboMedia.Lib.Machine

/-!
# Watermarks: versioned views that fail closed

A replica of a versioned source keeps the version it has applied, a flag that
says whether it trusts its content, and the highest version it knows it missed.
An update is either the next version of a trusted view or a complete snapshot;
everything else leaves the view alone or withdraws the trust and raises the
required version.

The abstract step relation is over an arbitrary linear order with a least
element.  A concrete machine is connected to it by `VersionedMachine.Tracks`,
and the two results used by a client are

* `Tracks.applied_lt`: every applied operation raises the version;
* `Tracks.recovery`: the first operation applied after a loss of trust is a
  snapshot that covers every version asked for in between.
-/

universe u v w x

/-- Applied version, trust flag and required version of one view. -/
structure Watermark (V : Type u) where
  synchronized : Bool
  current : V
  required : V

namespace Watermark

variable {V : Type u}

/-- What one operation did to the view. -/
inductive Label (V : Type u) where
  | idle
  | snapshot (v : V)
  | next (v : V)
  | desync (v : V)

/-- The step brought the view to a new version. -/
def Label.Applies : Label V → Prop
  | .snapshot _ => True
  | .next _ => True
  | .idle => False
  | .desync _ => False

variable [LinearOrder V] [OrderBot V]

/-- One abstract step of a view. -/
inductive Step : Watermark V → Label V → Watermark V → Prop
  | idle {s : Watermark V} :
      Step s .idle s
  | snapshot {s : Watermark V} {v : V} :
      (s.synchronized = true → s.current < v) →
      (s.synchronized = false → s.required ≤ v) →
      ⊥ < v →
      Step s (.snapshot v) ⟨true, v, ⊥⟩
  | next {s : Watermark V} {v : V} :
      s.synchronized = true →
      s.current < v →
      Step s (.next v) ⟨s.synchronized, v, s.required⟩
  | desync {s : Watermark V} {v : V} :
      (s.synchronized = true → s.current < v) →
      Step s (.desync v) ⟨false, s.current, max s.required v⟩

/-- A trusted view misses nothing; an untrusted one requires a newer version,
unless nothing was ever applied. -/
def WellFormed (s : Watermark V) : Prop :=
  (s.synchronized = true → s.required = ⊥) ∧
    (s.synchronized = false → s.current = ⊥ ∨ s.current < s.required)

variable {s s' : Watermark V}

variable {l : Label V}

theorem Step.wellFormed (h : Step s l s') (hs : s.WellFormed) :
    s'.WellFormed := by
  cases h with
  | idle => exact hs
  | snapshot _ _ _ => exact ⟨fun _ => rfl, fun h => by simp at h⟩
  | next hsync _ => exact ⟨hs.1, fun h => by simp [hsync] at h⟩
  | @desync v hlt =>
    refine ⟨fun h => by simp at h, fun _ => ?_⟩
    cases hsync : s.synchronized with
    | true => exact Or.inr (lt_max_of_lt_right (hlt hsync))
    | false =>
      rcases hs.2 hsync with hbot | hreq
      · exact Or.inl hbot
      · exact Or.inr (lt_max_of_lt_left hreq)

theorem Step.current_lt (h : Step s l s') (hs : s.WellFormed)
    (hl : l.Applies) : s.current < s'.current := by
  cases h with
  | idle | desync _ => exact hl.elim
  | @snapshot v hnew hcov hpos =>
    cases hsync : s.synchronized with
    | true => exact hnew hsync
    | false =>
      rcases hs.2 hsync with hbot | hreq
      · rw [hbot]
        exact hpos
      · exact lt_of_lt_of_le hreq (hcov hsync)
  | next _ hlt => exact hlt

theorem Step.current_le (h : Step s l s') (hs : s.WellFormed) :
    s.current ≤ s'.current := by
  by_cases hl : l.Applies
  · exact (h.current_lt hs hl).le
  · cases h with
    | idle | desync _ => exact le_rfl
    | snapshot _ _ _ | next _ _ => exact (hl trivial).elim

theorem Step.required_le (h : Step s l s') (hl : ¬ l.Applies) :
    s.required ≤ s'.required := by
  cases h with
  | idle => exact le_rfl
  | snapshot _ _ _ | next _ _ => exact (hl trivial).elim
  | desync _ => exact le_max_left _ _

theorem Step.unsynchronized (h : Step s l s') (hl : ¬ l.Applies)
    (hs : s.synchronized = false) : s'.synchronized = false := by
  cases h with
  | idle => exact hs
  | snapshot _ _ _ | next _ _ => exact (hl trivial).elim
  | desync _ => rfl

end Watermark

/-- A machine whose states carry a watermark and whose operations carry a
version.  `applied` and `asks` read an answer: the operation took effect, or
the machine asked for a snapshot covering the operation's version. -/
structure VersionedMachine (σ : Type u) (ι : Type v) (ρ : Type w) (V : Type x)
    extends Machine σ ι ρ where
  view : σ → Watermark V
  stamp : ι → V
  isSnapshot : ι → Bool
  applied : ι → ρ → Bool
  asks : ι → ρ → Bool

namespace VersionedMachine

variable {σ : Type u} {ι : Type v} {ρ : Type w} {V : Type x}
variable {M : VersionedMachine σ ι ρ V}

/-- The abstract label explains the answer of the operation. -/
def Explains (M : VersionedMachine σ ι ρ V) (op : ι) (r : ρ) :
    Watermark.Label V → Prop
  | .idle => M.applied op r = false ∧ M.asks op r = false
  | .snapshot v => M.applied op r = true ∧ M.isSnapshot op = true ∧ v = M.stamp op
  | .next v => M.applied op r = true ∧ M.isSnapshot op = false ∧ v = M.stamp op
  | .desync v => M.applied op r = false ∧ v = M.stamp op

theorem Explains.applies_iff {op : ι} {r : ρ} {l : Watermark.Label V} (h : M.Explains op r l) :
    l.Applies ↔ M.applied op r = true := by
  cases l with
  | idle | snapshot v | next v | desync v => simp [Watermark.Label.Applies, h.1]

variable [LinearOrder V] [OrderBot V]

/-- Every step of the machine is an abstract step of its watermark. -/
def Tracks (M : VersionedMachine σ ι ρ V) : Prop :=
  ∀ s op, ∃ l, Watermark.Step (M.view s) l (M.view (M.next s op)) ∧ M.Explains op (M.answer s op) l

theorem Tracks.wellFormed_run (hM : M.Tracks) {s : σ} (hs : (M.view s).WellFormed) (ops : List ι) :
    (M.view (M.run s ops)).WellFormed := by
  apply M.run_invariant (P := fun s => (M.view s).WellFormed) _ hs
  intro t op ht
  obtain ⟨l, hstep, _⟩ := hM t op
  exact hstep.wellFormed ht

theorem Tracks.applied_lt (hM : M.Tracks) {s : σ} {op : ι} (hs : (M.view s).WellFormed)
    (happ : M.applied op (M.answer s op) = true) :
    (M.view s).current < (M.view (M.next s op)).current := by
  obtain ⟨l, hstep, hl⟩ := hM s op
  exact hstep.current_lt hs (hl.applies_iff.2 happ)

theorem Tracks.current_le (hM : M.Tracks) {s : σ} (hs : (M.view s).WellFormed) (op : ι) :
    (M.view s).current ≤ (M.view (M.next s op)).current := by
  obtain ⟨l, hstep, _⟩ := hM s op
  exact hstep.current_le hs

theorem Tracks.current_le_run (hM : M.Tracks) {s : σ} (hs : (M.view s).WellFormed) (ops : List ι) :
    (M.view s).current ≤ (M.view (M.run s ops)).current := by
  induction ops generalizing s with
  | nil => exact le_rfl
  | cons op ops ih =>
    have hnext := hM.wellFormed_run hs [op]
    exact le_trans (hM.current_le hs op) (ih hnext)

def NoneApplied (M : VersionedMachine σ ι ρ V) (s : σ) (ops : List ι) : Prop :=
  M.Along (fun t op => M.applied op (M.answer t op) = false) s ops

/-- Without an applied operation an untrusted view stays untrusted and its
required version only grows. -/
theorem Tracks.unsynchronized_run (hM : M.Tracks) {s : σ} {ops : List ι}
    (hs : (M.view s).synchronized = false) (hops : M.NoneApplied s ops) :
    (M.view (M.run s ops)).synchronized = false ∧
      (M.view s).required ≤ (M.view (M.run s ops)).required := by
  induction ops generalizing s with
  | nil => exact ⟨hs, le_rfl⟩
  | cons op ops ih =>
    obtain ⟨l, hstep, hl⟩ := hM s op
    have hno : ¬ l.Applies := by
      rw [hl.applies_iff, hops.1]
      simp
    obtain ⟨hrun, hreq⟩ := ih (hstep.unsynchronized hno hs) hops.2
    exact ⟨hrun, le_trans (hstep.required_le hno) hreq⟩

/-- An operation that asks for a snapshot raises the required version to its
own, and so does one that withdraws the trust. -/
theorem Tracks.stamp_le_required (hM : M.Tracks) {s : σ} {op : ι}
    (hno : M.applied op (M.answer s op) = false)
    (h : M.asks op (M.answer s op) = true ∨ ((M.view s).synchronized = true ∧
        (M.view (M.next s op)).synchronized = false)) :
    M.stamp op ≤ (M.view (M.next s op)).required := by
  obtain ⟨l, hstep, hl⟩ := hM s op
  generalize M.view (M.next s op) = t at hstep h ⊢
  cases hstep with
  | idle =>
    rcases h with h | ⟨h₁, h₂⟩
    · simp [hl.2] at h
    · simp [h₁] at h₂
  | snapshot _ _ _ | next _ _ => simp [hl.1] at hno
  | desync _ =>
    rw [hl.2]
    exact le_max_right _ _

/-- **Recovery.**  The first operation applied by an untrusted view is a
snapshot, and its version is at least the required one. -/
theorem Tracks.snapshot_of_applied (hM : M.Tracks) {s : σ} {op : ι}
    (hs : (M.view s).synchronized = false) (happ : M.applied op (M.answer s op) = true) :
    M.isSnapshot op = true ∧ (M.view s).required ≤ M.stamp op := by
  obtain ⟨l, hstep, hl⟩ := hM s op
  generalize M.view (M.next s op) = t at hstep
  cases hstep with
  | idle | desync _ => simp [hl.1] at happ
  | snapshot _ hcov _ => exact ⟨hl.2.1, hl.2.2 ▸ hcov hs⟩
  | next hsync _ => simp [hs] at hsync

/-- An operation of the run is at fault when it asks for a snapshot or
withdraws the trust. -/
def AtFault (M : VersionedMachine σ ι ρ V) (s : σ) (op : ι) : Prop :=
  M.asks op (M.answer s op) = true ∨ ((M.view s).synchronized = true ∧
      (M.view (M.next s op)).synchronized = false)

/-- **Fail closed, then recover.**  Split a run at any point after a loss of
trust: as long as nothing is applied the view stays untrusted, and what is
applied first is a snapshot covering every operation at fault since then. -/
theorem Tracks.recovery (hM : M.Tracks) {s : σ} {fault : ι} {mid : List ι} {last : ι}
    (hclear : (M.view s).synchronized = true ∧
      (M.view (M.next s fault)).synchronized = false) (hmid : M.NoneApplied s (fault :: mid))
    (hlast : M.applied last (M.answer (M.run s (fault :: mid)) last) = true) :
    M.isSnapshot last = true ∧
      ∀ pre op post, fault :: mid = pre ++ op :: post → M.AtFault (M.run s pre) op →
          M.stamp op ≤ M.stamp last := by
  have hun := hM.unsynchronized_run hclear.2 hmid.2
  obtain ⟨hsnap, hcov⟩ := hM.snapshot_of_applied hun.1 hlast
  refine ⟨hsnap, ?_⟩
  intro pre op post hsplit hfault
  have hno := hmid
  rw [NoneApplied, hsplit] at hno
  have htail := M.along_append_right hno
  have hstamp := hM.stamp_le_required htail.1 hfault
  have hun' : (M.view (M.next (M.run s pre) op)).synchronized = false := by
    cases pre with
    | nil =>
      simp only [List.nil_append, List.cons.injEq] at hsplit
      rw [← hsplit.1]
      exact hclear.2
    | cons fault' pre =>
      simp only [List.cons_append, List.cons.injEq] at hsplit
      have hmid' : M.NoneApplied (M.next s fault) (pre ++ [op]) := by
        have hall := hmid.2
        rw [hsplit.2, List.append_cons] at hall
        exact M.along_append_left hall
      have h := (hM.unsynchronized_run hclear.2 hmid').1
      rw [← hsplit.1]
      simpa using h
  have hrest := (hM.unsynchronized_run hun' htail.2).2
  have hrun :
      M.run s (fault :: mid) = M.run (M.next (M.run s pre) op) post := by
    rw [hsplit]
    simp
  rw [← M.run_cons, hrun] at hcov
  exact le_trans hstamp (le_trans hrest hcov)

end VersionedMachine
