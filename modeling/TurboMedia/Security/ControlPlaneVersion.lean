import Mathlib.Data.Prod.Lex
import TurboMedia.Lib.Watermark

/-!
# Control-plane versions

The quota allocator, the quota projection and the revocation state are views of
a control plane that numbers its states by `(epoch, sequence)`.  Each view keeps
its own version, a `synchronized` flag and the highest version it is known to
have missed (`required`).

This module has the part of the three views that is written alike in the
sources: the comparison of versions, the five version fields and the function
that asks for a covering snapshot.  The fields are read as an abstract
watermark over lexicographically ordered pairs.
-/

namespace TurboMedia

/-- C string without its terminator.  A null pointer is the empty string:
every use is guarded by `!value || !value[0]`. -/
abbrev CStr := List UInt8

/-- Versions in lexicographic order. -/
abbrev Version := ℕ ×ₗ ℕ

/-- Version made of an epoch and a sequence number. -/
def Version.of (epoch sequence : UInt64) : Version :=
  toLex (epoch.toNat, sequence.toNat)

theorem Version.of_lt_of_iff (e₁ s₁ e₂ s₂ : UInt64) :
    Version.of e₁ s₁ < Version.of e₂ s₂ ↔ e₁ < e₂ ∨ (e₁ = e₂ ∧ s₁ < s₂) := by
  rw [Version.of, Version.of, Prod.Lex.toLex_lt_toLex]
  simp [UInt64.lt_iff_toNat_lt, UInt64.toNat_inj]

variable {epoch : UInt64}

theorem Version.bot_lt_of (sequence : UInt64) (h : epoch ≠ 0) :
    ⊥ < Version.of epoch sequence := by
  have hbot : (⊥ : Version) = Version.of 0 0 := rfl
  rw [hbot, Version.of_lt_of_iff]
  left
  rw [UInt64.lt_iff_toNat_lt]
  have hne : epoch.toNat ≠ 0 := fun h0 => h (UInt64.toNat_inj.mp h0)
  simp only [UInt64.toNat_ofNat]
  omega

/-- `allocator_version_compare` and `quota_version_compare`. -/
def versionCompare (leftEpoch leftSequence rightEpoch rightSequence : UInt64) : Int :=
  if leftEpoch < rightEpoch then -1
  else if leftEpoch > rightEpoch then 1
  else if leftSequence < rightSequence then -1
  else if leftSequence > rightSequence then 1
  else 0

theorem versionCompare_neg_iff (e₁ s₁ e₂ s₂ : UInt64) :
    versionCompare e₁ s₁ e₂ s₂ < 0 ↔ Version.of e₁ s₁ < Version.of e₂ s₂ := by
  rw [Version.of_lt_of_iff, versionCompare]
  simp only [UInt64.lt_iff_toNat_lt, gt_iff_lt, ← UInt64.toNat_inj]
  split_ifs <;> simp <;> omega

theorem versionCompare_pos_iff (e₁ s₁ e₂ s₂ : UInt64) :
    0 < versionCompare e₁ s₁ e₂ s₂ ↔ Version.of e₂ s₂ < Version.of e₁ s₁ := by
  rw [Version.of_lt_of_iff, versionCompare]
  simp only [UInt64.lt_iff_toNat_lt, gt_iff_lt, ← UInt64.toNat_inj]
  split_ifs <;> simp <;> omega

theorem versionCompare_nonpos_iff (e₁ s₁ e₂ s₂ : UInt64) :
    versionCompare e₁ s₁ e₂ s₂ ≤ 0 ↔ Version.of e₁ s₁ ≤ Version.of e₂ s₂ := by
  rw [← not_lt, versionCompare_pos_iff, not_lt]

/-- The version fields of a view. -/
structure Cursor where
  synchronized : Bool
  epoch : UInt64
  sequence : UInt64
  requiredEpoch : UInt64
  requiredSequence : UInt64
deriving DecidableEq

namespace Cursor

def create : Cursor :=
  ⟨false, 0, 0, 0, 0⟩

def version (c : Cursor) : Version :=
  Version.of c.epoch c.sequence

/-- Version that a recovering snapshot has to cover. -/
def required (c : Cursor) : Version :=
  Version.of c.requiredEpoch c.requiredSequence

/-- The version fields as an abstract watermark. -/
def view (c : Cursor) : Watermark Version :=
  ⟨c.synchronized, c.version, c.required⟩

theorem create_wellFormed : create.view.WellFormed :=
  ⟨fun h => by simp [view, create] at h, fun _ => Or.inl rfl⟩

/-- `allocator_require_snapshot` and `quota_require_snapshot`. -/
def requireSnapshot (c : Cursor) (epoch sequence : UInt64) : Cursor :=
  if versionCompare epoch sequence c.requiredEpoch c.requiredSequence > 0 then
    { c with
      synchronized := false
      requiredEpoch := epoch
      requiredSequence := sequence }
  else { c with synchronized := false }

/-- The two tests by which allocator and projection call a snapshot stale. -/
def snapshotStale (c : Cursor) (epoch sequence : UInt64) : Bool :=
  (c.synchronized && decide (versionCompare epoch sequence c.epoch c.sequence ≤ 0)) ||
  (!c.synchronized && c.requiredEpoch != 0 &&
    decide (versionCompare epoch sequence c.requiredEpoch c.requiredSequence < 0))

/-- The version fields after a snapshot was installed. -/
def install (epoch sequence : UInt64) : Cursor :=
  ⟨true, epoch, sequence, 0, 0⟩

theorem requireSnapshot_view (c : Cursor) (epoch sequence : UInt64) :
    (c.requireSnapshot epoch sequence).view =
      ⟨false, c.version, max c.required (Version.of epoch sequence)⟩ := by
  unfold requireSnapshot
  split_ifs with h
  · have hlt : c.required < Version.of epoch sequence :=
      (versionCompare_pos_iff _ _ _ _).mp h
    rw [max_eq_right hlt.le]
    rfl
  · have hle : Version.of epoch sequence ≤ c.required :=
      (versionCompare_nonpos_iff _ _ _ _).mp (not_lt.mp h)
    rw [max_eq_left hle]
    rfl

variable {c : Cursor} {sequence : UInt64}

theorem requireSnapshot_step (h : c.synchronized = true → c.version < Version.of epoch sequence) :
    Watermark.Step c.view (.desync (Version.of epoch sequence))
      (c.requireSnapshot epoch sequence).view := by
  rw [requireSnapshot_view]
  exact Watermark.Step.desync h

variable (h : c.snapshotStale epoch sequence = false)
include h

theorem lt_of_not_snapshotStale (hsync : c.synchronized = true) :
    c.version < Version.of epoch sequence := by
  simp only [snapshotStale, hsync, Bool.true_and, Bool.not_true, Bool.false_and,
    Bool.or_false, decide_eq_false_iff_not] at h
  exact (versionCompare_pos_iff _ _ _ _).mp (not_le.mp h)

theorem required_le_of_not_snapshotStale (hepoch : epoch ≠ 0)
    (hsync : c.synchronized = false) : c.required ≤ Version.of epoch sequence := by
  simp only [snapshotStale, hsync, Bool.false_and, Bool.not_false, Bool.true_and,
    Bool.false_or, Bool.and_eq_false_iff, bne_eq_false_iff_eq,
    decide_eq_false_iff_not] at h
  rcases h with hzero | hcmp
  · apply le_of_lt
    rw [required, hzero, Version.of_lt_of_iff]
    left
    have hne : epoch.toNat ≠ 0 := fun h0 => hepoch (UInt64.toNat_inj.mp h0)
    rw [UInt64.lt_iff_toNat_lt]
    simp only [UInt64.toNat_ofNat]
    omega
  · rw [versionCompare_neg_iff] at hcmp
    exact not_lt.mp hcmp

/-- Installing a snapshot that is not stale is an abstract snapshot step. -/
theorem install_step (hepoch : epoch ≠ 0) :
    Watermark.Step c.view (.snapshot (Version.of epoch sequence)) (install epoch sequence).view :=
  Watermark.Step.snapshot (lt_of_not_snapshotStale h) (required_le_of_not_snapshotStale h hepoch)
    (Version.bot_lt_of sequence hepoch)

omit h

theorem next_step (hsync : c.synchronized = true) (hlt : c.version < Version.of epoch sequence) :
    Watermark.Step c.view (.next (Version.of epoch sequence))
      { c with epoch := epoch, sequence := sequence }.view :=
  Watermark.Step.next hsync hlt

end Cursor

end TurboMedia
