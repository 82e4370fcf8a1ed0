import Mathlib.Tactic

/-!
# Container timestamps of a recorded RTP track

The timestamp of a frame is the time since the first one, of which the code keeps the residue
modulo 2^32.  `timestamps_follow_clock`: it follows the RTP clock exactly in the runs in which no
frame is older than the first one or 2^32 ticks younger.
-/

namespace TurboMedia.Recorder

open List

/-- `rtp_recorder_ctx_t`, as far as the timestamps need it. -/
structure RtpRecorderCtx where
  baseTimestamp : UInt32
  clockRate : UInt32
  baseTimestampSet : Bool

structure RtpFrame where
  data : List UInt8
  rtpTimestamp : UInt32
  isKeyframe : Bool

/-- What `turbo_recorder_write_frame` is called with. -/
structure RecorderFrame where
  data : List UInt8
  timestampUs : ℤ
  isKeyframe : Bool

/-- `turbo_recorder_write_rtp_frame`, up to the call of `turbo_recorder_write_frame`. -/
def writeRtpFrame (ctx : RtpRecorderCtx) (frame : RtpFrame) :
    RtpRecorderCtx × Option RecorderFrame :=
  if frame.data = [] ∨ ctx.clockRate = 0 then (ctx, none)
  else if !ctx.baseTimestampSet then
    ({ ctx with baseTimestamp := frame.rtpTimestamp, baseTimestampSet := true },
      some ⟨frame.data, 0, frame.isKeyframe⟩)
  else
    let diff := frame.rtpTimestamp - ctx.baseTimestamp
    (ctx, some ⟨frame.data, diff.toNat * 1000000 / ctx.clockRate.toNat, frame.isKeyframe⟩)

/-- The timestamps of the frames that are handed on. -/
def timestamps (ctx : RtpRecorderCtx) : List RtpFrame → List ℤ
  | [] => []
  | frame :: rest =>
    ((writeRtpFrame ctx frame).2.map RecorderFrame.timestampUs).toList ++
      timestamps (writeRtpFrame ctx frame).1 rest

def elapsedFrom (previous : UInt32) (total : ℤ) : List RtpFrame → List ℤ
  | [] => []
  | frame :: rest =>
    let now := total + Int.bmod (frame.rtpTimestamp - previous).toNat (2 ^ 32)
    now :: elapsedFrom frame.rtpTimestamp now rest

/-- The sums of the signed differences since the first frame. -/
def elapsed : List RtpFrame → List ℤ
  | [] => []
  | first :: rest => 0 :: elapsedFrom first.rtpTimestamp 0 rest

/-- The timestamps are the elapsed times in microseconds, and no older frame is later. -/
structure FollowsClock (clockRate : UInt32) (elapsed times : List ℤ) : Prop where
  length : times.length = elapsed.length
  exact : ∀ p ∈ elapsed.zip times, 0 ≤ p.1 → p.2 = p.1 * 1000000 / clockRate.toNat
  ordered : ∀ p ∈ elapsed.zip times, ∀ q ∈ elapsed.zip times, p.1 ≤ q.1 → p.2 ≤ q.2

/-- The timestamp that the code computes. -/
def residueUs (clockRate : UInt32) (total : ℤ) : ℤ :=
  total % 2 ^ 32 * 1000000 / clockRate.toNat

variable {clockRate : UInt32} {frames : List RtpFrame}

theorem timestamps_started (hrate : clockRate ≠ 0) {base previous : UInt32} {total : ℤ}
    (hdata : ∀ frame ∈ frames, frame.data ≠ [])
    (htotal : total % 2 ^ 32 = (previous - base).toNat) :
    timestamps ⟨base, clockRate, true⟩ frames =
      (elapsedFrom previous total frames).map (residueUs clockRate) := by
  induction frames generalizing previous total with
  | nil => rfl
  | cons frame rest ih =>
    obtain ⟨hfirst, hrest⟩ := forall_mem_cons.mp hdata
    have hnow : (total + Int.bmod (frame.rtpTimestamp - previous).toNat (2 ^ 32)) % 2 ^ 32 =
        (frame.rtpTimestamp - base).toNat := by
      have hbmod := @Int.bmod_emod (frame.rtpTimestamp - previous).toNat (2 ^ 32)
      simp only [UInt32.toNat_sub] at htotal hbmod ⊢
      have hb := base.toNat_lt
      have hp := previous.toNat_lt
      omega
    rw [timestamps, writeRtpFrame, if_neg (by simp [hfirst, hrate]), elapsedFrom, map_cons,
      ← ih hrest hnow, residueUs, hnow]
    rfl

theorem timestamps_eq (hrate : clockRate ≠ 0) (hdata : ∀ frame ∈ frames, frame.data ≠ []) :
    timestamps ⟨0, clockRate, false⟩ frames = (elapsed frames).map (residueUs clockRate) := by
  cases frames with
  | nil => rfl
  | cons first rest =>
    obtain ⟨hfirst, hrest⟩ := forall_mem_cons.mp hdata
    have hzero : (0 : ℤ) % 2 ^ 32 = (first.rtpTimestamp - first.rtpTimestamp).toNat := by simp
    rw [timestamps, writeRtpFrame, if_neg (by simp [hfirst, hrate]), elapsed, map_cons,
      ← timestamps_started hrate hrest hzero]
    simp [residueUs]

theorem residueUs_of_range {total : ℤ} (h : 0 ≤ total ∧ total < 2 ^ 32) :
    residueUs clockRate total = total * 1000000 / clockRate.toNat := by
  rw [residueUs, Int.emod_eq_of_lt h.1 h.2]

theorem rate_pos (hrate : clockRate ≠ 0) : (0 : ℤ) < clockRate.toNat := by
  have hne : clockRate.toNat ≠ 0 := fun hzero => hrate (UInt32.toNat_inj.mp hzero)
  omega

/-- A total outside of the range is given a time that is not its own, or one after the first
frame's. -/
theorem in_range_of_follows (hrate : clockRate ≠ 0) {previous : UInt32} {total : ℤ}
    (htotal : 0 ≤ total)
    (h : ∀ e ∈ elapsedFrom previous total frames,
      (0 ≤ e → residueUs clockRate e = e * 1000000 / clockRate.toNat) ∧
        (e ≤ 0 → residueUs clockRate e ≤ 0)) :
    ∀ e ∈ elapsedFrom previous total frames, 0 ≤ e ∧ e < 2 ^ 32 := by
  have hpos := rate_pos hrate
  have hlt := clockRate.toNat_lt
  induction frames generalizing previous total with
  | nil => simp [elapsedFrom]
  | cons frame rest ih =>
    rw [elapsedFrom] at h ⊢
    obtain ⟨⟨hexact, holder⟩, hrest⟩ := forall_mem_cons.mp h
    have hlow := @Int.le_bmod (frame.rtpTimestamp - previous).toNat (2 ^ 32) (by simp)
    generalize hnow : total + Int.bmod (frame.rtpTimestamp - previous).toNat (2 ^ 32) = now at *
    have hnonneg : 0 ≤ now := by
      by_contra hneg
      have hres : now % 2 ^ 32 = now + 2 ^ 32 := by omega
      have hone : 1 ≤ residueUs clockRate now := by
        rw [residueUs, hres, Int.le_ediv_iff_mul_le hpos]
        omega
      have hzero := holder (by omega)
      omega
    have hshort : now < 2 ^ 32 := by
      by_contra hlong
      have hone : residueUs clockRate now + 1 ≤ now * 1000000 / clockRate.toNat := by
        rw [residueUs, Int.le_ediv_iff_mul_le hpos]
        have hfloor := Int.ediv_mul_le (now % 2 ^ 32 * 1000000) hpos.ne'
        rw [add_mul]
        omega
      have heq := hexact hnonneg
      omega
    exact forall_mem_cons.mpr ⟨⟨hnonneg, hshort⟩, ih hnonneg hrest⟩

/-- The container timestamps follow the RTP clock exactly when no frame is older than the first
one or at least 2^32 ticks younger. -/
theorem timestamps_follow_clock (hrate : clockRate ≠ 0)
    (hdata : ∀ frame ∈ frames, frame.data ≠ []) :
    FollowsClock clockRate (elapsed frames) (timestamps ⟨0, clockRate, false⟩ frames) ↔
      ∀ e ∈ elapsed frames, 0 ≤ e ∧ e < 2 ^ 32 := by
  have hzip := @zip_map' _ _ _ id (residueUs clockRate) (elapsed frames)
  rw [map_id, ← timestamps_eq hrate hdata] at hzip
  constructor
  · rintro ⟨-, hexact, hordered⟩
    rw [hzip] at hexact hordered
    simp only [forall_mem_map] at hexact hordered
    cases frames with
    | nil => simp [elapsed]
    | cons first rest =>
      have hmem : (0 : ℤ) ∈ elapsed (first :: rest) := mem_cons_self
      refine forall_mem_cons.mpr ⟨by omega, in_range_of_follows hrate le_rfl fun e he => ?_⟩
      refine ⟨hexact e (mem_cons_of_mem _ he), fun hold => ?_⟩
      simpa [residueUs] using hordered e (mem_cons_of_mem _ he) 0 hmem hold
  · intro hrange
    refine ⟨by rw [timestamps_eq hrate hdata, length_map], ?_, ?_⟩
    · rw [hzip, forall_mem_map]
      exact fun e he _ => residueUs_of_range (hrange e he)
    · rw [hzip]
      simp only [forall_mem_map]
      intro e he e' he' hle
      rw [residueUs_of_range (hrange e he), residueUs_of_range (hrange e' he')]
      exact Int.ediv_le_ediv (rate_pos hrate) (by dsimp only [id] at hle; omega)

theorem timestamps_follow_clock_wrapped :
    FollowsClock 8000 (elapsed [⟨[1], 4294967295, true⟩, ⟨[1], 1, false⟩])
      (timestamps ⟨0, 8000, false⟩ [⟨[1], 4294967295, true⟩, ⟨[1], 1, false⟩]) :=
  (timestamps_follow_clock (by decide) (by simp)).mpr (by decide)

/-- A frame from before the first one is put more than thirteen hours behind it. -/
theorem older_frame_late :
    elapsed [⟨[1], 90000, true⟩, ⟨[1], 87000, false⟩] = [0, -3000] ∧
      timestamps ⟨0, 90000, false⟩ [⟨[1], 90000, true⟩, ⟨[1], 87000, false⟩] = [0, 47721825511] ∧
      ¬ FollowsClock 90000 [0, -3000] [0, 47721825511] :=
  ⟨by decide, by decide, fun h => absurd (h.ordered (-3000, 47721825511) (by simp) (0, 0) (by simp)
    (by decide)) (by decide)⟩

end TurboMedia.Recorder
