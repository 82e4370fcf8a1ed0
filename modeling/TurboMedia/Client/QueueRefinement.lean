import TurboMedia.Client.ProcessingQueues

/-!
# The frame queues are bounded first-in first-out queues

**Input.**  Any run of calls on the video and the audio queue.

**Method.**  The frames of a queue are what `contents` reads out.  The invariant
says that each queue represents its contents in the two rings and that the
contents are timed: timestamps do not decrease, no frame ends beyond the range of
the clock, and the reported duration is the span from the oldest timestamp to the
end of the newest frame.  Admit and pop move the contents as a queue does.
-/

namespace TurboMedia.Client

open List

section Timing

variable {μ : Type} {ts dur : μ → UInt64}

/-- From the oldest timestamp to the end of the newest frame. -/
def span (ts dur : μ → UInt64) (frames : List (Frame μ)) : ℕ :=
  match frames.head?, frames.getLast? with
  | some oldest, some newest =>
    (ts newest.info).toNat + (dur newest.info).toNat - (ts oldest.info).toNat
  | _, _ => 0

/-- The frames are in the order of their timestamps, and the reported duration
is their span and within the limit. -/
structure Timed (ts dur : μ → UInt64) (limit duration : UInt64)
    (frames : List (Frame μ)) : Prop where
  sorted : frames.Pairwise (fun f g => ts f.info ≤ ts g.info)
  fits : ∀ f ∈ frames, (ts f.info).toNat + (dur f.info).toNat < 2 ^ 64
  duration_eq : duration.toNat = span ts dur frames
  duration_le : duration ≤ limit

theorem Timed.nil (limit : UInt64) :
    Timed ts dur limit 0 [] where
  sorted := List.Pairwise.nil
  fits := by
    intro f hf
    cases hf
  duration_eq := rfl
  duration_le := by
    rw [UInt64.le_iff_toNat_le]
    exact Nat.zero_le _

theorem span_singleton (f : Frame μ) : span ts dur [f] = (dur f.info).toNat := by
  simp [span]

theorem span_cons_snoc (g : Frame μ) (gs : List (Frame μ)) (f : Frame μ) :
    span ts dur (g :: gs ++ [f]) = (ts f.info).toNat + (dur f.info).toNat - (ts g.info).toNat := by
  rw [span, getLast?_append]
  simp

theorem Timed.admit {limit duration duration' : UInt64} {fs : List (Frame μ)} {f : Frame μ}
    (h : Timed ts dur limit duration fs) (horder : ∀ g ∈ fs, ts g.info ≤ ts f.info)
    (hfits : (ts f.info).toNat + (dur f.info).toNat < 2 ^ 64)
    (hduration : duration'.toNat = span ts dur (fs ++ [f])) (hlimit : duration' ≤ limit) :
    Timed ts dur limit duration' (fs ++ [f]) where
  sorted := by
    rw [pairwise_append]
    refine ⟨h.sorted, pairwise_singleton _ _, ?_⟩
    intro g hg f' hf'
    obtain rfl := mem_singleton.mp hf'
    exact horder g hg
  fits := by
    intro g hg
    rcases mem_append.mp hg with hg | hg
    · exact h.fits g hg
    · obtain rfl := mem_singleton.mp hg
      exact hfits
  duration_eq := hduration
  duration_le := hlimit

theorem Timed.pop {limit duration duration' : UInt64} {fs : List (Frame μ)} {f : Frame μ}
    (h : Timed ts dur limit duration (f :: fs)) (hduration : duration'.toNat = span ts dur fs) :
    Timed ts dur limit duration' fs where
  sorted := (pairwise_cons.mp h.sorted).2
  fits := fun g hg => h.fits g (mem_cons_of_mem f hg)
  duration_eq := hduration
  duration_le := by
    have hle := h.duration_le
    rw [UInt64.le_iff_toNat_le] at hle ⊢
    rw [h.duration_eq] at hle
    rw [hduration]
    refine le_trans ?_ hle
    cases fs with
    | nil => exact Nat.zero_le _
    | cons g gs =>
      have horder := (pairwise_cons.mp h.sorted).1 g (by simp)
      rw [UInt64.le_iff_toNat_le] at horder
      simp only [span, head?_cons, getLast?_cons_cons]
      cases hlast : (g :: gs).getLast? with
      | none => exact Nat.zero_le _
      | some l =>
        simp only
        omega

theorem le_newest {fs : List (Frame μ)} {f : Frame μ}
    (h : (fs ++ [f]).Pairwise (fun f g => ts f.info ≤ ts g.info)) :
    ∀ g ∈ fs ++ [f], ts g.info ≤ ts f.info := by
  intro g hg
  rcases mem_append.mp hg with hg | hg
  · exact (pairwise_append.mp h).2.2 g hg f (by simp)
  · obtain rfl := mem_singleton.mp hg
    exact UInt64.le_refl _

variable [Inhabited μ] {room : Room} {q : FrameRing μ} {base : ℕ} {frames : List (Frame μ)}

variable (h : Represents room q base frames)
include h

theorem Represents.ends (hne : q.queuedFrames ≠ 0) :
    (∃ g gs, frames = g :: gs ∧ q.headSlot.info = g.info) ∧
      ∃ fs f, frames = fs ++ [f] ∧ (q.newestSlot room).info = f.info := by
  have hfrs : frames ≠ [] := by
    rintro rfl
    exact hne h.queuedFrames
  constructor
  · obtain ⟨g, gs, rfl⟩ := exists_cons_of_ne_nil hfrs
    exact ⟨g, gs, rfl, by rw [h.headSlot]⟩
  · obtain ⟨fs, f, rfl⟩ : ∃ fs f, frames = fs ++ [f] :=
      ⟨_, _, (dropLast_append_getLast hfrs).symm⟩
    exact ⟨fs, f, rfl, h.newestSlot⟩

theorem Represents.span_eq (hne : q.queuedFrames ≠ 0) :
    span ts dur frames =
      (ts (q.newestSlot room).info).toNat + (dur (q.newestSlot room).info).toNat -
        (ts q.headSlot.info).toNat := by
  obtain ⟨⟨g, gs, hg, hhead⟩, fs, f, hf, hnewest⟩ := h.ends hne
  have hfirst : frames.head? = some g := by
    rw [hg]
    rfl
  have hlast : frames.getLast? = some f := by
    rw [hf]
    simp
  rw [span, hfirst, hlast, hhead, hnewest]

theorem Represents.head_le_newest
    (hsorted : frames.Pairwise (fun f g => ts f.info ≤ ts g.info)) (hne : q.queuedFrames ≠ 0) :
    (ts q.headSlot.info).toNat ≤ (ts (q.newestSlot room).info).toNat := by
  obtain ⟨⟨g, gs, hg, hhead⟩, fs, f, hf, hnewest⟩ := h.ends hne
  rw [hf] at hsorted
  have hle := le_newest hsorted g (by rw [← hf, hg]; simp)
  rw [hhead, hnewest]
  exact UInt64.le_iff_toNat_le.mp hle

end Timing

theorem emptyRing_contents {μ : Type} [Inhabited μ] (room : Room) (garbage : ℕ → UInt8) :
    (emptyRing room garbage : FrameRing μ).contents room = [] := by
  rfl

/-- A queue represents these frames, and they are timed. -/
structure QueueInv {μ : Type} (ts dur : μ → UInt64) (room : Room) (limit : UInt64) (q : FrameRing μ)
    (frames : List (Frame μ)) : Prop where
  represents : ∃ base, Represents room q base frames
  timed : Timed ts dur limit q.queuedDurationUs frames

namespace QueueInv

variable {μ : Type} {ts dur : μ → UInt64} {room : Room} {limit : UInt64}
variable {q : FrameRing μ} {frames : List (Frame μ)}

theorem reject (h : QueueInv ts dur room limit q frames) (n : UInt64) :
    QueueInv ts dur room limit { q with rejectedFrames := n } frames := by
  obtain ⟨base, hrep⟩ := h.represents
  exact
    { represents := ⟨base, { hrep with }⟩
      timed := h.timed }

theorem queuedFrames (h : QueueInv ts dur room limit q frames) :
    q.queuedFrames = frames.length := by
  obtain ⟨base, hrep⟩ := h.represents
  exact hrep.queuedFrames

variable [Inhabited μ]

theorem fresh (room : Room) (garbage : ℕ → UInt8) :
    QueueInv ts dur room limit (emptyRing room garbage)
      ((emptyRing room garbage).contents room) := by
  rw [emptyRing_contents]
  exact
    { represents :=
        ⟨0, represents_nil (by simp [emptyRing]) (by simp [emptyRing]) rfl rfl rfl rfl⟩
      timed := Timed.nil limit }

variable (h : QueueInv ts dur room limit q frames)
include h

theorem clear :
    QueueInv ts dur room limit (clearRing room q) [] := by
  obtain ⟨base, hrep⟩ := h.represents
  exact
    { represents :=
        ⟨0, represents_nil (by simp [clearRing]) hrep.storage_length rfl rfl rfl rfl⟩
      timed := Timed.nil limit }

theorem contents : q.contents room = frames := by
  obtain ⟨base, hrep⟩ := h.represents
  exact hrep.contents

theorem head_le_newest (hne : q.queuedFrames ≠ 0) :
    (ts q.headSlot.info).toNat ≤ (ts (q.newestSlot room).info).toNat := by
  obtain ⟨base, hrep⟩ := h.represents
  exact hrep.head_le_newest h.timed.sorted hne

theorem enqueue {payload : List UInt8} {info : μ} {duration : UInt64}
    (hroom : ¬ (q.queuedFrames ≥ room.capacity ∨ payload.length > room.maxBytes - q.queuedBytes))
    (horder : q.queuedFrames ≠ 0 → (ts (q.newestSlot room).info).toNat ≤ (ts info).toNat)
    (hfits : (ts info).toNat + (dur info).toNat < 2 ^ 64)
    (hduration : duration.toNat = (ts info).toNat + (dur info).toNat -
        if q.queuedFrames ≠ 0 then (ts q.headSlot.info).toNat else (ts info).toNat)
    (hlimit : duration ≤ limit) :
    QueueInv ts dur room limit (enqueue room q payload info duration)
      (frames ++ [{ payload := payload, info := info }]) := by
  obtain ⟨base, hrep⟩ := h.represents
  have hfrs := hrep.queuedFrames
  refine
    { represents := ⟨base, hrep.enqueue (by omega) (by omega) info duration⟩
      timed := ?_ }
  by_cases hne : q.queuedFrames ≠ 0
  · obtain ⟨⟨g, gs, hg, hhead⟩, fs, f, hf, hnewest⟩ := hrep.ends hne
    have horder := horder hne
    rw [hnewest] at horder
    rw [if_pos hne, hhead] at hduration
    apply h.timed.admit _ hfits _ hlimit
    · intro f' hf'
      have hsorted := h.timed.sorted
      rw [hf] at hf' hsorted
      exact UInt64.le_trans (le_newest hsorted f' hf') (UInt64.le_iff_toNat_le.mpr horder)
    · rw [hg, span_cons_snoc]
      exact hduration
  · have hnil : frames = [] := by
      apply eq_nil_of_length_eq_zero
      omega
    subst hnil
    rw [if_neg hne] at hduration
    apply h.timed.admit _ hfits _ hlimit
    · intro f' hf'
      cases hf'
    · rw [nil_append, span_singleton, hduration]
      simp

omit h

/-- Removing the oldest frame, when the duration reported afterwards is the span
of what is left. -/
theorem pop {f : Frame μ} {fs : List (Frame μ)} {duration : UInt64}
    (h : QueueInv ts dur room limit q (f :: fs)) (hduration : duration.toNat = span ts dur fs) :
    QueueInv ts dur room limit { dequeue room q with queuedDurationUs := duration } fs := by
  obtain ⟨base, hrep⟩ := h.represents
  obtain ⟨base', hrep'⟩ := hrep.dequeue
  exact
    { represents := ⟨base', { hrep' with }⟩
      timed := h.timed.pop hduration }

end QueueInv

section Calls

/-- Video frames have a timestamp and no duration. -/
abbrev VideoQueueInv (p : Processing) (frames : List (Frame VideoInfo)) : Prop :=
  QueueInv VideoInfo.timestampUs (fun _ => 0) p.room p.maxDurationUs p.video frames

/-- Audio frames last as long as their samples. -/
abbrev AudioQueueInv (p : Processing) (c : AudioQueueConfig) (frames : List (Frame AudioInfo)) :
    Prop :=
  QueueInv AudioInfo.timestampUs AudioInfo.durationUs c.room c.config.queueMaxDurationUs p.audio
    frames

variable {p : Processing}

theorem end_in_range {start length : UInt64} (h : ¬ length > 18446744073709551615 - start) :
    start.toNat + length.toNat < 2 ^ 64 := by
  have hle : start ≤ 18446744073709551615 := by
    rw [UInt64.le_iff_toNat_le]
    have := start.toNat_lt
    change start.toNat ≤ 18446744073709551615
    omega
  have hnot := UInt64.le_iff_toNat_le.mp (UInt64.not_lt.mp h)
  rw [UInt64.toNat_sub_of_le _ _ hle] at hnot
  change length.toNat ≤ 18446744073709551615 - start.toNat at hnot
  have := start.toNat_lt
  omega

theorem not_gt_of_end_in_range {start length : UInt64} (h : start.toNat + length.toNat < 2 ^ 64) :
    ¬ length > 18446744073709551615 - start := by
  have hle : start ≤ 18446744073709551615 := by
    rw [UInt64.le_iff_toNat_le]
    change start.toNat ≤ 18446744073709551615
    omega
  intro hgt
  have hlt := UInt64.lt_iff_toNat_lt.mp hgt
  rw [UInt64.toNat_sub_of_le _ _ hle] at hlt
  change 18446744073709551615 - start.toNat < length.toNat at hlt
  omega

/-- An admission changed the video queue only, and stored the frame exactly when
the answer is OK. -/
def VideoAdmission (p : Processing) (frames : List (Frame VideoInfo)) (f : Frame VideoInfo)
    (r : Processing × Status) : Prop :=
  ∃ q', r.1 = { p with video := q' } ∧
    VideoQueueInv { p with video := q' } (if r.2 = .ok then frames ++ [f] else frames)

theorem admitVideoFrame_spec {frames : List (Frame VideoInfo)} (h : VideoQueueInv p frames)
    (frame : List UInt8) (width height : ℤ) (timestampUs : UInt64) :
    VideoAdmission p frames
      { payload := frame
        info := { width := width, height := height, timestampUs := timestampUs } }
      (admitVideoFrame p frame width height timestampUs) := by
  have hrange := timestampUs.toNat_lt
  rw [admitVideoFrame]
  dsimp only
  split_ifs with hargs hstate hroom hne horder hlimit
  · exact ⟨p.video, rfl, h⟩
  · exact ⟨_, rfl, h.reject _⟩
  · exact ⟨_, rfl, h.reject _⟩
  · exact ⟨_, rfl, h.reject _⟩
  · exact ⟨_, rfl, h.reject _⟩
  · have hnewest := Nat.le_of_not_lt horder
    have hle : p.video.headSlot.info.timestampUs ≤ timestampUs :=
      UInt64.le_iff_toNat_le.mpr ((h.head_le_newest hne).trans hnewest)
    refine ⟨_, rfl, ?_⟩
    apply h.enqueue hroom
    · exact fun _ => hnewest
    · simpa using hrange
    · rw [if_pos hne, UInt64.toNat_sub_of_le _ _ hle]
      simp
    · exact UInt64.not_lt.mp hlimit
  · refine ⟨_, rfl, ?_⟩
    apply h.enqueue hroom
    · exact fun hne' => absurd hne' hne
    · simpa using hrange
    · rw [if_neg hne]
      simp
    · rw [UInt64.le_iff_toNat_le]
      exact Nat.zero_le _

theorem recomputeDuration_spec {f : Frame VideoInfo} {frames : List (Frame VideoInfo)}
    (h : VideoQueueInv p (f :: frames)) :
    VideoQueueInv { p with video := recomputeDuration p.room (dequeue p.room p.video) }
      frames := by
  obtain ⟨base, hrep⟩ := h.represents
  obtain ⟨base', hrep'⟩ := hrep.dequeue
  have hlen := hrep'.queuedFrames
  rw [recomputeDuration]
  split_ifs with hone
  · apply h.pop
    cases frames with
    | nil => rfl
    | cons g gs =>
      obtain rfl : gs = [] := by
        apply eq_nil_of_length_eq_zero
        rw [length_cons] at hlen
        omega
      rw [span_singleton]
  · apply h.pop
    have hne : (dequeue p.room p.video).queuedFrames ≠ 0 := by omega
    have hle := hrep'.head_le_newest (pairwise_cons.mp h.timed.sorted).2 hne
    rw [hrep'.span_eq hne, if_pos (UInt64.le_iff_toNat_le.mpr hle),
      UInt64.toNat_sub_of_le _ _ (UInt64.le_iff_toNat_le.mpr hle)]
    simp

/-- What a pop of the video queue did: it handed out the oldest frame, or
changed nothing. -/
def VideoPop (p : Processing) (frames : List (Frame VideoInfo))
    (r : Processing × PopResult VideoFrameInfo) : Prop :=
  match r.2 with
  | .ok outSize data info =>
    ∃ q' fs, r.1 = { p with video := q' } ∧ VideoQueueInv { p with video := q' } fs ∧
      outSize = data.length ∧ info.dataSize = data.length ∧
      frames =
        { payload := data
          info :=
            { width := info.width
              height := info.height
              timestampUs := info.timestampUs } } :: fs
  | .refused _ _ => r.1 = p

theorem popVideoFrame_spec {frames : List (Frame VideoInfo)} (h : VideoQueueInv p frames)
    (argsValid : Bool) (destination : Option ℕ) :
    VideoPop p frames (popVideoFrame p argsValid destination) := by
  rw [popVideoFrame]
  dsimp only
  split_ifs with hargs hempty hsmall
  · rfl
  · rfl
  · rfl
  · cases frames with
    | nil => exact absurd h.queuedFrames hempty
    | cons f fs =>
      obtain ⟨base, hrep⟩ := h.represents
      rw [VideoPop]
      rw [hrep.read_head, hrep.headSlot]
      exact ⟨_, fs, rfl, recomputeDuration_spec h, rfl, rfl, rfl⟩

/-- An admission changed the audio queue only, and stored the frame exactly when
the answer is OK. -/
def AudioAdmission (p : Processing) (c : AudioQueueConfig) (frames : List (Frame AudioInfo))
    (samples : List UInt8) (timestampUs : UInt64) (r : Processing × Status) : Prop :=
  ∃ q' frames', r.1 = { p with audio := q' } ∧ AudioQueueInv { p with audio := q' } c frames' ∧
    if r.2 = .ok then
      ∃ d, audioPayloadDurationUs c.config samples.length = some d ∧ frames' = frames ++
          [{ payload := samples, info := { timestampUs := timestampUs, durationUs := d } }]
    else frames' = frames

variable {c : AudioQueueConfig} {frames : List (Frame AudioInfo)}

theorem AudioAdmission.reject {samples : List UInt8}
    {timestampUs : UInt64} {status : Status} (h : AudioQueueInv p c frames) (hstat : status ≠ .ok) :
    AudioAdmission p c frames samples timestampUs (rejectAudio p, status) :=
  ⟨_, frames, rfl, h.reject _, by rw [if_neg hstat]⟩

theorem admitAudioTimed_spec {samples : List UInt8}
    {timestampUs frameDurationUs : UInt64} (h : AudioQueueInv p c frames)
    (hroom : ¬ (p.audio.queuedFrames ≥ c.room.capacity ∨
      samples.length > c.room.maxBytes - p.audio.queuedBytes))
    (hduration : audioPayloadDurationUs c.config samples.length = some frameDurationUs)
    (hrange : ¬ frameDurationUs > 18446744073709551615 - timestampUs) :
    AudioAdmission p c frames samples timestampUs
      (admitAudioTimed p c samples timestampUs frameDurationUs) := by
  have hfits := end_in_range hrange
  have hend : (timestampUs + frameDurationUs).toNat =
      timestampUs.toNat + frameDurationUs.toNat := by
    rw [UInt64.toNat_add, Nat.mod_eq_of_lt hfits]
  rw [admitAudioTimed]
  dsimp only
  set oldest := if p.audio.queuedFrames ≠ 0 then p.audio.headSlot.info.timestampUs
    else timestampUs with holdest
  clear_value oldest
  split_ifs with horder hlimit
  · exact AudioAdmission.reject h (by decide)
  · exact AudioAdmission.reject h (by decide)
  · have hnewest : p.audio.queuedFrames ≠ 0 →
        (p.audio.newestSlot c.room).info.timestampUs.toNat ≤ timestampUs.toNat :=
      fun hne => Nat.le_of_not_lt (fun hlt => horder ⟨hne, hlt⟩)
    have holdestNat : oldest.toNat = if p.audio.queuedFrames ≠ 0 then
        p.audio.headSlot.info.timestampUs.toNat else timestampUs.toNat := by
      rw [holdest]
      split_ifs <;> rfl
    have hle : oldest ≤ timestampUs + frameDurationUs := by
      rw [UInt64.le_iff_toNat_le, hend, holdestNat]
      split_ifs with hne
      · have := (h.head_le_newest hne).trans (hnewest hne)
        omega
      · omega
    refine ⟨_, _, rfl, ?_, by rw [if_pos rfl]; exact ⟨_, hduration, rfl⟩⟩
    apply h.enqueue hroom
    · exact hnewest
    · exact hfits
    · rw [UInt64.toNat_sub_of_le _ _ hle, hend, holdestNat]
    · exact UInt64.not_lt.mp hlimit

theorem admitAudioFrame_spec
    (hc : p.audioConfig = some c) (h : AudioQueueInv p c frames) (samples : List UInt8)
    (timestampUs : UInt64) :
    AudioAdmission p c frames samples timestampUs (admitAudioFrame p samples timestampUs) := by
  rw [admitAudioFrame, hc]
  dsimp only
  split_ifs with hempty hframe hstate hroom
  · exact ⟨p.audio, frames, rfl, h, by simp⟩
  · exact AudioAdmission.reject h (by decide)
  · exact AudioAdmission.reject h (by decide)
  · exact AudioAdmission.reject h (by decide)
  · cases hduration : audioPayloadDurationUs c.config samples.length with
    | none => exact AudioAdmission.reject h (by decide)
    | some d =>
      dsimp only
      split_ifs with hrange
      · exact AudioAdmission.reject h (by decide)
      · exact admitAudioTimed_spec h hroom hduration hrange

theorem audioRecomputeDuration_spec {f : Frame AudioInfo} (h : AudioQueueInv p c (f :: frames)) :
    AudioQueueInv { p with audio := audioRecomputeDuration c.room (dequeue c.room p.audio) } c
      frames := by
  obtain ⟨base, hrep⟩ := h.represents
  obtain ⟨base', hrep'⟩ := hrep.dequeue
  have hlen := hrep'.queuedFrames
  rw [audioRecomputeDuration]
  split
  · apply h.pop
    obtain rfl : frames = [] := by
      apply eq_nil_of_length_eq_zero
      omega
    rfl
  next hempty =>
    have hle := hrep'.head_le_newest (pairwise_cons.mp h.timed.sorted).2 hempty
    obtain ⟨_, fs, l, hl, hnewest⟩ := hrep'.ends hempty
    have hfits := h.timed.fits l (by rw [hl]; simp)
    rw [← hnewest] at hfits
    have hend : ((dequeue c.room p.audio).newestSlot c.room).info.timestampUs.toNat +
        ((dequeue c.room p.audio).newestSlot c.room).info.durationUs.toNat =
        (((dequeue c.room p.audio).newestSlot c.room).info.timestampUs +
          ((dequeue c.room p.audio).newestSlot c.room).info.durationUs).toNat := by
      rw [UInt64.toNat_add, Nat.mod_eq_of_lt hfits]
    rw [if_neg (not_gt_of_end_in_range hfits)]
    apply h.pop
    have hle' : (dequeue c.room p.audio).headSlot.info.timestampUs ≤
        ((dequeue c.room p.audio).newestSlot c.room).info.timestampUs +
          ((dequeue c.room p.audio).newestSlot c.room).info.durationUs := by
      rw [UInt64.le_iff_toNat_le, ← hend]
      omega
    rw [hrep'.span_eq hempty, if_pos hle', UInt64.toNat_sub_of_le _ _ hle', hend]

/-- What a pop of the audio queue did: it handed out the oldest frame with the
configured format, or changed nothing. -/
def AudioPop (p : Processing) (c : AudioQueueConfig) (frames : List (Frame AudioInfo))
    (r : Processing × PopResult AudioFrameInfo) : Prop :=
  match r.2 with
  | .ok outSize data info =>
    ∃ q' fs d, r.1 = { p with audio := q' } ∧ AudioQueueInv { p with audio := q' } c fs ∧
      outSize = data.length ∧
      info =
        { dataSize := data.length
          timestampUs := info.timestampUs
          sampleRate := c.config.sampleRate
          channels := c.config.channels
          bitsPerSample := c.config.bitsPerSample } ∧
      frames =
        { payload := data, info := { timestampUs := info.timestampUs, durationUs := d } } :: fs
  | .refused _ _ => r.1 = p

theorem popAudioFrame_spec
    (hc : p.audioConfig = some c) (h : AudioQueueInv p c frames) (argsValid : Bool)
    (destination : Option ℕ) : AudioPop p c frames (popAudioFrame p argsValid destination) := by
  rw [popAudioFrame, hc]
  dsimp only
  split_ifs with hargs hempty hsmall
  · rfl
  · rfl
  · rfl
  · cases frames with
    | nil => exact absurd h.queuedFrames hempty
    | cons f fs =>
      obtain ⟨base, hrep⟩ := h.represents
      rw [AudioPop]
      rw [hrep.read_head, hrep.headSlot]
      exact ⟨_, fs, f.info.durationUs, by rw [hc], audioRecomputeDuration_spec h, rfl, rfl, rfl⟩

end Calls

def Processing.videoFrames (p : Processing) : List (Frame VideoInfo) :=
  p.video.contents p.room

def Processing.audioFrames (p : Processing) : List (Frame AudioInfo) :=
  match p.audioConfig with
  | none => []
  | some c => p.audio.contents c.room

/-- What a call with this answer does to a queue of video frames. -/
def VideoStep (before : List (Frame VideoInfo)) (op : Op) (answer : Answer)
    (after : List (Frame VideoInfo)) : Prop :=
  match op, answer with
  | .admitVideoFrame frame width height timestampUs, .status .ok =>
    after = before ++
      [{ payload := frame
         info := { width := width, height := height, timestampUs := timestampUs } }]
  | .popVideoFrame _ _, .video (.ok outSize data info) =>
    outSize = data.length ∧ info.dataSize = data.length ∧ before =
        { payload := data
          info :=
            { width := info.width
              height := info.height
              timestampUs := info.timestampUs } } :: after
  | .queueClear, _ => after = []
  | _, _ => after = before

/-- What a call with this answer does to a queue of audio frames under the
configuration in force. -/
def AudioStep (config : Option AudioQueueConfig) (before : List (Frame AudioInfo)) (op : Op)
    (answer : Answer) (after : List (Frame AudioInfo)) : Prop :=
  match op, answer with
  | .admitAudioFrame samples timestampUs, .status .ok =>
    ∃ c d, config = some c ∧ audioPayloadDurationUs c.config samples.length = some d ∧
      after = before ++
        [{ payload := samples, info := { timestampUs := timestampUs, durationUs := d } }]
  | .popAudioFrame _ _, .audio (.ok outSize data info) =>
    ∃ c d, config = some c ∧ outSize = data.length ∧ info =
        { dataSize := data.length
          timestampUs := info.timestampUs
          sampleRate := c.config.sampleRate
          channels := c.config.channels
          bitsPerSample := c.config.bitsPerSample } ∧
      before =
        { payload := data, info := { timestampUs := info.timestampUs, durationUs := d } } ::
          after
  | .audioClear, _ => after = []
  | .setAudioCaptureConfig _ _ _, .status .ok => after = []
  | _, _ => after = before

/-- The counters of a queue are those of its frames and within the limits. -/
structure Within {μ : Type} [Inhabited μ] (ts dur : μ → UInt64) (room : Room) (limit : UInt64)
    (q : FrameRing μ) : Prop where
  frames : q.queuedFrames = (q.contents room).length
  frames_le : q.queuedFrames ≤ room.capacity
  bytes : q.queuedBytes = totalBytes (q.contents room)
  bytes_le : q.queuedBytes ≤ room.maxBytes
  sorted : (q.contents room).Pairwise (fun f g => ts f.info ≤ ts g.info)
  duration : q.queuedDurationUs.toNat = span ts dur (q.contents room)
  duration_le : q.queuedDurationUs ≤ limit

theorem QueueInv.within
    {μ : Type} [Inhabited μ] {ts dur : μ → UInt64} {room : Room} {limit : UInt64}
    {q : FrameRing μ} {frames : List (Frame μ)} (h : QueueInv ts dur room limit q frames) :
    Within ts dur room limit q := by
  have hcontents := h.contents
  obtain ⟨base, hrep⟩ := h.represents
  exact
    { frames := by rw [hcontents, hrep.queuedFrames]
      frames_le := by rw [hrep.queuedFrames]; exact hrep.frames_le
      bytes := by rw [hcontents, hrep.queuedBytes]
      bytes_le := by rw [hrep.queuedBytes]; exact hrep.bytes_le
      sorted := by rw [hcontents]; exact h.timed.sorted
      duration := by rw [hcontents]; exact h.timed.duration_eq
      duration_le := h.timed.duration_le }

/-- Both queues are in order, and the video limits are those of the
configuration. -/
structure Inv (config : Config) (p : Processing) : Prop where
  capacity : p.room.capacity = config.frameQueueCapacity
  maxBytes : p.room.maxBytes = config.frameQueueMaxBytes
  maxDurationUs : p.maxDurationUs = config.frameQueueMaxDurationUs
  video : VideoQueueInv p p.videoFrames
  audio : ∀ c, p.audioConfig = some c → AudioQueueInv p c p.audioFrames
  audioRoom : ∀ c, p.audioConfig = some c →
    c.room.capacity = c.config.queueCapacity ∧ c.room.maxBytes = c.config.queueMaxBytes

variable {config : Config} {p : Processing}

theorem Inv.video_changed {q : FrameRing VideoInfo} {frames : List (Frame VideoInfo)}
    (h : Inv config p) (hq : VideoQueueInv { p with video := q } frames) :
    Inv config { p with video := q } ∧
      ({ p with video := q } : Processing).videoFrames = frames := by
  have hfrs : ({ p with video := q } : Processing).videoFrames = frames := hq.contents
  refine ⟨?_, hfrs⟩
  exact
    { capacity := h.capacity
      maxBytes := h.maxBytes
      maxDurationUs := h.maxDurationUs
      video := by rw [hfrs]; exact hq
      audio := h.audio
      audioRoom := h.audioRoom }

theorem Inv.audio_changed
    {c : AudioQueueConfig} {q : FrameRing AudioInfo} {frames : List (Frame AudioInfo)}
    (h : Inv config p) (hc : p.audioConfig = some c)
    (hq : AudioQueueInv { p with audio := q } c frames) :
    Inv config { p with audio := q } ∧
      ({ p with audio := q } : Processing).audioFrames = frames := by
  have hfrs : ({ p with audio := q } : Processing).audioFrames = frames := by
    simp only [Processing.audioFrames, hc]
    exact hq.contents
  refine ⟨?_, hfrs⟩
  exact
    { capacity := h.capacity
      maxBytes := h.maxBytes
      maxDurationUs := h.maxDurationUs
      video := h.video
      audio := by
        intro c' hc'
        obtain rfl : c = c' := Option.some.inj (hc.symm.trans hc')
        rw [hfrs]
        exact hq
      audioRoom := h.audioRoom }

def StepOk (config : Config) (p : Processing) (op : Op) (r : Processing × Answer) : Prop :=
  Inv config r.1 ∧ VideoStep p.videoFrames op r.2 r.1.videoFrames ∧
    AudioStep p.audioConfig p.audioFrames op r.2 r.1.audioFrames

theorem stepOk_admitVideoFrame (h : Inv config p) (frame : List UInt8) (width height : ℤ)
    (timestampUs : UInt64) :
    StepOk config p (.admitVideoFrame frame width height timestampUs)
      (step p (.admitVideoFrame frame width height timestampUs)) := by
  obtain ⟨q, hq, hinv⟩ := admitVideoFrame_spec h.video frame width height timestampUs
  obtain ⟨hnext, hfrs⟩ := h.video_changed hinv
  rw [StepOk, step]
  rw [hq, hfrs]
  refine ⟨hnext, ?_, rfl⟩
  cases hstat : (admitVideoFrame p frame width height timestampUs).2 with
  | ok => rfl
  | _ => rfl

theorem stepOk_popVideoFrame (h : Inv config p) (argsValid : Bool) (destination : Option ℕ) :
    StepOk config p (.popVideoFrame argsValid destination)
      (step p (.popVideoFrame argsValid destination)) := by
  have hpop := popVideoFrame_spec h.video argsValid destination
  rw [VideoPop] at hpop
  rw [StepOk, step]
  cases hres : (popVideoFrame p argsValid destination).2 with
  | ok outSize data info =>
    rw [hres] at hpop
    obtain ⟨q, fs, hq, hinv, hsize, hdata, hhead⟩ := hpop
    obtain ⟨hnext, hfrs⟩ := h.video_changed hinv
    rw [hq, hfrs]
    exact ⟨hnext, ⟨hsize, hdata, hhead⟩, rfl⟩
  | refused status outSize =>
    rw [hres] at hpop
    rw [hpop]
    exact ⟨h, rfl, rfl⟩

theorem admitAudioFrame_unconfigured (hc : p.audioConfig = none) (samples : List UInt8)
    (timestampUs : UInt64) :
    ∃ n status, admitAudioFrame p samples timestampUs =
      ({ p with audio := { p.audio with rejectedFrames := n } }, status) ∧ status ≠ .ok := by
  rw [admitAudioFrame]
  split
  · exact ⟨p.audio.rejectedFrames, .einval, rfl, by decide⟩
  · split
    · exact ⟨_, .estate, rfl, by decide⟩
    · next c hc' =>
        exact absurd (hc.symm.trans hc') (by simp)

theorem popAudioFrame_unconfigured (hc : p.audioConfig = none) (argsValid : Bool)
    (destination : Option ℕ) :
    ∃ status outSize, popAudioFrame p argsValid destination = (p, .refused status outSize) := by
  rw [popAudioFrame, hc]
  dsimp only
  split_ifs <;> exact ⟨_, _, rfl⟩

variable (h : Inv config p)
include h

theorem stepOk_admitAudioFrame (samples : List UInt8) (timestampUs : UInt64) :
    StepOk config p (.admitAudioFrame samples timestampUs)
      (step p (.admitAudioFrame samples timestampUs)) := by
  rw [StepOk, step]
  cases hc : p.audioConfig with
  | none =>
    obtain ⟨n, status, hreject, hstat⟩ := admitAudioFrame_unconfigured hc samples timestampUs
    rw [hreject]
    refine ⟨?_, rfl, ?_⟩
    · exact
        { h with
          audio := fun c hc' => absurd (hc.symm.trans hc') (by simp)
          audioRoom := fun c hc' => absurd (hc.symm.trans hc') (by simp) }
    · cases status with
      | ok => exact absurd rfl hstat
      | _ => simp only [AudioStep, Processing.audioFrames, hc]
  | some c =>
    obtain ⟨q, fs, hq, hinv, hres⟩ :=
      admitAudioFrame_spec hc (h.audio c hc) samples timestampUs
    obtain ⟨hnext, hfrs⟩ := h.audio_changed hc hinv
    rw [hq, hfrs]
    refine ⟨hnext, rfl, ?_⟩
    cases hstat : (admitAudioFrame p samples timestampUs).2 with
    | ok =>
      rw [if_pos hstat] at hres
      obtain ⟨d, hd, hfs⟩ := hres
      exact ⟨c, d, rfl, hd, hfs⟩
    | _ =>
      rw [if_neg (by rw [hstat]; decide)] at hres
      exact hres

theorem stepOk_popAudioFrame (argsValid : Bool) (destination : Option ℕ) :
    StepOk config p (.popAudioFrame argsValid destination)
      (step p (.popAudioFrame argsValid destination)) := by
  rw [StepOk, step]
  cases hc : p.audioConfig with
  | none =>
    obtain ⟨status, outSize, href⟩ := popAudioFrame_unconfigured hc argsValid destination
    rw [href]
    exact ⟨h, rfl, rfl⟩
  | some c =>
    have hpop := popAudioFrame_spec hc (h.audio c hc) argsValid destination
    rw [AudioPop] at hpop
    cases hres : (popAudioFrame p argsValid destination).2 with
    | ok outSize data info =>
      rw [hres] at hpop
      obtain ⟨q, fs, d, hq, hinv, hsize, hinfo, hhead⟩ := hpop
      obtain ⟨hnext, hfrs⟩ := h.audio_changed hc hinv
      rw [hq, hfrs]
      exact ⟨hnext, rfl, c, d, rfl, hsize, hinfo, hhead⟩
    | refused status outSize =>
      rw [hres] at hpop
      rw [hpop]
      exact ⟨h, rfl, rfl⟩

theorem stepOk_clear :
    StepOk config p .queueClear (step p .queueClear) ∧
      StepOk config p .audioClear (step p .audioClear) := by
  constructor
  · have hclear : VideoQueueInv { p with video := clearRing p.room p.video } [] := h.video.clear
    obtain ⟨hnext, hfrs⟩ := h.video_changed hclear
    exact ⟨hnext, hfrs, rfl⟩
  · rw [StepOk, step]
    cases hc : p.audioConfig with
    | none =>
      have hsame : audioClear p = p := by
        rw [audioClear, hc]
      rw [hsame]
      refine ⟨h, rfl, ?_⟩
      simp [AudioStep, Processing.audioFrames, hc]
    | some c =>
      have hclear : AudioQueueInv { p with audio := clearRing c.room p.audio } c [] :=
        (h.audio c hc).clear
      have hcleared : audioClear p = { p with audio := clearRing c.room p.audio } := by
        rw [audioClear, hc]
      obtain ⟨hnext, hfrs⟩ := h.audio_changed hc hclear
      rw [hcleared]
      exact ⟨hnext, rfl, hfrs⟩

theorem stepOk_setAudioCaptureConfig (audioConfig : AudioCaptureConfig)
    (memory : Bool) (garbage : ℕ → UInt8) :
    StepOk config p (.setAudioCaptureConfig audioConfig memory garbage)
      (step p (.setAudioCaptureConfig audioConfig memory garbage)) := by
  rw [StepOk, step]
  rw [setAudioCaptureConfig]
  split_ifs with hvalid hstate hmemory
  · exact ⟨h, rfl, rfl⟩
  · dsimp only
    refine ⟨?_, rfl, emptyRing_contents _ garbage⟩
    exact
      { h with
        audio := by
          intro c hc
          cases hc
          exact QueueInv.fresh _ garbage
        audioRoom := by
          intro c hc
          cases hc
          exact ⟨rfl, rfl⟩ }
  · exact ⟨h, rfl, rfl⟩
  · exact ⟨h, rfl, rfl⟩

theorem stepOk (op : Op) : StepOk config p op (step p op) := by
  cases op with
  | setState state => exact ⟨{ h with }, rfl, rfl⟩
  | setAudioCaptureConfig audioConfig memory garbage =>
    exact stepOk_setAudioCaptureConfig h audioConfig memory garbage
  | admitVideoFrame frame width height timestampUs =>
    exact stepOk_admitVideoFrame h frame width height timestampUs
  | popVideoFrame argsValid destination => exact stepOk_popVideoFrame h argsValid destination
  | queueClear => exact (stepOk_clear h).1
  | admitAudioFrame samples timestampUs => exact stepOk_admitAudioFrame h samples timestampUs
  | popAudioFrame argsValid destination => exact stepOk_popAudioFrame h argsValid destination
  | audioClear => exact (stepOk_clear h).2

omit h

theorem inv_create {memory : Bool} {garbage : ℕ → UInt8}
    (h : create config memory garbage = .ok p) : Inv config p := by
  rw [create] at h
  split_ifs at h with hvalid hmemory
  simp only [Except.ok.injEq] at h
  subst h
  exact
    { capacity := rfl
      maxBytes := rfl
      maxDurationUs := rfl
      video := QueueInv.fresh _ garbage
      audio := fun c hc => by cases hc
      audioRoom := fun c hc => by cases hc }

/-- **The frame queues refine bounded first-in first-out queues.**  On every run,
the counters and the duration of both queues are those of the frames queued and
within the configured limits, and the next call appends, removes or keeps these
frames as its answer says. -/
theorem queues_refine_bounded_fifo (config : Config) (memory : Bool) (garbage : ℕ → UInt8)
    (p₀ : Processing) (hcreate : create config memory garbage = .ok p₀) (ops : List Op) (op : Op) :
    let p := processing.run p₀ ops
    (p.room.capacity = config.frameQueueCapacity ∧ p.room.maxBytes = config.frameQueueMaxBytes ∧
      Within VideoInfo.timestampUs (fun _ => 0) p.room config.frameQueueMaxDurationUs p.video) ∧
    (∀ c, p.audioConfig = some c →
      c.room.capacity = c.config.queueCapacity ∧ c.room.maxBytes = c.config.queueMaxBytes ∧
      Within AudioInfo.timestampUs AudioInfo.durationUs c.room c.config.queueMaxDurationUs
        p.audio) ∧
    VideoStep p.videoFrames op (processing.answer p op) (processing.next p op).videoFrames ∧
    AudioStep p.audioConfig p.audioFrames op (processing.answer p op)
      (processing.next p op).audioFrames := by
  intro p
  have hinv : Inv config p := by
    apply processing.run_invariant (P := Inv config) _ (inv_create hcreate)
    intro s op hs
    exact (stepOk hs op).1
  have hstep := stepOk hinv op
  refine ⟨⟨hinv.capacity, hinv.maxBytes, ?_⟩, ?_, hstep.2.1, hstep.2.2⟩
  · rw [← hinv.maxDurationUs]
    exact hinv.video.within
  · intro c hc
    exact ⟨(hinv.audioRoom c hc).1, (hinv.audioRoom c hc).2, (hinv.audio c hc).within⟩

/-- Two slots, eight bytes and a run that wraps around the end of both rings. -/
theorem queues_refine_small :
    ∃ p₀, create
        { size := 32
          frameQueueCapacity := 2
          frameQueueMaxBytes := 8
          frameQueueMaxDurationUs := 100 } true (fun _ => 0xAA) = .ok p₀ ∧
      VideoStep (processing.run p₀ [.setState .running, .admitVideoFrame [1, 2, 3, 4, 5] 2 2 10,
            .admitVideoFrame [6, 7] 2 2 20, .popVideoFrame true (some 8)]).videoFrames
        (.admitVideoFrame [8, 9, 10, 11] 2 2 30)
        (.status .ok)
        [{ payload := [6, 7], info := { width := 2, height := 2, timestampUs := 20 } },
          { payload := [8, 9, 10, 11],
            info := { width := 2, height := 2, timestampUs := 30 } }] := by
  refine ⟨_, rfl, ?_⟩
  have h := queues_refine_bounded_fifo
    { size := 32
      frameQueueCapacity := 2
      frameQueueMaxBytes := 8
      frameQueueMaxDurationUs := 100 } true (fun _ => 0xAA) _ rfl
    [.setState .running, .admitVideoFrame [1, 2, 3, 4, 5] 2 2 10,
      .admitVideoFrame [6, 7] 2 2 20, .popVideoFrame true (some 8)]
    (.admitVideoFrame [8, 9, 10, 11] 2 2 30)
  exact h.2.2.1

end TurboMedia.Client
