import TurboMedia.Client.FrameRing
import TurboMedia.Lib.Machine

/-!
# Frame queues of client processing

Model of the video and audio queues of `client_processing_queues.c`.  Every
function takes the queue's mutex for its whole body, so a run is a sequence of
calls.  The lifecycle state is an atomic that other functions set; here it is
set by the call `setState` to any value at any time.

**Input.**  Any sequence of calls on both queues, with any payloads and
timestamps.

**Method.**  Both queues are frame rings; what remains is the timing: the checks
before `enqueue` keep the timestamps ordered and the span within the limit, and
the recomputation after `dequeue` gives the span of what is left.
-/

namespace TurboMedia.Client

/-- `turbo_client_processing_status_t`, as far as the queues use it. -/
inductive Status where
  | ok
  | einval
  | estate
  | efull
  | enomem
deriving DecidableEq

/-- `turbo_client_processing_state_t`. -/
inductive State where
  | created
  | prepared
  | running
  | paused
  | draining
  | stopped
  | failed
deriving DecidableEq

/-- What a video slot keeps beside offset and size. -/
structure VideoInfo where
  width : ℤ
  height : ℤ
  timestampUs : UInt64

instance : Inhabited VideoInfo :=
  ⟨{ width := 0, height := 0, timestampUs := 0 }⟩

/-- What an audio slot keeps beside offset and size. -/
structure AudioInfo where
  timestampUs : UInt64
  durationUs : UInt64

instance : Inhabited AudioInfo :=
  ⟨{ timestampUs := 0, durationUs := 0 }⟩

/-- `turbo_client_processing_config_t`. -/
structure Config where
  size : ℕ
  frameQueueCapacity : ℕ
  frameQueueMaxBytes : ℕ
  frameQueueMaxDurationUs : UInt64

/-- `turbo_client_processing_config_valid`. -/
def Config.Valid (c : Config) : Prop :=
  c.size = 32 ∧ 0 < c.frameQueueCapacity ∧ c.frameQueueCapacity ≤ (2 ^ 64 - 1) / 32 ∧
    0 < c.frameQueueMaxBytes ∧ 0 < c.frameQueueMaxDurationUs

instance (c : Config) : Decidable c.Valid :=
  inferInstanceAs (Decidable (_ ∧ _))

/-- `turbo_client_processing_audio_capture_config_t`. -/
structure AudioCaptureConfig where
  size : ℕ
  queueCapacity : ℕ
  queueMaxBytes : ℕ
  queueMaxDurationUs : UInt64
  sampleRate : ℕ
  channels : ℕ
  bitsPerSample : ℕ

/-- `turbo_client_processing_audio_config_valid`. -/
def AudioCaptureConfig.Valid (c : AudioCaptureConfig) : Prop :=
  c.size = 48 ∧ 0 < c.queueCapacity ∧ c.queueCapacity ≤ (2 ^ 64 - 1) / 32 ∧
    0 < c.queueMaxBytes ∧ 0 < c.queueMaxDurationUs ∧
    (c.sampleRate = 8000 ∨ c.sampleRate = 16000 ∨ c.sampleRate = 24000 ∨ c.sampleRate = 48000) ∧
    (c.channels = 1 ∨ c.channels = 2) ∧ (c.bitsPerSample = 16 ∨ c.bitsPerSample = 32)

instance (c : AudioCaptureConfig) : Decidable c.Valid :=
  inferInstanceAs (Decidable (_ ∧ _))

/-- An audio configuration that was accepted, with the rings allocated for it. -/
structure AudioQueueConfig where
  config : AudioCaptureConfig
  room : Room

/-- The part of `turbo_client_processing_s` that the queues use. -/
structure Processing where
  state : State
  room : Room
  maxDurationUs : UInt64
  video : FrameRing VideoInfo
  audioConfig : Option AudioQueueConfig
  audio : FrameRing AudioInfo

def unconfiguredAudio : FrameRing AudioInfo :=
  { slots := []
    storage := []
    head := 0
    storageTail := 0
    queuedFrames := 0
    queuedBytes := 0
    queuedDurationUs := 0
    admittedFrames := 0
    rejectedFrames := 0 }

/-- `turbo_client_processing_create`.  `memory` says whether the allocations
succeed; no allocation above `PTRDIFF_MAX` does.  `garbage` is what the fresh
storage happens to contain. -/
def create (config : Config) (memory : Bool) (garbage : ℕ → UInt8) : Except Status Processing :=
  if hvalid : config.Valid then
    if hmemory : memory = true ∧ config.frameQueueMaxBytes ≤ 2 ^ 63 - 1 then
      let room : Room :=
        { capacity := config.frameQueueCapacity
          maxBytes := config.frameQueueMaxBytes
          capacity_pos := hvalid.2.1
          capacity_le := hvalid.2.2.1
          maxBytes_pos := hvalid.2.2.2.1
          maxBytes_le := hmemory.2 }
      .ok
        { state := .created
          room := room
          maxDurationUs := config.frameQueueMaxDurationUs
          video := emptyRing room garbage
          audioConfig := none
          audio := unconfiguredAudio }
    else .error .enomem
  else .error .einval

/-- `turbo_client_processing_set_audio_capture_config`. -/
def setAudioCaptureConfig (p : Processing) (config : AudioCaptureConfig) (memory : Bool)
    (garbage : ℕ → UInt8) : Processing × Status :=
  if hvalid : config.Valid then
    if p.state ≠ .created then (p, .estate)
    else if hmemory : memory = true ∧ config.queueMaxBytes ≤ 2 ^ 63 - 1 then
      let room : Room :=
        { capacity := config.queueCapacity
          maxBytes := config.queueMaxBytes
          capacity_pos := hvalid.2.1
          capacity_le := hvalid.2.2.1
          maxBytes_pos := hvalid.2.2.2.1
          maxBytes_le := hmemory.2 }
      ({ p with
          audioConfig := some { config := config, room := room }
          audio := emptyRing room garbage },
        .ok)
    else (p, .enomem)
  else (p, .einval)

/-- `turbo_client_processing_audio_frame_bytes`. -/
def audioFrameBytes (c : AudioCaptureConfig) : ℕ :=
  c.channels * (c.bitsPerSample / 8)

/-- `turbo_client_processing_audio_payload_duration_us`. -/
def audioPayloadDurationUs (c : AudioCaptureConfig) (len : ℕ) : Option UInt64 :=
  if c.sampleRate = 0 then none
  else
    let frameBytes := audioFrameBytes c
    if frameBytes = 0 ∨ len = 0 ∨ len % frameBytes ≠ 0 then none
    else
      let sampleFrames := len / frameBytes
      let wholeSeconds := sampleFrames / c.sampleRate
      let remainderFrames := sampleFrames % c.sampleRate
      if wholeSeconds > (2 ^ 64 - 1) / 1000000 then none
      else
        let remainderUs := (remainderFrames * 1000000 + c.sampleRate - 1) / c.sampleRate
        let durationUs := wholeSeconds * 1000000
        if durationUs > 2 ^ 64 - 1 - remainderUs then none
        else some (UInt64.ofNat (durationUs + remainderUs))

/-- What `pop` hands out: the number of bytes needed, the bytes and the frame
info; or a status, with the number of bytes where it is reported. -/
inductive PopResult (ι : Type) where
  | ok (outSize : ℕ) (data : List UInt8) (info : ι)
  | refused (status : Status) (outSize : Option ℕ)

/-- `turbo_client_processing_video_frame_info_t`. -/
structure VideoFrameInfo where
  dataSize : ℕ
  width : ℤ
  height : ℤ
  timestampUs : UInt64

def rejectVideo (p : Processing) : Processing :=
  { p with video := { p.video with rejectedFrames := p.video.rejectedFrames + 1 } }

def acceptVideo (p : Processing) (frame : List UInt8) (info : VideoInfo)
    (prospectiveDuration : UInt64) : Processing :=
  { p with video := enqueue p.room p.video frame info prospectiveDuration }

/-- `turbo_client_processing_admit_video_frame`. -/
def admitVideoFrame (p : Processing) (frame : List UInt8) (width height : ℤ)
    (timestampUs : UInt64) : Processing × Status :=
  let q := p.video
  let info : VideoInfo := { width := width, height := height, timestampUs := timestampUs }
  if frame.length = 0 ∨ width ≤ 0 ∨ height ≤ 0 then (p, .einval)
  else if p.state ≠ .running then (rejectVideo p, .estate)
  else if q.queuedFrames ≥ p.room.capacity ∨
      frame.length > p.room.maxBytes - q.queuedBytes then
    (rejectVideo p, .efull)
  else if q.queuedFrames ≠ 0 then
    let oldestTimestamp := q.headSlot.info.timestampUs
    let newestTimestamp := (q.newestSlot p.room).info.timestampUs
    if timestampUs < newestTimestamp then (rejectVideo p, .einval)
    else if timestampUs - oldestTimestamp > p.maxDurationUs then (rejectVideo p, .efull)
    else (acceptVideo p frame info (timestampUs - oldestTimestamp), .ok)
  else (acceptVideo p frame info 0, .ok)

/-- `turbo_client_processing_queue_recompute_duration_locked`. -/
def recomputeDuration (room : Room) (q : FrameRing VideoInfo) : FrameRing VideoInfo :=
  if q.queuedFrames ≤ 1 then { q with queuedDurationUs := 0 }
  else
    let first := q.headSlot.info.timestampUs
    let last := (q.newestSlot room).info.timestampUs
    { q with queuedDurationUs := if last ≥ first then last - first else 0 }

/-- `turbo_client_processing_pop_video_frame`.  `argsValid` says that `out_size`
and an `info` of the right size are given; `destination` is the capacity of the
destination, if there is one. -/
def popVideoFrame (p : Processing) (argsValid : Bool)
    (destination : Option ℕ) : Processing × PopResult VideoFrameInfo :=
  let q := p.video
  if argsValid = false then (p, .refused .einval none)
  else if q.queuedFrames = 0 then (p, .refused .estate (some 0))
  else
    let slot := q.headSlot
    if destination.all (fun capacity => capacity < slot.size) then
      (p, .refused .efull (some slot.size))
    else
      ({ p with video := recomputeDuration p.room (dequeue p.room q) },
        .ok slot.size (ringCopyOut q.storage p.room.maxBytes slot.offset slot.size)
          { dataSize := slot.size
            width := slot.info.width
            height := slot.info.height
            timestampUs := slot.info.timestampUs })

/-- `turbo_client_processing_queue_clear_locked`. -/
def queueClear (p : Processing) : Processing :=
  { p with video := clearRing p.room p.video }

/-- `turbo_client_processing_audio_frame_info_t`. -/
structure AudioFrameInfo where
  dataSize : ℕ
  timestampUs : UInt64
  sampleRate : ℕ
  channels : ℕ
  bitsPerSample : ℕ

def rejectAudio (p : Processing) : Processing :=
  { p with audio := { p.audio with rejectedFrames := p.audio.rejectedFrames + 1 } }

/-- The checks of `admit_audio_frame` on timestamps, and the write. -/
def admitAudioTimed (p : Processing) (c : AudioQueueConfig) (samples : List UInt8)
    (timestampUs frameDurationUs : UInt64) : Processing × Status :=
  let q := p.audio
  let oldestTimestamp :=
    if q.queuedFrames ≠ 0 then q.headSlot.info.timestampUs else timestampUs
  if q.queuedFrames ≠ 0 ∧ timestampUs < (q.newestSlot c.room).info.timestampUs then
    (rejectAudio p, .einval)
  else
    let frameEndUs := timestampUs + frameDurationUs
    let prospectiveDuration := frameEndUs - oldestTimestamp
    if prospectiveDuration > c.config.queueMaxDurationUs then (rejectAudio p, .efull)
    else
      ({ p with
          audio := enqueue c.room q samples
            { timestampUs := timestampUs, durationUs := frameDurationUs } prospectiveDuration },
        .ok)

/-- `turbo_client_processing_admit_audio_frame`. -/
def admitAudioFrame (p : Processing) (samples : List UInt8)
    (timestampUs : UInt64) : Processing × Status :=
  let q := p.audio
  if samples.length = 0 then (p, .einval)
  else
    match p.audioConfig with
    | none => (rejectAudio p, .estate)
    | some c =>
      let frameBytes := audioFrameBytes c.config
      if frameBytes = 0 ∨ samples.length % frameBytes ≠ 0 then (rejectAudio p, .einval)
      else if p.state ≠ .running then (rejectAudio p, .estate)
      else if q.queuedFrames ≥ c.room.capacity ∨
          samples.length > c.room.maxBytes - q.queuedBytes then
        (rejectAudio p, .efull)
      else
        match audioPayloadDurationUs c.config samples.length with
        | none => (rejectAudio p, .einval)
        | some frameDurationUs =>
          if frameDurationUs > 18446744073709551615 - timestampUs then (rejectAudio p, .einval)
          else admitAudioTimed p c samples timestampUs frameDurationUs

/-- `turbo_client_processing_audio_recompute_duration_locked`. -/
def audioRecomputeDuration (room : Room) (q : FrameRing AudioInfo) : FrameRing AudioInfo :=
  if q.queuedFrames = 0 then { q with queuedDurationUs := 0 }
  else
    let first := q.headSlot.info.timestampUs
    let tail := (q.newestSlot room).info
    if tail.durationUs > 18446744073709551615 - tail.timestampUs then
      { q with queuedDurationUs := 18446744073709551615 }
    else
      let lastEnd := tail.timestampUs + tail.durationUs
      { q with
        queuedDurationUs := if lastEnd ≥ first then lastEnd - first else 18446744073709551615 }

/-- `turbo_client_processing_pop_audio_frame`. -/
def popAudioFrame (p : Processing) (argsValid : Bool)
    (destination : Option ℕ) : Processing × PopResult AudioFrameInfo :=
  let q := p.audio
  if argsValid = false then (p, .refused .einval none)
  else
    match p.audioConfig with
    | none => (p, .refused .estate (some 0))
    | some c =>
      if q.queuedFrames = 0 then (p, .refused .estate (some 0))
      else
        let slot := q.headSlot
        if destination.all (fun capacity => capacity < slot.size) then
          (p, .refused .efull (some slot.size))
        else
          ({ p with audio := audioRecomputeDuration c.room (dequeue c.room q) },
            .ok slot.size (ringCopyOut q.storage c.room.maxBytes slot.offset slot.size)
              { dataSize := slot.size
                timestampUs := slot.info.timestampUs
                sampleRate := c.config.sampleRate
                channels := c.config.channels
                bitsPerSample := c.config.bitsPerSample })

/-- `turbo_client_processing_audio_clear_locked`. -/
def audioClear (p : Processing) : Processing :=
  match p.audioConfig with
  | none => p
  | some c => { p with audio := clearRing c.room p.audio }

inductive Op where
  | setState (state : State)
  | setAudioCaptureConfig
      (config : AudioCaptureConfig) (memory : Bool) (garbage : ℕ → UInt8)
  | admitVideoFrame (frame : List UInt8) (width height : ℤ) (timestampUs : UInt64)
  | popVideoFrame (argsValid : Bool) (destination : Option ℕ)
  | queueClear
  | admitAudioFrame (samples : List UInt8) (timestampUs : UInt64)
  | popAudioFrame (argsValid : Bool) (destination : Option ℕ)
  | audioClear

inductive Answer where
  | status (status : Status)
  | video (result : PopResult VideoFrameInfo)
  | audio (result : PopResult AudioFrameInfo)
  | none

def step (p : Processing) : Op → Processing × Answer
  | .setState state => ({ p with state := state }, .none)
  | .setAudioCaptureConfig config memory garbage =>
    let r := setAudioCaptureConfig p config memory garbage
    (r.1, .status r.2)
  | .admitVideoFrame frame width height timestampUs =>
    let r := admitVideoFrame p frame width height timestampUs
    (r.1, .status r.2)
  | .popVideoFrame argsValid destination =>
    let r := popVideoFrame p argsValid destination
    (r.1, .video r.2)
  | .queueClear => (queueClear p, .none)
  | .admitAudioFrame samples timestampUs =>
    let r := admitAudioFrame p samples timestampUs
    (r.1, .status r.2)
  | .popAudioFrame argsValid destination =>
    let r := popAudioFrame p argsValid destination
    (r.1, .audio r.2)
  | .audioClear => (audioClear p, .none)

def processing : Machine Processing Op Answer where
  step := step

end TurboMedia.Client
