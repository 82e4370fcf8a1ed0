import TurboMedia.Lib.Machine

/-!
# Recognition sessions

Model of the voice detector and the fingerprint extractor of `turbo_recognition.c`: `start`,
`write`, `finish` and `cancel` of each, and the callbacks they give to their provider.

**Input.**  Any provider.  Each call of it comes with a reply: the callbacks that the provider
makes before it returns, and the code it returns.  It may call back between calls too.  The
application makes one call at a time, as the header asks.

**Method.**  The handle keeps in `log` what the application is told, also where it has not
registered a callback, and which starts were accepted, which failed, and which cancels
succeeded; no step reads it.  Borrowed frames are read for their fields only.  A probability
is a rational number, or nothing where the float is not finite.
-/

namespace TurboMedia.Recognition

/-- `turbo_recognition_result_t`; providers return any number. -/
def ok : ℤ := 0
def errInvalid : ℤ := -1
def errState : ℤ := -3
def errFormat : ℤ := -4
def errProvider : ℤ := -6
def errLimit : ℤ := -8

/-- `turbo_recognition_state_t`. -/
inductive SessionState where
  | idle
  | running
  | finishing
  | stopped
  | error
deriving DecidableEq

/-- `session_active`. -/
def sessionActive (state : SessionState) : Bool :=
  state = .running || state = .finishing

/-- `turbo_recognition_audio_format_t`. -/
structure AudioFormat where
  sampleRate : ℤ
  channels : ℤ
  sampleFormat : ℤ
deriving DecidableEq

/-- `audio_format_valid`. -/
def audioFormatValid (format : AudioFormat) : Bool :=
  8000 ≤ format.sampleRate && format.sampleRate ≤ 192000 && 1 ≤ format.channels &&
    format.channels ≤ 8 && 1 ≤ format.sampleFormat && format.sampleFormat ≤ 3

/-- `audio_sample_size`. -/
def audioSampleSize (sampleFormat : ℤ) : ℕ :=
  if sampleFormat = 1 then 2 else 4

/-- `turbo_recognition_audio_frame_t`; the bytes are not read here. -/
structure AudioFrame where
  hasData : Bool
  len : ℕ
  format : AudioFormat

/-- `audio_frame_valid`. -/
def audioFrameValid : Option AudioFrame → Bool
  | none => false
  | some frame =>
    frame.hasData && frame.len ≠ 0 && audioFormatValid frame.format &&
      frame.len % (audioSampleSize frame.format.sampleFormat * frame.format.channels.toNat) = 0

/-- `turbo_recognition_video_frame_t`. -/
structure VideoFrame where
  hasData : Bool
  len : ℕ
  width : ℤ
  height : ℤ
  firstStride : ℤ
  pixelFormat : ℤ
  timestampUs : UInt64

/-- `video_format_valid`. -/
def videoFormatValid (format : ℤ) : Bool :=
  1 ≤ format && format ≤ 4

/-- `video_frame_valid`. -/
def videoFrameValid : Option VideoFrame → Bool
  | none => false
  | some frame =>
    frame.hasData && frame.len ≠ 0 && 0 < frame.width && 0 < frame.height &&
      frame.width ≤ 32768 && frame.height ≤ 32768 && videoFormatValid frame.pixelFormat &&
      0 < frame.firstStride

/-- `bounded_string_valid` of a string without NUL. -/
def boundedStringValid (value : Option (List UInt8)) (maxLength : ℕ) (optional : Bool) : Bool :=
  match value with
  | none => optional
  | some text => (optional || 0 < text.length) && text.length ≤ maxLength

section Session

variable {α : Type}

/-- What the log of a session records. -/
inductive Entry (α : Type) where
  | accepted
  | failedStart
  | cancelled
  | output (value : α)
  | complete
  | error (code : ℤ) (message : String)

/-- What both handles have: state, last result, rejected frames, and the log. -/
structure Session (α : Type) where
  state : SessionState
  lastResult : ℤ
  rejectedFrameCount : UInt64
  log : List (Entry α)

def Session.create : Session α :=
  ⟨.idle, ok, 0, []⟩

/-- A callback of the provider; `none` is a null pointer. -/
inductive ProviderCall (α : Type) where
  | output (value : Option α)
  | complete
  | error (code : ℤ) (message : String)

/-- How the provider answers a call. -/
structure Reply (α : Type) where
  callbacks : List (ProviderCall α)
  result : ℤ

/-- What a provider may output, and the message where it outputs something else. -/
structure OutputRule (α : Type) where
  valid : α → Bool
  message : String

variable (rule : OutputRule α) (s : Session α)

def Session.record (entry : Entry α) : Session α :=
  { s with log := s.log ++ [entry] }

def Session.fail (code : ℤ) (message : String) : Session α :=
  { s with state := .error, lastResult := code, log := s.log ++ [.error code message] }

def deliver : ProviderCall α → Session α
  | .output value =>
    if !sessionActive s.state then s
    else
      match value.filter rule.valid with
      | some value => s.record (.output value)
      | none => s.fail errProvider rule.message
  | .complete =>
    if !sessionActive s.state then s
    else { s with state := .stopped, lastResult := ok, log := s.log ++ [.complete] }
  | .error code message =>
    if !sessionActive s.state then s
    else s.fail (if code = ok then errProvider else code) message

/-- The callbacks the provider makes during a call. -/
def deliverAll (callbacks : List (ProviderCall α)) : Session α :=
  callbacks.foldl (deliver rule) s

/-- `voice_reject` and `fingerprint_reject`. -/
def Session.reject (result : ℤ) : Session α :=
  { s with rejectedFrameCount := s.rejectedFrameCount + 1, lastResult := result }

variable (reply : Reply α)

/-- The start of a session that nothing speaks against. -/
def startProvider : Session α × ℤ :=
  let begun : Session α :=
    { s with rejectedFrameCount := 0, state := .running, log := s.log ++ [.accepted] }
  let called := deliverAll rule begun reply.callbacks
  if reply.result ≠ ok then
    let failed : Session α := { called with lastResult := reply.result }
    (({ failed with
        state := if failed.state = .running then .idle else failed.state } : Session α).record
        .failedStart,
      reply.result)
  else if called.state = .error then (called.record .failedStart, called.lastResult)
  else if called.state = .running then ({ called with lastResult := ok }, reply.result)
  else (called, reply.result)

/-- A frame that nothing speaks against is given to the provider; also says whether it was
taken. -/
def writeProvider : Session α × ℤ × Bool :=
  let called := deliverAll rule s reply.callbacks
  if called.state = .error then (called, called.lastResult, false)
  else if reply.result ≠ ok then (called.reject reply.result, reply.result, false)
  else ({ called with lastResult := reply.result }, reply.result, true)

/-- `turbo_voice_detector_finish` and `turbo_fingerprint_extractor_finish`. -/
def finishSession : Session α × ℤ :=
  if s.state ≠ .running then (s, errState)
  else
    let called := deliverAll rule { s with state := .finishing } reply.callbacks
    if reply.result ≠ ok then
      ({ called with
          lastResult := reply.result
          state := if called.state = .finishing then .running else called.state },
        reply.result)
    else if called.state = .error then (called, called.lastResult)
    else (called, reply.result)

/-- `turbo_voice_detector_cancel` and `turbo_fingerprint_extractor_cancel`. -/
def cancelSession : Session α × ℤ :=
  if !sessionActive s.state && s.state ≠ .error then (s, errState)
  else
    let called := deliverAll rule s reply.callbacks
    if reply.result = ok then
      (({ called with lastResult := reply.result, state := .stopped } : Session α).record
        .cancelled, reply.result)
    else ({ called with lastResult := reply.result }, reply.result)

end Session

section Voice

/-- `turbo_voice_activity_t`. -/
structure VoiceActivity where
  state : ℤ
  startTimeUs : UInt64
  endTimeUs : UInt64
  probability : Option ℚ
  isFinal : ℤ

/-- The test of `voice_provider_activity`. -/
def voiceActivityValid (activity : VoiceActivity) : Bool :=
  0 ≤ activity.state && activity.state ≤ 1 && (match activity.probability with
      | none => false
      | some probability => 0 ≤ probability && probability ≤ 1) &&
    activity.startTimeUs ≤ activity.endTimeUs

def voiceRule : OutputRule VoiceActivity :=
  ⟨voiceActivityValid, "provider returned invalid voice activity"⟩

/-- `turbo_voice_detector_config_t`. -/
structure VoiceConfig where
  format : AudioFormat
  minSpeechMs : UInt32
  minSilenceMs : UInt32

/-- The configurations that `turbo_voice_detector_start` takes. -/
def voiceConfigValid (config : VoiceConfig) : Bool :=
  audioFormatValid config.format && config.format.channels ≤ 2 &&
    config.minSpeechMs ≤ 60000 && config.minSilenceMs ≤ 60000

/-- `turbo_voice_detector_t`. -/
structure VoiceDetector where
  format : AudioFormat
  session : Session VoiceActivity

/-- `turbo_voice_detector_create`. -/
def VoiceDetector.create : VoiceDetector :=
  ⟨⟨0, 0, 0⟩, Session.create⟩

variable (d : VoiceDetector)

/-- `turbo_voice_detector_start`. -/
def voiceStart (config : Option VoiceConfig) (reply : Reply VoiceActivity) :
    VoiceDetector × ℤ :=
  match config.filter voiceConfigValid with
  | none => (d, errInvalid)
  | some config =>
    if d.session.state ≠ .idle ∧ d.session.state ≠ .stopped then (d, errState)
    else
      let (session, result) := startProvider voiceRule d.session reply
      ({ format := config.format, session := session }, result)

/-- `turbo_voice_detector_write`. -/
def voiceWrite (frame : Option AudioFrame) (reply : Reply VoiceActivity) : VoiceDetector × ℤ :=
  match frame.filter (fun frame => audioFrameValid (some frame)) with
  | none => ({ d with session := d.session.reject errInvalid }, errInvalid)
  | some frame =>
    if d.session.state ≠ .running then ({ d with session := d.session.reject errState }, errState)
    else if d.format ≠ frame.format then
      ({ d with session := d.session.reject errFormat }, errFormat)
    else
      let (session, result, _) := writeProvider voiceRule d.session reply
      ({ d with session := session }, result)

/-- `turbo_voice_detector_finish`. -/
def voiceFinish (reply : Reply VoiceActivity) : VoiceDetector × ℤ :=
  let (session, result) := finishSession voiceRule d.session reply
  ({ d with session := session }, result)

/-- `turbo_voice_detector_cancel`. -/
def voiceCancel (reply : Reply VoiceActivity) : VoiceDetector × ℤ :=
  let (session, result) := cancelSession voiceRule d.session reply
  ({ d with session := session }, result)

/-- A call of the application with the reply of the provider, or a callback between calls. -/
inductive VoiceOp where
  | start (config : Option VoiceConfig) (reply : Reply VoiceActivity)
  | write (frame : Option AudioFrame) (reply : Reply VoiceActivity)
  | finish (reply : Reply VoiceActivity)
  | cancel (reply : Reply VoiceActivity)
  | callback (call : ProviderCall VoiceActivity)

/-- A voice detector as a machine; the answer is the result of the call. -/
def voiceMachine : Machine VoiceDetector VoiceOp (Option ℤ) where
  step := fun d op =>
    match op with
    | .start config reply => ((voiceStart d config reply).1, some (voiceStart d config reply).2)
    | .write frame reply => ((voiceWrite d frame reply).1, some (voiceWrite d frame reply).2)
    | .finish reply => ((voiceFinish d reply).1, some (voiceFinish d reply).2)
    | .cancel reply => ((voiceCancel d reply).1, some (voiceCancel d reply).2)
    | .callback call => ({ d with session := deliver voiceRule d.session call }, none)

end Voice

/-- `turbo_fingerprint_t`. -/
structure Fingerprint where
  domain : ℤ
  algorithm : Option (List UInt8)
  modelVersion : Option (List UInt8)
  hasData : Bool
  len : ℕ
  durationUs : UInt64

/-- `fingerprint_domain_valid`. -/
def fingerprintDomainValid (domain : ℤ) : Bool :=
  1 ≤ domain && domain ≤ 3

/-- `fingerprint_value_valid`. -/
def fingerprintValueValid (fingerprint : Fingerprint) : Bool :=
  fingerprintDomainValid fingerprint.domain && boundedStringValid fingerprint.algorithm 63 false &&
    boundedStringValid fingerprint.modelVersion 63 true && fingerprint.hasData &&
    0 < fingerprint.len && fingerprint.len ≤ 65536

/-- The test of `fingerprint_provider_result`. -/
def fingerprintRule (domain : ℤ) : OutputRule Fingerprint :=
  ⟨fun fingerprint => fingerprintValueValid fingerprint && fingerprint.domain = domain,
    "provider returned an invalid fingerprint"⟩

/-- `turbo_fingerprint_config_t`; the handle keeps no hint. -/
structure FingerprintConfig where
  domain : ℤ
  audioFormat : AudioFormat
  videoFormat : ℤ
  algorithmHint : Option (List UInt8)
  maxDurationUs : UInt64

/-- Which of the two writes the provider has. -/
structure FingerprintProvider where
  writeAudio : Bool
  writeVideo : Bool

/-- The domain is one of the two that take audio. -/
def audioDomain (domain : ℤ) : Bool :=
  domain = 1 || domain = 2

/-- The configurations that `turbo_fingerprint_extractor_start` takes. -/
def fingerprintConfigValid (provider : FingerprintProvider) (config : FingerprintConfig) : Bool :=
  fingerprintDomainValid config.domain && boundedStringValid config.algorithmHint 63 true &&
    config.maxDurationUs ≠ 0 && config.maxDurationUs ≤ 86400000000 &&
    (!audioDomain config.domain || (audioFormatValid config.audioFormat && provider.writeAudio)) &&
    (config.domain ≠ 3 || (videoFormatValid config.videoFormat && provider.writeVideo))

/-- `turbo_fingerprint_extractor_t`. -/
structure FingerprintExtractor where
  provider : FingerprintProvider
  config : FingerprintConfig
  consumedDurationUs : UInt64
  firstVideoTimestampUs : UInt64
  hasVideoTimestamp : Bool
  session : Session Fingerprint

/-- `turbo_fingerprint_extractor_create`. -/
def FingerprintExtractor.create (provider : FingerprintProvider) : FingerprintExtractor :=
  { provider := provider
    config := ⟨0, ⟨0, 0, 0⟩, 0, none, 0⟩
    consumedDurationUs := 0
    firstVideoTimestampUs := 0
    hasVideoTimestamp := false
    session := Session.create }

variable (x : FingerprintExtractor)

def fingerprintReject (result : ℤ) : FingerprintExtractor × ℤ :=
  ({ x with session := x.session.reject result }, result)

/-- `turbo_fingerprint_extractor_start`. -/
def fingerprintStart (config : Option FingerprintConfig) (reply : Reply Fingerprint) :
    FingerprintExtractor × ℤ :=
  match config.filter (fingerprintConfigValid x.provider) with
  | none => (x, errInvalid)
  | some config =>
    if x.session.state ≠ .idle ∧ x.session.state ≠ .stopped then (x, errState)
    else
      let (session, result) := startProvider (fingerprintRule config.domain) x.session reply
      ({ x with
          config := { config with algorithmHint := none }
          consumedDurationUs := 0
          firstVideoTimestampUs := 0
          hasVideoTimestamp := false
          session := session },
        result)

/-- `fingerprint_audio_duration`. -/
def fingerprintAudioDuration (frame : AudioFrame) : Option UInt64 :=
  let sampleCount := frame.len /
    (audioSampleSize frame.format.sampleFormat * frame.format.channels.toNat)
  if 18446744073709551615 / 1000000 < sampleCount then none
  else some (UInt64.ofNat (sampleCount * 1000000 / frame.format.sampleRate.toNat))

/-- The frame is too long for the duration that is left. -/
def overDuration (durationUs : UInt64) : Bool :=
  18446744073709551615 - x.consumedDurationUs < durationUs ||
    (0 < x.config.maxDurationUs && x.config.maxDurationUs < x.consumedDurationUs + durationUs)

/-- `turbo_fingerprint_extractor_write_audio`. -/
def fingerprintWriteAudio (frame : Option AudioFrame) (reply : Reply Fingerprint) :
    FingerprintExtractor × ℤ :=
  match frame.filter (fun frame => audioFrameValid (some frame)) with
  | none => fingerprintReject x errInvalid
  | some frame =>
    if x.session.state ≠ .running then fingerprintReject x errState
    else if !audioDomain x.config.domain || x.config.audioFormat ≠ frame.format then
      fingerprintReject x errFormat
    else
      match (fingerprintAudioDuration frame).filter (fun durationUs => !overDuration x durationUs)
        with
      | none => fingerprintReject x errLimit
      | some durationUs =>
        let (session, result, taken) :=
          writeProvider (fingerprintRule x.config.domain) x.session reply
        ({ x with
            consumedDurationUs :=
              if taken then x.consumedDurationUs + durationUs else x.consumedDurationUs
            session := session },
          result)

/-- `turbo_fingerprint_extractor_write_video`. -/
def fingerprintWriteVideo (frame : Option VideoFrame) (reply : Reply Fingerprint) :
    FingerprintExtractor × ℤ :=
  match frame.filter (fun frame => videoFrameValid (some frame)) with
  | none => fingerprintReject x errInvalid
  | some frame =>
    if x.session.state ≠ .running then fingerprintReject x errState
    else if x.config.domain ≠ 3 ∨ x.config.videoFormat ≠ frame.pixelFormat then
      fingerprintReject x errFormat
    else if x.hasVideoTimestamp ∧ frame.timestampUs < x.firstVideoTimestampUs then
      fingerprintReject x errInvalid
    else if x.hasVideoTimestamp ∧ 0 < x.config.maxDurationUs ∧
        x.config.maxDurationUs < frame.timestampUs - x.firstVideoTimestampUs then
      fingerprintReject x errLimit
    else
      let (session, result, taken) :=
        writeProvider (fingerprintRule x.config.domain) x.session reply
      let first := taken && !x.hasVideoTimestamp
      ({ x with
          firstVideoTimestampUs :=
            if first then frame.timestampUs else x.firstVideoTimestampUs
          hasVideoTimestamp := x.hasVideoTimestamp || first
          session := session },
        result)

/-- `turbo_fingerprint_extractor_finish`. -/
def fingerprintFinish (reply : Reply Fingerprint) : FingerprintExtractor × ℤ :=
  let (session, result) := finishSession (fingerprintRule x.config.domain) x.session reply
  ({ x with session := session }, result)

/-- `turbo_fingerprint_extractor_cancel`. -/
def fingerprintCancel (reply : Reply Fingerprint) : FingerprintExtractor × ℤ :=
  let (session, result) := cancelSession (fingerprintRule x.config.domain) x.session reply
  ({ x with session := session }, result)

/-- A call of the application with the reply of the provider, or a callback between calls. -/
inductive FingerprintOp where
  | start (config : Option FingerprintConfig) (reply : Reply Fingerprint)
  | writeAudio (frame : Option AudioFrame) (reply : Reply Fingerprint)
  | writeVideo (frame : Option VideoFrame) (reply : Reply Fingerprint)
  | finish (reply : Reply Fingerprint)
  | cancel (reply : Reply Fingerprint)
  | callback (call : ProviderCall Fingerprint)

/-- A fingerprint extractor as a machine; the answer is the result of the call. -/
def fingerprintMachine : Machine FingerprintExtractor FingerprintOp (Option ℤ) where
  step := fun x op =>
    match op with
    | .start config reply =>
      ((fingerprintStart x config reply).1, some (fingerprintStart x config reply).2)
    | .writeAudio frame reply =>
      ((fingerprintWriteAudio x frame reply).1, some (fingerprintWriteAudio x frame reply).2)
    | .writeVideo frame reply =>
      ((fingerprintWriteVideo x frame reply).1, some (fingerprintWriteVideo x frame reply).2)
    | .finish reply => ((fingerprintFinish x reply).1, some (fingerprintFinish x reply).2)
    | .cancel reply => ((fingerprintCancel x reply).1, some (fingerprintCancel x reply).2)
    | .callback call =>
      ({ x with session := deliver (fingerprintRule x.config.domain) x.session call }, none)

end TurboMedia.Recognition
