import TurboMedia.Lib.Machine

/-!
# Media source

Model of the source part of `core/media_source.c`: tracks, subscribers, and the cache of the
last frames that a new subscriber is given first.  The cache is a ring of `gop_capacity`
slots.

A frame owns its bytes, so that a copy of a frame is a frame.  What the callback of a
subscriber does is an argument of the call that runs it: a code, and the subscriptions that
it takes back meanwhile; callbacks of a replay only answer with a code.  Null arguments are
left out and memory is allocated; counters of the statistics do not wrap, and the next track
id wraps as an `int` does in two's complement.
-/

namespace TurboMedia.Core

/-- `turbo_media_result_t`. -/
def mediaOk : ℤ := 0
def mediaErrInvalid : ℤ := -1
def mediaErrNomem : ℤ := -2
def mediaErrExists : ℤ := -3
def mediaErrNotFound : ℤ := -4
def mediaErrFull : ℤ := -5
def mediaErrState : ℤ := -6

/-- `turbo_media_track_type_t`, and the values outside the enumeration. -/
inductive TrackType where
  | audio
  | video
  | data
  | other (value : ℤ)
deriving DecidableEq

/-- `turbo_media_source_state_t`. -/
inductive SourceState where
  | idle
  | publishing
  | closed
deriving DecidableEq

/-- `turbo_media_track_info_t`. -/
structure TrackInfo where
  trackId : ℤ
  type : TrackType
  codecName : List UInt8
  payloadType : ℤ
  clockRate : ℤ
  width : ℤ
  height : ℤ
  framerate : ℤ
  sampleRate : ℤ
  channels : ℤ
  extradata : Option (List UInt8)
  extradataSize : ℕ

/-- `turbo_media_frame_t`; the size is the number of bytes. -/
structure MediaFrame where
  trackId : ℤ
  data : List UInt8
  pts : ℤ
  dts : ℤ
  duration : ℤ
  isKeyframe : ℤ
  flags : ℕ
deriving DecidableEq

/-- `turbo_media_subscription_t`. -/
structure MediaSubscription where
  id : ℕ
  callback : ℕ
deriving DecidableEq

/-- `turbo_media_source_config_t`. -/
structure SourceConfig where
  maxTracks : ℕ
  maxSubscribers : ℕ
  gopCapacity : ℕ

/-- `turbo_media_source_stats_t`. -/
structure SourceStats where
  framesPublished : ℕ
  bytesPublished : ℕ
  framesDelivered : ℕ
  subscriberCount : ℕ
  gopCachedFrames : ℕ

/-- `turbo_media_source_s`. -/
structure MediaSource where
  config : SourceConfig
  state : SourceState
  tracks : List TrackInfo
  nextTrackId : ℤ
  subscribers : List MediaSubscription
  subscriptionNamespace : ℕ
  nextSubscriptionId : ℕ
  gopFrames : List (Option MediaFrame)
  gopCount : ℕ
  gopStart : ℕ
  hasVideoTrack : Bool
  hasVideoKeyframe : Bool
  stats : SourceStats

/-- `TURBO_MEDIA_DEFAULT_MAX_TRACKS`, `TURBO_MEDIA_DEFAULT_MAX_SUBSCRIBERS`,
`TURBO_MEDIA_DEFAULT_GOP_CAPACITY` and `TURBO_MEDIA_SUBSCRIPTION_LOCAL_ID_MAX`. -/
def defaultMaxTracks : ℕ := 8
def defaultMaxSubscribers : ℕ := 64
def defaultGopCapacity : ℕ := 128
def subscriptionLocalIdMax : ℕ := 2 ^ 32 - 1

/-- `TURBO_MEDIA_MAX_CODEC_NAME_LEN`. -/
def maxCodecNameLen : ℕ := 32

/-- `turbo_media_default_size`. -/
def defaultSize (value default : ℕ) : ℕ :=
  if value = 0 then default else value

/-- `turbo_media_source_create`, for a key that is valid. -/
def sourceCreate (config : SourceConfig) (subscriptionNamespace : ℕ) : MediaSource :=
  let normalized : SourceConfig :=
    ⟨defaultSize config.maxTracks defaultMaxTracks,
      defaultSize config.maxSubscribers defaultMaxSubscribers,
      defaultSize config.gopCapacity defaultGopCapacity⟩
  ⟨normalized, .idle, [], 0, [], subscriptionNamespace, 1,
    List.replicate normalized.gopCapacity none, 0, 0, false, false, ⟨0, 0, 0, 0, 0⟩⟩

/-- `turbo_media_track_index`. -/
def trackIndex (s : MediaSource) (trackId : ℤ) : Option ℕ :=
  s.tracks.findIdx? (fun t => t.trackId == trackId)

/-- `turbo_media_copy_track`. -/
def copyTrack (src : TrackInfo) (trackId : ℤ) : Except ℤ TrackInfo :=
  match src.type with
  | .other _ => .error mediaErrInvalid
  | _ =>
    if src.codecName = [] then .error mediaErrInvalid
    else if src.extradataSize > 0 then
      match src.extradata with
      | none => .error mediaErrInvalid
      | some bytes => .ok { src with
          trackId := trackId
          codecName := src.codecName.take (maxCodecNameLen - 1)
          extradata := some (bytes.take src.extradataSize) }
    else
      .ok { src with
        trackId := trackId
        codecName := src.codecName.take (maxCodecNameLen - 1)
        extradata := none }

variable (s : MediaSource)

/-- `turbo_media_source_add_track`, with the track id that is assigned. -/
def addTrack (track : TrackInfo) : MediaSource × Except ℤ ℤ :=
  if s.state = .closed then (s, .error mediaErrState)
  else if s.tracks.length ≥ s.config.maxTracks then (s, .error mediaErrFull)
  else
    let assigned := if track.trackId ≥ 0 then track.trackId else s.nextTrackId
    if (trackIndex s assigned).isSome then (s, .error mediaErrExists)
    else
      match copyTrack track assigned with
      | .error rc => (s, .error rc)
      | .ok copied =>
        ({ s with
          tracks := s.tracks ++ [copied]
          nextTrackId :=
            if assigned ≥ s.nextTrackId then (assigned + 1).bmod (2 ^ 32) else s.nextTrackId
          hasVideoTrack := if copied.type = .video then true else s.hasVideoTrack },
          .ok assigned)

/-- `turbo_media_clear_gop`. -/
def clearGop : MediaSource :=
  { s with
    gopFrames := List.replicate s.config.gopCapacity none
    gopCount := 0
    gopStart := 0
    stats := { s.stats with gopCachedFrames := 0 } }

/-- The frame goes into the next slot, or replaces the oldest one. -/
def pushGop (frame : MediaFrame) : MediaSource :=
  if s.gopCount < s.config.gopCapacity then
    { s with
      gopFrames := s.gopFrames.set ((s.gopStart + s.gopCount) % s.config.gopCapacity) (some frame)
      gopCount := s.gopCount + 1
      stats := { s.stats with gopCachedFrames := s.gopCount + 1 } }
  else
    { s with
      gopFrames := s.gopFrames.set s.gopStart (some frame)
      gopStart := (s.gopStart + 1) % s.config.gopCapacity
      stats := { s.stats with gopCachedFrames := s.gopCount } }

/-- `turbo_media_cache_frame`. -/
def cacheFrame (frame : MediaFrame) (track : TrackInfo) : MediaSource :=
  if s.config.gopCapacity = 0 then s
  else if s.hasVideoTrack = false then pushGop s frame
  else if track.type = .video ∧ frame.isKeyframe ≠ 0 then
    pushGop { clearGop s with hasVideoKeyframe := true } frame
  else if s.hasVideoKeyframe then pushGop s frame
  else s

/-- The frames cached, oldest first, as a replay reads them. -/
def MediaSource.cached : List MediaFrame :=
  (List.range s.gopCount).filterMap (fun i =>
    (s.gopFrames[(s.gopStart + i) % s.config.gopCapacity]?).join)

/-- What a callback does. -/
structure Reaction where
  code : ℤ
  unsubscribes : List ℕ

/-- A frame handed to a subscriber. -/
structure Delivery where
  subscription : ℕ
  frame : MediaFrame
deriving DecidableEq

/-- `turbo_media_source_unsubscribe`. -/
def unsubscribe (s : MediaSource) (id : ℕ) : MediaSource × ℤ :=
  if id = 0 then (s, mediaErrInvalid)
  else
    match s.subscribers.findIdx? (fun u => u.id == id) with
    | none => (s, mediaErrNotFound)
    | some i =>
      ({ s with
        subscribers := s.subscribers.eraseIdx i
        stats := { s.stats with subscriberCount := s.subscribers.length - 1 } }, mediaOk)

/-- `turbo_media_deliver_frame`: the callback runs, and a frame it accepts is counted. -/
def deliverFrame (s : MediaSource) (reaction : Reaction) : MediaSource :=
  let after := reaction.unsubscribes.foldl (fun s id => (unsubscribe s id).1) s
  if reaction.code = mediaOk then
    { after with stats := { after.stats with framesDelivered := after.stats.framesDelivered + 1 } }
  else after

/-- The loop of `turbo_media_source_publish` from subscriber `i` on, with the frames handed
out.  The number of subscribers is read again in every turn, and it only shrinks. -/
def deliverFrom (frame : MediaFrame) (react : ℕ → Reaction) :
    ℕ → ℕ → MediaSource → MediaSource × ℤ × List Delivery
  | 0, _, s => (s, mediaOk, [])
  | fuel + 1, i, s =>
    match s.subscribers[i]? with
    | none => (s, mediaOk, [])
    | some u =>
      let after := deliverFrame s (react u.id)
      if (react u.id).code ≠ mediaOk then (after, (react u.id).code, [⟨u.id, frame⟩])
      else
        let rest := deliverFrom frame react fuel (i + 1) after
        (rest.1, rest.2.1, ⟨u.id, frame⟩ :: rest.2.2)

def MediaSource.accepts (s : MediaSource) (frame : MediaFrame) : Option TrackInfo :=
  if s.state = .closed then none
  else (trackIndex s frame.trackId).bind (fun i => s.tracks[i]?)

/-- `turbo_media_source_publish`. -/
def publish (s : MediaSource) (frame : MediaFrame) (react : ℕ → Reaction) :
    MediaSource × ℤ × List Delivery :=
  if s.state = .closed then (s, mediaErrState, [])
  else
    match s.accepts frame with
    | none => (s, mediaErrNotFound, [])
    | some track =>
      let counted : MediaSource :=
        let s' := cacheFrame s frame track
        { s' with
          state := .publishing
          stats := { s'.stats with
            framesPublished := s'.stats.framesPublished + 1
            bytesPublished := s'.stats.bytesPublished + frame.data.length } }
      deliverFrom frame react counted.subscribers.length 0 counted

/-- The replay of `turbo_media_source_subscribe`: the frames handed out up to the first that
is refused, and that code. -/
def replay (id : ℕ) (codes : ℕ → ℤ) : ℕ → List MediaFrame → List Delivery × ℤ
  | _, [] => ([], mediaOk)
  | k, frame :: rest =>
    if codes k ≠ mediaOk then ([⟨id, frame⟩], codes k)
    else
      ((⟨id, frame⟩ : Delivery) :: (replay id codes (k + 1) rest).1,
        (replay id codes (k + 1) rest).2)

def MediaSource.join (s : MediaSource) (u : MediaSubscription) : MediaSource :=
  { s with
    subscribers := s.subscribers ++ [u]
    nextSubscriptionId := s.nextSubscriptionId + 1
    stats := { s.stats with subscriberCount := s.subscribers.length + 1 } }

/-- `turbo_media_source_subscribe`; `codes` is what the callback answers to the frames of the
replay. -/
def subscribe (s : MediaSource) (callback : ℕ) (replayCached : Bool) (codes : ℕ → ℤ) :
    MediaSource × Except ℤ ℕ × List Delivery :=
  if s.state = .closed then (s, .error mediaErrState, [])
  else if s.subscribers.length ≥ s.config.maxSubscribers then (s, .error mediaErrFull, [])
  else if s.nextSubscriptionId > subscriptionLocalIdMax then (s, .error mediaErrFull, [])
  else
    let id := s.subscriptionNamespace * 2 ^ 32 + s.nextSubscriptionId
    let joined := s.join ⟨id, callback⟩
    if replayCached = false then (joined, .ok id, [])
    else
      let replayed := replay id codes 0 s.cached
      let accepted := replayed.1.length - if replayed.2 = mediaOk then 0 else 1
      let counted : MediaSource := { joined with
        stats := { joined.stats with
          framesDelivered := joined.stats.framesDelivered + accepted } }
      if replayed.2 = mediaOk then (counted, .ok id, replayed.1)
      else
        ({ counted with
          subscribers := s.subscribers
          stats := { counted.stats with subscriberCount := s.subscribers.length } },
          .error replayed.2, replayed.1)

/-- Calls on a source. -/
inductive SourceOp where
  | addTrack (track : TrackInfo)
  | publish (frame : MediaFrame) (react : ℕ → Reaction)
  | subscribe (callback : ℕ) (replayCached : Bool) (codes : ℕ → ℤ)
  | unsubscribe (id : ℕ)

inductive SourceAnswer where
  | code (code : ℤ)
  | track (result : Except ℤ ℤ)
  | published (code : ℤ) (deliveries : List Delivery)
  | subscribed (result : Except ℤ ℕ) (deliveries : List Delivery)

def sourceStep (s : MediaSource) : SourceOp → MediaSource × SourceAnswer
  | .addTrack track => ((addTrack s track).1, .track (addTrack s track).2)
  | .publish frame react => ((publish s frame react).1,
      .published (publish s frame react).2.1 (publish s frame react).2.2)
  | .subscribe callback replayCached codes =>
    ((subscribe s callback replayCached codes).1,
      .subscribed (subscribe s callback replayCached codes).2.1
        (subscribe s callback replayCached codes).2.2)
  | .unsubscribe id => ((unsubscribe s id).1, .code (unsubscribe s id).2)

end TurboMedia.Core
