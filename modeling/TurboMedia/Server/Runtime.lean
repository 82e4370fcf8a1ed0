import Mathlib.Data.List.AList
import TurboMedia.Core.MediaSource

/-!
# Server runtime and protocol sessions

Model of `server/server_runtime.c` and of the registry in `core/media_source.c`: sources under
keys, the calls of the runtime, and sessions of protocols that publish to a source or play it.
A session remembers the key it was opened with, and nothing of the source.

A pointer to a source is its key in the registry.  What allocation does, and what the callback
of a subscriber answers to a frame, are inputs of a call; callbacks make no calls.  The
counters of the statistics do not wrap.

`issued` lists the subscriptions that were made, with who made them; no call reads it.
-/

namespace TurboMedia.Server

open TurboMedia.Core (MediaSource TrackInfo MediaFrame mediaOk mediaErrInvalid mediaErrNomem
  mediaErrExists mediaErrNotFound mediaErrFull mediaErrState)

/-- `turbo_media_source_key_t`: three character arrays. -/
structure RawKey where
  vhost : List UInt8
  app : List UInt8
  stream : List UInt8
deriving DecidableEq

/-- A normalized key: three texts. -/
structure SourceKey where
  vhost : List UInt8
  app : List UInt8
  stream : List UInt8
deriving DecidableEq

/-- The text in a character array, if there is one. -/
def textOf (array : List UInt8) : Option (List UInt8) :=
  if array.head? = some 0 ∨ 0 ∉ array then none else some (array.takeWhile (fun c => c != 0))

/-- `turbo_media_normalize_key`. -/
def RawKey.normalize (key : RawKey) : Option SourceKey :=
  match textOf key.vhost, textOf key.app, textOf key.stream with
  | some vhost, some app, some stream => some ⟨vhost, app, stream⟩
  | _, _, _ => none

section Registry

/-- `turbo_media_registry_t`. -/
structure Registry where
  sources : AList (fun _ : SourceKey => MediaSource)
  maxSources : ℕ
  nextSubscriptionNamespace : UInt32

/-- What fails when a source is created. -/
inductive CreateFault where
  | none
  | source
  | put (outOfMemory : Bool)
deriving DecidableEq

variable (registry : Registry)

/-- `turbo_media_registry_find`. -/
def registryFind (key : RawKey) : Option MediaSource :=
  key.normalize.bind (fun key => registry.sources.lookup key)

/-- `turbo_media_registry_get_or_create`. -/
def registryGetOrCreate (key : RawKey) (config : Core.SourceConfig) (fault : CreateFault) :
    Registry × ℤ :=
  match key.normalize with
  | none => (registry, mediaErrInvalid)
  | some key =>
    if (registry.sources.lookup key).isSome then (registry, mediaOk)
    else if registry.maxSources ≤ registry.sources.keys.length then (registry, mediaErrFull)
    else if fault = .source then (registry, mediaErrNomem)
    else if registry.nextSubscriptionNamespace = 0 then (registry, mediaErrFull)
    else
      -- a removed source must not leave a token that can match its replacement
      let found := Core.sourceCreate config registry.nextSubscriptionNamespace.toNat
      let registry :=
        { registry with nextSubscriptionNamespace := registry.nextSubscriptionNamespace + 1 }
      match fault with
      | .put outOfMemory => (registry, if outOfMemory then mediaErrNomem else mediaErrInvalid)
      | _ => ({ registry with sources := registry.sources.insert key found }, mediaOk)

/-- `turbo_media_registry_remove`. -/
def registryRemove (key : RawKey) : Registry × ℤ :=
  match key.normalize with
  | none => (registry, mediaErrInvalid)
  | some key =>
    if (registry.sources.lookup key).isSome then
      ({ registry with sources := registry.sources.erase key }, mediaOk)
    else (registry, mediaErrNotFound)

def Registry.write (key : RawKey) (source : MediaSource) : Registry :=
  match key.normalize with
  | none => registry
  | some key => { registry with sources := registry.sources.insert key source }

end Registry

/-- `turbo_media_source_add_track`, where the copy of the extra data may fail. -/
def sourceAddTrack (source : MediaSource) (track : TrackInfo) (memory : Bool) :
    MediaSource × ℤ :=
  match Core.addTrack source track with
  | (_, .error rc) => (source, rc)
  | (added, .ok _) =>
    if 0 < track.extradataSize ∧ memory = false then (source, mediaErrNomem)
    else (added, mediaOk)

def copiesFrame (source : MediaSource) (frame : MediaFrame) : Bool :=
  match source.accepts frame with
  | none => false
  | some track =>
    source.config.gopCapacity != 0 && frame.data != [] &&
      (!source.hasVideoTrack || track.type == .video && frame.isKeyframe != 0 ||
        source.hasVideoKeyframe)

/-- `turbo_media_source_publish`, where the copy of the frame may fail. -/
def sourcePublish (source : MediaSource) (frame : MediaFrame) (codes : ℕ → ℤ) (memory : Bool) :
    MediaSource × ℤ :=
  if copiesFrame source frame && !memory then (source, mediaErrNomem)
  else
    let out := Core.publish source frame (fun id => ⟨codes id, []⟩)
    (out.1, out.2.1)

section Runtime

/-- `turbo_media_server_stats_t`. -/
structure ServerStats where
  sourceCount : ℕ
  tracksRegistered : ℕ
  framesPublished : ℕ
  subscriptionsCreated : ℕ
  subscriptionsRemoved : ℕ
  sourcesRemoved : ℕ

/-- `turbo_media_server_runtime_t`. -/
structure Runtime where
  sourceConfig : Core.SourceConfig
  registry : Registry
  stats : ServerStats

/-- `turbo_media_server_runtime_create`. -/
def runtimeCreate (maxSources : ℕ) (sourceConfig : Core.SourceConfig) : Runtime :=
  ⟨sourceConfig, ⟨∅, Core.defaultSize maxSources 1024, 1⟩, ⟨0, 0, 0, 0, 0, 0⟩⟩

variable (runtime : Runtime)

variable (key : RawKey)

/-- `turbo_media_server_runtime_get_or_create_source`. -/
def getOrCreateSource (fault : CreateFault) : Runtime × ℤ :=
  let (registry, rc) := registryGetOrCreate runtime.registry key runtime.sourceConfig fault
  if rc = mediaOk then
    ({ runtime with
      registry := registry
      stats := { runtime.stats with sourceCount := registry.sources.keys.length } }, rc)
  else ({ runtime with registry := registry }, rc)

/-- `turbo_media_server_runtime_remove_source`. -/
def removeSource : Runtime × ℤ :=
  match registryFind runtime.registry key with
  | none => (runtime, mediaErrNotFound)
  | some source =>
    let (registry, rc) := registryRemove runtime.registry key
    if rc = mediaOk then
      ({ runtime with
        registry := registry
        stats := { runtime.stats with
          subscriptionsRemoved :=
            runtime.stats.subscriptionsRemoved + source.subscribers.length
          sourcesRemoved := runtime.stats.sourcesRemoved + 1
          sourceCount := registry.sources.keys.length } }, rc)
    else ({ runtime with registry := registry }, rc)

/-- `turbo_media_server_runtime_add_track`. -/
def addTrack (track : TrackInfo) (fault : CreateFault) (memory : Bool) :
    Runtime × ℤ :=
  let (runtime, rc) := getOrCreateSource runtime key fault
  if rc ≠ mediaOk then (runtime, rc)
  else
    match registryFind runtime.registry key with
    | none => (runtime, rc)
    | some source =>
      let (source, rc) := sourceAddTrack source track memory
      let runtime := { runtime with registry := runtime.registry.write key source }
      if rc = mediaOk then
        ({ runtime with stats := { runtime.stats with
          tracksRegistered := runtime.stats.tracksRegistered + 1 } }, rc)
      else (runtime, rc)

/-- `turbo_media_server_runtime_publish`. -/
def publish (frame : MediaFrame) (codes : ℕ → ℤ) (memory : Bool) :
    Runtime × ℤ :=
  match registryFind runtime.registry key with
  | none => (runtime, mediaErrNotFound)
  | some source =>
    let (source, rc) := sourcePublish source frame codes memory
    let runtime := { runtime with registry := runtime.registry.write key source }
    if rc = mediaOk then
      ({ runtime with stats := { runtime.stats with
        framesPublished := runtime.stats.framesPublished + 1 } }, rc)
    else (runtime, rc)

/-- `turbo_media_server_runtime_subscribe`, with the id of the subscription. -/
def subscribe (callback : Option ℕ) (replayCached : Bool) (codes : ℕ → ℤ) :
    Runtime × Except ℤ ℕ :=
  match registryFind runtime.registry key with
  | none => (runtime, .error mediaErrNotFound)
  | some source =>
    match callback with
    | none => (runtime, .error mediaErrInvalid)
    | some callback =>
      let (source, result, _) := Core.subscribe source callback replayCached codes
      let runtime := { runtime with registry := runtime.registry.write key source }
      match result with
      | .error rc => (runtime, .error rc)
      | .ok id =>
        ({ runtime with stats := { runtime.stats with
          subscriptionsCreated := runtime.stats.subscriptionsCreated + 1 } }, .ok id)

/-- `turbo_media_server_runtime_unsubscribe`. -/
def unsubscribe (subscriptionId : ℕ) : Runtime × ℤ :=
  match registryFind runtime.registry key with
  | none => (runtime, mediaErrNotFound)
  | some source =>
    let (source, rc) := Core.unsubscribe source subscriptionId
    let runtime := { runtime with registry := runtime.registry.write key source }
    if rc = mediaOk then
      ({ runtime with stats := { runtime.stats with
        subscriptionsRemoved := runtime.stats.subscriptionsRemoved + 1 } }, rc)
    else (runtime, rc)

end Runtime

section Sessions

/-- `turbo_media_protocol_role_t`. -/
def rolePublisher : ℤ := 1
def rolePlayer : ℤ := 2

/-- `turbo_media_protocol_session_config_t`. -/
structure SessionConfig where
  protocol : ℤ
  role : ℤ
  key : RawKey
  tracks : Option (List TrackInfo)
  trackCount : ℕ
  callback : Option ℕ
  replayCached : Bool
  removeSourceOnClose : Bool

/-- `turbo_media_protocol_session_t`. -/
structure ProtocolSession where
  protocol : ℤ
  role : ℤ
  key : RawKey
  subscriptionId : ℕ
  removeSourceOnClose : Bool
  closed : Bool

/-- Who has made a subscription. -/
inductive Owner where
  | session (handle : ℕ)
  | caller
deriving DecidableEq

/-- A subscription that was made. -/
structure Issue where
  id : ℕ
  owner : Owner
  key : SourceKey

/-- A runtime with the sessions that were opened on it. -/
structure State where
  runtime : Runtime
  sessions : List ProtocolSession
  issued : List Issue

/-- What allocation does while a session is opened. -/
structure OpenMemory where
  session : Bool
  source : CreateFault
  trackSource : ℕ → CreateFault
  track : ℕ → Bool

/-- The loop of `turbo_media_server_session_add_tracks` from track `i` on. -/
def addTracksFrom (key : RawKey) (memory : OpenMemory) :
    ℕ → List TrackInfo → Runtime → Runtime × ℤ
  | _, [], runtime => (runtime, mediaOk)
  | i, track :: rest, runtime =>
    let (runtime, rc) := addTrack runtime key track (memory.trackSource i) (memory.track i)
    if rc ≠ mediaOk then (runtime, rc) else addTracksFrom key memory (i + 1) rest runtime

/-- `turbo_media_server_session_add_tracks`. -/
def sessionAddTracks (runtime : Runtime) (key : RawKey) (tracks : Option (List TrackInfo))
    (trackCount : ℕ) (memory : OpenMemory) : Runtime × ℤ :=
  if trackCount = 0 then (runtime, mediaOk)
  else
    match tracks with
    | none => (runtime, mediaErrInvalid)
    | some tracks => addTracksFrom key memory 0 (tracks.take trackCount) runtime

/-- `turbo_media_server_protocol_valid` and `turbo_media_server_role_valid`. -/
def SessionConfig.valid (config : SessionConfig) : Bool :=
  (1 ≤ config.protocol && config.protocol ≤ 5) &&
    (config.role == rolePublisher || config.role == rolePlayer)

variable (state : State)

def State.handOut (runtime : Runtime) (config : SessionConfig) (subscriptionId : ℕ)
    (issued : List Issue) : State × Except ℤ ℕ :=
  ({ runtime := runtime
     sessions := state.sessions ++
      [⟨config.protocol, config.role, config.key, subscriptionId, config.removeSourceOnClose,
        false⟩]
     issued := issued }, .ok state.sessions.length)

def State.issue (id : ℕ) (owner : Owner) (key : RawKey) : List Issue :=
  match key.normalize with
  | none => state.issued
  | some key => state.issued ++ [⟨id, owner, key⟩]

/-- `turbo_media_server_protocol_session_open`; a handle is the index of the session. -/
def sessionOpen (config : SessionConfig) (codes : ℕ → ℤ) (memory : OpenMemory) :
    State × Except ℤ ℕ :=
  if !config.valid then (state, .error mediaErrInvalid)
  else if !memory.session then (state, .error mediaErrNomem)
  else if config.role = rolePublisher then
    let (runtime, rc) := getOrCreateSource state.runtime config.key memory.source
    if rc ≠ mediaOk then ({ state with runtime := runtime }, .error rc)
    else
      let (runtime, rc) := sessionAddTracks runtime config.key config.tracks config.trackCount
        memory
      if rc ≠ mediaOk then ({ state with runtime := runtime }, .error rc)
      else state.handOut runtime config 0 state.issued
  else
    match config.callback with
    | none => (state, .error mediaErrInvalid)
    | some callback =>
      let (runtime, result) :=
        subscribe state.runtime config.key (some callback) config.replayCached codes
      match result with
      | .error rc => ({ state with runtime := runtime }, .error rc)
      | .ok id =>
        state.handOut runtime config id (state.issue id (.session state.sessions.length) config.key)

/-- `turbo_media_server_protocol_session_close`. -/
def sessionClose (handle : ℕ) : State :=
  match state.sessions[handle]? with
  | none => state
  | some session =>
    if session.closed then state
    else
      let runtime :=
        if session.role = rolePlayer ∧ session.subscriptionId ≠ 0 then
          (unsubscribe state.runtime session.key session.subscriptionId).1
        else state.runtime
      let runtime :=
        if session.role = rolePublisher ∧ session.removeSourceOnClose then
          (removeSource runtime session.key).1
        else runtime
      { state with
        runtime := runtime
        sessions := state.sessions.set handle
          { session with
            subscriptionId := if session.role = rolePlayer then 0 else session.subscriptionId
            closed := true } }

/-- `turbo_media_server_protocol_session_publish`. -/
def sessionPublish (handle : ℕ) (frame : MediaFrame) (codes : ℕ → ℤ) (memory : Bool) :
    State × ℤ :=
  match state.sessions[handle]? with
  | none => (state, mediaErrInvalid)
  | some session =>
    if session.closed then (state, mediaErrInvalid)
    else if session.role ≠ rolePublisher then (state, mediaErrState)
    else
      let (runtime, rc) := publish state.runtime session.key frame codes memory
      ({ state with runtime := runtime }, rc)

end Sessions

/-- The calls on a runtime and its sessions. -/
inductive Op where
  | sessionOpen (config : SessionConfig) (codes : ℕ → ℤ) (memory : OpenMemory)
  | sessionClose (handle : ℕ)
  | sessionPublish (handle : ℕ) (frame : MediaFrame) (codes : ℕ → ℤ) (memory : Bool)
  | addTrack (key : RawKey) (track : TrackInfo) (fault : CreateFault) (memory : Bool)
  | subscribe (key : RawKey) (callback : Option ℕ) (replayCached : Bool) (codes : ℕ → ℤ)
  | unsubscribe (key : RawKey) (subscriptionId : ℕ)
  | removeSource (key : RawKey)

/-- What they answer. -/
inductive Answer where
  | silent
  | code (rc : ℤ)
  | opened (result : Except ℤ ℕ)
  | subscribed (result : Except ℤ ℕ)

def step (state : State) : Op → State × Answer
  | .sessionOpen config codes memory =>
    let out := sessionOpen state config codes memory
    (out.1, .opened out.2)
  | .sessionClose handle => (sessionClose state handle, .silent)
  | .sessionPublish handle frame codes memory =>
    let out := sessionPublish state handle frame codes memory
    (out.1, .code out.2)
  | .addTrack key track fault memory =>
    let out := addTrack state.runtime key track fault memory
    ({ state with runtime := out.1 }, .code out.2)
  | .subscribe key callback replayCached codes =>
    let out := subscribe state.runtime key callback replayCached codes
    ({ state with
      runtime := out.1
      issued :=
        match out.2 with
        | .error _ => state.issued
        | .ok id => state.issue id .caller key }, .subscribed out.2)
  | .unsubscribe key subscriptionId =>
    let out := unsubscribe state.runtime key subscriptionId
    ({ state with runtime := out.1 }, .code out.2)
  | .removeSource key =>
    let out := removeSource state.runtime key
    ({ state with runtime := out.1 }, .code out.2)

def serverMachine : Machine State Op Answer where
  step := step

def start (maxSources : ℕ) (sourceConfig : Core.SourceConfig) : State :=
  ⟨runtimeCreate maxSources sourceConfig, [], []⟩

end TurboMedia.Server
