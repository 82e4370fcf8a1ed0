import Mathlib.Data.List.AList
import TurboMedia.Lib.Clocked

/-!
# Signaling: limits per source address

Model of the source policy in `webrtc_signaling.c`: the admission of a request, the binding of
a WebSocket to its source, its release, and the expiry of sources without connections.

The map `source_states` keeps one state per source key, and the sources without connections
are linked to a list through keys that stand for the pointers.  What allocation does, and
whether a source key could be resolved, is an input of a call.  Clock readings are natural
numbers: no computation of the source leaves the range of `uint64_t`.

Of a peer only the session and the source are kept.  The counters of rejections, which nothing
here reads, are left out.
-/

namespace TurboMedia.Signaling

/-- `signaling_source_key_t`. -/
structure SourceKey where
  family : UInt8
  address : List UInt8
  scopeId : UInt32
deriving DecidableEq

/-- `signaling_source_state_t`, without its key. -/
structure SourceState where
  rateLastRefillMs : ℕ
  rateTokens : ℕ
  lastSeenMs : ℕ
  activeConnections : ℕ
  inactiveNext : Option SourceKey
  inactivePrev : Option SourceKey
  inactiveLinked : Bool

/-- The result of `calloc`. -/
def SourceState.new : SourceState :=
  ⟨0, 0, 0, 0, none, none, false⟩

/-- `webrtc_signaling_config_t`, the source policy. -/
structure SourceConfig where
  maxConnectionsPerSource : ℤ
  sourceAdmissionsPerSecond : ℤ
  sourceAdmissionBurst : ℤ
  maxSourceStates : ℕ
  sourceStateTtlMs : ℤ

/-- `source_policy_enabled`. -/
def SourceConfig.policyEnabled (config : SourceConfig) : Bool :=
  config.maxConnectionsPerSource > 0 || config.sourceAdmissionsPerSecond > 0

/-- What `webrtc_signaling_create` asks of the source policy. -/
def SourceConfig.accepted (config : SourceConfig) : Bool :=
  !(config.maxConnectionsPerSource < 0 || config.sourceAdmissionsPerSecond < 0 ||
    config.sourceAdmissionBurst < 0 || config.sourceStateTtlMs < 0 ||
    (config.sourceAdmissionsPerSecond == 0) != (config.sourceAdmissionBurst == 0) ||
    config.policyEnabled && (config.maxSourceStates == 0 || config.sourceStateTtlMs == 0))

/-- `signaling_source_admission_result_t`. -/
inductive AdmissionResult where
  | admitted
  | rejectAddress
  | rejectCapacity
  | rejectRate
  | rejectConcurrency
  | rejectMemory
deriving DecidableEq

/-- Why no source key could be resolved. -/
inductive IdentityRejection where
  | untrustedProxy
  | invalid

/-- `chttp_server_websocket_session`. -/
structure Session where
  impl : ℕ
  connectionSlot : ℕ
  connectionGeneration : ℕ
  streamId : ℕ
deriving DecidableEq

/-- The source of a `webrtc_peer_t`. -/
structure SourcePeer where
  session : Session
  sourceKey : SourceKey
  sourceAdmitted : Bool

/-- The source policy of a `webrtc_signaling_server_t`. -/
structure SourceServer where
  config : SourceConfig
  running : Bool
  sourceStates : AList (fun _ : SourceKey => SourceState)
  inactiveSourcesHead : Option SourceKey
  inactiveSourcesTail : Option SourceKey
  peers : List SourcePeer

/-- `webrtc_signaling_create`. -/
def createSources (config : SourceConfig) : SourceServer :=
  ⟨config, false, ∅, none, none, []⟩

/-- `SIGNALING_RATE_TOKEN_UNITS`. -/
def rateTokenUnits : ℕ := 1000

/-- The variables of a token bucket. -/
structure TokenBucket where
  lastRefillMs : ℕ
  tokens : ℕ

/-- The part of `consume_token_bucket` that fills the bucket up. -/
def TokenBucket.refill (bucket : TokenBucket) (rate capacity nowMs : ℕ) : TokenBucket :=
  if bucket.lastRefillMs = 0 then ⟨if nowMs = 0 then 1 else nowMs, capacity⟩
  else if bucket.lastRefillMs < nowMs then
    let elapsed := nowMs - bucket.lastRefillMs
    let tokens := if capacity ≤ bucket.tokens then capacity else bucket.tokens
    let missing := capacity - tokens
    let refillToCapacityMs := if missing = 0 then 0 else (missing + rate - 1) / rate
    ⟨nowMs, if refillToCapacityMs ≤ elapsed then capacity else tokens + elapsed * rate⟩
  else bucket

/-- `consume_token_bucket`. -/
def consumeTokenBucket (refillRate burst : ℤ) (bucket : TokenBucket) (nowMs : ℕ) :
    TokenBucket × Bool :=
  if refillRate ≤ 0 then (bucket, true)
  else if burst ≤ 0 then (bucket, false)
  else
    let filled := bucket.refill refillRate.toNat (burst.toNat * rateTokenUnits) nowMs
    if filled.tokens < rateTokenUnits then (filled, false)
    else ({ filled with tokens := filled.tokens - rateTokenUnits }, true)

variable (server : SourceServer)

section Inactive

def SourceServer.update (key : SourceKey) (f : SourceState → SourceState) : SourceServer :=
  match server.sourceStates.lookup key with
  | none => server
  | some source => { server with sourceStates := server.sourceStates.insert key (f source) }

/-- `unlink_inactive_source_locked`. -/
def unlinkInactiveSource (key : SourceKey) : SourceServer :=
  match server.sourceStates.lookup key with
  | none => server
  | some source =>
    if !source.inactiveLinked then server
    else
      let server :=
        match source.inactivePrev with
        | some prev => server.update prev (fun s => { s with inactiveNext := source.inactiveNext })
        | none => { server with inactiveSourcesHead := source.inactiveNext }
      let server :=
        match source.inactiveNext with
        | some next => server.update next (fun s => { s with inactivePrev := source.inactivePrev })
        | none => { server with inactiveSourcesTail := source.inactivePrev }
      server.update key (fun s =>
        { s with inactivePrev := none, inactiveNext := none, inactiveLinked := false })

/-- `link_inactive_source_locked`. -/
def linkInactiveSource (key : SourceKey) (nowMs : ℕ) : SourceServer :=
  match server.sourceStates.lookup key with
  | none => server
  | some source =>
    if source.activeConnections ≠ 0 then server
    else
      let server := unlinkInactiveSource server key
      let tail := server.inactiveSourcesTail
      let server := server.update key (fun s =>
        { s with lastSeenMs := nowMs, inactivePrev := tail })
      let server :=
        match tail with
        | some last => server.update last (fun s => { s with inactiveNext := some key })
        | none => { server with inactiveSourcesHead := some key }
      let server := { server with inactiveSourcesTail := some key }
      server.update key (fun s => { s with inactiveLinked := true })

/-- The loop of `expire_source_states_locked`, at most as often as there are states. -/
def expireLoop (nowMs : ℕ) : ℕ → SourceServer → SourceServer
  | 0, server => server
  | fuel + 1, server =>
    match server.inactiveSourcesHead with
    | none => server
    | some key =>
      match server.sourceStates.lookup key with
      | none => server
      | some source =>
        if nowMs < source.lastSeenMs ∨
            nowMs - source.lastSeenMs < server.config.sourceStateTtlMs.toNat then
          server
        else
          let server := unlinkInactiveSource server key
          expireLoop nowMs fuel
            { server with sourceStates := server.sourceStates.erase key }

/-- `expire_source_states_locked`. -/
def expireSourceStates (nowMs : ℕ) : SourceServer :=
  if server.config.sourceStateTtlMs ≤ 0 then server
  else expireLoop nowMs server.sourceStates.keys.length server

end Inactive

section Admission

/-- `source_state_get_or_create_locked`; `memory` says whether the new state can be allocated
and put into the map. -/
def getOrCreateSource (key : SourceKey) (nowMs : ℕ) (memory : Bool) :
    SourceServer × AdmissionResult :=
  if (server.sourceStates.lookup key).isSome then (server, .admitted)
  else
    let server := expireSourceStates server nowMs
    if server.config.maxSourceStates ≤ server.sourceStates.keys.length then
      (server, .rejectCapacity)
    else if !memory then (server, .rejectMemory)
    else ({ server with sourceStates := server.sourceStates.insert key SourceState.new }, .admitted)

def SourceState.bucket (source : SourceState) : TokenBucket :=
  ⟨source.rateLastRefillMs, source.rateTokens⟩

variable (key : SourceKey)

/-- The part of `pre_admit_source_locked` that has found the source. -/
def admitSource (source : SourceState) (nowMs : ℕ) :
    SourceServer × AdmissionResult :=
  let (bucket, granted) := consumeTokenBucket server.config.sourceAdmissionsPerSecond
    server.config.sourceAdmissionBurst source.bucket nowMs
  let server := server.update key (fun s =>
    { s with
      lastSeenMs := nowMs
      rateLastRefillMs := bucket.lastRefillMs
      rateTokens := bucket.tokens })
  if !granted then
    (if source.activeConnections = 0 then linkInactiveSource server key nowMs else server,
      .rejectRate)
  else if 0 < server.config.maxConnectionsPerSource ∧
      server.config.maxConnectionsPerSource.toNat ≤ source.activeConnections then
    (server, .rejectConcurrency)
  else
    (if source.activeConnections = 0 then linkInactiveSource server key nowMs else server,
      .admitted)

/-- `pre_admit_source_locked`. -/
def preAdmitSource (nowMs : ℕ) (memory : Bool) :
    SourceServer × AdmissionResult :=
  if !server.config.policyEnabled then (server, .admitted)
  else
    let (server, result) := getOrCreateSource server key nowMs memory
    if result ≠ .admitted then (server, result)
    else
      match server.sourceStates.lookup key with
      | none => (server, result)
      | some source => admitSource server key source nowMs

/-- `bind_source_connection_locked`. -/
def bindSourceConnection (nowMs : ℕ) : SourceServer × AdmissionResult :=
  if !server.config.policyEnabled then (server, .admitted)
  else
    match server.sourceStates.lookup key with
    | none => (server, .rejectCapacity)
    | some source =>
      if 0 < server.config.maxConnectionsPerSource ∧
          server.config.maxConnectionsPerSource.toNat ≤ source.activeConnections then
        (server, .rejectConcurrency)
      else
        ((unlinkInactiveSource server key).update key (fun s =>
          { s with lastSeenMs := nowMs, activeConnections := s.activeConnections + 1 }),
          .admitted)

/-- `release_source_key_locked`. -/
def releaseSourceKey (nowMs : ℕ) : SourceServer :=
  match server.sourceStates.lookup key with
  | none => server
  | some source =>
    if 0 < source.activeConnections then
      let server := server.update key (fun s =>
        { s with activeConnections := s.activeConnections - 1, lastSeenMs := nowMs })
      if source.activeConnections - 1 = 0 then linkInactiveSource server key nowMs
      else server
    else server

/-- `release_source_locked`. -/
def releaseSource (peer : SourcePeer) (nowMs : ℕ) : SourceServer :=
  if !peer.sourceAdmitted then server else releaseSourceKey server peer.sourceKey nowMs

end Admission

/-- `signaling_identity_rejection_http_status`. -/
def IdentityRejection.httpStatus : IdentityRejection → ℕ
  | untrustedProxy => 403
  | invalid => 400

/-- `signaling_source_rejection_http_status`. -/
def AdmissionResult.httpStatus : AdmissionResult → ℕ
  | rejectRate | rejectConcurrency => 429
  | rejectAddress => 400
  | _ => 503

/-- What fails when a WebSocket is opened. -/
inductive OpenFault where
  | none
  | peer
  | id
  | entry

/-- The calls on a server; a key is what `signaling_source_key_from_request` makes of a
request, and the times are what the clock says when it is read. -/
inductive SourceOp where
  | setRunning (running : Bool)
  | admission (key : Except IdentityRejection SourceKey) (nowMs : ℕ) (memory : Bool)
  | open (session : Session) (key : Except IdentityRejection SourceKey) (bindMs laterMs : ℕ)
      (fault : OpenFault)
  | close (session : Session) (nowMs : ℕ)
  | dropFirst (nowMs : ℕ)
  | cleanup (nowMs : ℕ)

/-- What they answer. -/
inductive SourceAnswer where
  | silent
  | admission (statusCode retryAfterSeconds : ℕ)
  | opened
  | reply (statusCode : ℕ)
  | noMemory

/-- `signaling_http_admission`. -/
def httpAdmission (key : Except IdentityRejection SourceKey) (nowMs : ℕ) (memory : Bool) :
    SourceServer × SourceAnswer :=
  if !server.config.policyEnabled then (server, .admission 0 0)
  else
    match key with
    | .error rejection => (server, .admission rejection.httpStatus 0)
    | .ok key =>
      if !server.running then (server, .admission 503 0)
      else
        let (server, result) := preAdmitSource server key nowMs memory
        if result ≠ .admitted then
          (server, .admission result.httpStatus
            (if result = .rejectRate ∨ result = .rejectConcurrency then 1 else 0))
        else (server, .admission 0 0)

/-- The rest of `signaling_websocket_open` once the source has been bound. -/
def openPeer (session : Session) (key : SourceKey) (laterMs : ℕ) (fault : OpenFault) :
    SourceServer × SourceAnswer :=
  let peer : SourcePeer := ⟨session, key, server.config.policyEnabled⟩
  match fault with
  | .peer =>
    (if server.config.policyEnabled then releaseSourceKey server key laterMs else server,
      .noMemory)
  | .id | .entry => (releaseSource server peer laterMs, .noMemory)
  | .none => ({ server with peers := server.peers ++ [peer] }, .opened)

/-- `signaling_websocket_open`. -/
def websocketOpen (session : Session) (key : Except IdentityRejection SourceKey)
    (bindMs laterMs : ℕ) (fault : OpenFault) : SourceServer × SourceAnswer :=
  if !server.config.policyEnabled then
    if !server.running then (server, .reply 503)
    else openPeer server session ⟨0, List.replicate 16 0, 0⟩ laterMs fault
  else
    match key with
    | .error rejection => (server, .reply rejection.httpStatus)
    | .ok key =>
      if !server.running then (server, .reply 503)
      else
        let (server, result) := bindSourceConnection server key bindMs
        if result ≠ .admitted then (server, .reply result.httpStatus)
        else openPeer server session key laterMs fault

/-- `remove_peer_locked` for the first peer that satisfies `which`, if there is one. -/
def removePeer (which : SourcePeer → Bool) (nowMs : ℕ) : SourceServer :=
  match server.peers.find? which with
  | none => server
  | some peer => releaseSource { server with peers := server.peers.eraseP which } peer nowMs

def SourceServer.step (op : SourceOp) : SourceServer × SourceAnswer :=
  match op with
  | .setRunning running => ({ server with running := running }, .silent)
  | .admission key nowMs memory => httpAdmission server key nowMs memory
  | .open session key bindMs laterMs fault => websocketOpen server session key bindMs laterMs fault
  | .close session nowMs => (removePeer server (fun peer => peer.session == session) nowMs, .silent)
  | .dropFirst nowMs => (removePeer server (fun _ => true) nowMs, .silent)
  | .cleanup nowMs => (expireSourceStates server nowMs, .silent)

def sourceMachine : Machine SourceServer SourceOp SourceAnswer where
  step := SourceServer.step

def SourceOp.times : SourceOp → List ℕ
  | setRunning _ => []
  | admission _ nowMs _ => [nowMs]
  | .open _ _ bindMs laterMs _ => [bindMs, laterMs]
  | close _ nowMs => [nowMs]
  | dropFirst nowMs => [nowMs]
  | cleanup nowMs => [nowMs]

end TurboMedia.Signaling
