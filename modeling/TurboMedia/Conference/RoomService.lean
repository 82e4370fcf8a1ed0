import TurboMedia.Security.ControlPlaneVersion

/-!
# Room service

Model of the room part of `turbo_room_service.c`: rooms with their participants, tracks,
subscriptions, speaker and pin, the call-center side of a room, and the table of agent
states.

**Input.**  Identifiers are the bytes before the terminating zero; a null pointer is
`none` where the source tells it from a string.  A string that has passed `string_fits`
is stored as it is.  Memory is allocated.

**Method.**  A call that names a room is a function of that room and of the agent states
(`RoomCall.apply`); the service looks the room up and puts the answer back.  Loops that
remove entries from behind are filters, and the two nested loops of the reconciliations are
one fold over the pairs in their order.
-/

namespace TurboMedia.Conference

/-- `turbo_participant_role_t`, and the values outside the enumeration. -/
inductive ParticipantRole where
  | host
  | cohost
  | guest
  | audience
  | customer
  | agent
  | supervisor
  | qaObserver
  | bot
  | other (value : ℤ)
deriving DecidableEq

/-- `turbo_room_status_t`. -/
inductive RoomStatus where
  | open
  | active
  | closing
  | closed
deriving DecidableEq

/-- `turbo_room_track_kind_t`, and the values outside the enumeration. -/
inductive TrackKind where
  | audio
  | video
  | other (value : ℤ)
deriving DecidableEq

/-- `turbo_room_track_source_t`, and the values outside the enumeration. -/
inductive TrackSource where
  | mic
  | camera
  | screen
  | other (value : ℤ)
deriving DecidableEq

/-- `turbo_room_video_layer_t`, and the values outside the enumeration. -/
inductive VideoLayer where
  | none
  | low
  | medium
  | high
  | other (value : ℤ)
deriving DecidableEq

/-- `turbo_room_recording_state_t`. -/
inductive RecordingState where
  | stopped
  | starting
  | active
  | stopping
  | failed
deriving DecidableEq

/-- `turbo_room_layout_mode_t`, and the values outside the enumeration. -/
inductive LayoutMode where
  | grid
  | speaker
  | other (value : ℤ)
deriving DecidableEq

/-- `turbo_call_center_supervisor_mode_t`. -/
inductive SupervisorMode where
  | none
  | monitor
  | whisper
  | barge
deriving DecidableEq

/-- `turbo_call_center_agent_state_t`. -/
inductive AgentState where
  | available
  | reserved
  | busy
  | offline
  | wrapUp
deriving DecidableEq

/-- `turbo_call_center_room_state_t`. -/
inductive CallCenterState where
  | none
  | active
  | wrapUp
  | completed
deriving DecidableEq

/-- `room_participant_t`. -/
structure RoomParticipant where
  participantId : CStr
  callGeneration : UInt64
  userId : CStr
  displayName : CStr
  role : ParticipantRole
  sessionState : ℤ
  bandwidthBps : ℤ
  hasExplicitBandwidth : Bool
  version : ℤ
deriving DecidableEq

/-- `room_track_t`. -/
structure RoomTrack where
  trackId : CStr
  ownerParticipantId : CStr
  kind : TrackKind
  source : TrackSource
  codecName : CStr
  simulcastEnabled : Bool
  muted : Bool
  mainSsrc : UInt32
  layerSsrcs : List UInt32
  version : ℤ
deriving DecidableEq

/-- `room_subscription_t`. -/
structure RoomSubscription where
  subscriberParticipantId : CStr
  trackId : CStr
  enabled : Bool
  priority : ℤ
  preferredLayer : VideoLayer
  targetLayer : VideoLayer
  muted : Bool
  policySource : CStr
  version : ℤ
deriving DecidableEq

/-- `call_center_agent_state_entry_t`. -/
structure AgentStateEntry where
  endpointId : CStr
  state : AgentState
  version : ℤ
deriving DecidableEq

/-- `room_entry_t`. -/
structure Room where
  roomId : CStr
  roomGeneration : UInt64
  roomType : ℤ
  status : RoomStatus
  assignedSfuNode : CStr
  recordingState : RecordingState
  layoutMode : LayoutMode
  activeSpeakerParticipantId : CStr
  pinnedParticipantId : CStr
  recordingId : CStr
  recordingMode : CStr
  callCenterState : CallCenterState
  callCenterCustomerParticipantId : CStr
  callCenterAgentParticipantId : CStr
  callCenterConsultAgentParticipantId : CStr
  callCenterDispositionCode : CStr
  callCenterVersion : ℤ
  version : ℤ
  participants : List RoomParticipant
  tracks : List RoomTrack
  subscriptions : List RoomSubscription
deriving DecidableEq

/-- The part of `turbo_room_service_s` that the calls on rooms read. -/
structure RoomService where
  rooms : List Room
  agentStates : List AgentStateEntry
deriving DecidableEq

/-- `turbo_room_config_t`. -/
structure RoomConfig where
  roomId : Option CStr
  roomGeneration : UInt64
  roomType : ℤ

/-- `turbo_room_participant_config_t`. -/
structure ParticipantConfig where
  participantId : Option CStr
  callGeneration : UInt64
  userId : Option CStr
  displayName : Option CStr
  role : ParticipantRole

/-- `turbo_room_track_config_t`. -/
structure TrackConfig where
  trackId : Option CStr
  ownerParticipantId : Option CStr
  kind : TrackKind
  source : TrackSource
  codecName : Option CStr
  simulcastEnabled : Bool
  mainSsrc : UInt32
  layerSsrcs : List UInt32

/-- `turbo_room_subscription_config_t`. -/
structure SubscriptionConfig where
  subscriberParticipantId : Option CStr
  trackId : Option CStr
  enabled : Bool
  priority : ℤ
  preferredLayer : VideoLayer
  targetLayer : VideoLayer
  muted : Bool
  policySource : Option CStr

/-- `TURBO_ROOM_ID_MAX`, `TURBO_PARTICIPANT_ID_MAX` and the other sizes. -/
def roomIdMax : ℕ := 64
def participantIdMax : ℕ := 64
def trackIdMax : ℕ := 64
def userIdMax : ℕ := 64
def displayNameMax : ℕ := 128
def nodeIdMax : ℕ := 64
def codecNameMax : ℕ := 32
def policySourceMax : ℕ := 32
def recordingIdMax : ℕ := 64
def recordingModeMax : ℕ := 32
def callCenterDispositionCodeMax : ℕ := 64

/-- `string_fits`. -/
def stringFits (value : Option CStr) (capacity : ℕ) (allowEmpty : Bool) : Bool :=
  match value with
  | none => allowEmpty
  | some bytes => decide (bytes.length < capacity) && (allowEmpty || decide (bytes ≠ []))

def literal (s : String) : CStr :=
  s.toList.map (fun c => UInt8.ofNat c.toNat)

/-- `find_participant`. -/
def Room.findParticipant (room : Room) (participantId : CStr) : Option RoomParticipant :=
  room.participants.find? (fun p => p.participantId == participantId)

/-- `find_track`. -/
def Room.findTrack (room : Room) (trackId : CStr) : Option RoomTrack :=
  room.tracks.find? (fun t => t.trackId == trackId)

/-- Position of `find_track`. -/
def Room.findTrackIndex (room : Room) (trackId : CStr) : Option ℕ :=
  room.tracks.findIdx? (fun t => t.trackId == trackId)

/-- Position of `find_subscription`. -/
def Room.findSubscription (room : Room) (subscriber trackId : CStr) : Option ℕ :=
  room.subscriptions.findIdx?
    (fun s => s.subscriberParticipantId == subscriber && s.trackId == trackId)

variable (agents : List AgentStateEntry)

variable (endpointId : CStr)

/-- `find_call_center_agent_state_entry_locked`, as a position. -/
def findAgentState : Option ℕ :=
  if endpointId = [] then none
  else agents.findIdx? (fun e => e.endpointId == endpointId)

/-- `get_call_center_agent_effective_state_locked`. -/
def agentEffectiveState : AgentState :=
  if endpointId = [] then .offline
  else
    ((agents.find? (fun e => e.endpointId == endpointId)).map AgentStateEntry.state).getD
      .available

/-- `set_call_center_agent_state_locked`; `none` is `-1`. -/
def setAgentState (state : AgentState) :
    Option (List AgentStateEntry) :=
  if endpointId = [] then none
  else
    match findAgentState agents endpointId with
    | none => some (agents ++ [⟨endpointId, state, 1⟩])
    | some i =>
      some (agents.modify i (fun e =>
        if e.state = state then e else { e with state := state, version := e.version + 1 }))

/-- A call of `set_call_center_agent_state_locked` whose answer is not looked at. -/
def trySetAgentState (state : AgentState) :
    List AgentStateEntry :=
  (setAgentState agents endpointId state).getD agents

/-- A call that is made only for an id that is present. -/
def setPresentAgentState
    (state : AgentState) : Option (List AgentStateEntry) :=
  if endpointId = [] then some agents else setAgentState agents endpointId state

/-- `room_bump_version`. -/
def Room.bumpVersion (room : Room) : Room :=
  { room with version := room.version + 1 }

/-- `room_bump_call_center_version`. -/
def Room.bumpCallCenterVersion (room : Room) : Room :=
  { room with
    callCenterVersion := room.callCenterVersion + 1
    version := room.version + 1 }

/-- `update_room_activity`. -/
def Room.updateActivity (room : Room) : Room :=
  if room.status = .closed ∨ room.status = .closing then room
  else { room with status := if room.participants = [] then .open else .active }

/-- `set_subscription_fields`, with the flag that something changed. -/
def RoomSubscription.setFields (subscription : RoomSubscription) (enabled : Bool)
    (priority : ℤ) (preferredLayer targetLayer : VideoLayer) (muted : Bool)
    (policySource : CStr) : RoomSubscription × Bool :=
  let updated : RoomSubscription :=
    { subscription with
      enabled := enabled
      priority := priority
      preferredLayer := preferredLayer
      targetLayer := targetLayer
      muted := muted
      policySource := policySource }
  if updated = subscription then (subscription, false)
  else ({ updated with version := subscription.version + 1 }, true)

/-- `ensure_subscription`: the room and the position of the subscription. -/
def Room.ensureSubscription (room : Room) (subscriber trackId : CStr) : Room × ℕ :=
  match room.findSubscription subscriber trackId with
  | some i => (room, i)
  | none =>
    ({ room with
      subscriptions := room.subscriptions ++
        [⟨subscriber, trackId, false, 0, .none, .none, false, [], 1⟩] },
      room.subscriptions.length)

/-- What a policy decides about a subscription. -/
structure SubscriptionPolicy where
  enabled : Bool
  priority : ℤ
  layer : VideoLayer
  policySource : CStr

/-- `derive_video_subscription`. -/
def Room.deriveVideoSubscription (room : Room) (track : RoomTrack) : SubscriptionPolicy :=
  if track.muted then ⟨false, 25, .none, literal "layout_muted"⟩
  else if track.source = .screen then ⟨true, 100, .high, literal "layout_screenshare"⟩
  else if room.pinnedParticipantId ≠ [] ∧
      room.pinnedParticipantId = track.ownerParticipantId then
    ⟨true, 95, .high, literal "layout_pin"⟩
  else if room.activeSpeakerParticipantId ≠ [] ∧
      room.activeSpeakerParticipantId = track.ownerParticipantId then
    if room.layoutMode = .grid then ⟨true, 80, .medium, literal "layout_grid"⟩
    else ⟨true, 80, .high, literal "layout_speaker"⟩
  else if room.layoutMode = .grid then ⟨true, 40, .low, literal "layout_grid"⟩
  else ⟨true, 25, .low, literal "layout_speaker"⟩

/-- `derive_call_center_subscription`. -/
def deriveCallCenterSubscription (track : RoomTrack) (basePolicySource : CStr) :
    SubscriptionPolicy :=
  if track.muted then ⟨false, 0, .none, literal "call_center_muted"⟩
  else if track.kind = .audio then ⟨true, 100, .none, basePolicySource⟩
  else if track.source = .screen then ⟨true, 95, .high, literal "call_center_screenshare"⟩
  else ⟨true, 40, .low, basePolicySource⟩

/-- The policy is written to the subscription at a position. -/
def Room.applyPolicy (room : Room) (i : ℕ) (policy : SubscriptionPolicy) : Room × Bool :=
  match room.subscriptions[i]? with
  | none => (room, false)
  | some subscription =>
    let answer := subscription.setFields policy.enabled policy.priority policy.layer
      policy.layer (!policy.enabled) policy.policySource
    ({ room with subscriptions := room.subscriptions.set i answer.1 }, answer.2)

section CallCenterPolicy

variable (room : Room)

/-- `is_call_center_primary_role`. -/
def ParticipantRole.isPrimary (role : ParticipantRole) : Bool :=
  role = .customer || role = .agent

variable (p : RoomParticipant)

/-- `is_call_center_customer_participant`. -/
def Room.isCustomer : Bool :=
  decide (room.callCenterCustomerParticipantId ≠ [] ∧ p.participantId ≠ [] ∧
    room.callCenterCustomerParticipantId = p.participantId)

/-- `is_call_center_primary_agent_participant`. -/
def Room.isPrimaryAgent : Bool :=
  decide (room.callCenterAgentParticipantId ≠ [] ∧ p.participantId ≠ [] ∧
    room.callCenterAgentParticipantId = p.participantId)

/-- `is_call_center_consult_agent_participant`. -/
def Room.isConsultAgent : Bool :=
  decide (room.callCenterConsultAgentParticipantId ≠ [] ∧ p.participantId ≠ [] ∧
    room.callCenterConsultAgentParticipantId = p.participantId)

/-- `is_call_center_engaged_agent_participant`. -/
def Room.isEngagedAgent : Bool :=
  room.isPrimaryAgent p || room.isConsultAgent p

/-- `is_call_center_primary_endpoint`. -/
def Room.isPrimaryEndpoint : Bool :=
  room.isCustomer p || room.isPrimaryAgent p

/-- `is_call_center_observable_participant`. -/
def Room.isObservable : Bool :=
  room.isCustomer p || room.isEngagedAgent p

/-- `room_has_call_center_topology`. -/
def Room.hasCallCenterTopology : Bool :=
  decide (room.callCenterCustomerParticipantId ≠ [] ∧ room.callCenterAgentParticipantId ≠ [])

/-- The first part of `call_center_subscription_allowed`: the room knows its customer and
its agent. -/
def Room.topologyPolicy (subscriber owner : RoomParticipant) (track : RoomTrack)
    (mode : SupervisorMode) : Option CStr :=
  if room.isPrimaryEndpoint subscriber && room.isPrimaryEndpoint owner then
    some (literal "call_center_call")
  else if room.callCenterConsultAgentParticipantId ≠ [] ∧ room.isCustomer subscriber ∧
      room.isConsultAgent owner then
    none
  else if room.callCenterConsultAgentParticipantId ≠ [] ∧ room.isPrimaryAgent subscriber ∧
      room.isConsultAgent owner then
    some (literal "call_center_consult")
  else if room.callCenterConsultAgentParticipantId ≠ [] ∧ room.isConsultAgent subscriber ∧
      (room.isPrimaryAgent owner ∨ room.isCustomer owner) then
    some (literal "call_center_consult")
  else if subscriber.role = .supervisor ∧ room.isObservable owner ∧ mode ≠ .none then
    some (literal "call_center_monitor")
  else if (subscriber.role = .qaObserver ∨ subscriber.role = .bot) ∧ room.isObservable owner then
    some (literal "call_center_observe")
  else if owner.role = .supervisor ∧ room.isEngagedAgent subscriber ∧ mode = .whisper ∧
      track.kind = .audio then
    some (literal "call_center_whisper")
  else if owner.role = .supervisor ∧ room.isObservable subscriber ∧ mode = .barge then
    some (literal "call_center_barge")
  else none

/-- The second part of `call_center_subscription_allowed`: roles alone decide. -/
def rolePolicy (subscriber owner : RoomParticipant) (track : RoomTrack)
    (mode : SupervisorMode) : Option CStr :=
  if subscriber.role.isPrimary && owner.role.isPrimary then some (literal "call_center_call")
  else if subscriber.role = .supervisor ∧ owner.role.isPrimary ∧ mode ≠ .none then
    some (literal "call_center_monitor")
  else if (subscriber.role = .qaObserver ∨ subscriber.role = .bot) ∧ owner.role.isPrimary then
    some (literal "call_center_observe")
  else if owner.role = .supervisor ∧ subscriber.role = .agent ∧ mode = .whisper ∧
      track.kind = .audio then
    some (literal "call_center_whisper")
  else if owner.role = .supervisor ∧ subscriber.role.isPrimary ∧ mode = .barge then
    some (literal "call_center_barge")
  else none

/-- `call_center_subscription_allowed`: the policy's name when it is allowed. -/
def Room.callCenterSubscriptionAllowed (subscriber : RoomParticipant)
    (owner : Option RoomParticipant) (track : RoomTrack) (mode : SupervisorMode) : Option CStr :=
  match owner with
  | none => none
  | some owner =>
    if subscriber.participantId = owner.participantId then none
    else if room.hasCallCenterTopology then room.topologyPolicy subscriber owner track mode
    else rolePolicy subscriber owner track mode

end CallCenterPolicy

variable (room : Room) (agents : List AgentStateEntry)

section RoomCalls

/-- What a call makes of its room and of the agent states; `ok` is the return value `0`. -/
structure RoomAnswer where
  room : Room
  agents : List AgentStateEntry
  ok : Bool

/-- The call returns `-1` and has changed nothing. -/
def refused : RoomAnswer :=
  ⟨room, agents, false⟩

/-- `turbo_room_service_close_room`. -/
def closeRoom : RoomAnswer :=
  if room.callCenterState = .active then
    match setPresentAgentState agents room.callCenterAgentParticipantId .available with
    | none => refused room agents
    | some agents1 =>
      match setPresentAgentState agents1 room.callCenterConsultAgentParticipantId
          .available with
      | none => refused room agents1
      | some agents2 =>
        ⟨{ room.bumpCallCenterVersion.bumpVersion with
          callCenterState := .completed
          status := .closed }, agents2, true⟩
  else ⟨{ room.bumpVersion with status := .closed }, agents, true⟩

/-- `turbo_room_service_assign_sfu_node`. -/
def assignSfuNode (nodeId : Option CStr) : RoomAnswer :=
  if stringFits nodeId nodeIdMax false then
    ⟨{ room.bumpVersion with assignedSfuNode := nodeId.getD [] }, agents, true⟩
  else refused room agents

/-- `turbo_room_service_add_participant`. -/
def addParticipant (config : ParticipantConfig) : RoomAnswer :=
  if stringFits config.participantId participantIdMax false &&
      stringFits config.userId userIdMax true &&
      stringFits config.displayName displayNameMax true then
    match room.findParticipant (config.participantId.getD []) with
    | some _ => refused room agents
    | none =>
      let joined : RoomParticipant :=
        { participantId := config.participantId.getD []
          callGeneration := config.callGeneration
          userId := config.userId.getD []
          displayName := config.displayName.getD []
          role := config.role
          sessionState := 1
          bandwidthBps := 0
          hasExplicitBandwidth := false
          version := 1 }
      ⟨({ room with participants := room.participants ++ [joined] }).updateActivity.bumpVersion,
        agents, true⟩
  else refused room agents

variable (participantId : CStr)

/-- The customer or the agent of a call that has not ended leaves. -/
def Room.losesEndpoint : Bool :=
  decide ((room.callCenterCustomerParticipantId = participantId ∨
    room.callCenterAgentParticipantId = participantId) ∧
    room.callCenterState ≠ .none ∧ room.callCenterState ≠ .completed)

/-- The first part of `turbo_room_service_remove_participant`: the call-center side of the
room. -/
def leaveCallCenter : Room :=
  if room.losesEndpoint participantId then
    { room with
      callCenterState := .completed
      callCenterCustomerParticipantId := []
      callCenterAgentParticipantId := []
      callCenterConsultAgentParticipantId := [] }
  else if room.callCenterConsultAgentParticipantId = participantId then
    { room with callCenterConsultAgentParticipantId := [] }
  else room

/-- The agent state of a consulting agent that leaves an active call. -/
def releaseConsult : List AgentStateEntry :=
  if room.callCenterConsultAgentParticipantId = participantId ∧
      room.callCenterState = .active then
    trySetAgentState agents participantId .available
  else agents

/-- The agent states when an endpoint of the call leaves. -/
def releaseEndpoints : List AgentStateEntry :=
  if room.losesEndpoint participantId then
    let agents1 := trySetAgentState agents room.callCenterAgentParticipantId .available
    if room.callCenterConsultAgentParticipantId ≠ room.callCenterAgentParticipantId then
      trySetAgentState agents1 room.callCenterConsultAgentParticipantId .available
    else agents1
  else agents

/-- The first part of `turbo_room_service_remove_participant`: the agent states. -/
def leaveAgentStates : List AgentStateEntry :=
  releaseEndpoints room (releaseConsult room agents participantId) participantId

/-- The subscriptions of a participant and those on its tracks. -/
def Room.concerns (subscription : RoomSubscription) : Bool :=
  subscription.subscriberParticipantId == participantId ||
    ((room.findTrack subscription.trackId).map
      (fun t => t.ownerParticipantId == participantId)).getD false

/-- The second part of `turbo_room_service_remove_participant`: subscriptions and tracks. -/
def Room.dropMedia : Room :=
  { room with
    subscriptions := room.subscriptions.filter (fun s => !room.concerns participantId s)
    tracks := room.tracks.filter (fun t => t.ownerParticipantId != participantId) }

/-- `turbo_room_service_remove_participant`. -/
def removeParticipant : RoomAnswer :=
  let released := leaveAgentStates room agents participantId
  let dropped := (leaveCallCenter room participantId).dropMedia participantId
  match dropped.findParticipant participantId with
  | none => ⟨dropped, released, false⟩
  | some _ =>
    let participants :=
      dropped.participants.eraseP (fun p => p.participantId == participantId)
    ⟨({ dropped with participants := participants }).updateActivity.bumpVersion, released, true⟩

def onParticipant (change : RoomParticipant → RoomParticipant) :
    RoomAnswer :=
  match room.participants.findIdx? (fun p => p.participantId == participantId) with
  | none => refused room agents
  | some i =>
    ⟨({ room with participants := room.participants.modify i change }).bumpVersion, agents, true⟩

/-- `turbo_room_service_set_participant_session_state`. -/
def setParticipantSessionState (sessionState : ℤ) : RoomAnswer :=
  if sessionState = 0 then refused room agents
  else
    onParticipant room agents participantId
      (fun p => { p with sessionState := sessionState, version := p.version + 1 })

/-- `turbo_room_service_set_participant_bandwidth`. -/
def setParticipantBandwidth (bandwidthBps : ℤ) : RoomAnswer :=
  if bandwidthBps < 0 then refused room agents
  else
    onParticipant room agents participantId
      (fun p => { p with
        bandwidthBps := bandwidthBps
        hasExplicitBandwidth := true
        version := p.version + 1 })

/-- `role_can_publish`. -/
def ParticipantRole.canPublish (role : ParticipantRole) : Bool :=
  role ≠ .qaObserver

/-- The participant is there and may publish. -/
def Room.canPublish (participantId : CStr) : Bool :=
  ((room.findParticipant participantId).map (fun p => p.role.canPublish)).getD false

def TrackConfig.fits (config : TrackConfig) : Bool :=
  stringFits config.trackId trackIdMax false &&
    stringFits config.ownerParticipantId participantIdMax false &&
    stringFits config.codecName codecNameMax true

/-- The track that a configuration describes. -/
def TrackConfig.fill (config : TrackConfig) (track : RoomTrack) : RoomTrack :=
  { track with
    ownerParticipantId := config.ownerParticipantId.getD []
    kind := config.kind
    source := config.source
    codecName := config.codecName.getD []
    simulcastEnabled := config.simulcastEnabled
    mainSsrc := config.mainSsrc
    layerSsrcs := config.layerSsrcs.take 3
    version := track.version + 1 }

/-- The zeroed entry that a new track starts from. -/
def newTrack (trackId : CStr) : RoomTrack :=
  ⟨trackId, [], .other 0, .other 0, [], false, false, 0, [], 0⟩

/-- `turbo_room_service_publish_track`. -/
def publishTrack (config : TrackConfig) : RoomAnswer :=
  if config.fits && room.canPublish (config.ownerParticipantId.getD []) then
    match room.findTrackIndex (config.trackId.getD []) with
    | some i =>
      ⟨({ room with tracks := room.tracks.modify i config.fill }).bumpVersion, agents, true⟩
    | none =>
      let published := config.fill (newTrack (config.trackId.getD []))
      ⟨({ room with tracks := room.tracks ++ [published] }).bumpVersion, agents, true⟩
  else refused room agents

/-- `turbo_room_service_unpublish_track`. -/
def unpublishTrack (trackId : CStr) : RoomAnswer :=
  let dropped : Room :=
    { room with subscriptions := room.subscriptions.filter (fun s => s.trackId != trackId) }
  match room.findTrack trackId with
  | none => ⟨dropped, agents, false⟩
  | some _ =>
    let tracks := room.tracks.eraseP (fun t => t.trackId == trackId)
    ⟨({ dropped with tracks := tracks }).bumpVersion, agents, true⟩

def RoomTrack.mute (track : RoomTrack) (muted : Bool) : RoomTrack :=
  { track with muted := muted, version := track.version + 1 }

/-- `turbo_room_service_set_track_muted`. -/
def setTrackMuted (trackId : CStr) (muted : Bool) : RoomAnswer :=
  match room.findTrackIndex trackId with
  | none => refused room agents
  | some i =>
    let tracks := room.tracks.modify i (fun t => t.mute muted)
    ⟨({ room with tracks := tracks }).bumpVersion, agents, true⟩

/-- The checks of the strings of a subscription. -/
def SubscriptionConfig.fits (config : SubscriptionConfig) : Bool :=
  stringFits config.subscriberParticipantId participantIdMax false &&
    stringFits config.trackId trackIdMax false &&
    stringFits config.policySource policySourceMax true

/-- The subscription that a configuration describes. -/
def SubscriptionConfig.fill (config : SubscriptionConfig) (subscription : RoomSubscription) :
    RoomSubscription :=
  { subscription with
    enabled := config.enabled
    priority := config.priority
    preferredLayer := config.preferredLayer
    targetLayer := config.targetLayer
    muted := config.muted
    policySource := config.policySource.getD []
    version := subscription.version + 1 }

/-- `turbo_room_service_set_subscription`. -/
def setSubscription (config : SubscriptionConfig) : RoomAnswer :=
  let subscriber := config.subscriberParticipantId.getD []
  let trackId := config.trackId.getD []
  if config.fits && (room.findParticipant subscriber).isSome &&
      (room.findTrack trackId).isSome then
    match room.findSubscription subscriber trackId with
    | some i =>
      ⟨({ room with subscriptions := room.subscriptions.modify i config.fill }).bumpVersion,
        agents, true⟩
    | none =>
      let subscription :=
        config.fill ⟨subscriber, trackId, false, 0, .none, .none, false, [], 0⟩
      ⟨({ room with subscriptions := room.subscriptions ++ [subscription] }).bumpVersion,
        agents, true⟩
  else refused room agents

/-- `turbo_room_service_remove_subscription`. -/
def removeSubscription (subscriber trackId : CStr) : RoomAnswer :=
  match room.findSubscription subscriber trackId with
  | none => refused room agents
  | some i =>
    ⟨({ room with subscriptions := room.subscriptions.eraseIdx i }).bumpVersion, agents, true⟩

/-- `turbo_room_service_start_recording`. -/
def startRecording (recordingId mode : Option CStr) : RoomAnswer :=
  if stringFits recordingId recordingIdMax false && stringFits mode recordingModeMax false &&
      room.recordingState ≠ .active && room.recordingState ≠ .starting then
    ⟨{ room.bumpVersion with
      recordingState := .active
      recordingId := recordingId.getD []
      recordingMode := mode.getD [] }, agents, true⟩
  else refused room agents

/-- `turbo_room_service_stop_recording`. -/
def stopRecording : RoomAnswer :=
  if room.recordingState = .active then
    ⟨{ room.bumpVersion with recordingState := .stopped }, agents, true⟩
  else refused room agents

/-- `turbo_room_service_set_layout_mode`. -/
def setLayoutMode (layoutMode : LayoutMode) : RoomAnswer :=
  if layoutMode = .other 0 then refused room agents
  else ⟨{ room.bumpVersion with layoutMode := layoutMode }, agents, true⟩

/-- An id that is absent, empty or that of a participant of the room. -/
def Room.canPoint (participantId : Option CStr) : Bool :=
  stringFits participantId participantIdMax true &&
    (participantId.getD [] = [] || (room.findParticipant (participantId.getD [])).isSome)

/-- `turbo_room_service_set_active_speaker`. -/
def setActiveSpeaker (participantId : Option CStr) : RoomAnswer :=
  if room.canPoint participantId then
    ⟨{ room.bumpVersion with activeSpeakerParticipantId := participantId.getD [] }, agents, true⟩
  else refused room agents

/-- `turbo_room_service_pin_participant`. -/
def pinParticipant (participantId : Option CStr) : RoomAnswer :=
  if room.canPoint participantId then
    ⟨{ room.bumpVersion with pinnedParticipantId := participantId.getD [] }, agents, true⟩
  else refused room agents

end RoomCalls

section Reconciliation

/-- One pair of the loops of `turbo_room_service_reconcile_subscriptions`. -/
def reconcilePair (acc : Room × Bool) (pair : RoomParticipant × RoomTrack) : Room × Bool :=
  if pair.1.participantId = pair.2.ownerParticipantId then acc
  else
    let ensured := acc.1.ensureSubscription pair.1.participantId pair.2.trackId
    match pair.2.kind with
    | .audio =>
      let answer := ensured.1.applyPolicy ensured.2
        ⟨!pair.2.muted, 100, .none, literal "layout_audio"⟩
      (answer.1, acc.2 || answer.2)
    | .video =>
      let answer := ensured.1.applyPolicy ensured.2 (acc.1.deriveVideoSubscription pair.2)
      (answer.1, acc.2 || answer.2)
    | .other _ => (ensured.1, acc.2)

/-- `turbo_room_service_reconcile_subscriptions`. -/
def reconcileSubscriptions : RoomAnswer :=
  let answer := (room.participants ×ˢ room.tracks).foldl reconcilePair (room, false)
  ⟨if answer.2 then answer.1.bumpVersion else answer.1, agents, true⟩

/-- A subscription that `turbo_room_service_reconcile_call_center_subscriptions` keeps. -/
def Room.stillAllowed (mode : SupervisorMode) (subscription : RoomSubscription) : Bool :=
  match room.findParticipant subscription.subscriberParticipantId,
      room.findTrack subscription.trackId with
  | some subscriber, some track =>
    (room.callCenterSubscriptionAllowed subscriber
      (room.findParticipant track.ownerParticipantId) track mode).isSome
  | _, _ => false

/-- One pair of the loops of
`turbo_room_service_reconcile_call_center_subscriptions`. -/
def reconcileCallCenterPair (mode : SupervisorMode) (acc : Room × Bool)
    (pair : RoomParticipant × RoomTrack) : Room × Bool :=
  match acc.1.callCenterSubscriptionAllowed pair.1
      (acc.1.findParticipant pair.2.ownerParticipantId) pair.2 mode with
  | none => acc
  | some policySource =>
    let ensured := acc.1.ensureSubscription pair.1.participantId pair.2.trackId
    let answer := ensured.1.applyPolicy ensured.2
      (deriveCallCenterSubscription pair.2 policySource)
    (answer.1, acc.2 || answer.2)

/-- `turbo_room_service_reconcile_call_center_subscriptions`. -/
def reconcileCallCenterSubscriptions (mode : SupervisorMode) : RoomAnswer :=
  let kept := room.subscriptions.filter (room.stillAllowed mode)
  let answer := (room.participants ×ˢ room.tracks).foldl (reconcileCallCenterPair mode)
    ({ room with subscriptions := kept }, decide (kept.length ≠ room.subscriptions.length))
  ⟨if answer.2 then answer.1.bumpVersion else answer.1, agents, true⟩

end Reconciliation

section CallCenter

/-- The participant is there and has the role. -/
def Room.hasRole (participantId : CStr) (role : ParticipantRole) : Bool :=
  ((room.findParticipant participantId).map (fun p => decide (p.role = role))).getD false

/-- The guards of `turbo_room_service_start_call_center_room`. -/
def Room.canStart (customer agent : Option CStr) : Bool :=
  stringFits customer participantIdMax false && stringFits agent participantIdMax false &&
    room.hasRole (customer.getD []) .customer && room.hasRole (agent.getD []) .agent

/-- `turbo_room_service_start_call_center_room`. -/
def startCallCenterRoom (customer agent : Option CStr) : RoomAnswer :=
  if room.canStart customer agent then
    match setAgentState agents (agent.getD []) .busy with
    | none => refused room agents
    | some agents1 =>
      ⟨{ room.bumpCallCenterVersion with
        callCenterState := .active
        callCenterCustomerParticipantId := customer.getD []
        callCenterAgentParticipantId := agent.getD []
        callCenterConsultAgentParticipantId := []
        callCenterDispositionCode := [] }, agents1, true⟩
  else refused room agents

/-- The guards of `turbo_room_service_set_call_center_consult_agent`. -/
def Room.canConsult (consultAgent : Option CStr) : Bool :=
  stringFits consultAgent participantIdMax false && room.callCenterState = .active &&
    decide (room.callCenterAgentParticipantId ≠ []) &&
    room.hasRole (consultAgent.getD []) .agent &&
    decide (room.callCenterAgentParticipantId ≠ consultAgent.getD [])

/-- The state of the agent consulted before, unless it is asked again. -/
def setPreviousConsult (consult : CStr) (state : AgentState) : Option (List AgentStateEntry) :=
  if room.callCenterConsultAgentParticipantId ≠ consult then
    setPresentAgentState agents room.callCenterConsultAgentParticipantId state
  else some agents

/-- `turbo_room_service_set_call_center_consult_agent`. -/
def setCallCenterConsultAgent (consultAgent : Option CStr) : RoomAnswer :=
  if room.canConsult consultAgent then
    match setPreviousConsult room agents (consultAgent.getD []) .available with
    | none => refused room agents
    | some agents1 =>
      match setAgentState agents1 (consultAgent.getD []) .busy with
      | none =>
        refused room ((setPreviousConsult room agents1 (consultAgent.getD []) .busy).getD agents1)
      | some agents2 =>
        ⟨{ room.bumpCallCenterVersion with
          callCenterConsultAgentParticipantId := consultAgent.getD [] }, agents2, true⟩
  else refused room agents

/-- The guards of `turbo_room_service_complete_call_center_transfer`. -/
def Room.canTransfer (released : AgentState) : Bool :=
  (released = .available || released = .offline || released = .wrapUp) &&
    room.callCenterState = .active && room.hasRole room.callCenterAgentParticipantId .agent &&
    room.hasRole room.callCenterConsultAgentParticipantId .agent

/-- `turbo_room_service_complete_call_center_transfer`. -/
def completeCallCenterTransfer (released : AgentState) : RoomAnswer :=
  let releasedAgent := room.callCenterAgentParticipantId
  let newAgent := room.callCenterConsultAgentParticipantId
  if room.canTransfer released then
    match setAgentState agents releasedAgent released with
    | none => refused room agents
    | some agents1 =>
      match setAgentState agents1 newAgent .busy with
      | none => refused room (trySetAgentState agents1 releasedAgent .busy)
      | some agents2 =>
        ⟨{ room.bumpCallCenterVersion with
          callCenterAgentParticipantId := newAgent
          callCenterConsultAgentParticipantId := [] }, agents2, true⟩
  else refused room agents

/-- The agent states that go with a new state of the room. -/
def finalAgentState : CallCenterState → AgentState → Bool
  | .none, _ => false
  | .active, _ => true
  | .wrapUp, agentState => agentState = .wrapUp || agentState = .offline
  | .completed, agentState => agentState = .available || agentState = .offline

/-- The guards of `turbo_room_service_finalize_call_center_room`. -/
def Room.canFinalize (state : CallCenterState) (dispositionCode : Option CStr)
    (agentState : AgentState) : Bool :=
  stringFits dispositionCode callCenterDispositionCodeMax true &&
    finalAgentState state agentState && room.callCenterState ≠ .none &&
    decide (room.callCenterAgentParticipantId ≠ [])

/-- `turbo_room_service_finalize_call_center_room`. -/
def finalizeCallCenterRoom (state : CallCenterState) (dispositionCode : Option CStr)
    (agentState : AgentState) : RoomAnswer :=
  if room.canFinalize state dispositionCode agentState then
    match setAgentState agents room.callCenterAgentParticipantId agentState with
    | none => refused room agents
    | some agents1 =>
      ⟨{ room.bumpCallCenterVersion with
        callCenterState := state
        callCenterDispositionCode := dispositionCode.getD [] }, agents1, true⟩
  else refused room agents

end CallCenter

/-- The calls on one room. -/
inductive RoomCall where
  | closeRoom
  | assignSfuNode (nodeId : Option CStr)
  | addParticipant (config : ParticipantConfig)
  | removeParticipant (participantId : CStr)
  | setParticipantSessionState (participantId : CStr) (sessionState : ℤ)
  | setParticipantBandwidth (participantId : CStr) (bandwidthBps : ℤ)
  | publishTrack (config : TrackConfig)
  | unpublishTrack (trackId : CStr)
  | setTrackMuted (trackId : CStr) (muted : Bool)
  | setSubscription (config : SubscriptionConfig)
  | removeSubscription (subscriber trackId : CStr)
  | startRecording (recordingId mode : Option CStr)
  | stopRecording
  | setLayoutMode (layoutMode : LayoutMode)
  | setActiveSpeaker (participantId : Option CStr)
  | pinParticipant (participantId : Option CStr)
  | reconcileSubscriptions
  | reconcileCallCenterSubscriptions (mode : SupervisorMode)
  | startCallCenterRoom (customer agent : Option CStr)
  | setCallCenterConsultAgent (consultAgent : Option CStr)
  | completeCallCenterTransfer (released : AgentState)
  | finalizeCallCenterRoom (state : CallCenterState) (dispositionCode : Option CStr)
      (agentState : AgentState)

/-- What a call does to its room and to the agent states. -/
def RoomCall.apply (room : Room) (agents : List AgentStateEntry) : RoomCall → RoomAnswer
  | .closeRoom => Conference.closeRoom room agents
  | .assignSfuNode nodeId => Conference.assignSfuNode room agents nodeId
  | .addParticipant config => Conference.addParticipant room agents config
  | .removeParticipant id => Conference.removeParticipant room agents id
  | .setParticipantSessionState id state =>
    Conference.setParticipantSessionState room agents id state
  | .setParticipantBandwidth id bps => Conference.setParticipantBandwidth room agents id bps
  | .publishTrack config => Conference.publishTrack room agents config
  | .unpublishTrack id => Conference.unpublishTrack room agents id
  | .setTrackMuted id muted => Conference.setTrackMuted room agents id muted
  | .setSubscription config => Conference.setSubscription room agents config
  | .removeSubscription subscriber id => Conference.removeSubscription room agents subscriber id
  | .startRecording id mode => Conference.startRecording room agents id mode
  | .stopRecording => Conference.stopRecording room agents
  | .setLayoutMode mode => Conference.setLayoutMode room agents mode
  | .setActiveSpeaker id => Conference.setActiveSpeaker room agents id
  | .pinParticipant id => Conference.pinParticipant room agents id
  | .reconcileSubscriptions => Conference.reconcileSubscriptions room agents
  | .reconcileCallCenterSubscriptions mode =>
    Conference.reconcileCallCenterSubscriptions room agents mode
  | .startCallCenterRoom customer agent => Conference.startCallCenterRoom room agents customer agent
  | .setCallCenterConsultAgent consult => Conference.setCallCenterConsultAgent room agents consult
  | .completeCallCenterTransfer released =>
    Conference.completeCallCenterTransfer room agents released
  | .finalizeCallCenterRoom state code agentState =>
    Conference.finalizeCallCenterRoom room agents state code agentState

/-- Position of `find_room`. -/
def RoomService.findRoom (s : RoomService) (roomId : CStr) : Option ℕ :=
  s.rooms.findIdx? (fun r => r.roomId == roomId)

/-- `find_room`. -/
def RoomService.room? (s : RoomService) (roomId : CStr) : Option Room :=
  (s.findRoom roomId).bind (fun i => s.rooms[i]?)

def newRoom (config : RoomConfig) : Room where
  roomId := config.roomId.getD []
  roomGeneration := config.roomGeneration
  roomType := config.roomType
  status := .open
  assignedSfuNode := []
  recordingState := .stopped
  layoutMode := .speaker
  activeSpeakerParticipantId := []
  pinnedParticipantId := []
  recordingId := []
  recordingMode := []
  callCenterState := .none
  callCenterCustomerParticipantId := []
  callCenterAgentParticipantId := []
  callCenterConsultAgentParticipantId := []
  callCenterDispositionCode := []
  callCenterVersion := 0
  version := 1
  participants := []
  tracks := []
  subscriptions := []

/-- `turbo_room_service_create_room`. -/
def createRoom (s : RoomService) (config : RoomConfig) : RoomService × Bool :=
  if stringFits config.roomId roomIdMax false ∧ config.roomType ≠ 0 ∧
      s.findRoom (config.roomId.getD []) = none then
    ({ s with rooms := s.rooms ++ [newRoom config] }, true)
  else (s, false)

/-- `turbo_room_service_discard_unassigned_room`. -/
def discardUnassignedRoom (s : RoomService) (roomId : CStr) : RoomService × Bool :=
  match s.findRoom roomId with
  | none => (s, false)
  | some i =>
    if ((s.room? roomId).map Room.assignedSfuNode).getD [] ≠ [] then (s, false)
    else ({ s with rooms := s.rooms.eraseIdx i }, true)

/-- A call on the room that `find_room` returns. -/
def onRoom (s : RoomService) (roomId : CStr) (call : RoomCall) : RoomService × Bool :=
  match s.findRoom roomId, s.room? roomId with
  | some i, some room =>
    let answer := call.apply room s.agentStates
    (⟨s.rooms.set i answer.room, answer.agents⟩, answer.ok)
  | _, _ => (s, false)

/-- The calls of the service. -/
inductive ServiceCall where
  | createRoom (config : RoomConfig)
  | discardUnassignedRoom (roomId : CStr)
  | onRoom (roomId : CStr) (call : RoomCall)

/-- The service, driven by its calls; the answers are the return values `0` and `-1`. -/
def roomServiceMachine : Machine RoomService ServiceCall Bool where
  step := fun s op =>
    match op with
    | .createRoom config => createRoom s config
    | .discardUnassignedRoom roomId => discardUnassignedRoom s roomId
    | .onRoom roomId call => onRoom s roomId call

/-- `turbo_room_service_create`. -/
def RoomService.fresh : RoomService :=
  ⟨[], []⟩

end TurboMedia.Conference
