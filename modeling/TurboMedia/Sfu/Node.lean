import TurboMedia.Sfu.Context

/-!
# SFU node

Model of `turbo_sfu_node.c`: rooms with their sessions, published tracks and track
subscriptions, each room over a forwarding unit of its own.

Identifiers are the bytes before the terminating zero, a peer connection is a handle, and
memory is allocated.  The functions that read statistics, set callbacks and bandwidths,
rebind a peer connection, close a room or forward a packet are left out.
-/

namespace TurboMedia.Sfu

/-- `turbo_room_video_layer_t`, and the values outside the enumeration. -/
inductive RoomVideoLayer where
  | none
  | low
  | medium
  | high
  | other (value : ℤ)
deriving DecidableEq

/-- `node_session_t`. -/
structure NodeSession where
  sessionId : List UInt8
  participantId : ParticipantId
  pc : Option ℕ

/-- `node_track_t`. -/
structure NodeTrack where
  trackId : List UInt8
  participantId : ParticipantId
  mainSsrc : UInt32
deriving DecidableEq

/-- `turbo_sfu_node_track_subscription_t`, and `node_track_subscription_t` with the same
fields. -/
structure TrackSubscription where
  receiverParticipantId : ParticipantId
  senderParticipantId : ParticipantId
  trackId : List UInt8
  enabled : Bool
  priority : ℤ
  preferredLayer : RoomVideoLayer
  targetLayer : RoomVideoLayer
  muted : Bool
  policySource : List UInt8
  maxLayer : RoomVideoLayer

/-- `node_room_t`. -/
structure Room where
  roomId : List UInt8
  sfu : Context
  maxParticipants : ℤ
  sessions : List NodeSession
  tracks : List NodeTrack
  subscriptions : List TrackSubscription

/-- `turbo_sfu_node_s`. -/
structure Node where
  maxRooms : ℤ
  defaultRoomCapacity : ℤ
  rooms : List Room

/-- `TURBO_ROOM_ID_MAX`, `TURBO_PARTICIPANT_ID_MAX`, `TURBO_TRACK_ID_MAX` and
`TURBO_POLICY_SOURCE_MAX`. -/
def roomIdMax : ℕ := 64
def participantIdMax : ℕ := 64
def trackIdMax : ℕ := 64
def policySourceMax : ℕ := 32

/-- `copy_string`. -/
def copyString (size : ℕ) (src : List UInt8) : List UInt8 :=
  src.take (size - 1)

/-- `identifier_fits`. -/
def identifierFits (value : List UInt8) (capacity : ℕ) : Bool :=
  decide (value ≠ [] ∧ 2 ≤ capacity ∧ value.length < capacity)

/-- `resolve_max_layer_from_subscription`. -/
def resolveMaxLayer (s : TrackSubscription) : RoomVideoLayer :=
  if s.enabled = false ∨ s.muted = true then .none
  else if s.targetLayer ≠ .none then s.targetLayer
  else if s.preferredLayer ≠ .none then s.preferredLayer
  else s.maxLayer

/-- The layer of the forwarding unit; other values are refused. -/
def sfuMaxLayer : RoomVideoLayer → Option ℤ
  | .none => some 0
  | .low => some 0
  | .medium => some 1
  | .high => some 2
  | .other _ => Option.none

variable (room : Room)

/-- `find_session_by_id`, as an index. -/
def Room.findSessionById (sessionId : List UInt8) : Option ℕ :=
  room.sessions.findIdx? (fun s => s.sessionId == sessionId)

/-- `find_session_by_participant`, as an index. -/
def Room.findSessionByParticipant (participantId : ParticipantId) : Option ℕ :=
  room.sessions.findIdx? (fun s => s.participantId == participantId)

/-- `find_track`, as an index. -/
def Room.findTrack (trackId : List UInt8) : Option ℕ :=
  room.tracks.findIdx? (fun t => t.trackId == trackId)

/-- `find_track_subscription`, as an index. -/
def Room.findTrackSubscription (receiver : ParticipantId) (trackId : List UInt8) :
    Option ℕ :=
  room.subscriptions.findIdx? (fun s => s.receiverParticipantId == receiver &&
    s.trackId == trackId)

/-- `turbo_sfu_node_add_session` in its room. -/
def Room.addSession (participantId : ParticipantId) (sessionId : List UInt8)
    (pc : Option ℕ) : Room × ℤ :=
  if identifierFits participantId participantIdMax = false ∨
      identifierFits sessionId participantIdMax = false then
    (room, -1)
  else if (room.findSessionById sessionId).isSome ∨
      (room.findSessionByParticipant participantId).isSome then
    (room, -1)
  else
    let joined := addParticipant room.sfu participantId
    if joined.2.code ≠ 0 then ({ room with sfu := joined.1 }, -1)
    else
      ({ room with
        sfu := joined.1
        sessions := room.sessions ++ [⟨copyString participantIdMax sessionId,
          copyString participantIdMax participantId, pc⟩] }, 0)

/-- `turbo_sfu_node_remove_session` in its room; what the forwarding unit answers is not
looked at. -/
def Room.removeSession (sessionId : List UInt8) : Room × ℤ :=
  match room.findSessionById sessionId with
  | none => (room, -1)
  | some i =>
    match room.sessions[i]? with
    | none => (room, -1)
    | some session =>
      ({ room with
        subscriptions := room.subscriptions.filter (fun s =>
          !(s.receiverParticipantId == session.participantId ||
            s.senderParticipantId == session.participantId))
        sfu := (removeParticipant room.sfu session.participantId).1
        sessions := room.sessions.eraseIdx i }, 0)

/-- `turbo_sfu_node_register_published_track` in its room. -/
def Room.registerPublishedTrack (participantId : ParticipantId)
    (trackId : List UInt8) (mainSsrc : UInt32) (layerSsrcs : Option (List UInt32))
    (layerCount : ℤ) : Room × ℤ :=
  if identifierFits participantId participantIdMax = false ∨
      identifierFits trackId trackIdMax = false ∨
      (room.findSessionByParticipant participantId).isNone then
    (room, -1)
  else if (room.findTrack trackId).isSome then (room, -1)
  else
    let added := addStream room.sfu participantId mainSsrc layerSsrcs layerCount
    if added.2.code ≠ 0 then ({ room with sfu := added.1 }, -1)
    else
      ({ room with
        sfu := added.1
        tracks := room.tracks ++ [⟨copyString trackIdMax trackId,
          copyString participantIdMax participantId, mainSsrc⟩] }, 0)

/-- `turbo_sfu_node_unregister_published_track` in its room. -/
def Room.unregisterPublishedTrack (trackId : List UInt8) : Room × ℤ :=
  match room.findTrack trackId with
  | none => (room, -1)
  | some i =>
    match room.tracks[i]? with
    | none => (room, -1)
    | some track =>
      let removed := removeStream room.sfu track.participantId track.mainSsrc
      if removed.2.code ≠ 0 then ({ room with sfu := removed.1 }, -1)
      else
        ({ room with
          sfu := removed.1
          subscriptions := room.subscriptions.filter (fun s => !(s.trackId == trackId))
          tracks := room.tracks.eraseIdx i }, 0)

/-- What `turbo_sfu_node_apply_track_subscription` writes to an entry. -/
def TrackSubscription.update (s : TrackSubscription) (config : TrackSubscription)
    (sender : ParticipantId) (maxLayer : RoomVideoLayer) : TrackSubscription :=
  { s with
    senderParticipantId := copyString participantIdMax sender
    enabled := config.enabled
    priority := config.priority
    preferredLayer := config.preferredLayer
    targetLayer := config.targetLayer
    muted := config.muted
    policySource := copyString policySourceMax config.policySource
    maxLayer := maxLayer }

def TrackSubscription.blank (receiver : ParticipantId) (trackId : List UInt8) :
    TrackSubscription :=
  ⟨copyString participantIdMax receiver, [], copyString trackIdMax trackId, false, 0, .none,
    .none, false, [], .none⟩

/-- `turbo_sfu_node_apply_track_subscription` in its room. -/
def Room.applyTrackSubscription (room : Room) (config : TrackSubscription) : Room × ℤ :=
  if identifierFits config.receiverParticipantId participantIdMax = false ∨
      identifierFits config.trackId trackIdMax = false ∨
      (room.findSessionByParticipant config.receiverParticipantId).isNone then
    (room, -1)
  else
    match room.findTrack config.trackId with
    | none => (room, -1)
    | some i =>
      match room.tracks[i]? with
      | none => (room, -1)
      | some track =>
        match sfuMaxLayer (resolveMaxLayer config) with
        | none => (room, -1)
        | some layer =>
          let policy := setReceiverStreamPolicy room.sfu config.receiverParticipantId
            track.participantId track.mainSsrc (config.enabled && !config.muted) layer
          if policy.2.code ≠ 0 then ({ room with sfu := policy.1 }, -1)
          else
            let write := fun s : TrackSubscription =>
              s.update config track.participantId (resolveMaxLayer config)
            ({ room with
              sfu := policy.1
              subscriptions :=
                match room.findTrackSubscription config.receiverParticipantId
                    config.trackId with
                | none => room.subscriptions ++
                    [write (.blank config.receiverParticipantId config.trackId)]
                | some j => room.subscriptions.modify j write }, 0)

/-- `turbo_sfu_node_config_t`, without the node's name. -/
structure NodeConfig where
  maxRooms : ℤ
  defaultRoomCapacity : ℤ

/-- `turbo_sfu_node_create`. -/
def nodeCreate : Option NodeConfig → Node
  | none => ⟨16, 50, []⟩
  | some config => ⟨if config.maxRooms > 0 then config.maxRooms else 16,
      if config.defaultRoomCapacity > 0 then config.defaultRoomCapacity else 50, []⟩

/-- `find_room`, as an index. -/
def Node.findRoom (node : Node) (roomId : List UInt8) : Option ℕ :=
  node.rooms.findIdx? (fun r => r.roomId == roomId)

def newRoom (roomId : List UInt8) (maxParticipants : ℤ) : Room :=
  ⟨copyString roomIdMax roomId, create maxParticipants, maxParticipants, [], [], []⟩

/-- `turbo_sfu_node_attach_room`. -/
def Node.attachRoom (node : Node) (roomId : List UInt8) (maxParticipants : ℤ) : Node × ℤ :=
  if identifierFits roomId roomIdMax = false ∨ (node.findRoom roomId).isSome then (node, -1)
  else if (node.rooms.length : ℤ) ≥ node.maxRooms then (node, -1)
  else
    ({ node with
      rooms := node.rooms ++ [newRoom roomId
        (if maxParticipants > 0 then maxParticipants else node.defaultRoomCapacity)] }, 0)

/-- The calls that name a room work on the room found. -/
def Node.onRoom (node : Node) (roomId : List UInt8) (f : Room → Room × ℤ) : Node × ℤ :=
  match node.findRoom roomId with
  | none => (node, -1)
  | some i =>
    match node.rooms[i]? with
    | none => (node, -1)
    | some room => ({ node with rooms := node.rooms.set i (f room).1 }, (f room).2)

/-- Calls on a node. -/
inductive NodeOp where
  | attachRoom (roomId : List UInt8) (maxParticipants : ℤ)
  | addSession
      (roomId : List UInt8) (participantId : ParticipantId) (sessionId : List UInt8)
      (pc : Option ℕ)
  | removeSession (roomId sessionId : List UInt8)
  | registerPublishedTrack
      (roomId : List UInt8) (participantId : ParticipantId) (trackId : List UInt8)
      (mainSsrc : UInt32) (layerSsrcs : Option (List UInt32)) (layerCount : ℤ)
  | unregisterPublishedTrack (roomId trackId : List UInt8)
  | applyTrackSubscription (roomId : List UInt8) (config : TrackSubscription)

def nodeStep (node : Node) : NodeOp → Node × ℤ
  | .attachRoom roomId maxParticipants => node.attachRoom roomId maxParticipants
  | .addSession roomId participantId sessionId pc =>
    node.onRoom roomId (fun r => r.addSession participantId sessionId pc)
  | .removeSession roomId sessionId => node.onRoom roomId (fun r => r.removeSession sessionId)
  | .registerPublishedTrack roomId participantId trackId mainSsrc layerSsrcs layerCount =>
    node.onRoom roomId (fun r =>
      r.registerPublishedTrack participantId trackId mainSsrc layerSsrcs layerCount)
  | .unregisterPublishedTrack roomId trackId =>
    node.onRoom roomId (fun r => r.unregisterPublishedTrack trackId)
  | .applyTrackSubscription roomId config =>
    node.onRoom roomId (fun r => r.applyTrackSubscription config)

def nodeMachine : Machine Node NodeOp ℤ where
  step := nodeStep

end TurboMedia.Sfu
