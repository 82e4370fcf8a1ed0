import TurboMedia.Ivr.ControlPlane
import TurboMedia.Lib.SlotTable

/-!
# Room bridge

Model of `ivr_room_bridge.c`: the replay cache of commands, the set of connected peers, the
routes of registered workers, and the handling of one message.

**Input.**  Messages as the bridge thread pops them, with what their frame decodes to; a
frame that does not decode is dropped.  What the host's handler answers and the two readings
of the clock come with the message (`Surroundings`).

**Method.**  One step is one message, one peer event, a clearing of peers and routes, a send
to a worker, or the end of a send that failed.  It answers with what the bridge has called,
stored and sent.
-/

namespace TurboMedia.Ivr

open Conference (literal)

/-- `ivr_dedup_entry_t` of a valid slot. -/
structure DedupEntry where
  messageId : CStr
  callGeneration : UInt64
  storedAtMs : ℕ
  result : RoomCommandResult
deriving DecidableEq

/-- `ivr_dedup_t`; the capacity is the length of `entries`. -/
structure Dedup where
  entries : List (Option DedupEntry)
  next : ℕ
  retentionMs : ℕ

/-- Neither older than the retention nor from the future. -/
def DedupEntry.isFresh (retentionMs nowMs : ℕ) (entry : DedupEntry) : Bool :=
  decide (entry.storedAtMs ≤ nowMs ∧ nowMs - entry.storedAtMs < retentionMs)

def DedupEntry.isFor (messageId : CStr) (callGeneration : UInt64) (entry : DedupEntry) : Bool :=
  entry.messageId == messageId && entry.callGeneration == callGeneration

/-- The answers of `ivr_dedup_lookup`. -/
inductive DedupAnswer where
  | miss
  | hit (result : RoomCommandResult)
  | expired

/-- `ivr_dedup_lookup`. -/
def dedupLookup (d : Dedup) (nowMs : ℕ) (messageId : CStr) (callGeneration : UInt64) :
    DedupAnswer :=
  match SlotTable.findOccupied (DedupEntry.isFor messageId callGeneration) d.entries with
  | none => .miss
  | some (_, entry) => if entry.isFresh d.retentionMs nowMs then .hit entry.result else .expired

/-- `ivr_dedup_purge_expired`. -/
def dedupPurge (d : Dedup) (nowMs : ℕ) : List (Option DedupEntry) :=
  d.entries.map (Option.filter (DedupEntry.isFresh d.retentionMs nowMs))

/-- `ivr_dedup_store`. -/
def dedupStore (d : Dedup) (entry : DedupEntry) : Dedup :=
  { d with
    entries := (dedupPurge d entry.storedAtMs).set d.next (some entry)
    next := (d.next + 1) % d.entries.length }

/-- `ivr_dedup_init`; zero means the default. -/
def Dedup.init (capacity retentionMs : ℕ) : Dedup where
  entries := List.replicate (if capacity = 0 then 64 else capacity) none
  next := 0
  retentionMs := if retentionMs = 0 then 60000 else retentionMs

/-- `ivr_control_ws_route_t`. -/
structure WsRoute where
  impl : ℕ
  connectionSlot : ℕ
  connectionGeneration : ℕ
  streamId : ℕ
deriving DecidableEq

/-- The route after `memset`. -/
def WsRoute.zero : WsRoute :=
  ⟨0, 0, 0, 0⟩

/-- `ivr_peer_entry_t`. -/
structure PeerEntry where
  identity : CStr
  route : WsRoute

/-- `ivr_route_entry_t`. -/
structure RouteEntry where
  workerId : CStr
  route : WsRoute
  valid : Bool

def peerCapacity : ℕ := 64
def routeCapacity : ℕ := 64

/-- `peer_add`. -/
def peerAdd (peers : List PeerEntry) (identity : CStr) (route : WsRoute) : List PeerEntry :=
  if identity = [] then peers
  else
    match peers.findIdx? (fun e => e.identity == identity.take 127) with
    | some i => peers.modify i (fun e => { e with route := route })
    | none =>
      if peers.length < peerCapacity then peers ++ [⟨identity.take 127, route⟩] else peers

/-- `peer_remove`. -/
def peerRemove (peers : List PeerEntry) (identity : CStr) (route : WsRoute) :
    List PeerEntry :=
  if identity = [] then peers
  else peers.eraseP (fun e => e.identity == identity.take 127 && e.route == route)

/-- `peer_route_matches`. -/
def peerRouteMatches (peers : List PeerEntry) (identity : CStr) (route : WsRoute) : Bool :=
  peers.any (fun e => e.identity == identity && e.route == route)

/-- The entry becomes invalid and its route is wiped. -/
def RouteEntry.invalidate (entry : RouteEntry) : RouteEntry :=
  { entry with route := .zero, valid := false }

variable (routes : List RouteEntry)

/-- Position of `route_find_locked`. -/
def routeFind (workerId : CStr) : Option ℕ :=
  routes.findIdx? (fun e => e.workerId == workerId)

/-- `route_invalidate_peer`. -/
def routeInvalidatePeer (identity : CStr) (route : WsRoute) :
    List RouteEntry :=
  if identity = [] ∨ 128 ≤ identity.length then routes
  else
    routes.map (fun e =>
      if e.valid && e.workerId == identity && e.route == route then e.invalidate else e)

/-- `route_store`. -/
def routeStore (workerId : CStr) (route : WsRoute) :
    List RouteEntry :=
  match routeFind routes workerId with
  | some i => routes.modify i (fun e => { e with route := route, valid := true })
  | none =>
    if routes.length < routeCapacity then routes ++ [⟨workerId, route, true⟩]
    else
      match routes.findIdx? (fun e => !e.valid) with
      | some i => routes.set i ⟨workerId, route, true⟩
      | none => routes

/-- The part of `peer_and_routes_clear` about routes. -/
def routesClear : List RouteEntry :=
  routes.map (fun e => if e.valid then e.invalidate else e)

section Messages

/-- The frames from a worker that are passed to a handler of their own. -/
inductive WorkerFrame where
  | dispatchResult
  | releaseResult
  | mediaResult
  | inventoryPage
  | mediaEvent
deriving DecidableEq

/-- The commands that the bridge treats differently. -/
inductive BridgeCommandKind where
  | workerSync
  | workerSyncV2
  | workerHeartbeat
  | getSnapshot
  | other
deriving DecidableEq

/-- `ivr_room_command_t`, as far as the bridge reads it. -/
structure BridgeCommand where
  command : BridgeCommandKind
  messageId : CStr
  workerId : CStr
  roomId : CStr
  callGeneration : UInt64
  expectedRoomVersion : UInt64
deriving DecidableEq

/-- `worker.sync`, `worker.sync.v2` or `worker.heartbeat`. -/
def BridgeCommand.isRegistration (cmd : BridgeCommand) : Bool :=
  match cmd.command with
  | .workerSync => true
  | .workerSyncV2 => true
  | .workerHeartbeat => true
  | _ => false

/-- What a frame decodes to. -/
inductive FrameContent where
  | fromWorker (frame : WorkerFrame) (workerId : CStr)
  | command (cmd : BridgeCommand)
  | malformed

/-- `ivr_route_message_t`. -/
structure BridgeMessage where
  peerIdentity : CStr
  route : WsRoute
  content : FrameContent

/-- The callbacks that the host has given. -/
structure BridgeHandler where
  onWorkerFrame : WorkerFrame → Bool
  onCommand : Bool
  getRoomVersion : Bool

/-- What the bridge meets while it handles one message: the clock at the lookup and at the
store, the room's version, and the answer of `on_command`. -/
structure Surroundings where
  lookupMs : ℕ
  storeMs : ℕ
  roomVersion : UInt64
  commandOk : Bool
  commandResult : RoomCommandResult

/-- The part of `ivr_room_bridge_s` that the bridge thread works on. -/
structure RoomBridge where
  dedup : Dedup
  peers : List PeerEntry
  routes : List RouteEntry
  handler : BridgeHandler

/-- What the bridge has called, stored and sent. -/
inductive BridgeEffect where
  | onWorkerFrame (frame : WorkerFrame) (workerId : CStr)
  | onCommand (cmd : BridgeCommand) (result : RoomCommandResult)
  | store (entry : DedupEntry)
  | reply (route : WsRoute) (cmd : BridgeCommand) (result : RoomCommandResult)
  | snapshot (route : WsRoute) (cmd : BridgeCommand)
  | send (workerId : CStr) (route : WsRoute)
deriving DecidableEq

variable (b : RoomBridge) (msg : BridgeMessage) (cmd : BridgeCommand) (o : Surroundings)

/-- `route_find_locked`: the entry of the worker and its position. -/
def RoomBridge.routeEntry (workerId : CStr) : Option (ℕ × RouteEntry) :=
  (routeFind b.routes workerId).bind (fun i => (b.routes[i]?).map (fun e => (i, e)))

/-- `route_matches_worker`. -/
def RoomBridge.routeMatchesWorker (workerId : CStr) (route : WsRoute) : Bool :=
  peerRouteMatches b.peers workerId route &&
    (b.routeEntry workerId).any (fun e => e.2.valid && e.2.route == route)

/-- The sender of a registration is the worker that it names, on its connected route. -/
def RoomBridge.identified : Bool :=
  decide (msg.peerIdentity ≠ []) && msg.peerIdentity == cmd.workerId &&
    peerRouteMatches b.peers cmd.workerId msg.route

/-- The command expects another version of the room. -/
def RoomBridge.versionConflict : Bool :=
  b.handler.getRoomVersion && cmd.expectedRoomVersion != 0 && o.roomVersion != 0 &&
    cmd.expectedRoomVersion != o.roomVersion

def dedupEntry (result : RoomCommandResult) : DedupEntry :=
  ⟨cmd.messageId, cmd.callGeneration, o.storeMs, result⟩

/-- A command is rejected before it reaches the handler, and the rejection is stored. -/
def RoomBridge.reject (status : ControlStatus) (message : CStr) :
    RoomBridge × List BridgeEffect :=
  let result := RoomCommandResult.zero.fail status message
  ({ b with dedup := dedupStore b.dedup (dedupEntry cmd o result) },
    [.store (dedupEntry cmd o result), .reply msg.route cmd result])

/-- The result of `on_command`, or of its absence. -/
def RoomBridge.commandResult : RoomCommandResult :=
  if b.handler.onCommand then
    if o.commandOk then o.commandResult
    else if o.commandResult.statusCode = .ok then { o.commandResult with statusCode := .estate }
    else o.commandResult
  else RoomCommandResult.zero.fail .estate (literal "no command handler")

/-- The routes after a command with this result. -/
def RoomBridge.registered (result : RoomCommandResult) : List RouteEntry :=
  if result.statusCode = .ok ∧ cmd.isRegistration then routeStore b.routes cmd.workerId msg.route
  else b.routes

def RoomBridge.execute : RoomBridge × List BridgeEffect :=
  let result := b.commandResult o
  ({ b with
      routes := b.registered msg cmd result
      dedup := if result.retryable then b.dedup
        else dedupStore b.dedup (dedupEntry cmd o result) },
    (if b.handler.onCommand then [.onCommand cmd result] else []) ++
      (if result.statusCode = .ok ∧ cmd.command = .getSnapshot then [.snapshot msg.route cmd]
        else []) ++
      (if result.retryable then [] else [.store (dedupEntry cmd o result)]) ++
      [.reply msg.route cmd result])

/-- The answer to a replay that came too late. -/
def staleResult : RoomCommandResult :=
  RoomCommandResult.zero.fail .estale (literal "replay outside dedup retention window")

/-- The command part of `ivr_bridge_handle_request`. -/
def RoomBridge.handleCommand : RoomBridge × List BridgeEffect :=
  match dedupLookup b.dedup o.lookupMs cmd.messageId cmd.callGeneration with
  | .hit result => (b, [.reply msg.route cmd result])
  | .expired => (b, [.reply msg.route cmd staleResult])
  | .miss =>
    if cmd.isRegistration && !b.identified msg cmd then
      b.reject msg cmd o .eauth (literal "worker identity not connected")
    else if b.versionConflict cmd o then
      b.reject msg cmd o .eversion (literal "stale expected_room_version")
    else b.execute msg cmd o

/-- `ivr_bridge_handle_request`. -/
def RoomBridge.handleRequest : RoomBridge × List BridgeEffect :=
  match msg.content with
  | .malformed => (b, [])
  | .fromWorker frame workerId =>
    if b.routeMatchesWorker workerId msg.route && b.handler.onWorkerFrame frame then
      (b, [.onWorkerFrame frame workerId])
    else (b, [])
  | .command cmd => b.handleCommand msg cmd o

/-- One event of `ivr_bridge_process_peer_events`. -/
def RoomBridge.peerEvent (connected : Bool) (identity : CStr) (route : WsRoute) : RoomBridge :=
  if connected then { b with peers := peerAdd b.peers identity route }
  else
    { b with
      peers := peerRemove b.peers identity route
      routes := routeInvalidatePeer b.routes identity route }

/-- `peer_and_routes_clear`. -/
def RoomBridge.clear : RoomBridge :=
  { b with peers := [], routes := routesClear b.routes }

/-- `ivr_room_bridge_send_to_worker` up to the send. -/
def RoomBridge.sendToWorker (workerId : CStr) : List BridgeEffect :=
  match b.routeEntry workerId with
  | none => []
  | some (_, entry) => if entry.valid then [.send workerId entry.route] else []

/-- The end of `ivr_room_bridge_send_to_worker` when the send has failed; the routes may have
changed in the meantime. -/
def RoomBridge.sendFailed (workerId : CStr) (route : WsRoute) : RoomBridge :=
  match b.routeEntry workerId with
  | none => b
  | some (i, entry) =>
    if entry.valid && entry.route == route then
      { b with routes := b.routes.modify i RouteEntry.invalidate }
    else b

end Messages

/-- What happens to the bridge. -/
inductive BridgeStep where
  | message (msg : BridgeMessage) (o : Surroundings)
  | peerEvent (connected : Bool) (identity : CStr) (route : WsRoute)
  | clear
  | sendToWorker (workerId : CStr)
  | sendFailed (workerId : CStr) (route : WsRoute)

/-- The bridge; a step answers with its effects. -/
def roomBridgeMachine : Machine RoomBridge BridgeStep (List BridgeEffect) where
  step := fun b step =>
    match step with
    | .message msg o => b.handleRequest msg o
    | .peerEvent connected identity route => (b.peerEvent connected identity route, [])
    | .clear => (b.clear, [])
    | .sendToWorker workerId => (b, b.sendToWorker workerId)
    | .sendFailed workerId route => (b.sendFailed workerId route, [])

/-- `ivr_room_bridge_create`. -/
def RoomBridge.create (dedupCapacity dedupRetentionMs : ℕ) (handler : BridgeHandler) :
    RoomBridge where
  dedup := .init dedupCapacity dedupRetentionMs
  peers := []
  routes := []
  handler := handler

end TurboMedia.Ivr
