import TurboMedia.Ivr.ControlPlane
import TurboMedia.Lib.SlotTable

/-!
# Workers and dialogs of the control adapter

Model of the part of `ivr_control_adapter.c` that keeps the registry of workers and the
table of dialog routes: registration, reconciliation, media commands and their results, and
the loss of workers.

**Input.**  Commands, results and inventory records after decoding.  Every step comes with
the reading of the clock and with what `ivr_room_bridge_worker_available` says.  No call is
dispatched (`pick_worker`), so the table of assignments stays empty.

**Method.**  A step is one critical section, or the sections of one function when nothing
else can run between them.  Sending a media command is a step that prepares it and, when the
send fails, a step that takes it back; a poll is the expiry of leases followed by one
recovery for each slot of the dialog table.  A slot that is not valid is `none`.
-/

namespace TurboMedia.Ivr
namespace Control

open Conference (literal)

/-- `ivr_control_worker_state_t`. -/
inductive WorkerState where
  | synced
  | ready
  | draining
  | expired
  | reconciling
deriving DecidableEq

/-- `ivr_control_worker_snapshot_t`. -/
structure WorkerSnapshot where
  workerId : CStr
  protocolVersion : ℕ
  instanceId : CStr
  connectionGeneration : UInt64
  state : WorkerState
  maxSessions : UInt32
  activeSessions : UInt32
  reservedSessions : UInt32
  leaseExpiresAtMs : ℕ
  healthGeneration : UInt64
  healthReady : ℤ
  requiresReconcile : Bool
  capabilities : CStr

/-- `ivr_control_worker_entry_t` of a valid slot. -/
structure WorkerEntry where
  value : WorkerSnapshot
  postReconcileState : WorkerState
  leaseExpiryCounted : Bool

/-- The commands that register a worker. -/
inductive WorkerCommandKind where
  | sync
  | syncV2
  | heartbeat
deriving DecidableEq

/-- `ivr_room_command_t`, as far as a registration reads it. -/
structure WorkerCommand where
  command : WorkerCommandKind
  workerId : CStr
  instanceId : CStr
  connectionGeneration : UInt64
  maxSessions : UInt32
  activeSessions : UInt32
  reservedSessions : UInt32
  leaseDurationMs : ℕ
  draining : ℤ
  healthGeneration : UInt64
  healthReady : ℤ
  capabilities : CStr

/-- `ivr_control_worker_command_is_v2`. -/
def WorkerCommand.isV2 (cmd : WorkerCommand) : Bool :=
  match cmd.command with
  | .sync => false
  | .syncV2 => true
  | .heartbeat => true

/-- `ivr_control_capability_has`: a token between commas. -/
def capabilityHas (csv wanted : CStr) : Bool :=
  if csv = [] ∨ wanted = [] then false else (csv.splitOn 44).contains wanted

/-- `ivr_control_worker_health_ready`. -/
def WorkerSnapshot.isHealthReady (worker : WorkerSnapshot) : Bool :=
  worker.protocolVersion != 2 ||
    if worker.healthGeneration ≠ 0 then decide (worker.healthReady ≠ 0)
    else capabilityHas worker.capabilities (literal "health.ready")

/-- `ivr_control_worker_effective_state`. -/
def WorkerSnapshot.effectiveState (worker : WorkerSnapshot) (nowMs : ℕ) : WorkerState :=
  if worker.leaseExpiresAtMs ≤ nowMs then .expired else worker.state

/-- `ivr_control_worker_command_validate`. -/
def WorkerCommand.validate (leaseMs : ℕ) (cmd : WorkerCommand) : ControlStatus :=
  if cmd.workerId = [] then .einval
  else if cmd.isV2 = false then .ok
  else if cmd.instanceId = [] ∨ cmd.connectionGeneration = 0 ∨ cmd.maxSessions = 0 ∨
      cmd.leaseDurationMs = 0 ∨ cmd.leaseDurationMs ≠ leaseMs ∨
      cmd.maxSessions < cmd.activeSessions ∨ cmd.reservedSessions ≠ 0 ∨
      (cmd.draining ≠ 0 ∧ cmd.draining ≠ 1) ∨
      (cmd.healthGeneration ≠ 0 ∧ cmd.healthReady ≠ 0 ∧ cmd.healthReady ≠ 1) then
    .einval
  else .ok

/-- The state that a worker of protocol 2 reports. -/
def WorkerSnapshot.reported (worker : WorkerSnapshot) (draining : ℤ) : WorkerState :=
  if draining ≠ 0 then .draining else if worker.isHealthReady then .ready else .synced

/-- `ivr_control_worker_fill_from_command`. -/
def fillFromCommand (legacyMaxSessions : UInt32) (cmd : WorkerCommand) (expiresAtMs : ℕ) :
    WorkerSnapshot :=
  if cmd.isV2 then
    let worker : WorkerSnapshot :=
      { workerId := cmd.workerId
        protocolVersion := 2
        instanceId := cmd.instanceId
        connectionGeneration := cmd.connectionGeneration
        state := .synced
        maxSessions := cmd.maxSessions
        activeSessions := cmd.activeSessions
        reservedSessions := cmd.reservedSessions
        leaseExpiresAtMs := expiresAtMs
        healthGeneration := cmd.healthGeneration
        healthReady := cmd.healthReady
        requiresReconcile := false
        capabilities := cmd.capabilities }
    { worker with state := worker.reported cmd.draining }
  else
    { workerId := cmd.workerId
      protocolVersion := 1
      instanceId := (literal "legacy:" ++ cmd.workerId).take 127
      connectionGeneration := 1
      state := .ready
      maxSessions := legacyMaxSessions
      activeSessions := 0
      reservedSessions := 0
      leaseExpiresAtMs := expiresAtMs
      healthGeneration := 0
      healthReady := 0
      requiresReconcile := false
      capabilities := literal "legacy-v1" }

/-- `ivr_control_worker_require_reconcile`. -/
def WorkerEntry.requireReconcile (entry : WorkerEntry) : WorkerEntry :=
  { entry with
    postReconcileState := entry.value.state
    value := { entry.value with state := .reconciling, requiresReconcile := true } }

/-- The entry of a worker that registers anew. -/
def fillEntry (legacyMaxSessions : UInt32) (cmd : WorkerCommand) (expiresAtMs : ℕ) :
    WorkerEntry :=
  let value := fillFromCommand legacyMaxSessions cmd expiresAtMs
  let entry : WorkerEntry := ⟨value, value.state, false⟩
  if cmd.isV2 ∧ cmd.activeSessions ≠ 0 then entry.requireReconcile else entry

/-- What a heartbeat and a repeated `worker.sync.v2` write. -/
def WorkerEntry.refresh (entry : WorkerEntry) (cmd : WorkerCommand) (expiresAtMs : ℕ) :
    WorkerEntry :=
  let value : WorkerSnapshot :=
    { entry.value with
      activeSessions := cmd.activeSessions
      healthGeneration := cmd.healthGeneration
      healthReady := cmd.healthReady
      leaseExpiresAtMs := expiresAtMs
      capabilities := cmd.capabilities }
  let state := value.reported cmd.draining
  { value :=
      { value with state := if value.requiresReconcile then .reconciling else state }
    postReconcileState := state
    leaseExpiryCounted := false }

/-- What a repeated `worker.sync` writes. -/
def WorkerEntry.refreshLegacy (entry : WorkerEntry) (cmd : WorkerCommand) (expiresAtMs : ℕ) :
    WorkerEntry :=
  { entry with
    value :=
      { entry.value with
        state := if cmd.draining ≠ 0 then .draining else .ready
        leaseExpiresAtMs := expiresAtMs }
    leaseExpiryCounted := false }

section Dialogs

/-- `ivr_control_dialog_state_t`. -/
inductive DialogState where
  | opening
  | active
  | closing
  | workerLost
deriving DecidableEq

/-- `ivr_media_command_kind_t`. -/
inductive MediaCommandKind where
  | sessionOpen
  | play
  | inputStart
  | inputStop
  | cancel
  | sessionClose
deriving DecidableEq

/-- What identifies a dialog. -/
structure DialogKey where
  tenantId : CStr
  providerSessionId : CStr
  dialogId : CStr
deriving DecidableEq

/-- The call that a dialog belongs to. -/
structure CallIdentity where
  roomId : CStr
  callId : CStr
  callGeneration : UInt64
deriving DecidableEq

/-- The worker instance that a dialog is bound to. -/
structure Binding where
  workerId : CStr
  workerInstanceId : CStr
  workerConnectionGeneration : UInt64
deriving DecidableEq

/-- `ivr_control_dialog_route_t` of a valid slot; no pending operation is `none`. -/
structure DialogRoute where
  key : DialogKey
  call : CallIdentity
  binding : Binding
  transitionCommandId : CStr
  pendingOperationKind : Option MediaCommandKind
  pendingInputId : CStr
  pendingInputGeneration : UInt64
  activeInputId : CStr
  activeInputGeneration : UInt64
  workerLostEventId : CStr
  workerLostOccurredAtMs : ℕ
  state : DialogState
  reconciliationOnly : Bool

/-- A route after `memset` with its identity. -/
def DialogRoute.blank (key : DialogKey) (call : CallIdentity) (binding : Binding)
    (state : DialogState) : DialogRoute where
  key := key
  call := call
  binding := binding
  transitionCommandId := []
  pendingOperationKind := none
  pendingInputId := []
  pendingInputGeneration := 0
  activeInputId := []
  activeInputGeneration := 0
  workerLostEventId := []
  workerLostOccurredAtMs := 0
  state := state
  reconciliationOnly := false

/-- `ivr_media_command_t`, without the text of `PLAY` and the reason of `SESSION_CLOSE`. -/
structure MediaCommand where
  kind : MediaCommandKind
  messageId : CStr
  key : DialogKey
  workerId : CStr
  call : CallIdentity
  operationGeneration : UInt64
  deadlineTimeoutMs : ℕ
  inputId : CStr
  inputGeneration : UInt64

/-- `ivr_media_command_result_t`, as far as the adapter reads it. -/
structure MediaResult where
  messageId : CStr
  key : DialogKey
  workerId : CStr
  call : CallIdentity
  statusCode : ControlStatus

/-- `ivr_worker_resource_state_t`. -/
inductive ResourceState where
  | opening
  | active
  | closing
deriving DecidableEq

/-- `ivr_worker_inventory_record_t`, as far as the adapter reads it. -/
structure InventoryRecord where
  binding : Binding
  key : DialogKey
  call : CallIdentity
  inputId : CStr
  inputGeneration : UInt64
  state : ResourceState
  rebindable : Bool

/-- `ivr_media_event_t`. -/
structure MediaEvent where
  eventId : CStr
  key : DialogKey
  workerId : CStr
  call : CallIdentity
  sequence : UInt64
  eventType : CStr
  occurredAtMs : ℕ
  payloadJson : CStr

def WorkerSnapshot.binding (worker : WorkerSnapshot) : Binding :=
  ⟨worker.workerId, worker.instanceId, worker.connectionGeneration⟩

/-- What `ivr_control_adapter_create` fixes. -/
structure AdapterConfig where
  hasBridge : Bool
  observesResults : Bool
  observesEvents : Bool
  legacyMaxSessions : UInt32
  leaseMs : ℕ
  contentPackage : CStr
  acls : List AclEntry

/-- The workers and dialogs of `ivr_control_adapter_s`. -/
structure ControlAdapter where
  config : AdapterConfig
  workers : List (Option WorkerEntry)
  nextWorkerIndex : ℕ
  dialogs : List (Option DialogRoute)

variable (a : ControlAdapter)

/-- `ivr_control_worker_find_locked`. -/
def ControlAdapter.worker? (workerId : CStr) : Option (ℕ × WorkerEntry) :=
  SlotTable.findOccupied (fun e => e.value.workerId == workerId) a.workers

/-- `ivr_control_dialog_find_locked`. -/
def ControlAdapter.dialog? (key : DialogKey) : Option (ℕ × DialogRoute) :=
  SlotTable.findOccupied (fun r => r.key == key) a.dialogs

def ControlAdapter.setWorker (i : ℕ) (entry : WorkerEntry) : ControlAdapter :=
  { a with workers := a.workers.set i (some entry) }

def ControlAdapter.setDialog (i : ℕ) (route : Option DialogRoute) : ControlAdapter :=
  { a with dialogs := a.dialogs.set i route }

/-- `ivr_control_acl_worker_allows_snapshot` for the default package. -/
def ControlAdapter.allows (worker : WorkerSnapshot) (call : CallIdentity) : Bool :=
  aclWorkerAllows a.config.acls worker.workerId call.roomId call.callId a.config.contentPackage

end Dialogs

namespace ControlAdapter

variable (a : ControlAdapter) (cmd : WorkerCommand) (nowMs : ℕ) (available : CStr → Bool)

def filled : WorkerEntry :=
  fillEntry a.config.legacyMaxSessions cmd (nowMs + a.config.leaseMs)

/-- An entry without sessions whose worker is gone can go to another worker or instance. -/
def replaceable (entry : WorkerEntry) : Bool :=
  entry.value.activeSessions == 0 && entry.value.reservedSessions == 0 &&
    (entry.value.effectiveState nowMs == .expired ||
      (a.config.hasBridge && !available entry.value.workerId))

/-- `ivr_control_adapter_register_worker` for a worker with an entry. -/
def registerFound (i : ℕ) (entry : WorkerEntry) :
    ControlAdapter × ControlStatus :=
  let sameInstance := cmd.isV2 && entry.value.instanceId == cmd.instanceId
  let generation := entry.value.connectionGeneration
  let expiresAtMs := nowMs + a.config.leaseMs
  if cmd.command = .heartbeat then
    if entry.value.instanceId ≠ cmd.instanceId ∨ generation ≠ cmd.connectionGeneration ∨
        entry.value.maxSessions ≠ cmd.maxSessions then
      (a, .eversion)
    else (a.setWorker i (entry.refresh cmd expiresAtMs), .ok)
  else if sameInstance ∧ cmd.connectionGeneration < generation then (a, .eversion)
  else if cmd.isV2 = false then (a.setWorker i (entry.refreshLegacy cmd expiresAtMs), .ok)
  else if sameInstance ∧ generation = cmd.connectionGeneration then
    if entry.value.maxSessions ≠ cmd.maxSessions then (a, .eversion)
    else (a.setWorker i (entry.refresh cmd expiresAtMs), .ok)
  else if sameInstance ∧ generation < cmd.connectionGeneration then
    (a.setWorker i (a.filled cmd nowMs), .ok)
  else if a.replaceable nowMs available entry = false then (a, .estate)
  else (a.setWorker i (a.filled cmd nowMs), .ok)

/-- `ivr_control_adapter_register_worker` for a worker without an entry. -/
def registerNew : ControlAdapter × ControlStatus :=
  if cmd.command = .heartbeat then (a, .eversion)
  else
    match a.workers.findIdx? (Option.all (a.replaceable nowMs available)) with
    | some i => (a.setWorker i (a.filled cmd nowMs), .ok)
    | none => (a, .enospc)

/-- `ivr_control_adapter_register_worker`. -/
def registerWorker : ControlAdapter × ControlStatus :=
  if cmd.validate a.config.leaseMs ≠ .ok then (a, cmd.validate a.config.leaseMs)
  else if 2 ^ 64 - 1 - nowMs < a.config.leaseMs then (a, .estate)
  else
    match a.worker? cmd.workerId with
    | some (i, entry) => a.registerFound cmd nowMs available i entry
    | none => a.registerNew cmd nowMs available

/-- The part of `ivr_control_adapter_poll` about leases. -/
def expireLeases : ControlAdapter :=
  { a with
    workers := a.workers.map (Option.map (fun entry =>
      if entry.leaseExpiryCounted = false ∧ entry.value.leaseExpiresAtMs ≤ nowMs then
        { entry with leaseExpiryCounted := true, value := { entry.value with state := .expired } }
      else entry)) }

end ControlAdapter

section Reconciliation

variable (a : ControlAdapter)

/-- The entry of the instance that a dialog is bound to. -/
def ControlAdapter.bound? (binding : Binding) : Option (ℕ × WorkerEntry) :=
  (a.worker? binding.workerId).filter (fun e => e.2.value.binding == binding)

/-- The dialogs that are bound to an instance. -/
def ControlAdapter.boundTo (binding : Binding) : List DialogRoute :=
  a.dialogs.reduceOption.filter (fun r => r.binding == binding)

/-- The record can be bound to its worker, which is being reconciled. -/
def ControlAdapter.awaits (record : InventoryRecord) (nowMs : ℕ) (entry : WorkerEntry) : Bool :=
  entry.value.requiresReconcile && entry.value.state == .reconciling &&
    entry.value.effectiveState nowMs != .expired && entry.value.binding == record.binding &&
    a.allows entry.value record.call

/-- What the loop of `ivr_control_adapter_rebind_dialog` finds out, slot by slot: the answer
when it returns from the loop, with the slot of a dialog that is bound already. -/
def rebindScan (record : InventoryRecord) :
    ℕ → List (Option DialogRoute) → Option (ControlStatus × Option (ℕ × DialogRoute))
  | _, [] => none
  | i, none :: rest => rebindScan record (i + 1) rest
  | i, some route :: rest =>
    if route.key = record.key then
      if route.state = .active ∧ route.call = record.call ∧ route.binding = record.binding then
        some (.ok, some (i, route))
      else some (.eversion, none)
    else if route.call = record.call then some (.eversion, none)
    else rebindScan record (i + 1) rest

/-- `ivr_control_adapter_rebind_dialog`. -/
def ControlAdapter.rebindDialog (record : InventoryRecord) (nowMs : ℕ) :
    ControlAdapter × ControlStatus :=
  if record.binding.workerId = [] ∨ record.binding.workerInstanceId = [] ∨
      record.binding.workerConnectionGeneration = 0 ∨ record.key.providerSessionId = [] ∨
      record.key.dialogId = [] ∨ record.call.roomId = [] ∨ record.call.callId = [] ∨
      record.call.callGeneration = 0 ∨ record.state ≠ .active ∨ record.rebindable = false then
    (a, .einval)
  else
    match a.worker? record.binding.workerId with
    | none => (a, .eversion)
    | some (_, entry) =>
      if a.awaits record nowMs entry = false then (a, .eversion)
      else
        match rebindScan record 0 a.dialogs with
        | some (status, none) => (a, status)
        | some (status, some (i, route)) =>
          (a.setDialog i (some { route with
            activeInputId := record.inputId
            activeInputGeneration := record.inputGeneration }), status)
        | none =>
          match a.dialogs.findIdx? Option.isNone with
          | none => (a, .enospc)
          | some i =>
            if entry.value.activeSessions.toNat ≤ (a.boundTo record.binding).length then
              (a, .enospc)
            else
              (a.setDialog i (some { DialogRoute.blank record.key record.call
                  record.binding .active with
                activeInputId := record.inputId
                activeInputGeneration := record.inputGeneration }), .ok)

/-- The middle part of `ivr_control_adapter_close_orphan`. -/
def ControlAdapter.adoptOrphan (record : InventoryRecord) : ControlAdapter × ControlStatus :=
  match a.dialog? record.key with
  | none => (a, .eversion)
  | some (i, route) =>
    if route.state = .active ∧ route.binding = record.binding then
      (a.setDialog i (some { route with reconciliationOnly := true }), .ok)
    else (a, .eversion)

/-- `ivr_control_adapter_complete_worker_reconcile`. -/
def ControlAdapter.completeReconcile (binding : Binding) : ControlAdapter × ControlStatus :=
  if binding.workerId = [] ∨ binding.workerInstanceId = [] ∨
      binding.workerConnectionGeneration = 0 then
    (a, .einval)
  else
    match a.worker? binding.workerId with
    | none => (a, .eversion)
    | some (i, entry) =>
      if entry.value.requiresReconcile = false ∨ entry.value.state ≠ .reconciling ∨
          entry.value.binding ≠ binding then
        (a, .eversion)
      else if (a.boundTo binding).length ≠ entry.value.activeSessions.toNat ∨
          entry.value.reservedSessions ≠ 0 then
        (a, .estate)
      else
        (a.setWorker i { entry with
          value := { entry.value with
            requiresReconcile := false
            state := entry.postReconcileState } }, .ok)

end Reconciliation

section MediaCommands

variable (a : ControlAdapter) (cmd : MediaCommand) (nowMs : ℕ) (available : CStr → Bool)

/-- A command that was prepared: the status, and the worker that it goes to. -/
structure Prepared where
  status : ControlStatus
  worker : Option WorkerSnapshot

/-- The command has all fields that `ivr_control_adapter_send_media_command` asks for. -/
def MediaCommand.isComplete : Bool :=
  decide (cmd.workerId = [] ∧ cmd.messageId ≠ [] ∧ cmd.key.tenantId ≠ [] ∧
    cmd.key.providerSessionId ≠ [] ∧ cmd.key.dialogId ≠ [] ∧ cmd.call.roomId ≠ [] ∧
    cmd.call.callId ≠ [] ∧ cmd.call.callGeneration ≠ 0 ∧ cmd.operationGeneration ≠ 0 ∧
    cmd.deadlineTimeoutMs ≠ 0)

/-- A new dialog of the call can go to the worker. -/
def ControlAdapter.canHost (call : CallIdentity) (worker : WorkerSnapshot) : Bool :=
  worker.protocolVersion == 2 && worker.effectiveState nowMs == .ready && worker.isHealthReady &&
    decide (worker.activeSessions + worker.reservedSessions < worker.maxSessions) &&
    a.allows worker call && (!a.config.hasBridge || available worker.workerId)

/-- The first worker from the round-robin cursor on that can take a dialog. -/
def ControlAdapter.pickHost (call : CallIdentity) : Option (ℕ × WorkerEntry) :=
  (List.range a.workers.length).findSome? (fun offset =>
    let i := (a.nextWorkerIndex % a.workers.length + offset) % a.workers.length
    (a.workers[i]?.join.filter (fun e => a.canHost nowMs available call e.value)).map
      (fun e => (i, e)))

/-- The route of a dialog that is opened on a worker. -/
def openingRoute (worker : WorkerSnapshot) : DialogRoute :=
  { DialogRoute.blank cmd.key cmd.call worker.binding .opening with
    transitionCommandId := cmd.messageId }

/-- `ivr_control_dialog_reserve_open_locked`. -/
def ControlAdapter.reserveOpen : ControlAdapter × Prepared :=
  match a.dialogs.findIdx? Option.isNone with
  | none => (a, ⟨.enospc, none⟩)
  | some slot =>
    if a.workers.reduceOption = [] then (a, ⟨.enospc, none⟩)
    else
      match a.pickHost nowMs available cmd.call with
      | none => (a, ⟨.estate, none⟩)
      | some (i, entry) =>
        let worker :=
          { entry.value with reservedSessions := entry.value.reservedSessions + 1 }
        ({ (a.setWorker i { entry with value := worker }).setDialog slot
            (some (openingRoute cmd entry.value)) with
          nextWorkerIndex := (i + 1) % a.workers.length },
          ⟨.ok, some worker⟩)

/-- The worker of a dialog takes further commands. -/
def WorkerSnapshot.serves (worker : WorkerSnapshot) (nowMs : ℕ) : Bool :=
  worker.effectiveState nowMs == .ready || worker.effectiveState nowMs == .draining

/-- `SESSION_OPEN` for a dialog that exists. -/
def ControlAdapter.reopen (route : DialogRoute) : Prepared :=
  if route.state ≠ .active ∨ route.call ≠ cmd.call then ⟨.eversion, none⟩
  else
    match a.bound? route.binding with
    | none => ⟨.eversion, none⟩
    | some (_, entry) =>
      if entry.value.serves nowMs then ⟨.ok, some entry.value⟩ else ⟨.eversion, none⟩

/-- What the route of a dialog remembers of a command that is sent to its worker. -/
def DialogRoute.track (route : DialogRoute) : Option DialogRoute :=
  match cmd.kind with
  | .sessionClose => some { route with state := .closing, transitionCommandId := cmd.messageId }
  | .inputStart | .cancel =>
    if route.pendingOperationKind = none then
      some { route with
        pendingOperationKind := some cmd.kind
        transitionCommandId := cmd.messageId
        pendingInputId := cmd.inputId
        pendingInputGeneration := cmd.inputGeneration }
    else none
  | _ => some route

/-- Any other command for a dialog that exists. -/
def ControlAdapter.prepareFound (i : ℕ) (route : DialogRoute) : ControlAdapter × Prepared :=
  if route.call ≠ cmd.call then (a, ⟨.estale, none⟩)
  else if route.state ≠ .active then (a, ⟨.estate, none⟩)
  else if cmd.kind = .cancel ∧ route.activeInputId = [] then (a, ⟨.enotfound, none⟩)
  else if cmd.kind = .cancel ∧ (route.activeInputGeneration ≠ cmd.inputGeneration ∨
      route.activeInputId ≠ cmd.inputId) then
    (a, ⟨.estale, none⟩)
  else
    match a.bound? route.binding with
    | none => (a, ⟨.eversion, none⟩)
    | some (_, entry) =>
      if entry.value.serves nowMs = false ∧ ¬(route.reconciliationOnly = true ∧
          entry.value.effectiveState nowMs = .reconciling) then
        (a, ⟨.eversion, none⟩)
      else
        match route.track cmd with
        | none => (a, ⟨.ebusy, none⟩)
        | some tracked => (a.setDialog i (some tracked), ⟨.ok, some entry.value⟩)

/-- `ivr_control_dialog_prepare_command`. -/
def ControlAdapter.prepareCommand : ControlAdapter × Prepared :=
  if cmd.kind = .sessionOpen then
    match a.dialog? cmd.key with
    | none => a.reserveOpen cmd nowMs available
    | some (_, route) => (a, a.reopen cmd nowMs route)
  else
    match a.dialog? cmd.key with
    | none =>
      (a, ⟨if cmd.kind = .sessionClose ∨ cmd.kind = .cancel then .enotfound else .estate, none⟩)
    | some (i, route) => a.prepareFound cmd nowMs i route

/-- `ivr_control_adapter_send_media_command` up to the send. -/
def ControlAdapter.startMediaCommand : ControlAdapter × Prepared :=
  if cmd.isComplete = false then (a, ⟨.einval, none⟩)
  else if a.config.hasBridge = false then (a, ⟨.estate, none⟩)
  else a.prepareCommand cmd nowMs available

/-- One reservation of an entry is given back. -/
def WorkerEntry.unreserve (entry : WorkerEntry) : WorkerEntry :=
  if entry.value.reservedSessions = 0 then entry
  else
    { entry with
      value := { entry.value with reservedSessions := entry.value.reservedSessions - 1 } }

def WorkerEntry.deactivate (entry : WorkerEntry) : WorkerEntry :=
  if entry.value.activeSessions = 0 then entry
  else
    { entry with
      value := { entry.value with activeSessions := entry.value.activeSessions - 1 } }

/-- A change of the entry that a dialog is bound to. -/
def ControlAdapter.onBound (binding : Binding) (change : WorkerEntry → WorkerEntry) :
    ControlAdapter :=
  match a.bound? binding with
  | none => a
  | some (i, entry) => a.setWorker i (change entry)

/-- The pending operation of a route is over. -/
def DialogRoute.settle (route : DialogRoute) : DialogRoute :=
  { route with
    pendingOperationKind := none
    transitionCommandId := []
    pendingInputId := []
    pendingInputGeneration := 0 }

/-- `ivr_control_dialog_rollback_send`. -/
def ControlAdapter.rollbackSend : ControlAdapter :=
  match a.dialog? cmd.key with
  | none => a
  | some (i, route) =>
    if route.transitionCommandId ≠ cmd.messageId then a
    else if route.state = .opening then
      (a.onBound route.binding WorkerEntry.unreserve).setDialog i none
    else if route.state = .closing then
      a.setDialog i (some { route with state := .active, transitionCommandId := [] })
    else if route.pendingOperationKind ≠ none then a.setDialog i (some route.settle)
    else a

end MediaCommands

section MediaResults

variable (a : ControlAdapter)

/-- What becomes of a result. -/
inductive ResultAnswer where
  | unobserved
  | rejected
  | consumed
  | observed

/-- The route after the result of its pending operation. -/
def DialogRoute.answered (route : DialogRoute) (status : ControlStatus) : DialogRoute :=
  if status = .ok ∧ route.pendingOperationKind = some .inputStart then
    { route.settle with
      activeInputId := route.pendingInputId
      activeInputGeneration := route.pendingInputGeneration }
  else if status = .ok ∧ route.pendingOperationKind = some .cancel then
    { route.settle with activeInputId := [], activeInputGeneration := 0 }
  else route.settle

/-- What a result does to its dialog and the entry it is bound to; `none` when it does not
answer the command that the dialog waits for. -/
def ControlAdapter.applyResult (result : MediaResult) (i : ℕ) (route : DialogRoute) (w : ℕ)
    (entry : WorkerEntry) : Option ControlAdapter :=
  let tracked := decide (route.transitionCommandId = result.messageId)
  match route.state with
  | .opening =>
    if tracked = false ∨ entry.value.reservedSessions = 0 ∨
        (result.statusCode = .ok ∧ entry.value.maxSessions ≤ entry.value.activeSessions) then
      none
    else
      let worker :=
        { entry.value with reservedSessions := entry.value.reservedSessions - 1 }
      if result.statusCode = .ok then
        some ((a.setWorker w { entry with
            value := { worker with activeSessions := worker.activeSessions + 1 } }).setDialog i
          (some { route with state := .active, transitionCommandId := [] }))
      else some ((a.setWorker w { entry with value := worker }).setDialog i none)
  | .closing =>
    if tracked = false then none
    else if result.statusCode = .ok then some ((a.setWorker w entry.deactivate).setDialog i none)
    else some (a.setDialog i (some { route with state := .active, transitionCommandId := [] }))
  | _ =>
    if route.pendingOperationKind = none then some a
    else if tracked = false then none
    else some (a.setDialog i (some (route.answered result.statusCode)))

/-- `ivr_control_adapter_on_media_result`, up to what the observer answers. -/
def ControlAdapter.onMediaResult (result : MediaResult) : ControlAdapter × ResultAnswer :=
  if a.config.observesResults = false then (a, .unobserved)
  else
    match a.dialog? result.key with
    | none => (a, .rejected)
    | some (i, route) =>
      match a.bound? route.binding with
      | none => (a, .rejected)
      | some (w, entry) =>
        if route.call ≠ result.call ∨ route.binding.workerId ≠ result.workerId then
          (a, .rejected)
        else
          match a.applyResult result i route w entry with
          | none => (a, .rejected)
          | some a' => (a', if route.reconciliationOnly then .consumed else .observed)

end MediaResults

section Loss

variable (a : ControlAdapter) (nowMs : ℕ) (available : CStr → Bool)

/-- The event that a lost route is reported with. -/
def DialogRoute.lossEvent (route : DialogRoute) : MediaEvent where
  eventId := route.workerLostEventId
  key := route.key
  workerId := route.binding.workerId
  call := route.call
  sequence := route.call.callGeneration
  eventType := literal "provider.media.worker_lost"
  occurredAtMs := route.workerLostOccurredAtMs
  payloadJson := literal "\x7b\"reason\":\"worker_lost\"\x7d"

/-- What one recovery did: whether it marked the route, and what it offered to the observer
with the observer's answer. -/
structure LossAnswer where
  marked : Bool
  offered : Option (MediaEvent × Bool)

def LossAnswer.quiet : LossAnswer :=
  ⟨false, none⟩

/-- The worker of a route is there and takes commands. -/
def ControlAdapter.isServed (route : DialogRoute) : Bool :=
  (a.bound? route.binding).any (fun e => e.2.value.serves nowMs) &&
    (!a.config.hasBridge || available route.binding.workerId)

def DialogRoute.lost (route : DialogRoute) (eventId : CStr) (occurredAtMs : ℕ) : DialogRoute :=
  { route with
    state := .workerLost
    workerLostEventId := eventId
    workerLostOccurredAtMs := occurredAtMs }

/-- A lost route is offered to the observer and freed when that accepts. -/
def ControlAdapter.offer (i : ℕ) (route : DialogRoute) (marked accepted : Bool) :
    ControlAdapter × LossAnswer :=
  (if accepted then a.setDialog i none else a, ⟨marked, some (route.lossEvent, accepted)⟩)

/-- `ivr_control_dialog_recover_worker_loss`; `identity` is what the clock and the generator
of identifiers have given, if they have. -/
def ControlAdapter.recoverWorkerLoss (i : ℕ) (identity : Option (CStr × ℕ)) (accepted : Bool) :
    ControlAdapter × LossAnswer :=
  if a.config.observesEvents = false then (a, .quiet)
  else
    match a.dialogs[i]?.join with
    | none => (a, .quiet)
    | some route =>
      if route.state = .workerLost then a.offer i route false accepted
      else if a.isServed nowMs available route then (a, .quiet)
      else
        match identity with
        | none => (a, .quiet)
        | some (eventId, occurredAtMs) =>
          let released := a.onBound route.binding
            (if route.state = .opening then WorkerEntry.unreserve else WorkerEntry.deactivate)
          let lost := route.lost eventId occurredAtMs
          (released.setDialog i (some lost)).offer i lost true accepted

end Loss

/-- What happens to the adapter. -/
inductive ControlStep where
  | registerWorker (cmd : WorkerCommand) (nowMs : ℕ) (available : CStr → Bool)
  | rebindDialog (record : InventoryRecord) (nowMs : ℕ)
  | adoptOrphan (record : InventoryRecord)
  | completeReconcile (binding : Binding)
  | startMediaCommand (cmd : MediaCommand) (nowMs : ℕ) (available : CStr → Bool)
  | rollbackSend (cmd : MediaCommand)
  | onMediaResult (result : MediaResult)
  | expireLeases (nowMs : ℕ)
  | recoverWorkerLoss (i nowMs : ℕ) (available : CStr → Bool) (identity : Option (CStr × ℕ))
      (accepted : Bool)

/-- The answer of a step. -/
inductive ControlAnswer where
  | status (status : ControlStatus)
  | prepared (prepared : Prepared)
  | result (answer : ResultAnswer)
  | loss (answer : LossAnswer)
  | done

def controlMachine : Machine ControlAdapter ControlStep ControlAnswer where
  step := fun a step =>
    match step with
    | .registerWorker cmd nowMs available => (a.registerWorker cmd nowMs available).map id .status
    | .rebindDialog record nowMs => (a.rebindDialog record nowMs).map id .status
    | .adoptOrphan record => (a.adoptOrphan record).map id .status
    | .completeReconcile binding => (a.completeReconcile binding).map id .status
    | .startMediaCommand cmd nowMs available =>
      (a.startMediaCommand cmd nowMs available).map id .prepared
    | .rollbackSend cmd => (a.rollbackSend cmd, .done)
    | .onMediaResult result => (a.onMediaResult result).map id .result
    | .expireLeases nowMs => (a.expireLeases nowMs, .done)
    | .recoverWorkerLoss i nowMs available identity accepted =>
      (a.recoverWorkerLoss nowMs available i identity accepted).map id .loss

/-- `ivr_control_adapter_create`: zero stands for the default. -/
def ControlAdapter.create (config : AdapterConfig) (workerCapacity dialogCapacity : UInt32) :
    ControlAdapter where
  config :=
    { config with
      legacyMaxSessions := if config.legacyMaxSessions = 0 then 1 else config.legacyMaxSessions
      leaseMs := if config.leaseMs = 0 then 15000 else config.leaseMs }
  workers := List.replicate (if workerCapacity = 0 then 64 else workerCapacity).toNat none
  nextWorkerIndex := 0
  dialogs := List.replicate (if dialogCapacity = 0 then 256 else dialogCapacity).toNat none

end Control
end TurboMedia.Ivr
