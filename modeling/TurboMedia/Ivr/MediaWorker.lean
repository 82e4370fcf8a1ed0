import TurboMedia.Lib.Machine

/-!
# The media worker

Model of the call slots of `ivr_worker.c`: `ivr_worker_start`, `ivr_worker_advance_epoch`,
`open_media_call`, `execute_operation`, `ivr_worker_close_media_call` and
`ivr_worker_publish_event_copy`, with the look-up of a slot.

**Input.**  The sections of these functions in which the lock is held, in any order; what a
media port, the factory and the clock answer is an argument.  A function that calls a port
without the lock is in flight between two of its sections.

**Method.**  A view is `none` when its pointer is null.  An identifier in a slot is the text
up to its first zero byte.  `MediaSlot.borrowers` are the functions in flight that
`borrowed_calls` counts.  `MediaSlot.openId` tells the calls of a slot apart and
`MediaWorker.log` is what the port is asked and answers; no function reads them.
-/

namespace TurboMedia.Ivr

/-- `ivr_status_t`. -/
inductive MediaStatus where
  | ok
  | einval
  | enospc
  | eclosed
  | estate
  | eauth
  | eversion
  | estale
  | ebusy
  | enotfound
deriving DecidableEq

/-- `ivr_bytes_view_t`. -/
abbrev BytesView : Type := Option (List UInt8)

/-- `ivr_call_ref_t`. -/
structure MediaRef where
  tenantId : BytesView
  providerSessionId : BytesView
  dialogId : BytesView
  roomId : BytesView
  callId : BytesView
  callGeneration : UInt64
  expectedRoomVersion : UInt64
deriving DecidableEq

/-- `ivr_media_operation_t`. -/
structure MediaOperation where
  call : MediaRef
  operationGeneration : UInt64
  deadlineMs : UInt64

/-- `ivr_media_action_t`. -/
inductive MediaAction where
  | play
  | beginInput
  | endInput
  | cancelInput
deriving DecidableEq

/-- `ivr_media_slot_state_t`. -/
inductive MediaSlotState where
  | free
  | opening
  | active
  | closing
deriving DecidableEq

/-- `ivr_media_slot_t`. -/
structure MediaSlot where
  state : MediaSlotState
  tenantId : List UInt8
  providerSessionId : List UInt8
  dialogId : List UInt8
  roomId : List UInt8
  callId : List UInt8
  callGeneration : UInt64
  expectedRoomVersion : UInt64
  borrowers : List ℕ
  actionInFlight : Bool
  lastOperationGeneration : UInt64
  lastOperationStatus : MediaStatus
  inputId : List UInt8
  inputGeneration : UInt64
  inputActive : Bool
  openId : ℕ

/-- A slot after `memset`. -/
def MediaSlot.cleared : MediaSlot where
  state := .free
  tenantId := []
  providerSessionId := []
  dialogId := []
  roomId := []
  callId := []
  callGeneration := 0
  expectedRoomVersion := 0
  borrowers := []
  actionInFlight := false
  lastOperationGeneration := 0
  lastOperationStatus := .ok
  inputId := []
  inputGeneration := 0
  inputActive := false
  openId := 0

/-- A function between two of its sections. -/
inductive Flight where
  | opening (i : ℕ) (generation : UInt64)
  | acting (i : ℕ) (action : MediaAction) (generation : UInt64) (input : List UInt8)
      (inputGeneration : UInt64)
  | publishing (i : ℕ)
  | closing (i : ℕ)
  | stopping (i : ℕ)

/-- What a media port is asked, and what it answers. -/
inductive PortEvent where
  | passed (openId i : ℕ) (ref : MediaRef)
  | invoked (openId i : ℕ) (ref : MediaRef) (action : MediaAction) (generation : UInt64)
  | returned (openId : ℕ) (action : MediaAction) (generation : UInt64) (input : List UInt8)
      (inputGeneration : UInt64) (status : MediaStatus)
deriving DecidableEq

/-- `ivr_worker_s`. -/
structure MediaWorker where
  epoch : UInt64
  revision : UInt64
  hasClock : Bool
  started : Bool
  draining : Bool
  slotCount : ℕ
  slots : ℕ → MediaSlot
  flights : ℕ → Option Flight
  flightCount : ℕ
  openCount : ℕ
  log : List PortEvent

/-- A worker as `ivr_worker_create` leaves it. -/
def MediaWorker.create (epoch : UInt64) (slotCount : ℕ) (hasClock : Bool) : MediaWorker where
  epoch := epoch
  revision := 1
  hasClock := hasClock
  started := false
  draining := false
  slotCount := slotCount
  slots := fun _ => .cleared
  flights := fun _ => none
  flightCount := 0
  openCount := 0
  log := []

section Lookup

/-- `IVR_MEDIA_ID_CAPACITY`. -/
def mediaIdCapacity : ℕ := 128

def cText (bytes : List UInt8) : List UInt8 :=
  bytes.takeWhile (· ≠ 0)

/-- `view_valid`. -/
def viewValid : BytesView → Bool
  | none => false
  | some bytes => !bytes.isEmpty

/-- An identifier that `call_valid` asks for. -/
def idValid (view : BytesView) : Bool :=
  viewValid view && decide ((view.getD []).length < mediaIdCapacity)

/-- `call_valid`. -/
def callValid (call : MediaRef) : Bool :=
  decide (0 < call.callGeneration) && (decide (call.tenantId = none) || idValid call.tenantId) &&
      idValid call.providerSessionId && idValid call.dialogId && idValid call.roomId &&
        idValid call.callId

/-- `slot_matches`. -/
def slotMatches (slot : MediaSlot) (call : MediaRef) : Bool :=
  decide (slot.state ≠ .free) && callValid call && decide (slot.tenantId = call.tenantId.getD []) &&
      decide (slot.providerSessionId = call.providerSessionId.getD []) &&
        decide (slot.dialogId = call.dialogId.getD []) &&
          decide (slot.callGeneration = call.callGeneration) &&
            decide (slot.roomId = call.roomId.getD []) && decide (slot.callId = call.callId.getD [])

variable (w : MediaWorker)

/-- `find_slot`. -/
def MediaWorker.findSlot (call : MediaRef) : Option ℕ :=
  (List.range w.slotCount).find? (fun i => slotMatches (w.slots i) call)

def MediaWorker.freeSlot : Option ℕ :=
  (List.range w.slotCount).find? (fun i => (w.slots i).state = .free)

/-- `slot_call`. -/
def slotCall (slot : MediaSlot) : MediaRef where
  tenantId := some slot.tenantId
  providerSessionId := some slot.providerSessionId
  dialogId := some slot.dialogId
  roomId := some slot.roomId
  callId := some slot.callId
  callGeneration := slot.callGeneration
  expectedRoomVersion := slot.expectedRoomVersion

def MediaWorker.setSlot (i : ℕ) (slot : MediaSlot) : MediaWorker :=
  { w with slots := Function.update w.slots i slot }

def MediaWorker.depart (flight : Flight) : MediaWorker :=
  { w with
    flights := Function.update w.flights w.flightCount (some flight)
    flightCount := w.flightCount + 1 }

def MediaWorker.land (f : ℕ) : MediaWorker :=
  { w with flights := Function.update w.flights f none }

def MediaWorker.note (event : PortEvent) : MediaWorker :=
  { w with log := w.log ++ [event] }

/-- `inventory_revision_advance_locked`, where its result is not looked at. -/
def MediaWorker.advance : MediaWorker :=
  if w.revision = UInt64.ofNat (2 ^ 64 - 1) then w else { w with revision := w.revision + 1 }

def MediaWorker.reserves : Bool :=
  decide (w.revision ≤ UInt64.ofNat (2 ^ 64 - 1) - 2)

end Lookup

section Functions

/-- What a section ends with: a result for the caller, or a call of the port. -/
inductive WorkerAnswer where
  | returned (status : MediaStatus)
  | departed
  | waits
deriving DecidableEq

variable (w : MediaWorker)

/-- `ivr_worker_start`. -/
def MediaWorker.start : MediaWorker × WorkerAnswer :=
  if w.started ∨ w.draining then (w, .returned .estate)
  else ({ w with started := true }, .returned .ok)

/-- `ivr_worker_advance_epoch`. -/
def MediaWorker.advanceEpoch (epoch : UInt64) : MediaWorker × WorkerAnswer :=
  if epoch = 0 then (w, .returned .einval)
  else if w.started = false ∨ w.draining then (w, .returned .eclosed)
  else if epoch ≤ w.epoch then (w, .returned .estale)
  else if w.revision = UInt64.ofNat (2 ^ 64 - 1) then (w, .returned .estate)
  else ({ w.advance with epoch := epoch }, .returned .ok)

def openedSlot (call : MediaRef) (openId : ℕ) : MediaSlot :=
  { MediaSlot.cleared with
    state := .opening
    tenantId := cText (call.tenantId.getD [])
    providerSessionId := cText (call.providerSessionId.getD [])
    dialogId := cText (call.dialogId.getD [])
    roomId := cText (call.roomId.getD [])
    callId := cText (call.callId.getD [])
    callGeneration := call.callGeneration
    expectedRoomVersion := call.expectedRoomVersion
    openId := openId }

/-- `open_media_call` for a call that has a slot. -/
def openExisting (slot : MediaSlot) (generation : UInt64) : MediaStatus :=
  if slot.state ≠ .active then .ebusy
  else if generation = 0 then .ok
  else if generation < slot.lastOperationGeneration then .estale
  else if generation = slot.lastOperationGeneration then slot.lastOperationStatus
  else .estate

/-- `open_media_call` up to the call of the factory. -/
def MediaWorker.openMediaCall (call : MediaRef) (generation : UInt64) :
    MediaWorker × WorkerAnswer :=
  if callValid call = false then (w, .returned .einval)
  else if w.started = false ∨ w.draining then (w, .returned .eclosed)
  else
    match w.findSlot call with
    | some i => (w, .returned (openExisting (w.slots i) generation))
    | none =>
      match w.freeSlot with
      | none => (w, .returned .enospc)
      | some i =>
        if w.reserves then
          ((({ w.advance with openCount := w.openCount + 1 }.setSlot i
            (openedSlot call w.openCount)).note (.passed w.openCount i call)).depart
              (.opening i generation), .departed)
        else (w, .returned .estate)

/-- `ivr_worker_open_media_operation`. -/
def MediaWorker.openMediaOperation (op : MediaOperation) (nowMs : UInt64) :
    MediaWorker × WorkerAnswer :=
  if op.operationGeneration = 0 ∨ callValid op.call = false then (w, .returned .einval)
  else if op.deadlineMs ≠ 0 ∧ w.hasClock = false then (w, .returned .einval)
  else if op.deadlineMs ≠ 0 ∧ op.deadlineMs < nowMs then (w, .returned .estale)
  else w.openMediaCall op.call op.operationGeneration

/-- The last section of `open_media_call`, with what factory and port have answered. -/
def MediaWorker.openEnds (f i : ℕ) (generation : UInt64) (status : MediaStatus) :
    MediaWorker × WorkerAnswer :=
  if status = .ok ∧ w.draining = false ∧ (w.slots i).state = .opening then
    ((w.advance.setSlot i { w.slots i with
      state := .active
      lastOperationGeneration := generation
      lastOperationStatus := .ok }).land f, .returned .ok)
  else
    ((w.advance.setSlot i .cleared).land f, .returned (if status = .ok then .eclosed else status))

/-- The arguments that `execute_operation` refuses. -/
def operationInvalid (op : MediaOperation) (action : MediaAction) (input : BytesView)
    (inputGeneration : UInt64) : Bool :=
  !callValid op.call || decide (op.operationGeneration = 0) || !viewValid input ||
    (decide (action ≠ .play) &&
      (decide (mediaIdCapacity ≤ (input.getD []).length) || decide (inputGeneration = 0)))

/-- The input of an operation is not the one that is open. -/
def inputMismatch (slot : MediaSlot) (input : BytesView) (inputGeneration : UInt64) : Bool :=
  !slot.inputActive || decide (slot.inputGeneration ≠ inputGeneration) ||
    decide (slot.inputId ≠ input.getD [])

/-- `execute_operation` up to the call of the port. -/
def MediaWorker.execute (op : MediaOperation) (action : MediaAction) (input : BytesView)
    (inputGeneration nowMs : UInt64) : MediaWorker × WorkerAnswer :=
  if operationInvalid op action input inputGeneration then (w, .returned .einval)
  else if op.deadlineMs ≠ 0 ∧ w.hasClock = false then (w, .returned .einval)
  else
    match w.findSlot op.call with
    | none => (w, .returned (if w.draining then .eclosed else .estate))
    | some i =>
      let slot := w.slots i
      if slot.state ≠ .active ∨ w.draining then
        (w, .returned (if w.draining then .eclosed else .estate))
      else if op.deadlineMs ≠ 0 ∧ op.deadlineMs < nowMs then (w, .returned .estale)
      else if op.operationGeneration < slot.lastOperationGeneration then (w, .returned .estale)
      else if op.operationGeneration = slot.lastOperationGeneration then
        (w, .returned slot.lastOperationStatus)
      else if slot.actionInFlight then (w, .returned .ebusy)
      else if action = .beginInput ∧ slot.inputActive then (w, .returned .estate)
      else if (action = .endInput ∨ action = .cancelInput) ∧
          inputMismatch slot input inputGeneration then
        (w, .returned .estale)
      else
        (((w.setSlot i { slot with
          actionInFlight := true
          borrowers := w.flightCount :: slot.borrowers }).note
            (.invoked slot.openId i (slotCall slot) action op.operationGeneration)).depart
              (.acting i action op.operationGeneration (input.getD []) inputGeneration),
          .departed)

/-- What a successful operation does to the input window of its slot. -/
def MediaSlot.applyInput (slot : MediaSlot) (action : MediaAction) (input : List UInt8)
    (inputGeneration : UInt64) : MediaSlot :=
  match action with
  | .play => slot
  | .beginInput =>
    { slot with
      inputId := cText input
      inputGeneration := inputGeneration
      inputActive := true }
  | _ => { slot with inputId := [], inputGeneration := 0, inputActive := false }

/-- The last section of `execute_operation`, with what the port has answered. -/
def MediaWorker.executeEnds (f i : ℕ) (action : MediaAction) (generation : UInt64)
    (input : List UInt8) (inputGeneration : UInt64) (status : MediaStatus) :
    MediaWorker × WorkerAnswer :=
  let slot := { w.slots i with
    lastOperationGeneration := generation
    lastOperationStatus := status
    actionInFlight := false
    borrowers := (w.slots i).borrowers.erase f }
  (((w.setSlot i (if status = .ok then slot.applyInput action input inputGeneration
    else slot)).note (.returned slot.openId action generation input inputGeneration status)).land f,
    .returned status)

/-- `ivr_worker_close_media_call` up to its wait for the functions that use the slot. -/
def MediaWorker.closeMediaCall (call : MediaRef) : MediaWorker × WorkerAnswer :=
  if callValid call = false then (w, .returned .einval)
  else
    match w.findSlot call with
    | none => (w, .returned .ok)
    | some i =>
      if (w.slots i).state ≠ .active then (w, .waits)
      else if w.reserves then
        ((w.advance.setSlot i { w.slots i with state := .closing }).depart (.closing i), .departed)
      else (w, .returned .estate)

/-- The end of that wait, up to the call of the port. -/
def MediaWorker.closeStops (f i : ℕ) : MediaWorker × WorkerAnswer :=
  if (w.slots i).borrowers = [] then
    ({ w with flights := Function.update w.flights f (some (.stopping i)) }.note
      (.passed (w.slots i).openId i (slotCall (w.slots i))), .departed)
  else (w, .waits)

/-- The last section of `ivr_worker_close_media_call`. -/
def MediaWorker.closeEnds (f i : ℕ) (status : MediaStatus) : MediaWorker × WorkerAnswer :=
  ((w.advance.setSlot i .cleared).land f, .returned status)

/-- `ivr_worker_publish_event_copy` up to the call of the sink; its event has a type. -/
def MediaWorker.publish (call : MediaRef) : MediaWorker × WorkerAnswer :=
  if callValid call = false then (w, .returned .einval)
  else
    match w.findSlot call with
    | none => (w, .returned .estate)
    | some i =>
      if (w.slots i).state ≠ .active then (w, .returned .estate)
      else
        ((w.setSlot i { w.slots i with
          borrowers := w.flightCount :: (w.slots i).borrowers }).depart (.publishing i),
          .departed)

/-- The last section of `ivr_worker_publish_event_copy`. -/
def MediaWorker.publishEnds (f i : ℕ) (status : MediaStatus) : MediaWorker × WorkerAnswer :=
  ((w.setSlot i { w.slots i with borrowers := (w.slots i).borrowers.erase f }).land f,
    .returned status)

/-- `ivr_worker_has_media_call`. -/
def MediaWorker.hasMediaCall (call : MediaRef) : Bool :=
  callValid call && (w.findSlot call).isSome

end Functions

/-- A section of one of the functions; `ends` is what the port answers to a function in
flight. -/
inductive WorkerInput where
  | start
  | advanceEpoch (epoch : UInt64)
  | openCall (call : MediaRef)
  | openOperation (op : MediaOperation) (nowMs : UInt64)
  | execute (op : MediaOperation) (action : MediaAction) (input : BytesView)
      (inputGeneration nowMs : UInt64)
  | close (call : MediaRef)
  | publish (call : MediaRef)
  | drain
  | ends (f : ℕ) (status : MediaStatus)

def workerMachine : Machine MediaWorker WorkerInput WorkerAnswer where
  step := fun w input =>
    match input with
    | .start => w.start
    | .advanceEpoch epoch => w.advanceEpoch epoch
    | .openCall call => w.openMediaCall call 0
    | .openOperation op nowMs => w.openMediaOperation op nowMs
    | .execute op action input inputGeneration nowMs =>
      w.execute op action input inputGeneration nowMs
    | .close call => w.closeMediaCall call
    | .publish call => w.publish call
    | .drain => ({ w with draining := true, started := false }, .departed)
    | .ends f status =>
      match w.flights f with
      | none => (w, .waits)
      | some (.opening i generation) => w.openEnds f i generation status
      | some (.acting i action generation input inputGeneration) =>
        w.executeEnds f i action generation input inputGeneration status
      | some (.publishing i) => w.publishEnds f i status
      | some (.closing i) => w.closeStops f i
      | some (.stopping i) => w.closeEnds f i status

end TurboMedia.Ivr
