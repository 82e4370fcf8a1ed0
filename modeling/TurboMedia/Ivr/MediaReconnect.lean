import TurboMedia.Ivr.Worker
import TurboMedia.Lib.Machine
import TurboMedia.Lib.Words

/-!
# Reconnection of media links

Model of `ivr_media_reconnect.c`: two links, a bounded number of attempts in one recovery
episode, and a deadline for it.

Times come in as 64-bit words and are kept as numbers; sums saturate, and counters wrap.  Null
arguments are left out, a link is one of the two of the enumeration, and memory is allocated.
-/

namespace TurboMedia.Ivr

/-- `ivr_media_link_kind_t`. -/
inductive LinkKind where
  | whip
  | whep
deriving DecidableEq

/-- `ivr_media_link_state_t`. -/
inductive LinkState where
  | connecting
  | connected
  | disconnected
  | failed
  | closed

/-- `IVR_MEDIA_ERROR_INPUT_STALLED`. -/
def errorInputStalled : ℤ := 1002

/-- `ivr_media_reconnect_event_t`. -/
inductive ReconnectEvent where
  | none
  | disconnected
  | retryDue
  | reconnected
  | retryExhausted
  | inputStalled
deriving DecidableEq

/-- `ivr_media_reconnect_config_t`. -/
structure ReconnectConfig where
  maxAttempts : ℕ
  initialBackoffMs : ℕ
  maxBackoffMs : ℕ
  totalDeadlineMs : ℕ
deriving DecidableEq

/-- `ivr_media_reconnect_snapshot_t`. -/
structure ReconnectState where
  attemptGeneration : ℕ
  attemptsStarted : ℕ
  whipConnected : Bool
  whepConnected : Bool
  retryPending : Bool
  exhausted : Bool
  nextRetryAtMs : ℕ
  deadlineAtMs : ℕ
  staleCallbacks : ℕ
  inputStalls : ℕ
deriving DecidableEq

def ReconnectState.zero : ReconnectState :=
  ⟨0, 0, false, false, false, false, 0, 0, 0, 0⟩

/-- `ivr_media_reconnect_s`. -/
structure MediaReconnect where
  config : ReconnectConfig
  state : ReconnectState
deriving DecidableEq

/-- What a call answers; the generation is written by `ivr_media_reconnect_poll`. -/
structure ReconnectAnswer where
  status : IvrStatus
  event : ReconnectEvent
  generation : Option ℕ

/-- `add_saturating`. -/
def addSaturating (left right : ℕ) : ℕ :=
  if Words.max64 - left < right then Words.max64 else left + right

/-- The loop of `retry_backoff`. -/
def doubleDelay (maxBackoffMs : ℕ) : ℕ → ℕ → ℕ
  | 0, delay => delay
  | shifts + 1, delay =>
    if delay < maxBackoffMs then
      doubleDelay maxBackoffMs shifts (if delay > Words.max64 / 2 then Words.max64 else delay * 2)
    else delay

/-- `retry_backoff`. -/
def retryBackoff (r : MediaReconnect) : ℕ :=
  let shifts := if r.state.attemptsStarted > 1 then r.state.attemptsStarted - 1 else 0
  let delay := doubleDelay r.config.maxBackoffMs shifts r.config.initialBackoffMs
  if delay > r.config.maxBackoffMs then r.config.maxBackoffMs else delay

/-- A field of the configuration, where zero stands for the default. -/
def orDefault (value default : ℕ) : ℕ :=
  if value ≠ 0 then value else default

/-- `ivr_media_reconnect_create`. -/
def reconnectCreate (config : Option ReconnectConfig) : Except IvrStatus MediaReconnect :=
  let given := config.getD ⟨0, 0, 0, 0⟩
  let chosen : ReconnectConfig :=
    ⟨orDefault given.maxAttempts 3, orDefault given.initialBackoffMs 100,
      orDefault given.maxBackoffMs 2000, orDefault given.totalDeadlineMs 10000⟩
  if chosen.maxAttempts > 32 ∨ chosen.initialBackoffMs > chosen.maxBackoffMs ∨
      chosen.totalDeadlineMs < chosen.initialBackoffMs then
    .error .einval
  else .ok ⟨chosen, ReconnectState.zero⟩

/-- `ivr_media_reconnect_start`; the generation it writes is that of the state. -/
def reconnectStart (r : MediaReconnect) (nowMs : ℕ) : MediaReconnect :=
  { r with state := { ReconnectState.zero with
      attemptGeneration := 1
      attemptsStarted := 1
      deadlineAtMs := addSaturating nowMs r.config.totalDeadlineMs } }

/-- `schedule_retry`. -/
def scheduleRetry (r : MediaReconnect) (nowMs : ℕ) : MediaReconnect × ReconnectEvent :=
  if r.state.attemptsStarted ≥ r.config.maxAttempts ∨ nowMs ≥ r.state.deadlineAtMs then
    ({ r with state := { r.state with exhausted := true, retryPending := false } }, .retryExhausted)
  else
    let next := addSaturating nowMs (retryBackoff r)
    ({ r with state := { r.state with
        retryPending := true
        nextRetryAtMs := if next > r.state.deadlineAtMs then r.state.deadlineAtMs else next } },
      if r.state.attemptsStarted = 1 then .disconnected else .none)

def ReconnectState.bothConnected (s : ReconnectState) : Bool :=
  s.whipConnected && s.whepConnected

variable (r : MediaReconnect)

/-- `begin_stable_connection_recovery`. -/
def beginStableConnectionRecovery (nowMs : ℕ) : MediaReconnect :=
  if r.state.retryPending || !r.state.bothConnected then r
  else
    { r with state := { r.state with
        attemptsStarted := 1
        nextRetryAtMs := 0
        deadlineAtMs := addSaturating nowMs r.config.totalDeadlineMs } }

/-- The beginning of a recovery, where both links were connected. -/
def recover (nowMs : ℕ) : MediaReconnect :=
  if r.state.bothConnected then beginStableConnectionRecovery r nowMs else r

def MediaReconnect.setConnected (link : LinkKind) (connected : Bool) :
    MediaReconnect :=
  match link with
  | .whip => { r with state := { r.state with whipConnected := connected } }
  | .whep => { r with state := { r.state with whepConnected := connected } }

/-- The input of the second link has stalled. -/
def onInputStalled (nowMs : ℕ) : MediaReconnect × ReconnectAnswer :=
  let counted := { r with state := { r.state with
    inputStalls := Words.succ64 r.state.inputStalls } }
  let begun := recover counted nowMs
  let scheduled :=
    if begun.state.retryPending then begun else (scheduleRetry begun nowMs).1
  (scheduled, ⟨.ok, .inputStalled, none⟩)

def onConnected (link : LinkKind) : MediaReconnect × ReconnectAnswer :=
  let joined := r.setConnected link true
  if joined.state.retryPending then (joined, ⟨.ok, .none, none⟩)
  else if !r.state.bothConnected && joined.state.bothConnected then
    (joined, ⟨.ok, .reconnected, none⟩)
  else (joined, ⟨.ok, .none, none⟩)

def onLost (link : LinkKind) (nowMs : ℕ) :
    MediaReconnect × ReconnectAnswer :=
  let parted := (recover r nowMs).setConnected link false
  if parted.state.retryPending then (parted, ⟨.ok, .none, none⟩)
  else ((scheduleRetry parted nowMs).1, ⟨.ok, (scheduleRetry parted nowMs).2, none⟩)

/-- `ivr_media_reconnect_on_state`. -/
def onState (link : LinkKind) (attemptGeneration : ℕ) (state : LinkState)
    (errorCode : ℤ) (nowMs : ℕ) : MediaReconnect × ReconnectAnswer :=
  if attemptGeneration ≠ r.state.attemptGeneration then
    ({ r with state := { r.state with
        staleCallbacks := Words.succ64 r.state.staleCallbacks } }, ⟨.estate, .none, none⟩)
  else if r.state.exhausted then (r, ⟨.estate, .none, none⟩)
  else if link = .whep ∧ errorCode = errorInputStalled then onInputStalled r nowMs
  else
    match state with
    | .connecting => (r, ⟨.ok, .none, none⟩)
    | .connected => onConnected r link
    | .disconnected => onLost r link nowMs
    | .failed => onLost r link nowMs
    | .closed => onLost r link nowMs

/-- `ivr_media_reconnect_poll`. -/
def poll (nowMs : ℕ) : MediaReconnect × ReconnectAnswer :=
  if r.state.exhausted then (r, ⟨.estate, .none, some r.state.attemptGeneration⟩)
  else if r.state.retryPending && decide (nowMs ≥ r.state.nextRetryAtMs) then
    if nowMs ≥ r.state.deadlineAtMs ∨ r.state.attemptsStarted ≥ r.config.maxAttempts then
      ({ r with state := { r.state with exhausted := true, retryPending := false } },
        ⟨.ok, .retryExhausted, some r.state.attemptGeneration⟩)
    else
      ({ r with state := { r.state with
          retryPending := false
          whipConnected := false
          whepConnected := false
          attemptsStarted := Words.succ32 r.state.attemptsStarted
          attemptGeneration := Words.succ64 r.state.attemptGeneration } },
        ⟨.ok, .retryDue, some (Words.succ64 r.state.attemptGeneration)⟩)
  else (r, ⟨.ok, .none, some r.state.attemptGeneration⟩)

/-- Calls on the reconnection. -/
inductive ReconnectOp where
  | onState
      (link : LinkKind) (attemptGeneration : ℕ) (state : LinkState) (errorCode : ℤ)
      (nowMs : UInt64)
  | poll (nowMs : UInt64)

def ReconnectOp.nowMs : ReconnectOp → UInt64
  | .onState _ _ _ _ nowMs => nowMs
  | .poll nowMs => nowMs

def reconnectMachine : Machine MediaReconnect ReconnectOp ReconnectAnswer where
  step := fun r op =>
    match op with
    | .onState link attemptGeneration state errorCode nowMs =>
      onState r link attemptGeneration state errorCode nowMs.toNat
    | .poll nowMs => poll r nowMs.toNat

end TurboMedia.Ivr
