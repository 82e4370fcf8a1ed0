import TurboMedia.Auth.Revocation

/-!
# Revocation fan-out coordinator

Model of `turbo_media_revocation_fanout.c`: one producer publishes canonical
snapshots and revoke events to a bounded set of targets, with bounded retries
and a covering snapshot as the fallback.

The transport is a pair of callbacks in the source.  Here an opaque target
context is the node behind it: its revocation state, the requests sent to it
and the ones that arrived.  An `Exchange` is what the transport does during one
attempt: it may deliver earlier requests first, deliver or drop this one, lose
the answer, and deliver further requests before the coordinator goes on.  A
lost request or answer is reported RETRYABLE.
-/

namespace TurboMedia.RevocationFanout

open Revocation (Digest)

/-- `TURBO_MEDIA_REVOCATION_FANOUT_MAX_TARGETS`. -/
def maxTargets : ℕ := 64

/-- `TURBO_MEDIA_REVOCATION_FANOUT_TARGET_ID_BYTES`. -/
def targetIdBytes : ℕ := 64

/-- `TURBO_MEDIA_REVOCATION_FANOUT_MAX_ATTEMPTS`. -/
def maxAttemptsBound : ℕ := 8

inductive TransportResult where
  | applied
  | stale
  | gap
  | limit
  | error
  | retryable
  | fatal
deriving DecidableEq

inductive TargetState where
  | unknown
  | synchronized
  | recovered
  | failed
deriving DecidableEq

/-- `turbo_media_revocation_fanout_response_t`. -/
structure Response where
  synchronized : Bool
  epoch : UInt64
  sequence : UInt64

/-- The response after `memset`. -/
def Response.zero : Response :=
  ⟨false, 0, 0⟩

/-- Request handed to one of the two callbacks. -/
inductive Request where
  | snapshot (epoch sequence : UInt64) (sha256Hex : List CStr)
  | revoke (epoch sequence : UInt64) (sha256Hex : CStr)
deriving DecidableEq

def Request.version : Request → Version
  | .snapshot epoch sequence _ => Version.of epoch sequence
  | .revoke epoch sequence _ => Version.of epoch sequence

/-- What the target does with a request; `memory` as in `applySnapshot`. -/
def Request.op (memory : Bool) : Request → Revocation.Op
  | .snapshot epoch sequence sha256Hex => .applySnapshot epoch sequence (some sha256Hex) memory
  | .revoke epoch sequence sha256Hex => .applyRevoke epoch sequence (some sha256Hex)

/-- The node behind a target: its first state, what was sent to it, and what
arrived in which order. -/
structure Node where
  start : Revocation.State
  sent : List Request
  received : List Revocation.Op
deriving DecidableEq

def Node.state (node : Node) : Revocation.State :=
  Revocation.machine.run node.start node.received

/-- Arrival of a request that was sent before, late or once more. -/
structure Delivery where
  index : ℕ
  memory : Bool

def Node.deliver (node : Node) (delivery : Delivery) : Node :=
  match node.sent[delivery.index]? with
  | none => node
  | some request => { node with received := node.received ++ [request.op delivery.memory] }

/-- What the transport does during one attempt. -/
structure Exchange where
  before : List Delivery
  arrives : Option Bool
  answered : Bool
  after : List Delivery

/-- Transport result of an answer of the target. -/
def transportResult : Revocation.ApplyResult → TransportResult
  | .applied => .applied
  | .stale => .stale
  | .gap => .gap
  | .limit => .limit
  | .error => .error

/-- `send_snapshot` and `send_revoke` of the transport. -/
def transmit (node : Node) (request : Request) (exchange : Exchange) :
    Node × TransportResult × Response :=
  let node := exchange.before.foldl Node.deliver
    { node with sent := node.sent ++ [request] }
  match exchange.arrives with
  | none => (exchange.after.foldl Node.deliver node, .retryable, Response.zero)
  | some memory =>
    let result := Revocation.machine.answer node.state (request.op memory)
    let node := { node with received := node.received ++ [request.op memory] }
    let response := ⟨node.state.synchronized, node.state.epoch, node.state.sequence⟩
    let node' := exchange.after.foldl Node.deliver node
    if exchange.answered then (node', transportResult result, response)
    else (node', .retryable, Response.zero)

/-- `fanout_target_state_t`. -/
structure Target where
  targetId : CStr
  targetContext : Node
  state : TargetState
  lastTransportResult : TransportResult
  epoch : UInt64
  sequence : UInt64
  attempts : ℕ
deriving DecidableEq

/-- `turbo_media_revocation_fanout_t`. -/
structure Fanout where
  maxAttempts : ℕ
  targets : List Target
  canonicalInitialized : Bool
  canonicalEpoch : UInt64
  canonicalSequence : UInt64
deriving DecidableEq

def fanoutIdChar (ch : UInt8) : Bool :=
  (65 ≤ ch && ch ≤ 90) || (97 ≤ ch && ch ≤ 122) || (48 ≤ ch && ch ≤ 57) ||
    ch == 95 || ch == 45 || ch == 46 || ch == 58

def fanoutIdValid (value : CStr) : Bool :=
  !value.isEmpty && decide (value.length < targetIdBytes) && value.all fanoutIdChar

def digestHexValid (value : CStr) : Bool :=
  value.length == 64 && value.all (fun ch => (48 ≤ ch && ch ≤ 57) || (97 ≤ ch && ch ≤ 102))

/-- `snapshot_contains`; `none` is a null array with a positive count. -/
def snapshotContains (sha256Hex : Option (List CStr)) (digest : CStr) : Bool :=
  match sha256Hex with
  | none => false
  | some sha256Hex => sha256Hex.any (fun value => value == digest)

/-- The loop of `snapshot_payload_valid`; `prior` are the entries before. -/
def payloadEntriesValid : List CStr → List CStr → Bool
  | _, [] => true
  | prior, value :: rest =>
    digestHexValid value && !prior.any (fun old => value == old) &&
      payloadEntriesValid (prior ++ [value]) rest

def snapshotPayloadValid (sha256Hex : Option (List CStr)) : Bool :=
  match sha256Hex with
  | none => false
  | some sha256Hex =>
    decide (sha256Hex.length ≤ Revocation.maxRevokedTokens) && payloadEntriesValid [] sha256Hex

def versionLess (epoch sequence otherEpoch otherSequence : UInt64) : Bool :=
  Revocation.revocationVersionLess epoch sequence otherEpoch otherSequence

def responseCovers (response : Response) (epoch sequence : UInt64) : Bool :=
  response.synchronized && !versionLess response.epoch response.sequence epoch sequence

def targetMarkFailed (target : Target) (result : TransportResult) (attempts : ℕ) : Target :=
  { target with
    state := .failed
    lastTransportResult := result
    attempts := attempts }

def targetMarkSynchronized (target : Target) (state : TargetState) (result : TransportResult)
    (attempts : ℕ) (response : Response) : Target :=
  { target with
    state := state
    lastTransportResult := result
    attempts := attempts
    epoch := response.epoch
    sequence := response.sequence }

/-- How a bounded retry loop ended. -/
structure LoopExit where
  node : Node
  result : TransportResult
  attempts : ℕ
  covered : Option Response

/-- The retry loop of both send functions, from `attempt` on with `remaining`
attempts left.  It stops at a covering answer or at the first result that is
not RETRYABLE. -/
def sendLoop (request : Request) (epoch sequence : UInt64) (net : ℕ → Exchange) :
    ℕ → ℕ → TransportResult → Node → LoopExit
  | 0, attempt, result, node => ⟨node, result, attempt - 1, none⟩
  | remaining + 1, attempt, _, node =>
    let out := transmit node request (net attempt)
    let result := out.2.1
    let response := out.2.2
    if (result == .applied || result == .stale) &&
        responseCovers response epoch sequence then
      ⟨out.1, result, attempt, some response⟩
    else if result != .retryable then ⟨out.1, result, attempt, none⟩
    else sendLoop request epoch sequence net remaining (attempt + 1) result out.1

/-- `send_snapshot_bounded`; the flag is true for the return value 0. -/
def sendSnapshotBounded (maxAttempts : ℕ) (target : Target) (epoch sequence : UInt64)
    (sha256Hex : List CStr) (successState : TargetState) (net : ℕ → Exchange) : Target × Bool :=
  let last := sendLoop (.snapshot epoch sequence sha256Hex) epoch sequence net
    maxAttempts 1 .fatal target.targetContext
  let target := { target with targetContext := last.node }
  match last.covered with
  | some response =>
    (targetMarkSynchronized target successState last.result last.attempts response, true)
  | none => (targetMarkFailed target last.result last.attempts, false)

/-- `send_revoke_bounded`; the flag is true for the return value 0. -/
def sendRevokeBounded (maxAttempts : ℕ) (target : Target) (epoch sequence : UInt64)
    (sha256Hex : CStr) (net : ℕ → Exchange) : Target × Bool :=
  let last := sendLoop (.revoke epoch sequence sha256Hex) epoch sequence net
    maxAttempts 1 .fatal target.targetContext
  let target := { target with targetContext := last.node }
  match last.covered with
  | some response =>
    (targetMarkSynchronized target .synchronized last.result last.attempts response, true)
  | none => ({ target with lastTransportResult := last.result, attempts := last.attempts }, false)

/-- `turbo_media_revocation_fanout_report_t`. -/
structure Report where
  epoch : UInt64
  sequence : UInt64
  targetCount : ℕ
  synchronizedCount : ℕ
  recoveredCount : ℕ
  failedCount : ℕ

/-- The report counts this target as synchronized. -/
def countedSynchronized (target : Target) : Bool :=
  target.state == .synchronized || target.state == .recovered

def fillReport (fanout : Fanout) (epoch sequence : UInt64) : Report :=
  { epoch := epoch
    sequence := sequence
    targetCount := fanout.targets.length
    synchronizedCount := fanout.targets.countP countedSynchronized
    recoveredCount := fanout.targets.countP (fun target => target.state == .recovered)
    failedCount := fanout.targets.countP (fun target => target.state == .failed) }

/-- Target identifiers are valid and differ from the ones before. -/
def targetIdsValid : List CStr → List CStr → Bool
  | _, [] => true
  | prior, targetId :: rest =>
    fanoutIdValid targetId && !prior.any (fun old => targetId == old) &&
      targetIdsValid (prior ++ [targetId]) rest

/-- `turbo_media_revocation_fanout_create`, when memory is available. -/
def create (maxAttempts : ℕ) (targets : List (CStr × Node)) : Option Fanout :=
  if targets.length == 0 || decide (targets.length > maxTargets) ||
      maxAttempts == 0 || decide (maxAttempts > maxAttemptsBound) ||
      !targetIdsValid [] (targets.map Prod.fst) then
    none
  else
    some
      { maxAttempts := maxAttempts
        targets := targets.map (fun entry =>
          { targetId := entry.1
            targetContext := entry.2
            state := .unknown
            lastTransportResult := .fatal
            epoch := 0
            sequence := 0
            attempts := 0 })
        canonicalInitialized := false
        canonicalEpoch := 0
        canonicalSequence := 0 }

/-- Return value and report of a publish call; a refused call writes no report. -/
structure PublishResult where
  code : Int
  report : Option Report

/-- The last lines of both publish functions. -/
def finishPublish (fanout : Fanout) (epoch sequence : UInt64) (outs : List (Target × Bool)) :
    Fanout × PublishResult :=
  let fanout := { fanout with targets := outs.map Prod.fst }
  let failed := outs.countP (fun out => !out.2)
  (fanout, ⟨if failed == 0 then 0 else 1, some (fillReport fanout epoch sequence)⟩)

/-- `turbo_media_revocation_fanout_publish_snapshot`; `net` is the transport
toward each target. -/
def publishSnapshot (fanout : Fanout) (epoch sequence : UInt64) (sha256Hex : Option (List CStr))
    (net : ℕ → ℕ → Exchange) : Fanout × PublishResult :=
  if epoch == 0 || !snapshotPayloadValid sha256Hex ||
      (fanout.canonicalInitialized &&
        versionLess epoch sequence fanout.canonicalEpoch fanout.canonicalSequence) then
    (fanout, ⟨-1, none⟩)
  else
    let fanout :=
      if !fanout.canonicalInitialized ||
          versionLess fanout.canonicalEpoch fanout.canonicalSequence epoch sequence then
        { fanout with
          canonicalInitialized := true
          canonicalEpoch := epoch
          canonicalSequence := sequence }
      else fanout
    finishPublish fanout epoch sequence (fanout.targets.mapIdx (fun index target =>
        sendSnapshotBounded fanout.maxAttempts target epoch sequence
          (sha256Hex.getD []) .synchronized (net index)))

/-- The target has acknowledged exactly the version before the event. -/
def eventReady (target : Target) (previousEpoch previousSequence : UInt64) : Bool :=
  (target.state == .synchronized || target.state == .recovered) &&
    target.epoch == previousEpoch && target.sequence == previousSequence

/-- Body of the target loop of `publish_revoke`. -/
def publishRevokeTo (maxAttempts : ℕ) (target : Target) (previousEpoch previousSequence : UInt64)
    (epoch sequence : UInt64) (sha256Hex : CStr) (covering : List CStr)
    (eventNet snapshotNet : ℕ → Exchange) : Target × Bool :=
  if eventReady target previousEpoch previousSequence then
    let out := sendRevokeBounded maxAttempts target epoch sequence sha256Hex eventNet
    if out.2 then out
    else sendSnapshotBounded maxAttempts out.1 epoch sequence covering .recovered snapshotNet
  else sendSnapshotBounded maxAttempts target epoch sequence covering .recovered snapshotNet

/-- `turbo_media_revocation_fanout_publish_revoke`. -/
def publishRevoke (fanout : Fanout) (epoch sequence : UInt64) (sha256Hex : CStr)
    (covering : Option (List CStr)) (eventNet snapshotNet : ℕ → ℕ → Exchange) :
    Fanout × PublishResult :=
  if !digestHexValid sha256Hex || epoch == 0 || sequence == 0 ||
      !fanout.canonicalInitialized || epoch != fanout.canonicalEpoch ||
      fanout.canonicalSequence == UInt64.ofNat (2 ^ 64 - 1) ||
      sequence != fanout.canonicalSequence + 1 ||
      !snapshotPayloadValid covering || !snapshotContains covering sha256Hex then
    (fanout, ⟨-1, none⟩)
  else
    let previousEpoch := fanout.canonicalEpoch
    let previousSequence := fanout.canonicalSequence
    let fanout := { fanout with canonicalSequence := sequence }
    finishPublish fanout epoch sequence (fanout.targets.mapIdx (fun index target =>
        publishRevokeTo fanout.maxAttempts target previousEpoch previousSequence
          epoch sequence sha256Hex (covering.getD []) (eventNet index) (snapshotNet index)))

/-- A request reaches the target at the given position on its own. -/
def deliverTo (fanout : Fanout) (index : ℕ) (delivery : Delivery) : Fanout :=
  { fanout with
    targets := fanout.targets.modify index (fun target =>
      { target with targetContext := target.targetContext.deliver delivery }) }

inductive Op where
  | publishSnapshot (epoch sequence : UInt64) (sha256Hex : Option (List CStr))
      (net : ℕ → ℕ → Exchange)
  | publishRevoke (epoch sequence : UInt64) (sha256Hex : CStr)
      (covering : Option (List CStr)) (eventNet snapshotNet : ℕ → ℕ → Exchange)
  | deliver (index : ℕ) (delivery : Delivery)

/-- The publish calls, and arrivals between them. -/
def machine : Machine Fanout Op (Option PublishResult) where
  step fanout
    | .publishSnapshot epoch sequence sha256Hex net =>
      Prod.map id some (publishSnapshot fanout epoch sequence sha256Hex net)
    | .publishRevoke epoch sequence sha256Hex covering eventNet snapshotNet =>
      Prod.map id some (publishRevoke fanout epoch sequence sha256Hex covering eventNet snapshotNet)
    | .deliver index delivery => (deliverTo fanout index delivery, none)

end TurboMedia.RevocationFanout
