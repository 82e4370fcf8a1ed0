import TurboMedia.Lib.Machine
import TurboMedia.Lib.Scan
import TurboMedia.Lib.Tickets
import TurboMedia.Lib.Words

/-!
# Provider completions and their delivery

Model of `turbo_streamgraph_provider_completion.c` and of the completion part of
`turbo_streamgraph_owner_dispatch.c`.  A portal has a row for every operation that a
provider has in flight; the owner takes terminal results from it, hands each to the host
and settles the row.

Every call on a portal is one section under its lock.  A delivery is two sections, with
the host's callback between them: the owner takes a result, other calls may run while the
host has it, and the owner goes on with what the host answered.  Null arguments and the
sizes of the results that callers provide are left out; memory is allocated.
-/

namespace TurboMedia.StreamGraph

/-- `tm_pc_status`. -/
inductive PcStatus where
  | ok
  | einval
  | eversion
  | enomem
  | efull
  | estale
  | ealready
  | ebusy
  | eshutdown
  | eexhausted
deriving DecidableEq

/-- `pc_state`. -/
inductive PcState where
  | free
  | inflight
  | cancelPending
  | ready
  | taken
deriving DecidableEq

/-- `tm_pc_result_v1`. -/
structure PcResult where
  size : ℕ
  version : ℕ
  outcome : ℕ
  completionObserved : ℕ
  correlation : ℕ
  providerGeneration : ℕ
  providerStatus : ℤ
  reserved : ℤ
deriving DecidableEq

/-- `pc_row`. -/
structure PcRow where
  state : PcState
  generation : ℕ
  order : ℕ
  correlation : ℕ
  result : PcResult

/-- `tm_pc_ticket_v1`. -/
structure PcTicket where
  incarnation : ℕ
  slot : ℕ
  generation : ℕ
deriving DecidableEq

/-- `tm_pc_portal`; the capacity is the number of rows. -/
structure PcPortal where
  incarnation : ℕ
  providerGeneration : ℕ
  nextOrder : ℕ
  rows : List PcRow
  sealed : Bool

/-- `tm_pc_config_v1`. -/
structure PcConfig where
  size : ℕ
  version : ℕ
  capacity : ℕ
  reserved : ℕ
  providerGeneration : ℕ

/-- `TM_PC_ABI_V1` and `TM_PC_MAX_CAPACITY`. -/
def pcAbi : ℕ := 1
def pcMaxCapacity : ℕ := 1024

def sizeofPcConfig : ℕ := 24
def sizeofPcResult : ℕ := 40

/-- `tm_pc_outcome`. -/
def pcCompleted : ℕ := 1
def pcCancelled : ℕ := 2
def pcStartFailed : ℕ := 3

/-- `TM_PC_RESULT_V1_INIT`. -/
def pcResultInit : PcResult :=
  ⟨sizeofPcResult, pcAbi, 0, 0, 0, 0, 0, 0⟩

def zeroPcResult : PcResult :=
  ⟨0, 0, 0, 0, 0, 0, 0, 0⟩

def zeroPcRow : PcRow :=
  ⟨.free, 0, 0, 0, zeroPcResult⟩

def zeroPcTicket : PcTicket :=
  ⟨0, 0, 0⟩

/-- `pc_find`, with the row found. -/
def pcFind (p : PcPortal) (t : PcTicket) : Option PcRow :=
  if t.incarnation ≠ p.incarnation ∨ t.generation = 0 then none
  else
    match p.rows[t.slot]? with
    | none => none
    | some r => if r.state ≠ .free ∧ r.generation = t.generation then some r else none

/-- `pc_ready`. -/
def pcReady (r : PcRow) (outcome completed : ℕ) (status : ℤ) : PcRow :=
  { r with
    result := { r.result with
      outcome := outcome
      completionObserved := completed
      providerStatus := status }
    state := .ready }

def PcPortal.setRow (p : PcPortal) (i : ℕ) (r : PcRow) : PcPortal :=
  { p with rows := p.rows.set i r }

/-- `tm_pc_create`, with the number drawn from the process-wide counter. -/
def pcCreate (cfg : PcConfig) (incarnation : ℕ) : Except PcStatus PcPortal :=
  if cfg.version ≠ pcAbi then .error .eversion
  else if cfg.size ≠ sizeofPcConfig ∨ cfg.reserved ≠ 0 ∨ cfg.capacity = 0 ∨
      cfg.capacity > pcMaxCapacity ∨ cfg.providerGeneration = 0 then
    .error .einval
  else if incarnation = 0 ∨ incarnation = Words.max64 then .error .eexhausted
  else .ok ⟨incarnation, cfg.providerGeneration, 1, List.replicate cfg.capacity zeroPcRow, false⟩

/-- The row of `tm_pc_begin`: free, and not at the end of its generations. -/
def pcFreeRow (p : PcPortal) : Option ℕ :=
  p.rows.findIdx? (fun r => decide (r.state = .free) && decide (r.generation ≠ Words.max32))

def PcRow.start (r : PcRow) (order correlation providerGeneration : ℕ) : PcRow where
  state := .inflight
  generation := r.generation + 1
  order := order
  correlation := correlation
  result := { pcResultInit with
    correlation := correlation
    providerGeneration := providerGeneration }

variable (p : PcPortal)

/-- `tm_pc_begin`. -/
def pcBegin (correlation : ℕ) : PcPortal × Except PcStatus PcTicket :=
  if correlation = 0 then (p, .error .einval)
  else if p.sealed then (p, .error .eshutdown)
  else if p.nextOrder = Words.max64 then (p, .error .eexhausted)
  else
    match pcFreeRow p with
    | none => (p, .error .efull)
    | some i =>
      let r := p.rows.getD i zeroPcRow
      ({ p.setRow i (r.start p.nextOrder correlation p.providerGeneration) with
        nextOrder := p.nextOrder + 1 }, .ok ⟨p.incarnation, i, r.generation + 1⟩)

variable (t : PcTicket)

/-- The calls that name a ticket: stale, or the row decides. -/
def pcUpdate (f : PcRow → Except PcStatus PcRow) :
    PcPortal × PcStatus :=
  match pcFind p t with
  | none => (p, .estale)
  | some r =>
    match f r with
    | .error e => (p, e)
    | .ok r' => (p.setRow t.slot r', .ok)

/-- `tm_pc_fail_start`. -/
def pcFailStart (status : ℤ) : PcPortal × PcStatus :=
  pcUpdate p t (fun r =>
    if r.state ≠ .inflight then .error .ealready
    else .ok (pcReady r pcStartFailed 0 status))

/-- `tm_pc_complete`. -/
def pcComplete (status : ℤ) : PcPortal × PcStatus :=
  pcUpdate p t (fun r =>
    if r.state = .inflight then .ok (pcReady r pcCompleted 1 status)
    else if r.state = .cancelPending then .ok (pcReady r pcCancelled 1 status)
    else .error .ealready)

/-- `tm_pc_request_cancel`. -/
def pcRequestCancel : PcPortal × PcStatus :=
  pcUpdate p t (fun r =>
    if r.state = .inflight then .ok { r with state := .cancelPending }
    else .error .ealready)

/-- `tm_pc_cancel_quiesced`. -/
def pcCancelQuiesced : PcPortal × PcStatus :=
  pcUpdate p t (fun r =>
    if r.state = .cancelPending then .ok (pcReady r pcCancelled 0 0)
    else .error .ealready)

/-- The row of `tm_pc_take`: ready, with the least order. -/
def pcOldest : Option ℕ :=
  (Scan.firstMin (fun r => if r.state = .ready ∧ r.order < Words.max64 then some r.order
    else none) p.rows).map Prod.fst

/-- `tm_pc_take`. -/
def pcTake : PcPortal × Except PcStatus (PcTicket × PcResult) :=
  match pcOldest p with
  | none => (p, .error .ebusy)
  | some i =>
    let r := p.rows.getD i zeroPcRow
    (p.setRow i { r with state := .taken }, .ok (⟨p.incarnation, i, r.generation⟩, r.result))

/-- The row after it was settled; it keeps its generation. -/
def PcRow.clear (r : PcRow) : PcRow :=
  { r with
    state := .free
    order := 0
    correlation := 0
    result := zeroPcResult }

/-- `tm_pc_settle`. -/
def pcSettle (p : PcPortal) (t : PcTicket) : PcPortal × PcStatus :=
  pcUpdate p t (fun r => if r.state ≠ .taken then .error .ebusy else .ok r.clear)

/-- `tm_pc_seal`. -/
def pcSeal (p : PcPortal) : PcPortal :=
  { p with sealed := true }

/-- `tm_od_status`. -/
inductive OdStatus where
  | ok
  | empty
  | einval
  | eversion
  | enomem
  | ebusy
  | equeue
  | eframe
  | edelivery
  | eportal

/-- The completion part of `tm_od_owner`, with its portal.  `emitting` is the ticket of a
delivery whose callback has not returned. -/
structure OdOwner where
  portal : PcPortal
  bound : Bool
  pendingCompletion : PcTicket
  pendingTerminal : PcResult
  inStep : Bool
  emitting : Option PcTicket

/-- `tm_od_create`, an owner beside its portal. -/
def odNew (portal : PcPortal) : OdOwner :=
  ⟨portal, false, zeroPcTicket, zeroPcResult, false, none⟩

variable (o : OdOwner)

/-- `tm_od_bind_completion`. -/
def odBindCompletion : OdOwner × OdStatus :=
  if o.inStep then (o, .ebusy)
  else if o.bound then (o, .ebusy)
  else ({ o with bound := true }, .ok)

/-- `tm_od_pending_completion`. -/
def odPendingCompletion : Except OdStatus PcResult :=
  if o.inStep then .error .ebusy
  else if o.pendingCompletion.incarnation = 0 then .error .empty
  else .ok o.pendingTerminal

/-- The owner after its pending completion was settled. -/
def OdOwner.forget (portal : PcPortal) : OdOwner :=
  { o with
    portal := portal
    pendingCompletion := zeroPcTicket
    pendingTerminal := zeroPcResult }

/-- `tm_od_settle_pending_completion`. -/
def odSettlePendingCompletion : OdOwner × OdStatus :=
  if o.inStep then (o, .ebusy)
  else if o.pendingCompletion.incarnation = 0 then (o, .empty)
  else
    match pcSettle o.portal o.pendingCompletion with
    | (portal, .ok) => (o.forget portal, .ok)
    | (portal, _) => ({ o with portal := portal }, .eportal)

/-- `tm_od_step_completion` up to the call of `terminal_emit`: an answer, or the result
that is handed over. -/
def odStepCompletion : OdOwner × Except OdStatus (PcTicket × PcResult) :=
  if o.bound = false then (o, .error .einval)
  else if o.inStep ∨ o.pendingCompletion.incarnation ≠ 0 then (o, .error .ebusy)
  else
    match pcTake o.portal with
    | (portal, .error .ebusy) => ({ o with portal := portal }, .error .empty)
    | (portal, .error _) => ({ o with portal := portal }, .error .eportal)
    | (portal, .ok (ticket, terminal)) =>
      (⟨portal, o.bound, ticket, terminal, true, some ticket⟩, .ok (ticket, terminal))

/-- `tm_od_step_completion` from the return of `terminal_emit` on. -/
def odEmitted (emitted : ℤ) : OdOwner × Option OdStatus :=
  match o.emitting with
  | none => (o, none)
  | some ticket =>
    if emitted ≠ 0 then
      ({ o with
        inStep := false
        emitting := none }, some .edelivery)
    else
      match pcSettle o.portal ticket with
      | (portal, .ok) =>
        ({ o.forget portal with
          inStep := false
          emitting := none }, some .ok)
      | (portal, _) =>
        ({ o with
          portal := portal
          inStep := false
          emitting := none }, some .eportal)

/-- Calls of provider threads, of the owner, and the returns of its callback. -/
inductive PcOp where
  | begin (correlation : ℕ)
  | failStart (ticket : PcTicket) (status : ℤ)
  | complete (ticket : PcTicket) (status : ℤ)
  | requestCancel (ticket : PcTicket)
  | cancelQuiesced (ticket : PcTicket)
  | take
  | settle (ticket : PcTicket)
  | sealPortal
  | bindCompletion
  | stepCompletion
  | emitted (answer : ℤ)
  | settlePendingCompletion

inductive PcAnswer where
  | status (status : PcStatus)
  | begun (result : Except PcStatus PcTicket)
  | taken (result : Except PcStatus (PcTicket × PcResult))
  | owner (status : OdStatus)
  | emits (result : Except OdStatus (PcTicket × PcResult))
  | emitted (status : Option OdStatus)

def OdOwner.withPortal (o : OdOwner) (portal : PcPortal) : OdOwner :=
  { o with portal := portal }

def pcStep (o : OdOwner) : PcOp → OdOwner × PcAnswer
  | .begin correlation => (o.withPortal (pcBegin o.portal correlation).1,
      .begun (pcBegin o.portal correlation).2)
  | .failStart ticket status => (o.withPortal (pcFailStart o.portal ticket status).1,
      .status (pcFailStart o.portal ticket status).2)
  | .complete ticket status => (o.withPortal (pcComplete o.portal ticket status).1,
      .status (pcComplete o.portal ticket status).2)
  | .requestCancel ticket => (o.withPortal (pcRequestCancel o.portal ticket).1,
      .status (pcRequestCancel o.portal ticket).2)
  | .cancelQuiesced ticket => (o.withPortal (pcCancelQuiesced o.portal ticket).1,
      .status (pcCancelQuiesced o.portal ticket).2)
  | .take => (o.withPortal (pcTake o.portal).1, .taken (pcTake o.portal).2)
  | .settle ticket => (o.withPortal (pcSettle o.portal ticket).1,
      .status (pcSettle o.portal ticket).2)
  | .sealPortal => (o.withPortal (pcSeal o.portal), .status .ok)
  | .bindCompletion => ((odBindCompletion o).1, .owner (odBindCompletion o).2)
  | .stepCompletion => ((odStepCompletion o).1, .emits (odStepCompletion o).2)
  | .emitted answer => ((odEmitted o answer).1, .emitted (odEmitted o answer).2)
  | .settlePendingCompletion => ((odSettlePendingCompletion o).1,
      .owner (odSettlePendingCompletion o).2)

end TurboMedia.StreamGraph
