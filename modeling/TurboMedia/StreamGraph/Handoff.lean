import TurboMedia.Lib.Scan
import TurboMedia.Lib.Tickets
import TurboMedia.StreamGraph.FrameStore

/-!
# The hand-off inbox

Model of `turbo_streamgraph_handoff.c`: producers reserve a row, write a command into it
and publish it; the owner takes commands and settles their rows.

Every call is one section under the lock, so that calls of any number of threads are a
sequence of operations.  Null arguments are left out; memory is allocated.
-/

namespace TurboMedia.StreamGraph

/-- `tm_ho_status`. -/
inductive HoStatus where
  | ok
  | einval
  | eversion
  | enomem
  | efull
  | estale
  | ebusy
  | eshutdown
  | eexhausted

/-- `ho_row_state`. -/
inductive HoRowState where
  | free
  | reserved
  | ready
  | taken
deriving DecidableEq

/-- `tm_ho_command_v1`. -/
structure HoCommand where
  size : ℕ
  version : ℕ
  kind : ℕ
  branch : ℕ
  correlation : ℕ
  hasFrame : ℕ
  reserved : ℕ
  frame : FrameRef
deriving DecidableEq

/-- `ho_row`. -/
structure HoRow where
  generation : ℕ
  state : HoRowState
  order : ℕ
  command : HoCommand

/-- `tm_ho_ticket_v1`. -/
structure HoTicket where
  incarnation : ℕ
  slot : ℕ
  generation : ℕ
deriving DecidableEq

/-- `tm_ho_inbox`; the capacity is the number of rows. -/
structure HoInbox where
  incarnation : ℕ
  nextOrder : ℕ
  rows : List HoRow
  sealed : Bool

/-- `tm_ho_config_v1`. -/
structure HoConfig where
  size : ℕ
  version : ℕ
  capacity : ℕ
  reserved : ℕ

/-- `tm_ho_snapshot_v1`, what is written to it. -/
structure HoSnapshot where
  capacity : ℕ
  reserved : ℕ
  ready : ℕ
  taken : ℕ
  sealed : Bool
  drained : Bool

/-- `TM_HO_ABI_V1` and `TM_HO_MAX_CAPACITY`. -/
def hoAbi : ℕ := 1
def hoMaxCapacity : ℕ := 1024

def sizeofHoCommand : ℕ := 88
def sizeofHoConfig : ℕ := 16

/-- `tm_ho_command_kind`. -/
def hoPumpSource : ℕ := 1
def hoPumpSink : ℕ := 2
def hoStop : ℕ := 3
def hoFrameNotice : ℕ := 4

def zeroCommand : HoCommand :=
  ⟨0, 0, 0, 0, 0, 0, 0, ⟨0, 0, 0, 0, 0, 0, 0, 0, 0⟩⟩

def zeroHoRow : HoRow :=
  ⟨0, .free, 0, zeroCommand⟩

/-- `ho_find`, with the row found. -/
def hoFind (q : HoInbox) (t : HoTicket) : Option HoRow :=
  if t.incarnation ≠ q.incarnation ∨ t.generation = 0 then none
  else
    match q.rows[t.slot]? with
    | none => none
    | some r => if r.state ≠ .free ∧ r.generation = t.generation then some r else none

/-- `ho_valid_command`. -/
def hoValidCommand (c : HoCommand) : Bool :=
  if c.size ≠ sizeofHoCommand ∨ c.version ≠ hoAbi ∨ c.reserved ≠ 0 ∨ c.kind < hoPumpSource ∨
      c.kind > hoFrameNotice ∨ c.hasFrame > 1 then
    false
  else if c.kind = hoPumpSink then decide (c.hasFrame = 0 ∧ c.branch < 8)
  else if c.kind = hoFrameNotice then
    decide (c.branch = 0 ∧ c.hasFrame = 1 ∧ c.frame.size = sizeofFrameRef ∧
      c.frame.version = fsAbi ∧ c.frame.storeId ≠ 0 ∧ c.frame.storeGeneration ≠ 0 ∧
      c.frame.frameId ≠ 0 ∧ c.frame.slotGeneration ≠ 0 ∧
      c.frame.sourceSessionGeneration ≠ 0 ∧ c.frame.displayGeneration ≠ 0)
  else decide (c.branch = 0 ∧ c.hasFrame = 0)

def HoInbox.setRow (q : HoInbox) (i : ℕ) (r : HoRow) : HoInbox :=
  { q with rows := q.rows.set i r }

/-- The row after it was given back; it keeps its generation. -/
def HoRow.clear (r : HoRow) : HoRow :=
  { r with
    state := .free
    order := 0
    command := zeroCommand }

def HoRow.fill (r : HoRow) (command : HoCommand) (order : ℕ) : HoRow :=
  { r with
    command := command
    order := order
    state := .ready }

/-- `tm_ho_create`, with the number drawn from the process-wide counter. -/
def hoCreate (cfg : HoConfig) (incarnation : ℕ) : Except HoStatus HoInbox :=
  if cfg.version ≠ hoAbi then .error .eversion
  else if cfg.size ≠ sizeofHoConfig ∨ cfg.reserved ≠ 0 ∨ cfg.capacity = 0 ∨
      cfg.capacity > hoMaxCapacity then
    .error .einval
  else if incarnation = 0 ∨ incarnation = Words.max64 then .error .eexhausted
  else .ok ⟨incarnation, 1, List.replicate cfg.capacity zeroHoRow, false⟩

/-- The row of `tm_ho_reserve`: free, and not at the end of its generations. -/
def hoFreeRow (q : HoInbox) : Option ℕ :=
  q.rows.findIdx? (fun r => decide (r.state = .free) && decide (r.generation ≠ Words.max32))

/-- `tm_ho_reserve`. -/
def hoReserve (q : HoInbox) : HoInbox × Except HoStatus HoTicket :=
  if q.sealed then (q, .error .eshutdown)
  else
    match hoFreeRow q with
    | none => (q, .error .efull)
    | some i =>
      let r := q.rows.getD i zeroHoRow
      (q.setRow i { r with
        generation := r.generation + 1
        state := .reserved }, .ok ⟨q.incarnation, i, r.generation + 1⟩)

/-- `tm_ho_publish`. -/
def hoPublish (q : HoInbox) (t : HoTicket) (command : HoCommand) : HoInbox × HoStatus :=
  if hoValidCommand command = false then (q, .einval)
  else
    match hoFind q t with
    | none => (q, .estale)
    | some r =>
      if r.state ≠ .reserved then (q, .ebusy)
      else if q.sealed then (q, .eshutdown)
      else if q.nextOrder = Words.max64 then (q, .eexhausted)
      else
        ({ q.setRow t.slot (r.fill command q.nextOrder) with
          nextOrder := q.nextOrder + 1 }, .ok)

/-- `tm_ho_abort` and `tm_ho_settle`: a row in this state is given back. -/
def hoGiveBack (state : HoRowState) (q : HoInbox) (t : HoTicket) : HoInbox × HoStatus :=
  match hoFind q t with
  | none => (q, .estale)
  | some r => if r.state ≠ state then (q, .ebusy) else (q.setRow t.slot r.clear, .ok)

/-- `tm_ho_abort`. -/
def hoAbort : HoInbox → HoTicket → HoInbox × HoStatus :=
  hoGiveBack .reserved

/-- `tm_ho_settle`. -/
def hoSettle : HoInbox → HoTicket → HoInbox × HoStatus :=
  hoGiveBack .taken

variable (q : HoInbox)

/-- The row of `tm_ho_take`: ready, with the least order. -/
def hoOldest : Option ℕ :=
  (Scan.firstMin (fun r => if r.state = .ready ∧ r.order < Words.max64 then some r.order
    else none) q.rows).map Prod.fst

/-- `tm_ho_take`. -/
def hoTake : HoInbox × Except HoStatus (HoTicket × HoCommand) :=
  match hoOldest q with
  | none => (q, .error .ebusy)
  | some i =>
    let r := q.rows.getD i zeroHoRow
    (q.setRow i { r with state := .taken }, .ok (⟨q.incarnation, i, r.generation⟩, r.command))

/-- `tm_ho_seal`. -/
def hoSeal : HoInbox :=
  { q with sealed := true }

def HoInbox.count (state : HoRowState) : ℕ :=
  q.rows.countP (fun r => decide (r.state = state))

/-- `tm_ho_snapshot`. -/
def hoSnapshot : HoSnapshot where
  capacity := q.rows.length
  reserved := q.count .reserved
  ready := q.count .ready
  taken := q.count .taken
  sealed := q.sealed
  drained := decide (q.count .reserved = 0 ∧ q.count .ready = 0 ∧ q.count .taken = 0)

/-- `tm_ho_destroy`, as far as its answer goes. -/
def hoDestroy : HoStatus :=
  if q.sealed = false then .ebusy
  else if q.rows.any (fun r => decide (r.state ≠ .free)) then .ebusy
  else .ok

/-- Calls on an inbox, of producers and of the owner. -/
inductive HoOp where
  | reserve
  | publish (ticket : HoTicket) (command : HoCommand)
  | abort (ticket : HoTicket)
  | take
  | settle (ticket : HoTicket)
  | sealInbox

inductive HoAnswer where
  | status (status : HoStatus)
  | reserved (result : Except HoStatus HoTicket)
  | taken (result : Except HoStatus (HoTicket × HoCommand))

def hoStep (q : HoInbox) : HoOp → HoInbox × HoAnswer
  | .reserve => ((hoReserve q).1, .reserved (hoReserve q).2)
  | .publish ticket command => ((hoPublish q ticket command).1,
      .status (hoPublish q ticket command).2)
  | .abort ticket => ((hoAbort q ticket).1, .status (hoAbort q ticket).2)
  | .take => ((hoTake q).1, .taken (hoTake q).2)
  | .settle ticket => ((hoSettle q ticket).1, .status (hoSettle q ticket).2)
  | .sealInbox => (hoSeal q, .status .ok)

end TurboMedia.StreamGraph
