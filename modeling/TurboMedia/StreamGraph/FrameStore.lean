import TurboMedia.Lib.Machine
import TurboMedia.Lib.SlotTable
import TurboMedia.Lib.Words

/-!
# The frame store

Model of `turbo_frame_store.c`: a fixed array of slots for frames, two tables of
credits (pins and leases) that name slots, and the operations on them.

Slots are indexed by numbers below the capacity.  A row of a credit table is
`none` when it is zeroed; tickets begin at one, so a row in use is never zeroed.
Arguments are never null.
-/

namespace TurboMedia.StreamGraph

inductive FsStatus where
  | ok
  | einval
  | eversion
  | enomem
  | efull
  | estale
  | ebusy
  | eshutdown
  | eexhausted
deriving DecidableEq

/-- `fs_state`. -/
inductive SlotState where
  | free
  | ready
  | retiring
deriving DecidableEq

/-- `fs_slot`. -/
structure Slot where
  memory : List UInt8
  length : ℕ
  frameId : ℕ
  slotGeneration : ℕ
  sessionGeneration : ℕ
  displayGeneration : ℕ
  pins : ℕ
  leases : ℕ
  state : SlotState

/-- `fs_credit`. -/
structure Credit where
  token : ℕ
  slot : ℕ
  generation : ℕ

/-- `tm_fs_config_v1`. -/
structure FsConfig where
  size : ℕ
  version : ℕ
  storeId : ℕ
  slotCapacity : ℕ
  maxFrameBytes : ℕ
  maxPins : ℕ
  maxLeases : ℕ
  maxRetainedBytes : ℕ

/-- `tm_fs_frame_ref_v1`. -/
structure FrameRef where
  size : ℕ
  version : ℕ
  storeId : ℕ
  storeGeneration : ℕ
  slot : ℕ
  slotGeneration : ℕ
  frameId : ℕ
  sourceSessionGeneration : ℕ
  displayGeneration : ℕ
deriving DecidableEq

/-- `tm_fs_pin_v1` and `tm_fs_lease_v1`, which have the same fields. -/
structure Ticket where
  storeId : ℕ
  storeGeneration : ℕ
  ticketId : ℕ

/-- `tm_fs_cpu_view_v1`.  The data are the bytes of the buffer pointed to. -/
structure CpuView where
  size : ℕ
  version : ℕ
  data : Option (List UInt8)
  sizeBytes : ℕ

def CpuView.bytes (view : CpuView) : List UInt8 :=
  (view.data.getD []).take view.sizeBytes

/-- `tm_fs_store`. -/
structure Store where
  config : FsConfig
  generation : ℕ
  nextFrameId : ℕ
  nextTicketId : ℕ
  slots : ℕ → Slot
  pins : List (Option Credit)
  leases : List (Option Credit)
  cursor : ℕ
  sealed : Bool

/-- `TM_FS_ABI_V1`. -/
def fsAbi : ℕ := 1

def sizeofFsConfig : ℕ := 40
def sizeofFrameRef : ℕ := 56
def sizeofCpuView : ℕ := 24

/-- `TM_FS_MAX_SLOTS`, `TM_FS_MAX_FRAME_BYTES`, `TM_FS_MAX_CREDITS`. -/
def maxSlots : ℕ := 64
def maxFrameBytes : ℕ := 8388608
def maxCredits : ℕ := 1024

/-- `TM_FS_CPU_VIEW_V1_INIT`. -/
def viewInit : CpuView :=
  ⟨sizeofCpuView, fsAbi, none, 0⟩

def Store.refOf (s : Store) (i : ℕ) : FrameRef where
  size := sizeofFrameRef
  version := fsAbi
  storeId := s.config.storeId
  storeGeneration := s.generation
  slot := i
  slotGeneration := (s.slots i).slotGeneration
  frameId := (s.slots i).frameId
  sourceSessionGeneration := (s.slots i).sessionGeneration
  displayGeneration := (s.slots i).displayGeneration

def Store.ticket (s : Store) (token : ℕ) : Ticket :=
  ⟨s.config.storeId, s.generation, token⟩

/-- `ref_index`. -/
def refIndex (s : Store) (ref : FrameRef) : Except FsStatus ℕ :=
  if ref.version ≠ fsAbi then .error .eversion
  else if ref.size ≠ sizeofFrameRef then .error .einval
  else if ref.storeId ≠ s.config.storeId ∨ ref.storeGeneration ≠ s.generation ∨
      ref.slot ≥ s.config.slotCapacity then
    .error .estale
  else
    let slot := s.slots ref.slot
    if slot.state = .free ∨ slot.slotGeneration ≠ ref.slotGeneration ∨
        slot.frameId ≠ ref.frameId ∨ slot.sessionGeneration ≠ ref.sourceSessionGeneration ∨
        slot.displayGeneration ≠ ref.displayGeneration then
      .error .estale
    else .ok ref.slot

/-- `credit_lookup`, with the row found. -/
def creditLookup (s : Store) (t : Ticket) (rows : List (Option Credit)) :
    Except FsStatus (ℕ × Credit) :=
  if t.ticketId = 0 then .error .einval
  else if t.storeId ≠ s.config.storeId ∨ t.storeGeneration ≠ s.generation then .error .estale
  else
    match SlotTable.findOccupied (fun c => c.token = t.ticketId) rows with
    | none => .error .estale
    | some row => .ok row

/-- `maybe_retire`. -/
def maybeRetire (slot : Slot) : Slot :=
  if slot.state = .retiring ∧ slot.pins = 0 ∧ slot.leases = 0 then
    { slot with
      state := .free
      length := 0 }
  else slot

/-- `credit_alloc`: the row to write and the number for it. -/
def creditAlloc (s : Store) (rows : List (Option Credit)) : Except FsStatus (ℕ × ℕ) :=
  match rows.findIdx? Option.isNone with
  | none => .error .efull
  | some i =>
    if s.nextTicketId = Words.max64 then .error .eexhausted else .ok (i, s.nextTicketId + 1)

def Store.modifySlot (s : Store) (i : ℕ) (f : Slot → Slot) : Store :=
  { s with slots := Function.update s.slots i (f (s.slots i)) }

/-- The checks of `tm_fs_create` on the configuration. -/
def fsConfigValid (c : FsConfig) : Bool :=
  decide (c.size = sizeofFsConfig) && decide (c.storeId ≠ 0) && decide (c.slotCapacity ≠ 0) &&
    decide (c.slotCapacity ≤ maxSlots) && decide (c.maxFrameBytes ≠ 0) &&
    decide (c.maxFrameBytes ≤ maxFrameBytes) && decide (c.maxPins ≠ 0) &&
    decide (c.maxPins ≤ maxCredits) && decide (c.maxLeases ≠ 0) &&
    decide (c.maxLeases ≤ maxCredits) &&
    decide (c.slotCapacity * c.maxFrameBytes ≤ c.maxRetainedBytes)

/-- `tm_fs_create`, with the number drawn from the process-wide counter and the
buffers as they are allocated. -/
def fsCreate (c : FsConfig) (generation : ℕ) (buffers : ℕ → List UInt8) :
    Except FsStatus Store :=
  if c.version ≠ fsAbi then .error .eversion
  else if fsConfigValid c = false then .error .einval
  else if generation = 0 ∨ generation = Words.max64 then .error .eexhausted
  else
    .ok {
      config := c
      generation := generation
      nextFrameId := 0
      nextTicketId := 0
      slots := fun i => ⟨buffers i, 0, 0, 0, 0, 0, 0, 0, .free⟩
      pins := List.replicate c.maxPins none
      leases := List.replicate c.maxLeases none
      cursor := 0
      sealed := false }

/-- The slot of `tm_fs_publish_cpu`: free, and not at the end of its generations. -/
def publishSlot (s : Store) : Option ℕ :=
  ((List.range s.config.slotCapacity).map
    (fun step => (s.cursor + step) % s.config.slotCapacity)).find?
    (fun i => decide ((s.slots i).state = .free) &&
      decide ((s.slots i).slotGeneration ≠ Words.max32))

def fillSlot (data : List UInt8) (frameId session display : ℕ) (slot : Slot) : Slot :=
  { slot with
    memory := data ++ slot.memory.drop data.length
    length := data.length
    slotGeneration := slot.slotGeneration + 1
    frameId := frameId
    sessionGeneration := session
    displayGeneration := display
    state := .ready }

/-- The store with a frame in slot `i`. -/
def publishInto (s : Store) (i : ℕ) (data : List UInt8) (session display : ℕ) : Store :=
  { s.modifySlot i (fillSlot data (s.nextFrameId + 1) session display) with
    nextFrameId := s.nextFrameId + 1
    cursor := (i + 1) % s.config.slotCapacity }

/-- `tm_fs_publish_cpu`. -/
def publishCpu (s : Store) (data : List UInt8) (session display : ℕ) :
    Store × Except FsStatus FrameRef :=
  if data.length = 0 ∨ session = 0 ∨ display = 0 ∨ data.length > s.config.maxFrameBytes then
    (s, .error .einval)
  else if s.sealed then (s, .error .eshutdown)
  else
    match publishSlot s with
    | none => (s, .error .efull)
    | some i =>
      if s.nextFrameId = Words.max64 then (s, .error .eexhausted)
      else
        (publishInto s i data session display, .ok ((publishInto s i data session display).refOf i))

variable (slot : Slot)

def addPin : Slot :=
  { slot with pins := slot.pins + 1 }

def addLease : Slot :=
  { slot with leases := slot.leases + 1 }

/-- One pin less, and the end of the frame if it was the last credit on it. -/
def dropPin : Slot :=
  maybeRetire { slot with pins := Words.pred32 slot.pins }

def dropLease : Slot :=
  maybeRetire { slot with leases := Words.pred32 slot.leases }

def retireSlot : Slot :=
  maybeRetire { slot with state := .retiring }

variable (s : Store)

/-- A pin on slot `i`. -/
def takePin (i : ℕ) : Store × Except FsStatus Ticket :=
  match creditAlloc s s.pins with
  | .error e => (s, .error e)
  | .ok (row, token) =>
    ({ s.modifySlot i addPin with
      pins := s.pins.set row (some ⟨token, i, (s.slots i).slotGeneration⟩)
      nextTicketId := token }, .ok (s.ticket token))

/-- `acquire_slot`. -/
def acquireSlot (i : ℕ) : Store × Except FsStatus Ticket :=
  match creditAlloc s s.leases with
  | .error e => (s, .error e)
  | .ok (row, token) =>
    ({ s.modifySlot i addLease with
      leases := s.leases.set row (some ⟨token, i, (s.slots i).slotGeneration⟩)
      nextTicketId := token }, .ok (s.ticket token))

def readySlot (ref : FrameRef) : Except FsStatus ℕ :=
  if s.sealed then .error .eshutdown
  else
    match refIndex s ref with
    | .error e => .error e
    | .ok i => if (s.slots i).state ≠ .ready then .error .ebusy else .ok i

/-- `tm_fs_reserve_pin`. -/
def reservePin (ref : FrameRef) : Store × Except FsStatus Ticket :=
  match readySlot s ref with
  | .error e => (s, .error e)
  | .ok i => takePin s i

/-- `tm_fs_acquire_weak`. -/
def acquireWeak (ref : FrameRef) : Store × Except FsStatus Ticket :=
  match readySlot s ref with
  | .error e => (s, .error e)
  | .ok i => acquireSlot s i

/-- `tm_fs_acquire_pinned`. -/
def acquirePinned (pin : Ticket) : Store × Except FsStatus Ticket :=
  match creditLookup s pin s.pins with
  | .error e => (s, .error e)
  | .ok (_, credit) => acquireSlot s credit.slot

/-- `tm_fs_map_cpu`: the status, and what is left in the view. -/
def mapCpu (lease : Ticket) (out : CpuView) : FsStatus × CpuView :=
  if out.version ≠ fsAbi then (.eversion, out)
  else if out.size ≠ sizeofCpuView then (.einval, out)
  else
    match creditLookup s lease s.leases with
    | .error e => (e, { out with
        data := none
        sizeBytes := 0 })
    | .ok (_, credit) => (.ok, { out with
        data := some (s.slots credit.slot).memory
        sizeBytes := (s.slots credit.slot).length })

/-- `tm_fs_release_lease`. -/
def releaseLease (lease : Ticket) : Store × FsStatus :=
  match creditLookup s lease s.leases with
  | .error e => (s, e)
  | .ok (row, credit) =>
    ({ s.modifySlot credit.slot dropLease with
      leases := s.leases.set row none }, .ok)

/-- `tm_fs_release_pin`. -/
def releasePin (pin : Ticket) : Store × FsStatus :=
  match creditLookup s pin s.pins with
  | .error e => (s, e)
  | .ok (row, credit) =>
    ({ s.modifySlot credit.slot dropPin with
      pins := s.pins.set row none }, .ok)

/-- `tm_fs_retire`. -/
def retire (ref : FrameRef) : Store × FsStatus :=
  match refIndex s ref with
  | .error e => (s, e)
  | .ok i =>
    let s' := s.modifySlot i retireSlot
    (s', if (s'.slots i).state = .free then .ok else .ebusy)

/-- `tm_fs_seal`. -/
def fsSeal : Store :=
  { s with sealed := true }

/-- `tm_fs_destroy`, as far as its answer goes. -/
def fsDestroy : FsStatus :=
  if s.sealed = false then .ebusy
  else if (List.range s.config.slotCapacity).any
      (fun i => decide ((s.slots i).pins ≠ 0) || decide ((s.slots i).leases ≠ 0)) then
    .ebusy
  else .ok

/-- The operations on a store. -/
inductive FsOp where
  | publishCpu (data : List UInt8) (session display : ℕ)
  | reservePin (ref : FrameRef)
  | acquireWeak (ref : FrameRef)
  | acquirePinned (pin : Ticket)
  | mapCpu (lease : Ticket) (out : CpuView)
  | releaseLease (lease : Ticket)
  | releasePin (pin : Ticket)
  | retire (ref : FrameRef)
  | sealStore

/-- What an operation gives back. -/
inductive FsAnswer where
  | status (status : FsStatus)
  | frame (ref : FrameRef)
  | ticket (ticket : Ticket)
  | view (status : FsStatus) (view : CpuView)

/-- The answer of an operation that returns a reference or a ticket. -/
def answerWith {α : Type} (f : α → FsAnswer) : Except FsStatus α → FsAnswer
  | .error e => .status e
  | .ok a => f a

def fsStep (s : Store) : FsOp → Store × FsAnswer
  | .publishCpu data session display =>
    ((publishCpu s data session display).1, answerWith .frame (publishCpu s data session display).2)
  | .reservePin ref => ((reservePin s ref).1, answerWith .ticket (reservePin s ref).2)
  | .acquireWeak ref => ((acquireWeak s ref).1, answerWith .ticket (acquireWeak s ref).2)
  | .acquirePinned pin => ((acquirePinned s pin).1, answerWith .ticket (acquirePinned s pin).2)
  | .mapCpu lease out => (s, .view (mapCpu s lease out).1 (mapCpu s lease out).2)
  | .releaseLease lease => ((releaseLease s lease).1, .status (releaseLease s lease).2)
  | .releasePin pin => ((releasePin s pin).1, .status (releasePin s pin).2)
  | .retire ref => ((retire s ref).1, .status (retire s ref).2)
  | .sealStore => (fsSeal s, .status .ok)

end TurboMedia.StreamGraph
