import TurboMedia.Lib.Scan
import TurboMedia.StreamGraph.FrameStore

/-!
# The fan-out

Model of `turbo_streamgraph_fanout.c`: a frame is admitted to a number of bounded
branches at once, each of which holds a pin of its own on it in the frame store.

The owner and its store form a plant.  A submission runs four loops over the
branches; what the code keeps in three parallel arrays (branch, chosen row,
reservation) is one list of lanes here.  Allocation always succeeds and arguments
are never null.
-/

namespace TurboMedia.StreamGraph

inductive FoStatus where
  | ok
  | einval
  | eversion
  | enomem
  | efull
  | ebusy
  | estale
  | eshutdown
  | eframe
  | eexhausted
deriving DecidableEq

/-- `tm_fo_policy`. -/
inductive Policy where
  | orderedLossless
  | sample
  | latest
deriving DecidableEq

/-- `fo_state`. -/
inductive RowState where
  | free
  | ready
  | taken
deriving DecidableEq

/-- `fo_row`. -/
structure Row where
  state : RowState
  generation : ℕ
  order : ℕ
  ref : FrameRef
  pin : Ticket

/-- `tm_fo_branch_stats_v1`. -/
structure BranchStats where
  ready : ℕ
  taken : ℕ
  admitted : ℕ
  sampledOut : ℕ
  replacedReady : ℕ
  rejected : ℕ
  completed : ℕ

/-- `fo_branch`; the depth is the number of rows. -/
structure Branch where
  rows : List Row
  policy : Policy
  sampleEvery : ℕ
  stats : BranchStats

/-- `tm_fo_owner`. -/
structure Fanout where
  incarnation : ℕ
  nextOrder : ℕ
  branches : List Branch
  sealed : Bool

/-- An owner and its store. -/
structure Plant where
  store : Store
  fanout : Fanout

/-- `tm_fo_ticket_v1`. -/
structure FoTicket where
  incarnation : ℕ
  branch : ℕ
  slot : ℕ
  slotGeneration : ℕ

/-- `tm_fo_branch_config_v1`. -/
structure BranchConfig where
  size : ℕ
  version : ℕ
  policy : ℕ
  queueDepth : ℕ
  sampleEvery : ℕ

/-- `TM_FO_ABI_V1`, `TM_FO_MAX_BRANCHES`, `TM_FO_MAX_QUEUE_DEPTH`. -/
def foAbi : ℕ := 1
def maxBranches : ℕ := 8
def maxQueueDepth : ℕ := 64

/-- `tm_fo_config_v1`. -/
structure FoConfig where
  size : ℕ
  version : ℕ
  branchCount : ℕ
  reserved : ℕ
  branches : Fin maxBranches → BranchConfig

def sizeofBranchConfig : ℕ := 20
def sizeofFoConfig : ℕ := 176

/-- The zeroed frame reference, ticket and row. -/
def zeroRef : FrameRef :=
  ⟨0, 0, 0, 0, 0, 0, 0, 0, 0⟩

def zeroTicket : Ticket :=
  ⟨0, 0, 0⟩

def zeroRow : Row :=
  ⟨.free, 0, 0, zeroRef, zeroTicket⟩

/-- `fo_fs_status`. -/
def foFsStatus : FsStatus → FoStatus
  | .ok => .ok
  | .efull => .efull
  | .ebusy => .ebusy
  | .estale => .estale
  | .eshutdown => .eshutdown
  | .eexhausted => .eexhausted
  | _ => .eframe

/-- `fo_selected`. -/
def foSelected (b : Branch) (ref : FrameRef) : Bool :=
  decide (b.policy ≠ .sample) || decide ((ref.frameId - 1) % b.sampleEvery = 0)

/-- Row `k` of a branch. -/
def Branch.row (b : Branch) (k : ℕ) : Row :=
  b.rows.getD k zeroRow

/-- `fo_choose_row`: the first row that is free, else for the latest policy the
ready row with the least order. -/
def foChooseRow (b : Branch) : Option ℕ :=
  match b.rows.findIdx? (fun r => decide (r.state = .free) &&
      decide (r.generation ≠ Words.max32)) with
  | some k => some k
  | none =>
    if b.policy ≠ .latest then none
    else
      (Scan.firstMin (fun r => if r.state = .ready ∧ r.order < Words.max64 then some r.order
        else none) b.rows).map Prod.fst

/-- `fo_lookup`: the branch and the row that a ticket names. -/
def foLookup (o : Fanout) (t : FoTicket) : Option (Branch × Row) :=
  if t.incarnation ≠ o.incarnation ∨ t.slotGeneration = 0 then none
  else
    match o.branches[t.branch]? with
    | none => none
    | some b =>
      match b.rows[t.slot]? with
      | none => none
      | some row =>
        if row.state ≠ .free ∧ row.generation = t.slotGeneration then some (b, row) else none

/-- The counters after a row in this state has been released. -/
def BranchStats.release (stats : BranchStats) (state : RowState) : BranchStats :=
  { stats with
    ready := if state = .ready then Words.pred32 stats.ready else stats.ready
    taken := if state = .taken then Words.pred32 stats.taken else stats.taken
    completed := Words.succ64 stats.completed }

/-- A row that is free again; it keeps its generation. -/
def Row.clear (row : Row) : Row :=
  { row with
    state := .free
    order := 0
    pin := zeroTicket
    ref := zeroRef }

/-- The branch after row `k` has been released. -/
def Branch.release (b : Branch) (k : ℕ) : Branch :=
  { b with
    rows := b.rows.set k (b.row k).clear
    stats := b.stats.release (b.row k).state }

/-- `fo_release`. -/
def foRelease (s : Store) (b : Branch) (k : ℕ) : Store × Branch × FoStatus :=
  let r := releasePin s (b.row k).pin
  if r.2 ≠ .ok then (r.1, b, foFsStatus r.2) else (r.1, b.release k, .ok)

def policyOf : ℕ → Option Policy
  | 1 => some .orderedLossless
  | 2 => some .sample
  | 3 => some .latest
  | _ => none

/-- The checks of `tm_fo_create` on one branch. -/
def branchCheck (b : BranchConfig) : Except FoStatus Policy :=
  if b.version ≠ foAbi then .error .eversion
  else if b.size ≠ sizeofBranchConfig ∨ b.queueDepth = 0 ∨ b.queueDepth > maxQueueDepth then
    .error .einval
  else
    match policyOf b.policy with
    | none => .error .einval
    | some .sample => if b.sampleEvery = 0 then .error .einval else .ok .sample
    | some policy => if b.sampleEvery ≠ 0 then .error .einval else .ok policy

def newBranch (b : BranchConfig) (policy : Policy) : Branch where
  rows := List.replicate b.queueDepth zeroRow
  policy := policy
  sampleEvery := b.sampleEvery
  stats := ⟨0, 0, 0, 0, 0, 0, 0⟩

/-- The branches of a configuration, or what is wrong with the first bad one. -/
def newBranches : List BranchConfig → Except FoStatus (List Branch)
  | [] => .ok []
  | b :: bs =>
    match branchCheck b with
    | .error e => .error e
    | .ok policy =>
      match newBranches bs with
      | .error e => .error e
      | .ok branches => .ok (newBranch b policy :: branches)

/-- `tm_fo_create`, with the number drawn from the process-wide counter. -/
def foCreate (cfg : FoConfig) (incarnation : ℕ) : Except FoStatus Fanout :=
  if cfg.version ≠ foAbi then .error .eversion
  else if cfg.size ≠ sizeofFoConfig ∨ cfg.reserved ≠ 0 ∨ cfg.branchCount = 0 ∨
      cfg.branchCount > maxBranches then
    .error .einval
  else
    match newBranches ((List.ofFn cfg.branches).take cfg.branchCount) with
    | .error e => .error e
    | .ok branches =>
      if incarnation = 0 ∨ incarnation = Words.max64 then .error .eexhausted
      else
        .ok {
          incarnation := incarnation
          nextOrder := 1
          branches := branches
          sealed := false }

/-- What the loops of `tm_fo_submit` keep for one branch: the branch, the row
chosen for the frame, and the pin reserved for it. -/
structure Lane where
  branch : Branch
  index : Option ℕ
  reservation : Ticket

def Branch.reject (b : Branch) : Branch :=
  { b with stats := { b.stats with rejected := Words.succ64 b.stats.rejected } }

/-- The first loop: every selected branch chooses a row.  Where one has none, the
branches are given back with the rejection counted. -/
def preflight (ref : FrameRef) : List Branch → Except (List Branch) (List Lane)
  | [] => .ok []
  | b :: bs =>
    if foSelected b ref = false then
      match preflight ref bs with
      | .error bs' => .error (b :: bs')
      | .ok lanes => .ok (⟨b, none, zeroTicket⟩ :: lanes)
    else
      match foChooseRow b with
      | none => .error (b.reject :: bs)
      | some k =>
        match preflight ref bs with
        | .error bs' => .error (b :: bs')
        | .ok lanes => .ok (⟨b, some k, zeroTicket⟩ :: lanes)

/-- What a loop over the lanes leaves behind, with the number of reservations. -/
structure Pass where
  store : Store
  lanes : List Lane
  reserved : ℕ
  result : FoStatus

/-- The rest of a loop, with a lane that is done in front. -/
def Pass.behind (lane : Lane) (rest : Pass) : Pass :=
  { rest with lanes := lane :: rest.lanes }

/-- The second loop: a pin for every lane with a row. -/
def reserveAll (ref : FrameRef) : Store → ℕ → List Lane → Pass
  | s, reserved, [] => ⟨s, [], reserved, .ok⟩
  | s, reserved, lane :: lanes =>
    match lane.index with
    | none => Pass.behind lane (reserveAll ref s reserved lanes)
    | some _ =>
      match reservePin s ref with
      | (s', .error e) =>
        ⟨s', { lane with branch := lane.branch.reject } :: lanes, reserved, foFsStatus e⟩
      | (s', .ok pin) =>
        Pass.behind { lane with reservation := pin } (reserveAll ref s' (reserved + 1) lanes)

/-- The branch with one more ready row that was replaced. -/
def Branch.replaced (b : Branch) : Branch :=
  { b with stats := { b.stats with replacedReady := Words.succ64 b.stats.replacedReady } }

/-- The third loop: rows that are chosen and still ready are released. -/
def evictAll (reserved : ℕ) : Store → List Lane → Pass
  | s, [] => ⟨s, [], reserved, .ok⟩
  | s, lane :: lanes =>
    match lane.index with
    | none => Pass.behind lane (evictAll reserved s lanes)
    | some k =>
      if (lane.branch.row k).state = .ready then
        let r := foRelease s lane.branch k
        if r.2.2 ≠ .ok then ⟨r.1, { lane with branch := r.2.1 } :: lanes, reserved, r.2.2⟩
        else Pass.behind { lane with branch := r.2.1.replaced } (evictAll reserved r.1 lanes)
      else Pass.behind lane (evictAll reserved s lanes)

def Row.fill (row : Row) (ref : FrameRef) (pin : Ticket) (order : ℕ) : Row where
  state := .ready
  generation := Words.succ32 row.generation
  order := order
  ref := ref
  pin := pin

def Lane.commit (ref : FrameRef) (order : ℕ) (lane : Lane) : Branch :=
  match lane.index with
  | none => { lane.branch with stats := { lane.branch.stats with
      sampledOut := Words.succ64 lane.branch.stats.sampledOut } }
  | some k => { lane.branch with
      rows := lane.branch.rows.set k ((lane.branch.row k).fill ref lane.reservation order)
      stats := { lane.branch.stats with
        ready := Words.succ32 lane.branch.stats.ready
        admitted := Words.succ64 lane.branch.stats.admitted } }

/-- The loop behind the label `rollback`, which stops when `reserved` pins have been
released. -/
def rollback : ℕ → Store → List Ticket → Store
  | 0, s, _ => s
  | _ + 1, s, [] => s
  | reserved + 1, s, pin :: pins =>
    if pin.ticketId = 0 then rollback (reserved + 1) s pins
    else rollback reserved (releasePin s pin).1 pins

/-- The way out of a submission that failed after the first loop. -/
def Plant.undo (p : Plant) (pass : Pass) : Plant where
  store := rollback pass.reserved pass.store (pass.lanes.map Lane.reservation)
  fanout := { p.fanout with branches := pass.lanes.map Lane.branch }

/-- The last two loops of `tm_fo_submit`. -/
def submitReserved (p : Plant) (ref : FrameRef) (pass : Pass) : Plant × FoStatus :=
  let evicted := evictAll pass.reserved pass.store pass.lanes
  if evicted.result ≠ .ok then (p.undo evicted, evicted.result)
  else
    (⟨evicted.store, { p.fanout with
        branches := evicted.lanes.map (Lane.commit ref p.fanout.nextOrder)
        nextOrder := p.fanout.nextOrder + 1 }⟩, .ok)

/-- `tm_fo_submit`. -/
def submit (p : Plant) (ref : FrameRef) : Plant × FoStatus :=
  if ref.frameId = 0 ∨ ref.size ≠ sizeofFrameRef ∨ ref.version ≠ fsAbi then (p, .einval)
  else if p.fanout.sealed then (p, .eshutdown)
  else if p.fanout.nextOrder = Words.max64 then (p, .eexhausted)
  else
    match preflight ref p.fanout.branches with
    | .error branches => ({ p with fanout := { p.fanout with branches := branches } }, .efull)
    | .ok lanes =>
      let reserved := reserveAll ref p.store 0 lanes
      if reserved.result ≠ .ok then (p.undo reserved, reserved.result)
      else submitReserved p ref reserved

/-- The plant with branch `i` replaced. -/
def Plant.setBranch (p : Plant) (i : ℕ) (b : Branch) : Plant :=
  { p with fanout := { p.fanout with branches := p.fanout.branches.set i b } }

/-- The branch with its ready row `k` taken. -/
def Branch.takeRow (b : Branch) (k : ℕ) : Branch :=
  { b with
    rows := b.rows.set k { b.row k with state := .taken }
    stats := { b.stats with
      ready := Words.pred32 b.stats.ready
      taken := Words.succ32 b.stats.taken } }

/-- The row of `tm_fo_take`: ready, with the least order. -/
def oldestReady (b : Branch) : Option ℕ :=
  (Scan.firstMin (fun r => if r.state = .ready then some r.order else none) b.rows).map Prod.fst

/-- `tm_fo_take`. -/
def take (p : Plant) (branch : ℕ) : Plant × Except FoStatus (FoTicket × FrameRef) :=
  match p.fanout.branches[branch]? with
  | none => (p, .error .einval)
  | some b =>
    match oldestReady b with
    | none => (p, .error .ebusy)
    | some k =>
      (p.setBranch branch (b.takeRow k),
        .ok (⟨p.fanout.incarnation, branch, k, (b.row k).generation⟩, (b.row k).ref))

/-- A status of the store as an answer of the owner. -/
def foFsAnswer {α : Type} : Except FsStatus α → Except FoStatus α
  | .error e => .error (foFsStatus e)
  | .ok a => .ok a

/-- `tm_fo_acquire_lease`. -/
def acquireLease (p : Plant) (t : FoTicket) : Plant × Except FoStatus Ticket :=
  match foLookup p.fanout t with
  | none => (p, .error .estale)
  | some (_, row) =>
    if row.state ≠ .taken then (p, .error .ebusy)
    else
      let r := acquirePinned p.store row.pin
      ({ p with store := r.1 }, foFsAnswer r.2)

/-- `tm_fo_settle`. -/
def settle (p : Plant) (t : FoTicket) : Plant × FoStatus :=
  match foLookup p.fanout t with
  | none => (p, .estale)
  | some (b, row) =>
    if row.state ≠ .taken then (p, .ebusy)
    else
      let r := foRelease p.store b t.slot
      ({ p with store := r.1 }.setBranch t.branch r.2.1, r.2.2)

/-- The loop of `tm_fo_discard_ready` over the rows with these numbers. -/
def discardRows : List ℕ → Store → Branch → Store × Branch × FoStatus
  | [], s, b => (s, b, .ok)
  | k :: ks, s, b =>
    if (b.row k).state = .ready then
      let r := foRelease s b k
      if r.2.2 ≠ .ok then r else discardRows ks r.1 r.2.1
    else discardRows ks s b

/-- `tm_fo_discard_ready`. -/
def discardReady (p : Plant) (branch : ℕ) : Plant × FoStatus :=
  match p.fanout.branches[branch]? with
  | none => (p, .einval)
  | some b =>
    let r := discardRows (List.range b.rows.length) p.store b
    ({ p with store := r.1 }.setBranch branch r.2.1, r.2.2)

/-- `tm_fo_seal`. -/
def foSeal (p : Plant) : Plant :=
  { p with fanout := { p.fanout with sealed := true } }

/-- `tm_fo_destroy`, as far as its answer goes. -/
def foDestroy (o : Fanout) : FoStatus :=
  if o.sealed = false then .ebusy
  else if o.branches.any
      (fun b => decide (b.stats.ready ≠ 0) || decide (b.stats.taken ≠ 0)) then
    .ebusy
  else .ok

/-- Calls on a plant: those of the owner, and those of others on the store. -/
inductive PlantOp where
  | submit (ref : FrameRef)
  | take (branch : ℕ)
  | acquireLease (ticket : FoTicket)
  | settle (ticket : FoTicket)
  | discardReady (branch : ℕ)
  | sealOwner
  | onStore (op : FsOp)

inductive PlantAnswer where
  | status (status : FoStatus)
  | taken (result : Except FoStatus (FoTicket × FrameRef))
  | lease (result : Except FoStatus Ticket)
  | onStore (answer : FsAnswer)

def plantStep (p : Plant) : PlantOp → Plant × PlantAnswer
  | .submit ref => ((submit p ref).1, .status (submit p ref).2)
  | .take branch => ((take p branch).1, .taken (take p branch).2)
  | .acquireLease ticket => ((acquireLease p ticket).1, .lease (acquireLease p ticket).2)
  | .settle ticket => ((settle p ticket).1, .status (settle p ticket).2)
  | .discardReady branch => ((discardReady p branch).1, .status (discardReady p branch).2)
  | .sealOwner => (foSeal p, .status .ok)
  | .onStore op => ({ p with store := (fsStep p.store op).1 }, .onStore (fsStep p.store op).2)

def plantMachine : Machine Plant PlantOp PlantAnswer where
  step := plantStep

end TurboMedia.StreamGraph
