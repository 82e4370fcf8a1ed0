import TurboMedia.StreamGraph.Fanout

/-!
# The executor

Model of `turbo_streamgraph_executor.c`: frames are pulled from a source, published
to the frame store, shown to a chain of processors and submitted to the fan-out, from
whose branches the sinks are fed.

A callback is what it answers; calls that a callback makes on its executor are refused
without effect.  The calls on providers and on the fan-out are recorded as events.  The
bytes of a frame that the source has written and that is not published yet are kept
without the rest of the scratch buffer.  The recursive call at the end of
`tm_ex_pump_source` finds the frame that was just published, so it submits it.
-/

namespace TurboMedia.StreamGraph

inductive ExStatus where
  | ok
  | einval
  | eversion
  | egraph
  | enomem
  | efull
  | ebusy
  | estate
  | eprovider
  | eframe
  | eos
deriving DecidableEq

/-- What a source answers: a frame, with the bytes it has written, the end of the
stream, or anything else. -/
inductive SourceReply where
  | frame (data : List UInt8)
  | eos
  | failed

/-- Calls on providers and on the fan-out, and the end of the executor. -/
inductive ExEvent where
  | source (reply : SourceReply)
  | publish (ref : FrameRef)
  | visit (processor : ℕ) (ref : FrameRef) (view : CpuView) (result : ℤ)
  | submit (ref : FrameRef) (status : FoStatus)
  | sinkVisit (branch : ℕ) (ref : FrameRef) (view : CpuView) (result : ℤ)
  | stopped

/-- `tm_ex_stats_v1`. -/
structure ExStats where
  sourced : ℕ
  submitted : ℕ
  processed : ℕ
  delivered : ℕ
  backpressure : ℕ
  stopped : Bool

/-- `tm_ex_owner`. -/
structure Executor where
  plant : Plant
  processorCount : ℕ
  sinkCount : ℕ
  scratchCapacity : ℕ
  pendingData : List UInt8
  sourceSessionGeneration : ℕ
  displayGeneration : ℕ
  pending : FrameRef
  stats : ExStats
  stopped : Bool

/-- An executor after a call, its answer, and what happened meanwhile. -/
structure ExResult where
  owner : Executor
  status : ExStatus
  events : List ExEvent

/-- What `tm_ex_create` leaves when it has accepted the graph and its bindings. -/
def exNew (store : Store) (fanout : Fanout) (processors capacity session display : ℕ) :
    Executor where
  plant := ⟨store, fanout⟩
  processorCount := processors
  sinkCount := fanout.branches.length
  scratchCapacity := capacity
  pendingData := []
  sourceSessionGeneration := session
  displayGeneration := display
  pending := zeroRef
  stats := ⟨0, 0, 0, 0, 0, false⟩
  stopped := false

/-- `fo_code`. -/
def foCode : FoStatus → ExStatus
  | .ok => .ok
  | .efull => .efull
  | .ebusy => .ebusy
  | .eshutdown => .estate
  | _ => .eframe

def Executor.withStore (o : Executor) (s : Store) : Executor :=
  { o with plant := { o.plant with store := s } }

def Executor.withStats (o : Executor) (f : ExStats → ExStats) : Executor :=
  { o with stats := f o.stats }

def ExResult.after (events : List ExEvent) (r : ExResult) : ExResult :=
  { r with events := events ++ r.events }

variable (o : Executor)

/-- `retire_ref`, on the frame that is pending. -/
def retireRef : Executor × ExStatus :=
  let r := retire o.plant.store o.pending
  if r.2 ≠ .ok ∧ r.2 ≠ .ebusy then (o.withStore r.1, .eframe)
  else ({ o.withStore r.1 with pending := zeroRef }, .ok)

/-- `tm_fo_seal` on the fan-out. -/
def Executor.sealOwner : Executor :=
  { o with plant := foSeal o.plant }

def Executor.halt : Executor :=
  { o with
    stopped := true
    stats := { o.stats with stopped := true } }

/-- `tm_ex_stop`. -/
def exStop : ExResult :=
  if o.stopped then ⟨o, .ok, []⟩
  else
    let halted := { o.halt with pendingData := [] }
    if halted.pending.frameId ≠ 0 then
      let r := retireRef halted
      if r.2 ≠ .ok then ⟨r.1, .eframe, [.stopped]⟩
      else ⟨r.1.sealOwner, .ok, [.stopped]⟩
    else ⟨halted.sealOwner, .ok, [.stopped]⟩

def stopWith (status : ExStatus) : ExResult :=
  { exStop o with status := status }

def submitPending : ExResult :=
  let r := submit o.plant o.pending
  let submitted := { o with plant := r.1 }
  if r.2 = .efull then
    ⟨submitted.withStats (fun st => { st with backpressure := Words.succ64 st.backpressure }),
      .efull, [.submit o.pending r.2]⟩
  else if r.2 ≠ .ok then ⟨submitted, foCode r.2, [.submit o.pending r.2]⟩
  else
    let q := retireRef
      (submitted.withStats (fun st => { st with submitted := Words.succ64 st.submitted }))
    ⟨q.1, q.2, [.submit o.pending r.2]⟩

/-- The loop over the processors: the last result, and the visits. -/
def visitAll (ref : FrameRef) (view : CpuView) (visits : ℕ → ℤ) : List ℕ → ℤ × List ExEvent
  | [] => (0, [])
  | i :: is =>
    if visits i ≠ 0 then (visits i, [.visit i ref view (visits i)])
    else
      ((visitAll ref view visits is).1, .visit i ref view (visits i) ::
        (visitAll ref view visits is).2)

variable (o : Executor)

/-- The frame that was published is shown to the processors and submitted. -/
def processPending (visits : ℕ → ℤ) : ExResult :=
  match acquireWeak o.plant.store o.pending with
  | (s, .error _) => stopWith (o.withStore s) .eframe
  | (s, .ok lease) =>
    let mapped := mapCpu s lease viewInit
    let released := o.withStore (releaseLease s lease).1
    if mapped.1 ≠ .ok then stopWith released .eframe
    else
      let visited := visitAll o.pending mapped.2 visits (List.range o.processorCount)
      if visited.1 ≠ 0 then (stopWith released .eprovider).after visited.2
      else
        (submitPending (released.withStats
          (fun st => { st with processed := Words.succ64 st.processed }))).after visited.2

/-- The frame in the scratch buffer is published. -/
def publishPending (visits : ℕ → ℤ) : ExResult :=
  match publishCpu o.plant.store o.pendingData o.sourceSessionGeneration
      o.displayGeneration with
  | (s, .error .efull) =>
    ⟨(o.withStore s).withStats
      (fun st => { st with backpressure := Words.succ64 st.backpressure }), .efull, []⟩
  | (s, .error _) => stopWith (o.withStore s) .eframe
  | (s, .ok ref) =>
    (processPending { o.withStore s with
      pending := ref
      pendingData := [] } visits).after [.publish ref]

/-- `tm_ex_pump_source`. -/
def pumpSource (reply : SourceReply) (visits : ℕ → ℤ) : ExResult :=
  if o.stopped then ⟨o, .eos, []⟩
  else if o.pending.frameId ≠ 0 then submitPending o
  else if o.pendingData.length ≠ 0 then publishPending o visits
  else
    match reply with
    | .eos => ⟨o.halt.sealOwner, .eos, [.source .eos, .stopped]⟩
    | .failed => (stopWith o .eprovider).after [.source .failed]
    | .frame data =>
      if data.length = 0 ∨ data.length > o.scratchCapacity then
        (stopWith o .eprovider).after [.source (.frame data)]
      else
        (publishPending ({ o with pendingData := data }.withStats
          (fun st => { st with sourced := Words.succ64 st.sourced })) visits).after
          [.source (.frame data)]

/-- A row has been taken; its frame is shown to the sink and the row settled. -/
def visitSink (branch : ℕ) (result : ℤ) (t : FoTicket) (ref : FrameRef) :
    ExResult :=
  match acquireLease o.plant t with
  | (p, .error _) => stopWith { o with plant := (settle p t).1 } .eframe
  | (p, .ok lease) =>
    let mapped := mapCpu p.store lease viewInit
    let released := releaseLease p.store lease
    let settled := settle { p with store := released.1 } t
    if mapped.1 ≠ .ok then stopWith { o with plant := settled.1 } .eframe
    else
      ExResult.after [.sinkVisit branch ref mapped.2 result] (if released.2 ≠ .ok then
          stopWith { o with plant := { p with store := released.1 } } .eframe
        else if settled.2 ≠ .ok then stopWith { o with plant := settled.1 } .eframe
        else if result ≠ 0 then stopWith { o with plant := settled.1 } .eprovider
        else
          ⟨{ o with plant := settled.1 }.withStats
            (fun st => { st with delivered := Words.succ64 st.delivered }), .ok, []⟩)

/-- `tm_ex_pump_sink`. -/
def pumpSink (branch : ℕ) (result : ℤ) : ExResult :=
  if branch ≥ o.sinkCount then ⟨o, .einval, []⟩
  else
    match take o.plant branch with
    | (p, .error e) => ⟨{ o with plant := p }, foCode e, []⟩
    | (p, .ok (t, ref)) => visitSink { o with plant := p } branch result t ref

/-- `tm_ex_discard_ready`. -/
def exDiscardReady (branch : ℕ) : ExResult :=
  if branch ≥ o.sinkCount then ⟨o, .einval, []⟩
  else if o.stopped = false then ⟨o, .estate, []⟩
  else
    ⟨{ o with plant := (discardReady o.plant branch).1 }, foCode (discardReady o.plant branch).2,
      []⟩

/-- `tm_ex_destroy`, as far as its answer goes. -/
def exDestroy : ExStatus :=
  if o.stopped = false then .ebusy
  else foCode (foDestroy o.plant.fanout)

/-- Calls on an executor, with what the providers answer. -/
inductive ExOp where
  | pumpSource (reply : SourceReply) (visits : ℕ → ℤ)
  | pumpSink (branch : ℕ) (result : ℤ)
  | stop
  | discardReady (branch : ℕ)

def exStep (o : Executor) : ExOp → ExResult
  | .pumpSource reply visits => pumpSource o reply visits
  | .pumpSink branch result => pumpSink o branch result
  | .stop => exStop o
  | .discardReady branch => exDiscardReady o branch

/-- An executor and all that has happened. -/
structure Traced where
  owner : Executor
  trace : List ExEvent

def executorMachine : Machine Traced ExOp ExStatus where
  step := fun t op =>
    let r := exStep t.owner op
    (⟨r.owner, t.trace ++ r.events⟩, r.status)

end TurboMedia.StreamGraph
