import TurboMedia.Lib.Machine

/-!
# The input queue of a Runtime/RTP pipeline

Model of `pipeline_runtime_on_frame`, `pipeline_run_runtime_rtp` with the start of
`turbo_pipeline_run`, `pipeline_runtime_release`, and `turbo_pipeline_request_stop` in
`turbo_pipeline.c`.

**Input.**  A pipeline that is prepared: its input source publishes, one thread runs it, and
any number of calls ask it to stop.  The steps come in any order.  A step is a critical
section, an access to an atomic, or what the worker does between two critical sections.

**Method.**  `work` is the next step of the worker.  What a packet makes of the codecs is not
looked at: the step that processes a packet is given its result.  `cmeta_cond_wait` puts the
worker to sleep until it is signalled, or wakes for no reason.  `accepted` and `processed` are
the frames the queue took and those the worker read from their slots; no step reads them.
-/

namespace TurboMedia.Pipeline

/-- What `pipeline_runtime_on_frame` returns. -/
inductive MediaStatus where
  | ok
  | errInvalid
  | errFull
  | errState

/-- `turbo_pipeline_status_t`. -/
inductive PipelineStatus where
  | ok
  | einval
  | econfig
  | egraph
  | enomem
  | eio
  | effmpeg
  | estate
  | estopped
  | ebackpressure
deriving DecidableEq

/-- `turbo_pipeline_state_t`. -/
inductive PipelineState where
  | created
  | prepared
  | running
  | stopping
  | stopped
  | failed
deriving DecidableEq

/-- `turbo_media_frame_t` without its bytes. -/
structure FrameInfo where
  trackId : ℤ
  pts : ℤ
  dts : ℤ
  duration : ℤ
  isKeyframe : ℤ
  flags : UInt32
deriving DecidableEq

/-- A frame with its bytes. -/
structure Frame where
  info : FrameInfo
  data : List UInt8
deriving DecidableEq

/-- `pipeline_runtime_queue_entry_t`: `frame.data` points to the slot. -/
structure QueueEntry where
  info : FrameInfo
  size : ℕ
  slot : ℕ
deriving DecidableEq

/-- The options of the source node, in the range that `pipeline_runtime_prepare` admits, and
the input tracks that are configured. -/
structure RuntimeOptions where
  queueCapacity : ℕ
  maxPacketBytes : ℕ
  inputTracks : List ℤ
  queueCapacity_range : 1 ≤ queueCapacity ∧ queueCapacity ≤ 4096
  maxPacketBytes_range : 12 < maxPacketBytes ∧ maxPacketBytes ≤ 65536
  inputTracks_count : inputTracks.length ≤ 2

/-- What processing a packet has left: whether it returned `TURBO_MEDIA_OK`, and the code in
the error of the caller. -/
structure PacketResult where
  ok : Bool
  errorCode : PipelineStatus
deriving DecidableEq

/-- Why a run ends: the stop was seen before the loop or in it, the asynchronous status was
seen, or a packet could not be processed. -/
inductive Ending where
  | stoppedEarly
  | stopped
  | asyncFailed (status : PipelineStatus)
  | packetFailed (status : PipelineStatus)
deriving DecidableEq

def Ending.status : Ending → PipelineStatus
  | stoppedEarly => .estopped
  | stopped => .estopped
  | asyncFailed status => status
  | packetFailed status => status

def Ending.state : Ending → PipelineState
  | stoppedEarly => .stopped
  | stopped => .stopped
  | asyncFailed _ => .failed
  | packetFailed _ => .failed

/-- Where the worker is. -/
inductive WorkerPc where
  | idle
  | started
  | checking
  | asleep (signalled : Bool)
  | holding (entry : QueueEntry)
  | processed (entry : QueueEntry) (result : PacketResult)
  | releasing (ending : Ending)
  | unsubscribing (ending : Ending)
  | freeing (ending : Ending)
  | finishing (ending : Ending)
  | ended (ending : Ending)
deriving DecidableEq

/-- Where a call of `turbo_pipeline_request_stop` is, with the state it has loaded. -/
inductive StopPc where
  | called
  | loaded (state : PipelineState)
  | stored (state : PipelineState)
  | passed (state : PipelineState)
  | returned (status : PipelineStatus)

/-- `turbo_pipeline_t` with its `pipeline_runtime_rtp_t`, and its threads. -/
structure RuntimePipeline where
  state : PipelineState
  stopRequested : Bool
  accepting : Bool
  asyncStatus : PipelineStatus
  entries : ℕ → QueueEntry
  packetSlots : ℕ → List UInt8
  head : ℕ
  tail : ℕ
  count : ℕ
  subscribed : Bool
  syncInitialized : Bool
  packetsRead : ℕ
  bytesRead : ℕ
  worker : WorkerPc
  stops : ℕ → StopPc
  accepted : List Frame
  processed : List Frame

/-- A pipeline as `turbo_pipeline_prepare` leaves it. -/
def RuntimePipeline.prepare : RuntimePipeline where
  state := .prepared
  stopRequested := false
  accepting := true
  asyncStatus := .ok
  entries := fun _ => ⟨⟨0, 0, 0, 0, 0, 0⟩, 0, 0⟩
  packetSlots := fun _ => []
  head := 0
  tail := 0
  count := 0
  subscribed := true
  syncInitialized := true
  packetsRead := 0
  bytesRead := 0
  worker := .idle
  stops := fun _ => .called
  accepted := []
  processed := []

section Publisher

variable (o : RuntimeOptions) (s : RuntimePipeline)

/-- `cmeta_cond_signal` and `cmeta_cond_broadcast`: only the worker waits. -/
def RuntimePipeline.signal : RuntimePipeline :=
  match s.worker with
  | .asleep _ => { s with worker := .asleep true }
  | _ => s

/-- `memcpy` to a slot. -/
def copyTo (slot data : List UInt8) : List UInt8 :=
  data ++ slot.drop data.length

/-- The frame behind an entry, as its slot is now. -/
def RuntimePipeline.read (entry : QueueEntry) : Frame :=
  ⟨entry.info, (s.packetSlots entry.slot).take entry.size⟩

/-- The entry and the slot at the tail are written. -/
def RuntimePipeline.enqueue (frame : Frame) : RuntimePipeline :=
  { s with
    entries := Function.update s.entries s.tail ⟨frame.info, frame.data.length, s.tail⟩
    packetSlots := Function.update s.packetSlots s.tail (copyTo (s.packetSlots s.tail) frame.data)
    tail := (s.tail + 1) % o.queueCapacity
    count := s.count + 1
    accepted := s.accepted ++ [frame] }

/-- `pipeline_runtime_find_track`. -/
def findTrack (trackId : ℤ) : Bool :=
  o.inputTracks.contains trackId

/-- `pipeline_runtime_on_frame`; `none` is a call without frame or without its bytes. -/
def onFrame : Option Frame → RuntimePipeline × MediaStatus
  | none => (s, .errInvalid)
  | some frame =>
    if !findTrack o frame.info.trackId then (s, .ok)
    else if !s.accepting || s.stopRequested then (s, .errState)
    else if frame.data.length = 0 ∨ o.maxPacketBytes < frame.data.length ∨
        s.count = o.queueCapacity then
      (({ s with asyncStatus := .ebackpressure } : RuntimePipeline).signal, .errFull)
    else ((s.enqueue o frame).signal, .ok)

end Publisher

section Worker

variable (o : RuntimeOptions) (s : RuntimePipeline)

/-- The first critical section of the loop of `pipeline_run_runtime_rtp`. -/
def checkQueue : RuntimePipeline :=
  if s.count = 0 ∧ s.stopRequested = false ∧ s.asyncStatus = .ok then
    { s with worker := .asleep false }
  else if s.asyncStatus ≠ .ok then
    { s with accepting := false, count := 0, worker := .releasing (.asyncFailed s.asyncStatus) }
  else if s.stopRequested then
    { s with accepting := false, count := 0, worker := .releasing .stopped }
  else { s with worker := .holding (s.entries s.head) }

/-- The second critical section, the statistics, and the test of the result. -/
def finishPacket (entry : QueueEntry) (result : PacketResult) : RuntimePipeline :=
  { s with
    head := (s.head + 1) % o.queueCapacity
    count := s.count - 1
    packetsRead := s.packetsRead + 1
    bytesRead := s.bytesRead + entry.size
    worker :=
      if result.ok then .checking
      else if result.errorCode ≠ .ok then .releasing (.packetFailed result.errorCode)
      else .releasing (.packetFailed .eio) }

/-- The end of `pipeline_runtime_release`: the queue is freed and all is zero. -/
def freeQueue (ending : Ending) : RuntimePipeline :=
  { s with
    accepting := false
    asyncStatus := .ok
    head := 0
    tail := 0
    count := 0
    syncInitialized := false
    worker := .finishing ending }

/-- The next step of the thread that runs the pipeline. -/
def work (result : PacketResult) : RuntimePipeline :=
  match s.worker with
  | .idle =>
    -- `turbo_pipeline_run` requires the state PREPARED
    if s.state = .prepared then { s with state := .running, worker := .started }
    else s
  | .started =>
    if s.stopRequested then { s with worker := .releasing .stoppedEarly }
    else { s with worker := .checking }
  | .checking => checkQueue s
  | .asleep signalled => if signalled then checkQueue s else s
  | .holding entry =>
    { s with worker := .processed entry result, processed := s.processed ++ [s.read entry] }
  | .processed entry result => finishPacket o s entry result
  | .releasing ending => { s with accepting := false, worker := .unsubscribing ending }
  | .unsubscribing ending => { s with subscribed := false, worker := .freeing ending }
  | .freeing ending => freeQueue s ending
  | .finishing ending =>
    { s with
      stopRequested := if ending = .stopped then false else s.stopRequested
      state := ending.state
      worker := .ended ending }
  | .ended _ => s

end Worker

section Stop

variable (s : RuntimePipeline)

/-- The states in which `turbo_pipeline_request_stop` does something. -/
def stoppable (state : PipelineState) : Bool :=
  state = .prepared || state = .running || state = .stopping

/-- The critical section of `turbo_pipeline_request_stop`, if there is a mutex. -/
def closeQueue : RuntimePipeline :=
  if s.syncInitialized then ({ s with accepting := false } : RuntimePipeline).signal
  else s

/-- The exchange at the end of `turbo_pipeline_request_stop`. -/
def swapState (loaded : PipelineState) : RuntimePipeline :=
  if loaded = .running ∧ s.state = .running then { s with state := .stopping }
  else s

/-- The next step of a call of `turbo_pipeline_request_stop`. -/
def requestStop (i : ℕ) : RuntimePipeline :=
  match s.stops i with
  | .called =>
    if stoppable s.state then { s with stops := Function.update s.stops i (.loaded s.state) }
    else { s with stops := Function.update s.stops i (.returned .estate) }
  | .loaded state =>
    { s with stopRequested := true, stops := Function.update s.stops i (.stored state) }
  | .stored state => { closeQueue s with stops := Function.update s.stops i (.passed state) }
  | .passed state => { swapState s state with stops := Function.update s.stops i (.returned .ok) }
  | .returned _ => s

end Stop

/-- A step of one of the threads. -/
inductive QueueOp where
  | onFrame (frame : Option Frame)
  | work (result : PacketResult)
  | wake
  | requestStop (i : ℕ)

/-- The pipeline as a machine; the answer is what the publisher is told.  The source calls
only as long as the pipeline subscribes to it. -/
def queueMachine (o : RuntimeOptions) :
    Machine RuntimePipeline QueueOp (Option MediaStatus) where
  step := fun s op =>
    match op with
    | .onFrame frame =>
      if s.subscribed then ((onFrame o s frame).1, some (onFrame o s frame).2)
      else (s, none)
    | .work result => (work o s result, none)
    | .wake => (s.signal, none)
    | .requestStop i => (requestStop s i, none)

end TurboMedia.Pipeline
