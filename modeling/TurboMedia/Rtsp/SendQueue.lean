import TurboMedia.Lib.Machine
import TurboMedia.Lib.Words

/-!
# Send queue of the RTSP server

Model of `turbo_rtsp_server_enqueue`, `turbo_rtsp_server_session_allocate`,
`turbo_rtsp_server_session_release`, `turbo_rtsp_server_pop_send` and
`turbo_rtsp_server_drain_sends`.

Every section under the mutex is one step.  Any thread enqueues.  Sessions that use the queue
are allocated, released and fed by callbacks of the worker, which is also the only thread that
drains the queue, so that the worker is at one point of one of these at a time.

A history is kept beside the state: the buffers in the order in which they were admitted, how
many of them have left the queue, what was passed to the transport, and the sessions that were
marked to be closed.
-/

namespace TurboMedia.Rtsp

/-- `turbo_rtsp_io_kind_t`. -/
inductive IoKind where
  | none
  | stream
  | packet
  | websocket
deriving DecidableEq

/-- `turbo_rtsp_session_t`, as far as the queue uses it. -/
structure SendSession where
  ioKind : IoKind
  generation : ℕ
  active : Bool
  closeAfterFlush : Bool

/-- `turbo_rtsp_server_send_t`. -/
structure SendCommand where
  sessionIndex : ℕ
  sessionGeneration : ℕ
  data : List UInt8
  size : ℕ
  closeAfter : Bool
deriving DecidableEq

def SendSession.zero : SendSession :=
  ⟨.none, 0, false, false⟩

def SendCommand.zero : SendCommand :=
  ⟨0, 0, [], 0, false⟩

/-- `turbo_rtsp_server_t`, as far as the queue uses it; the capacities are the lengths of the
two arrays. -/
structure SendServer where
  sendQueueBytes : ℕ
  sessions : List SendSession
  sendQueue : List SendCommand
  sendHead : ℕ
  sendCount : ℕ
  sendBytes : ℕ
  stopping : Bool

/-- Subtraction of two numbers of type `size_t`. -/
def sizeMinus (a b : ℕ) : ℕ :=
  (a + (Words.max64 + 1) - b) % (Words.max64 + 1)

/-- What `turbo_rtsp_server_create` accepts. -/
structure SendConfig where
  connectionCapacity : ℕ
  sendQueueCapacity : ℕ
  sendQueueBytes : ℕ
  connectionCapacity_pos : 0 < connectionCapacity
  sendQueueCapacity_pos : 0 < sendQueueCapacity
  sendQueueBytes_ge : 4 + 65535 ≤ sendQueueBytes
  sendQueueBytes_le : sendQueueBytes ≤ Words.max64

def SendServer.create (config : SendConfig) : SendServer :=
  { sendQueueBytes := config.sendQueueBytes
    sessions := List.replicate config.connectionCapacity SendSession.zero
    sendQueue := List.replicate config.sendQueueCapacity SendCommand.zero
    sendHead := 0
    sendCount := 0
    sendBytes := 0
    stopping := false }

/-- A buffer is refused, is sent past the queue on a WebSocket, or is queued. -/
inductive Enqueued where
  | refused
  | direct
  | queued (server : SendServer)

/-- The check under the mutex of `turbo_rtsp_server_enqueue`. -/
def admits (server : SendServer) (session : SendSession) (size : ℕ) : Bool :=
  !(!session.active || server.stopping || server.sendCount == server.sendQueue.length ||
    decide (size > sizeMinus server.sendQueueBytes server.sendBytes))

/-- `turbo_rtsp_server_enqueue`. -/
def enqueue (server : SendServer) (index : ℕ) (data : List UInt8) (closeAfter : Bool) :
    Enqueued :=
  match server.sessions[index]? with
  | none => .refused
  | some session =>
    if data = [] then .refused
    else if session.ioKind = .websocket then .direct
    else if admits server session data.length = false then .refused
    else
      .queued
        { server with
          sendQueue := server.sendQueue.set
            ((server.sendHead + server.sendCount) % server.sendQueue.length)
            ⟨index, session.generation, data, data.length, closeAfter⟩
          sendCount := server.sendCount + 1
          sendBytes := server.sendBytes + data.length
          sessions :=
            if closeAfter then server.sessions.set index { session with closeAfterFlush := true }
            else server.sessions }

/-- The generation of the next session in a slot. -/
def nextGeneration (generation : ℕ) : ℕ :=
  if Words.succ32 generation = 0 then 1 else Words.succ32 generation

def freeSlot (sessions : List SendSession) : Option ℕ :=
  sessions.findIdx? (fun session => !session.active)

/-- `turbo_rtsp_server_session_allocate`. -/
def allocate (server : SendServer) (ioKind : IoKind) : Option (ℕ × SendServer) :=
  if server.stopping then none
  else
    match freeSlot server.sessions with
    | none => none
    | some index =>
      match server.sessions[index]? with
      | none => none
      | some session =>
        some (index,
          { server with
            sessions := server.sessions.set index
              { SendSession.zero with
                ioKind := ioKind
                generation := nextGeneration session.generation
                active := true } })

/-- `turbo_rtsp_server_session_release` under the mutex: the generation that it keeps. -/
def releaseBegin (server : SendServer) (index : ℕ) : Option (ℕ × SendServer) :=
  match server.sessions[index]? with
  | none => none
  | some session =>
    if session.active = false then none
    else
      some (session.generation,
        { server with
          sessions := server.sessions.set index { session with active := false } })

/-- `turbo_rtsp_server_session_release` behind the mutex: the slot is cleared. -/
def releaseEnd (server : SendServer) (index generation : ℕ) : SendServer :=
  { server with
    sessions := server.sessions.set index { SendSession.zero with generation := generation } }

/-- What `turbo_rtsp_server_session_append` leaves of a session whose input it gives up. -/
def giveUp (server : SendServer) (index : ℕ) : SendServer :=
  match server.sessions[index]? with
  | none => server
  | some session =>
    if session.active = false then server
    else
      { server with
        sessions := server.sessions.set index { session with closeAfterFlush := true } }

/-- `turbo_rtsp_server_pop_send`. -/
def popSend (server : SendServer) : SendServer :=
  if server.sendCount = 0 then server
  else
    match server.sendQueue[server.sendHead]? with
    | none => server
    | some command =>
      { server with
        sendBytes := sizeMinus server.sendBytes command.size
        sendQueue := server.sendQueue.set server.sendHead SendCommand.zero
        sendHead := (server.sendHead + 1) % server.sendQueue.length
        sendCount := server.sendCount - 1 }

/-- What the worker finds at the head of the queue. -/
inductive QueueHead where
  | empty
  | stale
  | live (command : SendCommand)

/-- A command is stale when its session is gone. -/
def examine (server : SendServer) (command : SendCommand) : QueueHead :=
  match server.sessions[command.sessionIndex]? with
  | none => .stale
  | some session =>
    if session.active = false ∨ session.generation ≠ command.sessionGeneration then .stale
    else .live command

/-- First section of a round of `turbo_rtsp_server_drain_sends`. -/
def queueHead (server : SendServer) : QueueHead :=
  if server.sendCount = 0 then .empty
  else (server.sendQueue[server.sendHead]?).elim .empty (examine server)

/-- What the transport answers: `SALTS_OK`, one of `SALTS_EBUSY` and `SALTS_ENOBUFS`, or
another error. -/
inductive SendStatus where
  | ok
  | busy
  | failed
deriving DecidableEq

/-- Where the worker is: in no call of these, at the head of the loop of
`turbo_rtsp_server_drain_sends`, before `turbo_rtsp_server_pop_send` for a stale head, before
the call of the transport, before `turbo_rtsp_server_pop_send` after that call, and in
`turbo_rtsp_server_session_release` behind the mutex. -/
inductive Worker where
  | idle
  | draining
  | dropping
  | sending (command : SendCommand)
  | popping (failed : Bool)
  | releasing (index generation : ℕ)
deriving DecidableEq

/-- An admitted buffer, and which session of its slot it was admitted for. -/
structure SendBuffer where
  command : SendCommand
  occupant : ℕ

/-- A call of the transport: the place of the buffer in the order of admission, the slot and
the session in it whose connection was used, what was passed, whether the connection was to be
closed behind it, and the answer. -/
structure SendCall where
  ticket : ℕ
  slot : ℕ
  occupant : Option ℕ
  data : List UInt8
  closing : Bool
  status : SendStatus
deriving DecidableEq

/-- A session was marked `close_after_flush`, when so many buffers were handed over and these
were queued for it. -/
structure CloseMark where
  slot : ℕ
  occupant : ℕ
  handed : ℕ
  owed : List ℕ
deriving DecidableEq

/-- How often each slot was allocated, the buffers that were admitted, how many of them left
the queue, the calls of the transport and the marks. -/
structure SendHistory where
  occupants : List ℕ
  admitted : List SendBuffer
  retired : ℕ
  calls : List SendCall
  marks : List CloseMark

structure SendSystem where
  server : SendServer
  worker : Worker
  history : SendHistory

def SendSystem.create (config : SendConfig) : SendSystem :=
  ⟨SendServer.create config, .idle, ⟨List.replicate config.connectionCapacity 0, [], 0, [], []⟩⟩

/-- How often the slot was allocated: the number of its last session. -/
def SendHistory.occupant (h : SendHistory) (slot : ℕ) : ℕ :=
  h.occupants.getD slot 0

/-- The calls that the transport did not refuse for the time being. -/
def SendHistory.handed (h : SendHistory) : List SendCall :=
  h.calls.filter (fun call => decide (call.status ≠ .busy))

/-- The generation under which the slot is known. -/
def SendServer.generation (server : SendServer) (slot : ℕ) : ℕ :=
  (server.sessions[slot]?).elim 0 SendSession.generation

def SendServer.occupied (server : SendServer) (slot : ℕ) : Bool :=
  (server.sessions[slot]?).elim false SendSession.active

def SendServer.flagged (server : SendServer) (slot : ℕ) : Bool :=
  (server.sessions[slot]?).elim false SendSession.closeAfterFlush

/-- The buffer of this place is queued for the session in the slot, and was not handed to the
transport. -/
def SendSystem.waits (s : SendSystem) (slot ticket : ℕ) : Bool :=
  decide (s.history.retired ≤ ticket) && s.history.handed.all (fun call => call.ticket != ticket) &&
    (s.history.admitted[ticket]?).any (fun buffer =>
      buffer.command.sessionIndex == slot &&
        buffer.command.sessionGeneration == s.server.generation slot)

/-- The buffers that wait for the session in the slot. -/
def SendSystem.waiting (s : SendSystem) (slot : ℕ) : List ℕ :=
  (List.range s.history.admitted.length).filter (s.waits slot)

/-- A thread enqueues, `turbo_rtsp_server_stop` is called, the worker calls a function, or the
worker goes on; a call of the transport is answered by the given status. -/
inductive SendOp where
  | enqueue (index : ℕ) (data : List UInt8) (closeAfter : Bool)
  | stop
  | allocate (ioKind : IoKind)
  | release (index : ℕ)
  | giveUp (index : ℕ)
  | drain
  | advance (status : SendStatus)

namespace SendSystem

variable (s : SendSystem)

/-- A mark is noted when the session was not marked before. -/
def noteMark (before after : SendSystem) (slot : ℕ) : SendSystem :=
  if before.server.flagged slot = false ∧ after.server.flagged slot = true then
    { after with
      history := { after.history with
        marks := after.history.marks ++
          [⟨slot, after.history.occupant slot, after.history.handed.length,
            after.waiting slot⟩] } }
  else after

def enqueue (index : ℕ) (data : List UInt8) (closeAfter : Bool) :
    SendSystem :=
  match Rtsp.enqueue s.server index data closeAfter with
  | .refused => s
  | .direct => s
  | .queued server =>
    s.noteMark
      { s with
        server := server
        history := { s.history with
          admitted := s.history.admitted ++
            [⟨⟨index, s.server.generation index, data, data.length, closeAfter⟩,
              s.history.occupant index⟩] } }
      index

def allocate (ioKind : IoKind) : SendSystem :=
  match Rtsp.allocate s.server ioKind with
  | none => s
  | some (index, server) =>
    { s with
      server := server
      history := { s.history with
        occupants := s.history.occupants.set index (s.history.occupant index + 1) } }

def release (index : ℕ) : SendSystem :=
  match releaseBegin s.server index with
  | none => s
  | some (generation, server) => { s with server := server, worker := .releasing index generation }

def giveUp (index : ℕ) : SendSystem :=
  s.noteMark { s with server := Rtsp.giveUp s.server index } index

/-- `turbo_rtsp_server_pop_send`, and where the worker goes on. -/
def pop (worker : Worker) : SendSystem :=
  { s with
    server := popSend s.server
    worker := worker
    history := { s.history with
      retired := s.history.retired + if s.server.sendCount = 0 then 0 else 1 } }

/-- The transport is called with the command, or is not there; a command that is retried stays
in the queue. -/
def send (command : SendCommand) (status : SendStatus) :
    SendSystem :=
  match s.server.sessions[command.sessionIndex]? with
  | none => s
  | some session =>
    if session.ioKind = .stream ∨ session.ioKind = .packet then
      { s with
        worker :=
          match status with
          | .ok => .popping false
          | .busy => .idle
          | .failed => .popping true
        history := { s.history with
          calls := s.history.calls ++ [⟨s.history.retired, command.sessionIndex,
              if session.active then some (s.history.occupant command.sessionIndex) else none,
              command.data, command.closeAfter || session.closeAfterFlush, status⟩] } }
    else { s with worker := .popping true }

/-- The next section of what the worker is in. -/
def advance (status : SendStatus) : SendSystem :=
  match s.worker with
  | .idle => s
  | .draining =>
    match queueHead s.server with
    | .empty => { s with worker := .idle }
    | .stale => { s with worker := .dropping }
    | .live command => { s with worker := .sending command }
  | .dropping => s.pop .draining
  | .sending command => s.send command status
  | .popping failed => s.pop (if failed then .idle else .draining)
  | .releasing index generation =>
    { s with server := releaseEnd s.server index generation, worker := .idle }

/-- One step; the worker calls a function when it is in none. -/
def step : SendOp → SendSystem
  | .enqueue index data closeAfter => s.enqueue index data closeAfter
  | .stop => { s with server := { s.server with stopping := true } }
  | .allocate ioKind => if s.worker = .idle then s.allocate ioKind else s
  | .release index => if s.worker = .idle then s.release index else s
  | .giveUp index => if s.worker = .idle then s.giveUp index else s
  | .drain => if s.worker = .idle then { s with worker := .draining } else s
  | .advance status => s.advance status

end SendSystem

def sendMachine : Machine SendSystem SendOp Unit where
  step := fun s op => (s.step op, ())

end TurboMedia.Rtsp
