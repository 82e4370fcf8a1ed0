import TurboMedia.Rtsp.Format
import TurboMedia.Rtsp.Request

/-!
# Input of a server session

Model of `turbo_rtsp_server_session_append` and of what it calls: interleaved frames, the
dispatch of requests to their handlers, and the responses.

A handler is what it answers, which may depend on the handler calls before it; the calls are
kept in the order in which they are made.  The send queue is what was admitted to it.
-/

namespace TurboMedia.Rtsp

open Framing (Outcome)

/-- `TURBO_RTSP_INTERLEAVED_HEADER_SIZE`, `TURBO_RTSP_RESPONSE_BUFFER_SIZE` and
`TURBO_RTSP_SERVER_MAX_PENDING_BYTES`. -/
def interleavedHeaderSize : ℕ := 4
def responseBufferSize : ℕ := 65536
def maxPendingBytes : ℕ := interleavedHeaderSize + 65535

def dollar : UInt8 := 36

/-- `turbo_rtsp_interleaved_frame_t`. -/
structure InterleavedFrame where
  channel : UInt8
  payload : List UInt8
deriving DecidableEq

/-- `turbo_rtsp_interleaved_parse`. -/
def interleavedParse (buffer : List UInt8) : Outcome InterleavedFrame :=
  match buffer with
  | mark :: channel :: high :: low :: rest =>
    let payloadLen := high.toNat * 256 + low.toNat
    if mark ≠ dollar then .error
    else if buffer.length < interleavedHeaderSize + payloadLen then .incomplete
    else .ok (interleavedHeaderSize + payloadLen) ⟨channel, rest.take payloadLen⟩
  | _ => .incomplete

/-- What is passed to a handler. -/
inductive Received where
  | frame (frame : InterleavedFrame)
  | message (message : RtspMessage)
deriving DecidableEq

/-- `turbo_rtsp_server_t`: the handlers, and whether the send queue admits a response behind
those that it has admitted. -/
structure RtspServer where
  serverName : List UInt8
  publicMethods : List UInt8
  onRequest : RtspMethod → Option (List Received → RtspMessage → RtspResponse → ℤ × RtspResponse)
  onInterleavedFrame : Option (List Received → InterleavedFrame → ℤ)
  admits : List (List UInt8) → List UInt8 → Bool

/-- `turbo_rtsp_session_t`, the calls of its handlers, and the responses that were queued. -/
structure ServerSession where
  active : Bool
  closeAfterFlush : Bool
  pending : List UInt8
  pendingCap : ℕ
  calls : List Received
  sent : List (List UInt8)

/-- `turbo_rtsp_server_session_allocate`. -/
def ServerSession.initial : ServerSession :=
  ⟨true, false, [], 0, [], []⟩

def RtspResponse.zero : RtspResponse :=
  ⟨0, none, none, none, none, none, none, none, none, []⟩

/-- `turbo_rtsp_init_response`. -/
def initResponse (server : RtspServer) (request : RtspRequest) : RtspResponse :=
  if request.method = .options then
    { RtspResponse.zero with statusCode := 200, publicMethods := some server.publicMethods }
  else { RtspResponse.zero with statusCode := 501 }

/-- `turbo_rtsp_write_response` and `turbo_rtsp_server_enqueue`. -/
def writeResponse (server : RtspServer) (s : ServerSession) (cseq : UInt32)
    (response : RtspResponse) : ServerSession × Bool :=
  let formatted := formatResponse (fun _ => 0) responseBufferSize cseq (some server.serverName)
    response
  let data := BoundedWriter.load formatted.1 formatted.2.toNat
  if s.active = false ∨ formatted.2 < 0 ∨ server.admits s.sent data = false then (s, false)
  else ({ s with sent := s.sent ++ [data] }, true)

/-- The body of a response to a malformed request. -/
def malformedBody : Body :=
  ⟨text "Malformed RTSP request", 22, by decide, by decide, by decide⟩

/-- `turbo_rtsp_respond_parse_error`. -/
def respondParseError (server : RtspServer) (s : ServerSession) : ServerSession :=
  (writeResponse server s 0
    { RtspResponse.zero with
      statusCode := 400
      reason := some (text "Bad Request")
      contentType := some (text "text/plain")
      body := some malformedBody }).1

def dispatchFrame (server : RtspServer) (s : ServerSession) (frame : InterleavedFrame) :
    ServerSession × Bool :=
  match server.onInterleavedFrame with
  | none => (s, true)
  | some handler =>
    ({ s with calls := s.calls ++ [.frame frame] }, decide (handler s.calls frame = 0))

/-- A request is given to its handler, and answered. -/
def dispatchMessage (server : RtspServer) (s : ServerSession) (message : RtspMessage) :
    ServerSession × Bool :=
  let response := initResponse server message.request
  let cseq := UInt32.ofNat message.request.cseq
  match server.onRequest message.request.method with
  | none => writeResponse server s cseq response
  | some handler =>
    let answer := handler s.calls message response
    writeResponse server { s with calls := s.calls ++ [.message message] } cseq
      (if answer.1 ≠ 0 then
        { RtspResponse.zero with
          statusCode := 500
          reason := some (text "Internal Server Error") }
      else answer.2)

/-- `turbo_rtsp_parse_one`: the status and the bytes that were consumed. -/
def parseOne (server : RtspServer) (s : ServerSession) (buffer : List UInt8) :
    ServerSession × ℤ × ℕ :=
  if buffer.head? = some dollar then
    match interleavedParse buffer with
    | .incomplete => (s, 1, 0)
    | .error => (s, -1, 0)
    | .ok consumed frame =>
      ((dispatchFrame server s frame).1,
        if (dispatchFrame server s frame).2 then 0 else -1, consumed)
  else
    match parseMessage buffer with
    | .incomplete => (s, 1, 0)
    | .error => (respondParseError server s, -1, 0)
    | .ok consumed message =>
      ((dispatchMessage server s message).1,
        if (dispatchMessage server s message).2 then 0 else -1, consumed)

def parsePending (server : RtspServer) : ℕ → ServerSession → ℕ → ServerSession × ℤ
  | 0, s, _ => (s, -1)
  | fuel + 1, s, offset =>
    if offset < s.pending.length then
      let one := parseOne server s (s.pending.drop offset)
      if one.2.1 > 0 then ({ one.1 with pending := one.1.pending.drop offset }, 0)
      else if one.2.1 < 0 ∨ one.2.2 = 0 then ({ one.1 with closeAfterFlush := true }, -1)
      else parsePending server fuel one.1 (offset + one.2.2)
    else ({ s with pending := s.pending.drop offset }, 0)

def growCapacity (pendingLen size : ℕ) : ℕ → ℕ → Option ℕ
  | 0, _ => none
  | fuel + 1, capacity =>
    if capacity - pendingLen < size then
      if capacity ≥ maxPendingBytes then none
      else
        growCapacity pendingLen size fuel
          (if capacity > maxPendingBytes / 2 then maxPendingBytes else capacity * 2)
    else some capacity

/-- The capacity for these bytes behind the pending ones. -/
def capacityFor (s : ServerSession) (size : ℕ) : Option ℕ :=
  if s.pendingCap - s.pending.length < size then
    growCapacity s.pending.length size (maxPendingBytes + 1)
      (if s.pendingCap ≠ 0 then s.pendingCap else 2048)
  else some s.pendingCap

/-- `turbo_rtsp_server_session_append`. -/
def sessionAppend (server : RtspServer) (s : ServerSession) (data : List UInt8) :
    ServerSession × ℤ :=
  if s.active = false ∨ data = [] ∨ data.length > maxPendingBytes - s.pending.length then (s, -1)
  else
    match capacityFor s data.length with
    | none => (s, -1)
    | some capacity =>
      parsePending server ((s.pending ++ data).length + 1)
        { s with pending := s.pending ++ data, pendingCap := capacity } 0

end TurboMedia.Rtsp
