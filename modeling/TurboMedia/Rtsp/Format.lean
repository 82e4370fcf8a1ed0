import TurboMedia.Lib.Writer
import TurboMedia.Rtsp.Message

/-!
# Formatting of requests and responses

Model of `turbo_rtsp_format_request` and `turbo_rtsp_format_response`.  Every call of an
append function is a piece that is put into the buffer; a pointer that may be missing is an
option, and a string is its bytes without the zero byte.  What is given back is an `int`.
-/

namespace TurboMedia.Rtsp

open BoundedWriter (Piece Writer store putAll)

/-- `turbo_rtsp_header_t`. -/
structure RtspHeader where
  name : Option (List UInt8)
  value : Option (List UInt8)

/-- `body` and `body_len`: the bytes from the pointer on, which are at least as many as the
length says, and where it says nothing there is a zero byte. -/
structure Body where
  data : List UInt8
  len : ℕ
  fits : len ≤ data.length
  ends : len = 0 → 0 ∈ data
  sized : data.length < 2 ^ 64

/-- `turbo_rtsp_request_message_t`. -/
structure RequestMessage where
  method : RtspMethod
  uri : Option (List UInt8)
  cseq : UInt32
  userAgent : Option (List UInt8)
  sessionId : Option (List UInt8)
  transport : Option (List UInt8)
  contentType : Option (List UInt8)
  range : Option (List UInt8)
  headers : List RtspHeader
  body : Option Body

/-- `turbo_rtsp_response_t`. -/
structure RtspResponse where
  statusCode : ℤ
  reason : Option (List UInt8)
  contentType : Option (List UInt8)
  body : Option Body
  sessionId : Option (List UInt8)
  transport : Option (List UInt8)
  publicMethods : Option (List UInt8)
  range : Option (List UInt8)
  rtpInfo : Option (List UInt8)
  headers : List RtspHeader

/-- `%u` and `%zu`. -/
def decimalText (n : ℕ) : List UInt8 :=
  (Nat.toDigits 10 n).map (fun c => UInt8.ofNat c.toNat)

/-- `%d`. -/
def intText (n : ℤ) : List UInt8 :=
  (if n < 0 then text "-" else []) ++ decimalText n.natAbs

/-- `turbo_rtsp_reason_phrase`. -/
def reasonPhrase (statusCode : ℤ) : List UInt8 :=
  match statusCode with
  | 200 => text "OK"
  | 400 => text "Bad Request"
  | 404 => text "Not Found"
  | 405 => text "Method Not Allowed"
  | 454 => text "Session Not Found"
  | 455 => text "Method Not Valid in This State"
  | 461 => text "Unsupported Transport"
  | 500 => text "Internal Server Error"
  | 501 => text "Not Implemented"
  | 503 => text "Service Unavailable"
  | _ => text "OK"

/-- `turbo_rtsp_is_managed_response_header`. -/
def isManagedResponseHeader (name : List UInt8) : Bool :=
  ["CSeq", "Server", "Public", "Session", "Transport", "Range", "RTP-Info", "Content-Type",
    "Content-Length"].any (fun managed => caseEq name (text managed))

/-- `turbo_rtsp_is_managed_request_header`. -/
def isManagedRequestHeader (name : List UInt8) : Bool :=
  ["CSeq", "User-Agent", "Session", "Transport", "Range", "Content-Type",
    "Content-Length"].any (fun managed => caseEq name (text managed))

/-- `turbo_rtsp_body_len`. -/
def bodyLen (body : Option Body) : ℕ :=
  match body with
  | none => 0
  | some b => if b.len ≠ 0 then b.len else (b.data.takeWhile (· != 0)).length

def bodyBytes (body : Option Body) : List UInt8 :=
  match body with
  | none => []
  | some b => b.data.take (bodyLen (some b))

/-- `name: value` and the end of the line. -/
def headerPiece (header : HeaderView) : Piece UInt8 :=
  .format (header.name ++ text ": " ++ header.value ++ crlf)

def optionalHeader (name : String) (value : Option (List UInt8)) : List HeaderView :=
  value.toList.map (fun value => ⟨text name, value⟩)

def nonEmpty (value : Option (List UInt8)) : Option (List UInt8) :=
  value.filter (fun value => value != [])

/-- What the loop over the extra headers does with one of them. -/
def extraPiece (managed : List UInt8 → Bool) (header : RtspHeader) : List (Piece UInt8) :=
  match header.name with
  | none => []
  | some name =>
    if managed name then [.refused]
    else (header.value.map (fun value => headerPiece ⟨name, value⟩)).toList

def extraPieces (managed : List UInt8 → Bool) (headers : List RtspHeader) :
    List (Piece UInt8) :=
  headers.flatMap (extraPiece managed)

def lastPieces (body : Option Body) : List (Piece UInt8) :=
  [.format (text "Content-Length: " ++ decimalText (bodyLen body) ++ crlf), .format crlf] ++
    if bodyLen body > 0 then [.raw (bodyBytes body)] else []

def intMax : ℕ := 2 ^ 31 - 1

/-- The offset of the cursor as an `int`, or -1. -/
def returned (written : Writer UInt8 × Bool) : (ℕ → UInt8) × ℤ :=
  (written.1.memory, if written.2 then Int.bmod written.1.cursor (2 ^ 32) else -1)

def requestPieces (method uri : List UInt8) (request : RequestMessage) : List (Piece UInt8) :=
  .format (method ++ text " " ++ uri ++ text " RTSP/1.0" ++ crlf ++ text "CSeq: " ++
      decimalText request.cseq.toNat ++ crlf) ::
    ((optionalHeader "User-Agent" (nonEmpty request.userAgent)).map headerPiece ++
    (optionalHeader "Session" (nonEmpty request.sessionId)).map headerPiece ++
    (optionalHeader "Transport" (nonEmpty request.transport)).map headerPiece ++
    (optionalHeader "Range" (nonEmpty request.range)).map headerPiece ++
    (optionalHeader "Content-Type" (nonEmpty request.contentType)).map headerPiece ++
    extraPieces isManagedRequestHeader request.headers ++
    lastPieces request.body)

/-- `turbo_rtsp_format_request`: the memory from the buffer on, and what is given back. -/
def formatRequest (memory : ℕ → UInt8) (bufferSize : ℕ) (request : RequestMessage) :
    (ℕ → UInt8) × ℤ :=
  match request.uri with
  | none => (memory, -1)
  | some uri =>
    if bufferSize = 0 ∨ request.cseq = 0 then (memory, -1)
    else
      match methodName request.method with
      | none => (store memory 0 [0], -1)
      | some method =>
        returned (putAll 0 intMax ⟨store memory 0 [0], 0, bufferSize⟩
          (requestPieces method uri request))

def RtspResponse.status (response : RtspResponse) : ℤ :=
  if response.statusCode ≠ 0 then response.statusCode else 200

def RtspResponse.phrase (response : RtspResponse) : List UInt8 :=
  response.reason.getD (reasonPhrase response.status)

def responsePieces (cseq : UInt32) (serverName : Option (List UInt8)) (response : RtspResponse) :
    List (Piece UInt8) :=
  .format (text "RTSP/1.0 " ++ intText response.status ++ text " " ++ response.phrase ++ crlf ++
      text "CSeq: " ++ decimalText cseq.toNat ++ crlf) ::
    ((optionalHeader "Server" (nonEmpty serverName)).map headerPiece ++
    (optionalHeader "Public" response.publicMethods).map headerPiece ++
    (optionalHeader "Session" response.sessionId).map headerPiece ++
    (optionalHeader "Transport" response.transport).map headerPiece ++
    (optionalHeader "Range" response.range).map headerPiece ++
    (optionalHeader "RTP-Info" response.rtpInfo).map headerPiece ++
    (optionalHeader "Content-Type" response.contentType).map headerPiece ++
    extraPieces isManagedResponseHeader response.headers ++
    lastPieces response.body)

/-- `turbo_rtsp_format_response`. -/
def formatResponse (memory : ℕ → UInt8) (bufferSize : ℕ) (cseq : UInt32)
    (serverName : Option (List UInt8)) (response : RtspResponse) : (ℕ → UInt8) × ℤ :=
  if bufferSize = 0 then (memory, -1)
  else
    returned (putAll 0 intMax ⟨store memory 0 [0], 0, bufferSize⟩
      (responsePieces cseq serverName response))

end TurboMedia.Rtsp
