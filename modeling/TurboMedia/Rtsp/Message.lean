import Mathlib.Tactic

/-!
# RTSP messages

The records of `turbo_rtsp.h` that the parsers fill, and the functions of
`turbo_rtsp_parser.c` on single tokens.  A pointer into the buffer and a length are the bytes
they stand for; an array of characters is what was copied into it, without the zero byte.
-/

namespace TurboMedia.Rtsp

def text (s : String) : List UInt8 :=
  s.toList.map (fun c => UInt8.ofNat c.toNat)

def cr : UInt8 := 13
def lf : UInt8 := 10
def colonByte : UInt8 := 58
def semicolon : UInt8 := 59
def comma : UInt8 := 44

def crlf : List UInt8 := [cr, lf]

def isBlank (b : UInt8) : Bool :=
  b == 32 || b == 9

def isDigit (b : UInt8) : Bool :=
  decide (48 ≤ b ∧ b ≤ 57)

def isAlpha (b : UInt8) : Bool :=
  decide (65 ≤ b ∧ b ≤ 90) || decide (97 ≤ b ∧ b ≤ 122)

/-- `isspace`. -/
def isSpace (b : UInt8) : Bool :=
  b == 32 || decide (9 ≤ b ∧ b ≤ 13)

/-- `tolower`. -/
def lower (b : UInt8) : UInt8 :=
  if 65 ≤ b ∧ b ≤ 90 then b + 32 else b

/-- `turbo_rtsp_token_case_eq`, `turbo_rtsp_view_case_eq` and `turbo_rtsp_cstr_case_eq`. -/
def caseEq (left right : List UInt8) : Bool :=
  left.map lower == right.map lower

/-- `rtsp_skip_ows`. -/
def skipOws (b : List UInt8) : List UInt8 :=
  b.dropWhile isBlank

def trimEnd (b : List UInt8) : List UInt8 :=
  (b.reverse.dropWhile isBlank).reverse

/-- `turbo_rtsp_trim_ows_view`. -/
def trimOws (b : List UInt8) : List UInt8 :=
  trimEnd (skipOws b)

/-- `turbo_rtsp_token_copy` and `turbo_rtsp_copy_range`: what is copied into an array of
characters. -/
def copyInto (size : ℕ) (token : List UInt8) : Option (List UInt8) :=
  if token.length ≥ size then none else some token

/-- The loop of `turbo_rtsp_token_to_u32`, `turbo_rtsp_token_to_size` and
`turbo_rtsp_view_to_size`, for numbers up to `limit`. -/
def digitsFrom (limit : ℕ) : ℕ → List UInt8 → Option ℕ
  | parsed, [] => some parsed
  | parsed, b :: bs =>
    if isDigit b = false then none
    else
      let digit := b.toNat - 48
      if parsed > (limit - digit) / 10 then none
      else digitsFrom limit (parsed * 10 + digit) bs

/-- A decimal number up to `limit`. -/
def decimal (limit : ℕ) (token : List UInt8) : Option ℕ :=
  if token = [] then none else digitsFrom limit 0 token

/-- `turbo_rtsp_token_to_u32`. -/
def tokenToU32 (token : List UInt8) : Option ℕ :=
  decimal (2 ^ 32 - 1) token

/-- `turbo_rtsp_token_to_size` and `turbo_rtsp_view_to_size`. -/
def tokenToSize (token : List UInt8) : Option ℕ :=
  decimal (2 ^ 64 - 1) token

/-- `TURBO_RTSP_MAX_URI_LEN`, `TURBO_RTSP_MAX_HEADER_VALUE_LEN` and
`TURBO_RTSP_MAX_MESSAGE_HEADERS`. -/
def maxUriLen : ℕ := 512
def maxHeaderValueLen : ℕ := 256
def maxMessageHeaders : ℕ := 32

/-- `turbo_rtsp_method_t`. -/
inductive RtspMethod where
  | unknown
  | options
  | describe
  | setup
  | play
  | teardown
  | pause
  | announce
  | record
  | getParameter
  | setParameter
  | redirect
deriving DecidableEq

/-- `turbo_rtsp_method_name`. -/
def methodName : RtspMethod → Option (List UInt8)
  | .unknown => none
  | .options => some (text "OPTIONS")
  | .describe => some (text "DESCRIBE")
  | .setup => some (text "SETUP")
  | .play => some (text "PLAY")
  | .teardown => some (text "TEARDOWN")
  | .pause => some (text "PAUSE")
  | .announce => some (text "ANNOUNCE")
  | .record => some (text "RECORD")
  | .getParameter => some (text "GET_PARAMETER")
  | .setParameter => some (text "SET_PARAMETER")
  | .redirect => some (text "REDIRECT")

/-- `turbo_rtsp_transport_t`. -/
inductive TransportKind where
  | unspecified
  | rtpAvpUdp
  | rtpAvpTcp
deriving DecidableEq

/-- `turbo_rtsp_transport_delivery_t`. -/
inductive TransportDelivery where
  | unspecified
  | unicast
  | multicast
deriving DecidableEq

/-- `turbo_rtsp_transport_mode_t`. -/
inductive TransportMode where
  | unspecified
  | play
  | record
deriving DecidableEq

/-- `turbo_rtsp_range_t`. -/
inductive RangeType where
  | unspecified
  | npt
  | smpte
  | smpte30Drop
  | smpte25
  | clock
deriving DecidableEq

/-- `turbo_rtsp_transport_spec_t`. -/
structure TransportSpec where
  kind : TransportKind
  delivery : TransportDelivery
  mode : TransportMode
  destination : List UInt8
  source : List UInt8
  clientRtpPort : ℤ
  clientRtcpPort : ℤ
  serverRtpPort : ℤ
  serverRtcpPort : ℤ
  multicastRtpPort : ℤ
  multicastRtcpPort : ℤ
  interleavedRtpChannel : ℤ
  interleavedRtcpChannel : ℤ
  ttl : ℤ
  layers : ℤ
  append : Bool
  ssrc : ℕ
  hasSsrc : Bool
deriving DecidableEq

/-- `turbo_rtsp_session_header_t`. -/
structure SessionHeader where
  id : List UInt8
  timeoutSeconds : ℤ
  hasTimeout : Bool
deriving DecidableEq

/-- `turbo_rtsp_range_header_t`. -/
structure RangeHeader where
  type : RangeType
  value : List UInt8
  startMs : ℤ
  endMs : ℤ
  hasStart : Bool
  hasEnd : Bool
  startIsNow : Bool
  timeMs : ℤ
  hasTime : Bool
deriving DecidableEq

/-- `turbo_rtsp_request_t`. -/
structure RtspRequest where
  method : RtspMethod
  cseq : ℕ
  uri : List UInt8
  sessionId : List UInt8
  range : List UInt8
  transport : List UInt8
  transportKind : TransportKind
  clientRtpPort : ℤ
  clientRtcpPort : ℤ
  interleavedRtpChannel : ℤ
  interleavedRtcpChannel : ℤ
  transportSpec : TransportSpec
  session : SessionHeader
  rangeSpec : RangeHeader
deriving DecidableEq

/-- `turbo_rtsp_header_view_t`. -/
structure HeaderView where
  name : List UInt8
  value : List UInt8
deriving DecidableEq

/-- `turbo_rtsp_message_t`; no body is an empty one. -/
structure RtspMessage where
  request : RtspRequest
  headers : List HeaderView
  body : List UInt8
deriving DecidableEq

/-- `turbo_rtsp_response_view_t`. -/
structure ResponseView where
  statusCode : ℕ
  reason : List UInt8
  headers : List HeaderView
  body : List UInt8
deriving DecidableEq

/-- The numbers of a transport that are not given. -/
def TransportSpec.unset (s : TransportSpec) : TransportSpec :=
  { s with
    clientRtpPort := -1
    clientRtcpPort := -1
    serverRtpPort := -1
    serverRtcpPort := -1
    multicastRtpPort := -1
    multicastRtcpPort := -1
    interleavedRtpChannel := -1
    interleavedRtcpChannel := -1
    ttl := -1
    layers := -1 }

def TransportSpec.zero : TransportSpec :=
  ⟨.unspecified, .unspecified, .unspecified, [], [], 0, 0, 0, 0, 0, 0, 0, 0, 0, 0, false, 0, false⟩

def RangeHeader.zero : RangeHeader :=
  ⟨.unspecified, [], 0, 0, false, false, false, 0, false⟩

def RtspRequest.initial : RtspRequest :=
  ⟨.unknown, 0, [], [], [], [], .unspecified, -1, -1, -1, -1, TransportSpec.zero.unset,
    ⟨[], 0, false⟩, RangeHeader.zero⟩

end TurboMedia.Rtsp
