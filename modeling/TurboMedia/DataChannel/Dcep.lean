import TurboMedia.Lib.Bytes

/-!
# The Data Channel Establishment Protocol

Model of the messages of `dcep_protocol.c` and of the reliability rules that
`turbo_datachannel.c` applies when it creates a channel and when it sends on one.

**Input.**  Labels and protocols are byte strings; an empty text is `NULL` or `""` in the
source, which has the same length 0 there.  The limits of a configuration are the source's
32-bit `int`.

The creation of a channel and the handling of a message by a peer are in
`TurboMedia.DataChannel.Channels`.
-/

namespace TurboMedia.DataChannel

open Bytes

def isContinuation (byte : UInt8) : Bool :=
  0x80 ≤ byte && byte ≤ 0xbf

/-- The second byte that a three-byte sequence may have. -/
def secondOfThree (first second : UInt8) : Bool :=
  !((first == 0xe0 && second < 0xa0) || (first == 0xed && 0x9f < second))

/-- The second byte that a four-byte sequence may have. -/
def secondOfFour (first second : UInt8) : Bool :=
  !((first == 0xf0 && second < 0x90) || (first == 0xf4 && 0x8f < second))

/-- `dcep_text_valid`: strict UTF-8. -/
def dcepTextValid : List UInt8 → Bool
  | [] => true
  | first :: rest =>
    if first ≤ 0x7f then dcepTextValid rest
    else if 0xc2 ≤ first ∧ first ≤ 0xdf then
      match rest with
      | second :: rest => isContinuation second && dcepTextValid rest
      | _ => false
    else if 0xe0 ≤ first ∧ first ≤ 0xef then
      match rest with
      | second :: third :: rest =>
        isContinuation second && isContinuation third && secondOfThree first second &&
          dcepTextValid rest
      | _ => false
    else if 0xf0 ≤ first ∧ first ≤ 0xf4 then
      match rest with
      | second :: third :: fourth :: rest =>
        isContinuation second && isContinuation third && isContinuation fourth &&
          secondOfFour first second && dcepTextValid rest
      | _ => false
    else false

/-- `turbo_dc_channel_config_t` without the protocol. -/
structure ChannelConfig where
  ordered : Bool
  maxRetransmits : Int32
  maxLifetimeMs : Int32

/-- `turbo_dc_default_channel_config`. -/
def defaultChannelConfig : ChannelConfig :=
  ⟨true, 0, 0⟩

/-- The limits are not negative and at most one of them is set. -/
def ChannelConfig.isValid (config : ChannelConfig) : Bool :=
  !(decide (config.maxRetransmits < 0) || decide (config.maxLifetimeMs < 0) ||
    (decide (0 < config.maxRetransmits) && decide (0 < config.maxLifetimeMs)))

/-- What SCTP is asked for: no policy, `SCTP_PR_SCTP_RTX` or `SCTP_PR_SCTP_TTL`. -/
inductive ReliabilityPolicy where
  | reliable
  | retransmissions (count : UInt32)
  | lifetime (ms : UInt32)

/-- The policy of `dc_channel_send_owner_impl`; `none` when it refuses the limits. -/
def ChannelConfig.sendPolicy (config : ChannelConfig) : Option ReliabilityPolicy :=
  if config.isValid = false then none
  else if 0 < config.maxRetransmits then some (.retransmissions config.maxRetransmits.toUInt32)
  else if 0 < config.maxLifetimeMs then some (.lifetime config.maxLifetimeMs.toUInt32)
  else some .reliable

/-- `MAX_LABEL_LEN`. -/
def maxLabelLen : ℕ := 256

/-- `MAX_PROTOCOL_LEN`. -/
def maxProtocolLen : ℕ := 256

/-- `DCEP_MAX_PACKET_SIZE`. -/
def dcepMaxPacketSize : ℕ := 512

/-- `DCEP_HEADER_LENGTH`. -/
def dcepHeaderLength : ℕ := 12

/-- `DCEP_DATA_CHANNEL_OPEN`. -/
def dataChannelOpen : UInt8 := 0x03

/-- `DCEP_DATA_CHANNEL_ACK`. -/
def dataChannelAck : UInt8 := 0x02

/-- `DCEP_CHANNEL_RELIABLE_UNORDERED`. -/
def channelUnordered : UInt8 := 0x80

/-- `DCEP_CHANNEL_REXMIT`. -/
def channelRexmit : UInt8 := 0x01

/-- `DCEP_CHANNEL_TIMED`. -/
def channelTimed : UInt8 := 0x02

/-- `INT_MAX`. -/
def intMax : UInt32 := 0x7fffffff

/-- What an accepted `DATA_CHANNEL_OPEN` says about the channel. -/
structure OpenRequest where
  label : List UInt8
  protocol : List UInt8
  config : ChannelConfig

/-- The bits of the channel type that name a limit. -/
def reliabilityBits (channelType : UInt8) : UInt8 :=
  channelType &&& (channelRexmit ||| channelTimed)

/-- The configuration that a channel type and its parameter stand for. -/
def openConfig (channelType : UInt8) (parameter : UInt32) : Option ChannelConfig :=
  let reliability := reliabilityBits channelType
  let config : ChannelConfig := ⟨channelType &&& channelUnordered == 0, 0, 0⟩
  if reliability = channelRexmit ||| channelTimed ∨
      channelType &&& ~~~(channelUnordered ||| channelRexmit ||| channelTimed) ≠ 0 then
    none
  else if reliability = channelRexmit then
    if intMax < parameter then none
    else some { config with maxRetransmits := parameter.toInt32 }
  else if reliability = channelTimed then
    if intMax < parameter then none
    else some { config with maxLifetimeMs := parameter.toInt32 }
  else some config

/-- The checks of `dcep_handle_message` on an `OPEN`, up to the publication of the channel. -/
def readOpen (isDtlsServer : Bool) (streamId : UInt16) (data : List UInt8) :
    Option OpenRequest :=
  let labelLen := (readU16 data 8).toNat
  let protoLen := (readU16 data 10).toNat
  let label := (data.drop dcepHeaderLength).take labelLen
  let protocol := (data.drop (dcepHeaderLength + labelLen)).take protoLen
  if maxLabelLen < labelLen ∨ maxProtocolLen < protoLen ∨
      data.length ≠ dcepHeaderLength + labelLen + protoLen then
    none
  else if dcepTextValid label = false ∨ dcepTextValid protocol = false then none
  else if decide (streamId &&& 1 = 0) ≠ isDtlsServer then none
  else (openConfig (u8At data 1) (readU32 data 4)).map (fun config => ⟨label, protocol, config⟩)

/-- What `dcep_handle_message` takes a message for. -/
inductive DcepMessage where
  | opening (request : OpenRequest)
  | ack
  | ignored

/-- The dispatch of `dcep_handle_message` for a peer in a role. -/
def readDcep (isDtlsServer : Bool) (streamId : UInt16) (data : List UInt8) : DcepMessage :=
  match data with
  | [] => .ignored
  | msgType :: _ =>
    if msgType = dataChannelOpen ∧ dcepHeaderLength ≤ data.length then
      match readOpen isDtlsServer streamId data with
      | some request => .opening request
      | none => .ignored
    else if msgType = dataChannelAck ∧ data.length = 1 then .ack
    else .ignored

/-- The type byte and the parameter that `dcep_send_open` writes for a configuration. -/
def openParameters (config : ChannelConfig) : Option (UInt8 × UInt32) :=
  let ordering : UInt8 := if config.ordered then 0 else channelUnordered
  if config.isValid = false then none
  else if 0 < config.maxRetransmits then
    some (ordering ||| channelRexmit, config.maxRetransmits.toUInt32)
  else if 0 < config.maxLifetimeMs then
    some (ordering ||| channelTimed, config.maxLifetimeMs.toUInt32)
  else some (ordering, 0)

/-- The packet of `dcep_send_open`; `none` when it gives up before it sends. -/
def openPacket (request : OpenRequest) : Option (List UInt8) :=
  if dcepMaxPacketSize <
      dcepHeaderLength + request.label.length + request.protocol.length then
    none
  else
    (openParameters request.config).map (fun parameters =>
      [dataChannelOpen, parameters.1, 0, 0] ++ writeU32 parameters.2 ++
        writeU16 (UInt16.ofNat request.label.length) ++
        writeU16 (UInt16.ofNat request.protocol.length) ++ request.label ++ request.protocol)

/-- The checks of `dc_channel_create_owner_impl` on its arguments; the protocol of an absent
configuration is empty. -/
def createRequest (label : List UInt8) (config : Option (ChannelConfig × List UInt8)) :
    Option OpenRequest :=
  let protocol := (config.map Prod.snd).getD []
  if maxLabelLen < label.length ∨ maxProtocolLen < protocol.length ∨
      dcepTextValid label = false ∨ dcepTextValid protocol = false then
    none
  else
    match config with
    | none => some ⟨label, [], defaultChannelConfig⟩
    | some (config, protocol) =>
      if config.isValid then some ⟨label, protocol, config⟩ else none

variable {isDtlsServer : Bool} {streamId : UInt16} {data : List UInt8} {request : OpenRequest}

/-- An accepted `OPEN` is on a stream of the other role, and its type and parameter are read. -/
theorem readDcep_opening (hread : readDcep isDtlsServer streamId data = .opening request) :
    decide (streamId &&& 1 = 0) = isDtlsServer ∧
      openConfig (u8At data 1) (readU32 data 4) = some request.config := by
  unfold readDcep at hread
  split at hread
  · cases hread
  · split at hread
    · split at hread
      next request' hopen =>
        rw [DcepMessage.opening.injEq] at hread
        subst hread
        unfold readOpen at hopen
        dsimp only at hopen
        split_ifs at hopen with hlong htext hparity
        obtain ⟨config, hcfg, rfl⟩ := Option.map_eq_some_iff.mp hopen
        exact ⟨not_not.mp hparity, hcfg⟩
      next => cases hread
    · split at hread <;> cases hread

end TurboMedia.DataChannel
