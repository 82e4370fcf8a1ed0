import TurboMedia.Rtsp.NalFormat

/-!
# Sending and receiving NAL units over RTP

Model of `turbo_rtsp_rtp_stream_write_h264_nal_ex`, of the receiver's statistics
`turbo_rtsp_rtp_source_update_ex`, and of the receive streams with their reorder slots.  As with
the packetizers, the code for H.265 is the code for H.264 with the other payload format.

A receive stream writes fragments into a buffer of its caller.  The calls take the buffer's
bytes and return them.
-/

namespace TurboMedia.Rtsp

open Bytes

section Sending

variable (f : VideoFormat)

/-- `SIZE_MAX`. -/
def sizeMax : ℕ := 18446744073709551615

/-- The arguments of `turbo_rtsp_rtp_stream_write_h264_nal_ex`.  Missing memory has size 0. -/
structure NalWrite where
  nal : List UInt8
  marker : Bool
  timestampIncrement : UInt32
  maxPayload : ℕ
  packetSize : ℕ
  payloadScratchSize : ℕ
  packetCountCapacity : ℕ

/-- The loop over the needed packets, from a copy of the stream. -/
def writeNalPackets (w : NalWrite) :
    ℕ → NalPacketizer → RtpStream → Option (RtpStream × List (List UInt8))
  | 0, _, nextStream => some (nextStream, [])
  | n + 1, packetizer, nextStream =>
    match packetizerNext f packetizer w.payloadScratchSize with
    | (packetizer, .payload payload marker) =>
      let header := nextStream.header (marker && w.marker) payload
      match rtpWritePacket w.packetSize header payload,
        rtpSenderUpdate nextStream.sender header with
      | some packet, some sender =>
        match writeNalPackets w n packetizer
          { nextStream with
            sender := sender
            sequenceNumber := nextStream.sequenceNumber + 1 } with
        | none => none
        | some (nextStream, packets) => some (nextStream, packet :: packets)
      | _, _ => none
    | _ => none

/-- The checks before the loop: the number of packets that are needed. -/
def writeNalNeeded (stream : RtpStream) (w : NalWrite) : Option ℕ :=
  if stream.payloadType > 127 ∨ w.packetSize < rtpHeaderSize ∨ w.packetCountCapacity = 0 then none
  else
    match packetCount f w.nal w.maxPayload with
    | none => none
    | some needed =>
      let maxWrittenPayload := min w.nal.length w.maxPayload
      if needed > w.packetCountCapacity ∨ needed > sizeMax / w.packetSize then none
      else if maxWrittenPayload > sizeMax - rtpHeaderSize ∨
          w.packetSize < rtpHeaderSize + maxWrittenPayload then
        none
      else if w.nal.length > w.maxPayload ∧ w.payloadScratchSize < w.maxPayload then none
      else some needed

/-- `turbo_rtsp_rtp_stream_write_h264_nal_ex`, `turbo_rtsp_rtp_stream_write_h265_nal_ex`: the
stream and the packets, none for a return value of -1. -/
def rtpStreamWriteNalEx (stream : RtpStream) (w : NalWrite) :
    RtpStream × Option (List (List UInt8)) :=
  match writeNalNeeded f stream w, packetizerInit f w.nal w.maxPayload with
  | some needed, some packetizer =>
    match writeNalPackets f w needed packetizer stream with
    | none => (stream, none)
    | some (nextStream, packets) =>
      ({ nextStream with timestamp := nextStream.timestamp + w.timestampIncrement }, some packets)
  | _, _ => (stream, none)

end Sending

/-- `TURBO_RTSP_RTP_MAX_DROPOUT`. -/
def rtpMaxDropout : ℕ := 3000

/-- `turbo_rtsp_rtp_source_t`. -/
structure RtpSource where
  ssrc : UInt32
  baseSequenceNumber : UInt16
  maxSequenceNumber : UInt16
  cycles : UInt32
  received : UInt32
  expectedPrior : UInt32
  receivedPrior : UInt32
  transit : Int32
  jitterQ4 : UInt32
  receivedSequenceBitmap : BitVec 64
  hasSsrc : Bool
  initialized : Bool

/-- `turbo_rtsp_rtp_source_init`. -/
def rtpSourceInit (ssrc : UInt32) : RtpSource :=
  ⟨ssrc, 0, 0, 0, 0, 0, 0, 0, 0, 0, decide (ssrc ≠ 0), false⟩

/-- `turbo_rtsp_rtp_source_update_result_t`. -/
inductive SourceUpdate where
  | error
  | ok
  | ssrcMismatch
  | duplicate
  | lateOrOutOfOrder
  | dropout

variable (source : RtpSource)

/-- `turbo_rtsp_rtp_source_update_jitter`. -/
def RtpSource.updateJitter (header : RtpHeader)
    (arrivalRtpTimestamp : UInt32) : RtpSource :=
  let transit := (arrivalRtpTimestamp - header.timestamp).toInt32
  let delta := transit - source.transit
  let delta := if delta < 0 then -delta else delta
  { source with
    transit := transit
    jitterQ4 := source.jitterQ4 + (delta.toUInt32 - ((source.jitterQ4 + 8) >>> 4)) }

/-- `turbo_rtsp_rtp_source_mark_received`. -/
def RtpSource.markReceived (sequenceDelta : ℕ) : RtpSource :=
  { source with
    receivedSequenceBitmap :=
      if sequenceDelta ≥ 64 then 1
      else source.receivedSequenceBitmap <<< sequenceDelta ||| 1 }

/-- A packet that is ahead of all others by so much. -/
def RtpSource.advance (sequence : UInt16) (sequenceDelta : ℕ) :
    RtpSource × SourceUpdate :=
  ({ source with maxSequenceNumber := sequence }.markReceived sequenceDelta,
    if sequenceDelta > rtpMaxDropout then .dropout else .ok)

/-- A packet that is behind the newest one by so much; `known` says that the bitmap has it. -/
def RtpSource.behind (known : Bool) (reverseDelta : ℕ) :
    RtpSource × SourceUpdate :=
  if known = true ∧ reverseDelta < 64 ∧
      source.receivedSequenceBitmap.getLsbD reverseDelta = true then
    (source, .duplicate)
  else if known = true ∧ reverseDelta < 64 then
    ({ source with
        receivedSequenceBitmap :=
          source.receivedSequenceBitmap ||| (1 : BitVec 64) <<< reverseDelta },
      .lateOrOutOfOrder)
  else (source, .lateOrOutOfOrder)

/-- The place of a sequence number among those received. -/
def RtpSource.classify (sequence : UInt16) : RtpSource × SourceUpdate :=
  if sequence = source.maxSequenceNumber then (source, .duplicate)
  else if sequence > source.maxSequenceNumber then
    if sequence.toNat - source.maxSequenceNumber.toNat ≥ 0x8000 then
      source.behind (decide (source.cycles > 0))
        (source.maxSequenceNumber.toNat + (0x10000 - sequence.toNat))
    else source.advance sequence (sequence.toNat - source.maxSequenceNumber.toNat)
  else if source.maxSequenceNumber.toNat - sequence.toNat > 0x8000 then
    { source with cycles := source.cycles + 0x10000 }.advance sequence
      (0x10000 - (source.maxSequenceNumber.toNat - sequence.toNat))
  else source.behind true (source.maxSequenceNumber.toNat - sequence.toNat)

/-- `turbo_rtsp_rtp_source_update_ex`. -/
def rtpSourceUpdateEx (header : RtpHeader)
    (arrivalRtpTimestamp : UInt32) : RtpSource × SourceUpdate :=
  if header.version ≠ 2 then (source, .error)
  else if source.initialized = false then
    if source.hasSsrc = true ∧ source.ssrc ≠ header.ssrc then (source, .ssrcMismatch)
    else
      ({ source with
          ssrc := header.ssrc
          hasSsrc := true
          baseSequenceNumber := header.sequenceNumber
          maxSequenceNumber := header.sequenceNumber
          received := 1
          transit := (arrivalRtpTimestamp - header.timestamp).toInt32
          receivedSequenceBitmap := 1
          initialized := true },
        .ok)
  else if source.ssrc ≠ header.ssrc then (source, .ssrcMismatch)
  else
    match source.classify header.sequenceNumber with
    | (_, .duplicate) => (source, .duplicate)
    | (classified, result) =>
      let updated := classified.updateJitter header arrivalRtpTimestamp
      ({ updated with received := updated.received + 1 }, result)

variable (f : VideoFormat)

/-- `TURBO_RTSP_RTP_H264_RECEIVE_REORDER_CAPACITY`, and the same for H.265. -/
def receiveReorderCapacity : ℕ := 4

/-- `TURBO_RTSP_RTP_H264_RECEIVE_REORDER_WINDOW`, and the same for H.265. -/
def receiveReorderWindow : ℕ := 8

/-- `TURBO_RTSP_RTP_H264_RECEIVE_REORDER_PAYLOAD_SIZE`, and the same for H.265. -/
def receiveReorderPayloadSize : ℕ := 2048

/-- `turbo_rtsp_rtp_h264_receive_reorder_packet_t` of an occupied slot; the slot's array has
room for the payload. -/
structure ReorderPacket where
  header : RtpHeader
  fits : header.payload.length ≤ receiveReorderPayloadSize

/-- `turbo_rtsp_rtp_h264_receive_stream_t`, `turbo_rtsp_rtp_h265_receive_stream_t`. -/
structure NalReceiveStream where
  source : RtpSource
  reassembler : NalReassembler
  reorder : List (Option ReorderPacket)
  reorderCount : ℕ
  hasNextSequenceNumber : Bool
  nextSequenceNumber : UInt16

/-- `turbo_rtsp_rtp_h264_receive_stream_init`. -/
def receiveStreamInit (ssrc : UInt32) : NalReceiveStream :=
  ⟨rtpSourceInit ssrc, .zero, List.replicate receiveReorderCapacity none, 0, false, 0⟩

namespace NalReceiveStream

variable (s : NalReceiveStream)

/-- `turbo_rtsp_rtp_h264_receive_stream_reorder_reset`. -/
def reorderReset : NalReceiveStream :=
  { s with
    reorder := List.replicate receiveReorderCapacity none
    reorderCount := 0
    hasNextSequenceNumber := false
    nextSequenceNumber := 0 }

/-- The exit of most errors: no NAL unit is begun and no packet is held back. -/
def reset : NalReceiveStream :=
  { s with reassembler := .zero }.reorderReset

/-- A slot holds a packet with this sequence number. -/
def slotHas (sequenceNumber : UInt16) (slot : Option ReorderPacket) : Bool :=
  slot.any (fun packet => decide (packet.header.sequenceNumber = sequenceNumber))

/-- `turbo_rtsp_rtp_h264_receive_stream_reorder_find`. -/
def reorderFind (sequenceNumber : UInt16) : Option ℕ :=
  s.reorder.findIdx? (slotHas sequenceNumber)

/-- `turbo_rtsp_rtp_h264_receive_stream_reorder_store`. -/
def reorderStore (header : RtpHeader) : Option NalReceiveStream :=
  if h : header.payload.length ≤ receiveReorderPayloadSize then
    if s.reorderCount ≥ receiveReorderCapacity then none
    else
      match s.reorder.findIdx? Option.isNone with
      | none => none
      | some i =>
        some
          { s with
            reorder := s.reorder.set i (some ⟨header, h⟩)
            reorderCount := s.reorderCount + 1 }
  else none

/-- `turbo_rtsp_rtp_h264_receive_stream_remove_reorder` of an occupied slot. -/
def removeReorder (index : ℕ) : NalReceiveStream :=
  { s with
    reorder := s.reorder.set index none
    reorderCount := s.reorderCount - 1 }

/-- `turbo_rtsp_rtp_h264_receive_stream_deliver`.  A NAL unit that lies in a slot is copied out
of it, which always succeeds, as the copy has room for what a slot has room for. -/
def deliver (header : RtpHeader) (buffer : List UInt8) :
    NalReceiveStream × List UInt8 × FrameResult :=
  match reassemblerPush f s.reassembler header buffer with
  | (reassembler, buffer, result) =>
    ({ s with
        reassembler := reassembler
        hasNextSequenceNumber := true
        nextSequenceNumber := header.sequenceNumber + 1 },
      buffer, result)

/-- The packet that is held back for the next sequence number is delivered and its slot freed;
none when there is no such packet. -/
def deliverQueued (buffer : List UInt8) :
    Option (NalReceiveStream × List UInt8 × FrameResult) :=
  match s.reorderFind s.nextSequenceNumber with
  | none => none
  | some index =>
    match s.reorder.getD index none with
    | none => none
    | some packet =>
      match s.deliver f packet.header buffer with
      | (delivered, buffer, result) => some (delivered.removeReorder index, buffer, result)

/-- The loop of `turbo_rtsp_rtp_h264_receive_stream_drain`: held back packets are delivered as
long as the result is partial.  Every round frees a slot. -/
def drainLoop : ℕ → NalReceiveStream → List UInt8 → FrameResult →
    NalReceiveStream × List UInt8 × FrameResult
  | 0, s, buffer, result => (s, buffer, result)
  | n + 1, s, buffer, .incomplete =>
    match s.deliverQueued f buffer with
    | none => (s, buffer, .incomplete)
    | some (delivered, buffer, result) => drainLoop n delivered buffer result
  | _ + 1, s, buffer, result => (s, buffer, result)

def settle : NalReceiveStream × List UInt8 × FrameResult →
    NalReceiveStream × List UInt8 × FrameResult
  | (s, buffer, .error) => (s.reorderReset, buffer, .error)
  | (s, buffer, result) => (s, buffer, result)

/-- `turbo_rtsp_rtp_h264_receive_stream_drain`. -/
def drain (header : RtpHeader) (buffer : List UInt8) :
    NalReceiveStream × List UInt8 × FrameResult :=
  match s.deliver f header buffer with
  | (delivered, buffer, result) =>
    settle (drainLoop f receiveReorderCapacity delivered buffer result)

/-- `turbo_rtsp_rtp_h264_receive_stream_drain_queued`. -/
def drainQueued (buffer : List UInt8) : NalReceiveStream × List UInt8 × FrameResult :=
  if s.hasNextSequenceNumber = false then (s, buffer, .incomplete)
  else
    match s.deliverQueued f buffer with
    | none => (s, buffer, .incomplete)
    | some delivered => settle delivered

/-- A packet that is ahead of the next one by so much is held back, if that is possible. -/
def holdBack (header : RtpHeader) (sequenceDelta : UInt16) : Option NalReceiveStream :=
  if sequenceDelta.toNat ≤ receiveReorderWindow ∧
      s.reorderFind header.sequenceNumber = none then
    s.reorderStore header
  else none

/-- `turbo_rtsp_rtp_h264_receive_stream_accept`. -/
def accept (header : RtpHeader) (buffer : List UInt8) :
    NalReceiveStream × List UInt8 × FrameResult :=
  let s : NalReceiveStream :=
    if s.hasNextSequenceNumber = true then s
    else { s with hasNextSequenceNumber := true, nextSequenceNumber := header.sequenceNumber }
  let sequenceDelta := header.sequenceNumber - s.nextSequenceNumber
  if sequenceDelta = 0 then s.drain f header buffer
  else
    match s.holdBack header sequenceDelta with
    | some s => (s, buffer, .incomplete)
    | none => (s.reset, buffer, .error)

/-- What a receive stream does with a packet that its statistics have classified. -/
def acceptUpdated (update : SourceUpdate) (header : RtpHeader) (buffer : List UInt8) :
    NalReceiveStream × List UInt8 × FrameResult :=
  match update with
  | .duplicate => (s, buffer, .incomplete)
  | .lateOrOutOfOrder =>
    if s.hasNextSequenceNumber = true ∧ header.sequenceNumber = s.nextSequenceNumber then
      s.accept f header buffer
    else (s, buffer, .incomplete)
  | .ok => s.accept f header buffer
  | _ => (s.reset, buffer, .error)

/-- `turbo_rtsp_rtp_h264_receive_stream_push`, `turbo_rtsp_rtp_h265_receive_stream_push`: the
stream, the buffer, the frame result and the result of the statistics. -/
def push (packet : List UInt8) (arrivalRtpTimestamp : UInt32) (buffer : List UInt8) :
    (NalReceiveStream × List UInt8 × FrameResult) × SourceUpdate :=
  match rtpParseHeader packet with
  | none => ((s.reset, buffer, .error), .error)
  | some header =>
    match rtpSourceUpdateEx s.source header arrivalRtpTimestamp with
    | (source, update) => ({ s with source := source }.acceptUpdated f update header buffer, update)

end NalReceiveStream

end TurboMedia.Rtsp
