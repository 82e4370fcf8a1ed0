import TurboMedia.Lib.Ring
import TurboMedia.Rtsp.RtpCodec

/-!
# NAL units in RTP payloads

Model of the packetizers and reassemblers for H.264 and H.265.  The two formats differ in how
the payload headers are laid out (`VideoFormat`); what the packetizers and the reassemblers do
with them is the same.

A missing buffer is one of size zero: every check that the code makes of the one it makes of
the other.
-/

namespace TurboMedia.Rtsp

open Bytes

/-- What a payload holds: a NAL unit, several of them, or a fragment of one with the header
that is rebuilt from it. -/
inductive NalPayload where
  | single (nal : List UInt8)
  | aggregation
  | fragment (fuStart fuEnd : Bool) (fuNalUnitType : UInt8) (header data : List UInt8)

/-- The layout of a format: the size of a NAL unit header, the check of a NAL unit, the header
of a fragment, and how a payload is read. -/
structure VideoFormat where
  headerSize : ℕ
  accepts : List UInt8 → Bool
  fuHeader : List UInt8 → Bool → Bool → List UInt8
  payloadParse : List UInt8 → Option NalPayload

def VideoFormat.fuHeaderSize (f : VideoFormat) : ℕ :=
  f.headerSize + 1

/-- The start and end bits of a fragment header. -/
def fuBits (fuStart fuEnd : Bool) : UInt8 :=
  (if fuStart then 0x80 else 0) ||| (if fuEnd then 0x40 else 0)

/-- `turbo_rtsp_h264_is_single_nal_type`. -/
def h264IsSingleNalType (nalUnitType : UInt8) : Bool :=
  decide (1 ≤ nalUnitType) && decide (nalUnitType ≤ 23)

/-- `turbo_rtsp_h264_nal_type`. -/
def h264NalType (nalHeader : UInt8) : UInt8 :=
  nalHeader &&& 0x1f

/-- `turbo_rtsp_h264_payload_parse`. -/
def h264PayloadParse (payload : List UInt8) : Option NalPayload :=
  let nalHeader := u8At payload 0
  let nalUnitType := h264NalType nalHeader
  if payload = [] then none
  else if nalHeader >>> 7 ≠ 0 then none
  else if h264IsSingleNalType nalUnitType = true then some (.single payload)
  else if nalUnitType = 24 then
    if payload.length < 2 then none else some .aggregation
  else if nalUnitType = 28 then
    if payload.length < 2 then none
    else
      let fuHeader := u8At payload 1
      let fuStart := fuHeader >>> 7 &&& 0x01
      let fuEnd := fuHeader >>> 6 &&& 0x01
      let fuReserved := fuHeader >>> 5 &&& 0x01
      let fuNalUnitType := h264NalType fuHeader
      if fuReserved ≠ 0 ∨ (fuStart ≠ 0 ∧ fuEnd ≠ 0) ∨
          h264IsSingleNalType fuNalUnitType = false then
        none
      else
        some (.fragment (fuStart ≠ 0) (fuEnd ≠ 0) fuNalUnitType
          [(nalHeader &&& 0xe0) ||| fuNalUnitType] (payload.drop 2))
  else none

/-- H.264: one byte of header, `TURBO_RTSP_H264_NAL_TYPE_FU_A` for fragments. -/
def h264Format : VideoFormat where
  headerSize := 1
  accepts := fun nal =>
    decide (nal ≠ []) && decide (u8At nal 0 >>> 7 = 0) &&
      h264IsSingleNalType (h264NalType (u8At nal 0))
  fuHeader := fun nal fuStart fuEnd =>
    [(u8At nal 0 &&& 0xe0) ||| 28, h264NalType (u8At nal 0) ||| fuBits fuStart fuEnd]
  payloadParse := h264PayloadParse

/-- `turbo_rtsp_h265_nal_type`. -/
def h265NalType (nalHeader : UInt8) : UInt8 :=
  nalHeader >>> 1 &&& 0x3f

/-- `turbo_rtsp_h265_is_single_nal_type`. -/
def h265IsSingleNalType (nalUnitType : UInt8) : Bool :=
  decide (nalUnitType ≤ 47)

/-- `turbo_rtsp_h265_header_valid`. -/
def h265HeaderValid (nal : List UInt8) : Bool :=
  decide (u8At nal 0 >>> 7 = 0) && decide (u8At nal 1 &&& 0x07 ≠ 0)

/-- `turbo_rtsp_h265_payload_parse`. -/
def h265PayloadParse (payload : List UInt8) : Option NalPayload :=
  let nalUnitType := h265NalType (u8At payload 0)
  if payload.length < 2 then none
  else if h265HeaderValid payload = false then none
  else if h265IsSingleNalType nalUnitType = true then some (.single payload)
  else if nalUnitType = 48 then
    if payload.length < 4 then none else some .aggregation
  else if nalUnitType = 49 then
    if payload.length < 4 then none
    else
      let fuHeader := u8At payload 2
      let fuNalUnitType := fuHeader &&& 0x3f
      let fuStart := fuHeader >>> 7 &&& 0x01
      let fuEnd := fuHeader >>> 6 &&& 0x01
      if (fuStart ≠ 0 ∧ fuEnd ≠ 0) ∨ h265IsSingleNalType fuNalUnitType = false ∨
          payload.length - 3 = 0 then
        none
      else
        some (.fragment (fuStart ≠ 0) (fuEnd ≠ 0) fuNalUnitType
          [(u8At payload 0 &&& (0x81 : UInt8)) ||| fuNalUnitType <<< (1 : UInt8), u8At payload 1]
          (payload.drop 3))
  else none

/-- H.265: two bytes of header, `TURBO_RTSP_H265_NAL_TYPE_FU` for fragments. -/
def h265Format : VideoFormat where
  headerSize := 2
  accepts := fun nal =>
    decide (2 ≤ nal.length) && h265HeaderValid nal && h265IsSingleNalType (h265NalType (u8At nal 0))
  fuHeader := fun nal fuStart fuEnd =>
    [(u8At nal 0 &&& (0x81 : UInt8)) ||| (49 : UInt8) <<< (1 : UInt8), u8At nal 1,
      h265NalType (u8At nal 0) ||| fuBits fuStart fuEnd]
  payloadParse := h265PayloadParse

/-- The codecs that have packetizers and receive streams. -/
inductive VideoCodec where
  | h264
  | h265

def VideoCodec.format : VideoCodec → VideoFormat
  | .h264 => h264Format
  | .h265 => h265Format

section Packetizer

variable (f : VideoFormat)

/-- `turbo_rtsp_h264_packetizer_t`, `turbo_rtsp_h265_packetizer_t`. -/
structure NalPacketizer where
  nal : List UInt8
  maxPayload : ℕ
  offset : ℕ
  singleNal : Bool
  done : Bool

/-- `turbo_rtsp_h264_packetizer_init`, `turbo_rtsp_h265_packetizer_init`. -/
def packetizerInit (nal : List UInt8) (maxPayload : ℕ) : Option NalPacketizer :=
  if f.accepts nal = false ∨ maxPayload = 0 then none
  else if nal.length > maxPayload ∧ maxPayload < f.headerSize + 2 then none
  else
    some
      { nal := nal
        maxPayload := maxPayload
        offset := if nal.length ≤ maxPayload then 0 else f.headerSize
        singleNal := decide (nal.length ≤ maxPayload)
        done := false }

/-- What a packetizer returns: -1, 1, or a payload and whether it is the last one. -/
inductive Packetized where
  | failed
  | finished
  | payload (payload : List UInt8) (marker : Bool)

/-- `turbo_rtsp_h264_packetizer_next`, `turbo_rtsp_h265_packetizer_next`, with so many bytes
of scratch memory. -/
def packetizerNext (p : NalPacketizer) (payloadSize : ℕ) : NalPacketizer × Packetized :=
  if p.done = true then (p, .finished)
  else if p.nal.length < f.headerSize ∨ p.maxPayload = 0 then (p, .failed)
  else if p.singleNal = true then ({ p with done := true }, .payload p.nal true)
  else if payloadSize < f.headerSize + 2 ∨ p.maxPayload < f.headerSize + 2 ∨
      p.offset < f.headerSize ∨ p.offset ≥ p.nal.length then
    (p, .failed)
  else
    let remaining := p.nal.length - p.offset
    let fragmentLen := min remaining (p.maxPayload - f.fuHeaderSize)
    if payloadSize < fragmentLen + f.fuHeaderSize then (p, .failed)
    else
      let isLast := decide (fragmentLen = remaining)
      ({ p with offset := p.offset + fragmentLen, done := isLast },
        .payload (f.fuHeader p.nal (decide (p.offset = f.headerSize)) isLast ++
            (p.nal.drop p.offset).take fragmentLen)
          isLast)

/-- `turbo_rtsp_rtp_stream_h264_packet_count`, `turbo_rtsp_rtp_stream_h265_packet_count`. -/
def packetCount (nal : List UInt8) (maxPayload : ℕ) : Option ℕ :=
  match packetizerInit f nal maxPayload with
  | none => none
  | some _ =>
    if nal.length ≤ maxPayload then some 1
    else
      let fragmentData := maxPayload - f.fuHeaderSize
      some ((nal.length - f.headerSize + fragmentData - 1) / fragmentData)

end Packetizer

variable (f : VideoFormat)

/-- `turbo_rtsp_frame_result_t`, with the NAL unit of a complete one. -/
inductive FrameResult where
  | error
  | ok (nal : List UInt8)
  | incomplete
deriving DecidableEq

/-- `turbo_rtsp_h264_reassembler_t`, `turbo_rtsp_h265_reassembler_t`. -/
structure NalReassembler where
  ssrc : UInt32
  timestamp : UInt32
  nextSequenceNumber : UInt16
  fuNalUnitType : UInt8
  reconstructedNalHeader : List UInt8
  nalLen : ℕ
  started : Bool

/-- `turbo_rtsp_h264_reassembler_init`, and the reset. -/
def NalReassembler.zero : NalReassembler :=
  ⟨0, 0, 0, 0, [], 0, false⟩

/-- `turbo_rtsp_h264_reassembler_append`, `turbo_rtsp_h265_reassembler_append`. -/
def reassemblerAppend (r : NalReassembler) (buffer payload : List UInt8) :
    Option (NalReassembler × List UInt8) :=
  if r.nalLen > buffer.length ∨ payload.length > buffer.length - r.nalLen then none
  else some ({ r with nalLen := r.nalLen + payload.length }, Ring.blit buffer r.nalLen payload)

def reassemblerStart (header : RtpHeader) (buffer : List UInt8) (fuNalUnitType : UInt8)
    (nalHeader data : List UInt8) : NalReassembler × List UInt8 × FrameResult :=
  if buffer.length < nalHeader.length then (.zero, buffer, .error)
  else
    let started : NalReassembler :=
      { ssrc := header.ssrc
        timestamp := header.timestamp
        nextSequenceNumber := header.sequenceNumber + 1
        fuNalUnitType := fuNalUnitType
        reconstructedNalHeader := nalHeader
        nalLen := nalHeader.length
        started := true }
    match reassemblerAppend started (Ring.blit buffer 0 nalHeader) data with
    | none => (.zero, Ring.blit buffer 0 nalHeader, .error)
    | some (r, buffer) => (r, buffer, .incomplete)

/-- A fragment continues what the reassembler has. -/
def NalReassembler.continuedBy (r : NalReassembler) (header : RtpHeader)
    (fuNalUnitType : UInt8) (nalHeader : List UInt8) : Bool :=
  r.started && decide (header.ssrc = r.ssrc) && decide (header.timestamp = r.timestamp) &&
    decide (header.sequenceNumber = r.nextSequenceNumber) &&
    decide (fuNalUnitType = r.fuNalUnitType) && decide (nalHeader = r.reconstructedNalHeader)

def reassemblerContinue (r : NalReassembler) (header : RtpHeader) (buffer : List UInt8)
    (fuEnd : Bool) (fuNalUnitType : UInt8) (nalHeader data : List UInt8) :
    NalReassembler × List UInt8 × FrameResult :=
  if r.continuedBy header fuNalUnitType nalHeader = false then (.zero, buffer, .error)
  else
    match reassemblerAppend r buffer data with
    | none => (.zero, buffer, .error)
    | some (r, buffer) =>
      if fuEnd then (.zero, buffer, .ok (buffer.take r.nalLen))
      else ({ r with nextSequenceNumber := header.sequenceNumber + 1 }, buffer, .incomplete)

/-- `turbo_rtsp_h264_reassembler_push`, `turbo_rtsp_h265_reassembler_push`. -/
def reassemblerPush (r : NalReassembler) (header : RtpHeader) (buffer : List UInt8) :
    NalReassembler × List UInt8 × FrameResult :=
  match f.payloadParse header.payload with
  | none => (.zero, buffer, .error)
  | some (.single nal) =>
    if r.started = true then (.zero, buffer, .error) else (r, buffer, .ok nal)
  | some .aggregation => (if r.started = true then .zero else r, buffer, .error)
  | some (.fragment fuStart fuEnd fuNalUnitType nalHeader data) =>
    if fuStart = true then
      if r.started = true then (.zero, buffer, .error)
      else reassemblerStart header buffer fuNalUnitType nalHeader data
    else reassemblerContinue r header buffer fuEnd fuNalUnitType nalHeader data

end TurboMedia.Rtsp
