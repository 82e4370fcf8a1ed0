import TurboMedia.Lib.Bytes

/-!
# RTP packets of the RTSP stack

Model of `turbo_rtsp_rtp_parse_header`, `turbo_rtsp_rtp_write_header`,
`turbo_rtsp_rtp_write_packet` and of the sending stream.

Pointers into a packet are the bytes that they point to, and a length beside such a pointer is
the length of these bytes.  Sizes of objects in memory do not overflow in sums; the return
values of type `int` are reduced to 32 bits.
-/

namespace TurboMedia.Rtsp

open Bytes List

/-- `TURBO_RTSP_RTP_HEADER_SIZE`. -/
def rtpHeaderSize : ℕ := 12

/-- `turbo_rtsp_rtp_header_t`; the counts are the lengths of the lists. -/
structure RtpHeader where
  version : UInt8
  padding : UInt8
  extension : UInt8
  marker : UInt8
  payloadType : UInt8
  sequenceNumber : UInt16
  timestamp : UInt32
  ssrc : UInt32
  csrc : List UInt32
  extensionProfile : UInt16
  extensionData : List UInt8
  paddingLen : UInt8
  payload : List UInt8

def RtpHeader.zero : RtpHeader :=
  ⟨0, 0, 0, 0, 0, 0, 0, 0, [], 0, [], 0, []⟩

/-- The extension behind so many bytes: its profile and data, and where it ends. -/
def rtpParseExtension (packet : List UInt8) (parsedLen : ℕ) :
    Option (UInt16 × List UInt8 × ℕ) :=
  if packet.length < parsedLen + 4 then none
  else
    let extensionLen := (readU16 packet (parsedLen + 2)).toNat * 4
    if packet.length < parsedLen + 4 + extensionLen then none
    else
      some (readU16 packet parsedLen, (packet.drop (parsedLen + 4)).take extensionLen,
        parsedLen + 4 + extensionLen)

/-- The padding length of so many bytes behind the header. -/
def rtpParsePadding (packet : List UInt8) (padding : UInt8) (rawPayloadLen : ℕ) :
    Option UInt8 :=
  if padding = 0 then some 0
  else if rawPayloadLen < 1 then none
  else
    let paddingLen := u8At packet (packet.length - 1)
    if paddingLen = 0 ∨ rawPayloadLen < paddingLen.toNat then none else some paddingLen

/-- `turbo_rtsp_rtp_parse_header`. -/
def rtpParseHeader (packet : List UInt8) : Option RtpHeader :=
  if packet.length < rtpHeaderSize then none
  else
    let extension := u8At packet 0 >>> 4 &&& 0x01
    let padding := u8At packet 0 >>> 5 &&& 0x01
    let csrcCount := (u8At packet 0 &&& 0x0f).toNat
    if u8At packet 0 >>> 6 ≠ 2 then none
    else if packet.length < rtpHeaderSize + csrcCount * 4 then none
    else
      match
        if extension = 0 then some (0, [], rtpHeaderSize + csrcCount * 4)
        else rtpParseExtension packet (rtpHeaderSize + csrcCount * 4) with
      | none => none
      | some (extensionProfile, extensionData, parsedLen) =>
        let rawPayloadLen := packet.length - parsedLen
        match rtpParsePadding packet padding rawPayloadLen with
        | none => none
        | some paddingLen =>
          some
            { version := u8At packet 0 >>> 6
              padding := padding
              extension := extension
              marker := u8At packet 1 >>> 7
              payloadType := u8At packet 1 &&& 0x7f
              sequenceNumber := readU16 packet 2
              timestamp := readU32 packet 4
              ssrc := readU32 packet 8
              csrc := (List.range csrcCount).map (fun i => readU32 packet (rtpHeaderSize + i * 4))
              extensionProfile := extensionProfile
              extensionData := extensionData
              paddingLen := paddingLen
              payload := (packet.drop parsedLen).take (rawPayloadLen - paddingLen.toNat) }

def rtpWriteExtension (header : RtpHeader) : List UInt8 :=
  writeU16 header.extensionProfile ++
    writeU16 (UInt16.ofNat (header.extensionData.length / 4)) ++ header.extensionData

/-- `turbo_rtsp_rtp_write_header` into so many bytes: the bytes that are written. -/
def rtpWriteHeader (packetSize : ℕ) (header : RtpHeader) : Option (List UInt8) :=
  if packetSize < rtpHeaderSize then none
  else if header.version ≠ 2 ∨ header.csrc.length > 15 ∨ header.payloadType > 127 then none
  else if header.extension ≠ 0 ∧ header.extensionData.length % 4 ≠ 0 then none
  else if header.extension ≠ 0 ∧ header.extensionData.length > 65535 * 4 then none
  else
    let bytes :=
      [header.version <<< 6 ||| (header.padding &&& 0x01) <<< 5 |||
          (header.extension &&& 0x01) <<< 4 ||| (UInt8.ofNat header.csrc.length &&& 0x0f),
        (header.marker &&& 0x01) <<< 7 ||| (header.payloadType &&& 0x7f)] ++
        writeU16 header.sequenceNumber ++ writeU32 header.timestamp ++ writeU32 header.ssrc ++
        header.csrc.flatMap writeU32 ++
        (if header.extension = 0 then [] else rtpWriteExtension header)
    if packetSize < bytes.length then none else some bytes

/-- The sum of two lengths as a value of type `int`. -/
def intSum (headerLen payloadLen : ℕ) : ℤ :=
  Int.bmod ((headerLen + payloadLen : ℕ) : ℤ) 4294967296

theorem intSum_eq {headerLen payloadLen : ℕ} (h : headerLen + payloadLen < 2147483648) :
    intSum headerLen payloadLen = ((headerLen + payloadLen : ℕ) : ℤ) := by
  unfold intSum
  exact Int.bmod_eq_of_le (by omega) (by omega)

/-- `turbo_rtsp_rtp_write_packet`, of whose return value the callers take a negative one as a
failure and any other as the length of the packet. -/
def rtpWritePacket (packetSize : ℕ) (header : RtpHeader) (payload : List UInt8) :
    Option (List UInt8) :=
  if header.padding ≠ 0 then none
  else
    match rtpWriteHeader packetSize header with
    | none => none
    | some bytes =>
      if payload.length > packetSize - bytes.length then none
      else if intSum bytes.length payload.length < 0 then none
      else some ((bytes ++ payload).take (intSum bytes.length payload.length).toNat)

/-- `turbo_rtsp_rtp_sender_t`. -/
structure RtpSender where
  ssrc : UInt32
  packetCount : UInt32
  octetCount : UInt32
  hasSsrc : Bool

/-- `turbo_rtsp_rtp_sender_init`. -/
def rtpSenderInit (ssrc : UInt32) : RtpSender :=
  ⟨ssrc, 0, 0, decide (ssrc ≠ 0)⟩

/-- `turbo_rtsp_rtp_sender_update`. -/
def rtpSenderUpdate (sender : RtpSender) (header : RtpHeader) : Option RtpSender :=
  if header.version ≠ 2 then none
  else if sender.hasSsrc = true ∧ sender.ssrc ≠ header.ssrc then none
  else
    some
      { ssrc := if sender.hasSsrc then sender.ssrc else header.ssrc
        packetCount := sender.packetCount + 1
        octetCount := sender.octetCount + UInt32.ofNat header.payload.length
        hasSsrc := true }

/-- `turbo_rtsp_rtp_stream_t`. -/
structure RtpStream where
  payloadType : UInt8
  ssrc : UInt32
  sequenceNumber : UInt16
  timestamp : UInt32
  clockRate : UInt32
  sender : RtpSender

/-- `turbo_rtsp_rtp_stream_init`. -/
def rtpStreamInit (payloadType : UInt8) (ssrc : UInt32) (sequenceNumber : UInt16)
    (timestamp clockRate : UInt32) : RtpStream :=
  ⟨payloadType, ssrc, sequenceNumber, timestamp, clockRate, rtpSenderInit ssrc⟩

/-- The header that a sending stream writes before a payload. -/
def RtpStream.header (stream : RtpStream) (marker : Bool) (payload : List UInt8) : RtpHeader :=
  { RtpHeader.zero with
    version := 2
    marker := if marker then 1 else 0
    payloadType := stream.payloadType
    sequenceNumber := stream.sequenceNumber
    timestamp := stream.timestamp
    ssrc := stream.ssrc
    payload := payload }

variable {header : RtpHeader} {payload : List UInt8} {packetSize : ℕ}

/-- A header of a sending stream. -/
structure RtpHeader.Plain (header : RtpHeader) : Prop where
  version : header.version = 2
  padding : header.padding = 0
  extension : header.extension = 0
  marker : header.marker ≤ 1
  payloadType : header.payloadType ≤ 127
  csrc : header.csrc = []
  extensionProfile : header.extensionProfile = 0
  extensionData : header.extensionData = []
  paddingLen : header.paddingLen = 0

def RtpHeader.bytes (header : RtpHeader) : List UInt8 :=
  ([0x80, (header.marker &&& 0x01) <<< 7 ||| (header.payloadType &&& 0x7f)] : List UInt8) ++
    writeU16 header.sequenceNumber ++ writeU32 header.timestamp ++ writeU32 header.ssrc

@[simp] theorem RtpHeader.length_bytes (header : RtpHeader) :
    header.bytes.length = rtpHeaderSize := by
  rfl

theorem RtpStream.header_plain {stream : RtpStream} {marker : Bool} (h : stream.payloadType ≤ 127) :
    (stream.header marker payload).Plain where
  version := rfl
  padding := rfl
  extension := rfl
  marker := by
    cases marker with
    | false => exact (by decide : (0 : UInt8) ≤ 1)
    | true => exact (by decide : (1 : UInt8) ≤ 1)
  payloadType := h
  csrc := rfl
  extensionProfile := rfl
  extensionData := rfl
  paddingLen := rfl

theorem rtpWriteHeader_plain (h : header.Plain) (hsize : rtpHeaderSize ≤ packetSize) :
    rtpWriteHeader packetSize header = some header.bytes := by
  have htype : ¬ header.payloadType > 127 := UInt8.not_lt.mpr h.payloadType
  have hlen : ¬ packetSize < rtpHeaderSize := by omega
  have hfirst : (2 : UInt8) <<< 6 ||| ((0 : UInt8) &&& 0x01) <<< 5 |||
      ((0 : UInt8) &&& 0x01) <<< 4 ||| (UInt8.ofNat 0 &&& 0x0f) = 0x80 := by
    decide
  simp only [rtpWriteHeader, h.version, h.csrc, h.extension, h.padding, hlen, htype, hfirst,
    length_nil, flatMap_nil, append_nil, if_false, if_true, ne_eq,
    not_true_eq_false, false_or, false_and, or_false]
  rw [if_neg (by decide)]
  exact if_neg hlen

theorem marker_fields :
    ∀ (marker : Fin 2) (payloadType : Fin 128),
      ((UInt8.ofNat marker.val &&& 0x01) <<< 7 ||| (UInt8.ofNat payloadType.val &&& 0x7f)) >>> 7 =
          UInt8.ofNat marker.val ∧ ((UInt8.ofNat marker.val &&& 0x01) <<< 7 |||
          (UInt8.ofNat payloadType.val &&& 0x7f)) &&& 0x7f = UInt8.ofNat payloadType.val := by
  decide +kernel

theorem marker_read (h : header.Plain) :
    ((header.marker &&& 0x01) <<< 7 ||| (header.payloadType &&& 0x7f)) >>> 7 = header.marker ∧
      ((header.marker &&& 0x01) <<< 7 ||| (header.payloadType &&& 0x7f)) &&& 0x7f =
        header.payloadType := by
  have hmarker : header.marker.toNat < 2 := Nat.lt_succ_of_le (UInt8.le_iff_toNat_le.mp h.marker)
  have htype : header.payloadType.toNat < 128 :=
    Nat.lt_succ_of_le (UInt8.le_iff_toNat_le.mp h.payloadType)
  have hfields := marker_fields ⟨_, hmarker⟩ ⟨_, htype⟩
  simpa only [UInt8.ofNat_toNat] using hfields

/-- A plain header is read back, with the bytes behind it as its payload. -/
theorem rtpParseHeader_bytes (h : header.Plain) (payload : List UInt8) :
    rtpParseHeader (header.bytes ++ payload) = some { header with payload := payload } := by
  obtain ⟨hmarker, htype⟩ := marker_read h
  have hlen : (header.bytes ++ payload).length = 12 + payload.length := by
    rw [length_append, RtpHeader.length_bytes, rtpHeaderSize]
  have hbyte0 : u8At (header.bytes ++ payload) 0 = 0x80 := rfl
  have hbyte1 : u8At (header.bytes ++ payload) 1 =
      (header.marker &&& 0x01) <<< 7 ||| (header.payloadType &&& 0x7f) := rfl
  have hseq : readU16 (header.bytes ++ payload) 2 = header.sequenceNumber :=
    join16_split header.sequenceNumber
  have hts : readU32 (header.bytes ++ payload) 4 = header.timestamp :=
    join32_split header.timestamp
  have hssrc : readU32 (header.bytes ++ payload) 8 = header.ssrc :=
    join32_split header.ssrc
  have hdrop : (header.bytes ++ payload).drop 12 = payload := rfl
  have hsize : rtpHeaderSize = 12 := rfl
  have hextension : (0x80 : UInt8) >>> 4 &&& 0x01 = 0 := by decide
  have hpadding : (0x80 : UInt8) >>> 5 &&& 0x01 = 0 := by decide
  have hcount : ((0x80 : UInt8) &&& 0x0f).toNat = 0 := by decide
  have hver : (0x80 : UInt8) >>> 6 = 2 := by decide
  rw [rtpParseHeader, if_neg (by rw [hlen, hsize]; omega)]
  simp only [hbyte0, hbyte1, hextension, hpadding, hcount, hver, hmarker, htype, hseq,
    hts, hssrc, hsize, hlen, hdrop, ne_eq, not_true_eq_false, if_false, if_true,
    Nat.zero_mul, Nat.add_zero, rtpParsePadding, range_zero, map_nil,
    UInt8.toNat_zero, Nat.sub_zero, Nat.add_sub_cancel_left, take_length]
  rw [if_neg (by omega)]
  rw [Option.some.injEq, RtpHeader.mk.injEq]
  exact ⟨h.version.symm, h.padding.symm, h.extension.symm, rfl, rfl, rfl, rfl, rfl, h.csrc.symm,
    h.extensionProfile.symm, h.extensionData.symm, h.paddingLen.symm, rfl⟩

theorem rtpWritePacket_plain (h : header.Plain)
    (hsize : rtpHeaderSize + payload.length ≤ packetSize)
    (hint : rtpHeaderSize + payload.length < 2147483648) :
    rtpWritePacket packetSize header payload = some (header.bytes ++ payload) := by
  have hsum : intSum header.bytes.length payload.length =
      ((rtpHeaderSize + payload.length : ℕ) : ℤ) := by
    rw [RtpHeader.length_bytes, intSum_eq hint]
  rw [rtpWritePacket, if_neg (by rw [h.padding]; decide), rtpWriteHeader_plain h (by omega)]
  dsimp only
  rw [if_neg (by rw [RtpHeader.length_bytes]; omega), hsum, if_neg (by omega), Int.toNat_natCast,
    take_of_length_le]
  rw [length_append, RtpHeader.length_bytes]

end TurboMedia.Rtsp
