import TurboMedia.Rtc.JitterBuffer
import TurboMedia.Rtc.RtpSession
import TurboMedia.Rtc.Twcc

/-!
# Demultiplexing of received media

Model of `turbo_media_feed_data` in `turbo_media_engine.c`.  A context is the list of its
tracks; a track is found by the remote SSRC of its RTP session, by its payload type, or
because it is the only one that receives.

Authentication is not looked at: a datagram comes with what `media_track_srtp_unprotect` makes
of it for each track, which leaves the RTP header as it is.  A datagram that looks like RTCP
is handed to the RTCP dispatcher, which changes none of the state that is modelled here.
`delivered` are the packets that the packet callback of a track was given; no step reads it.
-/

namespace TurboMedia.MediaEngine

open RtpPacket (Packet Header)
open Bytes

/-- `RTP_MAX_PACKET + SRTP_MAX_TRAILER_LEN`. -/
def maxDatagram : ℕ := 1514

/-- `turbo_media_stats_t`, the part that is written here. -/
structure Stats where
  packetsRecv : UInt64
  packetsLost : UInt64
  bytesRecv : UInt64

/-- What a track is added with. -/
structure TrackConfig where
  sends : Bool
  receives : Bool
  payloadType : UInt8
  clockRate : UInt32
  ssrc : UInt32
  jitterBufferMs : UInt32
  transportCcExtId : ℤ
  hasPacketCallback : Bool
  createdMs : UInt64

/-- `turbo_media_track_t`; `overrun` says that a packet was written past the buffer of its
sequence number, after which the C code promises nothing. -/
structure Track where
  sends : Bool
  receives : Bool
  payloadType : UInt8
  session : RtpSession.Session
  twccReceiver : Option Twcc.Receiver
  transportCcExtId : ℤ
  jitter : Option JitterBuffer.Buffer
  hasPacketCallback : Bool
  stats : Stats
  delivered : List (List UInt8)
  overrun : Bool

/-- `turbo_media_add_track`: a track that receives gets a TWCC receiver and a jitter buffer. -/
def addTrack (config : TrackConfig) : Track where
  sends := config.sends
  receives := config.receives
  payloadType := config.payloadType
  session := RtpSession.create config.clockRate
  twccReceiver :=
    if config.receives then some (Twcc.create config.ssrc (config.createdMs * 1000)) else none
  transportCcExtId := config.transportCcExtId
  jitter :=
    if config.receives then
      some (JitterBuffer.create
        (if config.jitterBufferMs = 0 then 50 else config.jitterBufferMs) 2048)
    else none
  hasPacketCallback := config.hasPacketCallback
  stats := ⟨0, 0, 0⟩
  delivered := []
  overrun := false

/-- The bytes given to `turbo_media_feed_data`, what authentication makes of them for each
track, and the two clocks. -/
structure Datagram where
  data : List UInt8
  plain : ℕ → Option (List UInt8)
  nowMs : UInt64
  wallMs : UInt64
  same_header : ∀ i packet, plain i = some packet → packet.take 12 = data.take 12

section Receive

/-- The return value of `jitter_buffer_put`. -/
def putCode : JitterBuffer.PutResult → ℤ
  | .stored => 0
  | .duplicate => 1
  | .tooLate | .tooFarAhead | .tooLarge => -1

variable (t : Track)

/-- `stats.packets_lost++`. -/
def Track.lose : Track :=
  { t with stats := { t.stats with packetsLost := t.stats.packetsLost + 1 } }

def Track.count (session : RtpSession.Session) (pkt : Packet) : Track :=
  { t with
    session := session
    stats :=
      { t.stats with
        packetsRecv := t.stats.packetsRecv + 1
        bytesRecv := t.stats.bytesRecv + UInt64.ofNat pkt.payload.length } }

/-- What is read of the transport-wide sequence number of a packet. -/
inductive TwccRead where
  | absent
  | seq (seq : UInt16)
  | overrun
deriving DecidableEq

/-- The extension is copied into two bytes before its length is looked at. -/
def twccRead (pkt : Packet) : TwccRead :=
  if t.twccReceiver.isSome && t.transportCcExtId > 0 && pkt.header.extension then
    match RtpPacket.getExtension pkt (UInt8.ofNat t.transportCcExtId.toNat) with
    | some [high, low] => .seq (join16 high low)
    | some bytes => if 2 < bytes.length then .overrun else .absent
    | none => .absent
  else .absent

/-- Transport-wide congestion control is told of the packet. -/
def Track.registerTwcc (pkt : Packet) (nowMs : UInt64) : Track :=
  match t.twccReceiver, twccRead t pkt with
  | some receiver, .seq seq =>
    { t with twccReceiver := some (Twcc.registerPacket receiver ⟨seq, nowMs * 1000⟩) }
  | _, .overrun => { t with overrun := true }
  | _, _ => t

def Track.deliver (packet : List UInt8) : Track :=
  if t.hasPacketCallback then { t with delivered := t.delivered ++ [packet] } else t

/-- The jitter buffer takes packets of the primary codec. -/
def Track.buffer (pkt : Packet) (nowMs : UInt64) : Track × ℤ :=
  if pkt.header.payloadType.val ≠ t.payloadType.toNat then (t, 0)
  else
    match t.jitter with
    | none => (t, -1)
    | some jitter =>
      let out := JitterBuffer.put jitter pkt nowMs
      ({ t with jitter := some out.1 }, putCode out.2)

/-- What `turbo_media_feed_data` does with the track it has found. -/
def Track.receive (plain : Option (List UInt8)) (nowMs wallMs : UInt64) : Track × ℤ :=
  match plain with
  | none => (t.lose, -1)
  | some packet =>
    match RtpPacket.parse packet with
    | none => (t.lose, -1)
    | some pkt =>
      let (session, rc) := RtpSession.recv t.session pkt.header wallMs
      if rc ≠ 0 then (t.lose, -1)
      else if pkt.payload.length = 0 then (t.count session pkt, 0)
      else (((t.count session pkt).registerTwcc pkt nowMs).deliver packet).buffer pkt nowMs

end Receive

/-- The variables of the search. -/
structure Search where
  track : Option ℕ
  single : Option ℕ
  recvTrackCount : ℕ

/-- The loop over the tracks, from the track with index `i` on. -/
def searchFrom (ssrc : UInt32) (payloadType : ℕ) : ℕ → Search → List Track → Search
  | _, found, [] => found
  | i, found, t :: rest =>
    if t.receives then
      let found :=
        { found with single := some i, recvTrackCount := found.recvTrackCount + 1 }
      if t.session.remoteSsrc ≠ 0 then
        if ssrc = t.session.remoteSsrc then { found with track := some i }
        else searchFrom ssrc payloadType (i + 1) found rest
      else if payloadType = t.payloadType.toNat then
        -- no break: a match of the SSRC is better
        searchFrom ssrc payloadType (i + 1) { found with track := some i } rest
      else searchFrom ssrc payloadType (i + 1) found rest
    else searchFrom ssrc payloadType (i + 1) found rest

def findTrack (tracks : List Track) (ssrc : UInt32) (payloadType : ℕ) : Option ℕ :=
  let found := searchFrom ssrc payloadType 0 ⟨none, none, 0⟩ tracks
  match found.track with
  | some i => some i
  | none => if found.recvTrackCount = 1 then found.single else none

/-- `looks_rtcp`. -/
def looksRtcp (data : List UInt8) : Bool :=
  200 ≤ u8At data 1 && u8At data 1 ≤ 206

def Datagram.header (d : Datagram) : Header :=
  RtpPacket.parseHeader d.data

/-- `turbo_media_feed_data`. -/
def feedData (tracks : List Track) (d : Datagram) : List Track × ℤ :=
  if d.data.length < 4 ∨ maxDatagram < d.data.length then (tracks, -1)
  else if !looksRtcp d.data && d.data.length < 12 then (tracks, -1)
  else if looksRtcp d.data then (tracks, 0)
  else if d.header.version ≠ RtpPacket.rtpVersion then (tracks, -1)
  else
    match findTrack tracks d.header.ssrc d.header.payloadType.val with
    | none => (tracks, -1)
    | some i =>
      match tracks[i]? with
      | none => (tracks, -1)
      | some t =>
        let out := t.receive (d.plain i) d.nowMs d.wallMs
        (tracks.set i out.1, out.2)

/-- A context as a machine; the answer is the return value. -/
def mediaMachine : Machine (List Track) Datagram ℤ where
  step := feedData

end TurboMedia.MediaEngine
