import TurboMedia.Lib.SlotTable
import TurboMedia.Rtsp.Format
import TurboMedia.Rtsp.Sdp
import TurboMedia.Server.Runtime

/-!
# RTSP server adapter

Model of `server/rtsp_server_adapter.c`: what the handlers of the RTSP server do with the
bindings of its connections and with the runtime behind them.

A connection is the number that stands for the pointer to its session.  An array of characters
is its text; texts that are copied between arrays of one size are not cut.  The `memset` of a
binding clears its slot.  What allocation does, the random part of a session id, and what the
transport does with a frame are inputs of a call.
-/

namespace TurboMedia.Server
namespace RtspAdapter

open TurboMedia.Core (SourceConfig TrackInfo MediaFrame TrackType maxCodecNameLen mediaOk
  mediaErrInvalid mediaErrNomem mediaErrNotFound mediaErrFull mediaErrState)
open Rtsp (text intText RtspRequest RtspMessage TransportMode SdpMedia sdpParse maxHeaderValueLen
  slash)

/-- `TURBO_MEDIA_MAX_VHOST_LEN`, `TURBO_MEDIA_MAX_APP_LEN` and `TURBO_MEDIA_MAX_STREAM_LEN`. -/
def maxVhostLen : ℕ := 64
def maxAppLen : ℕ := 64
def maxStreamLen : ℕ := 128

/-- `turbo_media_copy_text`. -/
def copyText (size : ℕ) (src : List UInt8) : Option (List UInt8) :=
  if src.length = 0 ∨ src.length ≥ size then none
  else some (src ++ List.replicate (size - src.length) 0)

/-- `turbo_media_source_key_init`. -/
def sourceKeyInit (vhost app stream : List UInt8) : Option RawKey :=
  match copyText maxVhostLen vhost, copyText maxAppLen app, copyText maxStreamLen stream with
  | some vhost, some app, some stream => some ⟨vhost, app, stream⟩
  | _, _, _ => none

/-- What is behind `://`, where a text has one. -/
def afterScheme : List UInt8 → Option (List UInt8)
  | [] => none
  | c :: rest =>
    if (text "://").isPrefixOf (c :: rest) then some (rest.drop 2) else afterScheme rest

/-- The path of a URI, from its slash on where the URI has a scheme. -/
def uriPath (uri : List UInt8) : List UInt8 :=
  match afterScheme uri with
  | some rest => rest.dropWhile (fun c => c != slash)
  | none => uri

/-- `turbo_media_server_rtsp_source_key`; no key is `TURBO_MEDIA_ERR_INVALID`. -/
def rtspSourceKey (vhost uri : List UInt8) : Option RawKey :=
  let vhost := if vhost = [] then text "default" else vhost
  let path := (uriPath uri).dropWhile (fun c => c == slash)
  if path = [] then none
  else if slash ∉ path then sourceKeyInit vhost (text "live") path
  else
    let app := path.takeWhile (fun c => c != slash)
    let stream := (path.dropWhile (fun c => c != slash)).drop 1
    if app.length ≥ maxAppLen ∨ stream = [] ∨ stream.length ≥ maxStreamLen then none
    else sourceKeyInit vhost app stream

/-- `TURBO_MEDIA_RTSP_ADAPTER_MAX_SESSIONS`, `TURBO_MEDIA_RTSP_ADAPTER_MAX_TRACKS`,
`TURBO_MEDIA_RTSP_ADAPTER_MAX_SDP` and `TURBO_MEDIA_RTSP_MAX_RUNTIME_CHANNELS`. -/
def maxSessions : ℕ := 64
def maxTracks : ℕ := 8
def maxSdp : ℕ := 2048
def maxRuntimeChannels : ℕ := 8

/-- `turbo_media_rtsp_adapter_state_t`. -/
inductive SessionState where
  | init
  | announced
  | described
  | setup
  | recording
  | playing
deriving DecidableEq

/-- `turbo_media_rtsp_adapter_track_t`. -/
structure Track where
  info : TrackInfo
  control : List UInt8
  rtpChannel : ℤ
  rtcpChannel : ℤ
  setup : Bool

def Track.zero : Track :=
  ⟨⟨0, .other 0, [], 0, 0, 0, 0, 0, 0, 0, none, 0⟩, [], 0, 0, false⟩

/-- `turbo_media_rtsp_adapter_session_t`, where it is active. -/
structure Binding where
  rtspSession : ℕ
  state : SessionState
  mode : TransportMode
  presentationUri : List UInt8
  sessionId : List UInt8
  transport : List UInt8
  sdp : List UInt8
  tracks : List Track
  trackCount : ℕ
  setupCount : ℕ
  publisher : Option ℕ
  player : Option ℕ

/-- `turbo_media_rtsp_server_adapter_t`, with the runtime it works on. -/
structure Adapter where
  vhost : List UInt8
  sessionId : List UInt8
  removeSourceOnClose : Bool
  replayCached : Bool
  server : State
  sessions : List (Option Binding)

/-- What a handler answers to a request. -/
structure Response where
  status : ℤ
  reason : Option (List UInt8)
  sessionId : Option (List UInt8)
  transport : Option (List UInt8)
  range : Option (List UInt8)
  sdp : Option (List UInt8)

/-- `turbo_rtsp_response_status`. -/
def responseStatus (status : ℤ) (reason : Option String) : Response :=
  ⟨status, reason.map text, none, none, none, none⟩

/-- `turbo_rtsp_response_announce` and `turbo_rtsp_response_teardown`. -/
def responseOk : Response := responseStatus 200 none

/-- Refusals that several handlers have in common. -/
def notEnoughBandwidth : Response := responseStatus 453 (some "Not Enough Bandwidth")
def sessionNotFound : Response := responseStatus 454 (some "Session Not Found")
def notValidInThisState : Response := responseStatus 455 (some "Method Not Valid in This State")

/-- `turbo_media_rtsp_adapter_status_from_result`. -/
def statusFromResult (rc : ℤ) : ℤ :=
  if rc = mediaOk then 200
  else if rc = mediaErrNotFound then 404
  else if rc = mediaErrFull then 453
  else if rc = mediaErrState then 455
  else if rc = mediaErrNomem then 500
  else 400

section Bindings

variable (adapter : Adapter)

def Adapter.put (slot : ℕ) (binding : Binding) : Adapter :=
  { adapter with sessions := adapter.sessions.set slot (some binding) }

/-- A protocol session that may be there is closed. -/
def closeHandle (server : State) (handle : Option ℕ) : State :=
  match handle with
  | none => server
  | some handle => Server.sessionClose server handle

/-- `turbo_media_rtsp_adapter_close_binding`. -/
def closeBinding (slot : ℕ) (binding : Binding) : Adapter :=
  { adapter with
    server := closeHandle (closeHandle adapter.server binding.player) binding.publisher
    sessions := adapter.sessions.set slot none }

/-- `turbo_media_rtsp_adapter_find_binding`, with the slot. -/
def findBinding (session : ℕ) : Option (ℕ × Binding) :=
  SlotTable.findOccupied (fun binding => binding.rtspSession == session) adapter.sessions

def newSessionId (uuid : List UInt8) : List UInt8 :=
  (if adapter.sessionId = [] then text "00000001" else adapter.sessionId) ++ text "-" ++ uuid

def newBinding (session : ℕ) (uri uuid : List UInt8) : Binding :=
  ⟨session, .init, .unspecified, uri, newSessionId adapter uuid, [], [],
    List.replicate maxTracks Track.zero, 0, 0, none, none⟩

/-- `turbo_media_rtsp_adapter_get_binding`. -/
def getBinding (session : ℕ) (uri : List UInt8) (uuid : Option (List UInt8)) :
    Adapter × Option (ℕ × Binding) :=
  match findBinding adapter session with
  | some found => (adapter, some found)
  | none =>
    match adapter.sessions.findIdx? Option.isNone, uuid with
    | some slot, some uuid =>
      if (newSessionId adapter uuid).length ≥ maxHeaderValueLen then (adapter, none)
      else
        let binding := newBinding adapter session uri uuid
        (adapter.put slot binding, some (slot, binding))
    | _, _ => (adapter, none)

/-- `turbo_media_rtsp_adapter_session_matches`. -/
def sessionMatches (binding : Binding) (request : RtspRequest) : Bool :=
  request.sessionId != [] && binding.sessionId == request.sessionId

end Bindings

/-- `turbo_media_rtsp_adapter_track_type`. -/
def trackType (media : List UInt8) : TrackType :=
  if media = text "audio" then .audio else if media = text "video" then .video else .data

/-- The track of the `i`-th media of a description. -/
def announcedTrack (i : ℕ) (media : SdpMedia) : Option Track :=
  if media.encodingName.length ≥ maxCodecNameLen ∨
      media.control.length ≥ Rtsp.sdpMaxControl then
    none
  else
    some ⟨⟨i, trackType media.media,
          if media.encodingName = [] then text "rtp" else media.encodingName,
          media.payloadType, media.clockRate, 0, 0, 0, 0, 0, none, 0⟩,
        if media.control = [] then text "trackID=" ++ intText i else media.control, -1, -1, false⟩

/-- The loop of `turbo_media_rtsp_adapter_parse_announce` from the `i`-th media on. -/
def announceFrom : ℕ → List SdpMedia → List Track → List Track × ℤ
  | _, [], tracks => (tracks, mediaOk)
  | i, media :: rest, tracks =>
    match announcedTrack i media with
    | none => (tracks, mediaErrInvalid)
    | some track => announceFrom (i + 1) rest (tracks.set i track)

/-- `turbo_media_rtsp_adapter_parse_announce`. -/
def parseAnnounce (message : RtspMessage) (binding : Binding) : Binding × ℤ :=
  if message.body = [] then (binding, mediaErrInvalid)
  else
    match sdpParse message.body with
    | none => (binding, mediaErrInvalid)
    | some media =>
      if media.length = 0 ∨ media.length > maxTracks then (binding, mediaErrInvalid)
      else
        let out := announceFrom 0 media binding.tracks
        ({ binding with trackCount := media.length, tracks := out.1 }, out.2)

/-- `turbo_media_rtsp_adapter_find_setup_track`: the index of the track. -/
def findSetupTrack (binding : Binding) (uri : List UInt8) : Option ℕ :=
  let tracks := binding.tracks.take binding.trackCount
  match tracks.findIdx? (fun track => !track.setup && track.control.isSuffixOf uri) with
  | some i => some i
  | none =>
    if binding.trackCount = 1 ∧ (tracks.head?.any (fun track => !track.setup)) then some 0
    else none

def askedChannels (request : RtspRequest) : ℤ × ℤ :=
  let rtp := if request.transportSpec.interleavedRtpChannel ≥ 0 then
    request.transportSpec.interleavedRtpChannel else 0
  let rtcp := if request.transportSpec.interleavedRtcpChannel ≥ 0 then
    request.transportSpec.interleavedRtcpChannel else rtp + 1
  (rtp, rtcp)

/-- A track that is set up has one of the channels. -/
def usesChannel (track : Track) (rtp rtcp : ℤ) : Bool :=
  track.setup && (track.rtpChannel == rtp || track.rtpChannel == rtcp ||
    track.rtcpChannel == rtp || track.rtcpChannel == rtcp)

/-- `turbo_media_rtsp_adapter_format_transport` for the `i`-th track, which is not set up. -/
def formatTransport (binding : Binding) (i : ℕ) (request : RtspRequest) (mode : TransportMode) :
    Option Binding :=
  if request.transportSpec.kind ≠ .rtpAvpTcp then none
  else
    let (rtp, rtcp) := askedChannels request
    if rtp < 0 ∨ rtp > 255 ∨ rtcp < 0 ∨ rtcp > 255 ∨ rtp = rtcp then none
    else if (binding.tracks.take binding.trackCount).any (fun track => usesChannel track rtp rtcp)
    then none
    else
      let transport := text "RTP/AVP/TCP;unicast;interleaved=" ++ intText rtp ++ text "-" ++
        intText rtcp ++ text ";mode=" ++ (if mode = .record then text "RECORD" else text "PLAY")
      if transport.length ≥ maxHeaderValueLen then none
      else
        some { binding with
          transport := transport
          tracks := binding.tracks.modify i (fun track =>
            { track with rtpChannel := rtp, rtcpChannel := rtcp, setup := true })
          setupCount := binding.setupCount + 1 }

/-- `turbo_media_rtsp_adapter_frame_to_rtsp`: the code, and the channel that the frame is sent
on; whether the connection takes it is an input. -/
def frameToRtsp (binding : Binding) (frame : MediaFrame) (taken : Bool) : ℤ × Option ℤ :=
  match (binding.tracks.take binding.trackCount).find?
      (fun track => track.setup && track.info.trackId == frame.trackId) with
  | none => (mediaOk, none)
  | some track => (if taken then mediaOk else mediaErrState, some track.rtpChannel)

/-- The lines of a description in front of its media. -/
def sdpHead : List (List UInt8) :=
  [text "v=0\r\n", text "o=- 0 0 IN IP4 127.0.0.1\r\n", text "s=TurboMedia\r\n", text "t=0 0\r\n",
    text "a=control:*\r\n"]

def sdpOfTrack (track : TrackInfo) : List (List UInt8) :=
  let media := match track.type with
    | .audio => text "audio"
    | .video => text "video"
    | _ => text "application"
  let codec := if track.codecName = [] then text "rtp" else track.codecName
  let payloadType := if track.payloadType ≥ 0 then track.payloadType else 96
  let clockRate := if track.clockRate > 0 then track.clockRate else 90000
  [text "m=" ++ media ++ text " 0 RTP/AVP " ++ intText payloadType ++ text "\r\n",
    text "a=rtpmap:" ++ intText payloadType ++ text " " ++ codec ++ text "/" ++
      intText clockRate ++ (if Rtsp.caseEq codec (text "opus") then text "/2" else []) ++
      text "\r\n",
    text "a=control:trackID=" ++ intText track.trackId ++ text "\r\n"]

/-- `APPEND_SDP` for each of the lines, up to the first that does not fit. -/
def appendSdp : List (List UInt8) → List UInt8 → List UInt8 × Bool
  | [], sdp => (sdp, true)
  | line :: rest, sdp =>
    if sdp.length + line.length ≥ maxSdp then (sdp, false) else appendSdp rest (sdp ++ line)

def describedTrack (track : TrackInfo) : Track :=
  ⟨track, text "trackID=" ++ intText track.trackId, -1, -1, false⟩

/-- The loop of `turbo_media_rtsp_adapter_write_sdp` from the `i`-th track on. -/
def describeFrom : ℕ → List TrackInfo → Binding → Binding × ℤ
  | _, [], binding => (binding, mediaOk)
  | i, track :: rest, binding =>
    if i ≥ maxTracks then (binding, mediaErrFull)
    else
      let (sdp, fits) := appendSdp (sdpOfTrack track) binding.sdp
      if fits then
        describeFrom (i + 1) rest { binding with
          sdp := sdp
          tracks := binding.tracks.set i (describedTrack track)
          trackCount := binding.trackCount + 1 }
      else ({ binding with sdp := sdp }, mediaErrFull)

/-- `turbo_media_rtsp_adapter_write_sdp`. -/
def writeSdp (registry : Registry) (key : RawKey) (binding : Binding) : Binding × ℤ :=
  match registryFind registry key with
  | none => (binding, mediaErrNotFound)
  | some source =>
    describeFrom 0 source.tracks
      { binding with
        sdp := (appendSdp sdpHead []).1
        tracks := List.replicate maxTracks Track.zero
        trackCount := 0
        setupCount := 0 }

section Handlers

variable (adapter : Adapter) (session : ℕ)

/-- `turbo_media_rtsp_adapter_on_announce`. -/
def onAnnounce (message : RtspMessage) (uuid : Option (List UInt8)) : Adapter × Response :=
  match getBinding adapter session message.request.uri uuid with
  | (adapter, none) => (adapter, notEnoughBandwidth)
  | (adapter, some (slot, binding)) =>
    if binding.state ≠ .init then (adapter, notValidInThisState)
    else
      let (binding, rc) := parseAnnounce message binding
      if rc ≠ mediaOk then (adapter.put slot binding, responseStatus 400 (some "Bad Request"))
      else (adapter.put slot { binding with state := .announced }, responseOk)

def setupMode (binding : Binding) (request : RtspRequest) : TransportMode :=
  if request.transportSpec.mode ≠ .unspecified then request.transportSpec.mode
  else if binding.mode ≠ .unspecified then binding.mode
  else if binding.state = .announced then .record
  else .play

/-- `turbo_media_rtsp_adapter_on_setup`. -/
def onSetup (request : RtspRequest) : Adapter × Response :=
  match findBinding adapter session with
  | none => (adapter, notValidInThisState)
  | some (slot, binding) =>
    if (binding.setupCount > 0 ∨ request.sessionId ≠ []) ∧ !sessionMatches binding request then
      (adapter, sessionNotFound)
    else
      let mode := setupMode binding request
      if mode = .record ∧ binding.state ≠ .announced ∧ binding.state ≠ .setup ∨
          mode = .play ∧ binding.state ≠ .described ∧ binding.state ≠ .setup ∨
          binding.mode ≠ .unspecified ∧ binding.mode ≠ mode then
        (adapter, notValidInThisState)
      else
        match findSetupTrack binding request.uri with
        | none => (adapter, responseStatus 404 (some "Not Found"))
        | some i =>
          match formatTransport binding i request mode with
          | none => (adapter, responseStatus 461 (some "Unsupported Transport"))
          | some binding =>
            (adapter.put slot { binding with mode := mode, state := .setup },
              { responseOk with
                sessionId := some binding.sessionId
                transport := some binding.transport })

def rangeOf (request : RtspRequest) : Option (List UInt8) :=
  if request.range = [] then none else some request.range

/-- `turbo_media_server_rtsp_open_record_tracks`. -/
def openRecordTracks (uri : List UInt8) (tracks : List TrackInfo) (memory : OpenMemory) :
    State × Except ℤ ℕ :=
  if tracks.length = 0 ∨ tracks.length > maxRuntimeChannels then
    (adapter.server, .error mediaErrInvalid)
  else
    match rtspSourceKey adapter.vhost uri with
    | none => (adapter.server, .error mediaErrInvalid)
    | some key =>
      sessionOpen adapter.server ⟨2, rolePublisher, key, some tracks, tracks.length, none, false,
          adapter.removeSourceOnClose⟩ (fun _ => mediaOk) memory

/-- `turbo_media_rtsp_adapter_on_record`. -/
def onRecord (request : RtspRequest) (memory : OpenMemory) : Adapter × Response :=
  match findBinding adapter session with
  | none => (adapter, notValidInThisState)
  | some (slot, binding) =>
    if !sessionMatches binding request then (adapter, sessionNotFound)
    else if binding.state ≠ .setup ∨ binding.mode ≠ .record ∨ binding.setupCount = 0 ∨
        binding.trackCount = 0 then
      (adapter, notValidInThisState)
    else
      let done : Response := { responseOk with range := rangeOf request }
      match binding.publisher with
      | some _ => (adapter.put slot { binding with state := .recording }, done)
      | none =>
        let (server, result) := openRecordTracks adapter binding.presentationUri
          ((binding.tracks.take binding.trackCount).map Track.info) memory
        match result with
        | .error rc => ({ adapter with server := server },
            responseStatus (statusFromResult rc) none)
        | .ok handle =>
          (({ adapter with server := server } : Adapter).put slot
            { binding with publisher := some handle, state := .recording }, done)

/-- `turbo_media_rtsp_adapter_on_describe`. -/
def onDescribe (request : RtspRequest) (uuid : Option (List UInt8)) : Adapter × Response :=
  match getBinding adapter session request.uri uuid with
  | (adapter, none) => (adapter, notEnoughBandwidth)
  | (adapter, some (slot, binding)) =>
    if binding.state ≠ .init then (adapter, notValidInThisState)
    else
      match rtspSourceKey adapter.vhost request.uri with
      | none => (adapter, responseStatus (statusFromResult mediaErrInvalid) none)
      | some key =>
        let (binding, rc) := writeSdp adapter.server.runtime.registry key binding
        if rc ≠ mediaOk then
          (adapter.put slot binding, responseStatus (statusFromResult rc) none)
        else
          (adapter.put slot
            { binding with presentationUri := request.uri, state := .described },
            { responseOk with sdp := some binding.sdp })

/-- `turbo_media_server_rtsp_open_play`; the callback is the slot of the binding. -/
def openPlay (uri : List UInt8) (slot : ℕ) (codes : ℕ → ℤ) (memory : OpenMemory) :
    State × Except ℤ ℕ :=
  match rtspSourceKey adapter.vhost uri with
  | none => (adapter.server, .error mediaErrInvalid)
  | some key =>
    sessionOpen adapter.server
      ⟨2, rolePlayer, key, none, 0, some slot, adapter.replayCached, false⟩ codes memory

/-- `turbo_media_rtsp_adapter_on_play`. -/
def onPlay (request : RtspRequest) (codes : ℕ → ℤ) (memory : OpenMemory) : Adapter × Response :=
  match findBinding adapter session with
  | none => (adapter, notValidInThisState)
  | some (slot, binding) =>
    if !sessionMatches binding request then (adapter, sessionNotFound)
    else if binding.state ≠ .setup ∨ binding.mode ≠ .play ∨ binding.setupCount = 0 then
      (adapter, notValidInThisState)
    else
      let done : Response := { responseOk with range := rangeOf request }
      match binding.player with
      | some _ => (adapter.put slot { binding with state := .playing }, done)
      | none =>
        let (server, result) := openPlay adapter binding.presentationUri slot codes memory
        match result with
        | .error rc => ({ adapter with server := server },
            responseStatus (statusFromResult rc) none)
        | .ok handle =>
          (({ adapter with server := server } : Adapter).put slot
            { binding with player := some handle, state := .playing }, done)

/-- `turbo_media_rtsp_adapter_on_teardown`. -/
def onTeardown (request : RtspRequest) : Adapter × Response :=
  match findBinding adapter session with
  | none => (adapter, sessionNotFound)
  | some (slot, binding) =>
    if !sessionMatches binding request then (adapter, sessionNotFound)
    else (closeBinding adapter slot binding, responseOk)

/-- A packet that is published: the protocol session, and the track. -/
structure Packet where
  handle : ℕ
  trackId : ℤ

/-- `turbo_media_rtsp_adapter_on_interleaved`, with the packet that is published. -/
def onInterleaved (channel : UInt8) (payload : List UInt8) (codes : ℕ → ℤ) (memory : Bool) :
    Adapter × ℤ × Option Packet :=
  match findBinding adapter session with
  | none => (adapter, -1, none)
  | some (_, binding) =>
    match binding.publisher with
    | none => (adapter, -1, none)
    | some handle =>
      if binding.state ≠ .recording then (adapter, -1, none)
      else
        match (binding.tracks.take binding.trackCount).find? (fun track => track.setup &&
            (track.rtcpChannel == (channel.toNat : ℤ) ||
              track.rtpChannel == (channel.toNat : ℤ))) with
        | none => (adapter, -1, none)
        | some track =>
          if track.rtcpChannel = channel.toNat then (adapter, 0, none)
          else
            let out := sessionPublish adapter.server handle
              ⟨track.info.trackId, payload, 0, 0, 0, 0, 0⟩ codes memory
            ({ adapter with server := out.1 }, out.2, some ⟨handle, track.info.trackId⟩)

/-- `turbo_media_rtsp_adapter_on_session_close`. -/
def onSessionClose : Adapter :=
  match findBinding adapter session with
  | none => adapter
  | some (slot, binding) => closeBinding adapter slot binding

end Handlers

/-- What happens to an adapter: requests, packets and the end of a connection, a frame for the
player in a slot, and calls of others on the runtime. -/
inductive Op where
  | describe (session : ℕ) (request : RtspRequest) (uuid : Option (List UInt8))
  | announce (session : ℕ) (message : RtspMessage) (uuid : Option (List UInt8))
  | setup (session : ℕ) (request : RtspRequest)
  | record (session : ℕ) (request : RtspRequest) (memory : OpenMemory)
  | play (session : ℕ) (request : RtspRequest) (codes : ℕ → ℤ) (memory : OpenMemory)
  | teardown (session : ℕ) (request : RtspRequest)
  | interleaved (session : ℕ) (channel : UInt8) (payload : List UInt8) (codes : ℕ → ℤ)
      (memory : Bool)
  | close (session : ℕ)
  | frame (slot : ℕ) (frame : MediaFrame) (taken : Bool)
  | runtime (op : Server.Op)

/-- What comes of it. -/
inductive Answer where
  | response (response : Response)
  | published (rc : ℤ) (packet : Option Packet)
  | sent (rc : ℤ) (session : ℕ) (channel : Option ℤ)
  | silent

def Adapter.holds (adapter : Adapter) (handle : ℕ) : Bool :=
  adapter.sessions.any (fun slot => slot.any (fun binding =>
    binding.publisher == some handle || binding.player == some handle))

/-- A call of others; the protocol sessions of the adapter are not theirs. -/
def isForeign (adapter : Adapter) : Server.Op → Bool
  | .sessionClose handle => !adapter.holds handle
  | .sessionPublish handle _ _ _ => !adapter.holds handle
  | _ => true

def step (adapter : Adapter) : Op → Adapter × Answer
  | .describe session request uuid =>
    let out := onDescribe adapter session request uuid
    (out.1, .response out.2)
  | .announce session message uuid =>
    let out := onAnnounce adapter session message uuid
    (out.1, .response out.2)
  | .setup session request =>
    let out := onSetup adapter session request
    (out.1, .response out.2)
  | .record session request memory =>
    let out := onRecord adapter session request memory
    (out.1, .response out.2)
  | .play session request codes memory =>
    let out := onPlay adapter session request codes memory
    (out.1, .response out.2)
  | .teardown session request =>
    let out := onTeardown adapter session request
    (out.1, .response out.2)
  | .interleaved session channel payload codes memory =>
    let out := onInterleaved adapter session channel payload codes memory
    (out.1, .published out.2.1 out.2.2)
  | .close session => (onSessionClose adapter session, .silent)
  | .frame slot frame taken =>
    match adapter.sessions[slot]? with
    | some (some binding) =>
      let out := frameToRtsp binding frame taken
      (adapter, .sent out.1 binding.rtspSession out.2)
    | _ => (adapter, .silent)
  | .runtime op =>
    if isForeign adapter op then
      ({ adapter with server := (Server.step adapter.server op).1 }, .silent)
    else (adapter, .silent)

def adapterMachine : Machine Adapter Op Answer where
  step := step

/-- `turbo_media_server_rtsp_adapter_create` on a new runtime. -/
def start (vhost sessionId : List UInt8) (removeSourceOnClose replayCached : Bool)
    (maxSources : ℕ) (sourceConfig : SourceConfig) : Adapter :=
  ⟨vhost, sessionId, removeSourceOnClose, replayCached, Server.start maxSources sourceConfig,
    List.replicate maxSessions none⟩

end RtspAdapter
end TurboMedia.Server
