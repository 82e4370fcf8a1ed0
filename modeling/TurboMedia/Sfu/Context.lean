import TurboMedia.Lib.Bytes
import TurboMedia.Lib.Machine

/-!
# Selective forwarding unit

Model of `turbo_sfu.c`.  A context has `SFU_MAX_PARTICIPANTS` = 50 slots.  Each
participant has up to four streams, and each stream keeps, for every receiver
*slot*, whether the stream is enabled for that receiver, the highest layer it may
get, the layer it gets now and the time of its last layer switch.

Two lookups are used: `findParticipant` scans the first `participantCount`
slots, `getParticipantIndex` scans all of them.

The callbacks of a participant are handles; a call of one is an event of the
answer.  Participant identifiers are the bytes before the terminating zero.
-/

namespace TurboMedia.Sfu

/-- `SFU_MAX_PARTICIPANTS` slots. -/
abbrev Slot := Fin 50

abbrev ParticipantId := List UInt8

/-- `simulcast_layer_t`. -/
inductive SimulcastLayer where
  | low
  | medium
  | high
deriving DecidableEq, Repr

namespace SimulcastLayer

def value : SimulcastLayer → ℕ
  | low => 0
  | medium => 1
  | high => 2

def ofValue : ℕ → SimulcastLayer
  | 0 => low
  | 1 => medium
  | _ => high

end SimulcastLayer

/-- What a stream keeps for one receiver slot: the entries of the four arrays
`current_layer_by_receiver`, `last_layer_switch_us_by_receiver`,
`enabled_by_receiver` and `max_layer_by_receiver`. -/
structure ReceiverEntry where
  currentLayer : SimulcastLayer
  lastLayerSwitchUs : ℤ
  enabled : Bool
  maxLayer : SimulcastLayer
deriving DecidableEq

/-- `sfu_stream_t`.  A stream has one to three layers. -/
structure Stream where
  ssrc : UInt32
  active : Bool
  layerSsrcs : SimulcastLayer → UInt32
  layerCount : ℕ
  layerCount_pos : 0 < layerCount
  layerCount_le : layerCount ≤ 3
  byReceiver : Slot → ReceiverEntry
  packetsReceived : ℕ
  bytesReceived : ℕ
  packetsForwarded : ℕ
  bytesForwarded : ℕ

/-- `sfu_participant_t`.  `streams` holds the first `stream_count` entries of the
array; the others are never read. -/
structure Participant where
  id : ParticipantId
  active : Bool
  streams : List Stream
  availableBandwidth : ℤ
  lastBandwidthUpdate : ℤ
  totalPacketsSent : ℕ
  totalBytesSent : ℕ
  totalPacketsReceived : ℕ
  totalBytesReceived : ℕ
  onPacket : Option ℕ
  onKeyframeRequest : Option ℕ

/-- `sfu_context_t`. -/
structure Context where
  participants : Slot → Participant
  participantCount : ℕ
  maxParticipants : ℕ
  enableSimulcast : Bool
  enableBandwidthAdaptation : Bool
  totalPacketsRouted : ℕ
  totalBytesRouted : ℕ
  totalLayerSwitches : ℕ

/-- What a call makes visible outside: packets handed to a receiver, keyframe
requests, and the join and leave notifications. -/
inductive Event where
  | packet (receiver : Slot) (callback : ℕ) (bytes : List UInt8)
  | keyframeRequest (callback : ℕ) (ssrc : UInt32)
  | joined (id : ParticipantId)
  | left (id : ParticipantId)

/-- Return value and events of a call. -/
structure Answer where
  code : ℤ
  events : List Event

def Answer.failed : Answer :=
  { code := -1, events := [] }

def Answer.done : Answer :=
  { code := 0, events := [] }

def Participant.zero : Participant :=
  { id := []
    active := false
    streams := []
    availableBandwidth := 0
    lastBandwidthUpdate := 0
    totalPacketsSent := 0
    totalBytesSent := 0
    totalPacketsReceived := 0
    totalBytesReceived := 0
    onPacket := none
    onKeyframeRequest := none }

/-- `sfu_create`, when memory is available. -/
def create (maxParticipants : ℤ) : Context :=
  { participants := fun _ => Participant.zero
    participantCount := 0
    maxParticipants :=
      if 0 < maxParticipants ∧ maxParticipants ≤ 50 then maxParticipants.toNat else 50
    enableSimulcast := true
    enableBandwidthAdaptation := true
    totalPacketsRouted := 0
    totalBytesRouted := 0
    totalLayerSwitches := 0 }

variable (sfu : Context)

def Context.occupiedBy (id : ParticipantId) (i : Slot) : Bool :=
  (sfu.participants i).active && (sfu.participants i).id == id

/-- `find_participant`: the first `participant_count` slots only. -/
def findParticipant (id : ParticipantId) : Option Slot :=
  ((List.finRange 50).take sfu.participantCount).find? (sfu.occupiedBy id)

/-- `get_participant_index`: all slots. -/
def getParticipantIndex (id : ParticipantId) : Option Slot :=
  (List.finRange 50).find? (sfu.occupiedBy id)

/-- The search for a free slot in `sfu_add_participant`. -/
def freeSlot : Option Slot :=
  (List.finRange 50).find? (fun i => !(sfu.participants i).active)

def Context.setParticipant (i : Slot) (p : Participant) : Context :=
  { sfu with participants := Function.update sfu.participants i p }

/-- The record of a participant that just joined. -/
def newParticipant (id : ParticipantId) : Participant :=
  { Participant.zero with id := id, active := true, availableBandwidth := 2500000 }

/-- The length checks on an identifier: not empty, and fewer bytes than the
field `id` has room for. -/
def validId (id : ParticipantId) : Bool :=
  decide (id ≠ [] ∧ id.length < 64)

variable (sfu : Context)

variable (id : ParticipantId)

/-- `sfu_add_participant`. -/
def addParticipant : Context × Answer :=
  if validId id = false then (sfu, .failed)
  else if (findParticipant sfu id).isSome then (sfu, .failed)
  else if sfu.participantCount ≥ sfu.maxParticipants then (sfu, .failed)
  else
    match freeSlot sfu with
    | none => (sfu, .failed)
    | some i =>
      ({ sfu.setParticipant i (newParticipant id) with
          participantCount := sfu.participantCount + 1 },
        { code := 0, events := [.joined id] })

/-- `sfu_remove_participant`. -/
def removeParticipant : Context × Answer :=
  match findParticipant sfu id with
  | none => (sfu, .failed)
  | some i =>
    ({ sfu.setParticipant i { sfu.participants i with active := false } with
        participantCount := sfu.participantCount - 1 },
      { code := 0, events := [.left id] })

/-- The setters of one participant: an unknown id is ignored. -/
def withParticipant
    (f : Participant → Participant) : Context :=
  match findParticipant sfu id with
  | none => sfu
  | some i => sfu.setParticipant i (f (sfu.participants i))

/-- `sfu_set_participant_bandwidth`. -/
def setParticipantBandwidth (bandwidthBps now : ℤ) : Context :=
  withParticipant sfu id
    (fun p => { p with availableBandwidth := bandwidthBps, lastBandwidthUpdate := now })

/-- `sfu_set_participant_callback`. -/
def setParticipantCallback (onPacket : Option ℕ) : Context :=
  withParticipant sfu id (fun p => { p with onPacket := onPacket })

/-- `sfu_set_participant_keyframe_callback`. -/
def setParticipantKeyframeCallback
    (onKeyframeRequest : Option ℕ) : Context :=
  withParticipant sfu id (fun p => { p with onKeyframeRequest := onKeyframeRequest })

/-- The entry `sfu_add_stream` writes for every receiver slot. -/
def ReceiverEntry.initial : ReceiverEntry :=
  { currentLayer := .high
    lastLayerSwitchUs := 0
    enabled := true
    maxLayer := .high }

/-- The stream `sfu_add_stream` appends.  `layerSsrcs` is what the pointer
argument points to, if it is not null. -/
def newStream (ssrc : UInt32) (layerSsrcs : Option (List UInt32)) (layerCount : ℤ) : Stream :=
  let base : Stream :=
    { ssrc := ssrc
      active := true
      layerSsrcs := fun l => if l = .low then ssrc else 0
      layerCount := 1
      layerCount_pos := Nat.one_pos
      layerCount_le := by decide
      byReceiver := fun _ => ReceiverEntry.initial
      packetsReceived := 0
      bytesReceived := 0
      packetsForwarded := 0
      bytesForwarded := 0 }
  match layerSsrcs with
  | none => base
  | some ls =>
    if h : 0 < layerCount ∧ layerCount ≤ 3 then
      { base with
        layerSsrcs := fun l => if (l.value : ℤ) < layerCount then ls.getD l.value 0 else 0
        layerCount := layerCount.toNat
        layerCount_pos := by omega
        layerCount_le := by omega }
    else base

/-- `sfu_add_stream`. -/
def addStream (sfu : Context) (id : ParticipantId) (ssrc : UInt32)
    (layerSsrcs : Option (List UInt32)) (layerCount : ℤ) : Context × Answer :=
  match findParticipant sfu id with
  | none => (sfu, .failed)
  | some i =>
    let p := sfu.participants i
    if p.streams.length ≥ 4 then (sfu, .failed)
    else
      (sfu.setParticipant i
          { p with streams := p.streams ++ [newStream ssrc layerSsrcs layerCount] },
        .done)

def Stream.layers (s : Stream) : List UInt32 :=
  (([.low, .medium, .high] : List SimulcastLayer).take s.layerCount).map s.layerSsrcs

/-- The stream carries this SSRC, as its main one or on a layer. -/
def Stream.carries (ssrc : UInt32) (s : Stream) : Bool :=
  s.active && (s.ssrc == ssrc || s.layers.contains ssrc)

/-- `find_stream_by_ssrc`: the index of the first stream with this SSRC. -/
def findStreamBySsrc (p : Participant) (ssrc : UInt32) : Option ℕ :=
  p.streams.findIdx? (Stream.carries ssrc)

/-- `sfu_remove_stream`: the first stream with this main SSRC; the later ones
move down. -/
def removeStream (sfu : Context) (id : ParticipantId) (ssrc : UInt32) : Context × Answer :=
  match findParticipant sfu id with
  | none => (sfu, .failed)
  | some i =>
    let p := sfu.participants i
    match p.streams.findIdx? (fun s => s.active && s.ssrc == ssrc) with
    | none => (sfu, .failed)
    | some k => (sfu.setParticipant i { p with streams := p.streams.eraseIdx k }, .done)

/-- The stream with the entry of one receiver slot replaced. -/
def Stream.setReceiver (s : Stream) (i : Slot) (e : ReceiverEntry) : Stream :=
  { s with byReceiver := Function.update s.byReceiver i e }

/-- `sfu_set_receiver_stream_policy`. -/
def setReceiverStreamPolicy (sfu : Context) (receiverId senderId : ParticipantId)
    (streamSsrc : UInt32) (enabled : Bool) (maxLayer : ℤ) : Context × Answer :=
  if maxLayer < 0 ∨ maxLayer > 2 then (sfu, .failed)
  else
    match getParticipantIndex sfu receiverId, findParticipant sfu senderId with
    | some r, some j =>
      let sender := sfu.participants j
      match findStreamBySsrc sender streamSsrc with
      | none => (sfu, .failed)
      | some k =>
        let policy (s : Stream) : Stream :=
          s.setReceiver r
            { s.byReceiver r with
              enabled := enabled
              maxLayer := SimulcastLayer.ofValue maxLayer.toNat }
        (sfu.setParticipant j { sender with streams := sender.streams.modify k policy }, .done)
    | _, _ => (sfu, .failed)

/-- `select_layer_for_bandwidth`. -/
def selectLayerForBandwidth (bandwidthBps : ℤ) : SimulcastLayer :=
  if bandwidthBps ≥ 2000000 then .high
  else if bandwidthBps ≥ 1000000 then .medium
  else if bandwidthBps ≥ 300000 then .low
  else .low

/-- `should_switch_layer`: down at once, up when the last switch is
`SFU_LAYER_SWITCH_HYSTERESIS_MS` back. -/
def shouldSwitchLayer (e : ReceiverEntry) (newLayer : SimulcastLayer) (nowUs : ℤ) : Bool :=
  if newLayer = e.currentLayer then false
  else if newLayer.value < e.currentLayer.value then true
  else if nowUs - e.lastLayerSwitchUs < 2000 * 1000 then false
  else true

/-- The layer aimed at for a receiver: by its bandwidth, at most what its
policy and the stream allow.  Used for streams of more than one layer. -/
def targetLayer (adaptation : Bool) (layerCount : ℕ) (bandwidth : ℤ)
    (maxLayer : SimulcastLayer) : SimulcastLayer :=
  let target := if adaptation then selectLayerForBandwidth bandwidth else .high
  let highest := SimulcastLayer.ofValue (layerCount - 1)
  let allowed := if maxLayer.value > highest.value then highest else maxLayer
  if target.value > allowed.value then allowed else target

/-- The entry of a receiver after the layer decision for one packet, and
whether a switch was made. -/
def updateLayer (e : ReceiverEntry) (adaptation : Bool) (layerCount : ℕ)
    (bandwidth nowUs : ℤ) : ReceiverEntry × Bool :=
  if layerCount > 1 then
    let target := targetLayer adaptation layerCount bandwidth e.maxLayer
    if shouldSwitchLayer e target nowUs then
      ({ e with currentLayer := target, lastLayerSwitchUs := nowUs }, true)
    else (e, false)
  else (e, false)

/-- `should_forward`. -/
def shouldForward (s : Stream) (e : ReceiverEntry) (ssrc : UInt32) : Bool :=
  if s.layerCount = 1 then true else ssrc == s.layerSsrcs e.currentLayer

/-- What the loop of `sfu_forward_packet` carries: the context, the stream of
the sender that is forwarded, the events and the number of receivers. -/
structure ForwardState where
  sfu : Context
  stream : Stream
  events : List Event
  forwarded : ℕ

/-- What one packet to forward has in common for all receivers. -/
structure Outgoing where
  sender : Slot
  packet : List UInt8
  ssrc : UInt32
  nowUs : ℤ

/-- The receiver gets a look at the packet: active, not the sender, with a
callback, and enabled for the stream. -/
def eligible (sfu : Context) (s : Stream) (sender i : Slot) : Bool :=
  let receiver := sfu.participants i
  receiver.active && i ≠ sender && receiver.onPacket.isSome && (s.byReceiver i).enabled

/-- The layer decision for receiver `i`: the entry is updated, a switch is
counted and a keyframe of the new layer requested from the sender. -/
def decideLayer (st : ForwardState) (out : Outgoing) (i : Slot) : ForwardState :=
  let e := updateLayer (st.stream.byReceiver i) st.sfu.enableBandwidthAdaptation
    st.stream.layerCount (st.sfu.participants i).availableBandwidth out.nowUs
  if e.2 then
    { st with
      sfu := { st.sfu with totalLayerSwitches := st.sfu.totalLayerSwitches + 1 }
      stream := st.stream.setReceiver i e.1
      events := st.events ++ ((st.sfu.participants out.sender).onKeyframeRequest.map
          (fun cb => Event.keyframeRequest cb (st.stream.layerSsrcs e.1.currentLayer))).toList }
  else st

/-- The packet is handed to receiver `i` and counted. -/
def deliver (st : ForwardState) (out : Outgoing) (i : Slot) : ForwardState :=
  let receiver := st.sfu.participants i
  { sfu := st.sfu.setParticipant i
      { receiver with
        totalPacketsSent := receiver.totalPacketsSent + 1
        totalBytesSent := receiver.totalBytesSent + out.packet.length }
    stream :=
      { st.stream with
        packetsForwarded := st.stream.packetsForwarded + 1
        bytesForwarded := st.stream.bytesForwarded + out.packet.length }
    events := st.events ++ (receiver.onPacket.map (fun cb => Event.packet i cb out.packet)).toList
    forwarded := st.forwarded + 1 }

/-- One turn of the loop over the receiver slots. -/
def forwardTo (out : Outgoing) (st : ForwardState) (i : Slot) : ForwardState :=
  if eligible st.sfu st.stream out.sender i then
    let st := decideLayer st out i
    if shouldForward st.stream (st.stream.byReceiver i) out.ssrc then deliver st out i
    else st
  else st

/-- `parse_rtp_ssrc`. -/
def parseRtpSsrc (packet : List UInt8) : Option UInt32 :=
  if packet.length < 12 then none
  else if Bytes.u8At packet 0 &&& 0xC0 ≠ 0x80 then none
  else
    some (Bytes.join32 (Bytes.u8At packet 8) (Bytes.u8At packet 9) (Bytes.u8At packet 10)
      (Bytes.u8At packet 11))

/-- The sender and the stream before the loop, with the packet counted. -/
def countReceived (sender : Participant) (k len : ℕ) : Participant :=
  { sender with
    totalPacketsReceived := sender.totalPacketsReceived + 1
    totalBytesReceived := sender.totalBytesReceived + len
    streams := sender.streams.modify k (fun s =>
      { s with
        packetsReceived := s.packetsReceived + 1
        bytesReceived := s.bytesReceived + len }) }

def forwardAll (sfu : Context) (stream : Stream) (out : Outgoing) : ForwardState :=
  (List.finRange 50).foldl (forwardTo out)
    { sfu := sfu, stream := stream, events := [], forwarded := 0 }

/-- The context after the loop: the stream is back in the sender's array, and
the packet is counted as routed. -/
def afterLoop (st : ForwardState) (out : Outgoing) (k : ℕ) : Context :=
  let sender := st.sfu.participants out.sender
  { st.sfu.setParticipant out.sender
      { sender with streams := sender.streams.set k st.stream } with
    totalPacketsRouted := st.sfu.totalPacketsRouted + 1
    totalBytesRouted := st.sfu.totalBytesRouted + out.packet.length }

/-- `sfu_forward_packet`.  The loop works on the stream through a pointer; here
the stream is written back to the sender after it. -/
def forwardPacket (sfu : Context) (senderId : ParticipantId) (packet : List UInt8)
    (nowUs : ℤ) : Context × Answer :=
  match findParticipant sfu senderId, parseRtpSsrc packet with
  | some j, some ssrc =>
    match findStreamBySsrc (sfu.participants j) ssrc with
    | none => (sfu, .failed)
    | some k =>
      let sender := countReceived (sfu.participants j) k packet.length
      match sender.streams[k]? with
      | none => (sfu, .failed)
      | some stream =>
        let out : Outgoing :=
          { sender := j, packet := packet, ssrc := ssrc, nowUs := nowUs }
        let st := forwardAll (sfu.setParticipant j sender) stream out
        (afterLoop st out k, { code := st.forwarded, events := st.events })
  | _, _ => (sfu, .failed)

/-- `sfu_request_keyframe`. -/
def requestKeyframe (sfu : Context) (id : ParticipantId) (ssrc : UInt32) : Context × Answer :=
  match findParticipant sfu id with
  | none => (sfu, .failed)
  | some i =>
    match (sfu.participants i).onKeyframeRequest with
    | none => (sfu, .failed)
    | some cb => (sfu, { code := 0, events := [.keyframeRequest cb ssrc] })

/-- The calls that drive a context. -/
inductive Op where
  | addParticipant (id : ParticipantId)
  | removeParticipant (id : ParticipantId)
  | setParticipantBandwidth (id : ParticipantId) (bandwidthBps nowUs : ℤ)
  | setParticipantCallback (id : ParticipantId) (onPacket : Option ℕ)
  | setParticipantKeyframeCallback (id : ParticipantId) (onKeyframeRequest : Option ℕ)
  | addStream
      (id : ParticipantId) (ssrc : UInt32) (layerSsrcs : Option (List UInt32)) (layerCount : ℤ)
  | removeStream (id : ParticipantId) (ssrc : UInt32)
  | setReceiverStreamPolicy
      (receiverId senderId : ParticipantId) (streamSsrc : UInt32) (enabled : Bool)
      (maxLayer : ℤ)
  | forwardPacket (senderId : ParticipantId) (packet : List UInt8) (nowUs : ℤ)
  | requestKeyframe (id : ParticipantId) (ssrc : UInt32)
  | setSimulcastEnabled (enabled : Bool)
  | setBandwidthAdaptationEnabled (enabled : Bool)

def step (sfu : Context) : Op → Context × Answer
  | .addParticipant id => addParticipant sfu id
  | .removeParticipant id => removeParticipant sfu id
  | .setParticipantBandwidth id bw now => (setParticipantBandwidth sfu id bw now, .done)
  | .setParticipantCallback id cb => (setParticipantCallback sfu id cb, .done)
  | .setParticipantKeyframeCallback id cb => (setParticipantKeyframeCallback sfu id cb, .done)
  | .addStream id ssrc layers n => addStream sfu id ssrc layers n
  | .removeStream id ssrc => removeStream sfu id ssrc
  | .setReceiverStreamPolicy r s ssrc enabled maxLayer =>
    setReceiverStreamPolicy sfu r s ssrc enabled maxLayer
  | .forwardPacket id packet now => forwardPacket sfu id packet now
  | .requestKeyframe id ssrc => requestKeyframe sfu id ssrc
  | .setSimulcastEnabled enabled => ({ sfu with enableSimulcast := enabled }, .done)
  | .setBandwidthAdaptationEnabled enabled =>
    ({ sfu with enableBandwidthAdaptation := enabled }, .done)

def machine : Machine Context Op Answer where
  step := step

end TurboMedia.Sfu
