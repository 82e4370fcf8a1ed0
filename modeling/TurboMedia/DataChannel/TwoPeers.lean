import TurboMedia.DataChannel.ChannelSteps

/-!
# Two peers

A DTLS client and a DTLS server that exchange the messages of their channels.

**Input.**  Any calls of the two applications, made from any callback, and any order in which
the messages of different streams arrive.

**Method.**  SCTP is a queue in each direction that loses nothing: a message is delivered when
none before it is of its stream, and a reset of a stream comes after the messages that were
sent on it.  What a call sends is read off the history that it adds; the handle of the
sending channel and `Link.partner`, the channel whose `OPEN` made a channel of the other side,
are history variables that no peer reads.

The rule that keeps the channels of a stream apart, and a run without it, are in
`TurboMedia.DataChannel.Generations`.
-/

namespace TurboMedia.DataChannel

/-- What is sent on a stream. -/
inductive Content where
  | opening (data : List UInt8)
  | ack
  | message
  | reset
deriving DecidableEq

/-- An `OPEN`. -/
def Content.isOpening : Content → Bool
  | .opening _ => true
  | _ => false

/-- A message on its way; `sender` is the channel that it was sent for. -/
structure Item where
  streamId : UInt16
  content : Content
  sender : ℕ
deriving DecidableEq

/-- The peers by their role, `true` for the server; `queue b` is on its way from the peer
`b`, and `partner b k` is the channel whose `OPEN` made channel `k` of the peer `b`. -/
structure Link where
  peer : Bool → Peer
  queue : Bool → List Item
  partner : Bool → ℕ → Option ℕ

def Link.create (sctpDisabled : Bool) : Link where
  peer := fun isDtlsServer => .create isDtlsServer sctpDisabled
  queue := fun _ => []
  partner := fun _ _ => none

/-- The message that an event puts on its stream. -/
def sentItem (q : Peer) : Event → Option Item
  | .openSent h =>
    (q.channel? h).bind (fun c =>
      (openPacket c.request).map (fun data => ⟨c.id, .opening data, h⟩))
  | .ackAccepted h => (q.channel? h).map (fun c => ⟨c.id, .ack, h⟩)
  | .messageSent h => (q.channel? h).map (fun c => ⟨c.id, .message, h⟩)
  | .streamReset id h => some ⟨id, .reset, h⟩
  | _ => none

/-- What a call that leads from `p` to `q` sends. -/
def sentItems (p q : Peer) : List Item :=
  (q.log.drop p.log.length).filterMap (sentItem q)

/-- The call that a message makes where it arrives. -/
def Item.arrival (item : Item) (memory acked resetOutgoing : Bool) : PeerStep :=
  match item.content with
  | .opening data => .dcep item.streamId data memory acked
  | .ack => .dcep item.streamId [dataChannelAck] memory acked
  | .message => .message item.streamId
  | .reset => .streamReset item.streamId resetOutgoing

/-- A call that is not made by a message that arrives. -/
def PeerStep.isLocal : PeerStep → Bool
  | .dcep .. => false
  | .message _ => false
  | .streamReset .. => false
  | .allStreamsReset .. => false
  | _ => true

variable (s : Link)

def Link.perform (b : Bool) (q : Peer) : Link :=
  { s with
    peer := Function.update s.peer b q
    queue := Function.update s.queue b (s.queue b ++ sentItems (s.peer b) q) }

/-- The message at a place of the queue to a peer, when none before it is of its stream. -/
def Link.first (b : Bool) (i : ℕ) : Option Item :=
  (s.queue (!b))[i]?.filter (fun item =>
    ((s.queue (!b)).take i).all (fun before => before.streamId != item.streamId))

/-- A call of an application, or the arrival of a message. -/
inductive LinkStep where
  | app (b : Bool) (step : PeerStep)
  | deliver (b : Bool) (i : ℕ) (memory acked resetOutgoing : Bool)

/-- The peer `b` takes a message. -/
def Link.take (b : Bool) (i : ℕ) (item : Item) (q : Peer) : Link :=
  { s.perform b q with
    queue := Function.update (s.perform b q).queue (!b) ((s.queue (!b)).eraseIdx i)
    partner :=
      if item.content.isOpening ∧ (s.peer b).records.length < q.records.length then
        Function.update s.partner b
          (Function.update (s.partner b) (s.peer b).records.length (some item.sender))
      else s.partner }

def Link.step : LinkStep → Link
  | .app b step => if step.isLocal then s.perform b ((s.peer b).step step) else s
  | .deliver b i memory acked resetOutgoing =>
    match s.first b i with
    | none => s
    | some item => s.take b i item ((s.peer b).step (item.arrival memory acked resetOutgoing))

def linkMachine : Machine Link LinkStep Unit where
  step := fun s step => (s.step step, ())

/-- Nothing of an earlier channel is left on a stream: no `ACK`, message or reset on its way
to the peer `b`, no `OPEN` on its way from it, and no channel on the other side. -/
def Link.Quiet (b : Bool) (id : UInt16) : Prop :=
  (∀ item ∈ s.queue b, item.streamId = id → item.content.isOpening = false) ∧
    (∀ item ∈ s.queue (!b), item.streamId = id → item.content.isOpening = true) ∧
      (s.peer (!b)).getChannel id = none

instance (b : Bool) (id : UInt16) : Decidable (s.Quiet b id) :=
  inferInstanceAs (Decidable (_ ∧ _ ∧ _))

/-- `turbo_dc_channel_create` is not refused for its arguments or the state of the peer. -/
def Peer.creates (p : Peer) (label : List UInt8) (config : Option (ChannelConfig × List UInt8))
    (memory : Bool) : Bool :=
  !(p.sctpDisabled || p.destroying) && (createRequest label config).isSome && memory

/-- A channel is created only on a stream that is quiet. -/
def ReusesQuietly (s : Link) : LinkStep → Prop
  | .app b (.create label config memory) => (s.peer b).creates label config memory = true →
    ∀ id ∈ (s.peer b).allocChannelId, s.Quiet b id
  | _ => True

instance (step : LinkStep) : Decidable (ReusesQuietly s step) :=
  match step with
  | .app b (.create label config memory) =>
    haveI : Decidable (∀ id ∈ (s.peer b).allocChannelId, s.Quiet b id) :=
      Option.decidableForallMem _
    inferInstanceAs (Decidable ((s.peer b).creates label config memory = true →
      ∀ id ∈ (s.peer b).allocChannelId, s.Quiet b id))
  | .app _ (.setLink ..) | .app _ (.setOnChannel _) | .app _ (.setHandlers ..)
  | .app _ (.openChannel ..) | .app _ (.send ..) | .app _ (.close _) | .app _ (.dcep ..)
  | .app _ (.message _) | .app _ (.streamReset ..) | .app _ (.allStreamsReset ..)
  | .app _ .ret | .app _ .beginDestroy | .app _ .destroyResources | .deliver .. => .isTrue trivial

end TurboMedia.DataChannel
