import TurboMedia.DataChannel.Dcep
import TurboMedia.Lib.Machine

/-!
# The channels of a peer

Model of the channel table of a DataChannel peer: `dc_channel_create_owner_impl`,
`dc_channel_open_owner_impl`, `dc_channel_send_owner_impl`, `dc_channel_close_owner_impl_mode`
and the resets of `turbo_datachannel.c`, `dc_channel_admit` and `dc_channel_release` of
`turbo_datachannel_internal.h`, `dcep_handle_message`, and the end of
`sctp_inbound_packet_cb`.

**Input.**  Any sequence of calls.  All of this code runs on the owner thread of the peer, so
a call is made either between two tasks of the owner or by a callback that the owner is in.
An allocation that fails, a message that SCTP does not take and the order in which the hash
map is walked are arguments of the call.

**Method.**  The callbacks that have started and not returned form a stack.  A frame says
what the owner does when its callback returns (`Peer.ret`); between the start of a callback
and its return any other call may be made.  A channel is the index of its record; a record
whose storage was returned is `none`.  `Peer.log` is a history variable that no function
reads.
-/

namespace TurboMedia.DataChannel

section Data

/-- The callbacks that the library makes about a channel. -/
inductive CallbackKind where
  | channel
  | opened
  | message
  | closed
deriving DecidableEq

/-- What happens to the channels of a peer, in order. -/
inductive Event where
  | created (h : ℕ) (streamId : UInt16)
  | openSent (h : ℕ)
  | ackArrived (streamId : UInt16)
  | reserved (h : ℕ) (streamId : UInt16)
  | ackAccepted (h : ℕ)
  | ackRefused (h : ℕ)
  | opens (h : ℕ)
  | messageSent (h : ℕ)
  | streamReset (streamId : UInt16) (h : ℕ)
  | closing (h : ℕ)
  | started (kind : CallbackKind) (h : ℕ)
  | returned (kind : CallbackKind) (h : ℕ)
  | released (h : ℕ)
deriving DecidableEq

/-- `turbo_dc_channel_t`; a handler is there or not. -/
structure Channel where
  id : UInt16
  request : OpenRequest
  isOpen : Bool
  dcepSent : Bool
  callbackRefs : ℕ
  closing : Bool
  onOpen : Bool
  onMessage : Bool
  onClose : Bool

/-- A record after `calloc` with its identity. -/
def Channel.blank (id : UInt16) (request : OpenRequest) (callbackRefs : ℕ) : Channel where
  id := id
  request := request
  isOpen := false
  dcepSent := false
  callbackRefs := callbackRefs
  closing := false
  onOpen := false
  onMessage := false
  onClose := false

/-- A callback that has not returned.  `onClose` carries whether its caller holds a reference
of its own, and the channels of an all-streams reset that are still to be closed. -/
inductive Frame where
  | onChannel (h : ℕ)
  | onOpen (h : ℕ)
  | onMessage (h : ℕ)
  | onClose (h : ℕ) (admitted : Bool) (rest : List ℕ) (resetOutgoing : Bool)

/-- The channels of `turbo_dc_peer_s`; `channelIds` is the bitmap, `channels` the hash map. -/
structure Peer where
  isDtlsServer : Bool
  sctpDisabled : Bool
  connected : Bool
  hasSocket : Bool
  destroying : Bool
  onChannel : Bool
  channelIds : List UInt16
  channels : List (UInt16 × ℕ)
  records : List (Option Channel)
  stack : List Frame
  log : List Event

/-- A peer as `turbo_dc_peer_create` leaves it. -/
def Peer.create (isDtlsServer sctpDisabled : Bool) : Peer where
  isDtlsServer := isDtlsServer
  sctpDisabled := sctpDisabled
  connected := false
  hasSocket := !sctpDisabled
  destroying := false
  onChannel := false
  channelIds := []
  channels := []
  records := []
  stack := []
  log := []

variable (p : Peer)

def Peer.channel? (h : ℕ) : Option Channel :=
  p.records[h]?.join

/-- `peer_get_channel`. -/
def Peer.getChannel (id : UInt16) : Option ℕ :=
  (p.channels.find? (fun entry => entry.1 == id)).map Prod.snd

def Peer.setChannel (h : ℕ) (channel : Channel) : Peer :=
  { p with records := p.records.set h (some channel) }

def Peer.note (events : List Event) : Peer :=
  { p with log := p.log ++ events }

variable {p} {h h' : ℕ} {c c' : Channel}

theorem channel?_lt (hc : p.channel? h = some c) : h < p.records.length := by
  rw [Peer.channel?, Option.join_eq_some_iff] at hc
  exact (List.getElem?_eq_some_iff.mp hc).1

theorem channel?_set_self (hlt : h < p.records.length) (slot : Option Channel) :
    (p.records.set h slot)[h]?.join = slot := by
  rw [List.getElem?_set_self hlt]
  rfl

theorem channel?_set_other (hne : h' ≠ h) (slot : Option Channel) :
    (p.records.set h slot)[h']?.join = p.channel? h' := by
  rw [List.getElem?_set_ne hne.symm]
  rfl

theorem channel?_setChannel (hlt : h < p.records.length) :
    (p.setChannel h c).channel? h' = if h' = h then some c else p.channel? h' := by
  split
  next heq =>
    subst heq
    exact channel?_set_self hlt (some c)
  next hne => exact channel?_set_other hne (some c)

theorem channel?_append (records : List (Option Channel)) (slot : Option Channel) (h' : ℕ) :
    (records ++ [slot])[h']?.join =
      if h' = records.length then slot else records[h']?.join := by
  split
  next heq =>
    subst heq
    simp
  next hne =>
    rcases Nat.lt_or_gt_of_ne hne with hlt | hgt
    · rw [List.getElem?_append_left hlt]
    · rw [List.getElem?_eq_none (by simp; omega), List.getElem?_eq_none (by omega)]

end Data

section References

variable (p : Peer)

/-- `dc_channel_admit`. -/
def Peer.channelAdmit (id : UInt16) : Option (ℕ × Peer) :=
  if p.destroying then none
  else
    (p.getChannel id).bind (fun h =>
      (p.channel? h).bind (fun c =>
        if c.closing = false ∧ c.callbackRefs < 2 ^ 32 - 2 then
          some (h, p.setChannel h { c with callbackRefs := c.callbackRefs + 1 })
        else none))

/-- `dc_channel_release`. -/
def Peer.release (h : ℕ) : Peer :=
  match p.channel? h with
  | none => p
  | some c =>
    let refs := c.callbackRefs - 1
    if c.closing ∧ refs = 0 then
      { p with
        channelIds := p.channelIds.erase c.id
        records := p.records.set h none
        log := p.log ++ [.released h] }
    else p.setChannel h { c with callbackRefs := refs }

/-- The loop of `peer_alloc_channel_id` from an id on. -/
def firstFree (ids : List UInt16) : ℕ → ℕ → Option UInt16
  | 0, _ => none
  | fuel + 1, id =>
    if ids.contains (UInt16.ofNat id) then firstFree ids fuel (id + 2)
    else some (UInt16.ofNat id)

/-- `peer_alloc_channel_id`: the least free id of the parity of the role. -/
def Peer.allocChannelId : Option UInt16 :=
  firstFree p.channelIds 32768 (if p.isDtlsServer then 1 else 0)

variable {p} {id : UInt16}

theorem release_open {h : ℕ} {c : Channel} (hc : p.channel? h = some c)
    (hopen : c.closing = false) :
    p.release h = p.setChannel h { c with callbackRefs := c.callbackRefs - 1 } := by
  rw [Peer.release, hc]
  simp [hopen]

theorem firstFree_some {ids : List UInt16} {fuel n : ℕ} (h : firstFree ids fuel n = some id) :
    id ∉ ids ∧ id.toNat % 2 = n % 2 := by
  induction fuel generalizing n with
  | zero => exact absurd h (by simp [firstFree])
  | succ fuel ih =>
    rw [firstFree] at h
    split at h
    · have hlater := ih h
      exact ⟨hlater.1, by omega⟩
    next hfree =>
      rw [Option.some.injEq] at h
      subst h
      refine ⟨by simpa using hfree, ?_⟩
      rw [UInt16.toNat_ofNat']
      omega

theorem even_iff (id : UInt16) : decide (id &&& 1 = 0) = decide (id.toNat % 2 = 0) := by
  rw [decide_eq_decide, ← UInt16.toNat_inj, UInt16.toNat_and]
  change id.toNat &&& (2 ^ 1 - 1) = 0 ↔ _
  rw [Nat.and_two_pow_sub_one_eq_mod, pow_one]

theorem allocChannelId_parity (h : p.allocChannelId = some id) :
    decide (id &&& 1 = 0) = !p.isDtlsServer := by
  have hparity := (firstFree_some h).2
  rw [even_iff, hparity]
  cases p.isDtlsServer <;> rfl

end References

namespace Peer

variable (p : Peer)

/-- The first part of `dc_channel_close_owner_impl_mode`, up to the callback. -/
def beginClose (h : ℕ) (c : Channel) (resetOutgoing : Bool) : Peer :=
  let closed :=
    { c with closing := true, isOpen := false, callbackRefs := c.callbackRefs + 1 }
  ({ p.setChannel h closed with
      channels :=
        if p.getChannel c.id = some h then p.channels.filter (fun entry => entry.1 != c.id)
        else p.channels }).note
    (.closing h :: if resetOutgoing ∧ p.hasSocket then [.streamReset c.id h] else [])

/-- What follows `on_close`: the reference of the close scope and the one of its caller. -/
def endClose (h : ℕ) (admitted : Bool) : Peer :=
  if admitted then (p.release h).release h else p.release h

/-- The closes of a list of admitted channels, up to the first callback. -/
def closeAll (p : Peer) (resetOutgoing : Bool) : List ℕ → Peer
  | [] => p
  | h :: rest =>
    match p.channel? h with
    | none => closeAll p resetOutgoing rest
    | some c =>
      if c.closing then closeAll (p.release h) resetOutgoing rest
      else
        let begun := p.beginClose h c resetOutgoing
        if c.onClose then
          { begun with
            stack := .onClose h true rest resetOutgoing :: begun.stack
            log := begun.log ++ [.started .closed h] }
        else closeAll (begun.endClose h true) resetOutgoing rest

/-- `dc_channel_close_owner_impl`. -/
def closeChannel (h : ℕ) : Peer :=
  match p.channel? h with
  | none => p
  | some c =>
    if c.closing then p
    else
      let begun := p.beginClose h c true
      if c.onClose then
        { begun with
          stack := .onClose h false [] true :: begun.stack
          log := begun.log ++ [.started .closed h] }
      else begun.endClose h false

/-- `dc_channel_handle_stream_reset`. -/
def handleStreamReset (id : UInt16) (resetOutgoing : Bool) : Peer :=
  match p.channelAdmit id with
  | none => p
  | some (h, p) => p.closeAll resetOutgoing [h]

/-- One more reference on each channel of a list. -/
def retain (hs : List ℕ) : Peer :=
  hs.foldl (fun p h =>
    match p.channel? h with
    | none => p
    | some c => p.setChannel h { c with callbackRefs := c.callbackRefs + 1 }) p

/-- The channels of the hash map that an all-streams reset takes, in the order of a walk. -/
def snapshot (walk : List ℕ) : List ℕ :=
  walk.filter (fun h =>
    (p.channel? h).any (fun c => !c.closing && decide (c.callbackRefs < 2 ^ 32 - 2)))

/-- `dc_channel_handle_all_streams_reset`; `walk` is the order of the hash map, and `memory`
whether the snapshot could be allocated. -/
def handleAllStreamsReset (walk : List ℕ) (resetOutgoing memory : Bool) : Peer :=
  if memory ∧ walk.Perm (p.channels.map Prod.snd) then
    (p.retain (p.snapshot walk)).closeAll resetOutgoing (p.snapshot walk)
  else p

/-- `dc_channel_create_owner_impl`. -/
def createChannel (label : List UInt8)
    (config : Option (ChannelConfig × List UInt8)) (memory : Bool) : Peer :=
  if p.sctpDisabled ∨ p.destroying then p
  else
    match createRequest label config, p.allocChannelId with
    | some request, some id =>
      if memory then
        { p with
          channelIds := id :: p.channelIds
          channels := (id, p.records.length) :: p.channels.filter (fun e => e.1 != id)
          records := p.records ++ [some (.blank id request 0)]
          log := p.log ++ [.created p.records.length id] }
      else p
    | _, _ => p

/-- `dc_channel_open_owner_impl`; `sent` says whether SCTP takes the packet. -/
def openChannel (h : ℕ) (sent : Bool) : Peer :=
  match p.channel? h with
  | none => p
  | some c =>
    if c.isOpen ∨ p.connected = false ∨ c.dcepSent ∨ p.hasSocket = false then p
    else if (openPacket c.request).isSome ∧ sent then
      (p.setChannel h { c with dcepSent := true }).note [.openSent h]
    else p

/-- `dc_channel_send_owner_impl`; `sent` says whether SCTP takes the message. -/
def sendMessage (h : ℕ) (sent : Bool) : Peer :=
  match p.channel? h with
  | none => p
  | some c =>
    if c.isOpen ∧ c.closing = false ∧ p.hasSocket ∧ c.request.config.sendPolicy.isSome ∧
        sent then
      p.note [.messageSent h]
    else p

/-- The start of a callback that `dcep_handle_message` or the delivery of a message makes. -/
def start (kind : CallbackKind) (h : ℕ) (frame : Frame) : Peer :=
  { p with stack := frame :: p.stack, log := p.log ++ [.started kind h] }

/-- `on_open`, when there is a handler, and the end of its scope. -/
def callOnOpen (h : ℕ) (wanted : Bool) : Peer :=
  if wanted then p.start .opened h (.onOpen h) else p.release h

/-- The end of `dcep_handle_message` for an `OPEN`, after `on_channel`. -/
def afterOnChannel (h : ℕ) : Peer :=
  p.callOnOpen h ((p.channel? h).any (fun c => !c.closing && !p.destroying && c.onOpen))

/-- The publication of the channel of an `OPEN`. -/
def reserve (id : UInt16) (request : OpenRequest) : Peer :=
  { p with
    channelIds := id :: p.channelIds
    channels := (id, p.records.length) :: p.channels
    records := p.records ++ [some (.blank id request 1)]
    log := p.log ++ [.reserved p.records.length id] }

/-- The roll back of a channel whose `ACK` was not taken; nothing has run since it was
published. -/
def rollBack (h : ℕ) : Peer :=
  match p.channel? h with
  | none => p
  | some c =>
    let reset : List Event :=
      if p.destroying = false ∧ p.hasSocket then [.streamReset c.id h] else []
    (({ p.setChannel h { c with closing := true, isOpen := false } with
        channels :=
          if p.getChannel c.id = some h then p.channels.filter (fun entry => entry.1 != c.id)
          else p.channels }).note (.ackRefused h :: reset)).release h

/-- The commit of a channel whose `ACK` was taken, up to `on_channel`. -/
def commitOpen (h : ℕ) : Peer :=
  match p.channel? h with
  | none => p
  | some c =>
    let p := p.note [.ackAccepted h]
    if c.closing = false ∧ p.destroying = false then
      let p := (p.setChannel h { c with isOpen := true }).note [.opens h]
      if p.onChannel then p.start .channel h (.onChannel h) else p.afterOnChannel h
    else p.afterOnChannel h

/-- `dcep_handle_message` for an `OPEN` that passed its checks; `acked` says whether SCTP takes
the `ACK`. -/
def handleOpen (id : UInt16) (request : OpenRequest) (memory acked : Bool) :
    Peer :=
  if memory = false ∨ p.destroying ∨ p.channelIds.contains id ∨ (p.getChannel id).isSome then p
  else if p.hasSocket ∧ acked then (p.reserve id request).commitOpen p.records.length
  else (p.reserve id request).rollBack p.records.length

/-- `dcep_handle_message` for an `ACK`. -/
def handleAck (id : UInt16) : Peer :=
  match (p.note [.ackArrived id]).channelAdmit id with
  | none => p.note [.ackArrived id]
  | some (h, p) =>
    match p.channel? h with
    | none => p
    | some c =>
      if c.closing = false ∧ p.destroying = false ∧ c.dcepSent ∧ c.isOpen = false then
        ((p.setChannel h { c with isOpen := true }).note [.opens h]).callOnOpen h c.onOpen
      else p.release h

/-- `dcep_handle_message`. -/
def handleDcep (id : UInt16) (data : List UInt8) (memory acked : Bool) : Peer :=
  match readDcep p.isDtlsServer id data with
  | .opening request => p.handleOpen id request memory acked
  | .ack => p.handleAck id
  | .ignored => p

/-- The end of `sctp_inbound_packet_cb` for a user message. -/
def handleMessage (id : UInt16) : Peer :=
  match p.channelAdmit id with
  | none => p
  | some (h, p) =>
    match p.channel? h with
    | none => p
    | some c =>
      if c.closing = false ∧ c.isOpen ∧ p.destroying = false ∧ c.onMessage then
        p.start .message h (.onMessage h)
      else p.release h

/-- A callback returns, and the owner goes on. -/
def ret : Peer :=
  match p.stack with
  | [] => p
  | frame :: stack =>
    let p := { p with stack := stack }
    match frame with
    | .onChannel h => (p.note [.returned .channel h]).afterOnChannel h
    | .onOpen h => (p.note [.returned .opened h]).release h
    | .onMessage h => (p.note [.returned .message h]).release h
    | .onClose h admitted rest resetOutgoing =>
      ((p.note [.returned .closed h]).endClose h admitted).closeAll resetOutgoing rest

/-- The handlers that the application has set on a channel; `dc_channel_callback_owner_task`
takes none once the channel is closing. -/
def setHandlers (h : ℕ) (onOpen onMessage onClose : Bool) : Peer :=
  match p.channel? h with
  | none => p
  | some c =>
    if c.closing then p
    else p.setChannel h { c with onOpen := onOpen, onMessage := onMessage, onClose := onClose }

/-- The part of `dc_peer_destroy_resources_owner_task` about channels, once the leases of the
peer have drained. -/
def destroyResources : Peer :=
  if p.destroying ∧ p.stack = [] then
    { p with
      channels := []
      channelIds := []
      hasSocket := false
      records := p.channels.foldl (fun records e => records.set e.2 none) p.records
      log := p.log ++ p.channels.map (fun e => .released e.2) }
  else p

end Peer

/-- What happens to a peer. -/
inductive PeerStep where
  | setLink (connected hasSocket : Bool)
  | setOnChannel (onChannel : Bool)
  | setHandlers (h : ℕ) (onOpen onMessage onClose : Bool)
  | create (label : List UInt8) (config : Option (ChannelConfig × List UInt8)) (memory : Bool)
  | openChannel (h : ℕ) (sent : Bool)
  | send (h : ℕ) (sent : Bool)
  | close (h : ℕ)
  | dcep (id : UInt16) (data : List UInt8) (memory acked : Bool)
  | message (id : UInt16)
  | streamReset (id : UInt16) (resetOutgoing : Bool)
  | allStreamsReset (walk : List ℕ) (resetOutgoing memory : Bool)
  | ret
  | beginDestroy
  | destroyResources

/-- One step.  Calls and deliveries acquire the peer, which fails once it is being
destroyed. -/
def Peer.step (p : Peer) : PeerStep → Peer
  | .ret => p.ret
  | .destroyResources => p.destroyResources
  | .beginDestroy => { p with destroying := true }
  | .setLink connected hasSocket =>
    { p with connected := connected, hasSocket := hasSocket && p.hasSocket }
  | .setOnChannel onChannel => { p with onChannel := onChannel }
  | step =>
    if p.destroying then p
    else
      match step with
      | .setHandlers h onOpen onMessage onClose => p.setHandlers h onOpen onMessage onClose
      | .create label config memory => p.createChannel label config memory
      | .openChannel h sent => p.openChannel h sent
      | .send h sent => p.sendMessage h sent
      | .close h => p.closeChannel h
      | .dcep id data memory acked => p.handleDcep id data memory acked
      | .message id => p.handleMessage id
      | .streamReset id resetOutgoing => p.handleStreamReset id resetOutgoing
      | .allStreamsReset walk resetOutgoing memory =>
        p.handleAllStreamsReset walk resetOutgoing memory
      | _ => p

def peerMachine : Machine Peer PeerStep Unit where
  step := fun p step => (p.step step, ())

end TurboMedia.DataChannel
