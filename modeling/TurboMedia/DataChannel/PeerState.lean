import TurboMedia.Lib.Machine

/-!
# The state of a peer

Model of `turbo_dc_state_t` and of everything that writes it: `dc_notify_state`,
`dc_fail_peer`, `dc_notify_closed`, `dc_peer_close_impl`, `dc_external_handshake_task`,
`dc_start_transport_task`, `dc_stream_state_cb` and the destruction of a peer in
`turbo_datachannel.c`, `dtls_process_handshake`, `dtls_handle_error` and
`dtls_handle_incoming` of `dtls_session.c`, `sctp_poll_status` and the notifications of
`sctp_inbound_packet_cb` of `sctp_session.c`.

**Input.**  Public calls, packets, the events of the stream transport, and the return of a
callback.  What the TLS library, usrsctp and the network answer is an argument of the input.

**Method.**  All of this runs on the owner thread.  A task is a list of actions; an action
that makes a callback leaves the rest of its task in `PeerLife.frames`, and until the callback
returns any other input may come.  `PeerLife.trace` is a history variable, newest first.
-/

namespace TurboMedia.DataChannel

/-- `turbo_dc_state_t`. -/
inductive PeerState where
  | new
  | connecting
  | connected
  | disconnecting
  | closed
  | failed
deriving DecidableEq

/-- The codes that `dc_fail_peer` is called with. -/
inductive PeerError where
  | createTransport
  | connectFailed
  | dtlsHandshake
  | dtlsFingerprint
  | sctpInit
  | sctpBind
  | sctpConnect
  | sctpReceive

/-- `turbo_dc_transport_t`. -/
inductive DcTransport where
  | udp
  | tcp
  | kcp
  | ice
deriving DecidableEq

/-- What `SSL_get_error` makes of a call that did not succeed. -/
inductive TlsError where
  | wantMore
  | closed
  | fatal

/-- What `SSL_do_handshake`, the fingerprint check and `sctp_start_association` answer. -/
inductive Handshake where
  | unfinished (error : TlsError)
  | badFingerprint
  | finished (association : Option PeerError)

/-- What usrsctp reports through `sctp_inbound_packet_cb`: a change of the association, a fragment
that blocks the reassembly, or something that leads to the callback of a channel. -/
inductive SctpReport where
  | commUp
  | restarted
  | lost
  | blocked
  | channel

/-- The rest of a task of the owner. -/
inductive Action where
  | writeConnecting
  | notifyConnecting
  | handshake (h : Handshake)
  | handshakeUnlessDone (h : Handshake)
  | sctp (report : SctpReport)
  | pollStatus (established : Bool)
  | readEnds (error : TlsError)
  | fail (code : PeerError)
  | publishFailed (old : PeerState)
  | notifyDisconnecting
  | closeSocket
  | notifyClosed
  | free

/-- What happens to the state of a peer.  A call of `on_state` is marked when `on_error` has not
returned. -/
inductive StateEvent where
  | moved (old target : PeerState)
  | onState (old target : PeerState) (duringError : Bool)
  | onError (code : PeerError)

/-- The fields of `turbo_dc_peer_s` and of its context that decide about the state; a handler is
there or not. -/
structure PeerLife where
  isServer : Bool
  transport : DcTransport
  disableSctp : Bool
  onState : Bool
  onError : Bool
  state : PeerState
  external : Bool
  directOps : Bool
  destroying : Bool
  deferredDestroy : Bool
  freed : Bool
  handshakeDone : Bool
  sctpConnected : Bool
  sctpSocket : Bool
  frames : List (List Action)
  trace : List StateEvent

/-- A peer as `turbo_dc_peer_create` leaves it, with its handlers. -/
def PeerLife.create (isServer : Bool) (transport : DcTransport)
    (disableSctp onState onError : Bool) :
    PeerLife where
  isServer := isServer
  transport := transport
  disableSctp := disableSctp
  onState := onState
  onError := onError
  state := .new
  external := false
  directOps := false
  destroying := false
  deferredDestroy := false
  freed := false
  handshakeDone := false
  sctpConnected := false
  sctpSocket := !disableSctp
  frames := []
  trace := []

section Writes

/-- `dc_state_transition_allowed`. -/
def stateTransitionAllowed (old target : PeerState) : Bool :=
  if old = target ∨ old = .closed then false
  else if old = .disconnecting then decide (target = .closed)
  else if old = .failed then decide (target = .disconnecting ∨ target = .closed)
  else true

variable (p : PeerLife)

/-- A callback of the peer is made: `dc_peer_callbacks_allowed` and the handler of `on_state`. -/
def PeerLife.mayReport : Bool :=
  p.onState && !p.deferredDestroy

def PeerLife.write (target : PeerState) : PeerLife :=
  if p.state = target then p
  else { p with state := target, trace := .moved p.state target :: p.trace }

/-- The callback of `on_error` has started and not returned: the rest of its task begins with
the end of `dc_fail_peer`. -/
def awaitsPublish : List Action → Option PeerState
  | .publishFailed old :: _ => some old
  | _ => none

/-- The failures that are still to be published. -/
def PeerLife.pending : List PeerState :=
  p.frames.filterMap awaitsPublish

/-- The handler of `on_state` is called. -/
def PeerLife.report (old target : PeerState) : PeerLife :=
  { p with trace := .onState old target (!p.pending.isEmpty) :: p.trace }

/-- `dc_notify_state`, and whether the callback has started. -/
def PeerLife.notifyState (target : PeerState) : PeerLife × Bool :=
  if stateTransitionAllowed p.state target then
    if p.mayReport then ((p.write target).report p.state target, true)
    else (p.write target, false)
  else (p, false)

/-- The end of `dc_fail_peer`: FAILED is published unless `on_error` has closed or destroyed the
peer. -/
def PeerLife.publishFailed (old : PeerState) : PeerLife × Bool :=
  if p.state = .failed ∧ p.mayReport then (p.report old .failed, true) else (p, false)

/-- The result of an action that makes at most one callback and has nothing left to do. -/
def afterCallback (result : PeerLife × Bool) : PeerLife × Option (List Action) :=
  (result.1, if result.2 then some [] else none)

/-- `dc_fail_peer`.  What is left to do when its callback returns comes with the peer. -/
def PeerLife.failPeer (code : PeerError) : PeerLife × Option (List Action) :=
  if p.state = .failed ∨ p.state = .disconnecting ∨ p.state = .closed then (p, none)
  else if p.onError ∧ p.deferredDestroy = false then
    ({ p.write .failed with trace := .onError code :: (p.write .failed).trace },
      some [.publishFailed p.state])
  else afterCallback ((p.write .failed).publishFailed p.state)

/-- `dtls_handle_error`. -/
def PeerLife.handleError : TlsError → PeerLife × Option (List Action)
  | .wantMore => (p, none)
  | .closed => afterCallback (p.notifyState .closed)
  | .fatal => p.failPeer .dtlsHandshake

/-- `dtls_process_handshake`. -/
def PeerLife.processHandshake : Handshake → PeerLife × Option (List Action)
  | .unfinished error => p.handleError error
  | .badFingerprint => p.failPeer .dtlsFingerprint
  | .finished association =>
    let p := { p with handshakeDone := true }
    if p.disableSctp then afterCallback (p.notifyState .connected)
    else
      match association with
      | some code => p.failPeer code
      | none => ({ p with sctpConnected := false }, none)

/-- The notifications of `sctp_inbound_packet_cb`, and its fragments that fail the peer. -/
def PeerLife.sctpReport (report : SctpReport) : PeerLife × Option (List Action) :=
  if p.destroying then (p, none)
  else
    match report with
    | .commUp => afterCallback ({ p with sctpConnected := true }.notifyState .connected)
    | .restarted => (p, none)
    | .lost => ({ p with sctpConnected := false }, none)
    | .blocked => p.failPeer .sctpReceive
    | .channel => (p, some [])

/-- `sctp_poll_status`. -/
def PeerLife.pollStatus (established : Bool) : PeerLife × Option (List Action) :=
  if p.sctpSocket && p.handshakeDone && !p.sctpConnected && established then
    afterCallback ({ p with sctpConnected := true }.notifyState .connected)
  else (p, none)

/-- One action.  A callback that has started comes with what its task does first when it
returns. -/
def Action.perform : Action → PeerLife × Option (List Action)
  | .writeConnecting => (p.write .connecting, none)
  | .notifyConnecting => afterCallback (p.notifyState .connecting)
  | .handshake h => p.processHandshake h
  | .handshakeUnlessDone h => if p.handshakeDone then (p, none) else p.processHandshake h
  | .sctp report => if p.handshakeDone then p.sctpReport report else (p, none)
  | .pollStatus established => p.pollStatus established
  | .readEnds error => if p.handshakeDone then p.handleError error else (p, none)
  | .fail code => p.failPeer code
  | .publishFailed old => afterCallback (p.publishFailed old)
  | .notifyDisconnecting => afterCallback (p.notifyState .disconnecting)
  | .closeSocket => ({ p with sctpSocket := false }, none)
  | .notifyClosed => afterCallback (p.notifyState .closed)
  | .free => ({ p with freed := true }, none)

/-- The actions of a task up to its end or to the start of a callback. -/
def PeerLife.perform : PeerLife → List Action → PeerLife
  | p, [] => p
  | p, action :: rest =>
    match action.perform p with
    | (p, none) => p.perform rest
    | (p, some first) => { p with frames := (first ++ rest) :: p.frames }

end Writes

/-- What the network answers to the start of a direct transport. -/
inductive Setup where
  | refused
  | noTimer
  | ready

/-- An application record: what usrsctp reports while it takes it, and the status afterwards. -/
structure AppRecord where
  reports : List SctpReport
  established : Bool

/-- `cnet_connection_state`, with what the preparation of a connection answers. -/
inductive StreamEvent where
  | connected (ready : Bool) (h : Handshake)
  | failed
  | closed

/-- `dc_start_transport_task`. -/
def startTransport (p : PeerLife) (setup : Setup) (h : Handshake) : PeerLife × List Action :=
  match p.transport, setup with
  | .kcp, _ => (p, [])
  | _, .refused => (p, [])
  | .tcp, _ => ({ p with directOps := true }, if p.isServer then [.notifyConnecting] else [])
  | _, .noTimer => ({ p with directOps := true }, [])
  | _, .ready =>
    ({ p with directOps := true },
      if p.isServer then [.notifyConnecting] else [.notifyConnecting, .handshake h])

/-- `turbo_dc_peer_connect`. -/
def connectTask (p : PeerLife) (setup : Setup) (h : Handshake) : PeerLife × List Action :=
  if p.external then (p, [.writeConnecting, .handshake h])
  else if p.transport = .ice then (p, [])
  else startTransport p setup h

/-- `dc_peer_close_impl`. -/
def closeImpl (p : PeerLife) : PeerLife × List Action :=
  ({ p with sctpConnected := false },
    if p.state = .closed then [] else [.notifyDisconnecting, .closeSocket, .notifyClosed])

/-- `dtls_handle_incoming`. -/
def handleIncoming (h : Handshake) (records : List AppRecord) (ending : TlsError) : List Action :=
  .handshakeUnlessDone h ::
    (records.flatMap (fun r => r.reports.map Action.sctp ++ [.pollStatus r.established]) ++
      [.readEnds ending])

/-- `dc_stream_state_cb`. -/
def streamState (p : PeerLife) : StreamEvent → List Action
  | .connected ready h =>
    if ready then
      if p.isServer then [.notifyConnecting] else [.notifyConnecting, .handshake h]
    else [.fail .createTransport]
  | .failed => [.fail .connectFailed]
  | .closed => [.notifyClosed]

/-- What the owner is given to do.  A packet comes through the public call or from the direct
transport; a peer is destroyed by its owner thread or by another one; usrsctp reports from its
timer, too. -/
inductive PeerInput where
  | setExternalTransport (attach timer : Bool)
  | connect (setup : Setup) (h : Handshake)
  | close
  | beginDestroy (onOwner : Bool)
  | finishDestroy
  | poll (established : Bool)
  | packet (fed : Bool) (h : Handshake) (records : List AppRecord) (ending : TlsError)
  | stream (event : StreamEvent)
  | timer (report : SctpReport)
  | callbackReturns

/-- `dc_peer_set_external_transport_owner_impl`. -/
def setExternalTransportImpl (p : PeerLife) (attach timer : Bool) : PeerLife :=
  if attach = false then { p with external := false }
  else if p.directOps ∨ timer = false then p
  else { p with external := true }

/-- The task of an input; a call of the application is admitted by `dc_peer_acquire`. -/
def PeerInput.task (p : PeerLife) : PeerInput → PeerLife × List Action
  | .setExternalTransport attach hasTimer =>
    if p.destroying then (p, []) else (setExternalTransportImpl p attach hasTimer, [])
  | .connect setup h => if p.destroying then (p, []) else connectTask p setup h
  | .close => if p.destroying then (p, []) else closeImpl p
  | .beginDestroy onOwner =>
    if p.destroying then (p, [])
    else ({ p with destroying := true, deferredDestroy := onOwner }, [])
  | .finishDestroy =>
    if p.destroying ∧ p.frames = [] then ((closeImpl p).1, (closeImpl p).2 ++ [.free])
    else (p, [])
  | .poll established => if p.destroying then (p, []) else (p, [.pollStatus established])
  | .packet fed h records ending =>
    if fed ∧ p.destroying then (p, []) else (p, handleIncoming h records ending)
  | .stream event => (p, streamState p event)
  | .timer report => (p, [.sctp report])
  | .callbackReturns =>
    match p.frames with
    | [] => (p, [])
    | rest :: frames => ({ p with frames := frames }, rest)

/-- The peer with its owner, one input after the other, until it is freed. -/
def lifeMachine : Machine PeerLife PeerInput Unit where
  step := fun p input =>
    (if p.freed then p else (input.task p).1.perform (input.task p).2, ())

end TurboMedia.DataChannel
