import TurboMedia.Lib.Acceptor

/-!
# The owner thread of a DataChannel context

Model of the hand-off of commands in `turbo_datachannel.c`: `dc_post_sync`,
`dc_transport_thread_main`, `dc_peer_acquire`, `dc_peer_release`, `dc_peer_begin_destroy`,
`dc_peer_finish_destroy`, `dc_reap_deferred_peers`, `dc_context_close_peer_admission` and
`turbo_dc_context_destroy`.

**Input.**  The steps of any number of threads in any order.  A step is a critical section, or
what its thread does between two of them.  A peer is used as long as it is linked, and the
context is destroyed once.

**Method.**  A call of `dc_post_sync` is a number; a wait on a condition variable is a step
that is refused until the condition holds.  `LinkedPeer.active` are the calls that
`active_operations` counts.  `Call.starts` and `Call.finishes` count how often the command of
a call was started and has returned; no step reads them.
-/

namespace TurboMedia.DataChannel

/-- Why a command is posted: a public call under `dc_peer_acquire`, the end of the destruction
of a peer by another thread or by the owner, or the destruction of the context. -/
inductive CallKind where
  | operation (peer : ℕ)
  | destroyer (peer : ℕ)
  | reaper (peer : ℕ)
  | admission
deriving DecidableEq

/-- What `dc_post_sync` returns. -/
inductive PostStatus where
  | ok
  | shutdown
deriving DecidableEq

/-- Where the thread of a call is: it drains the operations of the peer, is before the first
critical section of `dc_post_sync`, waits for its command, has left the critical section, runs
the command itself, has returned from `dc_post_sync`, or has released the peer. -/
inductive CallPc where
  | unused
  | draining
  | admitted
  | waiting
  | left
  | inlined
  | returned (status : PostStatus)
  | ended
deriving DecidableEq

/-- A call of `dc_post_sync`. -/
structure Call where
  kind : CallKind
  pc : CallPc
  starts : ℕ
  finishes : ℕ

/-- A peer in the list of its context. -/
structure LinkedPeer where
  linked : Bool
  destroying : Bool
  deferredDestroy : Bool
  active : List ℕ

/-- Where the owner thread is. -/
inductive OwnerPc where
  | loop
  | picked (c : ℕ)
  | running (c : ℕ)
  | ran (c : ℕ)
  | stopped
deriving DecidableEq

/-- `turbo_dc_context_t` and its threads. -/
structure DcContext where
  destroying : Bool
  stopRequested : Bool
  pending : Bool
  done : Bool
  command : ℕ
  owner : OwnerPc
  inlined : List ℕ
  peers : ℕ → LinkedPeer
  peerCount : ℕ
  calls : ℕ → Call
  callCount : ℕ

/-- A context as `turbo_dc_context_create` leaves it. -/
def DcContext.create : DcContext where
  destroying := false
  stopRequested := false
  pending := false
  done := false
  command := 0
  owner := .loop
  inlined := []
  peers := fun _ => ⟨false, false, false, []⟩
  peerCount := 0
  calls := fun _ => ⟨.admission, .unused, 0, 0⟩
  callCount := 0

/-- `turbo_dc_peer_destroy` on the owner thread. -/
def LinkedPeer.defer (peer : LinkedPeer) : LinkedPeer :=
  if peer.linked && !peer.destroying then { peer with destroying := true, deferredDestroy := true }
  else peer

namespace DcContext

variable (s : DcContext)

def newCall (kind : CallKind) (pc : CallPc) (starts : ℕ) : DcContext :=
  { s with
    calls := Function.update s.calls s.callCount ⟨kind, pc, starts, 0⟩
    callCount := s.callCount + 1 }

def setPc (c : ℕ) (pc : CallPc) : DcContext :=
  { s with calls := Function.update s.calls c { s.calls c with pc := pc } }

def setPeer (j : ℕ) (peer : LinkedPeer) : DcContext :=
  { s with peers := Function.update s.peers j peer }

def starting (c : ℕ) : DcContext :=
  { s with calls := Function.update s.calls c { s.calls c with starts := (s.calls c).starts + 1 } }

def finishing (c : ℕ) : DcContext :=
  { s with
    calls := Function.update s.calls c { s.calls c with finishes := (s.calls c).finishes + 1 } }

/-- The owner is in code of the application: in a command, or in a callback of a poll. -/
def ownerCalls : Bool :=
  match s.owner with
  | .loop => true
  | .running _ => true
  | _ => false

/-- A peer that is linked and not being destroyed. -/
def admits (j : ℕ) : Bool :=
  (s.peers j).linked && !(s.peers j).destroying

/-- `dc_context_close_peer_admission`. -/
def closeAdmission : DcContext :=
  { s with peers := fun j => (s.peers j).defer }

end DcContext

/-- What a thread does next. -/
inductive HandoffStep where
  | createPeer
  | acquire (j : ℕ)
  | destroyPeer (j : ℕ)
  | drained (c : ℕ)
  | destroyContext
  | enter (c : ℕ)
  | leave (c : ℕ)
  | readStop (c : ℕ)
  | release (c : ℕ)
  | peersDrained (c : ℕ)
  | stop (c : ℕ)
  | pick
  | start
  | finish
  | complete
  | exit
  | inlineCall (j : ℕ)
  | inlineFinish
  | ownerDestroy (j : ℕ)
  | reap (j : ℕ)

namespace DcContext

variable (s : DcContext)

/-- `turbo_dc_peer_create`. -/
def createPeer : Option DcContext :=
  if s.destroying then none
  else some { s.setPeer s.peerCount ⟨true, false, false, []⟩ with peerCount := s.peerCount + 1 }

/-- `dc_peer_acquire` of a call that goes on to `dc_post_sync` at `pc`. -/
def acquire (j : ℕ) (pc : CallPc) (starts : ℕ) : DcContext :=
  (s.setPeer j { s.peers j with active := s.callCount :: (s.peers j).active }).newCall
    (.operation j) pc starts

/-- `dc_peer_begin_destroy` on another thread than the owner, up to its wait. -/
def destroyPeer (j : ℕ) : Option DcContext :=
  if s.admits j then
    some ((s.setPeer j { s.peers j with destroying := true }).newCall (.destroyer j) .draining 0)
  else none

variable (c : ℕ)

/-- The end of the wait in `dc_peer_begin_destroy`. -/
def drained : Option DcContext :=
  match (s.calls c).kind with
  | .destroyer j =>
    if (s.calls c).pc = .draining ∧ (s.peers j).active = [] then some (s.setPc c .admitted)
    else none
  | _ => none

/-- The first critical section of `dc_post_sync`, up to its second wait. -/
def enter : Option DcContext :=
  if (s.calls c).pc = .admitted ∧ (s.pending = false ∨ s.stopRequested = true) then
    if s.stopRequested then some (s.setPc c (.returned .shutdown))
    else some { s.setPc c .waiting with command := c, done := false, pending := true }
  else none

/-- The end of the critical section of `dc_post_sync`. -/
def leave : Option DcContext :=
  if (s.calls c).pc = .waiting ∧ (s.done = true ∨ s.stopRequested = true) then
    some { s.setPc c .left with pending := false }
  else none

/-- `dc_post_sync` returns. -/
def readStop : Option DcContext :=
  if (s.calls c).pc = .left then
    some (s.setPc c (.returned (if s.stopRequested then .shutdown else .ok)))
  else none

/-- `dc_peer_release`, or `dc_peer_unlink_from_context` when the destruction was dispatched. -/
def release : Option DcContext :=
  match (s.calls c).pc, (s.calls c).kind with
  | .returned _, .operation j =>
    some ((s.setPeer j { s.peers j with active := (s.peers j).active.erase c }).setPc c .ended)
  | .returned .ok, .destroyer j =>
    some ((s.setPeer j { s.peers j with linked := false }).setPc c .ended)
  | .returned .shutdown, .destroyer _ => some (s.setPc c .ended)
  | _, _ => none

/-- The end of the wait for the peers in `turbo_dc_context_destroy`. -/
def peersDrained : Option DcContext :=
  match (s.calls c).pc, (s.calls c).kind with
  | .returned _, .admission =>
    if ∀ j < s.peerCount, (s.peers j).linked = false then some (s.setPc c .ended) else none
  | _, _ => none

/-- `turbo_dc_context_destroy` tells the owner to stop. -/
def stop : Option DcContext :=
  if (s.calls c).pc = .ended ∧ (s.calls c).kind = .admission then
    some { s with stopRequested := true }
  else none

def pick : Option DcContext :=
  if s.owner = .loop ∧ s.inlined = [] ∧ s.stopRequested = false ∧ s.pending = true ∧
      s.done = false then
    some { s with owner := .picked s.command }
  else none

def start : Option DcContext :=
  match s.owner with
  | .picked c => some { s.starting c with owner := .running c }
  | _ => none

def finish : Option DcContext :=
  match s.owner with
  | .running c =>
    if s.inlined = [] then
      let s' := { s.finishing c with owner := .ran c }
      some (if (s.calls c).kind = .admission then s'.closeAdmission else s')
    else none
  | _ => none

def complete : Option DcContext :=
  match s.owner with
  | .ran _ => some { s with done := true, owner := .loop }
  | _ => none

def exit : Option DcContext :=
  if s.owner = .loop ∧ s.inlined = [] ∧ s.stopRequested = true then
    some { s with owner := .stopped }
  else none

/-- A callback on the owner thread makes a public call; `dc_post_sync` runs it at once. -/
def inlineCall (j : ℕ) : Option DcContext :=
  if s.ownerCalls ∧ s.admits j then
    some { s.acquire j .inlined 1 with inlined := s.callCount :: s.inlined }
  else none

/-- A command returns that the owner runs without the slot; a peer that was reaped is
unlinked. -/
def inlineFinish : Option DcContext :=
  match s.inlined with
  | [] => none
  | c :: rest =>
    let s' := { s.finishing c with inlined := rest }
    match (s.calls c).kind with
    | .reaper j => some ((s'.setPeer j { s.peers j with linked := false }).setPc c .ended)
    | _ => some (s'.setPc c (.returned .ok))

/-- `turbo_dc_peer_destroy` on the owner thread. -/
def ownerDestroy (j : ℕ) : Option DcContext :=
  if s.ownerCalls ∧ s.admits j then some (s.setPeer j (s.peers j).defer) else none

/-- `dc_reap_deferred_peers` finds a peer and begins `dc_peer_finish_destroy`. -/
def reap (j : ℕ) : Option DcContext :=
  if s.owner = .loop ∧ s.inlined = [] ∧ (s.peers j).linked = true ∧
      (s.peers j).deferredDestroy = true ∧ (s.peers j).active = [] then
    some { s.newCall (.reaper j) .inlined 1 with inlined := [s.callCount] }
  else none

end DcContext

/-- The threads of a context, one step after the other. -/
def handoff : Acceptor DcContext HandoffStep where
  step := fun s step =>
    match step with
    | .createPeer => s.createPeer
    | .acquire j => if s.admits j then some (s.acquire j .admitted 0) else none
    | .destroyPeer j => s.destroyPeer j
    | .drained c => s.drained c
    | .destroyContext =>
      if s.destroying then none
      else some ({ s with destroying := true }.newCall .admission .admitted 0)
    | .enter c => s.enter c
    | .leave c => s.leave c
    | .readStop c => s.readStop c
    | .release c => s.release c
    | .peersDrained c => s.peersDrained c
    | .stop c => s.stop c
    | .pick => s.pick
    | .start => s.start
    | .finish => s.finish
    | .complete => s.complete
    | .exit => s.exit
    | .inlineCall j => s.inlineCall j
    | .inlineFinish => s.inlineFinish
    | .ownerDestroy j => s.ownerDestroy j
    | .reap j => s.reap j

end TurboMedia.DataChannel
