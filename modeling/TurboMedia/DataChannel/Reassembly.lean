import TurboMedia.Lib.Machine
import TurboMedia.Lib.SlotTable

/-!
# Receive reassembly

Model of the receive side of `sctp_session.c`: `sctp_reassemble_message`, the clear
operations, the handlers of the notifications and the dispatch of a complete message in
`sctp_inbound_packet_cb`.

**Input.**  What usrsctp hands to the callback while the peer can be acquired: fragments of
messages and notifications.  A fragment comes with what `malloc` returns.  A notification of
an aborted partial delivery does not say whether the message was ordered; the constructor
carries that for the statements only, and no function reads it.

**Method.**  A slot that is not used is `none`; a slot whose buffer was freed holds no bytes.
What happens to the channels when a stream is reset is in `TurboMedia.DataChannel.Channels`.
-/

namespace TurboMedia.DataChannel

section Slots

/-- What tells the messages of a peer apart while they arrive. -/
structure MessageKey where
  association : ℕ
  streamId : UInt16
  streamSequence : UInt16
  unordered : Bool
deriving DecidableEq

/-- A call of the receive callback with data. -/
structure Fragment where
  key : MessageKey
  ppid : UInt32
  eor : Bool
  bytes : List UInt8
  memory : Bool
deriving DecidableEq

/-- `sctp_reassembly_slot_t` in use. -/
structure ReassemblySlot where
  key : MessageKey
  ppid : UInt32
  data : List UInt8
  discarding : Bool

/-- The reassembly of `sctp_session_t`. -/
structure Reassembly where
  slots : List (Option ReassemblySlot)
  blocked : Bool

/-- `SCTP_REASSEMBLY_MESSAGE_MAX`. -/
def messageMax : ℕ := 24 * 1024

/-- `SCTP_REASSEMBLY_SLOTS`. -/
def reassemblySlots : ℕ := 8

def Reassembly.empty : Reassembly :=
  ⟨List.replicate reassemblySlots none, false⟩

variable (s : Reassembly)

def Reassembly.find (key : MessageKey) : Option (ℕ × ReassemblySlot) :=
  SlotTable.findOccupied (fun slot => slot.key == key) s.slots

def Reassembly.free : Option ℕ :=
  s.slots.findIdx? Option.isNone

def Reassembly.set (i : ℕ) (slot : Option ReassemblySlot) : Reassembly :=
  { s with slots := s.slots.set i slot }

/-- The slots for which a condition does not hold. -/
def Reassembly.keep (p : ReassemblySlot → Bool) : Reassembly :=
  { s with slots := s.slots.map (fun slot => slot.filter p) }

/-- `sctp_reassembly_clear_identity`. -/
def Reassembly.clearIdentity (association : ℕ) (streamId streamSequence : UInt16) : Reassembly :=
  s.keep (fun slot => !(slot.key.association == association && slot.key.streamId == streamId &&
    slot.key.streamSequence == streamSequence))

/-- `sctp_reassembly_clear_stream`. -/
def Reassembly.clearStream (association : ℕ) (streamId : UInt16) : Reassembly :=
  s.keep (fun slot => !(slot.key.association == association && slot.key.streamId == streamId))

end Slots

section Messages

/-- `sctp_reassembly_result_t`. -/
inductive ReassemblyResult where
  | pending
  | ready (message : List UInt8)
  | rejected

variable (s : Reassembly) (f : Fragment)

/-- The fragment is invalid for every message. -/
def Fragment.isInvalid : Bool :=
  f.bytes.isEmpty || decide (messageMax < f.bytes.length)

/-- The slot of a message that is thrown away up to its end. -/
def Reassembly.discard (i : ℕ) (slot : ReassemblySlot) : Reassembly :=
  s.set i (if f.eor then none else some { slot with data := [], discarding := true })

/-- The end of `sctp_reassemble_message`: the bytes are appended to a slot. -/
def Reassembly.append (i : ℕ) (slot : ReassemblySlot) : Reassembly × ReassemblyResult :=
  if messageMax - slot.data.length < f.bytes.length then (s.discard f i slot, .rejected)
  else if f.eor then (s.set i none, .ready (slot.data ++ f.bytes))
  else (s.set i (some { slot with data := slot.data ++ f.bytes }), .pending)

/-- `sctp_reassemble_message` for a fragment of a message with a slot. -/
def Reassembly.continueMessage (i : ℕ) (slot : ReassemblySlot) : Reassembly × ReassemblyResult :=
  if f.isInvalid then (s.discard f i slot, .rejected)
  else if slot.ppid ≠ f.ppid then ({ s.set i none with blocked := !f.eor }, .rejected)
  else if slot.discarding then (if f.eor then s.set i none else s, .rejected)
  else s.append f i slot

/-- `sctp_reassemble_message` for a fragment of a message without a slot. -/
def Reassembly.startMessage : Reassembly × ReassemblyResult :=
  let slot : ReassemblySlot := ⟨f.key, f.ppid, [], false⟩
  if f.eor then (s, if f.isInvalid then .rejected else .ready f.bytes)
  else
    match s.free with
    | none => ({ Reassembly.empty with blocked := true }, .rejected)
    | some i =>
      if f.isInvalid ∨ f.memory = false then
        (s.set i (some { slot with discarding := true }), .rejected)
      else s.append f i slot

/-- `sctp_reassemble_message`. -/
def Reassembly.reassemble : Reassembly × ReassemblyResult :=
  if s.blocked then (s, .rejected)
  else
    match s.find f.key with
    | some (i, slot) => s.continueMessage f i slot
    | none => s.startMessage f

end Messages

/-- What the callback hands on: to `dcep_handle_message`, or to `on_message`. -/
inductive Handed where
  | dcep (streamId : UInt16) (data : List UInt8)
  | message (streamId : UInt16) (data : List UInt8) (isBinary : Bool)
deriving DecidableEq

/-- The dispatch of a complete message on its payload protocol identifier: DCEP, string, binary,
and the two that stand for an empty message. -/
def dispatch (streamId : UInt16) (ppid : UInt32) (message : List UInt8) : Option Handed :=
  if ppid = 50 then some (.dcep streamId message)
  else if ppid = 51 ∨ ppid = 53 then
    if message = [] then none else some (.message streamId message (ppid == 53))
  else if ppid = 56 ∨ ppid = 57 then
    if message = [0] then some (.message streamId [] (ppid == 57)) else none
  else none

/-- What usrsctp hands to the callback. -/
inductive SctpInput where
  | fragment (f : Fragment)
  | partialDelivery (association : ℕ) (stream sequence : UInt32) (unordered aborted : Bool)
  | streamReset (association : ℕ) (streams : List UInt16) (incoming refused : Bool)
  | restarted (association : ℕ)
  | lost (association : ℕ)

/-- `sctp_inbound_packet_cb`. -/
def Reassembly.inbound (s : Reassembly) : SctpInput → Reassembly × Option Handed
  | .fragment f =>
    match s.reassemble f with
    | (s', .ready message) => (s', dispatch f.key.streamId f.ppid message)
    | (s', _) => (s', none)
  | .partialDelivery association stream sequence _ aborted =>
    (if aborted then s.clearIdentity association stream.toUInt16 sequence.toUInt16 else s,
      none)
  | .streamReset association streams incoming refused =>
    if refused ∨ incoming = false then (s, none)
    else if streams = [] then (.empty, none)
    else (streams.foldl (fun s streamId => s.clearStream association streamId) s, none)
  | .restarted _ => (.empty, none)
  | .lost _ => (.empty, none)

end TurboMedia.DataChannel
