import TurboMedia.Ivr.ControlPlane
import TurboMedia.Lib.SlotTable

/-!
# Joining and leaving over the control plane

Model of the part of `ivr_control_adapter.c` that applies `conference.join`,
`conference.leave` and `get_snapshot` to the room service, with the bounded table of
per-call sequence numbers.

**Input.**  The commands as `ivr_control_adapter_apply` gets them; the room service is that
of `Conference.RoomService`.  A slot of the table that is not valid is `none`.
-/

namespace TurboMedia.Ivr

open Conference (literal RoomService ParticipantRole RoomParticipant ParticipantConfig onRoom)

/-- The commands of `ivr_control_adapter_apply` that name a room. -/
inductive ConferenceCommandKind where
  | join
  | leave
  | snapshot

/-- `ivr_room_command_t`, as far as these commands read it. -/
structure ConferenceCommand where
  command : ConferenceCommandKind
  workerId : CStr
  roomId : CStr
  callId : CStr
  callGeneration : UInt64
  participantRole : CStr

/-- `ivr_control_call_seq_t`. -/
structure CallSeq where
  roomId : CStr
  callId : CStr
  callGeneration : UInt64
  lastSequence : UInt64
deriving DecidableEq

/-- `seq_entries`. -/
abbrev SeqTable := List (Option CallSeq)

/-- `ivr_control_call_seq_matches`. -/
def CallSeq.isFor (cmd : ConferenceCommand) (entry : CallSeq) : Bool :=
  entry.callGeneration == cmd.callGeneration && entry.roomId == cmd.roomId &&
    entry.callId == cmd.callId

/-- `ivr_control_seq_current`. -/
def seqCurrent (entries : SeqTable) (cmd : ConferenceCommand) : UInt64 :=
  match SlotTable.findOccupied (CallSeq.isFor cmd) entries with
  | some (_, entry) => entry.lastSequence
  | none => 0

/-- The entry of a call without one; both texts have 64 bytes in the entry. -/
def firstSequence (cmd : ConferenceCommand) : CallSeq :=
  ⟨cmd.roomId.take 63, cmd.callId.take 63, cmd.callGeneration, 1⟩

/-- The end of `ivr_control_seq_next`: the free slot, if one was passed, is taken. -/
def seqTakeFree (entries passed : SeqTable) (cmd : ConferenceCommand) : SeqTable × UInt64 :=
  match passed.findIdx? Option.isNone with
  | some free => (entries.set free (some (firstSequence cmd)), 1)
  | none => (entries, 0)

/-- `ivr_control_seq_next`. -/
def seqNext (entries : SeqTable) (cmd : ConferenceCommand) : SeqTable × UInt64 :=
  match SlotTable.findOccupied (CallSeq.isFor cmd) entries with
  | some (i, entry) =>
    let advanced := { entry with lastSequence := entry.lastSequence + 1 }
    let entries1 := entries.set i (some advanced)
    if advanced.lastSequence = 0 then seqTakeFree entries1 (entries1.take i) cmd
    else (entries1, advanced.lastSequence)
  | none => seqTakeFree entries entries cmd

/-- `ivr_control_seq_rollback`. -/
def seqRollback (entries : SeqTable) (cmd : ConferenceCommand) : SeqTable :=
  match SlotTable.findOccupied (CallSeq.isFor cmd) entries with
  | some (i, entry) =>
    if 1 < entry.lastSequence then
      entries.set i (some { entry with lastSequence := entry.lastSequence - 1 })
    else entries.set i none
  | none => entries

section Commands

/-- The part of `ivr_control_adapter_s` that these commands read. -/
structure ConferenceControl where
  service : RoomService
  seqEntries : SeqTable
  acls : List AclEntry
  contentPackage : CStr
  aclRejects : UInt64

/-- `ivr_control_room_version`. -/
def roomVersion (service : RoomService) (roomId : CStr) : UInt64 :=
  match service.room? roomId with
  | none => 0
  | some room => UInt64.ofInt room.version

/-- `turbo_room_service_get_participant_summary`. -/
def participant? (service : RoomService) (roomId callId : CStr) : Option RoomParticipant :=
  (service.room? roomId).bind (fun room => room.findParticipant callId)

/-- `ivr_control_role_for`. -/
def controlRoleFor (role : CStr) : Option ParticipantRole :=
  if role = literal "caller" ∨ role = literal "customer" then some .customer
  else if role = literal "agent" then some .agent
  else if role = literal "bot" then some .bot
  else if role = literal "supervisor" then some .supervisor
  else if role = literal "guest" then some .guest
  else none

def joinConfig (cmd : ConferenceCommand) (role : ParticipantRole) : ParticipantConfig where
  participantId := some cmd.callId
  callGeneration := cmd.callGeneration
  userId := some []
  displayName := some cmd.callId
  role := role

variable (a : ConferenceControl) (cmd : ConferenceCommand)

/-- The answer to a command that has been applied. -/
def applied (service : RoomService) (sequence : UInt64) : RoomCommandResult :=
  { RoomCommandResult.zero with
    roomVersion := roomVersion service cmd.roomId
    sequence := sequence }

/-- A join of somebody who is there with the same role. -/
def joinAgain : ConferenceControl × RoomCommandResult :=
  let seq := seqCurrent a.seqEntries cmd
  if seq = 0 then
    let next := seqNext a.seqEntries cmd
    ({ a with seqEntries := next.1 }, applied cmd a.service next.2)
  else (a, applied cmd a.service seq)

def joinNew (role : ParticipantRole) : ConferenceControl × RoomCommandResult :=
  let next := seqNext a.seqEntries cmd
  if next.2 = 0 then
    ({ a with seqEntries := next.1 },
      RoomCommandResult.zero.fail .enospc (literal "per-call sequence table full"))
  else
    let added := onRoom a.service cmd.roomId (.addParticipant (joinConfig cmd role))
    if added.2 then
      ({ a with service := added.1, seqEntries := next.1 }, applied cmd added.1 next.2)
    else
      ({ a with service := added.1, seqEntries := seqRollback next.1 cmd },
        RoomCommandResult.zero.fail .estate
          (literal "add_participant failed for " ++ cmd.callId ++ literal " in room " ++
            cmd.roomId))

/-- `ivr_control_apply_join`. -/
def applyJoin : ConferenceControl × RoomCommandResult :=
  match controlRoleFor cmd.participantRole with
  | none =>
    (a, RoomCommandResult.zero.fail .einval
      (literal "unsupported participant_role '" ++ cmd.participantRole ++ literal "'"))
  | some role =>
    if roomVersion a.service cmd.roomId = 0 then
      (a, RoomCommandResult.zero.fail .estate (literal "room not found: " ++ cmd.roomId))
    else
      match participant? a.service cmd.roomId cmd.callId with
      | some existing =>
        if existing.role ≠ role then
          (a, RoomCommandResult.zero.fail .estate (literal "participant " ++ cmd.callId ++
              literal " already joined with a different role"))
        else joinAgain a cmd
      | none => joinNew a cmd role

/-- `ivr_control_apply_leave`. -/
def applyLeave : ConferenceControl × RoomCommandResult :=
  match participant? a.service cmd.roomId cmd.callId with
  | none =>
    (a, RoomCommandResult.zero.fail .estate
      (literal "no participant " ++ cmd.callId ++ literal " in room " ++ cmd.roomId))
  | some _ =>
    let next := seqNext a.seqEntries cmd
    if next.2 = 0 then
      ({ a with seqEntries := next.1 },
        RoomCommandResult.zero.fail .enospc (literal "per-call sequence table full"))
    else
      let removed := onRoom a.service cmd.roomId (.removeParticipant cmd.callId)
      if removed.2 then
        ({ a with service := removed.1, seqEntries := next.1 }, applied cmd removed.1 next.2)
      else
        ({ a with service := removed.1, seqEntries := seqRollback next.1 cmd },
          RoomCommandResult.zero.fail .estate
            (literal "remove_participant failed for " ++ cmd.callId ++ literal " in room " ++
              cmd.roomId))

/-- `ivr_control_apply_snapshot`. -/
def applySnapshot : ConferenceControl × RoomCommandResult :=
  if roomVersion a.service cmd.roomId = 0 then
    (a, RoomCommandResult.zero.fail .estate (literal "room not found: " ++ cmd.roomId))
  else (a, applied cmd a.service (seqCurrent a.seqEntries cmd))

/-- `ivr_control_adapter_authorize`: the reason of a refusal. -/
def refusal : Option CStr :=
  if a.acls = [] then none
  else if cmd.workerId = [] then some (literal "worker identity missing")
  else if aclWorkerAllows a.acls cmd.workerId cmd.roomId cmd.callId a.contentPackage then none
  else some (literal "worker " ++ cmd.workerId ++ literal " not authorized for room/call scope")

/-- `ivr_control_adapter_apply` for the commands that name a room. -/
def applyCommand : ConferenceControl × RoomCommandResult :=
  match refusal a cmd with
  | some reason =>
    ({ a with aclRejects := a.aclRejects + 1 },
      { RoomCommandResult.zero.fail .eauth reason with
        roomVersion := roomVersion a.service cmd.roomId })
  | none =>
    match cmd.command with
    | .join => applyJoin a cmd
    | .leave => applyLeave a cmd
    | .snapshot => applySnapshot a cmd

end Commands

/-- A room is created, or a command is applied. -/
inductive ConferenceCall where
  | createRoom (config : Conference.RoomConfig)
  | apply (cmd : ConferenceCommand)

/-- The adapter over the room service; only commands are answered with a result. -/
def conferenceMachine : Machine ConferenceControl ConferenceCall (Option RoomCommandResult) where
  step := fun a call =>
    match call with
    | .createRoom config => ({ a with service := (Conference.createRoom a.service config).1 }, none)
    | .apply cmd => ((applyCommand a cmd).1, some (applyCommand a cmd).2)

/-- `ivr_control_adapter_create`; no capacity means 256. -/
def ConferenceControl.create (acls : List AclEntry) (contentPackage : CStr)
    (seqCapacity : ℕ) : ConferenceControl where
  service := .fresh
  seqEntries := List.replicate (if seqCapacity = 0 then 256 else seqCapacity) none
  acls := acls
  contentPackage := contentPackage
  aclRejects := 0

end TurboMedia.Ivr
