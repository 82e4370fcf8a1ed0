import TurboMedia.Conference.RoomService

/-!
# What the parts of the voice control plane share

The statuses of `ivr/ivr_worker.h`, the result of a command, and the access control of
workers.
-/

namespace TurboMedia.Ivr

open Conference (literal)

/-- `ivr_status_t`. -/
inductive ControlStatus where
  | ok
  | einval
  | enospc
  | eclosed
  | estate
  | eauth
  | eversion
  | estale
  | ebusy
  | enotfound
deriving DecidableEq

/-- `ivr_room_command_result_t`. -/
structure RoomCommandResult where
  statusCode : ControlStatus
  roomVersion : UInt64
  sequence : UInt64
  errorMessage : CStr
  retryable : Bool
deriving DecidableEq

/-- The result after `memset`. -/
def RoomCommandResult.zero : RoomCommandResult :=
  ⟨.ok, 0, 0, [], false⟩

/-- `snprintf` into the error message of a result. -/
def RoomCommandResult.fail (result : RoomCommandResult) (status : ControlStatus)
    (message : CStr) : RoomCommandResult :=
  { result with statusCode := status, errorMessage := message.take 127 }

/-- `ivr_control_acl_entry_t`. -/
structure AclEntry where
  workerId : CStr
  tenantId : CStr
  roomScope : CStr
  callScope : CStr
  contentCapabilities : CStr

/-- `ivr_acl_scope_allows`: the tokens between commas. -/
def aclScopeAllows (scope value : CStr) : Bool :=
  if scope = [] ∨ value = [] then false
  else scope = literal "*" || (scope.splitOn 44).contains value

/-- `ivr_acl_tenant_allows`. -/
def aclTenantAllows (tenantId roomId : CStr) : Bool :=
  if roomId = [] then false
  else if tenantId = [] then true
  else
    tenantId.isPrefixOf roomId &&
      ((roomId.drop tenantId.length).isEmpty || (roomId.drop tenantId.length).head? == some 47)

/-- `ivr_control_acl_worker_allows`. -/
def aclWorkerAllows (acls : List AclEntry) (workerId roomId callId contentPackage : CStr) :
    Bool :=
  if acls = [] then true
  else
    match acls.find? (fun e => e.workerId == workerId) with
    | none => false
    | some entry =>
      aclTenantAllows entry.tenantId roomId && aclScopeAllows entry.roomScope roomId &&
        aclScopeAllows entry.callScope callId &&
        aclScopeAllows entry.contentCapabilities contentPackage

end TurboMedia.Ivr
