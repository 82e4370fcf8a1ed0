import Mathlib.Tactic

/-!
# What the parts of the voice worker share

The statuses and the call references of `ivr/ivr_worker.h`.  The tenant and the expected room
version of a reference are carried along and not read, and they are left out.
-/

namespace TurboMedia.Ivr

/-- `ivr_status_t`, as far as the modelled functions answer it. -/
inductive IvrStatus where
  | ok
  | einval
  | enospc
  | estate
deriving DecidableEq

/-- `ivr_call_ref_t`: four byte views and a generation. -/
structure CallRef where
  providerSessionId : List UInt8
  dialogId : List UInt8
  roomId : List UInt8
  callId : List UInt8
  callGeneration : UInt64
deriving DecidableEq

/-- None of the identifiers has a zero byte inside. -/
def CallRef.Plain (call : CallRef) : Prop :=
  0 ∉ call.providerSessionId ∧ 0 ∉ call.dialogId ∧ 0 ∉ call.roomId ∧ 0 ∉ call.callId

end TurboMedia.Ivr
