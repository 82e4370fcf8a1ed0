import TurboMedia.Ivr.Worker
import TurboMedia.Lib.Machine

/-!
# Keypresses from RTP

Model of `ivr_dtmf_rtp.c`.  A table of windows, one for each call that takes input; the
payload of an RTP telephone event is turned into a digit once its last packet has come.

Each call holds the lock from the look-up of the window to its end and is one step.  An array
of characters in a window is the string it holds, up to the first zero byte.  Null arguments
are left out, and memory is allocated.
-/

namespace TurboMedia.Ivr

/-- `IVR_DTMF_ID_MAX`, `IVR_DTMF_DEFAULT_WINDOWS` and `IVR_DTMF_DEFAULT_MAX_DURATION`. -/
def dtmfIdMax : ℕ := 128
def dtmfDefaultWindows : ℕ := 64
def dtmfDefaultMaxDuration : ℕ := 48000

/-- `ivr_dtmf_window_t`. -/
structure DtmfWindow where
  valid : Bool
  active : Bool
  call : CallRef
  inputId : List UInt8
  inputGeneration : UInt64
  lastSourceGeneration : UInt64
  lastRtpTimestamp : UInt32
  lastEvent : UInt8
  hasFinal : Bool
deriving DecidableEq

/-- A window after `memset`. -/
def DtmfWindow.zero : DtmfWindow :=
  ⟨false, false, ⟨[], [], [], [], 0⟩, [], 0, 0, 0, 0, false⟩

/-- `ivr_dtmf_ingress_config_t`. -/
structure DtmfConfig where
  windowCapacity : ℕ
  maxDuration : ℕ

/-- `ivr_dtmf_ingress_s`. -/
structure DtmfIngress where
  windows : List DtmfWindow
  maxDuration : ℕ
deriving DecidableEq

/-- `ivr_dtmf_input_t`. -/
structure DtmfInput where
  call : CallRef
  inputId : List UInt8
  inputGeneration : UInt64
  sourceGeneration : UInt64
  rtpTimestamp : UInt32
  digit : Char
  duration : ℕ
  ended : Bool

/-- The string that an array of characters holds. -/
def cString (bytes : List UInt8) : List UInt8 :=
  bytes.takeWhile (· ≠ 0)

/-- `copy_view`. -/
def copyView (view : List UInt8) : Option (List UInt8) :=
  if view = [] ∨ view.length ≥ dtmfIdMax then none else some (cString view)

/-- `call_matches`. -/
def callMatches (window : DtmfWindow) (call : CallRef) : Bool :=
  window.valid && decide (window.call = call)

/-- `find_window`. -/
def findWindow (s : DtmfIngress) (call : CallRef) : Option ℕ :=
  s.windows.findIdx? (fun window => callMatches window call)

/-- `event_digit`. -/
def eventDigit (event : UInt8) : Option Char :=
  "0123456789*#ABCD".toList[event.toNat]?

/-- The identifiers are copied one after the other, up to the first that can not be. -/
def copyCall (window : DtmfWindow) (call : CallRef) : Except DtmfWindow DtmfWindow :=
  match copyView call.providerSessionId with
  | none => .error window
  | some provider =>
    let window := { window with call := { window.call with providerSessionId := provider } }
    match copyView call.dialogId with
    | none => .error window
    | some dialog =>
      let window := { window with call := { window.call with dialogId := dialog } }
      match copyView call.roomId with
      | none => .error window
      | some room =>
        let window := { window with call := { window.call with roomId := room } }
        match copyView call.callId with
        | none => .error window
        | some callId => .ok { window with call := { window.call with callId := callId } }

/-- `ivr_dtmf_ingress_create`. -/
def dtmfIngressCreate (config : Option DtmfConfig) : Except IvrStatus DtmfIngress :=
  let capacity := match config with
    | some c => if c.windowCapacity ≠ 0 then c.windowCapacity else dtmfDefaultWindows
    | none => dtmfDefaultWindows
  let maxDuration := match config with
    | some c => if c.maxDuration ≠ 0 then c.maxDuration else dtmfDefaultMaxDuration
    | none => dtmfDefaultMaxDuration
  if capacity = 0 ∨ capacity > 4096 then .error .einval
  else .ok ⟨List.replicate capacity DtmfWindow.zero, maxDuration⟩

/-- The window that a new input is given: that of the call, or the first that is not in
use. -/
def windowFor (s : DtmfIngress) (call : CallRef) : Option ℕ :=
  match findWindow s call with
  | some i => some i
  | none => s.windows.findIdx? (fun window => !window.valid || !window.active)

/-- `ivr_dtmf_ingress_begin_input`. -/
def dtmfBeginInput (s : DtmfIngress) (call : CallRef) (inputId : List UInt8)
    (inputGeneration : UInt64) : DtmfIngress × IvrStatus :=
  if inputId = [] ∨ inputId.length ≥ dtmfIdMax ∨ inputGeneration = 0 then (s, .einval)
  else
    match windowFor s call with
    | none => (s, .enospc)
    | some i =>
      match copyCall DtmfWindow.zero call with
      | .error window => ({ s with windows := s.windows.set i window }, .einval)
      | .ok window =>
        ({ s with windows := s.windows.set i { window with
            inputId := inputId
            call := { window.call with callGeneration := call.callGeneration }
            inputGeneration := inputGeneration
            valid := true
            active := true } }, .ok)

/-- `ivr_dtmf_ingress_end_input`. -/
def dtmfEndInput (s : DtmfIngress) (call : CallRef) (inputGeneration : UInt64) :
    DtmfIngress × IvrStatus :=
  if inputGeneration = 0 then (s, .einval)
  else
    match (findWindow s call).bind (fun i => (s.windows[i]?).map (fun w => (i, w))) with
    | none => (s, .estate)
    | some (i, window) =>
      if window.active = false ∨ window.inputGeneration ≠ inputGeneration then (s, .estate)
      else ({ s with windows := s.windows.set i { window with active := false } }, .ok)

/-- What the checks of `ivr_dtmf_ingress_submit_rtp` before the look-up leave of a payload:
event, digit and duration of a keypress that has ended. -/
def finalEvent (maxDuration : ℕ) : List UInt8 → Except IvrStatus (UInt8 × Char × ℕ)
  | [event, flags, high, low] =>
    let duration := high.toNat * 256 + low.toNat
    match eventDigit event with
    | none => .error .einval
    | some digit =>
      if flags &&& 0x40 ≠ 0 ∨ duration = 0 ∨ duration > maxDuration then .error .einval
      else if flags &&& 0x80 = 0 then .error .estate
      else .ok (event, digit, duration)
  | _ => .error .einval

/-- The keypress is the last one that the window has reported. -/
def DtmfWindow.repeats (window : DtmfWindow) (sourceGeneration : UInt64) (rtpTimestamp : UInt32)
    (event : UInt8) : Bool :=
  window.hasFinal && window.lastSourceGeneration == sourceGeneration &&
    window.lastRtpTimestamp == rtpTimestamp && window.lastEvent == event

/-- `ivr_dtmf_ingress_submit_rtp`, with the input that is written for `IVR_OK`. -/
def dtmfSubmitRtp (s : DtmfIngress) (call : CallRef) (sourceGeneration : UInt64)
    (rtpTimestamp : UInt32) (payload : List UInt8) : DtmfIngress × IvrStatus × Option DtmfInput :=
  if sourceGeneration = 0 then (s, .einval, none)
  else
    match finalEvent s.maxDuration payload with
    | .error status => (s, status, none)
    | .ok (event, digit, duration) =>
      match (findWindow s call).bind (fun i => (s.windows[i]?).map (fun w => (i, w))) with
      | none => (s, .estate, none)
      | some (i, window) =>
        if window.active = false then (s, .estate, none)
        else if window.repeats sourceGeneration rtpTimestamp event then (s, .estate, none)
        else
          ({ s with windows := s.windows.set i { window with
              lastSourceGeneration := sourceGeneration
              lastRtpTimestamp := rtpTimestamp
              lastEvent := event
              hasFinal := true } }, .ok,
            some ⟨window.call, window.inputId, window.inputGeneration, sourceGeneration,
              rtpTimestamp, digit, duration, true⟩)

/-- Calls on the table. -/
inductive DtmfOp where
  | beginInput (call : CallRef) (inputId : List UInt8) (inputGeneration : UInt64)
  | endInput (call : CallRef) (inputGeneration : UInt64)
  | submitRtp
      (call : CallRef) (sourceGeneration : UInt64) (rtpTimestamp : UInt32)
      (payload : List UInt8)

def DtmfOp.call : DtmfOp → CallRef
  | .beginInput call _ _ => call
  | .endInput call _ => call
  | .submitRtp call _ _ _ => call

/-- Status of a call, and the input that it writes. -/
abbrev DtmfAnswer := IvrStatus × Option DtmfInput

def dtmfMachine : Machine DtmfIngress DtmfOp DtmfAnswer where
  step := fun s op =>
    match op with
    | .beginInput call inputId inputGeneration =>
      ((dtmfBeginInput s call inputId inputGeneration).1,
        (dtmfBeginInput s call inputId inputGeneration).2, none)
    | .endInput call inputGeneration =>
      ((dtmfEndInput s call inputGeneration).1, (dtmfEndInput s call inputGeneration).2, none)
    | .submitRtp call sourceGeneration rtpTimestamp payload =>
      dtmfSubmitRtp s call sourceGeneration rtpTimestamp payload

end TurboMedia.Ivr
