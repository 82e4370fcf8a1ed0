import Mathlib.Data.List.TakeWhile
import TurboMedia.Ivr.DtmfRtp

/-!
# A keypress is not reported twice in a row

**Input.**  Any run of calls on a new table, for any number of calls.

**Method.**  What a call sees of the table is its open window, and a machine on that window
alone (`callMachine`) answers as the table does (`shows_step`).  The calls that go on at the
same time show up in one place only, where a new input finds no window.  The statements about
keypresses are proved on the machine of one call.
-/

namespace TurboMedia.Ivr

open List DtmfWindow Machine Option

/-- What identifies a keypress within a call. -/
structure Keypress where
  sourceGeneration : UInt64
  rtpTimestamp : UInt32
  event : UInt8
deriving DecidableEq

/-- What a call adds to the history: a keypress that is reported, or nothing in its place for
an input that is begun. -/
def entry : DtmfOp × DtmfAnswer → List (Option Keypress)
  | (.beginInput _ _ _, .ok, _) => [none]
  | (.submitRtp _ sourceGeneration rtpTimestamp (event :: _), .ok, _) =>
    [some ⟨sourceGeneration, rtpTimestamp, event⟩]
  | _ => []

def history (call : CallRef) (transcript : List (DtmfOp × DtmfAnswer)) :
    List (Option Keypress) :=
  (transcript.filter (fun entry => decide (entry.1.call = call))).flatMap entry

/-- The calls for `call`, save those that find no window. -/
def concerning (call : CallRef) (transcript : List (DtmfOp × DtmfAnswer)) :
    List (DtmfOp × DtmfAnswer) :=
  transcript.filter (fun entry => decide (entry.1.call = call ∧ entry.2.1 ≠ .enospc))

/-- A reference under which an input is begun has no zero byte. -/
def DtmfOp.Plain : DtmfOp → Prop
  | .beginInput call _ _ => call.Plain
  | _ => True

/-- Two entries that follow each other are not the same keypress. -/
def Differ (first second : Option Keypress) : Prop :=
  first = none ∨ first ≠ second

def CallRef.Storable (call : CallRef) : Prop :=
  (copyView call.providerSessionId).isSome ∧ (copyView call.dialogId).isSome ∧
    (copyView call.roomId).isSome ∧ (copyView call.callId).isSome

instance (call : CallRef) : Decidable call.Storable :=
  inferInstanceAs (Decidable (_ ∧ _ ∧ _ ∧ _))

/-- The window of an input that has just begun. -/
def newWindow (call : CallRef) (inputId : List UInt8) (inputGeneration : UInt64) : DtmfWindow :=
  ⟨true, true, call, inputId, inputGeneration, 0, 0, 0, false⟩

def DtmfWindow.report (window : DtmfWindow) (sourceGeneration : UInt64) (rtpTimestamp : UInt32)
    (event : UInt8) : DtmfWindow :=
  { window with
    lastSourceGeneration := sourceGeneration
    lastRtpTimestamp := rtpTimestamp
    lastEvent := event
    hasFinal := true }

/-- What is asked of the arguments of an input. -/
def InputOk (inputId : List UInt8) (inputGeneration : UInt64) : Prop :=
  ¬(inputId = [] ∨ inputId.length ≥ dtmfIdMax ∨ inputGeneration = 0)

instance (inputId : List UInt8) (inputGeneration : UInt64) :
    Decidable (InputOk inputId inputGeneration) :=
  inferInstanceAs (Decidable (¬_))

/-- One call and its open window, with no other call around. -/
def callStep (maxDuration : ℕ) (window : Option DtmfWindow) :
    DtmfOp → Option DtmfWindow × DtmfAnswer
  | .beginInput call inputId inputGeneration =>
    if InputOk inputId inputGeneration ∧ call.Storable then
      (some (newWindow call inputId inputGeneration), .ok, none)
    else (window, .einval, none)
  | .endInput _ inputGeneration =>
    if inputGeneration = 0 then (window, .einval, none)
    else
      match window with
      | none => (window, .estate, none)
      | some w =>
        if w.inputGeneration ≠ inputGeneration then (window, .estate, none)
        else (none, .ok, none)
  | .submitRtp _ sourceGeneration rtpTimestamp payload =>
    if sourceGeneration = 0 then (window, .einval, none)
    else
      match finalEvent maxDuration payload with
      | .error status => (window, status, none)
      | .ok (event, digit, duration) =>
        match window with
        | none => (window, .estate, none)
        | some w =>
          if w.repeats sourceGeneration rtpTimestamp event then (window, .estate, none)
          else
            (some (w.report sourceGeneration rtpTimestamp event), .ok,
              some ⟨w.call, w.inputId, w.inputGeneration, sourceGeneration, rtpTimestamp,
                digit, duration, true⟩)

def callMachine (maxDuration : ℕ) : Machine (Option DtmfWindow) DtmfOp DtmfAnswer where
  step := callStep maxDuration

section Windows

variable {s : DtmfIngress} {call : CallRef} {w : DtmfWindow} {i : ℕ}

def DtmfWindow.OpenFor (w : DtmfWindow) (call : CallRef) : Prop :=
  w.valid = true ∧ w.active = true ∧ w.call = call

def Shows (s : DtmfIngress) (call : CallRef) (window : Option DtmfWindow) : Prop :=
  ∀ w, (∃ i : ℕ, s.windows[i]? = some w ∧ w.OpenFor call) ↔ window = some w

/-- No two windows are for the same call. -/
structure DtmfSound (s : DtmfIngress) : Prop where
  unique : ∀ {i j : ℕ} {w v : DtmfWindow}, s.windows[i]? = some w → s.windows[j]? = some v →
    w.valid = true → v.valid = true → w.call = v.call → i = j
  storable : ∀ {i : ℕ} {w : DtmfWindow}, s.windows[i]? = some w → w.valid = true →
    w.call.Storable

/-- Slot `i` is the only one that may be for the call. -/
def OnlySlot (s : DtmfIngress) (call : CallRef) (i : ℕ) : Prop :=
  ∀ j w, j ≠ i → s.windows[j]? = some w → w.valid = true → w.call ≠ call

theorem findWindow_some (h : findWindow s call = some i) :
    ∃ w, s.windows[i]? = some w ∧ w.valid = true ∧ w.call = call := by
  obtain ⟨hlt, hmatch, _⟩ := findIdx?_eq_some_iff_getElem.mp h
  rw [callMatches, Bool.and_eq_true, decide_eq_true_eq] at hmatch
  exact ⟨s.windows[i], getElem?_eq_getElem hlt, hmatch⟩

theorem findWindow_none (h : findWindow s call = none) (hw : s.windows[i]? = some w)
    (hvalid : w.valid = true) : w.call ≠ call := by
  intro hcall
  have hmatch := findIdx?_eq_none_iff.mp h w (mem_of_getElem? hw)
  rw [callMatches, hvalid, hcall] at hmatch
  simp at hmatch

theorem DtmfSound.onlySlot (h : DtmfSound s) (hw : s.windows[i]? = some w)
    (hvalid : w.valid = true) : OnlySlot s w.call i :=
  fun _ _ hne hv hvvalid hcall => hne (h.unique hv hw hvvalid hvalid hcall)

theorem windowFor_some (h : DtmfSound s) (hfor : windowFor s call = some i) :
    ∃ old, s.windows[i]? = some old ∧ OnlySlot s call i ∧ ∀ c, c ≠ call → ¬old.OpenFor c := by
  rw [windowFor] at hfor
  split at hfor
  · next j hfind =>
      cases hfor
      obtain ⟨old, hold, hvalid, rfl⟩ := findWindow_some hfind
      exact ⟨old, hold, h.onlySlot hold hvalid, fun c hne hopen => hne hopen.2.2.symm⟩
  · next hfind =>
      obtain ⟨hlt, hfree, _⟩ := findIdx?_eq_some_iff_getElem.mp hfor
      refine ⟨s.windows[i], getElem?_eq_getElem hlt,
        fun j w _ hw hvalid => findWindow_none hfind hw hvalid, ?_⟩
      rintro c _ ⟨hvalid, hact, _⟩
      rw [hvalid, hact] at hfree
      cases hfree

theorem windowFor_none (hfor : windowFor s call = none) (hw : s.windows[i]? = some w) :
    w.valid = true ∧ w.call ≠ call := by
  rw [windowFor] at hfor
  split at hfor
  · cases hfor
  · next hfind =>
      have hused := findIdx?_eq_none_iff.mp hfor w (mem_of_getElem? hw)
      have hvalid : w.valid = true := by
        cases hv : w.valid with
        | false =>
          rw [hv] at hused
          cases hused
        | true => rfl
      exact ⟨hvalid, findWindow_none hfind hw hvalid⟩

def DtmfIngress.put (s : DtmfIngress) (i : ℕ) (w : DtmfWindow) : DtmfIngress :=
  { s with windows := s.windows.set i w }

variable {old : DtmfWindow}

theorem put_self (hold : s.windows[i]? = some old) (w : DtmfWindow) :
    (s.put i w).windows[i]? = some w := by
  have hlt := (List.getElem?_eq_some_iff.mp hold).1
  rw [DtmfIngress.put, getElem?_set_self hlt]

theorem put_other {j : ℕ} (hne : j ≠ i) (w : DtmfWindow) :
    (s.put i w).windows[j]? = s.windows[j]? := by
  rw [DtmfIngress.put, getElem?_set_ne hne.symm]

theorem DtmfSound.put (h : DtmfSound s) (hold : s.windows[i]? = some old)
    (hw : w.valid = true → w.call.Storable ∧ OnlySlot s w.call i) : DtmfSound (s.put i w) := by
  constructor
  · intro j k v u hv hu hvvalid huvalid hcall
    by_cases hj : j = i
    · by_cases hk : k = i
      · rw [hj, hk]
      · rw [hj, put_self hold, some.injEq] at hv
        subst hv
        rw [put_other hk] at hu
        exact absurd hcall.symm ((hw hvvalid).2 k u hk hu huvalid)
    · rw [put_other hj] at hv
      by_cases hk : k = i
      · rw [hk, put_self hold, some.injEq] at hu
        subst hu
        exact absurd hcall ((hw huvalid).2 j v hj hv hvvalid)
      · rw [put_other hk] at hu
        exact h.unique hv hu hvvalid huvalid hcall
  · intro j v hv hvalid
    by_cases hj : j = i
    · rw [hj, put_self hold, some.injEq] at hv
      subst hv
      exact (hw hvalid).1
    · rw [put_other hj] at hv
      exact h.storable hv hvalid

variable {window : Option DtmfWindow}

theorem Shows.put_other (h : Shows s call window)
    (hold : s.windows[i]? = some old) (hnot : ¬old.OpenFor call) (hw : ¬w.OpenFor call) :
    Shows (s.put i w) call window := by
  intro v
  rw [← h v]
  constructor
  · rintro ⟨j, hj, hopen⟩
    by_cases heq : j = i
    · rw [heq, put_self hold, some.injEq] at hj
      exact absurd (hj ▸ hopen) hw
    · rw [Ivr.put_other heq] at hj
      exact ⟨j, hj, hopen⟩
  · rintro ⟨j, hj, hopen⟩
    by_cases heq : j = i
    · rw [heq, hold, some.injEq] at hj
      exact absurd (hj ▸ hopen) hnot
    · refine ⟨j, ?_, hopen⟩
      rw [Ivr.put_other heq]
      exact hj

theorem shows_put_self (hold : s.windows[i]? = some old) (honly : OnlySlot s call i) :
    (w.OpenFor call → Shows (s.put i w) call (some w)) ∧
      (¬w.OpenFor call → Shows (s.put i w) call none) := by
  have hself : ∀ v, (∃ j : ℕ, (s.put i w).windows[j]? = some v ∧ v.OpenFor call) ↔
      w = v ∧ w.OpenFor call := by
    intro v
    constructor
    · rintro ⟨j, hj, hopen⟩
      by_cases heq : j = i
      · rw [heq, put_self hold, some.injEq] at hj
        exact ⟨hj, hj ▸ hopen⟩
      · rw [put_other heq] at hj
        exact absurd hopen.2.2 (honly j v heq hj hopen.1)
    · rintro ⟨rfl, hopen⟩
      exact ⟨i, put_self hold w, hopen⟩
  constructor
  · intro hopen v
    rw [hself v, some.injEq]
    exact and_iff_left hopen
  · intro hnot v
    rw [hself v]
    exact iff_of_false (fun hin => hnot hin.2) (by simp)

def openWindow (s : DtmfIngress) (call : CallRef) : Option (ℕ × DtmfWindow) :=
  (findWindow s call).bind (fun i => (s.windows[i]?).map (fun w => (i, w)))

theorem openWindow_none (hshows : Shows s call window)
    (h : openWindow s call = none) : window = none := by
  cases hwin : window with
  | none => rfl
  | some w =>
    obtain ⟨j, hw, hvalid, _, hcall⟩ := (hshows w).mpr hwin
    cases hfind : findWindow s call with
    | none => exact absurd hcall (findWindow_none hfind hw hvalid)
    | some i =>
      obtain ⟨v, hv, _⟩ := findWindow_some hfind
      rw [openWindow, hfind, bind_some, hv] at h
      cases h

theorem openWindow_some (h : DtmfSound s) (hopen : openWindow s call = some (i, w)) :
    s.windows[i]? = some w ∧ w.valid = true ∧ w.call = call ∧ OnlySlot s call i := by
  obtain ⟨j, hfind, hmap⟩ := bind_eq_some_iff.mp hopen
  obtain ⟨v, hv, hpair⟩ := map_eq_some_iff.mp hmap
  cases hpair
  obtain ⟨v', hv', hvalid, rfl⟩ := findWindow_some hfind
  cases hv.symm.trans hv'
  exact ⟨hv, hvalid, rfl, h.onlySlot hv hvalid⟩

theorem shows_of_openWindow (h : DtmfSound s)
    (hshows : Shows s call window) (hopen : openWindow s call = some (i, w)) :
    window = if w.active then some w else none := by
  obtain ⟨hw, hvalid, hcall, honly⟩ := openWindow_some h hopen
  split_ifs with hact
  · exact (hshows w).mp ⟨i, hw, hvalid, hact, hcall⟩
  · cases hwin : window with
    | none => rfl
    | some v =>
      obtain ⟨j, hv, hvvalid, hvactive, hvcall⟩ := (hshows v).mpr hwin
      by_cases heq : j = i
      · rw [heq, hw, some.injEq] at hv
        exact absurd (hv ▸ hvactive) hact
      · exact absurd hvcall (honly j v heq hv hvvalid)

end Windows

section Steps

variable {s s' : DtmfIngress} {call : CallRef} {op : DtmfOp} {answer : DtmfAnswer}
variable {inputId : List UInt8} {inputGeneration : UInt64}

/-- What one step does to the calls. -/
structure Stepped (s : DtmfIngress) (op : DtmfOp) (s' : DtmfIngress) (answer : DtmfAnswer) :
    Prop where
  sound : DtmfSound s'
  maxDuration : s'.maxDuration = s.maxDuration
  size : s'.windows.length = s.windows.length
  others : ∀ c window, c ≠ op.call → Shows s c window → Shows s' c window
  own : answer.1 ≠ .enospc → ∀ window, Shows s op.call window →
    answer = (callStep s.maxDuration window op).2 ∧
      Shows s' op.call (callStep s.maxDuration window op).1
  full : answer.1 = .enospc → s' = s ∧ windowFor s op.call = none
  origin : ∀ w ∈ s'.windows, w.valid = true → w.call = op.call ∨
    ∃ v ∈ s.windows, v.valid = true ∧ v.call = w.call

theorem stepped_same (h : DtmfSound s) (hans : answer.1 ≠ .enospc)
    (hown : ∀ window, Shows s op.call window →
      callStep s.maxDuration window op = (window, answer)) :
    Stepped s op s answer where
  sound := h
  maxDuration := rfl
  size := rfl
  others := fun _ _ _ hshows => hshows
  own := by
    intro _ window hshows
    rw [hown window hshows]
    exact ⟨rfl, hshows⟩
  full := fun hfull => absurd hfull hans
  origin := fun w hw hvalid => .inr ⟨w, hw, hvalid, rfl⟩

theorem stepped_put {i : ℕ} {old w : DtmfWindow} (op : DtmfOp) (h : DtmfSound s)
    (hold : s.windows[i]? = some old) (honly : OnlySlot s op.call i)
    (hothers : ∀ c, c ≠ op.call → ¬old.OpenFor c)
    (hw : w.valid = true → w.call = op.call ∧ w.call.Storable) (hans : answer.1 ≠ .enospc)
    (hown : ∀ window, Shows s op.call window →
      ∃ window', callStep s.maxDuration window op = (window', answer) ∧
        Shows (s.put i w) op.call window') :
    Stepped s op (s.put i w) answer where
  sound := h.put hold (fun hvalid => ⟨(hw hvalid).2, (hw hvalid).1 ▸ honly⟩)
  maxDuration := rfl
  size := by
    rw [DtmfIngress.put, length_set]
  others := by
    intro c window hne hshows
    refine hshows.put_other hold (hothers c hne) ?_
    intro hopen
    exact hne (hopen.2.2.symm.trans (hw hopen.1).1)
  own := by
    intro _ window hshows
    obtain ⟨window', hstep, hshows'⟩ := hown window hshows
    rw [hstep]
    exact ⟨rfl, hshows'⟩
  full := fun hfull => absurd hfull hans
  origin := by
    intro v hv hvalid
    rcases mem_or_eq_of_mem_set hv with hv | rfl
    · exact .inr ⟨v, hv, hvalid, rfl⟩
    · exact .inl (hw hvalid).1

theorem cString_of_plain {bytes : List UInt8} (h : 0 ∉ bytes) : cString bytes = bytes := by
  rw [cString, takeWhile_eq_self_iff]
  intro b hb
  rw [decide_eq_true_eq]
  rintro rfl
  exact h hb

theorem copyView_of_plain {bytes : List UInt8} (hplain : 0 ∉ bytes) (h : (copyView bytes).isSome) :
    copyView bytes = some bytes := by
  rw [copyView] at h ⊢
  split_ifs at h ⊢ with hbad
  · cases h
  · rw [cString_of_plain hplain]

theorem copyCall_of_storable (hplain : call.Plain) (h : call.Storable) :
    copyCall .zero call =
      .ok { DtmfWindow.zero with call := { call with callGeneration := 0 } } := by
  rw [copyCall, copyView_of_plain hplain.1 h.1, copyView_of_plain hplain.2.1 h.2.1,
    copyView_of_plain hplain.2.2.1 h.2.2.1, copyView_of_plain hplain.2.2.2 h.2.2.2]
  rfl

theorem copyCall_of_not_storable (h : ¬call.Storable) :
    ∃ w, copyCall .zero call = .error w ∧ w.valid = false := by
  rw [copyCall]
  cases hprovider : copyView call.providerSessionId with
  | none => exact ⟨_, rfl, rfl⟩
  | some provider =>
    cases hdialog : copyView call.dialogId with
    | none => exact ⟨_, rfl, rfl⟩
    | some dialog =>
      cases hroom : copyView call.roomId with
      | none => exact ⟨_, rfl, rfl⟩
      | some room =>
        cases hcall : copyView call.callId with
        | none => exact ⟨_, rfl, rfl⟩
        | some callId =>
          refine absurd ⟨?_, ?_, ?_, ?_⟩ h
          · rw [hprovider]
            rfl
          · rw [hdialog]
            rfl
          · rw [hroom]
            rfl
          · rw [hcall]
            rfl

theorem stepped_beginInput (h : DtmfSound s) (hplain : call.Plain) :
    Stepped s (.beginInput call inputId inputGeneration)
      (dtmfBeginInput s call inputId inputGeneration).1
      ((dtmfBeginInput s call inputId inputGeneration).2, none) := by
  rw [dtmfBeginInput]
  split
  · next hbad =>
      refine stepped_same h (by simp) ?_
      intro window _
      rw [callStep, if_neg (fun hok => hok.1 hbad)]
  · next hinput =>
      split
      · next hfor =>
          exact ⟨h, rfl, rfl, fun _ _ _ hshows => hshows, fun hne => absurd rfl hne,
            fun _ => ⟨rfl, hfor⟩, fun w hw hvalid => .inr ⟨w, hw, hvalid, rfl⟩⟩
      · next i hfor =>
          obtain ⟨old, hold, honly, hothers⟩ := windowFor_some h hfor
          by_cases hstorable : call.Storable
          · rw [copyCall_of_storable hplain hstorable]
            refine stepped_put (w := newWindow call inputId inputGeneration)
              (.beginInput call inputId inputGeneration) h hold honly hothers
              (fun _ => ⟨rfl, hstorable⟩) (by simp) ?_
            intro window _
            rw [callStep, if_pos ⟨hinput, hstorable⟩]
            exact ⟨_, rfl, (shows_put_self hold honly).1 ⟨rfl, rfl, rfl⟩⟩
          · obtain ⟨w, hcopy, hvalid⟩ := copyCall_of_not_storable hstorable
            rw [hcopy]
            have hclosed : ¬w.OpenFor call := fun hopen => by
              rw [hopen.1] at hvalid
              cases hvalid
            refine stepped_put (w := w) (.beginInput call inputId inputGeneration)
              h hold honly hothers
              ?_ (by simp) ?_
            · intro hin
              rw [hvalid] at hin
              cases hin
            · intro window hshows
              rw [callStep, if_neg (fun hok => hstorable hok.2)]
              refine ⟨_, rfl, ?_⟩
              obtain rfl : window = none := by
                cases hwin : window with
                | none => rfl
                | some v =>
                  obtain ⟨j, hv, hvvalid, _, rfl⟩ := (hshows v).mpr hwin
                  exact absurd (h.storable hv hvvalid) hstorable
              exact (shows_put_self hold honly).2 hclosed

theorem finalEvent_error {maxDuration : ℕ} {payload : List UInt8} {status : IvrStatus}
    (h : finalEvent maxDuration payload = .error status) : status ≠ .enospc ∧ status ≠ .ok := by
  have hcases : status = .einval ∨ status = .estate := by
    rw [finalEvent.eq_def] at h
    split at h
    · dsimp only at h
      split at h
      · exact .inl (Except.error.inj h).symm
      · split_ifs at h
        · exact .inl (Except.error.inj h).symm
        · exact .inr (Except.error.inj h).symm
    · exact .inl (Except.error.inj h).symm
  rcases hcases with rfl | rfl <;> simp

theorem not_openFor_other {w : DtmfWindow} (hcall : w.call = call) (c : CallRef) (hne : c ≠ call) :
    ¬w.OpenFor c :=
  fun hopen => hne (hopen.2.2.symm.trans hcall)

theorem stepped_endInput (h : DtmfSound s) :
    Stepped s (.endInput call inputGeneration) (dtmfEndInput s call inputGeneration).1
      ((dtmfEndInput s call inputGeneration).2, none) := by
  rw [dtmfEndInput, ← openWindow]
  split
  · next hzero =>
      refine stepped_same h (by simp) ?_
      intro window _
      rw [callStep.eq_def]
      dsimp only
      rw [if_pos hzero]
  · next hzero =>
      split
      · next hnone =>
          refine stepped_same h (by simp) ?_
          intro window hshows
          obtain rfl := openWindow_none hshows hnone
          rw [callStep.eq_def]
          dsimp only
          rw [if_neg hzero]
      · next i w hopen =>
          obtain ⟨hw, hvalid, hcall, honly⟩ := openWindow_some h hopen
          have hstorable := h.storable hw hvalid
          split
          · next href =>
              refine stepped_same h (by simp) ?_
              intro window hshows
              rw [shows_of_openWindow h hshows hopen, callStep.eq_def]
              dsimp only
              rw [if_neg hzero]
              rcases href with hclosed | hother
              · rw [hclosed]
                rfl
              · cases hact : w.active with
                | false => rfl
                | true =>
                  rw [if_pos rfl]
                  dsimp only
                  rw [if_pos hother]
          · next hacc =>
              rw [not_or, Bool.not_eq_false, not_not] at hacc
              obtain ⟨hact, hgen⟩ := hacc
              refine stepped_put (w := { w with active := false }) (.endInput call inputGeneration)
                h hw honly (not_openFor_other hcall)
                (fun _ => ⟨hcall, hstorable⟩) (by simp) ?_
              intro window hshows
              rw [shows_of_openWindow h hshows hopen, hact, if_pos rfl, callStep.eq_def]
              dsimp only
              rw [if_neg hzero, if_neg (not_not.mpr hgen)]
              refine ⟨none, rfl, (shows_put_self hw honly).2 ?_⟩
              exact fun hin => absurd hin.2.1 (by simp)

theorem stepped_submitRtp {sourceGeneration : UInt64} {rtpTimestamp : UInt32} {payload : List UInt8}
    (h : DtmfSound s) :
    Stepped s (.submitRtp call sourceGeneration rtpTimestamp payload)
      (dtmfSubmitRtp s call sourceGeneration rtpTimestamp payload).1
      (dtmfSubmitRtp s call sourceGeneration rtpTimestamp payload).2 := by
  rw [dtmfSubmitRtp, ← openWindow]
  split
  · next hzero =>
      refine stepped_same h (by simp) ?_
      intro window _
      rw [callStep, if_pos hzero]
  · next hzero =>
      split
      · next status herr =>
          refine stepped_same h (finalEvent_error herr).1 ?_
          intro window _
          rw [callStep, if_neg hzero, herr]
      · next event digit duration hfinal =>
          split
          · next hnone =>
              refine stepped_same h (by simp) ?_
              intro window hshows
              obtain rfl := openWindow_none hshows hnone
              rw [callStep, if_neg hzero, hfinal]
          · next i w hopen =>
              obtain ⟨hw, hvalid, hcall, honly⟩ := openWindow_some h hopen
              have hstorable := h.storable hw hvalid
              split
              · next hact =>
                  refine stepped_same h (by simp) ?_
                  intro window hshows
                  rw [shows_of_openWindow h hshows hopen, hact, callStep, if_neg hzero, hfinal]
                  rfl
              · next hact =>
                  rw [Bool.not_eq_false] at hact
                  split
                  · next hrepeats =>
                      refine stepped_same h (by simp) ?_
                      intro window hshows
                      rw [shows_of_openWindow h hshows hopen, hact, if_pos rfl, callStep,
                        if_neg hzero, hfinal]
                      dsimp only
                      rw [if_pos hrepeats]
                  · next hnew =>
                      refine stepped_put (w := w.report sourceGeneration rtpTimestamp event)
                        (.submitRtp call sourceGeneration rtpTimestamp payload) h hw honly
                        (not_openFor_other hcall) (fun _ => ⟨hcall, hstorable⟩) (by simp) ?_
                      intro window hshows
                      rw [shows_of_openWindow h hshows hopen, hact, if_pos rfl, callStep,
                        if_neg hzero, hfinal]
                      dsimp only
                      rw [if_neg hnew]
                      exact ⟨_, rfl, (shows_put_self hw honly).1 ⟨hvalid, hact, hcall⟩⟩

theorem stepped (h : DtmfSound s) (hplain : op.Plain) :
    Stepped s op (dtmfMachine.next s op) (dtmfMachine.answer s op) := by
  cases op with
  | beginInput call inputId inputGeneration => exact stepped_beginInput h hplain
  | endInput call inputGeneration => exact stepped_endInput h
  | submitRtp call sourceGeneration rtpTimestamp payload => exact stepped_submitRtp h

end Steps

def DtmfWindow.remembered (w : DtmfWindow) : Option Keypress :=
  if w.hasFinal then some ⟨w.lastSourceGeneration, w.lastRtpTimestamp, w.lastEvent⟩ else none

theorem repeats_iff (w : DtmfWindow) (k : Keypress) :
    w.repeats k.sourceGeneration k.rtpTimestamp k.event = true ↔ w.remembered = some k := by
  rw [repeats, remembered]
  split_ifs with hfinal
  · simp only [hfinal, Bool.true_and, Bool.and_eq_true, beq_iff_eq, some.injEq]
    constructor
    · rintro ⟨⟨hsrc, hts⟩, hevent⟩
      rw [hsrc, hts, hevent]
    · rintro rfl
      exact ⟨⟨rfl, rfl⟩, rfl⟩
  · simp [hfinal]

theorem finalEvent_ok
    {maxDuration : ℕ} {payload : List UInt8} {event : UInt8} {digit : Char} {duration : ℕ}
    (h : finalEvent maxDuration payload = .ok (event, digit, duration)) :
    ∃ rest, payload = event :: rest := by
  rw [finalEvent.eq_def] at h
  split at h
  · dsimp only at h
    split at h
    · cases h
    · split_ifs at h
      cases h
      exact ⟨_, rfl⟩
  · cases h

theorem entry_of_refused {op : DtmfOp} {answer : DtmfAnswer} (h : answer.1 ≠ .ok) :
    entry (op, answer) = [] := by
  rw [entry.eq_def]
  split
  · next heq =>
      cases heq
      exact absurd rfl h
  · next heq =>
      cases heq
      exact absurd rfl h
  · rfl

/-- The window knows the last entry of the history. -/
def Recalls (window : Option DtmfWindow) (last : Option (Option Keypress)) : Prop :=
  ∀ w, window = some w → last = some w.remembered

theorem callStep_entry {window : Option DtmfWindow} {last : Option (Option Keypress)}
    (maxDuration : ℕ) (h : Recalls window last) (op : DtmfOp) :
    (entry (op, (callStep maxDuration window op).2) = [] ∧
        Recalls (callStep maxDuration window op).1 last) ∨
      ∃ e, entry (op, (callStep maxDuration window op).2) = [e] ∧
        Recalls (callStep maxDuration window op).1 (some e) ∧ ∀ l ∈ last, Differ l e := by
  cases op with
  | beginInput call inputId inputGeneration =>
    rw [callStep]
    split_ifs
    · refine .inr ⟨none, rfl, ?_, ?_⟩
      · intro w hw
        cases hw
        rfl
      · intro l _
        rw [Differ]
        cases l with
        | none => exact .inl rfl
        | some k => exact .inr (by simp)
    · exact .inl ⟨rfl, h⟩
  | endInput call inputGeneration =>
    refine .inl ⟨rfl, ?_⟩
    rw [callStep.eq_def]
    dsimp only
    split_ifs
    · exact h
    · cases window with
      | none => exact h
      | some w =>
        dsimp only
        split_ifs
        · exact h
        · exact fun v hv => absurd hv (by simp)
  | submitRtp call sourceGeneration rtpTimestamp payload =>
    rw [callStep]
    split
    · exact .inl ⟨entry_of_refused (by simp), h⟩
    · split
      · next status herr =>
          exact .inl ⟨entry_of_refused (finalEvent_error herr).2, h⟩
      · next event digit duration hfinal =>
          obtain ⟨rest, rfl⟩ := finalEvent_ok hfinal
          cases window with
          | none => exact .inl ⟨rfl, h⟩
          | some w =>
            dsimp only
            split
            · exact .inl ⟨rfl, h⟩
            · next hnew =>
                refine .inr ⟨some ⟨sourceGeneration, rtpTimestamp, event⟩, rfl, ?_, ?_⟩
                · intro v hv
                  cases hv
                  rfl
                · intro l hl
                  rw [h w rfl] at hl
                  cases hl
                  refine .inr ?_
                  intro heq
                  exact hnew ((repeats_iff w ⟨sourceGeneration, rtpTimestamp, event⟩).mpr heq)

theorem callMachine_differ
    {maxDuration : ℕ} {window : Option DtmfWindow} {last : Option (Option Keypress)}
    (h : Recalls window last) (ops : List DtmfOp) :
    (last.toList ++ ((callMachine maxDuration).transcript window ops).flatMap entry).IsChain
      Differ := by
  induction ops generalizing window last with
  | nil =>
    rw [transcript, flatMap_nil, append_nil]
    cases last with
    | none => exact List.IsChain.nil
    | some l => exact List.IsChain.singleton l
  | cons op ops ih =>
    rw [transcript, flatMap_cons]
    rcases callStep_entry maxDuration h op with
      ⟨hent, hrecalls⟩ | ⟨e, hent, hrecalls, hdiffer⟩
    · have hrest := ih hrecalls
      rw [show entry (op, (callMachine maxDuration).answer window op) = [] from hent, nil_append]
      exact hrest
    · have hrest := ih hrecalls
      rw [show entry (op, (callMachine maxDuration).answer window op) = [e] from hent]
      cases last with
      | none => exact hrest
      | some l => exact List.IsChain.cons_cons (hdiffer l rfl) hrest

variable {s : DtmfIngress} {call : CallRef} {ops : List DtmfOp}

theorem create_windows {config : Option DtmfConfig} (h : dtmfIngressCreate config = .ok s) :
    s.windows ≠ [] ∧ ∀ w ∈ s.windows, w.valid = false := by
  have hnew : ∀ capacity maxDuration, (if capacity = 0 ∨ capacity > 4096 then
      (.error .einval : Except IvrStatus DtmfIngress)
      else .ok ⟨replicate capacity zero, maxDuration⟩) = .ok s →
      s.windows ≠ [] ∧ ∀ w ∈ s.windows, w.valid = false := by
    intro capacity maxDuration h
    split_ifs at h with hcap
    cases h
    rw [not_or] at hcap
    refine ⟨?_, ?_⟩
    · rw [ne_eq, replicate_eq_nil_iff]
      exact hcap.1
    · intro w hw
      rw [eq_of_mem_replicate hw]
      rfl
  cases config with
  | none => exact hnew dtmfDefaultWindows dtmfDefaultMaxDuration h
  | some config => exact hnew _ _ h

theorem shows_create (call : CallRef) (h : ∀ w ∈ s.windows, w.valid = false) :
    DtmfSound s ∧ Shows s call none := by
  have hnot : ∀ {i : ℕ} {w : DtmfWindow}, s.windows[i]? = some w → w.valid ≠ true := by
    intro i w hw
    rw [h w (mem_of_getElem? hw)]
    simp
  refine ⟨⟨fun hw _ hvalid => absurd hvalid (hnot hw), fun hw hvalid => absurd hvalid (hnot hw)⟩,
    ?_⟩
  intro w
  refine iff_of_false ?_ (by simp)
  rintro ⟨i, hw, hvalid, _⟩
  exact hnot hw hvalid

theorem concerning_eq (h : DtmfSound s) (hshows : Shows s call none) (hops : ∀ op ∈ ops, op.Plain) :
    (callMachine s.maxDuration).transcript none
        ((concerning call (dtmfMachine.transcript s ops)).map Prod.fst) =
      concerning call (dtmfMachine.transcript s ops) := by
  have hsame : s.maxDuration = s.maxDuration := rfl
  refine transcript_filter dtmfMachine
    (R := fun s' window => DtmfSound s' ∧ s'.maxDuration = s.maxDuration ∧ Shows s' call window)
    (C := DtmfOp.Plain) ?_ ?_ hops ⟨h, hsame, hshows⟩
  · rintro s' window op hplain ⟨hsound, hmax, hwin⟩ hkeep
    obtain ⟨rfl, hfull⟩ := of_decide_eq_true hkeep
    have hstep := stepped hsound hplain
    obtain ⟨hans, hnext⟩ := hstep.own hfull window hwin
    rw [hmax] at hans hnext
    exact ⟨hans.symm, hstep.sound, hstep.maxDuration.trans hmax, hnext⟩
  · rintro s' window op hplain ⟨hsound, hmax, hwin⟩ hdrop
    have hstep := stepped hsound hplain
    refine ⟨hstep.sound, hstep.maxDuration.trans hmax, ?_⟩
    have hnot := of_decide_eq_false hdrop
    by_cases hcall : op.call = call
    · rw [(hstep.full (not_not.mp (fun hin => hnot ⟨hcall, hin⟩))).1]
      exact hwin
    · exact hstep.others call window (Ne.symm hcall) hwin

theorem concerning_alone (h : DtmfSound s) (hne : s.windows ≠ [])
    (halone : ∀ w ∈ s.windows, w.valid = true → w.call = call)
    (hops : ∀ op ∈ ops, op.Plain ∧ op.call = call) :
    concerning call (dtmfMachine.transcript s ops) = dtmfMachine.transcript s ops := by
  induction ops generalizing s with
  | nil => rfl
  | cons op ops ih =>
    obtain ⟨hplain, rfl⟩ := hops op mem_cons_self
    have hstep := stepped h hplain
    have hroom : (dtmfMachine.answer s op).1 ≠ .enospc := by
      intro hfull
      obtain ⟨w, ws, hcons⟩ := exists_cons_of_ne_nil hne
      have hfirst : s.windows[0]? = some w := by
        rw [hcons]
        rfl
      obtain ⟨hvalid, hcall⟩ := windowFor_none (hstep.full hfull).2 hfirst
      exact hcall (halone w (mem_of_getElem? hfirst) hvalid)
    rw [concerning, transcript, filter_cons_of_pos (by simpa using hroom)]
    congr 1
    refine ih hstep.sound ?_ ?_ (fun op' hop' => hops op' (mem_cons_of_mem _ hop'))
    · rw [← length_pos_iff, hstep.size, length_pos_iff]
      exact hne
    · intro w hw hvalid
      rcases hstep.origin w hw hvalid with hcall | ⟨v, hv, hvvalid, hcall⟩
      · exact hcall
      · exact hcall ▸ halone v hv hvvalid

theorem history_eq (call : CallRef) (transcript : List (DtmfOp × DtmfAnswer)) :
    history call transcript = (concerning call transcript).flatMap entry := by
  induction transcript with
  | nil => rfl
  | cons x xs ih =>
    rw [history, concerning] at ih ⊢
    by_cases hcall : x.1.call = call
    · by_cases hfull : x.2.1 = .enospc
      · rw [filter_cons_of_pos (by simpa using hcall), flatMap_cons,
          filter_cons_of_neg (by simp [hfull]),
          show entry x = [] from entry_of_refused (by rw [hfull]; simp), nil_append, ih]
      · rw [filter_cons_of_pos (by simpa using hcall), flatMap_cons,
          filter_cons_of_pos (by simp [hcall, hfull]), flatMap_cons, ih]
    · rw [filter_cons_of_neg (by simpa using hcall),
        filter_cons_of_neg (by simp [hcall]), ih]

/-- **A keypress is not reported twice in a row.**  In the history of a call no keypress
follows itself, so that between two reports of it another keypress was reported or a new input
begun.  And a call is answered as if it were alone, save where it finds no window. -/
theorem keypress_not_repeated {config : Option DtmfConfig}
    (hcreate : dtmfIngressCreate config = .ok s) (ops : List DtmfOp) (hops : ∀ op ∈ ops, op.Plain)
    (call : CallRef) :
    (history call (dtmfMachine.transcript s ops)).IsChain Differ ∧
      dtmfMachine.transcript s ((concerning call (dtmfMachine.transcript s ops)).map Prod.fst) =
        concerning call (dtmfMachine.transcript s ops) := by
  obtain ⟨hne, hinvalid⟩ := create_windows hcreate
  obtain ⟨hsound, hshows⟩ := shows_create call hinvalid
  have heq := concerning_eq hsound hshows hops
  constructor
  · rw [history_eq, ← heq]
    have hrecalls : Recalls none none := fun w hw => absurd hw (by simp)
    exact callMachine_differ hrecalls _
  · generalize hkept : (concerning call (dtmfMachine.transcript s ops)).map Prod.fst = kept at heq
    have hmine : ∀ op ∈ kept, op.Plain ∧ op.call = call := by
      intro op hop
      rw [← hkept] at hop
      obtain ⟨x, hx, rfl⟩ := mem_map.mp hop
      obtain ⟨hin, hkeep⟩ := mem_filter.mp hx
      refine ⟨hops x.1 ?_, (of_decide_eq_true hkeep).1⟩
      rw [← transcript_map_fst dtmfMachine s ops]
      exact mem_map_of_mem hin
    have halone : concerning call (dtmfMachine.transcript s kept) = dtmfMachine.transcript s kept :=
      concerning_alone hsound hne
        (fun w hw hvalid => absurd hvalid (by rw [hinvalid w hw]; simp)) hmine
    have hown := concerning_eq hsound hshows (fun op hop => (hmine op hop).1)
    rw [halone, transcript_map_fst] at hown
    rw [← hown]
    exact heq

def firstCall : CallRef := ⟨[115], [100], [114], [99], 1⟩

def secondCall : CallRef := ⟨[115], [100], [114], [99], 2⟩

def lastPacket (event : UInt8) : List UInt8 := [event, 0x80, 0, 80]

/-- Copies of the last packet of a keypress, while another call goes on. -/
def copies : List DtmfOp :=
  [.beginInput firstCall [119] 1, .submitRtp firstCall 3 9000 (lastPacket 1),
    .beginInput secondCall [119] 1, .submitRtp secondCall 3 9000 (lastPacket 1),
    .submitRtp firstCall 3 9000 (lastPacket 1)]

theorem keypress_not_repeated_copies :
    history firstCall (dtmfMachine.transcript
        ⟨[DtmfWindow.zero, DtmfWindow.zero], 8000⟩ copies) = [none, some ⟨3, 9000, 1⟩] ∧
      (history firstCall (dtmfMachine.transcript
        ⟨[DtmfWindow.zero, DtmfWindow.zero], 8000⟩ copies)).IsChain Differ := by
  have hcreate : dtmfIngressCreate (some ⟨2, 8000⟩) =
      .ok ⟨[zero, zero], 8000⟩ := by
    decide
  refine ⟨by decide, (keypress_not_repeated hcreate copies ?_ firstCall).1⟩
  intro op hop
  simp only [copies, mem_cons, not_mem_nil, or_false] at hop
  rcases hop with rfl | rfl | rfl | rfl | rfl
  · exact ⟨by decide, by decide, by decide, by decide⟩
  · trivial
  · exact ⟨by decide, by decide, by decide, by decide⟩
  · trivial
  · trivial

/-- A copy comes after the input was ended and begun again. -/
def lateCopy : List DtmfOp :=
  [.beginInput firstCall [119] 1, .submitRtp firstCall 3 9000 (lastPacket 1),
    .endInput firstCall 1, .beginInput firstCall [119] 2,
    .submitRtp firstCall 3 9000 (lastPacket 1)]

theorem keypress_repeated_late :
    ¬ ∀ (config : Option DtmfConfig) (s : DtmfIngress), dtmfIngressCreate config = .ok s →
      ∀ (ops : List DtmfOp), (∀ op ∈ ops, op.Plain) → ∀ (call : CallRef),
        ((history call (dtmfMachine.transcript s ops)).filterMap id).Nodup := by
  intro h
  have hcreate : dtmfIngressCreate (some ⟨1, 8000⟩) = .ok ⟨[zero], 8000⟩ := by
    decide
  have hplain : ∀ op ∈ lateCopy, op.Plain := by
    intro op hop
    simp only [lateCopy, mem_cons, not_mem_nil, or_false] at hop
    rcases hop with rfl | rfl | rfl | rfl | rfl
    · exact ⟨by decide, by decide, by decide, by decide⟩
    · trivial
    · trivial
    · exact ⟨by decide, by decide, by decide, by decide⟩
    · trivial
  have hnodup := h _ _ hcreate lateCopy hplain firstCall
  revert hnodup
  decide

end TurboMedia.Ivr
