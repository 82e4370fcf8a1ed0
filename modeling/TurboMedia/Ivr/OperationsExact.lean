import TurboMedia.Ivr.OperationsOnce

/-!
# Operations are applied once and in order

The generations for which the port of an open call is asked, the input window that the worker
reports of it, what it answers to a repeat, and the references that it hands to the port.

**Input.**  Runs of the worker in which each call that gets a slot names a tenant and has no
zero byte in an identifier (`PlainInput`).

**Method.**  `Keyed` compares the slots with the references in the log: a reference to a call
that is still open is valid and has the key of its slot, and the keys of the slots differ.  A
section either keeps the references of the slots that are in use, or reserves one slot for a
call that no slot matches.
-/

namespace TurboMedia.Ivr

open Function MediaWorker List

section Keys

def callKey (call : MediaRef) : List (List UInt8) × UInt64 :=
  ([call.tenantId.getD [], call.providerSessionId.getD [], call.dialogId.getD [],
    call.roomId.getD [], call.callId.getD []], call.callGeneration)

/-- A call that names a tenant, without a zero byte in an identifier. -/
def PlainCall (call : MediaRef) : Prop :=
  call.tenantId ≠ none ∧
    ∀ id ∈ [call.tenantId, call.providerSessionId, call.dialogId, call.roomId, call.callId],
      0 ∉ id.getD []

instance (call : MediaRef) : Decidable (PlainCall call) :=
  inferInstanceAs (Decidable (_ ∧ _))

variable (w : MediaWorker)

/-- The deadline of an operation is not over. -/
def MediaWorker.inTime (op : MediaOperation) (nowMs : UInt64) : Prop :=
  op.deadlineMs = 0 ∨ w.hasClock = true ∧ nowMs ≤ op.deadlineMs

instance (op : MediaOperation) (nowMs : UInt64) : Decidable (w.inTime op nowMs) :=
  inferInstanceAs (Decidable (_ ∨ _))

/-- A call for which `open_media_call` reserves a slot. -/
def MediaWorker.Opens (call : MediaRef) : Prop :=
  callValid call = true ∧ w.started = true ∧ w.draining = false ∧ w.findSlot call = none ∧
    w.freeSlot.isSome = true ∧ w.reserves = true

instance (call : MediaRef) : Decidable (w.Opens call) :=
  inferInstanceAs (Decidable (_ ∧ _))

/-- An operation for which `execute_operation` asks the port to begin an input. -/
def MediaWorker.Begins (op : MediaOperation) (input : BytesView) (inputGeneration nowMs : UInt64) :
    Prop :=
  operationInvalid op .beginInput input inputGeneration = false ∧ w.inTime op nowMs ∧
    w.draining = false ∧ ∃ i ∈ w.findSlot op.call, (w.slots i).state = .active ∧
      (w.slots i).lastOperationGeneration < op.operationGeneration ∧
        (w.slots i).actionInFlight = false ∧ (w.slots i).inputActive = false

instance (op : MediaOperation) (input : BytesView) (inputGeneration nowMs : UInt64) :
    Decidable (w.Begins op input inputGeneration nowMs) :=
  inferInstanceAs (Decidable (_ ∧ _ ∧ _ ∧ ∃ i ∈ w.findSlot op.call, _))

/-- A call that gets a slot names its tenant, and no identifier that is stored has a zero
byte. -/
def PlainInput : WorkerInput → Prop
  | .openCall call => w.Opens call → PlainCall call
  | .openOperation op nowMs =>
    op.operationGeneration ≠ 0 → w.inTime op nowMs → w.Opens op.call → PlainCall op.call
  | .execute op action input inputGeneration nowMs =>
    action = .beginInput → w.Begins op input inputGeneration nowMs → 0 ∉ input.getD []
  | _ => True

instance : DecidablePred (PlainInput w) := fun input =>
  match input with
  | .openCall call => inferInstanceAs (Decidable (w.Opens call → PlainCall call))
  | .openOperation op nowMs => inferInstanceAs (Decidable
      (op.operationGeneration ≠ 0 → w.inTime op nowMs → w.Opens op.call → PlainCall op.call))
  | .execute op action input inputGeneration nowMs => inferInstanceAs (Decidable
      (action = .beginInput → w.Begins op input inputGeneration nowMs → 0 ∉ input.getD []))
  | .start | .advanceEpoch _ | .close _ | .publish _ | .drain | .ends _ _ => .isTrue trivial

variable {w} in
theorem inTime_iff {op : MediaOperation} {nowMs : UInt64} :
    w.inTime op nowMs ↔ ¬ (op.deadlineMs ≠ 0 ∧ w.hasClock = false) ∧
      ¬ (op.deadlineMs ≠ 0 ∧ op.deadlineMs < nowMs) := by
  by_cases hzero : op.deadlineMs = 0 <;>
    simp [inTime, hzero, UInt64.not_lt]

theorem slotMatches_iff {slot : MediaSlot} {call : MediaRef} :
    slotMatches slot call = true ↔
      slot.state ≠ .free ∧ callValid call = true ∧ callKey (slotCall slot) = callKey call := by
  simp only [slotMatches, callKey, slotCall, Bool.and_eq_true, decide_eq_true_eq, Prod.mk.injEq,
    cons.injEq, and_true, Option.getD_some]
  tauto

variable {w} {w' : MediaWorker}

theorem findSlot_some {i : ℕ} {call : MediaRef} (h : w.findSlot call = some i) :
    i < w.slotCount ∧ slotMatches (w.slots i) call = true :=
  ⟨mem_range.mp (mem_of_find?_eq_some h),
    List.find?_some (p := fun i => slotMatches (w.slots i) call) h⟩

/-- A view that is there is the text of the slot that was reserved for it. -/
theorem some_cText {view : BytesView} (hthere : view ≠ none) (hplain : 0 ∉ view.getD []) :
    some (cText (view.getD [])) = view := by
  cases view with
  | none => exact absurd rfl hthere
  | some bytes => exact congrArg some (cText_plain hplain)

theorem idValid_there {view : BytesView} (h : idValid view = true) : view ≠ none := by
  rintro rfl
  simp [idValid, viewValid] at h

/-- The reference that a slot gives to its call is the one that opened it. -/
theorem slotCall_opened {call : MediaRef} {o : ℕ} (hvalid : callValid call = true)
    (hplain : PlainCall call) : slotCall (openedSlot call o) = call := by
  obtain ⟨htenant, hzero⟩ := hplain
  simp only [callValid, Bool.and_eq_true] at hvalid
  obtain ⟨⟨⟨⟨⟨-, -⟩, hprovider⟩, hdialog⟩, hroom⟩, hcall⟩ := hvalid
  rw [slotCall]
  simp only [openedSlot]
  rw [some_cText htenant (hzero _ (by simp)),
    some_cText (idValid_there hprovider) (hzero _ (by simp)),
    some_cText (idValid_there hdialog) (hzero _ (by simp)),
    some_cText (idValid_there hroom) (hzero _ (by simp)),
    some_cText (idValid_there hcall) (hzero _ (by simp))]

/-- What the log says of the references to the calls that are open. -/
structure Keyed (w : MediaWorker) : Prop where
  valid : ∀ i, (w.slots i).state ≠ .free → callValid (slotCall (w.slots i)) = true
  distinct : ∀ i j, (w.slots i).state ≠ .free → (w.slots j).state ≠ .free →
    callKey (slotCall (w.slots i)) = callKey (slotCall (w.slots j)) → i = j
  refs : ∀ e ∈ w.log, ∀ i ref, e.ref? = some (i, ref) → ∀ j, (w.slots j).state ≠ .free →
    (w.slots j).openId = e.openId → j = i ∧ slotMatches (w.slots j) ref = true

theorem keyed_create (epoch : UInt64) (slotCount : ℕ) (hasClock : Bool) :
    Keyed (.create epoch slotCount hasClock) := by
  constructor <;> simp [create, MediaSlot.cleared]

theorem Keyed.of_kept (h : Keyed w) (hflying : Flying w)
    (hslots : ∀ j, (w'.slots j).state ≠ .free → (w.slots j).state ≠ .free ∧
      slotCall (w'.slots j) = slotCall (w.slots j) ∧ (w'.slots j).openId = (w.slots j).openId)
    (hlog : w'.log = w.log ∨ ∃ e, w'.log = w.log ++ [e] ∧ ∀ i ref, e.ref? = some (i, ref) →
      (w.slots i).state ≠ .free ∧ ref = slotCall (w.slots i) ∧ e.openId = (w.slots i).openId) :
    Keyed w' := by
  constructor
  case valid =>
    intro i hi
    obtain ⟨hused, hcall, -⟩ := hslots i hi
    rw [hcall]
    exact h.valid i hused
  case distinct =>
    intro i j hi hj heq
    obtain ⟨husedi, hcalli, -⟩ := hslots i hi
    obtain ⟨husedj, hcallj, -⟩ := hslots j hj
    rw [hcalli, hcallj] at heq
    exact h.distinct i j husedi husedj heq
  case refs =>
    intro e he i ref href j hj heq
    obtain ⟨hused, hcall, hid⟩ := hslots j hj
    rw [hid] at heq
    have hold : e ∈ w.log → j = i ∧ slotMatches (w'.slots j) ref = true := by
      intro he
      obtain ⟨hji, hmatch⟩ := h.refs e he i ref href j hused heq
      refine ⟨hji, ?_⟩
      rw [slotMatches_iff] at hmatch ⊢
      rw [hcall]
      exact ⟨hj, hmatch.2⟩
    rcases hlog with hsame | ⟨new, hsame, hnew⟩
    · exact hold (hsame ▸ he)
    · rw [hsame, mem_append, mem_singleton] at he
      rcases he with he | rfl
      · exact hold he
      · obtain ⟨husedi, rfl, hidi⟩ := hnew i ref href
        obtain rfl := hflying.distinct j i hused husedi (heq.trans hidi)
        exact ⟨rfl, slotMatches_iff.mpr ⟨hj, h.valid j hused, congrArg callKey hcall⟩⟩

theorem keyed_opened {i : ℕ} {call : MediaRef} {g : UInt64} (h : Keyed w) (hflying : Flying w)
    (hbooked : Booked w) (hvalid : callValid call = true) (hplain : PlainCall call)
    (hnone : w.findSlot call = none) (hfree : w.freeSlot = some i) :
    Keyed ((({ w.advance with openCount := w.openCount + 1 }.setSlot i
      (openedSlot call w.openCount)).note (.passed w.openCount i call)).depart
        (.opening i g)) := by
  obtain ⟨hlt, hstate⟩ := freeSlot_some hfree
  obtain ⟨a1, -, -, -, -, a6⟩ := advance_fields w
  have hcall := slotCall_opened (o := w.openCount) hvalid hplain
  have hapart : ∀ j, (w.slots j).state ≠ .free →
      callKey (slotCall (w.slots j)) ≠ callKey call := by
    intro j hj heq
    have hno := List.find?_eq_none.mp hnone j (mem_range.mpr (hflying.bounded j hj))
    exact hno (slotMatches_iff.mpr ⟨hj, hvalid, heq⟩)
  constructor
  all_goals
    simp only [depart, note, setSlot, a1, a6, update_apply]
  case valid =>
    intro j hj
    by_cases hji : j = i
    · rw [if_pos hji, hcall]
      exact hvalid
    · rw [if_neg hji] at hj ⊢
      exact h.valid j hj
  case distinct =>
    intro j k hj hk heq
    by_cases hji : j = i <;> by_cases hki : k = i
    · rw [hji, hki]
    · rw [if_pos hji, if_neg hki, hcall] at heq
      rw [if_neg hki] at hk
      exact absurd heq.symm (hapart k hk)
    · rw [if_neg hji, if_pos hki, hcall] at heq
      rw [if_neg hji] at hj
      exact absurd heq (hapart j hj)
    · rw [if_neg hji] at hj heq
      rw [if_neg hki] at hk heq
      exact h.distinct j k hj hk heq
  case refs =>
    intro e he k ref href j hj heq
    rw [mem_append, mem_singleton] at he
    by_cases hji : j = i
    · rw [if_pos hji] at heq ⊢
      rcases he with he | rfl
      · exact absurd (hbooked.known e he) (by rw [← heq]; exact lt_irrefl _)
      · cases href
        refine ⟨hji, slotMatches_iff.mpr ⟨by simp [openedSlot], hvalid, ?_⟩⟩
        rw [hcall]
    · rw [if_neg hji] at hj heq ⊢
      rcases he with he | rfl
      · exact h.refs e he k ref href j hj heq
      · exact absurd (hflying.openIds j hj) (by rw [heq]; exact lt_irrefl _)

theorem Keyed.found {i : ℕ} {ref : MediaRef} (h : Keyed w) (hflying : Flying w)
    (hmatch : slotMatches (w.slots i) ref = true) : w.findSlot ref = some i := by
  obtain ⟨hused, -, hkey⟩ := slotMatches_iff.mp hmatch
  cases hfind : w.findSlot ref with
  | none =>
    exact absurd hmatch
      (List.find?_eq_none.mp hfind i (mem_range.mpr (hflying.bounded i hused)))
  | some j =>
    obtain ⟨husedj, -, hkeyj⟩ := slotMatches_iff.mp (findSlot_some hfind).2
    rw [h.distinct j i husedj hused (hkeyj.trans hkey.symm)]

end Keys

section Sections

/-- The invariant of the worker. -/
structure Consistent (w : MediaWorker) : Prop where
  flying : Flying w
  booked : Booked w
  keyed : Keyed w

variable {w w' : MediaWorker}

theorem consistent_create (epoch : UInt64) (slotCount : ℕ) (hasClock : Bool) :
    Consistent (.create epoch slotCount hasClock) :=
  ⟨flying_create epoch slotCount hasClock, booked_create epoch slotCount hasClock,
    keyed_create epoch slotCount hasClock⟩

theorem Consistent.of_same (h : Consistent w)
    (hslots : w'.slots = w.slots ∧ w'.slotCount = w.slotCount)
    (hflights : w'.flights = w.flights ∧ w'.flightCount = w.flightCount)
    (hopen : w'.openCount = w.openCount) (hlog : w'.log = w.log) : Consistent w' := by
  refine ⟨h.flying.of_same hslots hflights hopen,
    h.booked.of_same hslots.1 hflights.1 hopen hlog, ?_⟩
  refine h.keyed.of_kept h.flying (fun j hj => ?_) (.inl hlog)
  rw [hslots.1] at hj ⊢
  exact ⟨hj, rfl, rfl⟩

variable {call : MediaRef} {g : UInt64}

theorem consistent_openMediaCall (h : Consistent w)
    (hplain : w.Opens call → PlainCall call) : Consistent (w.openMediaCall call g).1 := by
  rw [openMediaCall]
  split
  · exact h
  next hvalid =>
    rw [Bool.not_eq_false] at hvalid
    split
    · exact h
    next hrunning =>
      obtain ⟨hstarted, hdraining⟩ : w.started = true ∧ w.draining = false := by
        simpa using hrunning
      split
      next => exact h
      next hnone =>
        split
        next => exact h
        next i hfree =>
          split
          next hroom =>
            have hopens : w.Opens call :=
              ⟨hvalid, hstarted, hdraining, hnone, by simp [hfree], hroom⟩
            exact ⟨flying_opened h.flying hfree, booked_opened h.flying h.booked,
              keyed_opened h.keyed h.flying h.booked hvalid (hplain hopens) hnone hfree⟩
          · exact h

variable {f i : ℕ} {status : MediaStatus}

variable (h : Consistent w)
include h

theorem consistent_openEnds
    (hf : w.flights f = some (.opening i g)) : Consistent (w.openEnds f i g status).1 := by
  refine ⟨flying_openEnds h.flying hf, booked_openEnds h.flying h.booked hf, ?_⟩
  obtain ⟨a1, -, -, -, -, a6⟩ := advance_fields w
  rw [openEnds]
  split <;> refine h.keyed.of_kept h.flying ?_ (.inl a6) <;>
    simp only [land, setSlot, a1, update_apply] <;>
    grind [MediaSlot.cleared, slotCall]

theorem consistent_execute
    {op : MediaOperation} {action : MediaAction} {input : BytesView} {ig nowMs : UInt64}
    (hplain : action = .beginInput → w.Begins op input ig nowMs → 0 ∉ input.getD []) :
    Consistent (w.execute op action input ig nowMs).1 := by
  rw [execute]
  split
  · exact h
  next hvalid =>
    split
    · exact h
    next hclock =>
      split
      next => exact h
      next i hfind =>
        dsimp only
        split_ifs with hstate hdraining hlate holder hsame hbusy hopen hmismatch
        all_goals try exact h
        all_goals
          have hact : (w.slots i).state = .active := by
            by_contra hne
            exact hstate (.inl hne)
          have hidle : (w.slots i).actionInFlight = false := by simpa using hbusy
          have hlater : (w.slots i).lastOperationGeneration < op.operationGeneration := by
            rcases UInt64.lt_or_eq_of_le (UInt64.not_lt.mp holder) with hlt | heq
            · exact hlt
            · exact absurd heq.symm hsame
          have hbegin : action = .beginInput → 0 ∉ input.getD [] := by
            rintro rfl
            refine hplain rfl ⟨by simpa using hvalid, inTime_iff.mpr ⟨hclock, hlate⟩, ?_, i,
              hfind, hact, hlater, hidle, ?_⟩
            · simpa using fun hd => hstate (.inr hd)
            · simpa using hopen
          refine ⟨flying_executed h.flying hact hidle hlater hbegin,
            booked_executed h.flying h.booked hact hidle hlater, ?_⟩
          refine h.keyed.of_kept h.flying ?_ (.inr ⟨_, rfl, ?_⟩)
        · intro j hj
          simp only [depart, note, setSlot,
            update_apply] at hj ⊢
          by_cases hji : j = i
          · subst hji
            rw [if_pos rfl]
            exact ⟨by rw [hact]; simp, rfl, rfl⟩
          · rw [if_neg hji] at hj ⊢
            exact ⟨hj, rfl, rfl⟩
        · rintro _ _ ⟨⟩
          exact ⟨by rw [hact]; simp, rfl, rfl⟩

theorem consistent_executeEnds {action : MediaAction} {ig : UInt64} {input : List UInt8}
    (hf : w.flights f = some (.acting i action g input ig)) :
    Consistent (w.executeEnds f i action g input ig status).1 := by
  refine ⟨flying_executeEnds h.flying hf, booked_executeEnds h.flying h.booked hf, ?_⟩
  refine h.keyed.of_kept h.flying (fun j hj => ?_) (.inr ⟨_, rfl, by rintro _ _ ⟨⟩⟩)
  simp only [executeEnds, land, note, setSlot,
    update_apply] at hj ⊢
  by_cases hji : j = i
  · subst hji
    rw [if_pos rfl] at hj ⊢
    split at hj
    next hok =>
      rw [if_pos hok]
      cases action <;> exact ⟨hj, rfl, rfl⟩
    next hfail =>
      rw [if_neg hfail]
      exact ⟨hj, rfl, rfl⟩
  · rw [if_neg hji] at hj ⊢
    exact ⟨hj, rfl, rfl⟩

theorem consistent_closeMediaCall :
    Consistent (w.closeMediaCall call).1 := by
  rw [closeMediaCall]
  split
  · exact h
  · split
    next => exact h
    next i hfind =>
      split_ifs with hstate hroom
      · exact h
      · rw [not_not] at hstate
        obtain ⟨a1, -, -, -, -, a6⟩ := advance_fields w
        refine ⟨flying_close h.flying hstate, booked_close h.flying h.booked hstate,
          h.keyed.of_kept h.flying ?_ (.inl a6)⟩
        simp only [depart, setSlot, a1, update_apply]
        grind [slotCall]
      · exact h

theorem consistent_closeStops (hf : w.flights f = some (.closing i)) :
    Consistent (w.closeStops f i).1 := by
  refine ⟨flying_closeStops h.flying hf, booked_closeStops h.flying h.booked hf, ?_⟩
  have hclos := h.flying.closing f i hf
  rw [closeStops]
  split
  next =>
    refine h.keyed.of_kept h.flying (fun j hj => ⟨hj, rfl, rfl⟩) (.inr ⟨_, rfl, ?_⟩)
    rintro _ _ ⟨⟩
    exact ⟨by rw [hclos]; simp, rfl, rfl⟩
  next => exact h.keyed

theorem consistent_closeEnds
    (hf : w.flights f = some (.stopping i)) : Consistent (w.closeEnds f i status).1 := by
  obtain ⟨a1, -, -, -, -, a6⟩ := advance_fields w
  refine ⟨flying_closeEnds h.flying hf, booked_closeEnds h.booked hf,
    h.keyed.of_kept h.flying ?_ (.inl a6)⟩
  simp only [closeEnds, land, setSlot, a1, update_apply]
  grind [MediaSlot.cleared]

theorem consistent_publish :
    Consistent (w.publish call).1 := by
  rw [publish]
  split
  · exact h
  · split
    next => exact h
    next i hfind =>
      split_ifs with hstate
      · exact h
      · rw [not_not] at hstate
        refine ⟨flying_publish h.flying hstate, booked_publish h.flying h.booked,
          h.keyed.of_kept h.flying ?_ (.inl rfl)⟩
        simp only [depart, setSlot, update_apply]
        grind [slotCall]

theorem consistent_publishEnds
    (hf : w.flights f = some (.publishing i)) : Consistent (w.publishEnds f i status).1 := by
  refine ⟨flying_publishEnds h.flying, booked_publishEnds h.booked hf,
    h.keyed.of_kept h.flying ?_ (.inl rfl)⟩
  simp only [publishEnds, land, setSlot, update_apply]
  grind [slotCall]

omit h

theorem consistent_step {input : WorkerInput} (hplain : PlainInput w input) (h : Consistent w) :
    Consistent (workerMachine.next w input) := by
  obtain ⟨a1, a2, a3, a4, a5, a6⟩ := advance_fields w
  cases input with
  | start =>
    change Consistent w.start.1
    rw [start]
    split
    · exact h
    · exact h.of_same ⟨rfl, rfl⟩ ⟨rfl, rfl⟩ rfl rfl
  | advanceEpoch epoch =>
    change Consistent (w.advanceEpoch epoch).1
    rw [advanceEpoch]
    split_ifs
    all_goals try exact h
    exact h.of_same ⟨a1, a2⟩ ⟨a3, a4⟩ a5 a6
  | openCall call => exact consistent_openMediaCall h hplain
  | openOperation op nowMs =>
    change Consistent (w.openMediaOperation op nowMs).1
    rw [openMediaOperation]
    split_ifs with hinvalid hclock hlate
    all_goals try exact h
    exact consistent_openMediaCall h
      (hplain (fun hzero => hinvalid (.inl hzero)) (inTime_iff.mpr ⟨hclock, hlate⟩))
  | execute op action input ig nowMs => exact consistent_execute h hplain
  | close call => exact consistent_closeMediaCall h
  | publish call => exact consistent_publish h
  | drain => exact h.of_same ⟨rfl, rfl⟩ ⟨rfl, rfl⟩ rfl rfl
  | ends f status =>
    cases hf : w.flights f with
    | none => simpa [Machine.next, workerMachine, hf] using h
    | some flight =>
      cases flight with
      | opening i g => simpa [Machine.next, workerMachine, hf] using consistent_openEnds h hf
      | acting i action g input ig =>
        simpa [Machine.next, workerMachine, hf] using consistent_executeEnds h hf
      | publishing i => simpa [Machine.next, workerMachine, hf] using consistent_publishEnds h hf
      | closing i => simpa [Machine.next, workerMachine, hf] using consistent_closeStops h hf
      | stopping i => simpa [Machine.next, workerMachine, hf] using consistent_closeEnds h hf

end Sections

variable {w : MediaWorker} {i : ℕ}

theorem execute_repeat
    {op : MediaOperation} {action : MediaAction} {input : BytesView} {ig nowMs : UInt64}
    (hact : (w.slots i).state = .active) (hdraining : w.draining = false)
    (hfind : w.findSlot op.call = some i)
    (hsame : op.operationGeneration = (w.slots i).lastOperationGeneration)
    (hvalid : operationInvalid op action input ig = false) (hintime : w.inTime op nowMs) :
    w.execute op action input ig nowMs = (w, .returned (w.slots i).lastOperationStatus) := by
  obtain ⟨hclock, hlate⟩ := inTime_iff.mp hintime
  rw [execute, if_neg (by simp [hvalid]), if_neg hclock, hfind]
  simp only [hact, hdraining, hsame]
  simp [UInt64.lt_irrefl, hlate]

theorem openOperation_repeat {op : MediaOperation} {nowMs : UInt64}
    (hact : (w.slots i).state = .active) (hdraining : w.draining = false)
    (hstart : w.started = true) (hfind : w.findSlot op.call = some i)
    (hsame : op.operationGeneration = (w.slots i).lastOperationGeneration)
    (hnonzero : op.operationGeneration ≠ 0) (hintime : w.inTime op nowMs) :
    w.openMediaOperation op nowMs = (w, .returned (w.slots i).lastOperationStatus) := by
  have hvalid : callValid op.call = true := (slotMatches_iff.mp (findSlot_some hfind).2).2.1
  obtain ⟨hclock, hlate⟩ := inTime_iff.mp hintime
  rw [openMediaOperation, if_neg (by simp [hnonzero, hvalid]), if_neg hclock,
    if_neg hlate, openMediaCall, if_neg (by simp [hvalid]),
    if_neg (by simp [hstart, hdraining]), hfind]
  simp [openExisting, hact, hnonzero, ← hsame, UInt64.lt_irrefl]

/-- What the worker does with a reference that it finds in a slot. -/
structure MediaWorker.Accepts (w : MediaWorker) (i : ℕ) (ref : MediaRef) : Prop where
  found : w.findSlot ref = some i
  has : w.hasMediaCall ref = true
  published : (w.slots i).state = .active → (w.publish ref).2 = .departed
  closed : (w.slots i).state = .active → w.reserves = true → (w.closeMediaCall ref).2 = .departed

theorem accepts_of_found {ref : MediaRef} (hvalid : callValid ref = true)
    (hfind : w.findSlot ref = some i) : w.Accepts i ref := by
  refine ⟨hfind, by simp [hasMediaCall, hvalid, hfind], fun hact => ?_,
    fun hact hroom => ?_⟩
  · simp [publish, hvalid, hfind, hact]
  · simp [closeMediaCall, hvalid, hfind, hact, hroom]

/-- In a run in which each call that gets a slot names a tenant and no identifier that is
stored has a zero byte: the generations that the port of a call is asked for increase, the
input window is the effect of the successful operations, a repeat in time is answered with what
the port has answered last, and a reference to an open call is accepted and found in its slot. -/
theorem operations_once
    {epoch : UInt64} {slotCount : ℕ} {hasClock : Bool} {inputs : List WorkerInput}
    (hplain : workerMachine.Along PlainInput (.create epoch slotCount hasClock) inputs)
    (hw : w = workerMachine.run (.create epoch slotCount hasClock) inputs) :
    (∀ o, (invokedGenerations o w.log).Pairwise (· < ·)) ∧
      (∀ i, (w.slots i).state ≠ .free → (w.slots i).window = inputEffect (w.slots i).openId w.log) ∧
      (∀ e ∈ w.log, ∀ i ref, e.ref? = some (i, ref) → ∀ j, (w.slots j).state ≠ .free →
        (w.slots j).openId = e.openId → j = i ∧ w.Accepts i ref) ∧
      (∀ i g status, (w.slots i).state = .active → w.draining = false →
        lastReturned (w.slots i).openId w.log = some (g, status) →
          ∀ op nowMs, w.findSlot op.call = some i → op.operationGeneration = g → w.inTime op nowMs →
              (∀ action input ig, operationInvalid op action input ig = false →
                workerMachine.step w (.execute op action input ig nowMs) = (w, .returned status)) ∧
              (w.started = true → op.operationGeneration ≠ 0 →
                workerMachine.step w (.openOperation op nowMs) = (w, .returned status))) := by
  have hconsistent : Consistent w := by
    rw [hw]
    exact workerMachine.run_invariant_along (fun _ _ hstep h => consistent_step hstep h)
      (consistent_create epoch slotCount hasClock) hplain
  refine ⟨hconsistent.booked.ordered, hconsistent.booked.window, ?_, ?_⟩
  · intro e he i ref href j hj heq
    obtain ⟨rfl, hmatch⟩ := hconsistent.keyed.refs e he i ref href j hj heq
    exact ⟨rfl, accepts_of_found (slotMatches_iff.mp hmatch).2.1
      (hconsistent.keyed.found hconsistent.flying hmatch)⟩
  · intro i g status hactive hdraining hlast op nowMs hfind hgeneration hintime
    obtain ⟨hg, hs⟩ := hconsistent.booked.latest i (by rw [hactive]; simp) _ hlast
    obtain rfl : (w.slots i).lastOperationStatus = status := hs
    have hsame := hgeneration.trans hg.symm
    exact ⟨fun action input ig hvalid =>
        execute_repeat hactive hdraining hfind hsame hvalid hintime,
      fun hstarted hnonzero =>
        openOperation_repeat hactive hdraining hstarted hfind hsame hnonzero hintime⟩

/-- A call of the tenant `tenant`. -/
def callOf (tenant : BytesView) : MediaRef where
  tenantId := tenant
  providerSessionId := some [112]
  dialogId := some [100]
  roomId := some [114]
  callId := some [99]
  callGeneration := 1
  expectedRoomVersion := 1

/-- A call is opened and the port plays once. -/
def playOnce (tenant : BytesView) : List WorkerInput :=
  [.start, .openCall (callOf tenant), .ends 0 .ok,
    .execute ⟨callOf tenant, 1, 0⟩ .play (some [109]) 0 0]

/-- The port has played, and an input is open. -/
def playThenBegin : List WorkerInput :=
  playOnce (some [116]) ++
    [.ends 1 .ok, .execute ⟨callOf (some [116]), 2, 0⟩ .beginInput (some [105]) 7 0, .ends 2 .ok]

theorem operations_once_played :
    ∃ w, w = workerMachine.run (.create 1 1 true) playThenBegin ∧
      (invokedGenerations 0 w.log).Pairwise (· < ·) ∧
        (w.slots 0).window = inputEffect (w.slots 0).openId w.log := by
  obtain ⟨hordered, hwindow, -⟩ := @operations_once _ 1 1 true playThenBegin (by decide) rfl
  exact ⟨_, rfl, hordered 0, hwindow 0 (by decide)⟩

/-- The call has no tenant: the worker refuses the reference that it gives to the port. -/
theorem tenantless_reference_refused :
    ∃ w, w = workerMachine.run (.create 1 1 true) (playOnce none) ∧ (w.slots 0).state = .active ∧
        ∃ e ∈ w.log, ∃ ref, e.ref? = some (0, ref) ∧ (w.slots 0).openId = e.openId ∧
          w.findSlot ref = none ∧ w.hasMediaCall ref = false ∧
            (w.publish ref).2 = .returned .einval ∧
              (w.closeMediaCall ref).2 = .returned .einval := by
  refine ⟨_, rfl, by decide, .invoked 0 0 (slotCall (openedSlot (callOf none) 0)) .play 1,
    by decide, slotCall (openedSlot (callOf none) 0), rfl, by decide, by decide, by decide,
    by decide, by decide⟩

end TurboMedia.Ivr
