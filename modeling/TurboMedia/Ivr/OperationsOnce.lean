import TurboMedia.Ivr.MediaWorker

/-!
# What the worker knows of an open call

The invariant of the media worker: the functions in flight agree with the slots that they
use, and a slot agrees with what the port of its call was asked and has answered.

**Input.**  Any section of a function of the worker, started in a state that is `Flying` and
`Booked`.

**Method.**  `invokedGenerations`, `lastReturned` and `inputEffect` read the log of one open
call.  `Flying` says who may be in flight on a slot; it keeps two operations of one call from
being with the port at once.  `Booked` compares the slot with the three readings.
-/

namespace TurboMedia.Ivr

open List Function MediaWorker MediaSlot

section Histories

/-- The generations that the port of an open call was asked to execute. -/
def invokedGenerations (o : ℕ) (log : List PortEvent) : List UInt64 :=
  log.filterMap (fun e =>
    match e with
    | .invoked o' _ _ _ generation => if o' = o then some generation else none
    | _ => none)

/-- What the port of an open call has answered last. -/
def lastReturned (o : ℕ) (log : List PortEvent) : Option (UInt64 × MediaStatus) :=
  (log.filterMap (fun e =>
    match e with
    | .returned o' _ generation _ _ status => if o' = o then some (generation, status) else none
    | _ => none)).getLast?

/-- The input window after one more answer of the port. -/
def windowAfter (o : ℕ) (window : Option (List UInt8 × UInt64)) :
    PortEvent → Option (List UInt8 × UInt64)
  | .returned o' action _ input inputGeneration status =>
    if o' = o ∧ status = .ok then
      match action with
      | .play => window
      | .beginInput => some (input, inputGeneration)
      | _ => none
    else window
  | _ => window

/-- The input window that the successful operations of an open call lead to. -/
def inputEffect (o : ℕ) (log : List PortEvent) : Option (List UInt8 × UInt64) :=
  log.foldl (windowAfter o) none

def MediaSlot.window (slot : MediaSlot) : Option (List UInt8 × UInt64) :=
  if slot.inputActive then some (slot.inputId, slot.inputGeneration) else none

def PortEvent.openId : PortEvent → ℕ
  | .passed o _ _ => o
  | .invoked o _ _ _ _ => o
  | .returned o _ _ _ _ _ => o

/-- The slot and the reference that the port was given. -/
def PortEvent.ref? : PortEvent → Option (ℕ × MediaRef)
  | .passed _ i ref => some (i, ref)
  | .invoked _ i ref _ _ => some (i, ref)
  | .returned .. => none

variable {o : ℕ} {log : List PortEvent} {e : PortEvent}

theorem invokedGenerations_append :
    invokedGenerations o (log ++ [e]) = invokedGenerations o log ++ invokedGenerations o [e] :=
  filterMap_append

theorem inputEffect_append : inputEffect o (log ++ [e]) = windowAfter o (inputEffect o log) e := by
  rw [inputEffect, foldl_append]
  rfl

theorem histories_other (h : e.openId ≠ o) :
    invokedGenerations o (log ++ [e]) = invokedGenerations o log ∧
      lastReturned o (log ++ [e]) = lastReturned o log ∧
        inputEffect o (log ++ [e]) = inputEffect o log := by
  rw [inputEffect_append, invokedGenerations, lastReturned, lastReturned,
    filterMap_append, filterMap_append]
  cases e with
  | passed o' i ref => simp [invokedGenerations, windowAfter]
  | invoked o' i ref action generation
  | returned o' action generation input inputGeneration status =>
    have hne : o' ≠ o := h
    simp [invokedGenerations, windowAfter, hne]

theorem histories_passed (o' i : ℕ) (ref : MediaRef) :
    invokedGenerations o (log ++ [.passed o' i ref]) = invokedGenerations o log ∧
      lastReturned o (log ++ [.passed o' i ref]) = lastReturned o log ∧
        inputEffect o (log ++ [.passed o' i ref]) = inputEffect o log := by
  rw [inputEffect_append, invokedGenerations, lastReturned, lastReturned,
    filterMap_append, filterMap_append]
  simp [invokedGenerations, windowAfter]

/-- Nothing is known of a call before its port is asked to execute something. -/
theorem histories_fresh (h : ∀ e ∈ log, e.openId = o → ∃ i ref, e = .passed o i ref) :
    invokedGenerations o log = [] ∧ lastReturned o log = none ∧ inputEffect o log = none := by
  induction log using reverseRecOn with
  | nil => exact ⟨rfl, rfl, rfl⟩
  | append_singleton log e ih =>
    have hrest := ih (fun e' he' => h e' (by simp [he']))
    by_cases heq : e.openId = o
    · obtain ⟨i, ref, rfl⟩ := h e (by simp) heq
      obtain ⟨hinvoked, hret, heffect⟩ := histories_passed (o := o) o i ref
      rw [hinvoked, hret, heffect]
      exact hrest
    · obtain ⟨hinvoked, hret, heffect⟩ := histories_other heq
      rw [hinvoked, hret, heffect]
      exact hrest

end Histories

/-- What holds of the functions in flight and of the slots that they use. -/
structure Flying (w : MediaWorker) : Prop where
  fresh : ∀ f, w.flightCount ≤ f → w.flights f = none
  bounded : ∀ i, (w.slots i).state ≠ .free → i < w.slotCount
  acting : ∀ f i action g input ig, w.flights f = some (.acting i action g input ig) →
    (w.slots i).actionInFlight = true ∧ f ∈ (w.slots i).borrowers ∧
      ((w.slots i).state = .active ∨ (w.slots i).state = .closing) ∧
        (w.slots i).lastOperationGeneration < g ∧ (action = .beginInput → 0 ∉ input)
  oneActing : ∀ f f' i action g input ig action' g' input' ig',
    w.flights f = some (.acting i action g input ig) →
      w.flights f' = some (.acting i action' g' input' ig') → f = f'
  opening : ∀ f i g, w.flights f = some (.opening i g) → (w.slots i).state = .opening
  oneOpening : ∀ f f' i g g', w.flights f = some (.opening i g) →
    w.flights f' = some (.opening i g') → f = f'
  closing : ∀ f i, w.flights f = some (.closing i) → (w.slots i).state = .closing
  stopping : ∀ f i, w.flights f = some (.stopping i) →
    (w.slots i).state = .closing ∧ (w.slots i).borrowers = []
  oneClosing : ∀ f f' i, w.flights f = some (.closing i) ∨ w.flights f = some (.stopping i) →
    w.flights f' = some (.closing i) ∨ w.flights f' = some (.stopping i) → f = f'
  openIds : ∀ i, (w.slots i).state ≠ .free → (w.slots i).openId < w.openCount
  distinct : ∀ i j, (w.slots i).state ≠ .free → (w.slots j).state ≠ .free →
    (w.slots i).openId = (w.slots j).openId → i = j

/-- What the log says of the calls that are open. -/
structure Booked (w : MediaWorker) : Prop where
  known : ∀ e ∈ w.log, e.openId < w.openCount
  ordered : ∀ o, (invokedGenerations o w.log).Pairwise (· < ·)
  before : ∀ i, (w.slots i).state = .opening →
    ∀ e ∈ w.log, e.openId = (w.slots i).openId → ∃ j ref, e = .passed (w.slots i).openId j ref
  reached : ∀ i, (w.slots i).state ≠ .free →
    ∀ g ∈ invokedGenerations (w.slots i).openId w.log, g ≤ (w.slots i).lastOperationGeneration ∨
      ∃ f action input ig, w.flights f = some (.acting i action g input ig)
  window : ∀ i, (w.slots i).state ≠ .free →
    (w.slots i).window = inputEffect (w.slots i).openId w.log
  latest : ∀ i, (w.slots i).state ≠ .free →
    ∀ r ∈ lastReturned (w.slots i).openId w.log,
      (w.slots i).lastOperationGeneration = r.1 ∧ (w.slots i).lastOperationStatus = r.2

/-- `Booked` for one slot that is in use. -/
structure SlotBooked (w : MediaWorker) (i : ℕ) : Prop where
  before : (w.slots i).state = .opening →
    ∀ e ∈ w.log, e.openId = (w.slots i).openId → ∃ j ref, e = .passed (w.slots i).openId j ref
  reached : ∀ g ∈ invokedGenerations (w.slots i).openId w.log,
    g ≤ (w.slots i).lastOperationGeneration ∨
      ∃ f action input ig, w.flights f = some (.acting i action g input ig)
  window : (w.slots i).window = inputEffect (w.slots i).openId w.log
  latest : ∀ r ∈ lastReturned (w.slots i).openId w.log,
    (w.slots i).lastOperationGeneration = r.1 ∧ (w.slots i).lastOperationStatus = r.2

variable {w w' : MediaWorker}

theorem Booked.slot {i : ℕ} (h : Booked w) (hused : (w.slots i).state ≠ .free) : SlotBooked w i :=
  ⟨h.before i, h.reached i hused, h.window i hused, h.latest i hused⟩

/-- An event of another call, and the functions in flight on the slot still are. -/
theorem SlotBooked.other {i : ℕ} {e : PortEvent} (h : SlotBooked w i)
    (hslot : w'.slots i = w.slots i) (hlog : w'.log = w.log ++ [e])
    (he : e.openId ≠ (w.slots i).openId)
    (hflights : ∀ f action g input ig, w.flights f = some (.acting i action g input ig) →
      w'.flights f = some (.acting i action g input ig)) : SlotBooked w' i := by
  obtain ⟨hinvoked, hret, heffect⟩ := @histories_other _ w.log _ he
  constructor <;> rw [hslot, hlog]
  case before =>
    intro hstate e' he' heq
    rcases mem_append.mp he' with hold | hlast
    · exact h.before hstate e' hold heq
    · rw [mem_singleton.mp hlast] at heq
      exact absurd heq he
  case reached =>
    intro g hg
    rw [hinvoked] at hg
    refine (h.reached g hg).imp_right ?_
    rintro ⟨f, action, input, ig, hf⟩
    exact ⟨f, action, input, ig, hflights f action g input ig hf⟩
  case window => rw [heffect, h.window]
  case latest =>
    rw [hret]
    exact h.latest

/-- One more event, of the call in the slot `i`; the other slots are as they were. -/
theorem Booked.of_event {i : ℕ} {e : PortEvent} (h : Booked w)
    (hlog : w'.log = w.log ++ [e]) (hid : e.openId = (w'.slots i).openId)
    (hcount : w.openCount ≤ w'.openCount) (hknown : e.openId < w'.openCount)
    (hordered : (invokedGenerations e.openId w'.log).Pairwise (· < ·))
    (hslots : ∀ j, j ≠ i → w'.slots j = w.slots j)
    (hapart : ∀ j, j ≠ i → (w.slots j).state ≠ .free → e.openId ≠ (w.slots j).openId)
    (hflights : ∀ f j action g input ig, j ≠ i →
      w.flights f = some (.acting j action g input ig) →
        w'.flights f = some (.acting j action g input ig))
    (hslot : SlotBooked w' i) : Booked w' := by
  have hall : ∀ j, (w'.slots j).state ≠ .free → SlotBooked w' j := by
    intro j hj
    rcases eq_or_ne j i with rfl | hji
    · exact hslot
    · rw [hslots j hji] at hj
      exact (h.slot hj).other (hslots j hji) hlog (hapart j hji hj)
        (fun f action g input ig => hflights f j action g input ig hji)
  constructor
  case known =>
    intro e' he'
    rw [hlog, mem_append, mem_singleton] at he'
    rcases he' with hold | rfl
    · exact (h.known e' hold).trans_le hcount
    · exact hknown
  case ordered =>
    intro o
    rcases eq_or_ne e.openId o with rfl | ho
    · exact hordered
    · rw [hlog, (histories_other ho).1]
      exact h.ordered o
  case before => exact fun j hj => (hall j (by rw [hj]; simp)).before hj
  case reached => exact fun j hj => (hall j hj).reached
  case window => exact fun j hj => (hall j hj).window
  case latest => exact fun j hj => (hall j hj).latest

theorem flying_create (epoch : UInt64) (slotCount : ℕ) (hasClock : Bool) :
    Flying (.create epoch slotCount hasClock) := by
  constructor <;> simp [create, cleared]

theorem booked_create (epoch : UInt64) (slotCount : ℕ) (hasClock : Bool) :
    Booked (.create epoch slotCount hasClock) := by
  constructor <;> simp [create, cleared, invokedGenerations]

theorem Flying.of_same (h : Flying w) (hslots : w'.slots = w.slots ∧ w'.slotCount = w.slotCount)
    (hflights : w'.flights = w.flights ∧ w'.flightCount = w.flightCount)
    (hopen : w'.openCount = w.openCount) : Flying w' := by
  obtain ⟨h1, h2, h3, h4, h5, h6, h7, h8, h9, h10, h11⟩ := h
  constructor <;> simp only [hslots, hflights, hopen] <;> assumption

theorem Booked.of_same (h : Booked w) (hslots : w'.slots = w.slots)
    (hflights : w'.flights = w.flights) (hopen : w'.openCount = w.openCount)
    (hlog : w'.log = w.log) : Booked w' := by
  obtain ⟨h1, h2, h3, h4, h5, h6⟩ := h
  constructor <;> simp only [hslots, hflights, hopen, hlog] <;> assumption

@[simp] theorem advance_fields (w : MediaWorker) :
    w.advance.slots = w.slots ∧ w.advance.slotCount = w.slotCount ∧
      w.advance.flights = w.flights ∧ w.advance.flightCount = w.flightCount ∧
        w.advance.openCount = w.openCount ∧ w.advance.log = w.log := by
  rw [advance]
  split <;> simp

variable {i : ℕ}

theorem freeSlot_some (h : w.freeSlot = some i) :
    i < w.slotCount ∧ (w.slots i).state = .free := by
  have hmem := mem_of_find?_eq_some h
  have hfree := find?_some h
  exact ⟨mem_range.mp hmem, by simpa using hfree⟩

variable {g : UInt64}

theorem flying_opened {call : MediaRef} {e : PortEvent} (h : Flying w)
    (hfree : w.freeSlot = some i) :
    Flying ((({ w.advance with openCount := w.openCount + 1 }.setSlot i
      (openedSlot call w.openCount)).note e).depart (.opening i g)) := by
  obtain ⟨hlt, hstate⟩ := freeSlot_some hfree
  obtain ⟨a1, a2, a3, a4, -, -⟩ := advance_fields w
  obtain ⟨h1, h2, h3, h4, h5, h6, h7, h8, h9, h10, h11⟩ := h
  constructor <;>
    simp only [depart, note, setSlot, a1, a2, a3, a4,
      update_apply] <;>
    grind [openedSlot, cleared]

theorem booked_opened {call : MediaRef} (hflying : Flying w) (h : Booked w) :
    Booked ((({ w.advance with openCount := w.openCount + 1 }.setSlot i
      (openedSlot call w.openCount)).note (.passed w.openCount i call)).depart
        (.opening i g)) := by
  obtain ⟨a1, -, a3, a4, -, a6⟩ := advance_fields w
  have hnew : ∀ e ∈ w.log ++ [.passed w.openCount i call], e.openId = w.openCount →
      ∃ j ref, e = .passed w.openCount j ref := by
    intro e he heq
    rcases mem_append.mp he with hold | hlast
    · exact absurd (h.known e hold) (by omega)
    · exact ⟨i, call, mem_singleton.mp hlast⟩
  obtain ⟨hinvoked, hret, heffect⟩ := histories_fresh hnew
  have hflights := hflying.fresh _ le_rfl
  have hnow : ∀ j, ((({ w.advance with openCount := w.openCount + 1 }.setSlot i
      (openedSlot call w.openCount)).note (.passed w.openCount i call)).depart
        (.opening i g)).slots j = if j = i then openedSlot call w.openCount else w.slots j := by
    intro j
    simp [depart, note, setSlot, update_apply]
  refine h.of_event (i := i) (e := .passed w.openCount i call) (congrArg (· ++ [_]) a6) ?_
    (Nat.le_succ _) (Nat.lt_succ_self _) ?_ (fun j hji => (hnow j).trans (if_neg hji))
    (fun j _ hj => (hflying.openIds j hj).ne') ?_ ?_
  · rw [hnow, if_pos rfl]
    rfl
  · change (invokedGenerations w.openCount (w.advance.log ++ [_])).Pairwise _
    rw [a6, hinvoked]
    exact Pairwise.nil
  · intro f j action g' input ig _ hf
    refine (update_of_ne ?_ _ _).trans (a3 ▸ hf)
    rintro rfl
    change w.flights w.advance.flightCount = _ at hf
    rw [a4, hflying.fresh _ le_rfl] at hf
    cases hf
  · have hlog : ((({ w.advance with openCount := w.openCount + 1 }.setSlot i
        (openedSlot call w.openCount)).note (.passed w.openCount i call)).depart
          (.opening i g)).log = w.log ++ [.passed w.openCount i call] := congrArg (· ++ [_]) a6
    constructor <;> rw [hnow, if_pos rfl, hlog]
    · exact fun _ => hnew
    · intro g' hg'
      rw [show (openedSlot call w.openCount).openId = w.openCount from rfl, hinvoked] at hg'
      cases hg'
    · exact heffect.symm
    · intro r hr
      rw [show (openedSlot call w.openCount).openId = w.openCount from rfl, hret] at hr
      cases hr

variable {f : ℕ} {status : MediaStatus}

theorem flying_openEnds (h : Flying w)
    (hf : w.flights f = some (.opening i g)) : Flying (w.openEnds f i g status).1 := by
  obtain ⟨a1, a2, a3, a4, a5, -⟩ := advance_fields w
  rw [openEnds]
  obtain ⟨h1, h2, h3, h4, h5, h6, h7, h8, h9, h10, h11⟩ := h
  split <;> constructor <;>
    simp only [land, setSlot, a1, a2, a3, a4, a5, update_apply] <;>
    grind [cleared]

theorem booked_openEnds (hflying : Flying w)
    (h : Booked w) (hf : w.flights f = some (.opening i g)) :
    Booked (w.openEnds f i g status).1 := by
  obtain ⟨a1, a2, a3, a4, a5, a6⟩ := advance_fields w
  have hopn := hflying.opening f i g hf
  obtain ⟨hinvoked, hret, heffect⟩ := histories_fresh (h.before i hopn)
  have hwin := h.window i (by rw [hopn]; simp)
  obtain ⟨h1, h2, h3, h4, h5, h6⟩ := h
  rw [openEnds]
  split <;> constructor <;>
    simp only [land, setSlot, a1, a3, a5, a6, update_apply] <;>
    grind [cleared, window]

variable {action : MediaAction} {ig : UInt64} {input : List UInt8}

theorem flying_executed {e : PortEvent} (h : Flying w) (hact : (w.slots i).state = .active)
    (hidle : (w.slots i).actionInFlight = false) (hlater : (w.slots i).lastOperationGeneration < g)
    (hplain : action = .beginInput → 0 ∉ input) :
    Flying (((w.setSlot i { w.slots i with
      actionInFlight := true
      borrowers := w.flightCount :: (w.slots i).borrowers }).note e).depart
        (.acting i action g input ig)) := by
  obtain ⟨h1, h2, h3, h4, h5, h6, h7, h8, h9, h10, h11⟩ := h
  constructor <;>
    simp only [depart, note, setSlot, update_apply] <;>
    grind

theorem Flying.landed {slot : MediaSlot} {log : List PortEvent} (h : Flying w)
    (hstate : slot.state = (w.slots i).state) (hopenId : slot.openId = (w.slots i).openId)
    (hborrowers : slot.borrowers = (w.slots i).borrowers.erase f)
    (hkept : ∀ f' action g input ig, f' ≠ f → w.flights f' = some (.acting i action g input ig) →
        slot.actionInFlight = true ∧ slot.lastOperationGeneration < g) :
    Flying ({ w.setSlot i slot with log := log }.land f) := by
  obtain ⟨h1, h2, h3, h4, h5, h6, h7, h8, h9, h10, h11⟩ := h
  constructor <;>
    simp only [land, setSlot, update_apply] <;>
    grind

theorem cText_plain {bytes : List UInt8} (h : 0 ∉ bytes) : cText bytes = bytes := by
  induction bytes with
  | nil => rfl
  | cons b bytes ih =>
    rw [mem_cons, not_or] at h
    rw [cText, takeWhile_cons, if_pos (by simpa using Ne.symm h.1)]
    exact congrArg (b :: ·) (ih h.2)

theorem window_applyInput {slot : MediaSlot} (hplain : action = .beginInput → 0 ∉ input) :
    (slot.applyInput action input ig).window =
      windowAfter slot.openId slot.window (.returned slot.openId action g input ig .ok) := by
  cases action with
  | play => simp [applyInput, windowAfter]
  | beginInput =>
    simp [applyInput, window, windowAfter, cText_plain (hplain rfl)]
  | endInput | cancelInput => simp [applyInput, window, windowAfter]

theorem executeEnds_eq (status : MediaStatus) (hplain : action = .beginInput → 0 ∉ input) :
    ∃ slot : MediaSlot, (w.executeEnds f i action g input ig status).1 =
        land { w.setSlot i slot with
          log := w.log ++ [.returned (w.slots i).openId action g input ig status] } f ∧
      (slot.state = (w.slots i).state ∧ slot.openId = (w.slots i).openId ∧
        slot.borrowers = (w.slots i).borrowers.erase f ∧ slot.actionInFlight = false) ∧
      slot.lastOperationGeneration = g ∧ slot.lastOperationStatus = status ∧
        slot.window = windowAfter (w.slots i).openId (w.slots i).window
          (.returned (w.slots i).openId action g input ig status) := by
  let slot : MediaSlot := { w.slots i with
    lastOperationGeneration := g
    lastOperationStatus := status
    actionInFlight := false
    borrowers := (w.slots i).borrowers.erase f }
  refine ⟨if status = .ok then slot.applyInput action input ig else slot, rfl, ?_⟩
  split
  next hok =>
    subst hok
    refine ⟨?_, ?_, ?_, window_applyInput hplain⟩ <;> cases action <;>
      simp [applyInput, slot]
  next hfail => simp [windowAfter, hfail, window, slot]

theorem flying_executeEnds (h : Flying w) (hf : w.flights f = some (.acting i action g input ig)) :
    Flying (w.executeEnds f i action g input ig status).1 := by
  obtain ⟨slot, heq, ⟨hstate, hopenId, hborrowers, -⟩, -⟩ :=
    executeEnds_eq (w := w) (f := f) (i := i) (g := g) status
      (h.acting f i action g input ig hf).2.2.2.2
  rw [heq]
  refine h.landed hstate hopenId hborrowers ?_
  intro f' action' g' input' ig' hne hf'
  exact absurd (h.oneActing f' f i _ _ _ _ _ _ _ _ hf' hf) hne

theorem booked_executed {ref : MediaRef}
    (hflying : Flying w) (h : Booked w) (hact : (w.slots i).state = .active)
    (hidle : (w.slots i).actionInFlight = false)
    (hlater : (w.slots i).lastOperationGeneration < g) :
    Booked (((w.setSlot i { w.slots i with
      actionInFlight := true
      borrowers := w.flightCount :: (w.slots i).borrowers }).note
        (.invoked (w.slots i).openId i ref action g)).depart (.acting i action g input ig)) := by
  have hused : (w.slots i).state ≠ .free := by rw [hact]; simp
  have hnone : ∀ f action g input ig, w.flights f ≠ some (.acting i action g input ig) := by
    intro f action g input ig hf
    simp [(hflying.acting f i action g input ig hf).1] at hidle
  have hreached : ∀ g' ∈ invokedGenerations (w.slots i).openId w.log,
      g' ≤ (w.slots i).lastOperationGeneration := by
    intro g' hg'
    refine (h.reached i hused g' hg').resolve_right ?_
    rintro ⟨f, action', input', ig', hf⟩
    exact hnone _ _ _ _ _ hf
  have hsame : invokedGenerations (w.slots i).openId
      (w.log ++ [.invoked (w.slots i).openId i ref action g]) =
        invokedGenerations (w.slots i).openId w.log ++ [g] := by
    rw [invokedGenerations_append]
    simp [invokedGenerations]
  refine h.of_event (i := i) (e := .invoked (w.slots i).openId i ref action g) rfl ?_ le_rfl
    (hflying.openIds i hused) ?_ (fun j hji => update_of_ne hji _ _)
    (fun j hji hj heq => hji (hflying.distinct i j hused hj heq).symm) ?_ ?_
  · simp [depart, note, setSlot, PortEvent.openId]
  · change (invokedGenerations (w.slots i).openId (w.log ++ [_])).Pairwise _
    rw [hsame, pairwise_append]
    refine ⟨h.ordered _, pairwise_singleton _ _, fun a ha b hb => ?_⟩
    rw [mem_singleton.mp hb]
    exact UInt64.lt_of_le_of_lt (hreached a ha) hlater
  · intro f j action' g' input' ig' _ hf
    refine (update_of_ne ?_ _ _).trans hf
    rintro rfl
    cases (hflying.fresh w.flightCount le_rfl).symm.trans hf
  · constructor <;>
      simp [depart, note, setSlot]
    · intro hopn
      rw [hact] at hopn
      cases hopn
    · intro g' hg'
      rw [hsame, mem_append, mem_singleton] at hg'
      rcases hg' with hold | rfl
      · exact .inl (hreached g' hold)
      · exact .inr ⟨w.flightCount, action, input, ig, update_self _ _ _⟩
    · rw [inputEffect_append]
      simpa [windowAfter, window] using h.window i hused
    · rw [lastReturned, filterMap_append]
      simpa [lastReturned] using h.latest i hused

theorem booked_executeEnds (hflying : Flying w) (h : Booked w)
    (hf : w.flights f = some (.acting i action g input ig)) :
    Booked (w.executeEnds f i action g input ig status).1 := by
  obtain ⟨-, -, hstate, hlater, hplain⟩ := hflying.acting f i action g input ig hf
  have hused : (w.slots i).state ≠ .free := by rcases hstate with h' | h' <;> rw [h'] <;> simp
  obtain ⟨slot, heq, ⟨hslot, hopenId, -, -⟩, hg, hs, hwin⟩ :=
    executeEnds_eq (w := w) (f := f) (i := i) (g := g) status hplain
  have hquiet : invokedGenerations (w.slots i).openId
      (w.log ++ [.returned (w.slots i).openId action g input ig status]) =
        invokedGenerations (w.slots i).openId w.log := by
    rw [invokedGenerations_append]
    simp [invokedGenerations]
  rw [heq]
  refine h.of_event (i := i) (e := .returned (w.slots i).openId action g input ig status) rfl ?_
    le_rfl (hflying.openIds i hused) ?_ (fun j hji => update_of_ne hji _ _)
    (fun j hji hj heq => hji (hflying.distinct i j hused hj heq).symm) ?_ ?_
  · exact hopenId.symm.trans (congrArg openId (update_self i slot w.slots)).symm
  · change (invokedGenerations (w.slots i).openId (w.log ++ [_])).Pairwise _
    rw [hquiet]
    exact h.ordered _
  · intro f' j action' g' input' ig' hji hf'
    refine (update_of_ne ?_ _ _).trans hf'
    rintro rfl
    rw [hf] at hf'
    cases hf'
    exact hji rfl
  · constructor <;>
      simp only [land, setSlot, update_self, hopenId, hslot, hg, hs, hwin]
    · intro hopn
      rcases hstate with h' | h' <;> rw [h'] at hopn <;> cases hopn
    · intro g' hg'
      rw [hquiet] at hg'
      rcases h.reached i hused g' hg' with hle | ⟨f', action', input', ig', hf'⟩
      · exact .inl (UInt64.le_of_lt (UInt64.lt_of_le_of_lt hle hlater))
      · obtain rfl := hflying.oneActing f' f i _ _ _ _ _ _ _ _ hf' hf
        rw [hf] at hf'
        cases hf'
        exact .inl (UInt64.le_refl _)
    · rw [inputEffect_append, h.window i hused]
    · intro r hr
      simp only [lastReturned, filterMap_append, filterMap_cons, if_true, filterMap_nil,
        getLast?_append_of_ne_nil _ (cons_ne_nil _ _), getLast?_singleton,
        Option.mem_some_iff] at hr
      rw [← hr]
      exact ⟨rfl, rfl⟩

theorem Booked.of_kept (h : Booked w)
    (hslots : ∀ j, (w'.slots j).state ≠ .free →
      ((w.slots j).state ≠ .free ∧ ((w'.slots j).state = .opening → (w.slots j).state = .opening)) ∧
        (w'.slots j).openId = (w.slots j).openId ∧ (w'.slots j).window = (w.slots j).window ∧
            (w'.slots j).lastOperationGeneration = (w.slots j).lastOperationGeneration ∧
              (w'.slots j).lastOperationStatus = (w.slots j).lastOperationStatus)
    (hflights : ∀ f j action g input ig, (w'.slots j).state ≠ .free →
      w.flights f = some (.acting j action g input ig) →
        w'.flights f = some (.acting j action g input ig)) (hopen : w'.openCount = w.openCount)
    (hlog : w'.log = w.log ∨ ∃ o i ref, o < w.openCount ∧ w'.log = w.log ++ [.passed o i ref]) :
    Booked w' := by
  have hkeep : ∀ o, invokedGenerations o w'.log = invokedGenerations o w.log ∧
      lastReturned o w'.log = lastReturned o w.log ∧
        inputEffect o w'.log = inputEffect o w.log := by
    intro o
    rcases hlog with heq | ⟨o', i, ref, -, heq⟩
    · rw [heq]
      exact ⟨rfl, rfl, rfl⟩
    · rw [heq]
      exact histories_passed o' i ref
  have hmem : ∀ e ∈ w'.log, e ∈ w.log ∨ ∃ o i ref, o < w.openCount ∧ e = .passed o i ref := by
    intro e he
    rcases hlog with heq | ⟨o', i, ref, ho, heq⟩
    · exact .inl (heq ▸ he)
    · rw [heq, mem_append, mem_singleton] at he
      exact he.imp_right fun he => ⟨o', i, ref, ho, he⟩
  constructor
  case known =>
    intro e he
    rw [hopen]
    rcases hmem e he with hold | ⟨o, i, ref, ho, rfl⟩
    · exact h.known e hold
    · exact ho
  case ordered =>
    intro o
    rw [(hkeep o).1]
    exact h.ordered o
  case before =>
    intro j hj e he heq
    obtain ⟨⟨-, hopn⟩, hid, -⟩ := hslots j (by rw [hj]; simp)
    rw [hid] at heq ⊢
    rcases hmem e he with hold | ⟨o, i, ref, ho, rfl⟩
    · exact h.before j (hopn hj) e hold heq
    · exact ⟨i, ref, by rw [← heq]; rfl⟩
  case reached =>
    intro j hj g hg
    obtain ⟨⟨hused, -⟩, hid, -, hlast, -⟩ := hslots j hj
    rw [hid, (hkeep _).1] at hg
    rw [hlast]
    refine (h.reached j hused g hg).imp_right ?_
    rintro ⟨f, action, input, ig, hf⟩
    exact ⟨f, action, input, ig, hflights f j action g input ig hj hf⟩
  case window =>
    intro j hj
    obtain ⟨⟨hused, -⟩, hid, hwin, -⟩ := hslots j hj
    rw [hid, hwin, (hkeep _).2.2]
    exact h.window j hused
  case latest =>
    intro j hj r hr
    obtain ⟨⟨hused, -⟩, hid, -, hlast, hstat⟩ := hslots j hj
    rw [hid, (hkeep _).2.1] at hr
    rw [hlast, hstat]
    exact h.latest j hused r hr

theorem flying_close (h : Flying w) (hact : (w.slots i).state = .active) :
    Flying ((w.advance.setSlot i { w.slots i with state := .closing }).depart (.closing i)) := by
  obtain ⟨a1, a2, a3, a4, a5, -⟩ := advance_fields w
  obtain ⟨h1, h2, h3, h4, h5, h6, h7, h8, h9, h10, h11⟩ := h
  constructor <;>
    simp only [depart, setSlot, a1, a2, a3, a4, a5, update_apply] <;>
    grind

theorem booked_close (hflying : Flying w) (h : Booked w) (hact : (w.slots i).state = .active) :
    Booked ((w.advance.setSlot i { w.slots i with state := .closing }).depart (.closing i)) := by
  obtain ⟨a1, a2, a3, a4, a5, a6⟩ := advance_fields w
  have hfresh := hflying.fresh _ le_rfl
  refine h.of_kept ?_ ?_ a5 (.inl a6) <;>
    simp only [depart, setSlot, a1, a3, a4, update_apply] <;>
    grind [window]

theorem flying_closeStops (h : Flying w) (hf : w.flights f = some (.closing i)) :
    Flying (w.closeStops f i).1 := by
  rw [closeStops]
  split
  next hnone =>
    obtain ⟨h1, h2, h3, h4, h5, h6, h7, h8, h9, h10, h11⟩ := h
    constructor <;> simp only [note, update_apply] <;> grind
  next => exact h

theorem booked_closeStops (hflying : Flying w) (h : Booked w)
    (hf : w.flights f = some (.closing i)) : Booked (w.closeStops f i).1 := by
  have hclos := hflying.closing f i hf
  rw [closeStops]
  split
  next hnone =>
    refine h.of_kept ?_ ?_ rfl (.inr ⟨_, i, _, hflying.openIds i (by rw [hclos]; simp), rfl⟩) <;>
      simp only [note, update_apply] <;>
      grind
  next => exact h

theorem flying_closeEnds (h : Flying w)
    (hf : w.flights f = some (.stopping i)) : Flying (w.closeEnds f i status).1 := by
  obtain ⟨a1, a2, a3, a4, a5, -⟩ := advance_fields w
  obtain ⟨h1, h2, h3, h4, h5, h6, h7, h8, h9, h10, h11⟩ := h
  constructor <;>
    simp only [closeEnds, land, setSlot, a1, a2, a3, a4, a5,
      update_apply] <;>
    grind [cleared]

theorem booked_closeEnds (h : Booked w)
    (hf : w.flights f = some (.stopping i)) : Booked (w.closeEnds f i status).1 := by
  obtain ⟨a1, a2, a3, a4, a5, a6⟩ := advance_fields w
  have hother : ∀ f' j action g input ig,
      w.flights f' = some (.acting j action g input ig) → f' ≠ f := by
    rintro f' j action g input ig hf' rfl
    rw [hf] at hf'
    cases hf'
  refine h.of_kept ?_ ?_ a5 (.inl a6) <;>
    simp only [closeEnds, land, setSlot, a1, a3,
      update_apply] <;>
    grind [cleared]

theorem flying_publish (h : Flying w) (hact : (w.slots i).state = .active) :
    Flying ((w.setSlot i { w.slots i with
      borrowers := w.flightCount :: (w.slots i).borrowers }).depart (.publishing i)) := by
  obtain ⟨h1, h2, h3, h4, h5, h6, h7, h8, h9, h10, h11⟩ := h
  constructor <;>
    simp only [depart, setSlot, update_apply] <;>
    grind

theorem booked_publish (hflying : Flying w) (h : Booked w) :
    Booked ((w.setSlot i { w.slots i with
      borrowers := w.flightCount :: (w.slots i).borrowers }).depart (.publishing i)) := by
  have hfresh := hflying.fresh _ le_rfl
  refine h.of_kept ?_ ?_ rfl (.inl rfl) <;>
    simp only [depart, setSlot, update_apply] <;>
    grind [window]

theorem flying_publishEnds (h : Flying w) :
    Flying (w.publishEnds f i status).1 := by
  refine h.landed rfl rfl rfl ?_
  intro f' action g input ig hne hf'
  exact ⟨(h.acting f' i action g input ig hf').1, (h.acting f' i action g input ig hf').2.2.2.1⟩

theorem booked_publishEnds (h : Booked w)
    (hf : w.flights f = some (.publishing i)) : Booked (w.publishEnds f i status).1 := by
  refine h.of_kept ?_ ?_ rfl (.inl rfl) <;>
    simp only [publishEnds, land, setSlot, update_apply] <;>
    grind [window]

end TurboMedia.Ivr
