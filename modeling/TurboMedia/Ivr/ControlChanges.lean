import TurboMedia.Ivr.ControlAdapter

/-!
# What one step of the control adapter can change

Every step leaves the workers and dialogs alone or makes one of the changes of `Change`.

**Input.**  A state of the adapter and a step.

**Method.**  One lemma for each function of the source inverts it; the constructors carry
what the function has found out before it writes.
-/

namespace TurboMedia.Ivr
namespace Control

open List ControlAdapter Option SlotTable

section Lookups

def WorkerCommand.binding (cmd : WorkerCommand) : Binding :=
  ⟨cmd.workerId, cmd.instanceId, cmd.connectionGeneration⟩

variable {a : ControlAdapter} {i : ℕ} {entry : WorkerEntry} {route : DialogRoute}
  {workerId : CStr} {key : DialogKey} {binding : Binding}

theorem worker?_some (h : a.worker? workerId = some (i, entry)) :
    a.workers[i]? = some (some entry) ∧ entry.value.workerId = workerId := by
  obtain ⟨hget, hid⟩ := findOccupied_some h
  exact ⟨hget, by simpa using hid⟩

theorem dialog?_some (h : a.dialog? key = some (i, route)) :
    a.dialogs[i]? = some (some route) ∧ route.key = key := by
  obtain ⟨hget, hkey⟩ := findOccupied_some h
  exact ⟨hget, by simpa using hkey⟩

theorem bound?_some (h : a.bound? binding = some (i, entry)) :
    a.workers[i]? = some (some entry) ∧ entry.value.binding = binding := by
  obtain ⟨hfind, hsame⟩ := filter_eq_some_iff.mp h
  exact ⟨(worker?_some hfind).1, by simpa using hsame⟩

theorem free_slot (h : a.dialogs.findIdx? isNone = some i) : a.dialogs[i]? = some none := by
  obtain ⟨hlt, hnone, -⟩ := findIdx?_eq_some_iff_getElem.mp h
  rw [getElem?_eq_getElem hlt, some.injEq]
  exact isNone_iff_eq_none.mp hnone

end Lookups

/-- An entry whose reconciliation is complete. -/
def WorkerEntry.reconciled (entry : WorkerEntry) : WorkerEntry :=
  { entry with
    value := { entry.value with
      requiresReconcile := false
      state := entry.postReconcileState } }

def WorkerEntry.reserve (entry : WorkerEntry) : WorkerEntry :=
  { entry with
    value := { entry.value with reservedSessions := entry.value.reservedSessions + 1 } }

def WorkerEntry.activate (entry : WorkerEntry) : WorkerEntry :=
  { entry with
    value := { entry.value with
      reservedSessions := entry.value.reservedSessions - 1
      activeSessions := entry.value.activeSessions + 1 } }

def boundRoute (record : InventoryRecord) : DialogRoute :=
  { DialogRoute.blank record.key record.call record.binding .active with
    activeInputId := record.inputId
    activeInputGeneration := record.inputGeneration }

/-- The route with the input of an inventory record. -/
def DialogRoute.withInput (route : DialogRoute) (record : InventoryRecord) : DialogRoute :=
  { route with
    activeInputId := record.inputId
    activeInputGeneration := record.inputGeneration }

/-- The command that the route waits for is over, and the dialog is active. -/
def DialogRoute.resume (route : DialogRoute) : DialogRoute :=
  { route with state := .active, transitionCommandId := [] }

/-- All that a step can change. -/
inductive Change (a : ControlAdapter) : ControlStep → ControlAdapter → Prop
  | same (step : ControlStep) : Change a step a
  | refreshed {cmd nowMs available} {i : ℕ} {entry : WorkerEntry}
      (hget : a.workers[i]? = some (some entry))
      (hv2 : cmd.isV2 = true)
      (hsame : entry.value.binding = cmd.binding) :
      Change a (.registerWorker cmd nowMs available)
        (a.setWorker i (entry.refresh cmd (nowMs + a.config.leaseMs)))
  | refreshedLegacy {cmd nowMs available} {i : ℕ} {entry : WorkerEntry}
      (hfind : a.worker? cmd.workerId = some (i, entry))
      (hv1 : cmd.isV2 = false) :
      Change a (.registerWorker cmd nowMs available)
        (a.setWorker i (entry.refreshLegacy cmd (nowMs + a.config.leaseMs)))
  | renewed {cmd nowMs available} {i : ℕ} {entry : WorkerEntry}
      (hfind : a.worker? cmd.workerId = some (i, entry))
      (hv2 : cmd.isV2 = true)
      (hinstance : entry.value.instanceId = cmd.instanceId)
      (hnewer : entry.value.connectionGeneration < cmd.connectionGeneration) :
      Change a (.registerWorker cmd nowMs available) (a.setWorker i (a.filled cmd nowMs))
  | replaced {cmd nowMs available} {i : ℕ} {entry : WorkerEntry}
      (hfind : a.worker? cmd.workerId = some (i, entry))
      (hv2 : cmd.isV2 = true)
      (hinstance : entry.value.instanceId ≠ cmd.instanceId)
      (hidle : a.replaceable nowMs available entry = true) :
      Change a (.registerWorker cmd nowMs available) (a.setWorker i (a.filled cmd nowMs))
  | taken {cmd nowMs available} {i : ℕ} {old : Option WorkerEntry}
      (hnone : a.worker? cmd.workerId = none)
      (hget : a.workers[i]? = some old)
      (hidle : ∀ entry ∈ old, a.replaceable nowMs available entry = true) :
      Change a (.registerWorker cmd nowMs available) (a.setWorker i (a.filled cmd nowMs))
  | completed {binding} {i : ℕ} {entry : WorkerEntry}
      (hget : a.workers[i]? = some (some entry))
      (hsame : entry.value.binding = binding)
      (hbound : (a.boundTo binding).length = entry.value.activeSessions.toNat)
      (hreserved : entry.value.reservedSessions = 0) :
      Change a (.completeReconcile binding) (a.setWorker i entry.reconciled)
  | inputNoted {record nowMs} {j : ℕ} {route : DialogRoute}
      (hget : a.dialogs[j]? = some (some route)) :
      Change a (.rebindDialog record nowMs) (a.setDialog j (some (route.withInput record)))
  | rebound {record nowMs} {i j : ℕ} {entry : WorkerEntry}
      (hworker : a.workers[i]? = some (some entry))
      (hawaits : a.awaits record nowMs entry = true)
      (hnew : ∀ route ∈ a.dialogs.reduceOption, route.key ≠ record.key)
      (hfree : a.dialogs[j]? = some none) :
      Change a (.rebindDialog record nowMs) (a.setDialog j (some (boundRoute record)))
  | adopted {record} {j : ℕ} {route : DialogRoute}
      (hget : a.dialogs[j]? = some (some route)) :
      Change a (.adoptOrphan record)
        (a.setDialog j (some { route with reconciliationOnly := true }))
  | opened {cmd nowMs available} {i j next : ℕ} {entry : WorkerEntry}
      (hkind : cmd.kind = .sessionOpen)
      (hnone : a.dialog? cmd.key = none)
      (hworker : a.workers[i]? = some (some entry))
      (hhost : a.canHost nowMs available cmd.call entry.value = true)
      (hfree : a.dialogs[j]? = some none) :
      Change a (.startMediaCommand cmd nowMs available)
        { (a.setWorker i entry.reserve).setDialog j (some (openingRoute cmd entry.value)) with
          nextWorkerIndex := next }
  | tracked {cmd nowMs available} {j : ℕ} {route route' : DialogRoute}
      (hkind : cmd.kind ≠ .sessionOpen)
      (hfind : a.dialog? cmd.key = some (j, route))
      (hactive : route.state = .active)
      (htrack : route.track cmd = some route') :
      Change a (.startMediaCommand cmd nowMs available) (a.setDialog j (some route'))
  | openRolledBack {cmd} {j : ℕ} {route : DialogRoute}
      (hfind : a.dialog? cmd.key = some (j, route))
      (htracked : route.transitionCommandId = cmd.messageId)
      (hopening : route.state = .opening) :
      Change a (.rollbackSend cmd)
        ((a.onBound route.binding WorkerEntry.unreserve).setDialog j none)
  | closeRolledBack {cmd} {j : ℕ} {route : DialogRoute}
      (hfind : a.dialog? cmd.key = some (j, route))
      (htracked : route.transitionCommandId = cmd.messageId)
      (hclosing : route.state = .closing) :
      Change a (.rollbackSend cmd) (a.setDialog j (some route.resume))
  | operationRolledBack {cmd} {j : ℕ} {route : DialogRoute}
      (hfind : a.dialog? cmd.key = some (j, route))
      (htracked : route.transitionCommandId = cmd.messageId)
      (hopening : route.state ≠ .opening)
      (hclosing : route.state ≠ .closing)
      (hpending : route.pendingOperationKind ≠ none) :
      Change a (.rollbackSend cmd) (a.setDialog j (some route.settle))
  | activated {result} {i j : ℕ} {entry : WorkerEntry} {route : DialogRoute}
      (hfind : a.dialog? result.key = some (j, route))
      (hbound : a.bound? route.binding = some (i, entry))
      (hopening : route.state = .opening)
      (htracked : route.transitionCommandId = result.messageId)
      (hreserved : entry.value.reservedSessions ≠ 0)
      (hroom : entry.value.activeSessions < entry.value.maxSessions) :
      Change a (.onMediaResult result)
        ((a.setWorker i entry.activate).setDialog j (some route.resume))
  | openFailed {result} {i j : ℕ} {entry : WorkerEntry} {route : DialogRoute}
      (hfind : a.dialog? result.key = some (j, route))
      (hbound : a.bound? route.binding = some (i, entry))
      (hopening : route.state = .opening)
      (htracked : route.transitionCommandId = result.messageId) :
      Change a (.onMediaResult result) ((a.setWorker i entry.unreserve).setDialog j none)
  | closed {result} {i j : ℕ} {entry : WorkerEntry} {route : DialogRoute}
      (hfind : a.dialog? result.key = some (j, route))
      (hbound : a.bound? route.binding = some (i, entry))
      (hclosing : route.state = .closing)
      (htracked : route.transitionCommandId = result.messageId) :
      Change a (.onMediaResult result) ((a.setWorker i entry.deactivate).setDialog j none)
  | closeRefused {result} {j : ℕ} {route : DialogRoute}
      (hfind : a.dialog? result.key = some (j, route))
      (hclosing : route.state = .closing)
      (htracked : route.transitionCommandId = result.messageId) :
      Change a (.onMediaResult result) (a.setDialog j (some route.resume))
  | operationAnswered {result} {j : ℕ} {route : DialogRoute}
      (hfind : a.dialog? result.key = some (j, route))
      (hopening : route.state ≠ .opening)
      (hclosing : route.state ≠ .closing)
      (hpending : route.pendingOperationKind ≠ none)
      (htracked : route.transitionCommandId = result.messageId) :
      Change a (.onMediaResult result) (a.setDialog j (some (route.answered result.statusCode)))
  | expired {nowMs} : Change a (.expireLeases nowMs) (a.expireLeases nowMs)
  | lost {j nowMs available eventId occurredAtMs accepted} {route : DialogRoute}
      (hget : a.dialogs[j]? = some (some route))
      (hstate : route.state ≠ .workerLost)
      (hserved : a.isServed nowMs available route = false) :
      Change a (.recoverWorkerLoss j nowMs available (some (eventId, occurredAtMs)) accepted)
        ((a.onBound route.binding (if route.state = .opening then WorkerEntry.unreserve
            else WorkerEntry.deactivate)).setDialog j
          (if accepted then none else some (route.lost eventId occurredAtMs)))
  | freed {j nowMs available identity} {route : DialogRoute}
      (hget : a.dialogs[j]? = some (some route))
      (hstate : route.state = .workerLost) :
      Change a (.recoverWorkerLoss j nowMs available identity true) (a.setDialog j none)

section Inversion

variable {a : ControlAdapter}

variable {nowMs : ℕ} {available : CStr → Bool}

theorem registerNew_change {cmd : WorkerCommand} (hnone : a.worker? cmd.workerId = none) :
    Change a (.registerWorker cmd nowMs available) (a.registerNew cmd nowMs available).1 := by
  rw [registerNew]
  split
  · exact .same _
  · split
    next i hi =>
      obtain ⟨hlt, hidle, -⟩ := findIdx?_eq_some_iff_getElem.mp hi
      refine .taken hnone (getElem?_eq_getElem hlt) ?_
      intro entry hent
      rw [mem_def] at hent
      rw [hent] at hidle
      exact hidle
    · exact .same _

variable {i : ℕ} {entry : WorkerEntry}

theorem registerFound_change {cmd : WorkerCommand}
    (hfind : a.worker? cmd.workerId = some (i, entry)) :
    Change a (.registerWorker cmd nowMs available)
      (a.registerFound cmd nowMs available i entry).1 := by
  obtain ⟨hget, hid⟩ := worker?_some hfind
  -- the entry was found under the worker's id; the instance and generation make it the same
  have hbinding : entry.value.instanceId = cmd.instanceId →
      entry.value.connectionGeneration = cmd.connectionGeneration →
      entry.value.binding = cmd.binding := by
    intro hinstance hgen
    rw [WorkerSnapshot.binding, WorkerCommand.binding, hid, hinstance, hgen]
  rw [registerFound]
  split
  next hbeat =>
    split_ifs with hother
    · exact .same _
    · push Not at hother
      refine .refreshed hget ?_ (hbinding hother.1 hother.2.1)
      rw [WorkerCommand.isV2, hbeat]
  · split_ifs with hold hv1 hgen hmax hnewer hidle
    · exact .same _
    · exact .refreshedLegacy hfind hv1
    · exact .same _
    · have hv2 : cmd.isV2 = true := by simpa using hv1
      rw [hv2, Bool.true_and, beq_iff_eq] at hgen
      exact .refreshed hget hv2 (hbinding hgen.1 hgen.2)
    · have hv2 : cmd.isV2 = true := by simpa using hv1
      rw [hv2, Bool.true_and, beq_iff_eq] at hnewer
      exact .renewed hfind hv2 hnewer.1 hnewer.2
    · exact .same _
    · have hv2 : cmd.isV2 = true := by simpa using hv1
      rw [hv2, Bool.true_and, beq_iff_eq] at hold hgen hnewer
      refine .replaced hfind hv2 ?_ (by simpa using hidle)
      intro hinstance
      rcases Nat.lt_trichotomy entry.value.connectionGeneration.toNat
        cmd.connectionGeneration.toNat with hlt | heq | hgt
      · exact hnewer ⟨hinstance, UInt64.lt_iff_toNat_lt.mpr hlt⟩
      · exact hgen ⟨hinstance, UInt64.toNat_inj.mp heq⟩
      · exact hold ⟨hinstance, UInt64.lt_iff_toNat_lt.mpr hgt⟩

theorem registerWorker_change (cmd : WorkerCommand) (nowMs : ℕ) (available : CStr → Bool) :
    Change a (.registerWorker cmd nowMs available) (a.registerWorker cmd nowMs available).1 := by
  rw [registerWorker]
  split
  · exact .same _
  · split
    · exact .same _
    · split
      next i entry hfind => exact registerFound_change hfind
      next hnone => exact registerNew_change hnone

/-- A scan that goes through finds no dialog with the key of the record. -/
theorem rebindScan_none {record : InventoryRecord} {n : ℕ} {dialogs : List (Option DialogRoute)}
    (h : rebindScan record n dialogs = none) :
    ∀ route ∈ dialogs.reduceOption, route.key ≠ record.key := by
  induction dialogs generalizing n with
  | nil =>
    intro route hroute
    simp at hroute
  | cons slot rest ih =>
    cases slot with
    | none =>
      rw [rebindScan] at h
      rw [reduceOption_cons_of_none]
      exact ih h
    | some first =>
      rw [rebindScan] at h
      split_ifs at h with hkey hexact hcall
      intro route hroute
      rw [reduceOption_cons_of_some, mem_cons] at hroute
      rcases hroute with rfl | hroute
      · exact hkey
      · exact ih h route hroute

variable {route : DialogRoute}

theorem rebindScan_found {record : InventoryRecord} {n : ℕ} {dialogs : List (Option DialogRoute)}
    {status : ControlStatus} (h : rebindScan record n dialogs = some (status, some (i, route))) :
    n ≤ i ∧ dialogs[i - n]? = some (some route) := by
  induction dialogs generalizing n with
  | nil => simp [rebindScan] at h
  | cons slot rest ih =>
    have hlater : rebindScan record (n + 1) rest = some (status, some (i, route)) →
        n ≤ i ∧ (slot :: rest)[i - n]? = some (some route) := by
      intro hrest
      obtain ⟨hle, hget⟩ := ih hrest
      refine ⟨by omega, ?_⟩
      have hsucc : i - n = i - (n + 1) + 1 := by omega
      rw [hsucc, getElem?_cons_succ]
      exact hget
    cases slot with
    | none =>
      rw [rebindScan] at h
      exact hlater h
    | some first =>
      rw [rebindScan] at h
      split_ifs at h with hkey hexact hcall
      · simp only [some.injEq, Prod.mk.injEq] at h
        obtain ⟨-, rfl, rfl⟩ := h
        simp
      · simp at h
      · simp at h
      · exact hlater h

theorem rebindDialog_change (record : InventoryRecord) (nowMs : ℕ) :
    Change a (.rebindDialog record nowMs) (a.rebindDialog record nowMs).1 := by
  rw [rebindDialog]
  split_ifs
  · exact .same _
  · split
    · exact .same _
    next i entry hfind =>
      split
      · exact .same _
      next hawaits =>
        split
        · exact .same _
        next status j route hscan =>
          obtain ⟨-, hget⟩ := rebindScan_found hscan
          exact .inputNoted (by simpa using hget)
        next hscan =>
          split
          · exact .same _
          next j hfree =>
            split
            · exact .same _
            exact .rebound (worker?_some hfind).1 (by simpa using hawaits)
              (rebindScan_none hscan) (free_slot hfree)

theorem adoptOrphan_change (record : InventoryRecord) :
    Change a (.adoptOrphan record) (a.adoptOrphan record).1 := by
  rw [adoptOrphan]
  split
  · exact .same _
  next j route hfind =>
    split_ifs
    · exact .adopted (dialog?_some hfind).1
    · exact .same _

theorem completeReconcile_change (binding : Binding) :
    Change a (.completeReconcile binding) (a.completeReconcile binding).1 := by
  rw [completeReconcile]
  split_ifs
  · exact .same _
  · split
    · exact .same _
    next i entry hfind =>
      split_ifs with hother hcount
      · exact .same _
      · exact .same _
      · push Not at hother hcount
        exact .completed (worker?_some hfind).1 hother.2.2 hcount.1 hcount.2

theorem pickHost_some {call : CallIdentity}
    (h : a.pickHost nowMs available call = some (i, entry)) :
    a.workers[i]? = some (some entry) ∧ a.canHost nowMs available call entry.value = true := by
  obtain ⟨offset, -, hfound⟩ := exists_of_findSome?_eq_some h
  obtain ⟨e, he, heq⟩ := map_eq_some_iff.mp hfound
  rw [Prod.mk.injEq] at heq
  obtain ⟨rfl, rfl⟩ := heq
  obtain ⟨hjoin, hhost⟩ := filter_eq_some_iff.mp he
  exact ⟨join_eq_some_iff.mp hjoin, hhost⟩

theorem prepareFound_change {cmd : MediaCommand} {j : ℕ}
    (hkind : cmd.kind ≠ .sessionOpen) (hfind : a.dialog? cmd.key = some (j, route)) :
    Change a (.startMediaCommand cmd nowMs available) (a.prepareFound cmd nowMs j route).1 := by
  rw [prepareFound]
  split
  · exact .same _
  · split
    · exact .same _
    next hactive =>
      split
      · exact .same _
      · split
        · exact .same _
        · split
          · exact .same _
          · split
            · exact .same _
            · split
              · exact .same _
              next route' htrack => exact .tracked hkind hfind (by simpa using hactive) htrack

theorem startMediaCommand_change (cmd : MediaCommand) (nowMs : ℕ) (available : CStr → Bool) :
    Change a (.startMediaCommand cmd nowMs available)
      (a.startMediaCommand cmd nowMs available).1 := by
  rw [startMediaCommand]
  split_ifs
  · exact .same _
  · exact .same _
  · rw [prepareCommand]
    split
    next hkind =>
      split
      next hnone =>
        rw [reserveOpen]
        split
        · exact .same _
        next j hfree =>
          split
          · exact .same _
          · split
            · exact .same _
            next i entry hpick =>
              obtain ⟨hget, hhost⟩ := pickHost_some hpick
              exact .opened hkind hnone hget hhost (free_slot hfree)
      · exact .same _
    next hkind =>
      split
      · exact .same _
      next j route hfind => exact prepareFound_change hkind hfind

theorem rollbackSend_change (cmd : MediaCommand) :
    Change a (.rollbackSend cmd) (a.rollbackSend cmd) := by
  rw [rollbackSend]
  split
  · exact .same _
  next j route hfind =>
    split_ifs with hother hopening hclosing hpending
    · exact .same _
    · exact .openRolledBack hfind (by simpa using hother) hopening
    · exact .closeRolledBack hfind (by simpa using hother) hclosing
    · exact .operationRolledBack hfind (by simpa using hother) hopening hclosing hpending
    · exact .same _

theorem applyResult_change {result : MediaResult} {j : ℕ}
    {a' : ControlAdapter} (hfind : a.dialog? result.key = some (j, route))
    (hbound : a.bound? route.binding = some (i, entry))
    (h : a.applyResult result j route i entry = some a') : Change a (.onMediaResult result) a' := by
  rw [applyResult] at h
  split at h
  next hopening =>
    split_ifs at h with href hok
    · push Not at href
      rw [some.injEq] at h
      rw [← h]
      exact .activated hfind hbound hopening (by simpa using href.1) href.2.1
        (UInt32.not_le.mp (href.2.2 hok))
    · push Not at href
      rw [some.injEq] at h
      have hunreserve : entry.unreserve = { entry with
          value := { entry.value with
            reservedSessions := entry.value.reservedSessions - 1 } } := by
        rw [WorkerEntry.unreserve, if_neg href.2.1]
      rw [← h, ← hunreserve]
      exact .openFailed hfind hbound hopening (by simpa using href.1)
  next hclosing =>
    split_ifs at h with htracked hok
    · rw [some.injEq] at h
      rw [← h]
      exact .closed hfind hbound hclosing (by simpa using htracked)
    · rw [some.injEq] at h
      rw [← h]
      exact .closeRefused hfind hclosing (by simpa using htracked)
  next hopening hclosing =>
    split_ifs at h with hpending htracked
    · rw [some.injEq] at h
      rw [← h]
      exact .same _
    · rw [some.injEq] at h
      rw [← h]
      exact .operationAnswered hfind hopening hclosing hpending (by simpa using htracked)

theorem onMediaResult_change (result : MediaResult) :
    Change a (.onMediaResult result) (a.onMediaResult result).1 := by
  rw [onMediaResult]
  split
  · exact .same _
  · split
    · exact .same _
    next j route hfind =>
      split
      · exact .same _
      next i entry hbound =>
        split
        · exact .same _
        · split
          · exact .same _
          next a' happly => exact applyResult_change hfind hbound happly

theorem offer_marked (j : ℕ) (route : DialogRoute) (accepted : Bool) :
    ((a.setDialog j (some route)).offer j route true accepted).1 =
      a.setDialog j (if accepted = true then none else some route) := by
  rw [offer]
  cases accepted with
  | true => simp [setDialog, set_set]
  | false => rfl

theorem recoverWorkerLoss_change (j nowMs : ℕ) (available : CStr → Bool)
    (identity : Option (CStr × ℕ)) (accepted : Bool) :
    Change a (.recoverWorkerLoss j nowMs available identity accepted)
      (a.recoverWorkerLoss nowMs available j identity accepted).1 := by
  rw [recoverWorkerLoss]
  split
  · exact .same _
  · split
    · exact .same _
    next route hget =>
      rw [join_eq_some_iff] at hget
      split
      next hstate =>
        cases accepted with
        | true => exact .freed hget hstate
        | false => exact .same _
      next hstate =>
        split
        · exact .same _
        next hserved =>
          split
          · exact .same _
          next eventId occurredAtMs =>
            rw [offer_marked]
            exact .lost hget hstate (by simpa using hserved)

/-- The state after a step is related by `Change` to the state before it. -/
theorem next_change (a : ControlAdapter) (step : ControlStep) :
    Change a step (controlMachine.next a step) := by
  cases step with
  | registerWorker cmd nowMs available => exact registerWorker_change cmd nowMs available
  | rebindDialog record nowMs => exact rebindDialog_change record nowMs
  | adoptOrphan record => exact adoptOrphan_change record
  | completeReconcile binding => exact completeReconcile_change binding
  | startMediaCommand cmd nowMs available => exact startMediaCommand_change cmd nowMs available
  | rollbackSend cmd => exact rollbackSend_change cmd
  | onMediaResult result => exact onMediaResult_change result
  | expireLeases nowMs => exact .expired
  | recoverWorkerLoss i nowMs available identity accepted =>
    exact recoverWorkerLoss_change i nowMs available identity accepted

end Inversion

variable {a a' : ControlAdapter} {step : ControlStep} {i : ℕ} {entry : WorkerEntry}

def WorkerEntry.recount (entry : WorkerEntry) (active reserved : UInt32) : WorkerEntry :=
  { entry with
    value := { entry.value with activeSessions := active, reservedSessions := reserved } }

/-- What a step can do to one slot of the registry. -/
inductive EntryChange (a : ControlAdapter) :
    ControlStep → Option WorkerEntry → Option WorkerEntry → Prop
  | kept (step : ControlStep) (slot : Option WorkerEntry) : EntryChange a step slot slot
  | refreshed {cmd nowMs available} {entry : WorkerEntry}
      (hv2 : cmd.isV2 = true)
      (hsame : entry.value.binding = cmd.binding) :
      EntryChange a (.registerWorker cmd nowMs available) (some entry)
        (some (entry.refresh cmd (nowMs + a.config.leaseMs)))
  | refreshedLegacy {cmd nowMs available} {i : ℕ} {entry : WorkerEntry}
      (hfind : a.worker? cmd.workerId = some (i, entry))
      (hv1 : cmd.isV2 = false) :
      EntryChange a (.registerWorker cmd nowMs available) (some entry)
        (some (entry.refreshLegacy cmd (nowMs + a.config.leaseMs)))
  | renewed {cmd nowMs available} {entry : WorkerEntry}
      (hid : entry.value.workerId = cmd.workerId)
      (hv2 : cmd.isV2 = true)
      (hinstance : entry.value.instanceId = cmd.instanceId)
      (hnewer : entry.value.connectionGeneration < cmd.connectionGeneration) :
      EntryChange a (.registerWorker cmd nowMs available) (some entry) (some (a.filled cmd nowMs))
  | replaced {cmd nowMs available} {entry : WorkerEntry}
      (hid : entry.value.workerId = cmd.workerId)
      (hv2 : cmd.isV2 = true)
      (hinstance : entry.value.instanceId ≠ cmd.instanceId)
      (hidle : a.replaceable nowMs available entry = true) :
      EntryChange a (.registerWorker cmd nowMs available) (some entry) (some (a.filled cmd nowMs))
  | taken {cmd nowMs available} {old : Option WorkerEntry}
      (hnone : a.worker? cmd.workerId = none)
      (hother : ∀ entry ∈ old, entry.value.workerId ≠ cmd.workerId)
      (hidle : ∀ entry ∈ old, a.replaceable nowMs available entry = true) :
      EntryChange a (.registerWorker cmd nowMs available) old (some (a.filled cmd nowMs))
  | completed {entry : WorkerEntry}
      (hbound : (a.boundTo entry.value.binding).length = entry.value.activeSessions.toNat) :
      EntryChange a (.completeReconcile entry.value.binding) (some entry) (some entry.reconciled)
  | counted (step : ControlStep) (entry : WorkerEntry) (active reserved : UInt32) :
      EntryChange a step (some entry) (some (entry.recount active reserved))
  | expired {nowMs} {entry : WorkerEntry}
      (hlease : entry.value.leaseExpiresAtMs ≤ nowMs) :
      EntryChange a (.expireLeases nowMs) (some entry)
        (some { entry with
          leaseExpiryCounted := true
          value := { entry.value with state := .expired } })

theorem getElem?_set_cases {α : Type} {xs : List α} {i j : ℕ} {x y : α}
    (h : (xs.set i x)[j]? = some y) : (j = i ∧ y = x) ∨ xs[j]? = some y := by
  rw [getElem?_set] at h
  split_ifs at h with hij hlt
  · exact .inl ⟨hij.symm, (some.inj h).symm⟩
  · exact .inr h

theorem written_slot {old : Option WorkerEntry} {slot' : Option WorkerEntry}
    (hget : a.workers[i]? = some old) (hchange : EntryChange a step old (some entry)) (j : ℕ)
    (h : (a.workers.set i (some entry))[j]? = some slot') :
    ∃ slot, a.workers[j]? = some slot ∧ EntryChange a step slot slot' := by
  rcases getElem?_set_cases h with ⟨rfl, rfl⟩ | hold
  · exact ⟨old, hget, hchange⟩
  · exact ⟨slot', hold, .kept step slot'⟩

theorem unreserve_eq (entry : WorkerEntry) :
    ∃ active reserved, entry.unreserve = entry.recount active reserved := by
  rw [WorkerEntry.unreserve]
  split
  · exact ⟨entry.value.activeSessions, entry.value.reservedSessions, rfl⟩
  · exact ⟨entry.value.activeSessions, entry.value.reservedSessions - 1, rfl⟩

theorem deactivate_eq (entry : WorkerEntry) :
    ∃ active reserved, entry.deactivate = entry.recount active reserved := by
  rw [WorkerEntry.deactivate]
  split
  · exact ⟨entry.value.activeSessions, entry.value.reservedSessions, rfl⟩
  · exact ⟨entry.value.activeSessions - 1, entry.value.reservedSessions, rfl⟩

theorem onBound_slot
    {binding : Binding} {change : WorkerEntry → WorkerEntry} {slot' : Option WorkerEntry}
    (hchange : ∀ entry, ∃ active reserved, change entry = entry.recount active reserved) (j : ℕ)
    (h : (a.onBound binding change).workers[j]? = some slot') :
    ∃ slot, a.workers[j]? = some slot ∧ EntryChange a step slot slot' := by
  rw [onBound] at h
  split at h
  · exact ⟨slot', h, .kept step slot'⟩
  next i entry hbound =>
    obtain ⟨active, reserved, heq⟩ := hchange entry
    rw [heq] at h
    exact written_slot (bound?_some hbound).1 (.counted step entry active reserved) j h

theorem Change.slot (h : Change a step a') (j : ℕ) {slot' : Option WorkerEntry}
    (hget' : a'.workers[j]? = some slot') :
    ∃ slot, a.workers[j]? = some slot ∧ EntryChange a step slot slot' := by
  have hkept : a.workers[j]? = some slot' →
      ∃ slot, a.workers[j]? = some slot ∧ EntryChange a step slot slot' :=
    fun hsame => ⟨slot', hsame, .kept step slot'⟩
  cases h with
  | same | inputNoted hget | rebound hworker hawaits hnew hfree | adopted hget
  | tracked hkind hfind hactive htrack | closeRolledBack hfind htracked hclosing
  | operationRolledBack hfind htracked hopening hclosing hpending
  | closeRefused hfind hclosing htracked
  | operationAnswered hfind hopening hclosing hpending htracked | freed hget hstate =>
    exact hkept hget'
  | refreshed hget hv2 hsame => exact written_slot hget (.refreshed hv2 hsame) j hget'
  | refreshedLegacy hfind hv1 =>
    exact written_slot (worker?_some hfind).1 (.refreshedLegacy hfind hv1) j hget'
  | renewed hfind hv2 hinstance hnewer =>
    obtain ⟨hget, hid⟩ := worker?_some hfind
    exact written_slot hget (.renewed hid hv2 hinstance hnewer) j hget'
  | replaced hfind hv2 hinstance hidle =>
    obtain ⟨hget, hid⟩ := worker?_some hfind
    exact written_slot hget (.replaced hid hv2 hinstance hidle) j hget'
  | taken hnone hget hidle =>
    refine written_slot hget (.taken hnone ?_ hidle) j hget'
    intro entry hent
    rw [mem_def] at hent
    rw [hent] at hget
    simpa using findOccupied_none hnone entry (mem_of_getElem? hget)
  | completed hget hsame hbound hreserved =>
    subst hsame
    exact written_slot hget (.completed hbound) j hget'
  | opened hkind hnone hworker hhost hfree => exact written_slot hworker (.counted _ _ _ _) j hget'
  | openRolledBack hfind htracked hopening => exact onBound_slot unreserve_eq j hget'
  | activated hfind hbound hopening htracked hreserved hroom =>
    exact written_slot (bound?_some hbound).1 (.counted _ _ _ _) j hget'
  | @openFailed result i k entry route hfind hbound hopening htracked =>
    obtain ⟨active, reserved, heq⟩ := unreserve_eq entry
    rw [heq] at hget'
    exact written_slot (bound?_some hbound).1 (.counted _ _ _ _) j hget'
  | @closed result i k entry route hfind hbound hclosing htracked =>
    obtain ⟨active, reserved, heq⟩ := deactivate_eq entry
    rw [heq] at hget'
    exact written_slot (bound?_some hbound).1 (.counted _ _ _ _) j hget'
  | expired =>
    change (a.workers.map _)[j]? = some slot' at hget'
    rw [getElem?_map] at hget'
    obtain ⟨slot, hslot, rfl⟩ := map_eq_some_iff.mp hget'
    refine ⟨slot, hslot, ?_⟩
    cases slot with
    | none => exact .kept _ _
    | some entry =>
      rw [map_some]
      split_ifs with hdue
      · exact .expired hdue.2
      · exact .kept _ _
  | lost hget hstate hserved =>
    refine onBound_slot ?_ j hget'
    split
    · exact unreserve_eq
    · exact deactivate_eq

theorem onBound_length (binding : Binding) (change : WorkerEntry → WorkerEntry) :
    (a.onBound binding change).workers.length = a.workers.length := by
  rw [onBound]
  split
  · rfl
  · exact length_set

theorem Change.length (h : Change a step a') : a'.workers.length = a.workers.length := by
  cases h with
  | openRolledBack | lost => exact onBound_length _ _
  | _ => simp [setWorker, setDialog, expireLeases]

end Control
end TurboMedia.Ivr
