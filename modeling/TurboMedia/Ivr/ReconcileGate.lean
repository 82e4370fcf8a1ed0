import TurboMedia.Ivr.ControlChanges

/-!
# The reconciliation gate

Workers that have reported sessions of which the room service does not know yet.

**Input.**  Any run of the adapter.

**Method.**  The gate is an invariant of each registry slot (`WorkerEntry.Gated`); the
changes of a slot are those of `EntryChange`.
-/

namespace TurboMedia.Ivr
namespace Control

open Conference (literal)

section Gate

/-- An entry that is to be reconciled says so in its state. -/
def WorkerEntry.Gated (entry : WorkerEntry) : Prop :=
  entry.value.requiresReconcile = true →
    entry.value.state = .reconciling ∨ entry.value.state = .expired

/-- No `worker.sync` of protocol 1 is for an entry that is to be reconciled. -/
def KeepsGate (a : ControlAdapter) : ControlStep → Prop
  | .registerWorker cmd _ _ =>
    cmd.isV2 = false → ∀ found ∈ a.worker? cmd.workerId, found.2.value.requiresReconcile = false
  | _ => True

instance (a : ControlAdapter) (step : ControlStep) : Decidable (KeepsGate a step) := by
  cases step <;> unfold KeepsGate <;> infer_instance

def LeavesGate (a : ControlAdapter) (entry : WorkerEntry) : ControlStep → Prop
  | .completeReconcile binding =>
    binding = entry.value.binding ∧ (a.boundTo binding).length = entry.value.activeSessions.toNat
  | .registerWorker cmd nowMs available =>
    cmd.workerId = entry.value.workerId ∧ cmd.isV2 = true ∧
        (cmd.instanceId = entry.value.instanceId ∧
            entry.value.connectionGeneration < cmd.connectionGeneration ∨
          cmd.instanceId ≠ entry.value.instanceId) ∨
      cmd.workerId ≠ entry.value.workerId ∧ a.replaceable nowMs available entry = true
  | _ => False

def ControlAdapter.AllGated (a : ControlAdapter) : Prop :=
  ∀ (i : ℕ) (entry : WorkerEntry), a.workers[i]? = some (some entry) → entry.Gated

variable {a a' : ControlAdapter} {step : ControlStep} {entry : WorkerEntry}

theorem gated_refresh (cmd : WorkerCommand) (expiresAtMs : ℕ) :
    (entry.refresh cmd expiresAtMs).Gated := by
  intro hrequires
  have hold : entry.value.requiresReconcile = true := hrequires
  refine .inl ?_
  simp [WorkerEntry.refresh, hold]

theorem gated_filled (cmd : WorkerCommand) (nowMs : ℕ) : (a.filled cmd nowMs).Gated := by
  intro hrequires
  rw [ControlAdapter.filled, fillEntry] at hrequires ⊢
  split_ifs at hrequires ⊢ with hreports
  · exact .inl rfl
  · exact absurd hrequires (by simp [fillFromCommand]; split <;> simp)

theorem EntryChange.gated {slot : Option WorkerEntry} {entry' : WorkerEntry}
    (h : EntryChange a step slot (some entry')) (hkeeps : KeepsGate a step)
    (hgated : ∀ entry, slot = some entry → entry.Gated) : entry'.Gated := by
  cases h with
  | kept => exact hgated entry' rfl
  | refreshed hv2 hsame => exact gated_refresh _ _
  | @refreshedLegacy cmd nowMs available i entry hfind hv1 =>
    intro hrequires
    have hyes : entry.value.requiresReconcile = true := hrequires
    have hno : entry.value.requiresReconcile = false := hkeeps hv1 _ hfind
    exact absurd (hyes.symm.trans hno) (by simp)
  | renewed hid hv2 hinstance hnewer | replaced hid hv2 hinstance hidle
  | taken hnone hother hidle => exact gated_filled _ _
  | completed hbound =>
    intro hrequires
    exact absurd hrequires (by simp [WorkerEntry.reconciled])
  | counted step entry active reserved => exact hgated entry rfl
  | expired hlease => exact fun _ => .inr rfl

/-- An entry behind the gate stays there, as the same instance, or leaves in a way that is
meant. -/
theorem EntryChange.leaves {slot' : Option WorkerEntry} (h : EntryChange a step (some entry) slot')
    (hkeeps : KeepsGate a step) (hrequires : entry.value.requiresReconcile = true) :
    (∃ entry', slot' = some entry' ∧ entry'.value.requiresReconcile = true ∧
      entry'.value.binding = entry.value.binding) ∨ LeavesGate a entry step := by
  cases h with
  | kept => exact .inl ⟨entry, rfl, hrequires, rfl⟩
  | refreshed hv2 hsame | refreshedLegacy hfind hv1 | counted step entry active reserved
  | expired hlease => exact .inl ⟨_, rfl, hrequires, rfl⟩
  | renewed hid hv2 hinstance hnewer =>
    exact .inr (.inl ⟨hid.symm, hv2, .inl ⟨hinstance.symm, hnewer⟩⟩)
  | replaced hid hv2 hinstance hidle => exact .inr (.inl ⟨hid.symm, hv2, .inr hinstance.symm⟩)
  | taken hnone hother hidle => exact .inr (.inr ⟨(hother entry rfl).symm, hidle entry rfl⟩)
  | completed hbound => exact .inr ⟨rfl, hbound⟩

theorem next_gated (h : a.AllGated) (hkeeps : KeepsGate a step) :
    (controlMachine.next a step).AllGated := by
  intro i entry' hget'
  obtain ⟨slot, hget, hchange⟩ := (next_change a step).slot i hget'
  refine hchange.gated hkeeps ?_
  rintro entry rfl
  exact h i entry hget

theorem start_opens
    {cmd : MediaCommand} {nowMs : ℕ} {available : CStr → Bool} {worker : WorkerSnapshot}
    (hkind : cmd.kind = .sessionOpen) (hnew : a.dialog? cmd.key = none)
    (hans : controlMachine.answer a (.startMediaCommand cmd nowMs available) =
      .prepared ⟨.ok, some worker⟩) :
    ∃ (i : ℕ) (entry : WorkerEntry), a.workers[i]? = some (some entry) ∧
      a.canHost nowMs available cmd.call entry.value = true ∧ worker = entry.reserve.value := by
  change ControlAnswer.prepared (a.startMediaCommand cmd nowMs available).2 = _ at hans
  rw [ControlAnswer.prepared.injEq, ControlAdapter.startMediaCommand] at hans
  split at hans
  · simp at hans
  · split at hans
    · simp at hans
    · rw [ControlAdapter.prepareCommand, if_pos hkind, hnew] at hans
      dsimp only at hans
      rw [ControlAdapter.reserveOpen] at hans
      split at hans
      · simp at hans
      · split at hans
        · simp at hans
        · split at hans
          · simp at hans
          next i entry hpick =>
            obtain ⟨hget, hhost⟩ := pickHost_some hpick
            simp only [Prepared.mk.injEq, Option.some.injEq, true_and] at hans
            exact ⟨i, entry, hget, hhost, hans.symm⟩

end Gate

variable {config : AdapterConfig} {workerCapacity dialogCapacity : UInt32}
  {steps : List ControlStep}

theorem create_workers (config : AdapterConfig) (workerCapacity dialogCapacity : UInt32) (i : ℕ)
    (entry : WorkerEntry) :
    (ControlAdapter.create config workerCapacity dialogCapacity).workers[i]? ≠
      some (some entry) := by
  rw [ControlAdapter.create, List.getElem?_replicate]
  split <;> simp

theorem run_gated
    (h : controlMachine.Along KeepsGate (.create config workerCapacity dialogCapacity) steps) :
    (controlMachine.run (.create config workerCapacity dialogCapacity) steps).AllGated := by
  refine controlMachine.run_invariant_along (fun a step hkeeps hgated => ?_) ?_ h
  · exact next_gated hgated hkeeps
  · intro i entry hget
    exact absurd hget (create_workers config workerCapacity dialogCapacity i entry)

/-- **Reconciliation.**  In every run in which no `worker.sync` of protocol 1 is for an entry
that is to be reconciled: such an entry is reconciling or expired; it stays so or leaves the
gate by a complete reconciliation or by a registration of a newer generation, of another
instance, or of another worker in its slot; and no new dialog is placed on it. -/
theorem gate_kept
    (h : controlMachine.Along KeepsGate (.create config workerCapacity dialogCapacity) steps) :
    (controlMachine.run (.create config workerCapacity dialogCapacity) steps).AllGated ∧ (∀ step,
        KeepsGate (controlMachine.run (.create config workerCapacity dialogCapacity) steps) step →
        ∀ (i : ℕ) (entry : WorkerEntry),
          (controlMachine.run (.create config workerCapacity dialogCapacity) steps).workers[i]? =
            some (some entry) → entry.value.requiresReconcile = true → (∃ entry' : WorkerEntry,
            (controlMachine.next
              (controlMachine.run (.create config workerCapacity dialogCapacity) steps)
              step).workers[i]? = some (some entry') ∧ entry'.value.requiresReconcile = true ∧
            entry'.value.binding = entry.value.binding) ∨
          LeavesGate (controlMachine.run (.create config workerCapacity dialogCapacity) steps)
            entry step) ∧ ∀ cmd nowMs available worker, cmd.kind = .sessionOpen →
        (controlMachine.run (.create config workerCapacity dialogCapacity) steps).dialog?
          cmd.key = none → controlMachine.answer
            (controlMachine.run (.create config workerCapacity dialogCapacity) steps)
            (.startMediaCommand cmd nowMs available) = .prepared ⟨.ok, some worker⟩ →
        worker.requiresReconcile = false := by
  have hgated := run_gated h
  refine ⟨hgated, ?_, ?_⟩
  · intro step hkeeps i entry hget hrequires
    have hlt : i < (controlMachine.next
        (controlMachine.run (.create config workerCapacity dialogCapacity) steps)
        step).workers.length := by
      rw [(next_change _ step).length]
      exact (List.getElem?_eq_some_iff.mp hget).1
    obtain ⟨slot, hslot, hchange⟩ := (next_change _ step).slot i (List.getElem?_eq_getElem hlt)
    rw [hget, Option.some.injEq] at hslot
    subst hslot
    rcases hchange.leaves hkeeps hrequires with ⟨entry', hentry', hkept⟩ | hleaves
    · exact .inl ⟨entry', (List.getElem?_eq_getElem hlt).trans (congrArg some hentry'), hkept⟩
    · exact .inr hleaves
  · intro cmd nowMs available worker hkind hnew hanswer
    obtain ⟨i, entry, hget, hhost, rfl⟩ := start_opens hkind hnew hanswer
    have hready : entry.value.state = .ready := by
      simp only [ControlAdapter.canHost, Bool.and_eq_true, beq_iff_eq] at hhost
      have heffective := hhost.1.1.1.1.2
      rw [WorkerSnapshot.effectiveState] at heffective
      split_ifs at heffective
      exact heffective
    cases hrequires : entry.value.requiresReconcile with
    | false => exact hrequires
    | true =>
      rcases hgated i entry hget hrequires with hstate | hstate
      · exact absurd (hready.symm.trans hstate) (by simp)
      · exact absurd (hready.symm.trans hstate) (by simp)

/-- A worker of protocol 2 that reports one session. -/
def reportingWorker : WorkerCommand where
  command := .syncV2
  workerId := literal "w"
  instanceId := literal "i"
  connectionGeneration := 1
  maxSessions := 2
  activeSessions := 1
  reservedSessions := 0
  leaseDurationMs := 15000
  draining := 0
  healthGeneration := 1
  healthReady := 1
  capabilities := literal "media"

def gateConfig : AdapterConfig where
  hasBridge := true
  observesResults := true
  observesEvents := true
  legacyMaxSessions := 1
  leaseMs := 15000
  contentPackage := literal "p"
  acls := []

def openCommand : MediaCommand where
  kind := .sessionOpen
  messageId := literal "m"
  key := ⟨literal "t", literal "s", literal "d"⟩
  workerId := []
  call := ⟨literal "r", literal "c", 1⟩
  operationGeneration := 1
  deadlineTimeoutMs := 1
  inputId := []
  inputGeneration := 0

def reportedRecord : InventoryRecord where
  binding := ⟨literal "w", literal "i", 1⟩
  key := openCommand.key
  call := openCommand.call
  inputId := []
  inputGeneration := 0
  state := .active
  rebindable := true

/-- Another worker of protocol 1 registers while the reported session is rebound. -/
def rebindSteps : List ControlStep :=
  [.registerWorker reportingWorker 0 (fun _ => true),
    .registerWorker { reportingWorker with command := .sync, workerId := literal "l" } 0
      (fun _ => true),
    .rebindDialog reportedRecord 1]

theorem gate_kept_reporting :
    ∃ entry : WorkerEntry, let a := controlMachine.run (.create gateConfig 2 1) rebindSteps
      let last := ControlStep.completeReconcile reportedRecord.binding
      a.AllGated ∧ a.workers[0]? = some (some entry) ∧ entry.value.requiresReconcile = true ∧
        LeavesGate a entry last ∧ ∀ slot ∈ (controlMachine.next a last).workers[0]?,
          ∀ found ∈ slot, found.value.requiresReconcile = false := by
  obtain ⟨hgated, hleaves, -⟩ := @gate_kept gateConfig 2 1 rebindSteps (by decide)
  have hopen : ∀ slot ∈ (controlMachine.next
      (controlMachine.run (.create gateConfig 2 1) rebindSteps)
        (.completeReconcile reportedRecord.binding)).workers[0]?,
      ∀ found ∈ slot, found.value.requiresReconcile = false := by decide
  refine ⟨_, hgated, rfl, by decide, ?_, hopen⟩
  refine (hleaves (.completeReconcile _) trivial 0 _ rfl (by decide)).resolve_left ?_
  rintro ⟨entry', hget, hrequires, -⟩
  rw [hopen _ hget entry' rfl] at hrequires
  cases hrequires

/-- A `worker.sync` of protocol 1 makes the entry of a worker that has sessions to be
reconciled ready, and the next dialog is placed on it. -/
theorem gate_bypassed :
    (∃ entry ∈ (controlMachine.run (.create gateConfig 1 1)
        [.registerWorker reportingWorker 0 (fun _ => true),
          .registerWorker { reportingWorker with command := .sync } 0
            (fun _ => true)]).workers.reduceOption,
      entry.value.requiresReconcile = true ∧ entry.value.state = .ready) ∧
      ∃ worker : WorkerSnapshot, controlMachine.answer (controlMachine.run (.create gateConfig 1 1)
            [.registerWorker reportingWorker 0 (fun _ => true),
              .registerWorker { reportingWorker with command := .sync } 0 (fun _ => true)])
          (.startMediaCommand openCommand 1 (fun _ => true)) = .prepared ⟨.ok, some worker⟩ ∧
        worker.requiresReconcile = true := by
  refine ⟨by decide, ?_⟩
  exact ⟨_, rfl, rfl⟩

end Control
end TurboMedia.Ivr
