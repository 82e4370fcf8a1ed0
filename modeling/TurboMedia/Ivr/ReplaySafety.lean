import TurboMedia.Ivr.RoomBridge
import TurboMedia.Lib.Recall

/-!
# Replays of commands

What the replay cache of the bridge makes of commands that come again.

**Input.**  Any run of the bridge, with the readings of its clock in order.

**Method.**  The cache is a ring that recalls the results stored last (`Lib.Recall`); the
list of all results ever stored is read off the run.  A command finds its own result, and no
other, as long as the ring still recalls it (`Held`).
-/

namespace TurboMedia.Ivr

open List Machine RoomBridge DedupEntry

section Cache

/-- What identifies a command. -/
abbrev ReplayKey := CStr × UInt64

def DedupEntry.key (entry : DedupEntry) : ReplayKey :=
  (entry.messageId, entry.callGeneration)

def BridgeCommand.key (cmd : BridgeCommand) : ReplayKey :=
  (cmd.messageId, cmd.callGeneration)

/-- The cache recalls the results of `log`. -/
def Dedup.Recalls (d : Dedup) (log : List DedupEntry) : Prop :=
  Recall.Recalls (fun new old => old.isFresh d.retentionMs new.storedAtMs) d.entries d.next log

/-- The last result under the key is still in the cache: fewer results than it has slots
were stored since, each within its retention. -/
def Held (log : List DedupEntry) (d : Dedup) (key : ReplayKey) : Prop :=
  ∀ before entry after, log = before ++ entry :: after → entry.key = key →
    after.length < d.entries.length ∧
      ∀ later ∈ after, entry.isFresh d.retentionMs later.storedAtMs = true

variable {d : Dedup} {log : List DedupEntry} {cmd : BridgeCommand} {entry : DedupEntry}

theorem isFor_iff (cmd : BridgeCommand) (entry : DedupEntry) :
    isFor cmd.messageId cmd.callGeneration entry = true ↔ entry.key = cmd.key := by
  rw [isFor, Bool.and_eq_true, beq_iff_eq, beq_iff_eq, key,
    BridgeCommand.key, Prod.mk.injEq]

theorem lookup_of_new (now : ℕ) (h : d.Recalls log) (hnew : ∀ entry ∈ log, entry.key ≠ cmd.key) :
    dedupLookup d now cmd.messageId cmd.callGeneration = .miss := by
  rw [dedupLookup, h.find_none]
  intro entry hent
  rw [Bool.eq_false_iff]
  exact fun hfor => hnew entry hent ((isFor_iff cmd entry).mp hfor)

theorem lookup_of_held (now : ℕ) (h : d.Recalls log) (hheld : Held log d cmd.key)
    (hmem : entry ∈ log) (hkey : entry.key = cmd.key)
    (honly : ∀ other ∈ log, other.key = cmd.key → other = entry) :
    dedupLookup d now cmd.messageId cmd.callGeneration =
      if entry.isFresh d.retentionMs now then .hit entry.result else .expired := by
  obtain ⟨before, after, rfl⟩ := append_of_mem hmem
  obtain ⟨hroom, hkept⟩ := hheld before entry after rfl hkey
  obtain ⟨i, hfind⟩ := Recall.Recalls.find_some h ((isFor_iff cmd entry).mpr hkey)
    (fun other hother hfor => honly other hother ((isFor_iff cmd other).mp hfor)) hroom hkept
  rw [dedupLookup, hfind]

theorem Dedup.Recalls.store (h : d.Recalls log) : (dedupStore d entry).Recalls (log ++ [entry]) :=
  Recall.Recalls.write h

theorem Dedup.Recalls.init (capacity retentionMs : ℕ) :
    (Dedup.init capacity retentionMs).Recalls [] := by
  refine Recall.Recalls.empty ?_
  split <;> omega

end Cache

section Steps

def storedBy (effects : List BridgeEffect) : List DedupEntry :=
  effects.filterMap (fun effect =>
    match effect with
    | .store entry => some entry
    | _ => none)

/-- The commands that a step has handed to the host, with their results. -/
def calledBy (effects : List BridgeEffect) : List (BridgeCommand × RoomCommandResult) :=
  effects.filterMap (fun effect =>
    match effect with
    | .onCommand cmd result => some (cmd, result)
    | _ => none)

/-- What is stored for a command with this result. -/
def keptFor (cmd : BridgeCommand) (o : Surroundings) (result : RoomCommandResult) :
    List DedupEntry :=
  if result.retryable then [] else [dedupEntry cmd o result]

/-- A command that the cache does not know. -/
structure Executed (b : RoomBridge) (msg : BridgeMessage) (cmd : BridgeCommand)
    (o : Surroundings) (result : RoomCommandResult) : Prop where
  dedup : (b.handleCommand msg cmd o).1.dedup =
    if result.retryable then b.dedup else dedupStore b.dedup (dedupEntry cmd o result)
  stored : storedBy (b.handleCommand msg cmd o).2 = keptFor cmd o result
  called : calledBy (b.handleCommand msg cmd o).2 = [] ∨
    calledBy (b.handleCommand msg cmd o).2 = [(cmd, result)]

variable {b : RoomBridge} {msg : BridgeMessage} {cmd : BridgeCommand} {o : Surroundings}

theorem handleCommand_cases (b : RoomBridge) (msg : BridgeMessage) (cmd : BridgeCommand)
    (o : Surroundings) :
    (∃ result, dedupLookup b.dedup o.lookupMs cmd.messageId cmd.callGeneration = .hit result ∧
      b.handleCommand msg cmd o = (b, [.reply msg.route cmd result])) ∨
    (dedupLookup b.dedup o.lookupMs cmd.messageId cmd.callGeneration = .expired ∧
      b.handleCommand msg cmd o = (b, [.reply msg.route cmd staleResult])) ∨
    (dedupLookup b.dedup o.lookupMs cmd.messageId cmd.callGeneration = .miss ∧
      ∃ result, Executed b msg cmd o result) := by
  cases hlook : dedupLookup b.dedup o.lookupMs cmd.messageId cmd.callGeneration with
  | hit result =>
    refine .inl ⟨result, rfl, ?_⟩
    rw [handleCommand, hlook]
  | expired =>
    refine .inr (.inl ⟨rfl, ?_⟩)
    rw [handleCommand, hlook]
  | miss =>
    refine .inr (.inr ⟨rfl, ?_⟩)
    have hhandle : b.handleCommand msg cmd o =
        if cmd.isRegistration && !b.identified msg cmd then
          b.reject msg cmd o .eauth (Conference.literal "worker identity not connected")
        else if b.versionConflict cmd o then
          b.reject msg cmd o .eversion (Conference.literal "stale expected_room_version")
        else
          b.execute msg cmd o := by
      rw [handleCommand, hlook]
    have hreject : ∀ status message, b.handleCommand msg cmd o = b.reject msg cmd o status message →
        ∃ result, Executed b msg cmd o result := by
      intro status message heq
      refine ⟨RoomCommandResult.zero.fail status message, ?_, ?_, .inl ?_⟩
      · rw [heq]
        rfl
      · rw [heq]
        rfl
      · rw [heq]
        rfl
    split_ifs at hhandle
    · exact hreject _ _ hhandle
    · exact hreject _ _ hhandle
    · refine ⟨b.commandResult o, ?_, ?_, ?_⟩
      · rw [hhandle]
        rfl
      · rw [hhandle, execute, storedBy, keptFor]
        split_ifs <;> rfl
      · rw [hhandle, execute, calledBy]
        split_ifs <;> simp

def BridgeStep.command? : BridgeStep → Option (BridgeMessage × BridgeCommand × Surroundings)
  | .message msg o =>
    match msg.content with
    | .command cmd => some (msg, cmd, o)
    | _ => none
  | _ => none

theorem step_command {step : BridgeStep} (h : step.command? = some (msg, cmd, o)) :
    step = .message msg o ∧ msg.content = .command cmd ∧
      roomBridgeMachine.step b step = b.handleCommand msg cmd o := by
  cases step with
  | message msg' o' =>
    rw [BridgeStep.command?] at h
    split at h
    next cmd' hbody =>
      rw [Option.some.injEq, Prod.mk.injEq, Prod.mk.injEq] at h
      obtain ⟨rfl, rfl, rfl⟩ := h
      refine ⟨rfl, hbody, ?_⟩
      simp [roomBridgeMachine, handleRequest, hbody]
    · exact absurd h (by simp)
  | peerEvent connected identity route | clear | sendToWorker workerId
  | sendFailed workerId route => exact absurd h (by simp [BridgeStep.command?])

theorem step_other {step : BridgeStep} (h : step.command? = none) :
    (roomBridgeMachine.next b step).dedup = b.dedup ∧
      storedBy (roomBridgeMachine.answer b step) = [] ∧
      calledBy (roomBridgeMachine.answer b step) = [] := by
  cases step with
  | message msg o =>
    rw [BridgeStep.command?] at h
    simp only [Machine.next, answer, roomBridgeMachine, handleRequest]
    split at h
    · exact absurd h (by simp)
    next hbody =>
      cases hcase : msg.content with
      | malformed => exact ⟨rfl, rfl, rfl⟩
      | fromWorker frame workerId =>
        dsimp only
        split <;> exact ⟨rfl, rfl, rfl⟩
      | command cmd => exact absurd hcase (hbody cmd)
  | peerEvent connected identity route =>
    simp only [Machine.next, answer, roomBridgeMachine, peerEvent]
    split <;> exact ⟨rfl, rfl, rfl⟩
  | clear => exact ⟨rfl, rfl, rfl⟩
  | sendToWorker workerId =>
    refine ⟨rfl, ?_⟩
    change storedBy (b.sendToWorker workerId) = [] ∧ calledBy (b.sendToWorker workerId) = []
    rw [sendToWorker]
    split
    · exact ⟨rfl, rfl⟩
    · split <;> exact ⟨rfl, rfl⟩
  | sendFailed workerId route =>
    refine ⟨?_, rfl, rfl⟩
    change (b.sendFailed workerId route).dedup = b.dedup
    rw [sendFailed]
    split
    · rfl
    · split <;> rfl

/-- The cache recalls what was stored before and what the step has stored. -/
theorem step_recalls {log : List DedupEntry} (step : BridgeStep) (h : b.dedup.Recalls log) :
    (roomBridgeMachine.next b step).dedup.Recalls
        (log ++ storedBy (roomBridgeMachine.answer b step)) ∧
      (roomBridgeMachine.next b step).dedup.retentionMs = b.dedup.retentionMs ∧
      (roomBridgeMachine.next b step).dedup.entries.length = b.dedup.entries.length := by
  cases hcmd : step.command? with
  | none =>
    obtain ⟨hdedup, hstored, -⟩ := step_other (b := b) hcmd
    rw [hdedup, hstored, append_nil]
    exact ⟨h, rfl, rfl⟩
  | some command =>
    obtain ⟨msg, cmd, o⟩ := command
    obtain ⟨-, -, hstep⟩ := step_command (b := b) hcmd
    rw [Machine.next, answer, hstep]
    rcases handleCommand_cases b msg cmd o with
      ⟨result, -, heq⟩ | ⟨-, heq⟩ | ⟨-, result, hexecuted⟩
    · rw [heq, storedBy]
      simpa using h
    · rw [heq, storedBy]
      simpa using h
    · rw [hexecuted.dedup, hexecuted.stored, keptFor]
      split
      · simpa using h
      · refine ⟨h.store, rfl, ?_⟩
        simp [dedupStore, dedupPurge]

end Steps

/-- The bridge, every command of the run and what was stored before it. -/
def Remembers : List DedupEntry → RoomBridge → List BridgeStep → Prop
  | _, _, [] => True
  | log, b, step :: steps =>
    (∀ command ∈ step.command?, Held log b.dedup command.2.1.key) ∧
      Remembers (log ++ storedBy (roomBridgeMachine.answer b step))
        (roomBridgeMachine.next b step) steps

/-- The readings of the clock do not go back. -/
def ClockRuns : ℕ → List BridgeStep → Prop
  | _, [] => True
  | now, .message _ o :: steps =>
    now ≤ o.lookupMs ∧ o.lookupMs ≤ o.storeMs ∧ ClockRuns o.storeMs steps
  | now, _ :: steps => ClockRuns now steps

def storeLog (b : RoomBridge) (steps : List BridgeStep) : List DedupEntry :=
  roomBridgeMachine.observe storedBy b steps

/-- The results of a command each time it was handed to the host. -/
def callLog (key : ReplayKey) (b : RoomBridge) (steps : List BridgeStep) :
    List RoomCommandResult :=
  ((roomBridgeMachine.observe calledBy b steps).filter (fun call => call.1.key = key)).map
    Prod.snd

/-- The cache recalls the log, in which every command has one result, from the past. -/
structure Recording (log : List DedupEntry) (now : ℕ) (b : RoomBridge) : Prop where
  recalls : b.dedup.Recalls log
  nodup : (log.map key).Nodup
  past : ∀ entry ∈ log, entry.storedAtMs ≤ now

variable {log : List DedupEntry} {now : ℕ} {b : RoomBridge} {steps : List BridgeStep}
  {msg : BridgeMessage} {cmd : BridgeCommand} {o : Surroundings} {entry : DedupEntry}

theorem Recording.repeats (h : Recording log now b) (hheld : Held log b.dedup cmd.key)
    (hnow : now ≤ o.lookupMs) (hmem : entry ∈ log) (hkey : entry.key = cmd.key) :
    b.handleCommand msg cmd o = (b, [.reply msg.route cmd
        (if o.lookupMs - entry.storedAtMs < b.dedup.retentionMs then entry.result
          else staleResult)]) := by
  have hlook := lookup_of_held o.lookupMs h.recalls hheld hmem hkey (fun other hother hsame =>
      inj_on_of_nodup_map h.nodup hother hmem (hsame.trans hkey.symm))
  have hfresh : entry.isFresh b.dedup.retentionMs o.lookupMs = true ↔
      o.lookupMs - entry.storedAtMs < b.dedup.retentionMs := by
    rw [isFresh, decide_eq_true_eq]
    have := h.past entry hmem
    constructor
    · exact fun hboth => hboth.2
    · exact fun hlt => ⟨by omega, hlt⟩
  rw [handleCommand, hlook]
  by_cases hage : o.lookupMs - entry.storedAtMs < b.dedup.retentionMs
  · rw [if_pos (hfresh.mpr hage), if_pos hage]
  · rw [if_neg (fun hf => hage (hfresh.mp hf)), if_neg hage]

theorem Recording.executes (msg : BridgeMessage) (o : Surroundings) (h : Recording log now b)
    (hnew : ∀ entry ∈ log, entry.key ≠ cmd.key) : ∃ result, Executed b msg cmd o result := by
  have hlook := lookup_of_new o.lookupMs h.recalls hnew
  rcases handleCommand_cases b msg cmd o with ⟨result, hhit, -⟩ | ⟨hexpired, -⟩ | ⟨-, hexecuted⟩
  · exact absurd (hhit.symm.trans hlook) (by simp)
  · exact absurd (hexpired.symm.trans hlook) (by simp)
  · exact hexecuted

theorem keptFor_key {result : RoomCommandResult} (h : entry ∈ keptFor cmd o result) :
    entry.key = cmd.key ∧ entry.storedAtMs = o.storeMs ∧ result.retryable = false := by
  rw [keptFor] at h
  split_ifs at h with hretryable
  · exact absurd h not_mem_nil
  · rw [mem_singleton.mp h]
    exact ⟨rfl, rfl, Bool.not_eq_true _ ▸ hretryable⟩

theorem Recording.step {step : BridgeStep} (h : Recording log now b)
    (hheld : ∀ command ∈ step.command?, Held log b.dedup command.2.1.key)
    (hclock : ClockRuns now (step :: steps)) :
    ∃ later, now ≤ later ∧ ClockRuns later steps ∧
      Recording (log ++ storedBy (roomBridgeMachine.answer b step)) later
        (roomBridgeMachine.next b step) := by
  obtain ⟨hrecalls, -, -⟩ := step_recalls step h.recalls
  cases hcmd : step.command? with
  | none =>
    obtain ⟨-, hstored, -⟩ := step_other (b := b) hcmd
    rw [hstored, append_nil] at hrecalls ⊢
    cases step with
    | message msg o =>
      obtain ⟨hlook, hstore, hrest⟩ := hclock
      exact ⟨o.storeMs, by omega, hrest, hrecalls, h.nodup,
        fun entry hent => by have := h.past entry hent; omega⟩
    | peerEvent connected identity route | clear | sendToWorker workerId
    | sendFailed workerId route => exact ⟨now, le_rfl, hclock, hrecalls, h.nodup, h.past⟩
  | some command =>
    obtain ⟨msg, cmd, o⟩ := command
    obtain ⟨rfl, hbody, hstep⟩ := step_command (b := b) hcmd
    obtain ⟨hlook, hstore, hrest⟩ := hclock
    refine ⟨o.storeMs, by omega, hrest, hrecalls, ?_, ?_⟩
    · rw [answer, hstep]
      by_cases hnew : ∀ entry ∈ log, entry.key ≠ cmd.key
      · obtain ⟨result, hexecuted⟩ := h.executes msg o hnew
        rw [hexecuted.stored, map_append, nodup_append]
        refine ⟨h.nodup, ?_, ?_⟩
        · rw [keptFor]
          split <;> simp
        · rintro key hkey key' hkey' rfl
          obtain ⟨entry, hent, rfl⟩ := mem_map.mp hkey
          obtain ⟨added, hadded, hsame⟩ := mem_map.mp hkey'
          exact hnew entry hent (hsame.symm.trans (keptFor_key hadded).1)
      · push Not at hnew
        obtain ⟨entry, hent, hkey⟩ := hnew
        rw [h.repeats (hheld _ hcmd) hlook hent hkey, storedBy]
        simpa using h.nodup
    · intro entry hent
      rw [answer, hstep] at hent
      rcases mem_append.mp hent with hold | hadded
      · have := h.past entry hold
        omega
      · rcases handleCommand_cases b msg cmd o with
          ⟨result, -, heq⟩ | ⟨-, heq⟩ | ⟨-, result, hexecuted⟩
        · simp [heq, storedBy] at hadded
        · simp [heq, storedBy] at hadded
        · rw [hexecuted.stored] at hadded
          exact (keptFor_key hadded).2.1.le

theorem run_replays (h : Recording log now b) (hremembers : Remembers log b steps)
    (hclock : ClockRuns now steps) :
    ∀ before msg o cmd after, steps = before ++ .message msg o :: after →
      msg.content = .command cmd → ∀ entry ∈ log ++ storeLog b before, entry.key = cmd.key →
        roomBridgeMachine.answer (roomBridgeMachine.run b before) (.message msg o) =
          [.reply msg.route cmd
            (if o.lookupMs - entry.storedAtMs < b.dedup.retentionMs then entry.result
              else staleResult)] := by
  induction steps generalizing log now b with
  | nil =>
    intro before msg o cmd after heq
    simp at heq
  | cons step steps ih =>
    intro before msg o cmd after heq hbody entry hent hkey
    cases before with
    | nil =>
      rw [nil_append, cons.injEq] at heq
      obtain ⟨rfl, rfl⟩ := heq
      have hcmd : (BridgeStep.message msg o).command? = some (msg, cmd, o) := by
        rw [BridgeStep.command?, hbody]
      rw [storeLog, observe, append_nil] at hent
      rw [run_nil, answer, (step_command hcmd).2.2,
        h.repeats (hremembers.1 _ hcmd) hclock.1 hent hkey]
    | cons first before =>
      rw [cons_append, cons.injEq] at heq
      obtain ⟨rfl, rfl⟩ := heq
      obtain ⟨later, -, hrest, hnext⟩ := h.step hremembers.1 hclock
      rw [storeLog, observe, ← append_assoc] at hent
      rw [run_cons, ih hnext hremembers.2 hrest before msg o cmd after rfl hbody
        entry hent hkey, (step_recalls step h.recalls).2.1]

theorem run_calls (key : ReplayKey) (h : Recording log now b) (hremembers : Remembers log b steps)
    (hclock : ClockRuns now steps) :
    (callLog key b steps).length ≤
      ((callLog key b steps).filter RoomCommandResult.retryable).length +
        (if key ∈ log.map DedupEntry.key then 0 else 1) := by
  induction steps generalizing log now b with
  | nil => simp [callLog, observe]
  | cons step steps ih =>
    obtain ⟨later, -, hrest, hnext⟩ := h.step hremembers.1 hclock
    have hih := ih hnext hremembers.2 hrest
    have hcons : callLog key b (step :: steps) =
        ((calledBy (roomBridgeMachine.answer b step)).filter
          (fun call => call.1.key = key)).map Prod.snd ++
          callLog key (roomBridgeMachine.next b step) steps := by
      rw [callLog, observe, filter_append, map_append, callLog]
    rw [hcons]
    cases hcmd : step.command? with
    | none =>
      obtain ⟨-, hstored, hcalled⟩ := step_other (b := b) hcmd
      rw [hstored, append_nil] at hih
      rw [hcalled]
      simpa using hih
    | some command =>
      obtain ⟨msg, cmd, o⟩ := command
      obtain ⟨rfl, -, hstep⟩ := step_command (b := b) hcmd
      rw [answer, hstep] at hih ⊢
      by_cases hknown : ∃ entry ∈ log, entry.key = cmd.key
      · obtain ⟨entry, hent, hkey⟩ := hknown
        rw [h.repeats (hremembers.1 _ hcmd) hclock.1 hent hkey] at hih ⊢
        simpa [calledBy, storedBy] using hih
      · push Not at hknown
        obtain ⟨result, hexecuted⟩ := h.executes msg o hknown
        simp only [hexecuted.stored, map_append, mem_append] at hih
        by_cases hkey : cmd.key = key
        · subst hkey
          have hnew : cmd.key ∉ log.map DedupEntry.key := by
            rintro hmem
            obtain ⟨entry, hent, hsame⟩ := mem_map.mp hmem
            exact hknown entry hent hsame
          rw [if_neg hnew]
          cases hretryable : result.retryable with
          | false =>
            rw [if_pos (.inr (by simp [keptFor, hretryable, dedupEntry, DedupEntry.key,
              BridgeCommand.key]))] at hih
            rcases hexecuted.called with hnone | hone
            · rw [hnone]
              simp
              omega
            · rw [hone]
              simp [hretryable]
              omega
          | true =>
            rw [if_neg (by simp [keptFor, hretryable, hnew])] at hih
            rcases hexecuted.called with hnone | hone
            · rw [hnone]
              simp
              omega
            · rw [hone]
              simp [hretryable]
              omega
        · have hother : key ∉ (keptFor cmd o result).map DedupEntry.key := by
            intro hmem
            obtain ⟨entry, hent, hsame⟩ := mem_map.mp hmem
            exact hkey ((keptFor_key hent).1.symm.trans hsame)
          have hnone : (calledBy (b.handleCommand msg cmd o).2).filter
              (fun call => call.1.key = key) = [] := by
            rcases hexecuted.called with hnone | hone
            · rw [hnone]
              rfl
            · rw [hone]
              simp [hkey]
          rw [hnone]
          simpa [hother] using hih

theorem create_recording (dedupCapacity dedupRetentionMs : ℕ) (handler : BridgeHandler) :
    Recording [] 0 (.create dedupCapacity dedupRetentionMs handler) where
  recalls := Dedup.Recalls.init dedupCapacity dedupRetentionMs
  nodup := nodup_nil
  past := by simp

/-- **Replays.**  In every run in which the last result of a repeated command is still held,
a repeat is answered with the stored result within the retention and as stale after it, and a
command is handed to the host at most once more than its results were retryable. -/
theorem replays_answered
    {dedupCapacity dedupRetentionMs : ℕ} {handler : BridgeHandler} {steps : List BridgeStep}
    (hclock : ClockRuns 0 steps)
    (hremembers : Remembers [] (.create dedupCapacity dedupRetentionMs handler) steps) :
    (∀ before msg o cmd after, steps = before ++ .message msg o :: after →
      msg.content = .command cmd →
      ∀ entry ∈ storeLog (.create dedupCapacity dedupRetentionMs handler) before,
        entry.key = cmd.key → roomBridgeMachine.answer
            (roomBridgeMachine.run (.create dedupCapacity dedupRetentionMs handler) before)
            (.message msg o) = [.reply msg.route cmd (if o.lookupMs - entry.storedAtMs <
                (if dedupRetentionMs = 0 then 60000 else dedupRetentionMs) then entry.result
              else staleResult)]) ∧
      ∀ key, (callLog key (.create dedupCapacity dedupRetentionMs handler) steps).length ≤
        ((callLog key (.create dedupCapacity dedupRetentionMs handler) steps).filter
          RoomCommandResult.retryable).length + 1 := by
  have hcreate := create_recording dedupCapacity dedupRetentionMs handler
  exact ⟨run_replays hcreate hremembers hclock,
    fun key => run_calls key hcreate hremembers hclock⟩

/-- The result of a command that was applied at a version. -/
def appliedAt (version : UInt64) : RoomCommandResult :=
  ⟨.ok, version, 1, [], false⟩

def commandHost : BridgeHandler :=
  ⟨fun _ => false, true, false⟩

/-- A join with this message id, handled at this time. -/
def joinAt (messageId : UInt8) (ms : ℕ) (version : UInt64) : BridgeStep :=
  .message ⟨[1], ⟨1, 1, 1, 1⟩, .command ⟨.other, [messageId], [1], [2], 1, 0⟩⟩
    ⟨ms, ms, 0, true, appliedAt version⟩

theorem held_iff {d : Dedup} {key : ReplayKey} :
    Held log d key ↔ ∀ i : Fin log.length, log[i].key = key →
      (log.drop (i + 1)).length < d.entries.length ∧
        ∀ later ∈ log.drop (i + 1), log[i].isFresh d.retentionMs later.storedAtMs = true := by
  constructor
  · intro h i hkey
    refine h (log.take i) log[i] (log.drop (i + 1)) ?_ hkey
    simp
  · rintro h before entry after rfl hkey
    have hi := h ⟨before.length, by simp⟩
    simp only [Fin.getElem_fin, getElem_append_right, le_refl, Nat.sub_self,
      getElem_cons_zero] at hi
    have hdrop : (before ++ entry :: after).drop (before.length + 1) = after := by
      rw [drop_append, drop_of_length_le (by omega)]
      simp
    rw [hdrop] at hi
    exact hi hkey

instance (log : List DedupEntry) (d : Dedup) (key : ReplayKey) : Decidable (Held log d key) :=
  decidable_of_iff _ held_iff.symm

instance decidableRemembers :
    ∀ log b steps, Decidable (Remembers log b steps)
  | _, _, [] => .isTrue trivial
  | log, b, step :: steps =>
    haveI := decidableRemembers (log ++ storedBy (roomBridgeMachine.answer b step))
      (roomBridgeMachine.next b step) steps
    inferInstanceAs (Decidable ((∀ command ∈ step.command?, _) ∧ _))

/-- Two commands and their replays, within the retention and after it. -/
def replayedInTime : List BridgeStep :=
  [joinAt 1 0 5, joinAt 2 3 6, joinAt 1 9 7, joinAt 1 12 8]

theorem replayedInTime_answered :
    (callLog ([1], 1) (.create 2 10 commandHost) replayedInTime).length ≤
      ((callLog ([1], 1) (.create 2 10 commandHost) replayedInTime).filter
        RoomCommandResult.retryable).length + 1 :=
  have hclock : ClockRuns 0 replayedInTime := by
    simp [replayedInTime, joinAt, ClockRuns]
  have hremembers : Remembers [] (.create 2 10 commandHost) replayedInTime := by
    decide
  (replays_answered hclock hremembers).2 ([1], 1)

/-- A replay is applied again after another command has taken its only slot, and after
another command was stored when its retention was over. -/
theorem replays_applied_again :
    callLog ([1], 1) (.create 1 10 commandHost) [joinAt 1 0 5, joinAt 2 1 6, joinAt 1 2 7] =
        [appliedAt 5, appliedAt 7] ∧
      callLog ([1], 1) (.create 2 10 commandHost) [joinAt 1 0 5, joinAt 2 10 6, joinAt 1 11 7] =
        [appliedAt 5, appliedAt 7] := by
  decide

end TurboMedia.Ivr
