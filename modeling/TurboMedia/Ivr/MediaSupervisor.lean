import TurboMedia.Ivr.ReconnectEvents

/-!
# The media supervisor

Model of the thread of `ivr_media_supervisor.c`: it hands link states to the reconnection,
polls it, restarts both links when a retry is due, and emits what the reconnection answers.

`schedule_retry` calls a recovery episode one business outage, of which only the first failure
publishes a disconnection.  The supervisor publishes one more for each input stall.

`seen` lists what was emitted and when the connection was stable, the newest first; a
connection is stable where both links are connected and no retry is pending, which is when the
reconnection begins a new episode.
-/

namespace TurboMedia.Ivr

open Reconnect (recover_keeps recover_counted)

/-- `IVR_MEDIA_ERROR_PEER_FAILED`. -/
def errorPeerFailed : ℤ := 1003

/-- What is seen of a supervisor. -/
inductive Sight where
  | emitted (event : ReconnectEvent)
  | stable

/-- `ivr_media_supervisor_s`, as its thread knows it. -/
structure Supervisor where
  reconnect : MediaReconnect
  seen : List Sight

def MediaReconnect.stable (r : MediaReconnect) : Bool :=
  r.state.bothConnected && !r.state.retryPending

/-- `supervisor_emit`. -/
def emit (seen : List Sight) (event : ReconnectEvent) : List Sight :=
  if event = .none then seen else .emitted event :: seen

def Supervisor.after (s : Supervisor) (reconnect : MediaReconnect) (events : List ReconnectEvent) :
    Supervisor :=
  let seen := events.foldl emit s.seen
  ⟨reconnect, if reconnect.stable then .stable :: seen else seen⟩

/-- What `supervisor_process_state` emits for an answer. -/
def eventsOf (reconnect : MediaReconnect) (answer : ReconnectAnswer) : List ReconnectEvent :=
  if answer.status = .estate then []
  else if answer.status ≠ .ok then [.retryExhausted]
  else if answer.event = .reconnected ∧ reconnect.state.attemptsStarted = 1 then []
  else if answer.event = .inputStalled then [.inputStalled, .disconnected]
  else [answer.event]

/-- `supervisor_process_state`. -/
def processState (s : Supervisor) (link : LinkKind) (generation : ℕ) (state : LinkState)
    (errorCode : ℤ) (nowMs : ℕ) : Supervisor :=
  let out := onState s.reconnect link generation state errorCode nowMs
  s.after out.1 (eventsOf out.1 out.2)

/-- `supervisor_process_restart`, with the links that fail to restart. -/
def processRestart (s : Supervisor) (generation : ℕ) (whipFailed whepFailed : Bool) (nowMs : ℕ) :
    Supervisor :=
  let s := if whipFailed then processState s .whip generation .failed errorPeerFailed nowMs else s
  if whepFailed then processState s .whep generation .failed errorPeerFailed nowMs else s

/-- A turn of `supervisor_thread_main`. -/
inductive SupervisorOp where
  | state
      (link : LinkKind) (generation : ℕ) (state : LinkState) (errorCode : ℤ) (nowMs : UInt64)
  | poll (nowMs : UInt64) (whipFailed whepFailed : Bool) (restartedMs : UInt64)

def supervisorStep (s : Supervisor) : SupervisorOp → Supervisor
  | .state link generation state errorCode nowMs =>
    processState s link generation state errorCode nowMs.toNat
  | .poll nowMs whipFailed whepFailed restartedMs =>
    let out := poll s.reconnect nowMs.toNat
    if out.2.status ≠ .ok then s.after out.1 []
    else if out.2.event = .retryDue then
      processRestart (s.after out.1 []) out.1.state.attemptGeneration whipFailed whepFailed
        restartedMs.toNat
    else s.after out.1 [out.2.event]

def supervisorMachine : Machine Supervisor SupervisorOp Unit where
  step s op := (supervisorStep s op, ())

/-- `ivr_media_supervisor_start`, and the turn with the initial attempt. -/
def supervise (r : MediaReconnect) (nowMs : UInt64) (whipFailed whepFailed : Bool)
    (restartedMs : UInt64) : Supervisor :=
  processRestart ⟨reconnectStart r nowMs.toNat, []⟩ 1 whipFailed whepFailed restartedMs.toNat

/-- The disconnections since the connection was stable. -/
def reported : List Sight → ℕ
  | [] => 0
  | .stable :: _ => 0
  | .emitted event :: seen => (if event = .disconnected then 1 else 0) + reported seen

/-- An outage is disconnected once, and only an outage ends in a reconnection. -/
def OneOutage : List Sight → Prop
  | [] => True
  | .stable :: seen => OneOutage seen
  | .emitted event :: seen =>
    (event = .disconnected → reported seen = 0) ∧ (event = .reconnected → 0 < reported seen) ∧
      OneOutage seen

/-- No outage is under way. -/
def Settled (r : MediaReconnect) : Prop :=
  r.state.retryPending = false ∧ (r.state.bothConnected = true ∨ r.state.attemptsStarted = 1)

/-- An input stall that is taken does not meet an outage that is under way. -/
def StallsApart (s : Supervisor) : SupervisorOp → Prop
  | .state .whep generation _ errorCode _ =>
    generation = s.reconnect.state.attemptGeneration → s.reconnect.state.exhausted = false →
      errorCode = errorInputStalled → Settled s.reconnect
  | _ => True

/-- An outage was reported where one is under way. -/
structure Watched (s : Supervisor) : Prop where
  once : OneOutage s.seen
  attempts : 1 ≤ s.reconnect.state.attemptsStarted
  limit : s.reconnect.config.maxAttempts ≤ 32
  settled : s.reconnect.state.exhausted = false → Settled s.reconnect → reported s.seen = 0
  under : s.reconnect.state.exhausted = false → ¬Settled s.reconnect → reported s.seen = 1

variable {s : Supervisor} {r : MediaReconnect} {events : List ReconnectEvent}

theorem Watched.after (hattempts : 1 ≤ r.state.attemptsStarted) (hlimit : r.config.maxAttempts ≤ 32)
    (honce : OneOutage (events.foldl emit s.seen))
    (hsettled : r.state.exhausted = false → Settled r → r.stable = false →
      reported (events.foldl emit s.seen) = 0)
    (hunder : r.state.exhausted = false → ¬Settled r →
      reported (events.foldl emit s.seen) = 1) : Watched (s.after r events) := by
  unfold Supervisor.after
  by_cases hstable : r.stable = true
  · dsimp only
    rw [if_pos hstable]
    refine ⟨honce, hattempts, hlimit, fun _ _ => rfl, fun _ hnot => absurd ?_ hnot⟩
    rw [MediaReconnect.stable, Bool.and_eq_true, Bool.not_eq_true'] at hstable
    exact ⟨hstable.2, Or.inl hstable.1⟩
  · dsimp only
    rw [if_neg hstable]
    rw [Bool.not_eq_true] at hstable
    exact ⟨honce, hattempts, hlimit, fun hopen h => hsettled hopen h hstable, hunder⟩

/-- Nothing is emitted, and an outage is under way as before. -/
theorem Watched.quiet (h : Watched s) (hquiet : events.foldl emit s.seen = s.seen)
    (hattempts : 1 ≤ r.state.attemptsStarted) (hcfg : r.config = s.reconnect.config)
    (hopen : r.state.exhausted = false → s.reconnect.state.exhausted = false)
    (hsame : Settled r ↔ Settled s.reconnect) : Watched (s.after r events) := by
  refine Watched.after hattempts (hcfg ▸ h.limit) ?_ ?_ ?_
  · rw [hquiet]
    exact h.once
  · intro hex hset _
    rw [hquiet]
    exact h.settled (hopen hex) (hsame.mp hset)
  · intro hex hset
    rw [hquiet]
    exact h.under (hopen hex) (fun hs => hset (hsame.mpr hs))

theorem watched_scheduled (nowMs : ℕ) (hattempts : 1 ≤ r.state.attemptsStarted)
    (hlimit : r.config.maxAttempts ≤ 32) (honce : OneOutage (events.foldl emit s.seen))
    (hunder : nowMs < r.state.deadlineAtMs → r.state.attemptsStarted < r.config.maxAttempts →
      reported (events.foldl emit s.seen) = 1) :
    Watched (s.after (scheduleRetry r nowMs).1 events) := by
  rw [scheduleRetry]
  split
  · exact .after hattempts hlimit honce (by rintro ⟨⟩) (by rintro ⟨⟩)
  · next hbud =>
    rw [not_or, not_le, not_le] at hbud
    exact .after hattempts hlimit honce (by rintro _ ⟨⟨⟩, -⟩)
      (fun _ _ => hunder hbud.2 hbud.1)

theorem eventsOf_plain {event : ReconnectEvent} (h : event ≠ .reconnected)
    (h' : event ≠ .inputStalled) : eventsOf r ⟨.ok, event, none⟩ = [event] := by
  rw [eventsOf, if_neg nofun, if_neg (not_not.mpr rfl), if_neg (fun hboth => h hboth.1), if_neg h']

theorem recover_attempts (h : 1 ≤ r.state.attemptsStarted) (nowMs : ℕ) :
    1 ≤ (recover r nowMs).state.attemptsStarted ∧
      (recover r nowMs).state.retryPending = r.state.retryPending ∧ (r.state.retryPending = false →
        ((recover r nowMs).state.attemptsStarted = 1 ↔ Settled r)) := by
  unfold recover beginStableConnectionRecovery Settled
  cases hboth : r.state.bothConnected with
  | false => exact ⟨h, rfl, fun hpend => by simp [hpend]⟩
  | true =>
    cases hpend : r.state.retryPending with
    | true => exact ⟨h, hpend, fun hnot => nomatch hnot⟩
    | false => exact ⟨le_rfl, hpend, fun _ => by simp⟩

variable (h : Watched s)
include h

theorem onLost_watched (link : LinkKind) (nowMs : ℕ)
    (hopen : s.reconnect.state.exhausted = false) :
    Watched (s.after (onLost s.reconnect link nowMs).1
      (eventsOf (onLost s.reconnect link nowMs).1 (onLost s.reconnect link nowMs).2)) := by
  obtain ⟨hattempts, hpend, hone⟩ := recover_attempts h.attempts nowMs
  have hcfg := (recover_keeps s.reconnect nowMs).2.2
  have hparted : ∀ t : MediaReconnect, t.setConnected link false = { t with state :=
      (t.setConnected link false).state } ∧
      (t.setConnected link false).state.attemptsStarted = t.state.attemptsStarted ∧
      (t.setConnected link false).state.retryPending = t.state.retryPending := by
    intro t
    cases link with
    | whip | whep => exact ⟨rfl, rfl, rfl⟩
  obtain ⟨hsame, hstarted, hpending⟩ := hparted (recover s.reconnect nowMs)
  rw [← hstarted] at hattempts hone
  rw [← hpending] at hpend
  have hparted : ((recover s.reconnect nowMs).setConnected link false).config =
      s.reconnect.config := by rw [hsame, hcfg]
  unfold onLost
  generalize (recover s.reconnect nowMs).setConnected link false = parted
    at hattempts hone hpend hparted
  dsimp only
  cases hp : parted.state.retryPending with
  | true =>
    rw [hp] at hpend
    refine h.quiet rfl hattempts hparted (fun _ => hopen) (iff_of_false ?_ ?_)
    · exact fun hset => Bool.noConfusion (hp.symm.trans hset.1)
    · exact fun hset => Bool.noConfusion (hpend.trans hset.1)
  | false =>
    rw [hp] at hpend
    have hsettled := hone hpend.symm
    have hplain : (scheduleRetry parted nowMs).2 ≠ .reconnected ∧
        (scheduleRetry parted nowMs).2 ≠ .inputStalled := by
      unfold scheduleRetry
      split_ifs <;> exact ⟨nofun, nofun⟩
    rw [if_neg Bool.false_ne_true, eventsOf_plain hplain.1 hplain.2]
    refine watched_scheduled nowMs hattempts (hparted ▸ h.limit) ?_ ?_
    · unfold scheduleRetry
      split
      · exact ⟨nofun, nofun, h.once⟩
      · dsimp only
        split
        · next hfirst =>
          exact ⟨fun _ => h.settled hopen (hsettled.mp hfirst), nofun, h.once⟩
        · exact h.once
    · intro hdead hbud
      rw [scheduleRetry, if_neg (not_or.mpr ⟨hbud.not_ge, hdead.not_ge⟩)]
      split
      · next hfirst =>
        exact congrArg (1 + ·) (h.settled hopen (hsettled.mp hfirst))
      · next hlater => exact h.under hopen (fun hset => hlater (hsettled.mpr hset))

theorem onInputStalled_watched (nowMs : ℕ) (hset : Settled s.reconnect)
    (hopen : s.reconnect.state.exhausted = false) :
    Watched (s.after (onInputStalled s.reconnect nowMs).1
      (eventsOf (onInputStalled s.reconnect nowMs).1 (onInputStalled s.reconnect nowMs).2)) := by
  obtain ⟨hattempts, hpend, -⟩ := recover_attempts h.attempts nowMs
  have hnone : reported (emit s.seen .inputStalled) = 0 :=
    (Nat.zero_add _).trans (h.settled hopen hset)
  unfold onInputStalled
  dsimp only
  rw [recover_counted]
  rw [if_neg (by rw [hpend, hset.1]; exact Bool.false_ne_true)]
  refine watched_scheduled nowMs hattempts ((recover_keeps s.reconnect nowMs).2.2 ▸ h.limit) ?_ ?_
  · exact ⟨fun _ => hnone, nofun, nofun, nofun, h.once⟩
  · exact fun _ _ => congrArg (1 + ·) hnone

theorem onConnected_watched (link : LinkKind)
    (hopen : s.reconnect.state.exhausted = false) :
    Watched (s.after (onConnected s.reconnect link).1
      (eventsOf (onConnected s.reconnect link).1 (onConnected s.reconnect link).2)) := by
  have hjoined : (s.reconnect.setConnected link true).config = s.reconnect.config ∧
      (s.reconnect.setConnected link true).state.attemptsStarted =
        s.reconnect.state.attemptsStarted ∧
      (s.reconnect.setConnected link true).state.retryPending = s.reconnect.state.retryPending ∧
      (s.reconnect.state.bothConnected = true →
        (s.reconnect.setConnected link true).state.bothConnected = true) := by
    cases link with
    | whip => exact ⟨rfl, rfl, rfl, fun hboth => ((Bool.and_eq_true _ _).mp hboth).2⟩
    | whep =>
      exact ⟨rfl, rfl, rfl, fun hboth => (Bool.and_true _).trans
        ((Bool.and_eq_true _ _).mp hboth).1⟩
  unfold onConnected
  generalize s.reconnect.setConnected link true = joined at hjoined
  obtain ⟨hcfg, hstarted, hpend, hboth⟩ := hjoined
  have hattempts : 1 ≤ joined.state.attemptsStarted := hstarted ▸ h.attempts
  by_cases hp : joined.state.retryPending = true
  · rw [if_pos hp]
    refine h.quiet rfl hattempts hcfg (fun _ => hopen) (iff_of_false ?_ ?_)
    · exact fun hset => Bool.noConfusion (hp.symm.trans hset.1)
    · exact fun hset => Bool.noConfusion (hp.symm.trans (hpend.trans hset.1))
  rw [if_neg hp]
  rw [Bool.not_eq_true] at hp
  by_cases hnew : (!s.reconnect.state.bothConnected && joined.state.bothConnected) = true
  · rw [if_pos hnew]
    rw [Bool.and_eq_true, Bool.not_eq_true'] at hnew
    have hstable : joined.stable = true := by
      rw [MediaReconnect.stable, hnew.2, hp]
      rfl
    refine .after hattempts (hcfg ▸ h.limit) ?_
      (fun _ _ hnot => Bool.noConfusion (hstable.symm.trans hnot))
      (fun _ hnot => absurd ⟨hp, Or.inl hnew.2⟩ hnot)
    unfold eventsOf
    by_cases hfirst : joined.state.attemptsStarted = 1
    · rw [if_neg nofun, if_neg (not_not.mpr rfl), if_pos ⟨rfl, hfirst⟩]
      exact h.once
    · rw [if_neg nofun, if_neg (not_not.mpr rfl), if_neg (fun hand => hfirst hand.2), if_neg nofun]
      have hunder := h.under hopen (fun hset => hset.2.elim
        (fun hin => Bool.noConfusion (hin.symm.trans hnew.1))
        (fun hin => hfirst (hstarted.trans hin)))
      exact ⟨nofun, fun _ => hunder ▸ Nat.one_pos, h.once⟩
  · rw [if_neg hnew]
    refine h.quiet rfl hattempts hcfg (fun _ => hopen) ?_
    have hsame : joined.state.bothConnected = true ↔ s.reconnect.state.bothConnected = true := by
      refine ⟨fun hin => ?_, hboth⟩
      rw [hin, Bool.and_true, Bool.not_eq_true, Bool.not_eq_false'] at hnew
      exact hnew
    rw [Settled, Settled, hpend, hstarted, hsame]

theorem processState_watched {link : LinkKind} {generation : ℕ} {state : LinkState}
    {errorCode : ℤ} (nowMs : ℕ)
    (hapart : link = .whep → generation = s.reconnect.state.attemptGeneration →
      s.reconnect.state.exhausted = false → errorCode = errorInputStalled →
      Settled s.reconnect) : Watched (processState s link generation state errorCode nowMs) := by
  unfold processState onState
  split
  · exact h.quiet rfl h.attempts rfl id Iff.rfl
  next hcurrent =>
  split
  · exact h.quiet rfl h.attempts rfl id Iff.rfl
  next hopen =>
  rw [Bool.not_eq_true] at hopen
  split
  · next hstall =>
    exact onInputStalled_watched h nowMs (hapart hstall.1 (not_not.mp hcurrent) hopen hstall.2)
      hopen
  cases state with
  | connecting => exact h.quiet rfl h.attempts rfl id Iff.rfl
  | connected => exact onConnected_watched h link hopen
  | disconnected | failed | closed => exact onLost_watched h link nowMs hopen

theorem processRestart_watched (generation : ℕ) (whipFailed whepFailed : Bool)
    (nowMs : ℕ) : Watched (processRestart s generation whipFailed whepFailed nowMs) := by
  have hone : ∀ {s : Supervisor} (link : LinkKind) (failed : Bool), Watched s →
      Watched (if failed then processState s link generation .failed errorPeerFailed nowMs
        else s) := by
    intro s link failed h
    split
    · exact processState_watched h nowMs (fun _ _ _ hcode => absurd hcode (by decide))
    · exact h
  exact hone .whep whepFailed (hone .whip whipFailed h)

theorem supervisorStep_watched {op : SupervisorOp} (hapart : StallsApart s op) :
    Watched (supervisorStep s op) := by
  cases op with
  | state link generation state errorCode nowMs =>
    refine processState_watched h nowMs.toNat ?_
    rintro rfl
    exact hapart
  | poll nowMs whipFailed whepFailed restartedMs =>
    unfold supervisorStep poll
    dsimp only
    split
    · exact h.quiet rfl h.attempts rfl id Iff.rfl
    split
    · next hdue =>
      split
      · refine .after h.attempts h.limit ⟨nofun, nofun, h.once⟩ (fun hex => nomatch hex)
          (fun hex => nomatch hex)
      · next hbud =>
        refine processRestart_watched ?_ _ whipFailed whepFailed restartedMs.toNat
        rw [not_or, not_le, not_le] at hbud
        have hattempts := h.attempts
        have hlimit := h.limit
        have hnext := Words.succ32_eq (n := s.reconnect.state.attemptsStarted) (by
          unfold Words.max32
          omega)
        have hunder : ¬Settled s.reconnect := by
          intro hset
          rw [hset.1] at hdue
          cases hdue
        refine .after (Nat.le_of_lt_succ ?_) hlimit h.once ?_ (fun hex _ => h.under hex hunder)
        · dsimp only
          omega
        · rintro - ⟨-, hboth | hfirst⟩ -
          · cases hboth
          · dsimp only at hfirst
            omega
    · exact h.quiet rfl h.attempts rfl id Iff.rfl

omit h

/-- A supervisor of which no input stall meets an outage that is under way, with links that
come and go, retries and restarts in any order: each outage is disconnected once, and a
reconnection ends one. -/
theorem supervisor_reports_once {config : Option ReconnectConfig} {r : MediaReconnect}
    (hcreate : reconnectCreate config = .ok r) (nowMs : UInt64) (whipFailed whepFailed : Bool)
    (restartedMs : UInt64) (ops : List SupervisorOp)
    (hops : supervisorMachine.Along StallsApart
      (supervise r nowMs whipFailed whepFailed restartedMs) ops) :
    OneOutage (supervisorMachine.run
      (supervise r nowMs whipFailed whepFailed restartedMs) ops).seen := by
  have hlimit := (Reconnect.accepted_of_create hcreate).attempts.2
  have hstart : Watched ⟨reconnectStart r nowMs.toNat, []⟩ :=
    ⟨trivial, le_rfl, hlimit, fun _ _ => rfl, fun _ hnot => absurd ⟨rfl, Or.inr rfl⟩ hnot⟩
  exact (supervisorMachine.run_invariant_along (P := Watched)
    (fun _ _ hop h => supervisorStep_watched h hop)
    (processRestart_watched hstart 1 whipFailed whepFailed restartedMs.toNat) hops).once

/-- An outage with a retry. -/
def oneRetry : List SupervisorOp :=
  [.state .whip 1 .connected 0 5, .state .whep 1 .connected 0 6, .state .whep 1 .failed 1002 7,
    .poll 200 false false 200, .state .whip 2 .connected 0 201, .state .whep 2 .connected 0 202]

theorem supervisor_reports_once_retry :
    OneOutage (supervisorMachine.run
      (supervise ⟨⟨3, 100, 2000, 10000⟩, ReconnectState.zero⟩ 0 false false 1) oneRetry).seen := by
  have hcreate : reconnectCreate none = .ok ⟨⟨3, 100, 2000, 10000⟩, ReconnectState.zero⟩ := rfl
  exact supervisor_reports_once hcreate 0 false false 1 oneRetry
    ⟨trivial, fun _ _ hcode => absurd hcode (by decide), fun _ _ _ => ⟨rfl, Or.inl rfl⟩, trivial,
      trivial, fun _ _ hcode => absurd hcode (by decide), trivial⟩

/-- The input stalls while the other link is lost already. -/
theorem supervisor_reports_twice :
    ¬OneOutage (supervisorMachine.run
      (supervise ⟨⟨3, 100, 2000, 10000⟩, ReconnectState.zero⟩ 0 false false 1)
      [.state .whip 1 .connected 0 5, .state .whep 1 .connected 0 6, .state .whip 1 .failed 1003 7,
        .state .whep 1 .failed 1002 8]).seen := by
  intro h
  exact absurd (h.1 rfl) (by decide)

end TurboMedia.Ivr
