import TurboMedia.Ivr.MediaReconnect

/-!
# What a reconnection reports

**Input.**  Any run of callbacks and polls after the start, at times that do not go back.

**Method.**  Every call is a chain of small updates, and each of them keeps the bounds
(`Paced`).  The generation never passes the clock, so it does not wrap.  The end of all
attempts is reported by the call that sets it, unless that call is a stall of the input
(`Admissible`).
-/

namespace TurboMedia.Ivr

open Words List
namespace Reconnect

/-- A stall of the input would use up the last attempt. -/
def stallExhausts (r : MediaReconnect) (nowMs : ℕ) : Prop :=
  (recover r nowMs).state.retryPending = false ∧
    ((recover r nowMs).state.attemptsStarted ≥ r.config.maxAttempts ∨
      nowMs ≥ (recover r nowMs).state.deadlineAtMs)

/-- A stall of the input that counts leaves an attempt. -/
def Admissible (r : MediaReconnect) : ReconnectOp → Prop
  | .onState .whep attemptGeneration _ errorCode nowMs =>
    attemptGeneration = r.state.attemptGeneration → r.state.exhausted = false →
      errorCode = errorInputStalled → ¬stallExhausts r nowMs.toNat
  | _ => True

/-- The generations of the retries that were due. -/
def dueGenerations (transcript : List (ReconnectOp × ReconnectAnswer)) : List ℕ :=
  transcript.filterMap (fun entry =>
    if entry.2.event = .retryDue then entry.2.generation else none)

/-- How often the end of all attempts was reported. -/
def exhaustions (transcript : List (ReconnectOp × ReconnectAnswer)) : ℕ :=
  transcript.countP (fun entry => decide (entry.2.event = .retryExhausted))

/-- What holds of a state and of the calls that led to it. -/
structure Reports (r : MediaReconnect) (transcript : List (ReconnectOp × ReconnectAnswer)) :
    Prop where
  attempts : 1 ≤ r.state.attemptsStarted ∧ r.state.attemptsStarted ≤ r.config.maxAttempts
  pending : r.state.retryPending = true → r.state.nextRetryAtMs ≤ r.state.deadlineAtMs
  due : ∀ op, (reconnectMachine.answer r op).event = .retryDue →
    op.nowMs.toNat < r.state.deadlineAtMs
  increasing : (1 :: dueGenerations transcript).Pairwise (· < ·)
  stale : ∀ link attemptGeneration state errorCode nowMs,
    attemptGeneration ≠ r.state.attemptGeneration →
      reconnectMachine.step r (.onState link attemptGeneration state errorCode nowMs) =
        ({ r with state := { r.state with
          staleCallbacks := succ64 r.state.staleCallbacks } }, ⟨.estate, .none, none⟩)
  reported : exhaustions transcript = if r.state.exhausted then 1 else 0
  closed : r.state.exhausted = true → ∀ op,
    (reconnectMachine.answer r op).status = .estate ∧ (reconnectMachine.answer r op).event = .none ∧
      (reconnectMachine.next r op).state.exhausted = true

section Bounds

variable {r : MediaReconnect} {nowMs : ℕ}

/-- What `ivr_media_reconnect_create` accepts. -/
structure Accepted (config : ReconnectConfig) : Prop where
  attempts : 1 ≤ config.maxAttempts ∧ config.maxAttempts ≤ 32
  initial : 1 ≤ config.initialBackoffMs
  backoff : config.initialBackoffMs ≤ config.maxBackoffMs

/-- The state keeps to the configuration and to the clock. -/
structure Paced (r : MediaReconnect) (nowMs : ℕ) : Prop where
  accepted : Accepted r.config
  attempts : 1 ≤ r.state.attemptsStarted ∧ r.state.attemptsStarted ≤ r.config.maxAttempts
  deadline : r.state.deadlineAtMs ≤ max64
  pending : r.state.retryPending = true → r.state.nextRetryAtMs ≤ r.state.deadlineAtMs
  generation : r.state.attemptGeneration ≤ nowMs + 1
  later : r.state.retryPending = true → r.state.nextRetryAtMs < r.state.deadlineAtMs →
    r.state.attemptGeneration ≤ r.state.nextRetryAtMs

theorem addSaturating_le {left : ℕ} (hleft : left ≤ max64) (right : ℕ) :
    addSaturating left right ≤ max64 := by
  rw [addSaturating]
  split_ifs
  · exact le_rfl
  · omega

theorem addSaturating_eq {left right : ℕ} (h : addSaturating left right < max64) :
    addSaturating left right = left + right := by
  rw [addSaturating] at h ⊢
  split_ifs at h ⊢
  · exact absurd h (lt_irrefl _)
  · rfl

theorem le_doubleDelay (maxBackoffMs shifts : ℕ) {delay : ℕ} (h : 1 ≤ delay) :
    1 ≤ doubleDelay maxBackoffMs shifts delay := by
  induction shifts generalizing delay with
  | zero => exact h
  | succ shifts ih =>
    rw [doubleDelay]
    split_ifs
    · exact ih (by decide)
    · exact ih (by omega)
    · exact h

theorem one_le_retryBackoff (h : Accepted r.config) : 1 ≤ retryBackoff r := by
  have hdelay : ∀ shifts, 1 ≤ if doubleDelay r.config.maxBackoffMs shifts
      r.config.initialBackoffMs > r.config.maxBackoffMs then r.config.maxBackoffMs
      else doubleDelay r.config.maxBackoffMs shifts r.config.initialBackoffMs := by
    intro shifts
    split_ifs
    · exact h.initial.trans h.backoff
    · exact le_doubleDelay _ _ h.initial
  exact hdelay _

theorem Paced.mono {later : ℕ} (h : Paced r nowMs) (hle : nowMs ≤ later) : Paced r later :=
  ⟨h.accepted, h.attempts, h.deadline, h.pending, h.generation.trans (by omega), h.later⟩

/-- The parts of the state that the bounds do not read. -/
def SameBounds (r t : MediaReconnect) : Prop :=
  ∃ whip whep stale stalls, t = { r with state := { r.state with
    whipConnected := whip
    whepConnected := whep
    staleCallbacks := stale
    inputStalls := stalls } }

theorem Paced.congr {t : MediaReconnect} (h : Paced r nowMs) (hsame : SameBounds r t) :
    Paced t nowMs := by
  obtain ⟨_, _, _, _, rfl⟩ := hsame
  exact ⟨h.accepted, h.attempts, h.deadline, h.pending, h.generation, h.later⟩

theorem sameBounds_setConnected (r : MediaReconnect) (link : LinkKind) (connected : Bool) :
    SameBounds r (r.setConnected link connected) := by
  cases link with
  | whip | whep => exact ⟨_, _, _, _, rfl⟩

theorem Paced.recover (h : Paced r nowMs) (hnow : nowMs ≤ max64) :
    Paced (recover r nowMs) nowMs := by
  rw [Ivr.recover, beginStableConnectionRecovery]
  split_ifs with hboth hkept
  · exact h
  · have hpend : r.state.retryPending = false := by
      cases hp : r.state.retryPending with
      | false => rfl
      | true =>
        rw [hp] at hkept
        simp at hkept
    exact ⟨h.accepted, ⟨le_rfl, h.accepted.attempts.1⟩, addSaturating_le hnow _,
      fun hin => absurd (hpend.symm.trans hin) (by simp), h.generation,
      fun hin => absurd (hpend.symm.trans hin) (by simp)⟩
  · exact h

theorem Paced.exhaust (h : Paced r nowMs) :
    Paced { r with state := { r.state with exhausted := true, retryPending := false } } nowMs :=
  ⟨h.accepted, h.attempts, h.deadline, fun hin => absurd hin (by simp), h.generation,
    fun hin => absurd hin (by simp)⟩

theorem Paced.scheduleRetry (h : Paced r nowMs) : Paced (scheduleRetry r nowMs).1 nowMs := by
  rw [Ivr.scheduleRetry]
  split
  · exact h.exhaust
  · have hbackoff := one_le_retryBackoff h.accepted
    refine ⟨h.accepted, h.attempts, h.deadline, fun _ => ?_, h.generation, fun _ hlt => ?_⟩
    · dsimp only
      split_ifs with hlate
      · exact le_rfl
      · exact not_lt.mp hlate
    · dsimp only at hlt ⊢
      split_ifs at hlt ⊢ with hlate
      · exact absurd hlt (lt_irrefl _)
      · have heq := addSaturating_eq (hlt.trans_le h.deadline)
        have hgen := h.generation
        rw [heq]
        omega

end Bounds

section Steps

variable {r r' : MediaReconnect} {nowMs : ℕ} {answer : ReconnectAnswer}

/-- What one call does. -/
structure Stepped (r : MediaReconnect) (nowMs : ℕ) (r' : MediaReconnect)
    (answer : ReconnectAnswer) : Prop where
  paced : Paced r' nowMs
  retried : answer.event = .retryDue → answer.generation = some r'.state.attemptGeneration ∧
    r.state.attemptGeneration < r'.state.attemptGeneration ∧ nowMs < r.state.deadlineAtMs
  generation : answer.event ≠ .retryDue → r'.state.attemptGeneration = r.state.attemptGeneration
  closed : r.state.exhausted = true →
    r'.state.exhausted = true ∧ answer.status = .estate ∧ answer.event = .none
  reported : r.state.exhausted = false →
    (answer.event = .retryExhausted ↔ r'.state.exhausted = true)

theorem stepped_quiet (hpaced : Paced r' nowMs)
    (hgen : r'.state.attemptGeneration = r.state.attemptGeneration)
    (hexh : r'.state.exhausted = r.state.exhausted)
    (hdue : answer.event ≠ .retryDue ∧ answer.event ≠ .retryExhausted)
    (hclosed : r.state.exhausted = true → answer.status = .estate ∧ answer.event = .none) :
    Stepped r nowMs r' answer where
  paced := hpaced
  retried := fun hin => absurd hin hdue.1
  generation := fun _ => hgen
  closed := fun hin => ⟨hexh.trans hin, hclosed hin⟩
  reported := by
    intro hopen
    rw [hexh, hopen]
    exact iff_of_false hdue.2 (by simp)

theorem scheduleRetry_keeps (r : MediaReconnect) (nowMs : ℕ) :
    (scheduleRetry r nowMs).1.state.attemptGeneration = r.state.attemptGeneration ∧
      (scheduleRetry r nowMs).2 ≠ .retryDue := by
  rw [scheduleRetry]
  split
  · exact ⟨rfl, by simp⟩
  · refine ⟨rfl, ?_⟩
    split_ifs
    · simp
    · simp

theorem scheduleRetry_exhausted (hopen : r.state.exhausted = false) :
    ((scheduleRetry r nowMs).2 = .retryExhausted ↔
        (scheduleRetry r nowMs).1.state.exhausted = true) ∧
      ((scheduleRetry r nowMs).1.state.exhausted = true ↔
        r.state.attemptsStarted ≥ r.config.maxAttempts ∨ nowMs ≥ r.state.deadlineAtMs) := by
  rw [scheduleRetry]
  split
  · next hbud =>
      exact ⟨by simp, by simpa using hbud⟩
  · next hbud =>
      refine ⟨?_, by simpa [hopen] using hbud⟩
      rw [hopen]
      split_ifs
      · simp
      · simp

theorem recover_keeps (r : MediaReconnect) (nowMs : ℕ) :
    (recover r nowMs).state.attemptGeneration = r.state.attemptGeneration ∧
      (recover r nowMs).state.exhausted = r.state.exhausted ∧
      (recover r nowMs).config = r.config := by
  rw [recover, beginStableConnectionRecovery]
  split_ifs <;> exact ⟨rfl, rfl, rfl⟩

theorem recover_counted (r : MediaReconnect) (stalls nowMs : ℕ) :
    recover { r with state := { r.state with inputStalls := stalls } } nowMs =
      { recover r nowMs with
        state := { (recover r nowMs).state with inputStalls := stalls } } := by
  obtain ⟨config, ⟨_, _, whip, whep, pending, _, _, _, _, _⟩⟩ := r
  cases whip with
  | false => rfl
  | true =>
    cases whep with
    | false => rfl
    | true =>
      cases pending with
      | false | true => rfl

variable (h : Paced r nowMs)
include h

theorem stepped_onInputStalled (hnow : nowMs ≤ max64)
    (hopen : r.state.exhausted = false) (hleft : ¬stallExhausts r nowMs) :
    Stepped r nowMs (onInputStalled r nowMs).1 (onInputStalled r nowMs).2 := by
  have hcnt : Paced { r with state := { r.state with
      inputStalls := succ64 r.state.inputStalls } } nowMs := h.congr ⟨_, _, _, _, rfl⟩
  have hbegun := hcnt.recover hnow
  rw [onInputStalled]
  rw [recover_counted] at hbegun ⊢
  obtain ⟨hgen, hexh, hcfg⟩ := recover_keeps r nowMs
  split_ifs with hpend
  · exact stepped_quiet hbegun hgen hexh (by simp)
      (fun hin => absurd (hopen.symm.trans hin) (by simp))
  · refine stepped_quiet hbegun.scheduleRetry
      ((scheduleRetry_keeps _ nowMs).1.trans hgen) ?_ (by simp)
      (fun hin => absurd (hopen.symm.trans hin) (by simp))
    rw [hopen, ← Bool.not_eq_true,
      (scheduleRetry_exhausted (r := { recover r nowMs with state := {
        (recover r nowMs).state with inputStalls := succ64 r.state.inputStalls } })
        (hexh.trans hopen)).2]
    rw [hcfg]
    exact fun hbud => hleft ⟨Bool.not_eq_true _ ▸ hpend, hbud⟩

theorem stepped_onConnected (hopen : r.state.exhausted = false)
    (link : LinkKind) : Stepped r nowMs (onConnected r link).1 (onConnected r link).2 := by
  have hjoined := h.congr (sameBounds_setConnected r link true)
  have hkeeps : (r.setConnected link true).state.attemptGeneration = r.state.attemptGeneration ∧
      (r.setConnected link true).state.exhausted = r.state.exhausted := by
    cases link with
    | whip | whep => exact ⟨rfl, rfl⟩
  have hclosed : r.state.exhausted = true → ∀ P : Prop, P :=
    fun hin => absurd (hopen.symm.trans hin) (by simp)
  rw [onConnected]
  split_ifs <;> exact stepped_quiet hjoined hkeeps.1 hkeeps.2 (by simp) (fun hin => hclosed hin _)

theorem stepped_onLost (hnow : nowMs ≤ max64)
    (hopen : r.state.exhausted = false) (link : LinkKind) :
    Stepped r nowMs (onLost r link nowMs).1 (onLost r link nowMs).2 := by
  obtain ⟨hgen, hexh, _⟩ := recover_keeps r nowMs
  have hparted := (h.recover hnow).congr (sameBounds_setConnected _ link false)
  have hkeeps : ((recover r nowMs).setConnected link false).state.attemptGeneration =
        r.state.attemptGeneration ∧
      ((recover r nowMs).setConnected link false).state.exhausted = r.state.exhausted := by
    cases link with
    | whip | whep => exact ⟨hgen, hexh⟩
  rw [onLost]
  split_ifs
  · exact stepped_quiet hparted hkeeps.1 hkeeps.2 (by simp)
      (fun hin => absurd (hopen.symm.trans hin) (by simp))
  · have hsched := scheduleRetry_keeps ((recover r nowMs).setConnected link false) nowMs
    exact ⟨hparted.scheduleRetry, fun hin => absurd hin hsched.2,
      fun _ => hsched.1.trans hkeeps.1, fun hin => absurd (hopen.symm.trans hin) (by simp),
      fun _ => (scheduleRetry_exhausted (hkeeps.2.trans hopen)).1⟩

theorem stepped_onState
    {link : LinkKind} {attemptGeneration : ℕ} {state : LinkState} {errorCode : ℤ}
    (hnow : nowMs ≤ max64)
    (hleft : link = .whep → attemptGeneration = r.state.attemptGeneration →
      r.state.exhausted = false → errorCode = errorInputStalled → ¬stallExhausts r nowMs) :
    Stepped r nowMs (onState r link attemptGeneration state errorCode nowMs).1
      (onState r link attemptGeneration state errorCode nowMs).2 := by
  rw [onState.eq_def]
  split
  · exact stepped_quiet (h.congr ⟨_, _, _, _, rfl⟩) rfl rfl (by simp) (fun _ => ⟨rfl, rfl⟩)
  · next hgen =>
      rw [not_not] at hgen
      split
      · exact stepped_quiet h rfl rfl (by simp) (fun _ => ⟨rfl, rfl⟩)
      · next hopen =>
          rw [Bool.not_eq_true] at hopen
          split
          · next hstall =>
              exact stepped_onInputStalled h hnow hopen (hleft hstall.1 hgen hopen hstall.2)
          · cases state with
            | connecting =>
              exact stepped_quiet h rfl rfl (by simp)
                (fun hin => absurd (hopen.symm.trans hin) (by simp))
            | connected => exact stepped_onConnected h hopen link
            | disconnected | failed | closed => exact stepped_onLost h hnow hopen link

/-- A retry that is due comes before the deadline, so the generation is below the largest
word. -/
theorem stepped_poll : Stepped r nowMs (poll r nowMs).1 (poll r nowMs).2 := by
  rw [poll]
  split
  · exact stepped_quiet h rfl rfl (by simp) (fun _ => ⟨rfl, rfl⟩)
  · next hopen =>
      have hclosed : r.state.exhausted = true → ∀ P : Prop, P := fun hin => absurd hin hopen
      split
      · next hdue =>
          rw [Bool.and_eq_true, decide_eq_true_eq] at hdue
          split
          · exact ⟨h.exhaust, fun hin => absurd hin (by simp), fun _ => rfl,
              fun hin => hclosed hin _, fun _ => by simp⟩
          · next hbud =>
              rw [not_or, not_le, not_le] at hbud
              have hlater := h.later hdue.1 (hdue.2.trans_lt hbud.1)
              have hdead := h.deadline
              have hmax : r.config.maxAttempts ≤ 32 := h.accepted.attempts.2
              have hgen : succ64 r.state.attemptGeneration =
                  r.state.attemptGeneration + 1 := succ64_eq (by omega)
              have hattempts : succ32 r.state.attemptsStarted =
                  r.state.attemptsStarted + 1 := by
                refine succ32_eq ?_
                rw [max32]
                omega
              rw [hgen, hattempts]
              refine ⟨⟨h.accepted, ⟨by simp, hbud.2⟩, h.deadline,
                fun hin => absurd hin (by simp), ?_, fun hin => absurd hin (by simp)⟩,
                fun _ => ⟨rfl, Nat.lt_succ_self _, hbud.1⟩, fun hne => absurd rfl hne,
                fun hin => hclosed hin _, fun _ => ?_⟩
              · dsimp only
                omega
              · simpa using hopen
      · exact stepped_quiet h rfl rfl (by simp) (fun hin => hclosed hin _)

omit h

theorem stepped {op : ReconnectOp} (h : Paced r op.nowMs.toNat) (hadm : Admissible r op) :
    Stepped r op.nowMs.toNat (reconnectMachine.next r op) (reconnectMachine.answer r op) := by
  have hnow : op.nowMs.toNat ≤ max64 := Nat.le_of_lt_succ op.nowMs.toNat_lt
  cases op with
  | onState link attemptGeneration state errorCode nowMs =>
    refine stepped_onState h hnow ?_
    rintro rfl
    exact hadm
  | poll nowMs => exact stepped_poll h

end Steps

variable {r : MediaReconnect} {nowMs : ℕ} {ops : List ReconnectOp}

theorem accepted_of_create {config : Option ReconnectConfig} (h : reconnectCreate config = .ok r) :
    Accepted r.config := by
  have hpositive : ∀ value default, 0 < default → 1 ≤ orDefault value default := by
    intro value default hdef
    rw [orDefault]
    split_ifs with hvalue
    · exact Nat.pos_of_ne_zero hvalue
    · exact hdef
  rw [reconnectCreate] at h
  split at h
  · cases h
  · next hcfg =>
      cases h
      simp only [not_or, not_lt] at hcfg
      exact ⟨⟨hpositive _ _ (by decide), hcfg.1⟩, hpositive _ _ (by decide), hcfg.2.1⟩

theorem paced_start (h : Accepted r.config) (hnow : nowMs ≤ max64) :
    Paced (reconnectStart r nowMs) nowMs :=
  ⟨h, ⟨le_rfl, h.attempts.1⟩, addSaturating_le hnow _, fun hin => Bool.noConfusion hin,
    Nat.le_add_left 1 nowMs, fun hin => Bool.noConfusion hin⟩

theorem run_reports (h : Paced r nowMs)
    (htimes : (nowMs :: ops.map (fun op => op.nowMs.toNat)).IsChain (· ≤ ·))
    (hops : reconnectMachine.Along Admissible r ops) :
    (∃ later, Paced (reconnectMachine.run r ops) later) ∧ (r.state.attemptGeneration ::
        dueGenerations (reconnectMachine.transcript r ops)).Pairwise (· < ·) ∧
      (exhaustions (reconnectMachine.transcript r ops) + if r.state.exhausted then 1 else 0) =
        if (reconnectMachine.run r ops).state.exhausted then 1 else 0 := by
  induction ops generalizing r nowMs with
  | nil =>
    refine ⟨⟨nowMs, h⟩, pairwise_singleton _ _, ?_⟩
    exact Nat.zero_add _
  | cons op ops ih =>
    obtain ⟨hadm, hrest⟩ := hops
    rw [map_cons, isChain_cons_cons] at htimes
    have hstep := stepped (h.mono htimes.1) hadm
    obtain ⟨hpaced, hincreasing, hreported⟩ := ih hstep.paced htimes.2 hrest
    refine ⟨hpaced, ?_, ?_⟩
    · rw [Machine.transcript, dueGenerations, filterMap_cons]
      by_cases hdue : (reconnectMachine.answer r op).event = .retryDue
      · obtain ⟨hgen, hlt, _⟩ := hstep.retried hdue
        rw [if_pos hdue, hgen]
        refine pairwise_cons.mpr ⟨?_, hincreasing⟩
        intro g hg
        rcases mem_cons.mp hg with rfl | hg
        · exact hlt
        · exact hlt.trans (rel_of_pairwise_cons hincreasing hg)
      · rw [if_neg hdue, ← hstep.generation hdue]
        exact hincreasing
    · rw [Machine.run_cons, ← hreported, Machine.transcript, exhaustions, countP_cons,
        ← exhaustions, Nat.add_assoc]
      congr 1
      cases hopen : r.state.exhausted with
      | true =>
        obtain ⟨hclosed, _, hevent⟩ := hstep.closed hopen
        rw [hclosed, hevent]
        rfl
      | false =>
        have hiff := hstep.reported hopen
        by_cases hevent : (reconnectMachine.answer r op).event = .retryExhausted
        · rw [hiff.mp hevent, hevent]
          rfl
        · have hstill : (reconnectMachine.next r op).state.exhausted = false := by
            rw [← Bool.not_eq_true, ← hiff]
            exact hevent
          rw [hstill]
          simp [hevent]

theorem onState_event (r : MediaReconnect) (link : LinkKind) (attemptGeneration : ℕ)
    (state : LinkState) (errorCode : ℤ) (nowMs : ℕ) :
    (onState r link attemptGeneration state errorCode nowMs).2.event ≠ .retryDue := by
  have hlost : (onLost r link nowMs).2.event ≠ .retryDue := by
    rw [onLost]
    split_ifs
    · simp
    · exact (scheduleRetry_keeps _ nowMs).2
  rw [onState.eq_def]
  split_ifs
  · simp
  · simp
  · simp [onInputStalled]
  · cases state with
    | connecting => simp
    | connected =>
      rw [onConnected]
      split_ifs
      · simp
      · simp
      · simp
    | disconnected | failed | closed => exact hlost

theorem due_before_deadline (r : MediaReconnect) (op : ReconnectOp)
    (h : (reconnectMachine.answer r op).event = .retryDue) :
    op.nowMs.toNat < r.state.deadlineAtMs := by
  cases op with
  | onState link attemptGeneration state errorCode nowMs =>
    exact absurd h (onState_event r link attemptGeneration state errorCode nowMs.toNat)
  | poll nowMs =>
    change (poll r nowMs.toNat).2.event = .retryDue at h
    rw [poll] at h
    split_ifs at h with _ _ hbud
    exact not_le.mp (fun hin => hbud (.inl hin))

theorem closed_of_exhausted (h : r.state.exhausted = true) (op : ReconnectOp) :
    (reconnectMachine.answer r op).status = .estate ∧ (reconnectMachine.answer r op).event = .none ∧
      (reconnectMachine.next r op).state.exhausted = true := by
  cases op with
  | onState link attemptGeneration state errorCode nowMs =>
    change (onState r link attemptGeneration state errorCode nowMs.toNat).2.status = _ ∧
      (onState r link attemptGeneration state errorCode nowMs.toNat).2.event = _ ∧
      (onState r link attemptGeneration state errorCode nowMs.toNat).1.state.exhausted = _
    rw [onState.eq_def]
    split_ifs <;> exact ⟨rfl, rfl, h⟩
  | poll nowMs =>
    change (poll r nowMs.toNat).2.status = _ ∧ (poll r nowMs.toNat).2.event = _ ∧
      (poll r nowMs.toNat).1.state.exhausted = _
    rw [poll, if_pos h]
    exact ⟨rfl, rfl, h⟩

theorem step_stale {attemptGeneration : ℕ} (h : attemptGeneration ≠ r.state.attemptGeneration)
    (link : LinkKind) (state : LinkState) (errorCode : ℤ) (nowMs : UInt64) :
    reconnectMachine.step r (.onState link attemptGeneration state errorCode nowMs) =
      ({ r with state := { r.state with
        staleCallbacks := succ64 r.state.staleCallbacks } }, ⟨.estate, .none, none⟩) := by
  change onState r link attemptGeneration state errorCode nowMs.toNat = _
  rw [onState.eq_def, if_pos h]

/-- **The reconnection reports what it does.**  After every run at times that do not go back,
in which no stall of the input uses up the last attempt, attempts and times are in bounds,
generations grow, late callbacks only count, and the end of all attempts was reported once if
it was reached. -/
theorem reconnect_reports {config : Option ReconnectConfig}
    (hcreate : reconnectCreate config = .ok r) (nowMs : UInt64) (ops : List ReconnectOp)
    (htimes : (nowMs.toNat :: ops.map (fun op => op.nowMs.toNat)).IsChain (· ≤ ·))
    (hops : reconnectMachine.Along Admissible (reconnectStart r nowMs.toNat) ops) :
    Reports (reconnectMachine.run (reconnectStart r nowMs.toNat) ops)
      (reconnectMachine.transcript (reconnectStart r nowMs.toNat) ops) := by
  have hnow : nowMs.toNat ≤ max64 := Nat.le_of_lt_succ nowMs.toNat_lt
  have hstart := paced_start (accepted_of_create hcreate) hnow
  obtain ⟨⟨_, hpaced⟩, hincreasing, hreported⟩ := run_reports hstart htimes hops
  exact ⟨hpaced.attempts, hpaced.pending, due_before_deadline _, hincreasing,
    fun link _ state errorCode nowMs hne => step_stale hne link state errorCode nowMs,
    hreported, closed_of_exhausted⟩

def oneAttempt : ReconnectConfig := ⟨1, 100, 2000, 10000⟩

def linkFails : List ReconnectOp := [.onState .whip 1 .failed 1003 5, .poll 6]

theorem reconnect_reports_failed :
    exhaustions (reconnectMachine.transcript
        (reconnectStart ⟨oneAttempt, ReconnectState.zero⟩ 0) linkFails) = 1 ∧
      Reports (reconnectMachine.run (reconnectStart ⟨oneAttempt, ReconnectState.zero⟩ 0) linkFails)
        (reconnectMachine.transcript
          (reconnectStart ⟨oneAttempt, ReconnectState.zero⟩ 0) linkFails) := by
  have hcreate : reconnectCreate (some oneAttempt) = .ok ⟨oneAttempt, ReconnectState.zero⟩ := by
    decide
  refine ⟨by decide, reconnect_reports hcreate 0 linkFails ?_ ⟨trivial, trivial, trivial⟩⟩
  simp [linkFails, ReconnectOp.nowMs]

def inputStalls : List ReconnectOp := [.onState .whep 1 .connected 1002 5]

theorem stall_not_reported :
    ¬ ∀ (config : Option ReconnectConfig) (r : MediaReconnect),
      reconnectCreate config = .ok r → ∀ (nowMs : UInt64) (ops : List ReconnectOp),
        (nowMs.toNat :: ops.map (fun op => op.nowMs.toNat)).IsChain (· ≤ ·) →
          Reports (reconnectMachine.run (reconnectStart r nowMs.toNat) ops)
            (reconnectMachine.transcript (reconnectStart r nowMs.toNat) ops) := by
  intro h
  have hcreate : reconnectCreate (some oneAttempt) = .ok ⟨oneAttempt, ReconnectState.zero⟩ := by
    decide
  have hreported := (h _ _ hcreate 0 inputStalls
    (by simp [inputStalls, ReconnectOp.nowMs])).reported
  revert hreported
  decide

end Reconnect
end TurboMedia.Ivr
