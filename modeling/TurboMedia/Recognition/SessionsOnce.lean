import TurboMedia.Recognition.Sessions

/-!
# Recognition sessions end once

Whatever the provider answers and whenever it calls back, between an accepted start and the
next the application is told of at most one end and of nothing after it, and the handle is in
the state `error` exactly from an error on until a cancel succeeds.  A call that fails leaves
the state, unless a callback ended the session during the call; only a start that fails in the
state `stopped` leaves the state `idle`.

Both handles take the same steps on what they have in common (`SessionStep`), and the law is
proved about these.
-/

namespace TurboMedia.Recognition

open List Session Entry Option

variable {α : Type}

def Entry.isTold : Entry α → Bool
  | output _ | complete | error _ _ => true
  | _ => false

def Entry.isTerminal : Entry α → Bool
  | complete | error _ _ => true
  | _ => false

/-- Nothing may be told behind it before the next accepted start. -/
def Entry.closes : Entry α → Bool
  | complete | error _ _ | cancelled | failedStart => true
  | _ => false

/-- Whether a session is open behind an entry. -/
def openAfter (before : Bool) : Entry α → Bool
  | .accepted => true
  | .output _ => before
  | _ => false

def isOpen (log : List (Entry α)) : Bool :=
  log.foldl openAfter false

/-- Whether an error is the last thing of its kind behind an entry. -/
def errorAfter (before : Bool) : Entry α → Bool
  | .error _ _ => true
  | .complete | .cancelled => false
  | _ => before

/-- The last end in the log is an error that was not cancelled. -/
def endsInError (log : List (Entry α)) : Bool :=
  log.foldl errorAfter false

/-- The application is told of something in an open session only. -/
def Orderly (log : List (Entry α)) : Prop :=
  ∀ before entry after, log = before ++ entry :: after → entry.isTold → isOpen before

/-- Between an accepted start and the next nothing is told behind an end, a successful cancel
or a failed start. -/
def Quiet (log : List (Entry α)) : Prop :=
  ∀ before first between later after, log = before ++ first :: between ++ later :: after →
    first.closes → .accepted ∉ between → later.isTold = false

/-- The last terminal callback was an error, and no cancel has succeeded since. -/
def LastIsError (log : List (Entry α)) : Prop :=
  ∃ before code message after, log = before ++ .error code message :: after ∧
    ∀ entry ∈ after, entry.isTerminal = false ∧ entry ≠ .cancelled

@[simp] theorem isOpen_concat (log : List (Entry α)) (entry : Entry α) :
    isOpen (log ++ [entry]) = openAfter (isOpen log) entry := by
  simp [isOpen]

@[simp] theorem endsInError_concat (log : List (Entry α)) (entry : Entry α) :
    endsInError (log ++ [entry]) = errorAfter (endsInError log) entry := by
  simp [endsInError]

theorem orderly_nil : Orderly ([] : List (Entry α)) := by
  intro before entry after h
  simp at h

theorem Orderly.concat {log : List (Entry α)} {entry : Entry α} (h : Orderly log)
    (htold : entry.isTold → isOpen log) : Orderly (log ++ [entry]) := by
  intro before entry' after heq
  rcases eq_nil_or_concat after with rfl | ⟨after', last, rfl⟩
  · obtain ⟨rfl, hlast⟩ := append_inj' heq rfl
    obtain rfl : entry = entry' := by simpa using hlast
    exact htold
  · have heq' : log ++ [entry] = (before ++ entry' :: after') ++ [last] := by simpa using heq
    exact h before entry' after' (append_inj' heq' rfl).1

theorem closed_between (between : List (Entry α)) (h : .accepted ∉ between) :
    between.foldl openAfter false = false := by
  induction between with
  | nil => rfl
  | cons entry between ih =>
    rw [mem_cons, not_or] at h
    have hent : openAfter false entry = false := by
      cases entry <;> simp_all [openAfter]
    rw [foldl_cons, hent, ih h.2]

theorem Orderly.quiet {log : List (Entry α)} (h : Orderly log) : Quiet log := by
  intro before first between later after heq hcloses hbetween
  by_contra htold
  have hopen := h (before ++ first :: between) later after heq (by simpa using htold)
  have hfirst : ∀ b, openAfter b first = false := by
    intro b
    cases first <;> simp_all [closes, openAfter]
  rw [isOpen, foldl_append, foldl_cons, hfirst, closed_between between hbetween] at hopen
  cases hopen

theorem endsInError_iff (log : List (Entry α)) :
    endsInError log = true ↔ LastIsError log := by
  induction log using reverseRecOn with
  | nil => simp [endsInError, LastIsError]
  | append_singleton log entry ih =>
    rw [endsInError_concat]
    constructor
    · intro h
      -- the last entry is the error, or the error stands before it
      by_cases hlast : ∃ code message, entry = .error code message
      · obtain ⟨code, message, rfl⟩ := hlast
        exact ⟨log, code, message, [], rfl, by simp⟩
      · have hkept : endsInError log = true ∧ entry.isTerminal = false ∧ entry ≠ .cancelled := by
          cases entry <;> simp_all [errorAfter, isTerminal]
        obtain ⟨before, code, message, after, rfl, hafter⟩ := ih.mp hkept.1
        refine ⟨before, code, message, after ++ [entry], by simp, ?_⟩
        intro other hother
        rcases mem_append.mp hother with hmem | hmem
        · exact hafter other hmem
        · obtain rfl : other = entry := by simpa using hmem
          exact hkept.2
    · rintro ⟨before, code, message, after, heq, hafter⟩
      rcases eq_nil_or_concat after with rfl | ⟨after', last, rfl⟩
      · obtain ⟨-, hlast⟩ := append_inj' heq rfl
        obtain rfl : entry = .error code message := by simpa using hlast
        rfl
      · have heq' : log ++ [entry] = (before ++ .error code message :: after') ++ [last] := by
          simpa using heq
        obtain ⟨hlog, hlast⟩ := append_inj' heq' rfl
        obtain rfl : entry = last := by simpa using hlast
        have hbef : endsInError log = true := by
          refine ih.mpr ⟨before, code, message, after', hlog, ?_⟩
          intro other hother
          exact hafter other (by simp [hother])
        obtain ⟨hterminal, hcancelled⟩ := hafter entry (by simp)
        rw [hbef]
        cases entry <;> simp_all [errorAfter, isTerminal]

section Callbacks

variable {rule : OutputRule α} {s t : Session α}

/-- The invariant of a session. -/
structure Lawful (s : Session α) : Prop where
  orderly : Orderly s.log
  openWhen : sessionActive s.state → isOpen s.log
  error_iff : s.state = .error ↔ endsInError s.log = true
  result : s.state = .error → s.lastResult ≠ ok

theorem create_lawful :
    Lawful (Session.create : Session α) where
  orderly := orderly_nil
  openWhen := by simp [create, sessionActive]
  error_iff := by simp [create, endsInError]
  result := by simp [create]

/-- What a callback can do. -/
inductive DeliverOutcome (s : Session α) : Session α → Prop
  | ignored :
      sessionActive s.state = false → DeliverOutcome s s
  | output (value : α) :
      sessionActive s.state = true → DeliverOutcome s (s.record (.output value))
  | completed :
      sessionActive s.state = true →
      DeliverOutcome s { s with state := .stopped, lastResult := ok, log := s.log ++ [.complete] }
  | failed (code : ℤ) (message : String) :
      sessionActive s.state = true → code ≠ ok → DeliverOutcome s (s.fail code message)

theorem deliver_outcome (rule : OutputRule α) (s : Session α) (call : ProviderCall α) :
    DeliverOutcome s (deliver rule s call) := by
  unfold deliver
  by_cases hact : sessionActive s.state = true
  · cases call with
    | output value =>
      simp only [hact, Bool.not_true, Bool.false_eq_true, if_false]
      split
      · exact .output _ hact
      · exact .failed _ _ hact (by decide)
    | complete =>
      simp only [hact, Bool.not_true, Bool.false_eq_true, if_false]
      exact .completed hact
    | error code message =>
      simp only [hact, Bool.not_true, Bool.false_eq_true, if_false]
      refine .failed _ _ hact ?_
      split_ifs with hcode
      · decide
      · exact hcode
  · have hclosed : sessionActive s.state = false := by simpa using hact
    cases call <;> simp only [hclosed, Bool.not_false, if_true] <;> exact .ignored hclosed

theorem Lawful.deliver (h : Lawful s) (call : ProviderCall α) : Lawful (deliver rule s call) := by
  have hout := deliver_outcome rule s call
  generalize Recognition.deliver rule s call = t at hout
  have hnoerror : sessionActive s.state = true → endsInError s.log = false := by
    intro hact
    by_contra hne
    have herr := h.error_iff.mpr (by simpa using hne)
    rw [herr] at hact
    cases hact
  cases hout with
  | ignored _ => exact h
  | output value hact =>
    refine ⟨h.orderly.concat (fun _ => h.openWhen hact), ?_, ?_, h.result⟩
    · intro _
      simpa [record, openAfter] using h.openWhen hact
    · simpa [record, errorAfter] using h.error_iff
  | completed hact =>
    exact ⟨h.orderly.concat (fun _ => h.openWhen hact), by simp [sessionActive],
      by simp [errorAfter], by simp⟩
  | failed code message hact hcode =>
    exact ⟨h.orderly.concat (fun _ => h.openWhen hact),
      by simp [fail, sessionActive], by simp [fail, errorAfter],
      fun _ => hcode⟩

/-- What the callbacks of a call have done: none of them ended the session, or one did. -/
structure Delivered (s t : Session α) : Prop where
  log : ∃ new, t.log = s.log ++ new ∧
    (t.state = s.state ∨ ∃ entry ∈ new, entry.isTerminal)
  state : t.state = s.state ∨ sessionActive t.state = false

theorem deliverAll_spec (callbacks : List (ProviderCall α)) (h : Lawful s) :
    Lawful (deliverAll rule s callbacks) ∧ Delivered s (deliverAll rule s callbacks) := by
  induction callbacks using reverseRecOn with
  | nil => exact ⟨h, ⟨[], by simp [deliverAll], .inl rfl⟩, .inl rfl⟩
  | append_singleton callbacks call ih =>
    obtain ⟨hlaw, ⟨new, hnew, hterminal⟩, hstate⟩ := ih
    have hstep : deliverAll rule s (callbacks ++ [call]) =
        deliver rule (deliverAll rule s callbacks) call := by
      simp [deliverAll]
    rw [hstep]
    refine ⟨hlaw.deliver call, ?_⟩
    have hout := deliver_outcome rule (deliverAll rule s callbacks) call
    generalize deliver rule (deliverAll rule s callbacks) call = t at hout
    generalize deliverAll rule s callbacks = u at *
    cases hout with
    | ignored _ => exact ⟨⟨new, hnew, hterminal⟩, hstate⟩
    | output value _ =>
      refine ⟨⟨new ++ [.output value], by simp [record, hnew], ?_⟩, hstate⟩
      rcases hterminal with hsame | ⟨entry, hmem, hent⟩
      · exact .inl hsame
      · exact .inr ⟨entry, by simp [hmem], hent⟩
    | completed _ =>
      exact ⟨⟨new ++ [.complete], by simp [hnew], .inr ⟨.complete, by simp, rfl⟩⟩,
        .inr rfl⟩
    | failed code message _ _ =>
      exact ⟨⟨new ++ [.error code message], by simp [fail, hnew],
        .inr ⟨.error code message, by simp, rfl⟩⟩, .inr rfl⟩

end Callbacks

section Steps

variable {rule : OutputRule α} {s t : Session α} {isStart : Bool} {answer : Option ℤ}

/-- What a step of either handle does to the session; the flag says that it is a start. -/
inductive SessionStep (rule : OutputRule α) (s : Session α) :
    Bool → Session α → Option ℤ → Prop
  | refused (isStart : Bool) (result : ℤ) :
      SessionStep rule s isStart s (some result)
  | rejected (result : ℤ) :
      result ≠ ok →
      SessionStep rule s false (s.reject result) (some result)
  | started (reply : Reply α) :
      s.state = .idle ∨ s.state = .stopped →
      SessionStep rule s true (startProvider rule s reply).1 (some (startProvider rule s reply).2)
  | wrote (reply : Reply α) :
      SessionStep rule s false (writeProvider rule s reply).1
        (some (writeProvider rule s reply).2.1)
  | finished (reply : Reply α) :
      SessionStep rule s false (finishSession rule s reply).1 (some (finishSession rule s reply).2)
  | cancelled (reply : Reply α) :
      SessionStep rule s false (cancelSession rule s reply).1 (some (cancelSession rule s reply).2)
  | called (call : ProviderCall α) :
      SessionStep rule s false (deliver rule s call) none

/-- What a failed call may do to the state: nothing, unless a terminal callback came during
the call; a start that fails in the state `stopped` leaves `idle`. -/
def FailsCleanly (isStart : Bool) (s t : Session α) (answer : Option ℤ) : Prop :=
  ∀ result, answer = some result → result ≠ ok → t.state = s.state ∨
      (∃ new, t.log = s.log ++ new ∧ ∃ entry ∈ new, entry.isTerminal) ∨
      (isStart = true ∧ s.state = .stopped ∧ t.state = .idle)

variable (h : Lawful s)
include h

/-- The last result and the number of rejected frames play no part, while there is no error. -/
theorem Lawful.setCounters (result : ℤ) (rejected : UInt64)
    (hres : s.state = .error → result ≠ ok) :
    Lawful { s with lastResult := result, rejectedFrameCount := rejected } :=
  ⟨h.orderly, h.openWhen, h.error_iff, hres⟩

/-- The state may change between states that are neither closed nor an error. -/
theorem Lawful.setState {state : SessionState}
    (hopen : sessionActive state → isOpen s.log) (hbef : s.state ≠ .error)
    (hafter : state ≠ .error) :
    Lawful { s with state := state } where
  orderly := h.orderly
  openWhen := hopen
  error_iff := by
    have hiff := h.error_iff
    simp_all
  result := fun herr => absurd herr hafter

theorem Lawful.recordFailed (hclosed : sessionActive s.state = false) :
    Lawful (s.record .failedStart) where
  orderly := h.orderly.concat (by simp [isTold])
  openWhen := by
    intro hact
    rw [record] at hact
    simp_all
  error_iff := by simpa [record, errorAfter] using h.error_iff
  result := h.result

theorem Lawful.begin (hstate : s.state = .idle ∨ s.state = .stopped) :
    Lawful ({ s with
      rejectedFrameCount := 0
      state := .running
      log := s.log ++ [.accepted] } : Session α) where
  orderly := h.orderly.concat (by simp [isTold])
  openWhen := by simp [openAfter]
  error_iff := by
    have hiff := h.error_iff
    rcases hstate with hs | hs <;> simp_all [errorAfter]
  result := by simp

theorem Lawful.start (hstate : s.state = .idle ∨ s.state = .stopped)
    (reply : Reply α) :
    Lawful (startProvider rule s reply).1 ∧
      FailsCleanly true s (startProvider rule s reply).1 (some (startProvider rule s reply).2) := by
  obtain ⟨hlaw, ⟨new, hnew, hended⟩, hcalled⟩ :=
    deliverAll_spec reply.callbacks (h.begin hstate)
  unfold startProvider
  dsimp only
  generalize deliverAll rule _ reply.callbacks = called at *
  have hterminal : called.state ≠ .running → ∃ added,
      (called.record .failedStart).log = s.log ++ added ∧ ∃ entry ∈ added, entry.isTerminal := by
    intro hne
    obtain ⟨entry, hmem, hent⟩ := hended.resolve_left hne
    exact ⟨.accepted :: new ++ [.failedStart], by simp [record, hnew],
      ⟨entry, by simp [hmem], hent⟩⟩
  split_ifs with hres hrun herr hrunning
  · -- the provider has failed and has not called back
    have hidle : Lawful ({ called with lastResult := reply.result, state := .idle } :
        Session α) :=
      (hlaw.setState (by simp [sessionActive]) (by simp [hrun])
        (by simp)).setCounters reply.result called.rejectedFrameCount (by simp)
    refine ⟨hidle.recordFailed rfl, fun _ _ _ => ?_⟩
    rcases hstate with hs | hs
    · exact .inl hs.symm
    · exact .inr (.inr ⟨rfl, hs, rfl⟩)
  · have hfail : Lawful { called with lastResult := reply.result } :=
      hlaw.setCounters reply.result called.rejectedFrameCount (fun _ => hres)
    exact ⟨hfail.recordFailed (hcalled.resolve_left hrun),
      fun _ _ _ => .inr (.inl (hterminal hrun))⟩
  · -- an error was called back
    exact ⟨hlaw.recordFailed (by simp [herr, sessionActive]),
      fun _ _ _ => .inr (.inl (hterminal (by simp [herr])))⟩
  · refine ⟨hlaw.setCounters ok called.rejectedFrameCount (by simp [hrunning]), ?_⟩
    intro result heq hne
    exact absurd (some.inj heq).symm (by simp_all)
  · refine ⟨hlaw, ?_⟩
    intro result heq hne
    exact absurd (some.inj heq).symm (by simp_all)

theorem Lawful.write (reply : Reply α) :
    Lawful (writeProvider rule s reply).1 ∧ FailsCleanly false s (writeProvider rule s reply).1
        (some (writeProvider rule s reply).2.1) := by
  obtain ⟨hlaw, ⟨new, hnew, hended⟩, -⟩ :=
    deliverAll_spec reply.callbacks h
  unfold writeProvider
  dsimp only
  generalize deliverAll rule s reply.callbacks = called at *
  have hclean : ∀ t : Session α, t.state = called.state → t.log = called.log → ∀ answer,
      FailsCleanly false s t answer := by
    intro t hstate hlog answer result _ _
    rcases hended with hsame | hterminal
    · exact .inl (hstate.trans hsame)
    · exact .inr (.inl ⟨new, hlog.trans hnew, hterminal⟩)
  split_ifs with herr hres
  · exact ⟨hlaw, hclean _ rfl rfl _⟩
  · exact ⟨hlaw.setCounters _ _ (fun _ => hres), hclean _ rfl rfl _⟩
  · exact ⟨hlaw.setCounters _ _ (fun he => absurd he herr), hclean _ rfl rfl _⟩

theorem Lawful.finish (reply : Reply α) :
    Lawful (finishSession rule s reply).1 ∧ FailsCleanly false s (finishSession rule s reply).1
        (some (finishSession rule s reply).2) := by
  unfold finishSession
  by_cases hstate : s.state = .running
  · rw [if_neg (by simp [hstate])]
    have hopen : isOpen s.log = true := h.openWhen (by simp [hstate, sessionActive])
    have hbegun : Lawful { s with state := .finishing } :=
      h.setState (fun _ => hopen) (by simp [hstate]) (by simp)
    obtain ⟨hlaw, ⟨new, hnew, hended⟩, hcalled⟩ :=
      deliverAll_spec reply.callbacks hbegun
    dsimp only
    generalize deliverAll rule _ reply.callbacks = called at *
    split_ifs with hres hfinishing herr
    · -- the session goes on
      refine ⟨?_, fun _ _ _ => .inl hstate.symm⟩
      exact (hlaw.setState
        (fun _ => hlaw.openWhen (by simp [hfinishing, sessionActive])) (by simp [hfinishing])
        (by simp)).setCounters reply.result called.rejectedFrameCount (by simp)
    · refine ⟨hlaw.setCounters _ _ (fun _ => hres), ?_⟩
      intro result _ _
      rcases hended with hsame | hterminal
      · exact absurd hsame hfinishing
      · exact .inr (.inl ⟨new, hnew, hterminal⟩)
    · refine ⟨hlaw, ?_⟩
      intro result _ _
      rcases hended with hsame | hterminal
      · rw [herr] at hsame
        cases hsame
      · exact .inr (.inl ⟨new, hnew, hterminal⟩)
    · refine ⟨hlaw, ?_⟩
      intro result heq hne
      exact absurd (some.inj heq).symm (by simp_all)
  · rw [if_pos hstate]
    exact ⟨h, fun _ _ _ => .inl rfl⟩

theorem Lawful.cancel (reply : Reply α) :
    Lawful (cancelSession rule s reply).1 ∧ FailsCleanly false s (cancelSession rule s reply).1
        (some (cancelSession rule s reply).2) := by
  unfold cancelSession
  split_ifs with href hres
  · exact ⟨h, fun _ _ _ => .inl rfl⟩
  · obtain ⟨hlaw, -, -⟩ := deliverAll_spec reply.callbacks h
    generalize deliverAll rule s reply.callbacks = called at *
    refine ⟨⟨hlaw.orderly.concat (by simp [isTold]), by simp [record, sessionActive],
      by simp [record, errorAfter], by simp [record]⟩, ?_⟩
    intro result heq hne
    exact absurd (some.inj heq).symm (by simp_all)
  · obtain ⟨hlaw, ⟨new, hnew, hended⟩, -⟩ :=
      deliverAll_spec reply.callbacks h
    generalize deliverAll rule s reply.callbacks = called at *
    refine ⟨hlaw.setCounters _ _ (fun _ => hres), ?_⟩
    intro result _ _
    rcases hended with hsame | hterminal
    · exact .inl hsame
    · exact .inr (.inl ⟨new, hnew, hterminal⟩)

theorem Lawful.step (hstep : SessionStep rule s isStart t answer) :
    Lawful t ∧ FailsCleanly isStart s t answer := by
  cases hstep with
  | refused isStart result => exact ⟨h, fun _ _ _ => .inl rfl⟩
  | rejected result hres =>
    exact ⟨h.setCounters result (s.rejectedFrameCount + 1) (fun _ => hres),
      fun _ _ _ => .inl rfl⟩
  | started reply hstate => exact h.start hstate reply
  | wrote reply => exact h.write reply
  | finished reply => exact h.finish reply
  | cancelled reply => exact h.cancel reply
  | called call => exact ⟨h.deliver call, fun _ heq _ => by cases heq⟩

end Steps

def VoiceOp.isStart : VoiceOp → Bool
  | start _ _ => true
  | _ => false

def FingerprintOp.isStart : FingerprintOp → Bool
  | start _ _ => true
  | _ => false

theorem state_of_open {state : SessionState} (h : ¬ (state ≠ .idle ∧ state ≠ .stopped)) :
    state = .idle ∨ state = .stopped := by
  cases state <;> simp_all

theorem voice_step (d : VoiceDetector) (op : VoiceOp) :
    SessionStep voiceRule d.session op.isStart (voiceMachine.next d op).session
      (voiceMachine.answer d op) := by
  cases op with
  | start config reply =>
    change SessionStep voiceRule d.session true (voiceStart d config reply).1.session
      (some (voiceStart d config reply).2)
    unfold voiceStart
    split
    · exact .refused true errInvalid
    · split_ifs with hstate
      · exact .refused true errState
      · exact .started reply (state_of_open hstate)
  | write frame reply =>
    change SessionStep voiceRule d.session false (voiceWrite d frame reply).1.session
      (some (voiceWrite d frame reply).2)
    unfold voiceWrite
    split
    · exact .rejected errInvalid (by decide)
    · split_ifs
      · exact .rejected errState (by decide)
      · exact .rejected errFormat (by decide)
      · exact .wrote reply
  | finish reply => exact .finished reply
  | cancel reply => exact .cancelled reply
  | callback call => exact .called call

theorem fingerprint_step (x : FingerprintExtractor) (op : FingerprintOp) :
    ∃ rule, SessionStep rule x.session op.isStart (fingerprintMachine.next x op).session
      (fingerprintMachine.answer x op) := by
  cases op with
  | start config reply =>
    change ∃ rule, SessionStep rule x.session true (fingerprintStart x config reply).1.session
      (some (fingerprintStart x config reply).2)
    unfold fingerprintStart
    split
    · exact ⟨fingerprintRule 0, .refused true errInvalid⟩
    · split_ifs with hstate
      · exact ⟨fingerprintRule 0, .refused true errState⟩
      · exact ⟨_, .started reply (state_of_open hstate)⟩
  | writeAudio frame reply =>
    refine ⟨fingerprintRule x.config.domain, ?_⟩
    change SessionStep _ x.session false (fingerprintWriteAudio x frame reply).1.session
      (some (fingerprintWriteAudio x frame reply).2)
    unfold fingerprintWriteAudio
    split
    · exact .rejected errInvalid (by decide)
    · split_ifs
      · exact .rejected errState (by decide)
      · exact .rejected errFormat (by decide)
      · split
        · exact .rejected errLimit (by decide)
        · exact .wrote reply
  | writeVideo frame reply =>
    refine ⟨fingerprintRule x.config.domain, ?_⟩
    change SessionStep _ x.session false (fingerprintWriteVideo x frame reply).1.session
      (some (fingerprintWriteVideo x frame reply).2)
    unfold fingerprintWriteVideo
    split
    · exact .rejected errInvalid (by decide)
    · split_ifs
      · exact .rejected errState (by decide)
      · exact .rejected errFormat (by decide)
      · exact .rejected errInvalid (by decide)
      · exact .rejected errLimit (by decide)
      · exact .wrote reply
  | finish reply => exact ⟨_, .finished reply⟩
  | cancel reply => exact ⟨_, .cancelled reply⟩
  | callback call => exact ⟨_, .called call⟩

/-- The law of a session at one moment: nothing is told behind an end, and the state is
`error` exactly if the last end was an error. -/
structure EndsOnce (s : Session α) : Prop where
  quiet : Quiet s.log
  error_iff : s.state = .error ↔ LastIsError s.log

theorem Lawful.endsOnce {s : Session α} (h : Lawful s) :
    EndsOnce s where
  quiet := h.orderly.quiet
  error_iff := h.error_iff.trans (endsInError_iff s.log)

theorem voice_lawful (ops : List VoiceOp) :
    Lawful (voiceMachine.run VoiceDetector.create ops).session := by
  apply voiceMachine.run_invariant (P := fun d => Lawful d.session)
  · intro d op h
    exact (h.step (voice_step d op)).1
  · exact create_lawful

theorem fingerprint_lawful (provider : FingerprintProvider) (ops : List FingerprintOp) :
    Lawful (fingerprintMachine.run (FingerprintExtractor.create provider) ops).session := by
  apply fingerprintMachine.run_invariant (P := fun x => Lawful x.session)
  · intro x op h
    obtain ⟨rule, hstep⟩ := fingerprint_step x op
    exact (h.step hstep).1
  · exact create_lawful

theorem startProvider_accepted {rule : OutputRule α} {s : Session α} (hs : Lawful s)
    (hstate : s.state = .idle ∨ s.state = .stopped) (reply : Reply α) :
    s.log ++ [.accepted] <+: (startProvider rule s reply).1.log := by
  obtain ⟨-, ⟨new, hnew, -⟩, -⟩ :=
    deliverAll_spec reply.callbacks (hs.begin hstate)
  have hprefix : s.log ++ [.accepted] <+: (deliverAll rule _ reply.callbacks).log :=
    ⟨new, hnew.symm⟩
  unfold startProvider
  dsimp only
  split_ifs
  · exact hprefix.trans (prefix_append _ _)
  · exact hprefix.trans (prefix_append _ _)
  · exact hprefix.trans (prefix_append _ _)
  · exact hprefix
  · exact hprefix

theorem cancelSession_result {rule : OutputRule α} {s : Session α}
    (hstate : ¬ (s.state = .idle ∨ s.state = .stopped)) (reply : Reply α) :
    (cancelSession rule s reply).2 = reply.result := by
  have htaken : ¬ (!sessionActive s.state && s.state ≠ .error) = true := by
    cases hs : s.state <;> simp_all [sessionActive]
  unfold cancelSession
  rw [if_neg htaken]
  split_ifs <;> rfl

/-- The sessions of voice detectors and of fingerprint extractors, whatever their providers
do: they end once, a call that fails leaves their state or a callback has ended them, and at
any time a start is accepted or a cancel. -/
theorem recognition_sessions :
    (∀ ops, let d := voiceMachine.run VoiceDetector.create ops
      EndsOnce d.session ∧
      (∀ op, FailsCleanly op.isStart d.session (voiceMachine.next d op).session
        (voiceMachine.answer d op)) ∧
      ((∀ config reply, voiceConfigValid config = true →
          d.session.log ++ [.accepted] <+: (voiceStart d (some config) reply).1.session.log) ∨
        ∀ reply, (voiceCancel d reply).2 = reply.result)) ∧
    (∀ provider ops,
      let x := fingerprintMachine.run (FingerprintExtractor.create provider) ops
      EndsOnce x.session ∧
      (∀ op, FailsCleanly op.isStart x.session (fingerprintMachine.next x op).session
        (fingerprintMachine.answer x op)) ∧
      ((∀ config reply, fingerprintConfigValid x.provider config = true →
          x.session.log ++ [.accepted] <+:
            (fingerprintStart x (some config) reply).1.session.log) ∨
        ∀ reply, (fingerprintCancel x reply).2 = reply.result)) := by
  constructor
  · intro ops d
    have hlawful : Lawful d.session := voice_lawful ops
    refine ⟨hlawful.endsOnce, fun op => (hlawful.step (voice_step d op)).2, ?_⟩
    by_cases hstate : d.session.state = .idle ∨ d.session.state = .stopped
    · left
      intro config reply hvalid
      have hopen : ¬ (d.session.state ≠ .idle ∧ d.session.state ≠ .stopped) := by tauto
      simp only [voiceStart, filter_some, hvalid, if_true, if_neg hopen]
      exact startProvider_accepted hlawful hstate reply
    · right
      intro reply
      exact cancelSession_result hstate reply
  · intro provider ops x
    have hlawful : Lawful x.session := fingerprint_lawful provider ops
    refine ⟨hlawful.endsOnce, ?_, ?_⟩
    · intro op
      obtain ⟨rule, hstep⟩ := fingerprint_step x op
      exact (hlawful.step hstep).2
    · by_cases hstate : x.session.state = .idle ∨ x.session.state = .stopped
      · left
        intro config reply hvalid
        have hopen : ¬ (x.session.state ≠ .idle ∧ x.session.state ≠ .stopped) := by tauto
        simp only [fingerprintStart, filter_some, hvalid, if_true, if_neg hopen]
        exact startProvider_accepted hlawful hstate reply
      · right
        intro reply
        exact cancelSession_result hstate reply

def speechConfig : VoiceConfig :=
  ⟨⟨16000, 1, 1⟩, 100, 300⟩

def completedSession : List VoiceOp :=
  [.start (some speechConfig) ⟨[], ok⟩, .finish ⟨[.complete], ok⟩]

/-- A start that the provider fails without a callback does not leave the state it found. -/
theorem failed_start_leaves_idle :
    let d := voiceMachine.run VoiceDetector.create completedSession
    let op := VoiceOp.start (some speechConfig) ⟨[], errProvider⟩
    d.session.state = .stopped ∧ voiceMachine.answer d op = some errProvider ∧
      (voiceMachine.next d op).session.state = .idle := by
  decide

end TurboMedia.Recognition
