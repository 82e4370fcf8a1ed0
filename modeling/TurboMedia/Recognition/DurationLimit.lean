import TurboMedia.Recognition.SessionsOnce

/-!
# The duration limit of a fingerprint

How many sample frames a session of the fingerprint extractor takes, against the limit of its
configuration.  `fingerprint_audio_duration` rounds the duration of each frame down to whole
microseconds, and the extractor adds these up.

**Input.**  Any provider, and any run in which each frame that the provider is given lasts a
whole number of microseconds (`WholeFrames`).

**Method.**  The machine carries the number of sample frames taken since the last accepted
start.  While a session is active the consumed duration is exactly theirs.  Extractors that
differ in the counter of rejected frames and in a last result that is no error answer every
later call alike (`Alike`).
-/

namespace TurboMedia.Recognition

open Session Machine

section Counting

variable (x : FingerprintExtractor)

def sampleFrames (frame : AudioFrame) : ℕ :=
  frame.len / (audioSampleSize frame.format.sampleFormat * frame.format.channels.toNat)

/-- The checks of a frame before the provider is given it: the refusal, or the duration. -/
def audioCheck (frame : Option AudioFrame) : Except ℤ UInt64 :=
  match frame.filter (fun frame => audioFrameValid (some frame)) with
  | none => .error errInvalid
  | some frame =>
    if x.session.state ≠ .running then .error errState
    else if !audioDomain x.config.domain || x.config.audioFormat ≠ frame.format then
      .error errFormat
    else
      match (fingerprintAudioDuration frame).filter (fun durationUs => !overDuration x durationUs)
        with
      | none => .error errLimit
      | some durationUs => .ok durationUs

/-- The sample frames taken since the last accepted start, after a call and its answer. -/
def framesAfter (taken : ℕ) : FingerprintOp → Option ℤ → ℕ
  | .start config _, _ =>
    if (config.filter (fingerprintConfigValid x.provider)).isSome ∧
        (x.session.state = .idle ∨ x.session.state = .stopped) then 0
    else taken
  | .writeAudio (some frame) _, answer =>
    if answer = some ok then taken + sampleFrames frame else taken
  | _, _ => taken

/-- An extractor with the sample frames that its session has taken. -/
def meteredMachine : Machine (FingerprintExtractor × ℕ) FingerprintOp (Option ℤ) where
  step := fun s op =>
    ((fingerprintMachine.next s.1 op,
        framesAfter s.1 s.2 op (fingerprintMachine.answer s.1 op)),
      fingerprintMachine.answer s.1 op)

/-- A frame that the provider is given lasts a whole number of microseconds. -/
def WholeFrames (s : FingerprintExtractor × ℕ) : FingerprintOp → Prop
  | .writeAudio frame _ => (audioCheck s.1 frame).isOk = true → ∀ given ∈ frame,
    sampleFrames given * 1000000 % given.format.sampleRate.toNat = 0
  | _ => True

instance (s : FingerprintExtractor × ℕ) (op : FingerprintOp) : Decidable (WholeFrames s op) := by
  cases op <;> unfold WholeFrames <;> infer_instance

/-- The extractor behind the callbacks of a provider that was given the frame. -/
def calledBack (frame : Option AudioFrame) (reply : Reply Fingerprint) : FingerprintExtractor :=
  if (audioCheck x frame).isOk then
    { x with session := deliverAll (fingerprintRule x.config.domain) x.session reply.callbacks }
  else x

end Counting

section Writing

variable {x : FingerprintExtractor} {frame : Option AudioFrame} {durationUs : UInt64}

theorem audioDuration_spec {frame : AudioFrame}
    (hduration : fingerprintAudioDuration frame = some durationUs) :
    sampleFrames frame * 1000000 < 2 ^ 64 ∧
      durationUs.toNat = sampleFrames frame * 1000000 / frame.format.sampleRate.toNat := by
  unfold fingerprintAudioDuration at hduration
  dsimp only at hduration
  split at hduration
  · cases hduration
  next hfits =>
    have hproduct : sampleFrames frame * 1000000 < 2 ^ 64 := by
      unfold sampleFrames
      omega
    refine ⟨hproduct, ?_⟩
    cases hduration
    rw [UInt64.toNat_ofNat']
    exact Nat.mod_eq_of_lt (lt_of_le_of_lt (Nat.div_le_self _ _) hproduct)

theorem add_of_le (consumed : UInt64) (h : ¬ 18446744073709551615 - consumed < durationUs) :
    (consumed + durationUs).toNat = consumed.toNat + durationUs.toNat ∧
      consumed.toNat + durationUs.toNat < 2 ^ 64 := by
  have hle : consumed ≤ 18446744073709551615 := by
    rw [UInt64.le_iff_toNat_le]
    exact Nat.le_of_lt_succ consumed.toNat_lt
  rw [UInt64.not_lt, UInt64.le_iff_toNat_le, UInt64.toNat_sub_of_le _ _ hle] at h
  have hlt := consumed.toNat_lt
  rw [show (18446744073709551615 : UInt64).toNat = 2 ^ 64 - 1 from rfl] at h
  rw [UInt64.toNat_add]
  omega

theorem writeAudio_eq (x : FingerprintExtractor) (frame : Option AudioFrame)
    (reply : Reply Fingerprint) :
    fingerprintWriteAudio x frame reply =
      match audioCheck x frame with
      | .error code => fingerprintReject x code
      | .ok durationUs =>
        let out := writeProvider (fingerprintRule x.config.domain) x.session reply
        ({ x with
            consumedDurationUs :=
              if out.2.2 then x.consumedDurationUs + durationUs else x.consumedDurationUs
            session := out.1 },
          out.2.1) := by
  unfold fingerprintWriteAudio audioCheck
  grind

theorem audioCheck_error {code : ℤ} (h : audioCheck x frame = .error code) : code ≠ ok := by
  unfold audioCheck at h
  grind [errInvalid, errState, errFormat, errLimit, ok]

theorem audioCheck_ok (h : audioCheck x frame = .ok durationUs) :
    ∃ given, frame = some given ∧ x.session.state = .running ∧
      x.config.audioFormat = given.format ∧ fingerprintAudioDuration given = some durationUs ∧
        overDuration x durationUs = false := by
  unfold audioCheck at h
  split at h
  · cases h
  next given hgiven =>
    obtain ⟨rfl, -⟩ := Option.filter_eq_some_iff.mp hgiven
    split_ifs at h with hstate hformat
    split at h
    · cases h
    next _ hduration =>
      cases h
      obtain ⟨hsome, hover⟩ := Option.filter_eq_some_iff.mp hduration
      simp only [Bool.or_eq_true, decide_eq_true_eq, not_or, not_not] at hformat
      exact ⟨given, rfl, not_not.mp hstate, hformat.2, hsome, by simpa using hover⟩

end Writing

section Limit

variable {α : Type} {rule : OutputRule α} {s t : Session α} {answer : Option ℤ}

/-- No call but a start makes a session active. -/
theorem SessionStep.active (h : Lawful s) (hstep : SessionStep rule s false t answer)
    (hactive : sessionActive t.state = true) : sessionActive s.state = true := by
  have hcalled : ∀ callbacks, (deliverAll rule s callbacks).state = s.state ∨
      sessionActive (deliverAll rule s callbacks).state = false :=
    fun callbacks => (deliverAll_spec callbacks h).2.state
  cases hstep with
  | refused | rejected => exact hactive
  | wrote reply => grind [writeProvider, Session.reject]
  | finished reply => grind [finishSession, sessionActive]
  | cancelled reply => grind [cancelSession, Session.record, sessionActive]
  | called call => rcases hcalled [call] with hsame | hclosed <;> simp_all [deliverAll]

/-- What a session of the extractor has taken. -/
structure Limited (s : FingerprintExtractor × ℕ) : Prop where
  lawful : Lawful s.1.session
  bound : s.2 * 1000000 ≤
    s.1.config.maxDurationUs.toNat * s.1.config.audioFormat.sampleRate.toNat
  exact : sessionActive s.1.session.state = true → s.1.config.maxDurationUs ≠ 0 ∧
    s.2 * 1000000 = s.1.consumedDurationUs.toNat * s.1.config.audioFormat.sampleRate.toNat

variable {x y : FingerprintExtractor} {taken : ℕ}

/-- A call that is not a start and takes no sample frames. -/
theorem Limited.kept {rule : OutputRule Fingerprint} {answer : Option ℤ} (h : Limited (x, taken))
    (hstep : SessionStep rule x.session false y.session answer) (hconfig : y.config = x.config)
    (hconsumed : y.consumedDurationUs = x.consumedDurationUs) : Limited (y, taken) where
  lawful := (h.lawful.step hstep).1
  bound := by
    rw [hconfig]
    exact h.bound
  exact := by
    intro hactive
    rw [hconfig, hconsumed]
    exact h.exact (hstep.active h.lawful hactive)

theorem limited_create (provider : FingerprintProvider) :
    Limited (.create provider, 0) where
  lawful := create_lawful
  bound := by simp
  exact := by simp [FingerprintExtractor.create, create, sessionActive]

theorem Limited.start (h : Limited (x, taken)) (config : Option FingerprintConfig)
    (reply : Reply Fingerprint) :
    Limited (meteredMachine.next (x, taken) (.start config reply)) := by
  change Limited ((fingerprintStart x config reply).1, framesAfter x taken (.start config reply) _)
  obtain ⟨rule, hstep⟩ := fingerprint_step x (.start config reply)
  have hlawful := (h.lawful.step hstep).1
  rw [framesAfter]
  unfold fingerprintStart
  change Lawful (fingerprintStart x config reply).1.session at hlawful
  unfold fingerprintStart at hlawful
  cases hvalid : config.filter (fingerprintConfigValid x.provider) with
  | none => simpa using h
  | some begun =>
    obtain ⟨-, hbegun⟩ := Option.filter_eq_some_iff.mp hvalid
    rw [hvalid] at hlawful
    dsimp only at hlawful ⊢
    by_cases hstate : x.session.state ≠ .idle ∧ x.session.state ≠ .stopped
    · rw [if_pos hstate, if_neg (by simp; tauto)]
      exact h
    · rw [if_neg hstate] at hlawful ⊢
      rw [if_pos ⟨rfl, state_of_open hstate⟩]
      refine ⟨hlawful, by simp, fun _ => ⟨?_, by simp⟩⟩
      simp only [fingerprintConfigValid, Bool.and_eq_true, decide_eq_true_eq] at hbegun
      exact hbegun.1.1.1.2

/-- The answer of a call of the provider says whether it took the frame. -/
theorem writeProvider_taken (rule : OutputRule α) (h : Lawful s) (reply : Reply α) :
    (writeProvider rule s reply).2.1 = ok ↔ (writeProvider rule s reply).2.2 = true := by
  have hlawful : Lawful (deliverAll rule s reply.callbacks) := (deliverAll_spec _ h).1
  unfold writeProvider
  dsimp only
  split_ifs with herror hresult
  · simp [hlawful.result herror]
  · simp [hresult]
  · simpa using hresult

theorem Limited.writeAudio (h : Limited (x, taken)) (frame : Option AudioFrame)
    (reply : Reply Fingerprint) (hwhole : WholeFrames (x, taken) (.writeAudio frame reply)) :
    Limited (meteredMachine.next (x, taken) (.writeAudio frame reply)) := by
  obtain ⟨rule, hstep⟩ := fingerprint_step x (.writeAudio frame reply)
  change Limited ((fingerprintWriteAudio x frame reply).1,
    framesAfter x taken (.writeAudio frame reply) (some (fingerprintWriteAudio x frame reply).2))
  change SessionStep rule x.session false (fingerprintWriteAudio x frame reply).1.session
    (some (fingerprintWriteAudio x frame reply).2) at hstep
  rw [writeAudio_eq] at hstep ⊢
  have hnone : ∀ {answer : ℤ}, answer ≠ ok →
      framesAfter x taken (.writeAudio frame reply) (some answer) = taken := by
    intro answer hne
    cases frame <;> simp [framesAfter, hne]
  cases hcheck : audioCheck x frame with
  | error code =>
    rw [hcheck] at hstep
    rw [show (fingerprintReject x code).2 = code from rfl, hnone (audioCheck_error hcheck)]
    exact h.kept hstep rfl rfl
  | ok durationUs =>
    obtain ⟨given, rfl, hrunning, hformat, hduration, hover⟩ := audioCheck_ok hcheck
    rw [hcheck] at hstep
    have htaken := writeProvider_taken (fingerprintRule x.config.domain) h.lawful reply
    generalize writeProvider (fingerprintRule x.config.domain) x.session reply = out at hstep htaken
    dsimp only at hstep ⊢
    by_cases hok : out.2.1 = ok
    · rw [if_pos (htaken.mp hok), framesAfter, if_pos (congrArg some hok)]
      obtain ⟨hmax, hexact⟩ := h.exact (by simp [hrunning, sessionActive])
      simp only [overDuration, Bool.or_eq_false_iff, decide_eq_false_iff_not,
        Bool.and_eq_false_iff] at hover
      obtain ⟨hsum, -⟩ := add_of_le x.consumedDurationUs hover.1
      have hlimit : x.consumedDurationUs + durationUs ≤ x.config.maxDurationUs := by
        rcases hover.2 with hzero | hle
        · exact absurd (UInt64.pos_iff_ne_zero.mpr hmax) hzero
        · exact UInt64.not_lt.mp hle
      have hdivides : durationUs.toNat * x.config.audioFormat.sampleRate.toNat =
          sampleFrames given * 1000000 := by
        have hnone := hwhole (by simp [hcheck, Except.isOk, Except.toBool]) given rfl
        rw [(audioDuration_spec hduration).2, hformat]
        exact Nat.div_mul_cancel (Nat.dvd_of_mod_eq_zero hnone)
      have hnow : (taken + sampleFrames given) * 1000000 =
          (x.consumedDurationUs + durationUs).toNat *
            x.config.audioFormat.sampleRate.toNat := by
        rw [hsum, Nat.add_mul, Nat.add_mul, hdivides, hexact]
      refine ⟨(h.lawful.step hstep).1, ?_, fun _ => ⟨hmax, hnow⟩⟩
      dsimp only
      rw [hnow]
      exact Nat.mul_le_mul_right _ (UInt64.le_iff_toNat_le.mp hlimit)
    · rw [if_neg (by simpa [← htaken] using hok), hnone hok]
      exact h.kept hstep rfl rfl

theorem Limited.next {s : FingerprintExtractor × ℕ} {op : FingerprintOp}
    (hwhole : WholeFrames s op) (h : Limited s) : Limited (meteredMachine.next s op) := by
  obtain ⟨x, taken⟩ := s
  obtain ⟨rule, hstep⟩ := fingerprint_step x op
  cases op with
  | start config reply => exact h.start config reply
  | writeAudio frame reply => exact h.writeAudio frame reply hwhole
  | writeVideo frame reply =>
    have hkept : (fingerprintWriteVideo x frame reply).1.config = x.config ∧
        (fingerprintWriteVideo x frame reply).1.consumedDurationUs = x.consumedDurationUs := by
      unfold fingerprintWriteVideo
      split
      · exact ⟨rfl, rfl⟩
      · split_ifs <;> exact ⟨rfl, rfl⟩
    exact h.kept hstep hkept.1 hkept.2
  | finish reply | cancel reply | callback call => exact h.kept hstep rfl rfl

end Limit

section Later

variable {α : Type} {rule : OutputRule α} {s t : Session α}

/-- Sessions in the same state; where `results` is asked for, an error has the same result. -/
def SameState (results : Prop) (s t : Session α) : Prop :=
  s.state = t.state ∧ (results → s.state = .error → s.lastResult = t.lastResult)

theorem SameState.deliverAll {results : Prop} (h : SameState results s t) (rule : OutputRule α)
    (callbacks : List (ProviderCall α)) :
    SameState results (deliverAll rule s callbacks) (deliverAll rule t callbacks) := by
  induction callbacks generalizing s t with
  | nil => exact h
  | cons call callbacks ih =>
    refine ih ?_
    obtain ⟨hstate, hresult⟩ := h
    cases call <;> simp only [deliver, ← hstate] <;> split <;>
      grind [SameState, Session.record, Session.fail]

/-- What both sessions answer to one call, and the states they are in after it. -/
def SameAnswer {β : Type} (out out' : Session α × β) : Prop :=
  out.1.state = out'.1.state ∧ out.2 = out'.2

variable (h : s.state = t.state) (reply : Reply α)

theorem startProvider_alike :
    SameAnswer (startProvider rule s reply) (startProvider rule t reply) := by
  have hcalled := (show SameState True
    { s with rejectedFrameCount := 0, state := .running, log := s.log ++ [.accepted] }
    { t with rejectedFrameCount := 0, state := .running, log := t.log ++ [.accepted] }
    from ⟨rfl, nofun⟩).deliverAll rule reply.callbacks
  unfold startProvider
  grind [SameState, SameAnswer, Session.record]

include h

theorem writeProvider_alike (hrunning : s.state = .running) :
    SameAnswer (writeProvider rule s reply) (writeProvider rule t reply) := by
  have hcalled :=
    (show SameState True s t from ⟨h, by simp [hrunning]⟩).deliverAll rule reply.callbacks
  unfold writeProvider
  grind [SameState, SameAnswer, Session.reject]

theorem finishSession_alike :
    SameAnswer (finishSession rule s reply) (finishSession rule t reply) := by
  have hcalled := (show SameState True { s with state := .finishing }
    { t with state := .finishing } from ⟨rfl, nofun⟩).deliverAll rule reply.callbacks
  unfold finishSession
  grind [SameState, SameAnswer]

theorem cancelSession_alike :
    SameAnswer (cancelSession rule s reply) (cancelSession rule t reply) := by
  have hcalled := (show SameState False s t from ⟨h, nofun⟩).deliverAll rule reply.callbacks
  unfold cancelSession
  grind [SameState, SameAnswer, Session.record]

omit h

/-- Extractors that decide alike: they differ at most in counters, logs and last results. -/
structure Alike (x y : FingerprintExtractor) : Prop where
  state : x.session.state = y.session.state
  rest : { x with session := Session.create } = { y with session := Session.create }

variable {x y : FingerprintExtractor}

theorem Alike.next (h : Alike x y) (op : FingerprintOp) :
    Alike (fingerprintMachine.next x op) (fingerprintMachine.next y op) ∧
      fingerprintMachine.answer x op = fingerprintMachine.answer y op := by
  obtain ⟨hsame, hrest⟩ := h
  obtain ⟨provider, config, consumed, first, hasVideo, session⟩ := x
  obtain ⟨provider', config', consumed', first', hasVideo', session'⟩ := y
  simp only [FingerprintExtractor.mk.injEq, and_true] at hrest hsame
  obtain ⟨rfl, rfl, rfl, rfl, rfl⟩ := hrest
  have hwrite : ∀ domain reply, session.state = .running →
      SameAnswer (writeProvider (fingerprintRule domain) session reply)
        (writeProvider (fingerprintRule domain) session' reply) :=
    fun domain reply hrunning => writeProvider_alike hsame reply hrunning
  cases op with
  | start begun reply =>
    have hstart : ∀ domain, SameAnswer (startProvider (fingerprintRule domain) session reply)
        (startProvider (fingerprintRule domain) session' reply) :=
      fun domain => startProvider_alike reply
    simp only [Machine.next, Machine.answer, fingerprintMachine, fingerprintStart]
    grind [SameAnswer, Alike]
  | writeAudio frame reply =>
    simp only [Machine.next, Machine.answer, fingerprintMachine, fingerprintWriteAudio,
      fingerprintReject, Session.reject, overDuration]
    cases frame.filter (fun frame => audioFrameValid (some frame)) with
    | none => grind [Alike]
    | some given => grind [SameAnswer, Alike]
  | writeVideo frame reply =>
    simp only [Machine.next, Machine.answer, fingerprintMachine, fingerprintWriteVideo,
      fingerprintReject, Session.reject]
    cases frame.filter (fun frame => videoFrameValid (some frame)) with
    | none => grind [Alike]
    | some given => grind [SameAnswer, Alike]
  | finish reply =>
    obtain ⟨hfinish, hans⟩ := finishSession_alike hsame reply
    exact ⟨⟨hfinish, rfl⟩, congrArg some hans⟩
  | cancel reply =>
    obtain ⟨hcancel, hans⟩ := cancelSession_alike hsame reply
    exact ⟨⟨hcancel, rfl⟩, congrArg some hans⟩
  | callback call =>
    have hcalled : SameState False session session' := ⟨hsame, False.elim⟩
    exact ⟨⟨(hcalled.deliverAll _ [call]).1, rfl⟩, rfl⟩

theorem Alike.answers (h : Alike x y) (later : List FingerprintOp) :
    fingerprintMachine.observe (fun answer => [answer]) x later =
      fingerprintMachine.observe (fun answer => [answer]) y later := by
  refine fingerprintMachine.observe_eq_of_related (R := Alike) (fun x y op hxy => ?_) h later
  exact ⟨(hxy.next op).1, congrArg (fun answer => [answer]) (hxy.next op).2⟩

/-- A frame that is refused leaves the consumed duration, and otherwise what the callbacks of
the provider leave. -/
theorem refused_alike {frame : Option AudioFrame} {reply : Reply Fingerprint}
    (hlawful : Lawful x.session)
    (hrefused : fingerprintMachine.answer x (.writeAudio frame reply) ≠ some ok) :
    Alike (fingerprintMachine.next x (.writeAudio frame reply)) (calledBack x frame reply) ∧
      (fingerprintMachine.next x (.writeAudio frame reply)).consumedDurationUs =
        x.consumedDurationUs := by
  change some (fingerprintWriteAudio x frame reply).2 ≠ some ok at hrefused
  change Alike (fingerprintWriteAudio x frame reply).1 _ ∧
    (fingerprintWriteAudio x frame reply).1.consumedDurationUs = _
  rw [calledBack, writeAudio_eq] at *
  cases hcheck : audioCheck x frame with
  | error code => exact ⟨⟨rfl, rfl⟩, rfl⟩
  | ok durationUs =>
    have htaken := writeProvider_taken (fingerprintRule x.config.domain) hlawful reply
    rw [hcheck] at hrefused
    have hnot : (writeProvider (fingerprintRule x.config.domain) x.session reply).2.2 ≠ true :=
      fun htook => hrefused (congrArg some (htaken.mpr htook))
    dsimp only
    rw [if_neg hnot, if_pos (show (Except.ok durationUs).isOk = true from rfl)]
    refine ⟨⟨?_, rfl⟩, rfl⟩
    unfold writeProvider
    dsimp only
    split_ifs <;> rfl

end Later

/-- **Duration limit.**  In a run in which the provider is given frames of whole microseconds,
the sample frames that a session has taken do not exceed its limit; a refused frame changes
neither the consumed duration nor a later answer, beyond what the provider has called back; and
nothing wraps. -/
theorem duration_limited {provider : FingerprintProvider} {ops : List FingerprintOp}
    {s : FingerprintExtractor × ℕ}
    (hwhole : meteredMachine.Along WholeFrames (.create provider, 0) ops)
    (hs : s = meteredMachine.run (.create provider, 0) ops) :
    s.2 * 1000000 ≤ s.1.config.maxDurationUs.toNat * s.1.config.audioFormat.sampleRate.toNat ∧
      (∀ frame reply, fingerprintMachine.answer s.1 (.writeAudio frame reply) ≠ some ok →
        let refused := fingerprintMachine.next s.1 (.writeAudio frame reply)
        refused.consumedDurationUs = s.1.consumedDurationUs ∧ ∀ later,
          fingerprintMachine.observe (fun answer => [answer]) refused later =
            fingerprintMachine.observe (fun answer => [answer]) (calledBack s.1 frame reply)
              later) ∧
      ∀ frame durationUs, fingerprintAudioDuration frame = some durationUs →
        sampleFrames frame * 1000000 < 2 ^ 64 ∧
          (durationUs ≤ 18446744073709551615 - s.1.consumedDurationUs →
            s.1.consumedDurationUs.toNat + durationUs.toNat < 2 ^ 64) := by
  have hlimited : Limited s := by
    rw [hs]
    exact meteredMachine.run_invariant_along (fun _ _ hop h => h.next hop)
      (limited_create provider) hwhole
  refine ⟨hlimited.bound, fun frame reply hrefused => ?_, fun frame durationUs hduration => ?_⟩
  · obtain ⟨halike, hconsumed⟩ := refused_alike hlimited.lawful hrefused
    exact ⟨hconsumed, halike.answers⟩
  · exact ⟨(audioDuration_spec hduration).1,
      fun hle => (add_of_le _ (UInt64.not_lt.mpr hle)).2⟩

/-- A session of mono audio at this rate, with a limit. -/
def audioSession (sampleRate : ℤ) (maxDurationUs : UInt64) (lens : List ℕ) :
    List FingerprintOp :=
  .start (some ⟨2, ⟨sampleRate, 1, 1⟩, 0, none, maxDurationUs⟩) ⟨[], ok⟩ ::
    lens.map (fun len => .writeAudio (some ⟨true, len, ⟨sampleRate, 1, 1⟩⟩) ⟨[], ok⟩)

/-- At 8000 Hz a sample frame lasts 125 microseconds: of three frames the last is refused. -/
theorem duration_limited_whole :
    let s := meteredMachine.run (.create ⟨true, true⟩, 0) (audioSession 8000 400 [4, 2, 2])
    s.2 = 3 ∧ s.2 * 1000000 ≤
      s.1.config.maxDurationUs.toNat * s.1.config.audioFormat.sampleRate.toNat :=
  ⟨by decide, (@duration_limited ⟨true, true⟩ (audioSession 8000 400 [4, 2, 2]) _ (by decide)
    rfl).1⟩

/-- At 48000 Hz a sample frame lasts 20 microseconds and five sixths, of which 20 count. -/
theorem fraction_not_counted :
    let s := meteredMachine.run (.create ⟨true, true⟩, 0) (audioSession 48000 20 [2])
    ¬ s.2 * 1000000 ≤
      s.1.config.maxDurationUs.toNat * s.1.config.audioFormat.sampleRate.toNat := by
  decide

end TurboMedia.Recognition
