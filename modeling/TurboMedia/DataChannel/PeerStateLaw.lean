import TurboMedia.DataChannel.PeerState

/-!
# The law of the peer state

What the states of a peer and the calls of `on_state` and `on_error` look like over a whole
run.

**Input.**  Any sequence of inputs, nested in callbacks in any way, in which connect on an
external transport comes while the peer is NEW or CONNECTING (`Guarded`):
`dc_external_handshake_task` writes the state past `dc_state_transition_allowed`.

**Method.**  The writes of the state are a trail of allowed moves (`Trail`), and the calls of
`on_state` follow it (`Lawful`).  A failure whose `on_error` has not returned is behind by one
call; at most one such callback is on the stack.
-/

namespace TurboMedia.DataChannel

open List PeerLife PeerInput

/-- A call of `on_state`. -/
structure StateReport where
  old : PeerState
  target : PeerState
  duringError : Bool
deriving DecidableEq

def StateReport.move (r : StateReport) : PeerState × PeerState :=
  (r.old, r.target)

def moveOf : StateEvent → Option (PeerState × PeerState)
  | .moved old target => some (old, target)
  | _ => none

def reportOf : StateEvent → Option StateReport
  | .onState old target duringError => some ⟨old, target, duringError⟩
  | _ => none

def errorOf : StateEvent → Option PeerError
  | .onError code => some code
  | _ => none

def movesOf (events : List StateEvent) : List (PeerState × PeerState) :=
  events.filterMap moveOf

/-- The calls of `on_state`. -/
def reportsOf (events : List StateEvent) : List StateReport :=
  events.filterMap reportOf

/-- The calls of `on_error`. -/
def errorsOf (events : List StateEvent) : List PeerError :=
  events.filterMap errorOf

def PeerLife.log (p : PeerLife) : List StateEvent :=
  p.trace.reverse

/-- The states that may come after one: none after CLOSED, only CLOSED after DISCONNECTING,
only these two after FAILED. -/
def MayFollow (earlier later : PeerState) : Prop :=
  earlier ≠ .closed ∧ (earlier = .disconnecting → later = .closed) ∧
    (earlier = .failed → later = .disconnecting ∨ later = .closed)

instance (earlier later : PeerState) : Decidable (MayFollow earlier later) :=
  inferInstanceAs (Decidable (_ ∧ _ ∧ _))

/-- Two calls of `on_state` in a row: the second begins where the first ended, or `on_error` has
not returned and the second leaves the state FAILED that the first one's state moved to. -/
def Chains (moves : List (PeerState × PeerState)) (first second : StateReport) : Prop :=
  first.target = second.old ∨
    (second.old = .failed ∧ second.duringError = true ∧ (first.target, .failed) ∈ moves)

/-- Connect on an external transport, on a peer that is not destroyed, comes while the peer is
NEW or CONNECTING. -/
def Guarded (p : PeerLife) : PeerInput → Prop
  | .connect _ _ => p.freed = false → p.destroying = false → p.external = true →
    p.state = .new ∨ p.state = .connecting
  | _ => True

instance (p : PeerLife) (input : PeerInput) : Decidable (Guarded p input) := by
  cases input <;> unfold Guarded <;> infer_instance

section Trails

/-- The writes so far, newest first, and the state they have led to. -/
structure Trail (state : PeerState) (moves : List (PeerState × PeerState)) : Prop where
  linked : moves.IsChain (fun later earlier => earlier.2 = later.1)
  allowed : ∀ m ∈ moves, stateTransitionAllowed m.1 m.2 = true ∧ m.2 ≠ .new
  ordered : moves.Pairwise (fun later earlier => MayFollow earlier.2 later.2)
  current : ∀ m ∈ moves.head?, m.2 = state
  before : ∀ m ∈ moves, m.2 = state ∨ MayFollow m.2 state
  start : moves = [] → state = .new

variable {s target : PeerState} {moves : List (PeerState × PeerState)}

theorem mayFollow_of_allowed (h : stateTransitionAllowed s target = true) : MayFollow s target := by
  revert h
  cases s <;> cases target <;> decide

theorem MayFollow.trans {earlier : PeerState} (h : MayFollow earlier s)
    (hallowed : stateTransitionAllowed s target = true) : MayFollow earlier target := by
  revert h hallowed
  cases earlier <;> cases s <;> cases target <;> decide

theorem trail_nil : Trail .new [] := by
  constructor <;> simp

theorem Trail.cons (h : Trail s moves) (hallowed : stateTransitionAllowed s target = true)
    (hnew : target ≠ .new) : Trail target ((s, target) :: moves) := by
  have hafter : ∀ m ∈ moves, MayFollow m.2 target := by
    intro m hm
    rcases h.before m hm with hsame | hfollow
    · rw [hsame]
      exact mayFollow_of_allowed hallowed
    · exact hfollow.trans hallowed
  refine ⟨?_, ?_, ?_, by simp, ?_, by simp⟩
  · rw [isChain_cons]
    exact ⟨h.current, h.linked⟩
  · rintro m hm
    rcases mem_cons.mp hm with rfl | hold
    · exact ⟨hallowed, hnew⟩
    · exact h.allowed m hold
  · rw [pairwise_cons]
    exact ⟨hafter, h.ordered⟩
  · rintro m hm
    rcases mem_cons.mp hm with rfl | hold
    · exact .inl rfl
    · exact .inr (hafter m hold)

theorem Trail.nil_of_new (h : Trail .new moves) : moves = [] := by
  cases moves with
  | nil => rfl
  | cons m older =>
    have hcur := h.current m rfl
    exact absurd hcur (h.allowed m mem_cons_self).2

theorem Trail.linked_swap (h : Trail s moves) :
    moves.reverse.IsChain (fun earlier later => earlier.2 = later.1) := by
  rw [isChain_reverse]
  exact h.linked

end Trails

section Invariant

/-- An action that is no part of another function's end: a direct write or the end of
`dc_fail_peer`. -/
def Action.isPlain : Action → Bool
  | .writeConnecting => false
  | .publishFailed _ => false
  | _ => true

def IsRest (rest : List Action) : Prop :=
  ∀ action ∈ rest, action.isPlain = true

/-- What holds of a peer at any time. -/
structure Lawful (p : PeerLife) : Prop where
  trail : Trail p.state (movesOf p.trace)
  reported : ((reportsOf p.trace).map StateReport.move).Sublist (movesOf p.trace)
  chained : (reportsOf p.trace).IsChain (fun later earlier =>
    Chains (movesOf p.trace) earlier later)
  errors : (errorsOf p.trace).length ≤ (movesOf p.trace).countP (fun m => m.2 == .failed)
  caughtUp : p.mayReport = true → p.pending = [] ∨ p.state ≠ .failed →
    ∀ r ∈ (reportsOf p.trace).head?, r.target = p.state
  behind : p.mayReport = true → p.state = .failed → ∀ old ∈ p.pending,
    (movesOf p.trace).head? = some (old, .failed) ∧
      ((reportsOf p.trace).map StateReport.move).Sublist (movesOf p.trace).tail ∧
        ∀ r ∈ (reportsOf p.trace).head?, r.target = old
  single : p.pending.length ≤ 1
  late : p.pending ≠ [] → p.state = .failed ∨ p.state = .disconnecting ∨ p.state = .closed
  frames : ∀ frame ∈ p.frames, IsRest frame ∨
    ∃ old rest, frame = .publishFailed old :: rest ∧ IsRest rest
  deferred : p.deferredDestroy = true → p.destroying = true

/-- An action keeps the invariant, and so does the callback that it starts. -/
def Keeps (rest : List Action) (result : PeerLife × Option (List Action)) : Prop :=
  match result.2 with
  | none => Lawful result.1
  | some first => Lawful { result.1 with frames := (first ++ rest) :: result.1.frames }

variable {p q : PeerLife} {target : PeerState} {rest : List Action}

theorem lawful_create (isServer : Bool) (transport : DcTransport)
    (disableSctp onState onError : Bool) :
    Lawful (.create isServer transport disableSctp onState onError) := by
  constructor <;> simp [create, movesOf, reportsOf, errorsOf, pending, trail_nil]

/-- The other fields of a peer do not matter, and reports may be given up. -/
theorem Lawful.of_same (h : Lawful p) (hstate : q.state = p.state) (htrace : q.trace = p.trace)
    (hfrs : q.frames = p.frames) (hmay : q.mayReport = true → p.mayReport = true)
    (hdeferred : q.deferredDestroy = true → q.destroying = true) : Lawful q := by
  have hpend : q.pending = p.pending := by rw [pending, pending, hfrs]
  constructor
  · rw [hstate, htrace]
    exact h.trail
  · rw [htrace]
    exact h.reported
  · rw [htrace]
    exact h.chained
  · rw [htrace]
    exact h.errors
  · rw [hstate, htrace, hpend]
    exact fun hq => h.caughtUp (hmay hq)
  · rw [hstate, htrace, hpend]
    exact fun hq => h.behind (hmay hq)
  · rw [hpend]
    exact h.single
  · rw [hstate, hpend]
    exact h.late
  · rw [hfrs]
    exact h.frames
  · exact hdeferred

theorem awaitsPublish_rest (hrest : IsRest rest) : awaitsPublish rest = none := by
  cases rest with
  | nil => rfl
  | cons action rest =>
    have hplain := hrest action mem_cons_self
    cases action <;> first | rfl | cases hplain

theorem Lawful.push (h : Lawful p) (hrest : IsRest rest) :
    Lawful { p with frames := rest :: p.frames } := by
  have hpend : pending { p with frames := rest :: p.frames } = p.pending := by
    rw [pending, filterMap_cons_none (awaitsPublish_rest hrest)]
    rfl
  constructor
  · exact h.trail
  · exact h.reported
  · exact h.chained
  · exact h.errors
  · rw [hpend]
    exact h.caughtUp
  · rw [hpend]
    exact h.behind
  · rw [hpend]
    exact h.single
  · rw [hpend]
    exact h.late
  · intro frame hframe
    rcases mem_cons.mp hframe with rfl | hold
    · exact .inl hrest
    · exact h.frames frame hold
  · exact h.deferred

theorem Lawful.pop {frames : List (List Action)} (h : Lawful p)
    (hfrs : p.frames = rest :: frames) (hrest : IsRest rest) :
    Lawful { p with frames := frames } := by
  have hpend : pending { p with frames := frames } = p.pending := by
    rw [pending, pending, hfrs, filterMap_cons_none (awaitsPublish_rest hrest)]
  constructor
  · exact h.trail
  · exact h.reported
  · exact h.chained
  · exact h.errors
  · rw [hpend]
    exact h.caughtUp
  · rw [hpend]
    exact h.behind
  · rw [hpend]
    exact h.single
  · rw [hpend]
    exact h.late
  · intro frame hframe
    exact h.frames frame (by rw [hfrs]; exact mem_cons_of_mem _ hframe)
  · exact h.deferred

theorem keeps_afterCallback {result : PeerLife × Bool} (h : Lawful result.1) (hrest : IsRest rest) :
    Keeps rest (afterCallback result) := by
  obtain ⟨p, started⟩ := result
  cases started with
  | false => exact h
  | true => exact h.push hrest

theorem Chains.mono {moves : List (PeerState × PeerState)} {first second : StateReport}
    (h : Chains moves first second) (m : PeerState × PeerState) :
    Chains (m :: moves) first second := by
  rcases h with hsame | ⟨hfail, hduring, hmem⟩
  · exact .inl hsame
  · exact .inr ⟨hfail, hduring, mem_cons_of_mem _ hmem⟩

theorem write_of_ne (h : p.state ≠ target) :
    p.write target = { p with state := target, trace := .moved p.state target :: p.trace } :=
  if_neg h

theorem ne_of_allowed {old : PeerState} (h : stateTransitionAllowed old target = true) :
    old ≠ target := by
  rintro rfl
  simp [stateTransitionAllowed] at h

variable (h : Lawful p)
include h

/-- The call of `on_state` for a move of the peer chains with the ones before. -/
theorem Lawful.next_chains (hmay : p.mayReport = true) :
    ∀ r ∈ (reportsOf p.trace).head?,
      Chains (movesOf p.trace) r ⟨p.state, target, !p.pending.isEmpty⟩ := by
  intro r hr
  by_cases hbehind : p.pending = [] ∨ p.state ≠ .failed
  · exact .inl (h.caughtUp hmay hbehind r hr)
  · rw [not_or, ne_eq, not_not] at hbehind
    obtain ⟨hpend, hfail⟩ := hbehind
    obtain ⟨old, olds, hcons⟩ := exists_cons_of_ne_nil hpend
    obtain ⟨hhead, -, hlast⟩ := h.behind hmay hfail old (by rw [hcons]; simp)
    refine .inr ⟨hfail, by rw [hcons]; rfl, ?_⟩
    rw [hlast r hr]
    exact mem_of_mem_head? hhead

/-- `dc_notify_state`. -/
theorem Lawful.notifyState (hnew : target ≠ .new) (hfail : target ≠ .failed) :
    Lawful (p.notifyState target).1 := by
  rw [PeerLife.notifyState]
  split
  next hallowed =>
    have htrail := h.trail.cons hallowed hnew
    have hlate : p.pending ≠ [] →
        target = .failed ∨ target = .disconnecting ∨ target = .closed := by
      intro hpend
      have hfollow := mayFollow_of_allowed hallowed
      rcases h.late hpend with hs | hs | hs
      · exact .inr (hfollow.2.2 hs)
      · exact .inr (.inr (hfollow.2.1 hs))
      · exact absurd hs hfollow.1
    rw [write_of_ne (ne_of_allowed hallowed)]
    split
    next hmay =>
      refine ⟨htrail, ?_, ?_, ?_, ?_, fun _ hf => absurd hf hfail, h.single, hlate,
        h.frames, h.deferred⟩
      · exact .cons_cons _ h.reported
      · refine isChain_cons.mpr ⟨fun r hr => (h.next_chains hmay r hr).mono _, ?_⟩
        exact h.chained.imp (fun _ _ hc => hc.mono _)
      · exact h.errors.trans (sublist_cons_self _ _).countP_le
      · intro _ _ r hr
        simp only [PeerLife.report, reportsOf, filterMap_cons, reportOf, head?_cons,
          Option.mem_def, Option.some.injEq] at hr
        rw [← hr]
        rfl
    next hmay =>
      refine ⟨htrail, .cons _ h.reported, ?_, ?_, fun hyes => absurd hyes hmay,
        fun hyes => absurd hyes hmay, h.single, hlate, h.frames, h.deferred⟩
      · exact h.chained.imp (fun _ _ hc => hc.mono _)
      · exact h.errors.trans (sublist_cons_self _ _).countP_le
  next => exact h

/-- `dc_peer_close_impl` and the callers of `dc_notify_state`. -/
theorem Lawful.keeps_notifyState (hrest : IsRest rest) (hnew : target ≠ .new)
    (hfail : target ≠ .failed) : Keeps rest (afterCallback (p.notifyState target)) :=
  keeps_afterCallback (h.notifyState hnew hfail) hrest

theorem Lawful.write_failed (hallowed : stateTransitionAllowed p.state .failed = true) :
    p.pending = [] ∧ p.write .failed =
        { p with state := .failed, trace := .moved p.state .failed :: p.trace } ∧
      Trail .failed ((p.state, .failed) :: movesOf p.trace) ∧
      (reportsOf p.trace).IsChain (fun later earlier =>
        Chains ((p.state, .failed) :: movesOf p.trace) earlier later) := by
  refine ⟨?_, write_of_ne (ne_of_allowed hallowed), h.trail.cons hallowed (by decide), ?_⟩
  · by_contra hpend
    have hlate := h.late hpend
    revert hallowed hlate
    cases p.state <;> decide
  · exact h.chained.imp (fun _ _ hc => hc.mono _)

/-- The end of `dc_fail_peer` with its callback still on the stack. -/
theorem Lawful.publishFailed {old : PeerState} {frames : List (List Action)}
    (hfrs : p.frames = (.publishFailed old :: rest) :: frames) :
    Lawful (PeerLife.publishFailed { p with frames := frames } old).1 := by
  have hpend : p.pending = old :: PeerLife.pending { p with frames := frames } := by
    rw [PeerLife.pending, hfrs]
    rfl
  have hlast : PeerLife.pending { p with frames := frames } = [] := by
    have hsingle := h.single
    rw [hpend, length_cons] at hsingle
    exact eq_nil_of_length_eq_zero (by omega)
  have hothers : ∀ frame ∈ frames, IsRest frame ∨
      ∃ old rest, frame = .publishFailed old :: rest ∧ IsRest rest := by
    intro frame hframe
    exact h.frames frame (by rw [hfrs]; exact mem_cons_of_mem _ hframe)
  rw [PeerLife.publishFailed]
  split
  next hreports =>
    obtain ⟨hfail, hmay⟩ := hreports
    obtain ⟨hhead, hsublist, htarget⟩ := h.behind hmay hfail old (by simp [hpend])
    obtain ⟨older, hcons⟩ := List.head?_eq_some_iff.mp hhead
    rw [hcons, tail_cons] at hsublist
    have hmoves : ∀ events, movesOf (.onState old .failed events :: p.trace) = movesOf p.trace :=
      fun _ => rfl
    refine ⟨h.trail, ?_, ?_, h.errors, ?_, ?_, ?_, ?_, hothers, h.deferred⟩
    · change (_ :: (reportsOf p.trace).map StateReport.move).Sublist (movesOf p.trace)
      rw [hcons]
      exact .cons_cons _ hsublist
    · exact isChain_cons.mpr ⟨fun r hr => .inl (htarget r hr), h.chained⟩
    · intro _ _ r hr
      rw [← Option.some.inj hr]
      exact hfail.symm
    · intro _ _ old' hold'
      change old' ∈ PeerLife.pending { p with frames := frames } at hold'
      rw [hlast] at hold'
      cases hold'
    · exact hlast ▸ Nat.zero_le 1
    · exact fun hne => absurd hlast hne
  next hquiet =>
    refine ⟨h.trail, h.reported, h.chained, h.errors, ?_, ?_, ?_, ?_, hothers, h.deferred⟩
    · intro hmay _ r hr
      have hne : p.state ≠ .failed := fun hfail => hquiet ⟨hfail, hmay⟩
      exact h.caughtUp hmay (.inr hne) r hr
    · intro hmay hfail
      exact absurd ⟨hfail, hmay⟩ hquiet
    · exact hlast ▸ Nat.zero_le 1
    · exact fun hne => absurd hlast hne

/-- `dc_fail_peer`. -/
theorem Lawful.keeps_failPeer (hrest : IsRest rest) (code : PeerError) :
    Keeps rest (p.failPeer code) := by
  rw [PeerLife.failPeer]
  split
  next => exact h
  next hact =>
    have hallowed : stateTransitionAllowed p.state .failed = true := by
      revert hact
      cases p.state <;> decide
    obtain ⟨hpend, hwrite, htrail, hchained⟩ := h.write_failed hallowed
    have hcount : (errorsOf p.trace).length + 1 ≤
        ((p.state, PeerState.failed) :: movesOf p.trace).countP (fun m => m.2 == .failed) := by
      rw [countP_cons_of_pos rfl]
      exact Nat.succ_le_succ h.errors
    rw [hwrite]
    split
    next hcalled =>
      have hfirst : PeerLife.pending { p with
          frames := (.publishFailed p.state :: rest) :: p.frames } = [p.state] := by
        exact congrArg (p.state :: ·) hpend
      have hquiet : p.mayReport = true → ∀ r ∈ (reportsOf p.trace).head?,
          r.target = p.state := fun hmay => h.caughtUp hmay (.inl hpend)
      refine ⟨htrail, .cons _ h.reported, hchained, hcount, ?_, ?_, ?_, fun _ => .inl rfl,
        ?_, h.deferred⟩
      · rintro - (hnone | hne)
        · change PeerLife.pending { p with
            frames := (.publishFailed p.state :: rest) :: p.frames } = [] at hnone
          cases hnone
        · exact absurd rfl hne
      · intro hmay _ old hold
        change old ∈ PeerLife.pending { p with
          frames := (.publishFailed p.state :: rest) :: p.frames } at hold
        rw [hfirst, mem_singleton] at hold
        rw [hold]
        exact ⟨rfl, h.reported, hquiet hmay⟩
      · change (PeerLife.pending { p with
          frames := (.publishFailed p.state :: rest) :: p.frames }).length ≤ 1
        rw [hfirst]
        rfl
      · intro frame hframe
        rcases mem_cons.mp hframe with rfl | hold
        · exact .inr ⟨p.state, rest, rfl, hrest⟩
        · exact h.frames frame hold
    next hsilent =>
      refine keeps_afterCallback ?_ hrest
      rw [PeerLife.publishFailed]
      split
      next hreports =>
        have hmay : p.mayReport = true := hreports.2
        refine ⟨htrail, .cons_cons _ h.reported, ?_, Nat.le_of_succ_le hcount, ?_, ?_,
          h.single, fun _ => .inl rfl, h.frames, h.deferred⟩
        · refine isChain_cons.mpr ⟨fun r hr => .inl ?_, hchained⟩
          exact h.caughtUp hmay (.inl hpend) r hr
        · intro _ _ r hr
          rw [← Option.some.inj hr]
          rfl
        · intro _ _ old hold
          change old ∈ p.pending at hold
          rw [hpend] at hold
          cases hold
      next hquiet =>
        refine ⟨htrail, .cons _ h.reported, hchained, Nat.le_of_succ_le hcount,
          fun hmay => absurd ⟨rfl, hmay⟩ hquiet, fun hmay => absurd ⟨rfl, hmay⟩ hquiet,
          h.single, fun _ => .inl rfl, h.frames, h.deferred⟩

theorem Lawful.keeps_perform {action : Action} (hplain : action.isPlain = true)
    (hrest : IsRest rest) : Keeps rest (action.perform p) := by
  have hdone : ∀ flag, Lawful { p with sctpConnected := flag } := fun flag =>
    h.of_same rfl rfl rfl id h.deferred
  have herr : ∀ error, Keeps rest (p.handleError error) := by
    intro error
    cases error with
    | wantMore => exact h
    | closed => exact h.keeps_notifyState hrest (by decide) (by decide)
    | fatal => exact h.keeps_failPeer hrest _
  have hhandshake : ∀ result, Keeps rest (p.processHandshake result) := by
    intro result
    cases result with
    | unfinished error => exact herr error
    | badFingerprint => exact h.keeps_failPeer hrest _
    | finished association =>
      have hfinished : Lawful { p with handshakeDone := true } :=
        h.of_same rfl rfl rfl id h.deferred
      unfold processHandshake
      dsimp only
      split
      · exact hfinished.keeps_notifyState hrest (by decide) (by decide)
      · cases association with
        | some code => exact hfinished.keeps_failPeer hrest code
        | none => exact hfinished.of_same rfl rfl rfl id h.deferred
  cases action with
  | writeConnecting | publishFailed old => cases hplain
  | notifyConnecting | notifyDisconnecting | notifyClosed =>
    exact h.keeps_notifyState hrest (by decide) (by decide)
  | handshake result => exact hhandshake result
  | handshakeUnlessDone result =>
    rw [Action.perform]
    split
    · exact h
    · exact hhandshake result
  | sctp report =>
    rw [Action.perform]
    split
    · unfold sctpReport
      split
      · exact h
      · cases report with
        | commUp => exact (hdone true).keeps_notifyState hrest (by decide) (by decide)
        | restarted => exact h
        | lost => exact hdone false
        | blocked => exact h.keeps_failPeer hrest _
        | channel => exact h.push hrest
    · exact h
  | pollStatus established =>
    rw [Action.perform, pollStatus]
    split
    · exact (hdone true).keeps_notifyState hrest (by decide) (by decide)
    · exact h
  | readEnds error =>
    rw [Action.perform]
    split
    · exact herr error
    · exact h
  | fail code => exact h.keeps_failPeer hrest code
  | closeSocket | free => exact h.of_same rfl rfl rfl id h.deferred

end Invariant

variable {p : PeerLife} {rest : List Action}

theorem perform_of_keeps {action : Action} (hkeeps : Keeps rest (action.perform p))
    (hrun : ∀ q, Lawful q → Lawful (q.perform rest)) : Lawful (p.perform (action :: rest)) := by
  rw [perform]
  revert hkeeps
  cases action.perform p with
  | mk q started =>
    cases started with
    | none => exact hrun q
    | some first => exact id

theorem Lawful.perform {acts : List Action} (h : Lawful p) (hacts : IsRest acts) :
    Lawful (p.perform acts) := by
  induction acts generalizing p with
  | nil => exact h
  | cons action acts ih =>
    have hrest : IsRest acts := fun a ha => hacts a (mem_cons_of_mem _ ha)
    have hkeeps := h.keeps_perform (hacts action mem_cons_self) hrest
    exact perform_of_keeps hkeeps (fun q hq => ih hq hrest)

theorem Lawful.writeConnecting (h : Lawful p) (hguard : p.state = .new ∨ p.state = .connecting) :
    Lawful (p.write .connecting) := by
  rcases hguard with hnew | hsame
  · have hmoves : movesOf p.trace = [] := by
      have htrail := h.trail
      rw [hnew] at htrail
      exact htrail.nil_of_new
    have hreports : reportsOf p.trace = [] := by
      have hsublist := h.reported
      rw [hmoves, sublist_nil, map_eq_nil_iff] at hsublist
      exact hsublist
    have hallowed : stateTransitionAllowed p.state .connecting = true := by
      rw [hnew]
      rfl
    have hpend : p.pending = [] := by
      by_contra hne
      have hlate := h.late hne
      rw [hnew] at hlate
      simp at hlate
    rw [write_of_ne (ne_of_allowed hallowed)]
    refine ⟨h.trail.cons hallowed PeerState.noConfusion, .cons _ h.reported, ?_, ?_, ?_,
      fun _ habsurd => PeerState.noConfusion habsurd, h.single, fun hne => absurd hpend hne,
      h.frames, h.deferred⟩
    · exact h.chained.imp (fun _ _ hc => hc.mono _)
    · exact h.errors.trans (sublist_cons_self _ _).countP_le
    · intro _ _ r hr
      change r ∈ (reportsOf p.trace).head? at hr
      rw [hreports] at hr
      cases hr
  · rw [write, if_pos hsame]
    exact h

theorem isRest_closeImpl : IsRest (closeImpl p).2 := by
  intro action haction
  rw [closeImpl] at haction
  split at haction
  · cases haction
  · simp only [mem_cons, not_mem_nil, or_false] at haction
    rcases haction with rfl | rfl | rfl <;> rfl

theorem isRest_handleIncoming (h : Handshake) (records : List AppRecord) (ending : TlsError) :
    IsRest (handleIncoming h records ending) := by
  intro action haction
  rw [handleIncoming, mem_cons, mem_append, mem_flatMap] at haction
  rcases haction with rfl | ⟨record, -, hin⟩ | hin
  · rfl
  · rcases mem_append.mp hin with hreport | hpoll
    · obtain ⟨report, -, rfl⟩ := mem_map.mp hreport
      rfl
    · rw [mem_singleton.mp hpoll]
      rfl
  · rw [mem_singleton.mp hin]
    rfl

theorem isRest_streamState (event : StreamEvent) : IsRest (streamState p event) := by
  cases event with
  | connected ready h =>
    rw [streamState]
    split
    · split <;> simp [IsRest, Action.isPlain]
    · simp [IsRest, Action.isPlain]
  | failed | closed => simp [IsRest, streamState, Action.isPlain]

theorem lawful_startTransport (h : Lawful p) (setup : Setup) (result : Handshake) :
    Lawful (startTransport p setup result).1 ∧ IsRest (startTransport p setup result).2 := by
  have hdirect : Lawful { p with directOps := true } := h.of_same rfl rfl rfl id h.deferred
  unfold startTransport
  split
  · exact ⟨h, by simp [IsRest]⟩
  · exact ⟨h, by simp [IsRest]⟩
  · exact ⟨hdirect, by split <;> simp [IsRest, Action.isPlain]⟩
  · exact ⟨hdirect, by simp [IsRest]⟩
  · exact ⟨hdirect, by split <;> simp [IsRest, Action.isPlain]⟩

theorem Lawful.next {input : PeerInput} (h : Lawful p) (hguard : Guarded p input) :
    Lawful (lifeMachine.next p input) := by
  have hclose : Lawful (closeImpl p).1 := h.of_same rfl rfl rfl id h.deferred
  change Lawful (if p.freed then p else (input.task p).1.perform (input.task p).2)
  split
  · exact h
  next hheld =>
    cases input with
    | setExternalTransport attach hasTimer =>
      rw [task]
      split
      · exact h
      · change Lawful (setExternalTransportImpl p attach hasTimer)
        rw [setExternalTransportImpl]
        split
        · exact h.of_same rfl rfl rfl id h.deferred
        · split
          · exact h
          · exact h.of_same rfl rfl rfl id h.deferred
    | connect setup result =>
      rw [task]
      split
      · exact h
      next hlive =>
        rw [connectTask]
        split
        next hexternal =>
          rw [Bool.not_eq_true] at hheld hlive
          have hwrite := h.writeConnecting (hguard hheld hlive hexternal)
          exact hwrite.perform (by simp [IsRest, Action.isPlain])
        · split
          · exact h
          · obtain ⟨hstart, hrest⟩ := lawful_startTransport h setup result
            exact hstart.perform hrest
    | close =>
      rw [task]
      split
      · exact h
      · exact hclose.perform isRest_closeImpl
    | beginDestroy onOwner =>
      rw [task]
      split
      · exact h
      next hfirst =>
        refine h.of_same rfl rfl rfl ?_ (fun _ => rfl)
        intro hmay
        have hkept : p.deferredDestroy = false := by
          by_contra hdeferred
          exact hfirst (h.deferred (by simpa using hdeferred))
        have hreports : (p.onState && !onOwner) = true := hmay
        rw [Bool.and_eq_true] at hreports
        rw [mayReport, hreports.1, hkept]
        rfl
    | finishDestroy =>
      rw [task]
      split
      · refine hclose.perform ?_
        intro action haction
        rcases mem_append.mp haction with hin | hin
        · exact isRest_closeImpl action hin
        · rw [mem_singleton.mp hin]
          rfl
      · exact h
    | poll established =>
      rw [task]
      split
      · exact h
      · exact h.perform (by simp [IsRest, Action.isPlain])
    | packet fed result records ending =>
      rw [task]
      split
      · exact h
      · exact h.perform (isRest_handleIncoming result records ending)
    | stream event => exact h.perform (isRest_streamState event)
    | timer report => exact h.perform (by simp [task, IsRest, Action.isPlain])
    | callbackReturns =>
      rw [task]
      split
      · exact h
      next rest frames hfrs =>
        rcases h.frames rest (by rw [hfrs]; simp) with hrest | ⟨old, after, rfl, hafter⟩
        · exact (h.pop hfrs hrest).perform hrest
        · refine perform_of_keeps ?_ (fun q hq => hq.perform hafter)
          exact keeps_afterCallback (h.publishFailed hfrs) hafter

/-- The state of a peer and what its handlers are told, over a whole run. -/
structure StateLaw (p : PeerLife) : Prop where
  linked : (movesOf p.log).IsChain (fun earlier later => earlier.2 = later.1)
  allowed : ∀ m ∈ movesOf p.log, stateTransitionAllowed m.1 m.2 = true
  settled : (movesOf p.log).Pairwise (fun earlier later => MayFollow earlier.2 later.2)
  current : ∀ m ∈ (movesOf p.log).getLast?, m.2 = p.state
  reported : ((reportsOf p.log).map StateReport.move).Sublist (movesOf p.log)
  chained : (reportsOf p.log).IsChain (Chains (movesOf p.log))
  closedOnce : (reportsOf p.log).countP (fun r => r.target == .closed) ≤ 1
  errorOnce : (errorsOf p.log).length ≤ 1
  notFailedLate : (reportsOf p.log).Pairwise (fun earlier later =>
    earlier.target = .disconnecting ∨ earlier.target = .closed → later.target ≠ .failed)

theorem countP_le_one {α : Type*} {P : α → Bool} {R : α → α → Prop} {l : List α} (h : l.Pairwise R)
    (hself : ∀ a b, R a b → P a = true → P b = true → False) : l.countP P ≤ 1 := by
  induction l with
  | nil => simp
  | cons a l ih =>
    rw [pairwise_cons] at h
    by_cases ha : P a = true
    · have hnone : l.countP P = 0 := by
        rw [countP_eq_zero]
        intro b hb hPb
        exact hself a b (h.1 b hb) ha hPb
      rw [countP_cons_of_pos ha, hnone]
    · rw [countP_cons_of_neg ha]
      exact ih h.2

theorem Lawful.stateLaw (h : Lawful p) : StateLaw p := by
  have hmoves : movesOf p.log = (movesOf p.trace).reverse := filterMap_reverse ..
  have hreports : reportsOf p.log = (reportsOf p.trace).reverse := filterMap_reverse ..
  have herrors : errorsOf p.log = (errorsOf p.trace).reverse := filterMap_reverse ..
  have hset : (movesOf p.log).Pairwise (fun earlier later =>
      MayFollow earlier.2 later.2) := by
    rw [hmoves, pairwise_reverse]
    exact h.trail.ordered
  have hreported : ((reportsOf p.log).map StateReport.move).Sublist (movesOf p.log) := by
    rw [hmoves, hreports, map_reverse]
    exact h.reported.reverse
  have hfollow : (reportsOf p.log).Pairwise (fun earlier later =>
      MayFollow earlier.target later.target) := by
    have hmapped := hset.sublist hreported
    rwa [pairwise_map] at hmapped
  refine ⟨?_, ?_, hset, ?_, hreported, ?_, ?_, ?_, ?_⟩
  · rw [hmoves]
    exact h.trail.linked_swap
  · intro m hm
    rw [hmoves, mem_reverse] at hm
    exact (h.trail.allowed m hm).1
  · rw [hmoves, getLast?_reverse]
    exact h.trail.current
  · rw [hreports, isChain_reverse]
    refine h.chained.imp (fun later earlier hchains => ?_)
    rcases hchains with hsame | ⟨hfail, hduring, hmem⟩
    · exact .inl hsame
    · exact .inr ⟨hfail, hduring, by rw [hmoves]; exact mem_reverse.mpr hmem⟩
  · refine countP_le_one hfollow (fun a b hab ha _ => hab.1 ?_)
    simpa using ha
  · rw [herrors, length_reverse]
    refine h.errors.trans (countP_le_one h.trail.ordered ?_)
    intro later earlier hab hlater hearlier
    have hnext := hab.2.2 (by simpa using hearlier)
    rw [beq_iff_eq.mp hlater] at hnext
    simp at hnext
  · refine hfollow.imp (fun hab hterminal hfail => ?_)
    rcases hterminal with hdisconnecting | hclosed
    · have hnext := hab.2.1 hdisconnecting
      rw [hfail] at hnext
      cases hnext
    · exact hab.1 hclosed

/-- Over every run, with calls nested in callbacks in any way, in which connect on an external
transport comes while the peer is NEW or CONNECTING, the state moves as
`dc_state_transition_allowed` says and the handlers are told of its moves. -/
theorem peer_state_law (isServer : Bool) (transport : DcTransport)
    (disableSctp onState onError : Bool) (inputs : List PeerInput)
    (hguard : lifeMachine.Along Guarded
      (.create isServer transport disableSctp onState onError) inputs) :
    StateLaw (lifeMachine.run (.create isServer transport disableSctp onState onError) inputs) := by
  refine Lawful.stateLaw (lifeMachine.run_invariant_along ?_ ?_ hguard)
  · exact fun p input hinput h => h.next hinput
  · exact lawful_create isServer transport disableSctp onState onError

theorem peer_state_law_external :
    StateLaw (lifeMachine.run (.create false .ice true true true)
      [.setExternalTransport true true, .connect .ready (.finished none), .callbackReturns,
        .close]) :=
  peer_state_law false .ice true true true _
    ⟨trivial, fun _ _ _ => .inl rfl, trivial, trivial, trivial⟩

/-- A direct server whose handshake fails, closed by its `on_error`. -/
def closedInError : List PeerInput :=
  [.connect .ready (.unfinished .wantMore), .callbackReturns,
    .packet false (.unfinished .fatal) [] .wantMore, .close, .callbackReturns, .callbackReturns,
    .callbackReturns]

/-- A peer that is closed by `on_error` never publishes FAILED: the next call of `on_state` begins
with a state that no call has ended with. -/
theorem close_in_error_breaks_chain :
    reportsOf (lifeMachine.run (.create true .udp false true true) closedInError).log =
        [⟨.new, .connecting, false⟩, ⟨.failed, .disconnecting, true⟩,
          ⟨.disconnecting, .closed, true⟩] ∧
      ¬ (reportsOf (lifeMachine.run (.create true .udp false true true) closedInError).log).IsChain
        (fun first second => first.target = second.old) := by
  decide

end TurboMedia.DataChannel
