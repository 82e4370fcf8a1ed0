import TurboMedia.DataChannel.OwnerThread

/-!
# Commands are run once, for their callers

What `dc_post_sync` returns, against what the owner thread has run.

**Input.**  Any sequence of steps, of any number of threads, that starts with a new context.

**Method.**  Two invariants.  `Links`: the peer of a call is linked as long as the call lasts,
because operations are counted and a peer is unlinked by one call alone, after they have
drained; so no call is left when the owner is told to stop (`Links.quiet`).  `Slot`: the
slot belongs to the one call that waits, and how often its command was started and has
returned can be read off the owner and the flags (`DcContext.expected`).
-/

namespace TurboMedia.DataChannel

open Function DcContext CallPc CallKind LinkedPeer

variable {s s' : DcContext}

section Links

/-- The call has been admitted and has not released its peer. -/
def CallPc.works : CallPc → Bool
  | .unused => false
  | .draining => false
  | .ended => false
  | _ => true

/-- The call has begun and has not released its peer. -/
def CallPc.alive (pc : CallPc) : Bool :=
  pc == .draining || pc.works

def CallKind.retires (kind : CallKind) (j : ℕ) : Prop :=
  kind = .destroyer j ∨ kind = .reaper j

/-- What the calls rely on: the peer of a call is linked as long as the call lasts. -/
structure Links (s : DcContext) : Prop where
  freshCall : ∀ c, s.callCount ≤ c → (s.calls c).pc = .unused
  freshPeer : ∀ j, s.peerCount ≤ j → (s.peers j).linked = false
  operation : ∀ c j, (s.calls c).kind = .operation j → (s.calls c).pc.alive = true →
    (s.peers j).linked = true ∧ c ∈ (s.peers j).active
  destroyer : ∀ c j, (s.calls c).kind = .destroyer j → (s.calls c).pc.alive = true →
    (s.peers j).linked = true ∧ (s.peers j).destroying = true ∧
      (s.peers j).deferredDestroy = false ∧ ((s.calls c).pc.works = true → (s.peers j).active = [])
  reaper : ∀ c j, (s.calls c).kind = .reaper j → (s.calls c).pc.alive = true →
    (s.peers j).linked = true ∧ (s.peers j).destroying = true ∧
      (s.peers j).deferredDestroy = true ∧ (s.peers j).active = [] ∧ c ∈ s.inlined
  deferred : ∀ j, (s.peers j).deferredDestroy = true → (s.peers j).destroying = true
  unique : ∀ c c' j, (s.calls c).kind.retires j → (s.calls c').kind.retires j →
    (s.calls c).pc.alive = true → (s.calls c').pc.alive = true → c = c'
  admission : ∀ c, (s.calls c).kind = .admission → (s.calls c).pc ≠ .unused →
    s.destroying = true
  single : ∀ c c', (s.calls c).kind = .admission → (s.calls c').kind = .admission →
    (s.calls c).pc ≠ .unused → (s.calls c').pc ≠ .unused → c = c'
  drained : ∀ c, (s.calls c).kind = .admission → (s.calls c).pc = .ended →
    ∀ j, (s.peers j).linked = false
  stopped : s.stopRequested = true →
    ∃ c, (s.calls c).kind = .admission ∧ (s.calls c).pc = .ended

theorem links_create : Links .create := by
  constructor <;> simp [create, alive, works, retires]

/-- A call that moves on while it works. -/
theorem Links.of_moved (h : Links s) (hpeers : s'.peers = s.peers ∧ s'.peerCount = s.peerCount)
    (hflags : s'.destroying = s.destroying ∧ s'.stopRequested = s.stopRequested)
    (hcount : s'.callCount = s.callCount) (hinlined : s'.inlined = s.inlined)
    (hkind : ∀ c, (s'.calls c).kind = (s.calls c).kind)
    (hpc : ∀ c, (s'.calls c).pc = (s.calls c).pc ∨
      ((s.calls c).pc.works = true ∧ (s'.calls c).pc.works = true)) : Links s' := by
  have hworks : ∀ c, (s'.calls c).pc.works = (s.calls c).pc.works := by
    intro c
    rcases hpc c with hsame | ⟨hold, hnew⟩
    · rw [hsame]
    · rw [hold, hnew]
  have halive : ∀ c, (s'.calls c).pc.alive = (s.calls c).pc.alive := by
    intro c
    rcases hpc c with hsame | ⟨hold, hnew⟩
    · rw [hsame]
    · simp [alive, hold, hnew]
  have hunused : ∀ c, (s'.calls c).pc = .unused ↔ (s.calls c).pc = .unused := by
    intro c
    rcases hpc c with hsame | ⟨hold, hnew⟩
    · rw [hsame]
    · constructor <;> intro heq <;> simp [heq, works] at hold hnew
  have hended : ∀ c, (s'.calls c).pc = .ended ↔ (s.calls c).pc = .ended := by
    intro c
    rcases hpc c with hsame | ⟨hold, hnew⟩
    · rw [hsame]
    · constructor <;> intro heq <;> simp [heq, works] at hold hnew
  constructor <;>
    simp [hpeers, hflags, hcount, hinlined, hkind, hworks, halive, hunused, hended]
  · exact h.freshCall
  · exact h.freshPeer
  · exact h.operation
  · exact h.destroyer
  · exact h.reaper
  · exact h.deferred
  · exact h.unique
  · exact h.admission
  · exact h.single
  · exact h.drained
  · exact h.stopped

theorem Links.setPc {c : ℕ} {pc : CallPc} (h : Links s) (hold : (s.calls c).pc.works = true)
    (hnew : pc.works = true) : Links (s.setPc c pc) := by
  refine h.of_moved ⟨rfl, rfl⟩ ⟨rfl, rfl⟩ rfl rfl ?_ ?_
  · intro c'
    by_cases heq : c' = c <;> simp [DcContext.setPc, heq]
  · intro c'
    by_cases heq : c' = c
    · subst heq
      exact .inr ⟨hold, by simpa [DcContext.setPc] using hnew⟩
    · simp [DcContext.setPc, heq]

theorem Links.of_same (h : Links s) (hpeers : s'.peers = s.peers ∧ s'.peerCount = s.peerCount)
    (hflags : s'.destroying = s.destroying ∧ s'.stopRequested = s.stopRequested)
    (hcount : s'.callCount = s.callCount) (hinlined : s'.inlined = s.inlined)
    (hcalls : ∀ c, (s'.calls c).kind = (s.calls c).kind ∧ (s'.calls c).pc = (s.calls c).pc) :
    Links s' :=
  h.of_moved hpeers hflags hcount hinlined (fun c => (hcalls c).1) (fun c => .inl (hcalls c).2)

theorem links_createPeer (h : Links s) (hstep : s.createPeer = some s') : Links s' := by
  rw [createPeer] at hstep
  split at hstep
  · cases hstep
  next hopen =>
    cases hstep
    obtain ⟨h1, h2, h3, h4, h5, h6, h7, h8, h9, h10, h11⟩ := h
    constructor <;> simp only [setPeer, update_apply] <;> grind

theorem links_acquire {j : ℕ} {pc : CallPc} {starts : ℕ} (h : Links s)
    (hadmits : s.admits j = true) : Links (s.acquire j pc starts) := by
  rw [admits] at hadmits
  obtain ⟨h1, h2, h3, h4, h5, h6, h7, h8, h9, h10, h11⟩ := h
  constructor <;>
    simp only [acquire, newCall, setPeer, update_apply] <;>
    grind [retires, alive, works]

variable (h : Links s)
include h

theorem links_destroyPeer {j : ℕ} (hstep : s.destroyPeer j = some s') : Links s' := by
  rw [destroyPeer] at hstep
  split at hstep
  next hadmits =>
    cases hstep
    rw [admits] at hadmits
    obtain ⟨h1, h2, h3, h4, h5, h6, h7, h8, h9, h10, h11⟩ := h
    constructor <;>
      simp only [newCall, setPeer, update_apply] <;>
      grind [retires, alive, works]
  · cases hstep

theorem links_drained {c : ℕ} (hstep : s.drained c = some s') : Links s' := by
  rw [drained] at hstep
  split at hstep
  next j hkind =>
    split at hstep
    next hdrained =>
      cases hstep
      obtain ⟨h1, h2, h3, h4, h5, h6, h7, h8, h9, h10, h11⟩ := h
      constructor <;> simp only [setPc, update_apply] <;>
        grind [retires, alive, works]
    · cases hstep
  · cases hstep

theorem links_destroyContext (hopen : s.destroying = false) :
    Links ({ s with destroying := true }.newCall .admission .admitted 0) := by
  obtain ⟨h1, h2, h3, h4, h5, h6, h7, h8, h9, h10, h11⟩ := h
  constructor <;> simp only [newCall, update_apply] <;>
    grind [retires, alive, works]

theorem Links.unlink {c j : ℕ} (hretires : (s.calls c).kind.retires j)
    (hworks : (s.calls c).pc.works = true) :
    Links ((s.setPeer j { s.peers j with linked := false }).setPc c .ended) := by
  have hnot : (s.calls c).kind ≠ .admission := by
    rcases hretires with hkind | hkind <;> simp [hkind]
  obtain ⟨h1, h2, h3, h4, h5, h6, h7, h8, h9, h10, h11⟩ := h
  constructor <;> simp only [DcContext.setPc, DcContext.setPeer, update_apply] <;>
    grind [retires, alive, works]

/-- A call gives back its peer, or unlinks it at the end. -/
theorem links_release {c : ℕ} (hstep : s.release c = some s') : Links s' := by
  rw [release] at hstep
  split at hstep
  next status j hpc hkind =>
    cases hstep
    obtain ⟨h1, h2, h3, h4, h5, h6, h7, h8, h9, h10, h11⟩ := h
    constructor <;> simp only [setPc, setPeer, update_apply] <;>
      grind [retires, alive, works]
  next j hpc hkind =>
    cases hstep
    exact h.unlink (.inl hkind) (by rw [hpc]; rfl)
  next j hpc hkind =>
    cases hstep
    obtain ⟨h1, h2, h3, h4, h5, h6, h7, h8, h9, h10, h11⟩ := h
    constructor <;> simp only [setPc, update_apply] <;>
      grind [retires, alive, works]
  · cases hstep

theorem links_peersDrained {c : ℕ} (hstep : s.peersDrained c = some s') :
    Links s' := by
  rw [peersDrained] at hstep
  split at hstep
  next status hpc hkind =>
    split at hstep
    next hnone =>
      cases hstep
      have hunlinked : ∀ j, (s.peers j).linked = false := by
        intro j
        by_cases hj : j < s.peerCount
        · exact hnone j hj
        · exact h.freshPeer j (by omega)
      obtain ⟨h1, h2, h3, h4, h5, h6, h7, h8, h9, h10, h11⟩ := h
      constructor <;> simp only [setPc, update_apply] <;>
        grind [retires, alive, works]
    · cases hstep
  · cases hstep

theorem links_stop {c : ℕ} (hstep : s.stop c = some s') : Links s' := by
  rw [stop] at hstep
  split at hstep
  next hended =>
    cases hstep
    exact ⟨h.freshCall, h.freshPeer, h.operation, h.destroyer, h.reaper, h.deferred, h.unique,
      h.admission, h.single, h.drained, fun _ => ⟨c, hended.2, hended.1⟩⟩
  · cases hstep

theorem links_defer {j : ℕ} (hadmits : s.admits j = true) :
    Links (s.setPeer j (s.peers j).defer) := by
  rw [admits] at hadmits
  obtain ⟨h1, h2, h3, h4, h5, h6, h7, h8, h9, h10, h11⟩ := h
  constructor <;>
    simp only [setPeer, defer, hadmits, if_true, update_apply] <;>
    grind

theorem links_closeAdmission : Links s.closeAdmission := by
  have hlinked : ∀ peer : LinkedPeer, peer.defer.linked = peer.linked := by
    intro peer
    rw [defer]
    split <;> rfl
  have hact : ∀ peer : LinkedPeer, peer.defer.active = peer.active := by
    intro peer
    rw [defer]
    split <;> rfl
  have hdestroying : ∀ peer : LinkedPeer, peer.destroying = true → peer.defer = peer := by
    intro peer hpeer
    simp [defer, hpeer]
  have hdeferred : ∀ peer : LinkedPeer, (peer.deferredDestroy = true → peer.destroying = true) →
        peer.defer.deferredDestroy = true → peer.defer.destroying = true := by
    intro peer hpeer
    rw [defer]
    split
    · exact fun _ => rfl
    · exact hpeer
  obtain ⟨h1, h2, h3, h4, h5, h6, h7, h8, h9, h10, h11⟩ := h
  refine ⟨h1, ?_, ?_, ?_, ?_, fun j => hdeferred _ (h6 j), h7, h8, h9, ?_, h11⟩ <;>
    simp [closeAdmission, hlinked, hact]
  · exact h2
  · exact h3
  · intro c j hkind halive
    have hpeer := h4 c j hkind halive
    rw [hdestroying _ hpeer.2.1]
    exact hpeer
  · intro c j hkind halive
    have hpeer := h5 c j hkind halive
    rw [hdestroying _ hpeer.2.1]
    exact hpeer
  · exact h10

theorem links_reap {j : ℕ} (hstep : s.reap j = some s') : Links s' := by
  rw [reap] at hstep
  split at hstep
  next hready =>
    cases hstep
    obtain ⟨-, hinlined, hlinked, hdeferred, hidle⟩ := hready
    obtain ⟨h1, h2, h3, h4, h5, h6, h7, h8, h9, h10, h11⟩ := h
    constructor <;> simp only [newCall, update_apply] <;>
      grind [retires, alive, works]
  · cases hstep

theorem Links.of_inlined {l : List ℕ}
    (hl : ∀ c j, (s.calls c).kind = .reaper j → (s.calls c).pc.alive = true → c ∈ l) :
    Links { s with inlined := l } := by
  refine ⟨h.freshCall, h.freshPeer, h.operation, h.destroyer, ?_, h.deferred, h.unique,
    h.admission, h.single, h.drained, h.stopped⟩
  intro c j hkind halive
  obtain ⟨hlinked, hdestroying, hdeferred, hidle, -⟩ := h.reaper c j hkind halive
  exact ⟨hlinked, hdestroying, hdeferred, hidle, hl c j hkind halive⟩

/-- After the stop is requested no call works. -/
theorem Links.quiet (hstop : s.stopRequested = true) (c : ℕ)
    (hworks : (s.calls c).pc.works = true) : False := by
  obtain ⟨d, hd, hended⟩ := h.stopped hstop
  have hnone := h.drained d hd hended
  have halive : (s.calls c).pc.alive = true := by simp [alive, hworks]
  cases hkind : (s.calls c).kind with
  | operation j =>
    have hlinked := (h.operation c j hkind halive).1
    rw [hnone] at hlinked
    cases hlinked
  | destroyer j =>
    have hlinked := (h.destroyer c j hkind halive).1
    rw [hnone] at hlinked
    cases hlinked
  | reaper j =>
    have hlinked := (h.reaper c j hkind halive).1
    rw [hnone] at hlinked
    cases hlinked
  | admission =>
    have hused : (s.calls c).pc ≠ .unused := by
      intro hpc
      simp [hpc, works] at hworks
    have hsame := h.single c d hkind hd hused (by simp [hended])
    rw [hsame, hended] at hworks
    cases hworks

end Links

section Slot

/-- How often the command of a waiting call was started and has returned. -/
def DcContext.progress (s : DcContext) : ℕ × ℕ :=
  if s.done then (1, 1)
  else
    match s.owner with
    | .running _ => (1, 0)
    | .ran _ => (1, 1)
    | _ => (0, 0)

/-- How often the command of a call was started and has returned. -/
def DcContext.expected (s : DcContext) : CallPc → ℕ × ℕ
  | .unused => (0, 0)
  | .draining => (0, 0)
  | .admitted => (0, 0)
  | .waiting => s.progress
  | .inlined => (1, 0)
  | .left => (1, 1)
  | .returned _ => (1, 1)
  | .ended => (1, 1)

/-- The call whose command the owner has taken from the slot. -/
def OwnerPc.task : OwnerPc → Option ℕ
  | .picked c => some c
  | .running c => some c
  | .ran c => some c
  | _ => none

/-- The slot belongs to the call that waits, and the owner works for it. -/
structure Slot (s : DcContext) : Prop where
  waiting : ∀ c, (s.calls c).pc = .waiting → s.pending = true ∧ s.command = c
  held : s.pending = true → (s.calls s.command).pc = .waiting
  task : ∀ c, s.owner.task = some c → s.pending = true ∧ s.done = false ∧ s.command = c
  inlined : ∀ c, (s.calls c).pc = .inlined ↔ c ∈ s.inlined
  nodup : s.inlined.Nodup
  counts : ∀ c, ((s.calls c).starts, (s.calls c).finishes) = s.expected (s.calls c).pc
  ok : ∀ c, (s.calls c).pc ≠ .returned .shutdown
  reaps : ∀ c j, (s.calls c).kind = .reaper j → (s.calls c).pc = .unused ∨
    (s.calls c).pc = .inlined ∨ (s.calls c).pc = .ended

theorem slot_create : Slot .create := by
  constructor <;> simp [create, expected, OwnerPc.task]

theorem Slot.of_same (h : Slot s) (hcalls : s'.calls = s.calls)
    (hslot : s'.pending = s.pending ∧ s'.done = s.done ∧ s'.command = s.command)
    (howner : s'.owner = s.owner ∧ s'.inlined = s.inlined) : Slot s' := by
  have hexp : ∀ pc, s'.expected pc = s.expected pc := by
    intro pc
    cases pc <;> simp [expected, progress, hslot, howner]
  constructor <;> simp only [hcalls, hslot, howner, hexp]
  · exact h.waiting
  · exact h.held
  · exact h.task
  · exact h.inlined
  · exact h.nodup
  · exact h.counts
  · exact h.ok
  · exact h.reaps

/-- A call outside the slot moves on. -/
theorem Slot.setPc {c : ℕ} {pc : CallPc} (h : Slot s)
    (hcounts : s.expected (s.calls c).pc = s.expected pc)
    (hold : (s.calls c).pc ≠ .waiting ∧ (s.calls c).pc ≠ .inlined)
    (hnew : pc ≠ .waiting ∧ pc ≠ .inlined ∧ pc ≠ .returned .shutdown)
    (hreaps : ∀ j, (s.calls c).kind ≠ .reaper j) : Slot (s.setPc c pc) := by
  obtain ⟨h1, h2, h3, h4, h5, h6, h7, h8⟩ := h
  have hexp : ∀ pc', (s.setPc c pc).expected pc' = s.expected pc' := by
    intro pc'
    cases pc' <;> rfl
  constructor
  case counts =>
    intro c'
    rw [hexp]
    simp only [DcContext.setPc, update_apply]
    grind
  all_goals
    simp only [DcContext.setPc, update_apply]
    grind

theorem Slot.newCall {kind : CallKind} {pc : CallPc} (h : Slot s)
    (hfresh : (s.calls s.callCount).pc = .unused) (hpc : pc = .draining ∨ pc = .admitted)
    (hkind : ∀ j, kind ≠ .reaper j) : Slot (s.newCall kind pc 0) := by
  obtain ⟨h1, h2, h3, h4, h5, h6, h7, h8⟩ := h
  have hexp : ∀ pc', (s.newCall kind pc 0).expected pc' = s.expected pc' := by
    intro pc'
    cases pc' <;> rfl
  constructor
  case counts =>
    intro c'
    rw [hexp]
    simp only [DcContext.newCall, update_apply]
    grind [DcContext.expected]
  all_goals
    simp only [DcContext.newCall, update_apply]
    grind

theorem Slot.newInlined {kind : CallKind} (h : Slot s)
    (hfresh : (s.calls s.callCount).pc = .unused) :
    Slot { s.newCall kind .inlined 1 with inlined := s.callCount :: s.inlined } := by
  obtain ⟨h1, h2, h3, h4, h5, h6, h7, h8⟩ := h
  have hexp : ∀ pc', DcContext.expected
      { s.newCall kind .inlined 1 with inlined := s.callCount :: s.inlined } pc' =
        s.expected pc' := by
    intro pc'
    cases pc' <;> rfl
  constructor
  case counts =>
    intro c'
    rw [hexp]
    simp only [DcContext.newCall, update_apply]
    grind [DcContext.expected]
  all_goals
    simp only [DcContext.newCall, update_apply]
    grind

variable (h : Slot s)
include h

/-- A call puts its command into the free slot. -/
theorem slot_enter {c : ℕ} (hlinks : Links s) (hstep : s.enter c = some s') :
    Slot s' := by
  rw [enter] at hstep
  split at hstep
  next hfree =>
    split at hstep
    next hstop => exact (hlinks.quiet hstop c (by rw [hfree.1]; rfl)).elim
    next hopen =>
      cases hstep
      have hidle : s.pending = false := hfree.2.resolve_right hopen
      have htask : s.owner.task = none := by
        cases htask : s.owner.task with
        | none => rfl
        | some d => exact absurd (h.task d htask).1 (by simp [hidle])
      obtain ⟨h1, h2, h3, h4, h5, h6, h7, h8⟩ := h
      have hexp : ∀ pc', pc' ≠ .waiting → expected
          { s.setPc c .waiting with command := c, done := false, pending := true } pc' =
            s.expected pc' := by
        intro pc' hne
        cases pc' <;> first | rfl | exact absurd rfl hne
      have hfirst : expected
          { s.setPc c .waiting with command := c, done := false, pending := true } .waiting =
            (0, 0) := by
        cases howner : s.owner <;>
          simp_all [expected, progress, setPc, OwnerPc.task]
      constructor
      case counts =>
        intro c'
        by_cases heq : c' = c
        · subst heq
          have hbef := h6 c'
          rw [hfree.1] at hbef
          simp only [setPc, update_self]
          exact hbef.trans hfirst.symm
        · have hother : (s.calls c').pc ≠ .waiting := fun hpc => by
            simp [(h1 c' hpc).1] at hidle
          simp only [setPc, update_of_ne heq]
          exact (h6 c').trans (hexp _ hother).symm
      all_goals
        simp only [setPc, update_apply]
        grind
  · cases hstep

/-- A call leaves the slot free for the next one. -/
theorem slot_leave {c : ℕ} (hlinks : Links s) (hstep : s.leave c = some s') :
    Slot s' := by
  rw [leave] at hstep
  split at hstep
  next hready =>
    cases hstep
    obtain ⟨hpc, hready⟩ := hready
    have hdone : s.done = true := by
      rcases hready with hdone | hstop
      · exact hdone
      · exact (hlinks.quiet hstop c (by rw [hpc]; rfl)).elim
    have htask : s.owner.task = none := by
      cases htask : s.owner.task with
      | none => rfl
      | some d => exact absurd (h.task d htask).2.1 (by simp [hdone])
    obtain ⟨h1, h2, h3, h4, h5, h6, h7, h8⟩ := h
    have hexp : ∀ pc', expected { s.setPc c .left with pending := false } pc' =
        s.expected pc' := by
      intro pc'
      cases pc' <;> rfl
    constructor
    case counts =>
      intro c'
      rw [hexp]
      simp only [setPc, update_apply]
      grind [expected, progress]
    all_goals
      simp only [setPc, update_apply]
      grind
  · cases hstep

theorem slot_readStop {c : ℕ} (hlinks : Links s) (hstep : s.readStop c = some s') :
    Slot s' := by
  rw [readStop] at hstep
  split at hstep
  next hleft =>
    cases hstep
    have hopen : s.stopRequested = false := by
      by_contra hstop
      exact hlinks.quiet (by simpa using hstop) c (by rw [hleft]; rfl)
    rw [hopen]
    refine h.setPc (by rw [hleft]; rfl) (by simp [hleft]) (by simp) ?_
    intro j hkind
    have hreaper := h.reaps c j hkind
    simp [hleft] at hreaper
  · cases hstep

theorem slot_release {c : ℕ} (hstep : s.release c = some s') : Slot s' := by
  have hpeer : ∀ j peer, Slot (s.setPeer j peer) := fun j peer =>
    h.of_same rfl ⟨rfl, rfl, rfl⟩ ⟨rfl, rfl⟩
  rw [release] at hstep
  split at hstep
  next status j hpc hkind =>
    cases hstep
    refine (hpeer j _).setPc ?_ ?_ (by simp) ?_
    · simp only [setPeer, hpc]
      rfl
    · simp [setPeer, hpc]
    · simp [setPeer, hkind]
  next j hpc hkind =>
    cases hstep
    refine (hpeer j _).setPc ?_ ?_ (by simp) ?_
    · simp only [setPeer, hpc]
      rfl
    · simp [setPeer, hpc]
    · simp [setPeer, hkind]
  next hpc hkind => exact absurd hpc (h.ok c)
  · cases hstep

theorem slot_pick (hstep : s.pick = some s') : Slot s' := by
  rw [pick] at hstep
  split at hstep
  next hready =>
    cases hstep
    obtain ⟨howner, -, -, hpend, hdone⟩ := hready
    have hexp : ∀ pc', expected { s with owner := .picked s.command } pc' =
        s.expected pc' := by
      intro pc'
      cases pc' <;> simp [expected, progress, howner]
    refine ⟨h.waiting, h.held, ?_, h.inlined, h.nodup, ?_, h.ok, h.reaps⟩
    · intro c htask
      exact ⟨hpend, hdone, Option.some.inj htask⟩
    · intro c
      rw [hexp]
      exact h.counts c
  · cases hstep

/-- The command in the slot is that of the only call that waits. -/
theorem Slot.working {c : ℕ} (htask : s.owner.task = some c) :
    (s.calls c).pc = .waiting ∧ ∀ c', (s.calls c').pc = .waiting → c' = c := by
  obtain ⟨hpend, -, hcmd⟩ := h.task c htask
  refine ⟨hcmd ▸ h.held hpend, fun c' hc' => ?_⟩
  exact (h.waiting c' hc').2.symm.trans hcmd

theorem slot_start (hstep : s.start = some s') : Slot s' := by
  rw [start] at hstep
  split at hstep
  next c howner =>
    cases hstep
    have htask : s.owner.task = some c := by rw [howner]; rfl
    obtain ⟨hpc, huniq⟩ := h.working htask
    obtain ⟨h1, h2, h3, h4, h5, h6, h7, h8⟩ := h
    have hdone := (h3 c htask).2.1
    constructor
    case counts =>
      intro c'
      have hcounts := h6 c'
      by_cases heq : c' = c
      · subst heq
        rw [hpc] at hcounts
        simp only [expected, progress, hdone, howner, Prod.mk.injEq,
          Bool.false_eq_true, if_false] at hcounts
        simp [starting, expected, progress, hpc, hdone, hcounts]
      · have hother : (s.calls c').pc ≠ .waiting := fun hc' => heq (huniq c' hc')
        simp only [starting, update_of_ne heq]
        rw [hcounts]
        cases hpc' : (s.calls c').pc <;> first | rfl | exact absurd hpc' hother
    all_goals
      simp only [starting, update_apply]
      grind [OwnerPc.task]
  · cases hstep

theorem slot_finish (hstep : s.finish = some s') : Slot s' := by
  rw [finish] at hstep
  split at hstep
  next c howner =>
    split at hstep
    next hinlined =>
      cases hstep
      have htask : s.owner.task = some c := by rw [howner]; rfl
      obtain ⟨hpc, huniq⟩ := h.working htask
      have hran : Slot { s.finishing c with owner := .ran c } := by
        obtain ⟨h1, h2, h3, h4, h5, h6, h7, h8⟩ := h
        have hdone := (h3 c htask).2.1
        constructor
        case counts =>
          intro c'
          have hcounts := h6 c'
          by_cases heq : c' = c
          · subst heq
            rw [hpc] at hcounts
            simp only [expected, progress, hdone, howner, Prod.mk.injEq,
              Bool.false_eq_true, if_false] at hcounts
            simp [finishing, expected, progress, hpc, hdone, hcounts]
          · have hother : (s.calls c').pc ≠ .waiting := fun hc' => heq (huniq c' hc')
            simp only [finishing, update_of_ne heq]
            rw [hcounts]
            cases hpc' : (s.calls c').pc <;> first | rfl | exact absurd hpc' hother
        all_goals
          simp only [finishing, update_apply]
          grind [OwnerPc.task]
      split
      · exact hran.of_same rfl ⟨rfl, rfl, rfl⟩ ⟨rfl, rfl⟩
      · exact hran
    · cases hstep
  · cases hstep

theorem slot_complete (hstep : s.complete = some s') : Slot s' := by
  rw [complete] at hstep
  split at hstep
  next c howner =>
    cases hstep
    have htask : s.owner.task = some c := by rw [howner]; rfl
    have hdone := (h.task c htask).2.1
    have hexp : ∀ pc', expected { s with done := true, owner := .loop } pc' =
        s.expected pc' := by
      intro pc'
      cases pc' <;> simp [expected, progress, howner, hdone]
    refine ⟨h.waiting, h.held, fun d hd => (by cases hd), h.inlined, h.nodup, ?_, h.ok, h.reaps⟩
    intro c'
    rw [hexp]
    exact h.counts c'
  · cases hstep

theorem slot_exit (hstep : s.exit = some s') : Slot s' := by
  rw [exit] at hstep
  split at hstep
  next hready =>
    cases hstep
    have hexp : ∀ pc', expected { s with owner := .stopped } pc' =
        s.expected pc' := by
      intro pc'
      cases pc' <;> simp [expected, progress, hready.1]
    refine ⟨h.waiting, h.held, fun d hd => (by cases hd), h.inlined, h.nodup, ?_, h.ok, h.reaps⟩
    intro c'
    rw [hexp]
    exact h.counts c'
  · cases hstep

theorem Slot.endInlined {c : ℕ} {rest : List ℕ} {pc : CallPc} (hinlined : s.inlined = c :: rest)
    (hpc : pc = .ended ∨ (pc = .returned .ok ∧ ∀ j, (s.calls c).kind ≠ .reaper j)) :
    Slot ({ s.finishing c with inlined := rest }.setPc c pc) := by
  obtain ⟨h1, h2, h3, h4, h5, h6, h7, h8⟩ := h
  have hexp : ∀ pc', ({ s.finishing c with inlined := rest }.setPc c pc).expected pc' =
      s.expected pc' := by
    intro pc'
    cases pc' <;> rfl
  have hnot : c ∉ rest := by
    rw [hinlined] at h5
    exact (List.nodup_cons.mp h5).1
  constructor
  case counts =>
    intro c'
    rw [hexp]
    simp only [DcContext.finishing, DcContext.setPc, update_apply]
    grind [DcContext.expected]
  all_goals
    simp only [DcContext.finishing, DcContext.setPc, update_apply]
    grind

end Slot

/-- What holds of a context at any time. -/
structure Orderly (s : DcContext) : Prop where
  links : Links s
  slot : Slot s

theorem orderly_acquire {j : ℕ} (h : Orderly s) (hadmits : s.admits j = true) :
    Orderly (s.acquire j .admitted 0) := by
  refine ⟨links_acquire h.links hadmits, ?_⟩
  refine Slot.newCall (s := s.setPeer j _) ?_ ?_ (.inr rfl) (by simp)
  · exact h.slot.of_same rfl ⟨rfl, rfl, rfl⟩ ⟨rfl, rfl⟩
  · exact h.links.freshCall _ le_rfl

theorem orderly_inlineCall {j : ℕ} (h : Orderly s) (hstep : s.inlineCall j = some s') :
    Orderly s' := by
  rw [inlineCall] at hstep
  split at hstep
  next hready =>
    cases hstep
    refine ⟨(links_acquire h.links hready.2).of_inlined ?_, ?_⟩
    · intro c k hkind halive
      have hacquired := @links_acquire _ _ .inlined 1 h.links hready.2
      exact List.mem_cons_of_mem _ (hacquired.reaper c k hkind halive).2.2.2.2
    · refine Slot.newInlined (s := s.setPeer j _) ?_ ?_
      · exact h.slot.of_same rfl ⟨rfl, rfl, rfl⟩ ⟨rfl, rfl⟩
      · exact h.links.freshCall _ le_rfl
  · cases hstep

theorem orderly_reap {j : ℕ} (h : Orderly s) (hstep : s.reap j = some s') : Orderly s' := by
  refine ⟨links_reap h.links hstep, ?_⟩
  rw [reap] at hstep
  split at hstep
  next hready =>
    cases hstep
    have hslot := @Slot.newInlined _ (.reaper j) h.slot (h.links.freshCall _ le_rfl)
    rw [hready.2.1] at hslot
    exact hslot
  · cases hstep

theorem orderly_inlineFinish (h : Orderly s) (hstep : s.inlineFinish = some s') : Orderly s' := by
  rw [inlineFinish] at hstep
  split at hstep
  · cases hstep
  next c rest hinlined =>
    have hpc : (s.calls c).pc = .inlined := by
      rw [h.slot.inlined, hinlined]
      simp
    have hworks : (s.calls c).pc.works = true := by
      rw [hpc]
      rfl
    have hsame : ∀ c', ((s.finishing c).calls c').kind = (s.calls c').kind ∧
        ((s.finishing c).calls c').pc = (s.calls c').pc := by
      intro c'
      by_cases heq : c' = c <;> simp [finishing, heq]
    have hfinished : Links (s.finishing c) :=
      h.links.of_same ⟨rfl, rfl⟩ ⟨rfl, rfl⟩ rfl rfl hsame
    split at hstep
    next j hkind =>
      cases hstep
      constructor
      · have hunlinked := hfinished.unlink (j := j) (.inr ((hsame c).1.trans hkind))
          (by rw [(hsame c).2]; exact hworks)
        refine hunlinked.of_inlined ?_
        intro c' k hkind' halive'
        have hin := (hunlinked.reaper c' k hkind' halive').2.2.2.2
        change c' ∈ s.inlined at hin
        rw [hinlined, List.mem_cons] at hin
        refine hin.resolve_left ?_
        rintro rfl
        simp [setPc, alive, works] at halive'
      · refine (Slot.endInlined h.slot hinlined (.inl rfl)).of_same ?_ ⟨rfl, rfl, rfl⟩ ⟨rfl, rfl⟩
        rfl
    next hkind =>
      cases hstep
      constructor
      · have hret := @Links.setPc _ _ (.returned .ok) hfinished
          (by rw [(hsame c).2]; exact hworks) rfl
        refine hret.of_inlined ?_
        intro c' k hkind' halive'
        have hin := (hret.reaper c' k hkind' halive').2.2.2.2
        change c' ∈ s.inlined at hin
        rw [hinlined, List.mem_cons] at hin
        refine hin.resolve_left ?_
        rintro rfl
        simp only [setPc, update_self] at hkind'
        exact hkind k ((hsame c').1.symm.trans hkind')
      · exact h.slot.endInlined hinlined (.inr ⟨rfl, hkind⟩)

theorem links_moves (h : Links s) :
    (∀ c, s.enter c = some s' → Links s') ∧ (∀ c, s.leave c = some s' → Links s') ∧
      (∀ c, s.readStop c = some s' → Links s') := by
  refine ⟨fun c hstep => ?_, fun c hstep => ?_, fun c hstep => ?_⟩
  · rw [enter] at hstep
    split at hstep
    next hfree =>
      have hold : (s.calls c).pc.works = true := by
        rw [hfree.1]
        rfl
      split at hstep <;> cases hstep
      · exact h.setPc hold rfl
      · exact (h.setPc hold rfl).of_same ⟨rfl, rfl⟩ ⟨rfl, rfl⟩ rfl rfl
          (fun _ => ⟨rfl, rfl⟩)
    · cases hstep
  · rw [leave] at hstep
    split at hstep
    next hready =>
      cases hstep
      have hold : (s.calls c).pc.works = true := by
        rw [hready.1]
        rfl
      exact (h.setPc hold rfl).of_same ⟨rfl, rfl⟩ ⟨rfl, rfl⟩ rfl rfl (fun _ => ⟨rfl, rfl⟩)
    · cases hstep
  · rw [readStop] at hstep
    split at hstep
    next hleft =>
      cases hstep
      exact h.setPc (by rw [hleft]; rfl) rfl
    · cases hstep

theorem links_owner (h : Links s) :
    (s.pick = some s' → Links s') ∧ (s.start = some s' → Links s') ∧
      (s.finish = some s' → Links s') ∧ (s.complete = some s' → Links s') ∧
        (s.exit = some s' → Links s') := by
  have hsame : ∀ t : DcContext, t.peers = s.peers ∧ t.peerCount = s.peerCount →
      t.destroying = s.destroying ∧ t.stopRequested = s.stopRequested →
        t.callCount = s.callCount → t.inlined = s.inlined → t.calls = s.calls → Links t :=
    fun t hpeers hflags hcount hinlined hcalls =>
      h.of_same hpeers hflags hcount hinlined (fun c => by rw [hcalls]; exact ⟨rfl, rfl⟩)
  refine ⟨fun hstep => ?_, fun hstep => ?_, fun hstep => ?_, fun hstep => ?_, fun hstep => ?_⟩
  · rw [pick] at hstep
    split at hstep <;> cases hstep
    exact hsame _ ⟨rfl, rfl⟩ ⟨rfl, rfl⟩ rfl rfl rfl
  · rw [start] at hstep
    split at hstep
    next c howner =>
      cases hstep
      refine h.of_same ⟨rfl, rfl⟩ ⟨rfl, rfl⟩ rfl rfl (fun c' => ?_)
      by_cases heq : c' = c <;> simp [starting, heq]
    · cases hstep
  · rw [finish] at hstep
    split at hstep
    next c howner =>
      split at hstep
      · cases hstep
        have hran : Links { s.finishing c with owner := .ran c } := by
          refine h.of_same ⟨rfl, rfl⟩ ⟨rfl, rfl⟩ rfl rfl (fun c' => ?_)
          by_cases heq : c' = c <;> simp [finishing, heq]
        split
        · exact links_closeAdmission hran
        · exact hran
      · cases hstep
    · cases hstep
  · rw [complete] at hstep
    split at hstep <;> cases hstep
    exact hsame _ ⟨rfl, rfl⟩ ⟨rfl, rfl⟩ rfl rfl rfl
  · rw [exit] at hstep
    split at hstep <;> cases hstep
    exact hsame _ ⟨rfl, rfl⟩ ⟨rfl, rfl⟩ rfl rfl rfl

/-- Every step of every thread keeps order. -/
theorem orderly_step {step : HandoffStep} (h : Orderly s) (hstep : handoff.step s step = some s') :
    Orderly s' := by
  obtain ⟨hlinks, hslot⟩ := h
  have hfresh := hlinks.freshCall _ le_rfl
  have hpeers : ∀ t : DcContext, t.calls = s.calls →
      t.pending = s.pending ∧ t.done = s.done ∧ t.command = s.command →
        t.owner = s.owner ∧ t.inlined = s.inlined → Slot t := fun t => hslot.of_same
  cases step with
  | createPeer =>
    refine ⟨links_createPeer hlinks hstep, ?_⟩
    change s.createPeer = some s' at hstep
    rw [createPeer] at hstep
    split at hstep <;> cases hstep
    exact hpeers _ rfl ⟨rfl, rfl, rfl⟩ ⟨rfl, rfl⟩
  | acquire j =>
    change (if s.admits j then _ else _) = some s' at hstep
    split at hstep
    next hadmits =>
      cases hstep
      exact orderly_acquire ⟨hlinks, hslot⟩ hadmits
    · cases hstep
  | destroyPeer j =>
    refine ⟨links_destroyPeer hlinks hstep, ?_⟩
    change s.destroyPeer j = some s' at hstep
    rw [destroyPeer] at hstep
    split at hstep <;> cases hstep
    refine Slot.newCall (s := s.setPeer j _) ?_ hfresh (.inl rfl) (by simp)
    exact hpeers _ rfl ⟨rfl, rfl, rfl⟩ ⟨rfl, rfl⟩
  | drained c =>
    refine ⟨links_drained hlinks hstep, ?_⟩
    change s.drained c = some s' at hstep
    rw [drained] at hstep
    split at hstep
    next j hkind =>
      split at hstep
      next hready =>
        cases hstep
        refine hslot.setPc (by rw [hready.1]; rfl) ?_ ?_ ?_ <;> simp [hready.1, hkind]
      · cases hstep
    · cases hstep
  | destroyContext =>
    change (if s.destroying then _ else _) = some s' at hstep
    split at hstep
    · cases hstep
    next hopen =>
      cases hstep
      refine ⟨links_destroyContext hlinks (by simpa using hopen), ?_⟩
      refine Slot.newCall (s := { s with destroying := true }) ?_ hfresh (.inr rfl) (by simp)
      exact hpeers _ rfl ⟨rfl, rfl, rfl⟩ ⟨rfl, rfl⟩
  | enter c => exact ⟨(links_moves hlinks).1 c hstep, slot_enter hslot hlinks hstep⟩
  | leave c => exact ⟨(links_moves hlinks).2.1 c hstep, slot_leave hslot hlinks hstep⟩
  | readStop c => exact ⟨(links_moves hlinks).2.2 c hstep, slot_readStop hslot hlinks hstep⟩
  | release c => exact ⟨links_release hlinks hstep, slot_release hslot hstep⟩
  | peersDrained c =>
    refine ⟨links_peersDrained hlinks hstep, ?_⟩
    change s.peersDrained c = some s' at hstep
    rw [peersDrained] at hstep
    split at hstep
    next status hpc hkind =>
      split at hstep <;> cases hstep
      refine hslot.setPc (by rw [hpc]; rfl) ?_ ?_ ?_ <;> simp [hpc, hkind]
    · cases hstep
  | stop c =>
    refine ⟨links_stop hlinks hstep, ?_⟩
    change s.stop c = some s' at hstep
    rw [stop] at hstep
    split at hstep <;> cases hstep
    exact hpeers _ rfl ⟨rfl, rfl, rfl⟩ ⟨rfl, rfl⟩
  | pick => exact ⟨(links_owner hlinks).1 hstep, slot_pick hslot hstep⟩
  | start => exact ⟨(links_owner hlinks).2.1 hstep, slot_start hslot hstep⟩
  | finish => exact ⟨(links_owner hlinks).2.2.1 hstep, slot_finish hslot hstep⟩
  | complete => exact ⟨(links_owner hlinks).2.2.2.1 hstep, slot_complete hslot hstep⟩
  | exit => exact ⟨(links_owner hlinks).2.2.2.2 hstep, slot_exit hslot hstep⟩
  | inlineCall j => exact orderly_inlineCall ⟨hlinks, hslot⟩ hstep
  | inlineFinish => exact orderly_inlineFinish ⟨hlinks, hslot⟩ hstep
  | ownerDestroy j =>
    change s.ownerDestroy j = some s' at hstep
    rw [ownerDestroy] at hstep
    split at hstep
    next hready =>
      cases hstep
      exact ⟨links_defer hlinks hready.2, hpeers _ rfl ⟨rfl, rfl, rfl⟩ ⟨rfl, rfl⟩⟩
    · cases hstep
  | reap j => exact orderly_reap ⟨hlinks, hslot⟩ hstep

/-- What the callers and the destroyer of a context are promised. -/
structure HandoffSafe (s : DcContext) : Prop where
  /-- A caller that has its answer, or is about to take it, is one whose command has run. -/
  answered : ∀ c, (s.calls c).pc = .left ∨ (s.calls c).pc = .returned .ok →
    (s.calls c).starts = 1 ∧ (s.calls c).finishes = 1
  /-- What a waiting caller finds done is its own command. -/
  own : ∀ c, (s.calls c).pc = .waiting → s.done = true →
    (s.calls c).starts = 1 ∧ (s.calls c).finishes = 1
  /-- No command is run twice. -/
  once : ∀ c, (s.calls c).finishes ≤ (s.calls c).starts ∧ (s.calls c).starts ≤ 1
  /-- No caller is told of a shutdown, so that none has a command that runs on. -/
  noShutdown : ∀ c, (s.calls c).pc ≠ .returned .shutdown
  /-- When the owner is told to stop, no peer is linked and no command is pending or running. -/
  stopped : s.stopRequested = true → (∀ j, (s.peers j).linked = false) ∧ s.pending = false ∧
    s.owner.task = none ∧ s.inlined = [] ∧ ∀ c, (s.calls c).starts = (s.calls c).finishes

theorem expected_bounds (s : DcContext) (pc : CallPc) :
    (s.expected pc).2 ≤ (s.expected pc).1 ∧ (s.expected pc).1 ≤ 1 := by
  cases pc <;> simp only [expected, le_refl, zero_le, and_self]
  rw [progress]
  split
  · simp
  · split <;> simp

theorem Orderly.safe (h : Orderly s) : HandoffSafe s := by
  obtain ⟨hlinks, hslot⟩ := h
  have hcounts : ∀ c, (s.calls c).starts = (s.expected (s.calls c).pc).1 ∧
      (s.calls c).finishes = (s.expected (s.calls c).pc).2 := by
    intro c
    exact Prod.mk.inj (hslot.counts c)
  constructor
  · intro c hpc
    obtain ⟨hstarts, hfinishes⟩ := hcounts c
    rw [hstarts, hfinishes]
    rcases hpc with hpc | hpc <;> rw [hpc] <;> exact ⟨rfl, rfl⟩
  · intro c hpc hdone
    obtain ⟨hstarts, hfinishes⟩ := hcounts c
    rw [hstarts, hfinishes, hpc]
    simp [expected, progress, hdone]
  · intro c
    obtain ⟨hstarts, hfinishes⟩ := hcounts c
    rw [hstarts, hfinishes]
    exact expected_bounds s _
  · exact hslot.ok
  · intro hstop
    obtain ⟨d, hd, hended⟩ := hlinks.stopped hstop
    have hquiet := hlinks.quiet hstop
    have hpend : s.pending = false := by
      by_contra hpend
      exact hquiet s.command (by rw [hslot.held (by simpa using hpend)]; rfl)
    refine ⟨hlinks.drained d hd hended, hpend, ?_, ?_, ?_⟩
    · cases htask : s.owner.task with
      | none => rfl
      | some c => exact absurd (hslot.task c htask).1 (by simp [hpend])
    · by_contra hne
      obtain ⟨c, rest, hcons⟩ := List.exists_cons_of_ne_nil hne
      have hpc := (hslot.inlined c).mpr (by rw [hcons]; simp)
      exact hquiet c (by rw [hpc]; rfl)
    · intro c
      obtain ⟨hstarts, hfinishes⟩ := hcounts c
      have hidle := hquiet c
      rw [hstarts, hfinishes]
      cases hpc : (s.calls c).pc <;> simp_all [expected, works]

/-- Over any interleaving of any number of callers with the owner thread, with the destruction
of peers and of the context, commands are run once, for their own callers, before these
return; and the owner is told to stop when nobody needs it any more. -/
theorem handoff_safe (steps : List HandoffStep) (hrun : handoff.run .create steps = some s) :
    HandoffSafe s := by
  refine Orderly.safe (Acceptor.run_keeps ?_ ⟨links_create, slot_create⟩ hrun)
  exact fun _ _ _ _ h hstep => orderly_step h hstep

/-- A peer is used by a caller, and then the context is destroyed. -/
def useAndDestroy : List HandoffStep :=
  [.createPeer, .acquire 0, .enter 0, .pick, .start, .finish, .complete, .leave 0, .readStop 0,
    .release 0, .destroyContext, .enter 1, .pick, .start, .finish, .complete, .leave 1,
    .readStop 1, .reap 0, .inlineFinish, .peersDrained 1, .stop 1, .exit]

theorem handoff_safe_destroyed :
    ∃ s, handoff.run .create useAndDestroy = some s ∧ HandoffSafe s ∧ s.owner = .stopped :=
  ⟨_, rfl, handoff_safe useAndDestroy rfl, rfl⟩

end TurboMedia.DataChannel
