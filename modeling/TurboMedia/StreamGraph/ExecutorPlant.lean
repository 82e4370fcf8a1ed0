import TurboMedia.StreamGraph.Executor
import TurboMedia.StreamGraph.FanoutBacking
import TurboMedia.StreamGraph.FanoutDelivery

/-!
# The plant of an executor between two calls

**Input.**  A store that only the executor uses, and its fan-out.

**Method.**  Between two calls of the executor every pin is that of a row, no lease is
out, and the rows in use are ready (`Level`); at most the frame that is pending is ready
in the store (`OnlyReady`).  Each call of the executor on its store or its fan-out is
shown to keep both, the rows that are taken and settled by one visit of a sink included.
-/

namespace TurboMedia.StreamGraph

open List Branch Store

section Waiting

/-- The rows in use are ready, and hold frames of the list. -/
def Branch.Waits (queued : List FrameRef) (b : Branch) : Prop :=
  ∀ row ∈ b.rows, row.state ≠ .free → row.state = .ready ∧ row.ref ∈ queued

variable {queued : List FrameRef} {b b' : Branch} {k : ℕ} {row : Row}

theorem Waits.mono {queued' : List FrameRef} (h : b.Waits queued)
    (hsub : ∀ ref ∈ queued, ref ∈ queued') : b.Waits queued' := by
  intro row hrow hstate
  obtain ⟨hready, hmem⟩ := h row hrow hstate
  exact ⟨hready, hsub row.ref hmem⟩

theorem Waits.of_rows (h : b.Waits queued) (hrows : b'.rows = b.rows) : b'.Waits queued := by
  intro row hrow
  rw [hrows] at hrow
  exact h row hrow

theorem Waits.set (h : b.Waits queued) (hset : b'.rows = b.rows.set k row)
    (hrow : row.state ≠ .free → row.state = .ready ∧ row.ref ∈ queued) : b'.Waits queued := by
  intro r hr
  rw [hset] at hr
  rcases mem_or_eq_of_mem_set hr with hr | rfl
  · exact h r hr
  · exact hrow

theorem Waits.release (h : b.Waits queued) (k : ℕ) : (b.release k).Waits queued :=
  Waits.set h rfl (fun hstate => absurd rfl hstate)

theorem Waits.commit {lane : Lane} {ref : FrameRef} (h : lane.branch.Waits queued)
    (hidx : lane.index = if foSelected lane.branch ref = true then foChooseRow lane.branch
      else none) (order : ℕ) : (lane.evict.commit ref order).Waits (queued ++ [ref]) := by
  have hmono : lane.branch.Waits (queued ++ [ref]) :=
    Waits.mono h (fun _ hmem => mem_append_left _ hmem)
  cases hk : lane.index with
  | none => exact Waits.of_rows hmono (commit_evict_rows_none hk ref order)
  | some k =>
    rw [hk] at hidx
    split_ifs at hidx
    refine Waits.set hmono (commit_evict_rows hk hidx.symm ref order) (fun _ => ⟨rfl, ?_⟩)
    exact mem_append_right _ mem_cons_self

theorem discardRows_waits (ks : List ℕ) (s : Store) (h : b.Waits queued) :
    (discardRows ks s b).2.1.Waits queued := by
  induction ks generalizing s b with
  | nil => exact h
  | cons k ks ih =>
    by_cases hstate : (b.row k).state = .ready
    · by_cases hrel : (foRelease s b k).2.2 = .ok
      · rw [discardRows_next hstate hrel]
        exact ih _ (Waits.release h k)
      · rw [discardRows_fail hstate hrel]
        exact h
    · rw [discardRows_keep hstate]
      exact ih s h

theorem release_row_state (h : (b.row k).state ≠ .ready) (j : ℕ) :
    ((b.release j).row k).state ≠ .ready := by
  rw [row, getD_eq_getElem?_getD] at h ⊢
  rw [Branch.release, getElem?_set]
  split_ifs
  · simp [Row.clear]
  · simp [zeroRow]
  · exact h

theorem discardRows_drains {s : Store} {others leases : List (ℕ × FrameRef)} (ks : List ℕ)
    (h : Outstanding s (b.credits ++ others) leases) (hnames : b.Names s)
    (hk : k ∈ ks ∨ (b.row k).state ≠ .ready) : ((discardRows ks s b).2.1.row k).state ≠ .ready := by
  induction ks generalizing s b with
  | nil => exact hk.resolve_left not_mem_nil
  | cons j ks ih =>
    by_cases hready : (b.row j).state = .ready
    · have hused : (b.row j).state ≠ .free := by
        rw [hready]
        simp
      obtain ⟨hrel, hout, _, hnames'⟩ := foRelease_backed h hnames
        (getElem?_row hused) hused
      rw [discardRows_next hready (by rw [hrel])]
      refine ih hout hnames' ?_
      rcases hk with hk | hk
      · rcases mem_cons.mp hk with rfl | hk
        · refine .inr ?_
          rw [row_eq (getElem?_set_self
            (List.getElem?_eq_some_iff.mp (getElem?_row hused)).1)]
          simp [Row.clear]
        · exact .inl hk
      · exact .inr (release_row_state hk j)
    · rw [discardRows_keep hready]
      refine ih h hnames ?_
      rcases hk with hk | hk
      · rcases mem_cons.mp hk with rfl | hk
        · exact .inr hready
        · exact .inl hk
      · exact .inr hk

end Waiting

section Level

/-- The plant between two calls. -/
structure Level (queued : List FrameRef) (p : Plant) : Prop where
  backed : Backed p [] []
  flow : ∃ h, Flow h p.fanout
  waits : ∀ b ∈ p.fanout.branches, b.Waits queued

variable {queued : List FrameRef} {p : Plant}

variable (h : Level queued p)
include h

theorem Level.withStore {s : Store}
    (hbacked : Backed { p with store := s } [] []) : Level queued { p with store := s } :=
  ⟨hbacked, h.flow, h.waits⟩

theorem Level.submit_ok {ref : FrameRef} (hok : (submit p ref).2 = .ok) :
    Level (queued ++ [ref]) (submit p ref).1 := by
  obtain ⟨history, hflow⟩ := h.flow
  obtain ⟨_, _, hbranches⟩ := submit_accepted hok
  refine ⟨(h.backed.submitted ref).1, ⟨_, hflow.submit_ok hok⟩, fun b' hb' => ?_⟩
  obtain ⟨i, hi⟩ := mem_iff_getElem?.mp hb'
  obtain ⟨lane, hlane, hidx, rfl⟩ := hbranches i b' hi
  exact Waits.commit (h.waits lane.branch (mem_of_getElem? hlane)) hidx _

theorem Level.submitFailed {ref : FrameRef}
    (hfail : (submit p ref).2 ≠ .ok) : Level queued (submit p ref).1 := by
  obtain ⟨history, hflow⟩ := h.flow
  obtain ⟨_, hbranches⟩ := submit_failed hfail
  refine ⟨(h.backed.submitted ref).1, ⟨_, hflow.submitFailed hfail⟩, fun b' hb' => ?_⟩
  obtain ⟨i, hi⟩ := mem_iff_getElem?.mp hb'
  obtain ⟨b, hb, hcases⟩ := hbranches i b' hi
  have hwaits := h.waits b (mem_of_getElem? hb)
  rcases hcases with hcore | ⟨k, _, _, rfl⟩
  · have hrows : b'.core.rows = b.core.rows := congrArg rows hcore
    exact Waits.of_rows hwaits hrows
  · exact Waits.of_rows (Waits.release hwaits k) rfl

theorem Level.sealed : Level queued (foSeal p) := by
  obtain ⟨history, hflow⟩ := h.flow
  exact ⟨⟨h.backed.outstanding, h.backed.names⟩, ⟨history, hflow.step (r := ⟨p, history⟩)
    .sealOwner⟩,
    h.waits⟩

theorem Level.discarded (branch : ℕ) :
    Level queued (discardReady p branch).1 := by
  obtain ⟨history, hflow⟩ := h.flow
  refine ⟨(h.backed.discarded branch).1, ⟨_, hflow.discarded branch⟩, ?_⟩
  rw [discardReady]
  cases hb : p.fanout.branches[branch]? with
  | none => exact h.waits
  | some b =>
    intro b' hb'
    rcases mem_or_eq_of_mem_set hb' with hb' | rfl
    · exact h.waits b' hb'
    · exact discardRows_waits _ _ (h.waits b (mem_of_getElem? hb))

theorem Level.discards {b : Branch} (branch : ℕ)
    (hb : (discardReady p branch).1.fanout.branches[branch]? = some b) :
    oldestReady b = none := by
  rw [discardReady] at hb
  cases hbef : p.fanout.branches[branch]? with
  | none =>
    rw [hbef] at hb
    rw [hbef] at hb
    cases hb
  | some before =>
    rw [hbef] at hb
    obtain ⟨rest, hout, hnames, _⟩ := h.backed.branch hbef
    have hself := getElem?_set_self
      (a := (discardRows (List.range before.rows.length) p.store before).2.1)
      (List.getElem?_eq_some_iff.mp hbef).1
    cases hself.symm.trans hb
    cases hk : oldestReady (discardRows (List.range before.rows.length) p.store before).2.1 with
    | none => rfl
    | some k =>
      obtain ⟨row, hrow, hready, _⟩ := oldestReady_some hk
      rw [← Branch.row_eq hrow] at hready
      refine absurd hready (discardRows_drains _ hout hnames ?_)
      by_cases hlt : k < before.rows.length
      · exact .inl (mem_range.mpr hlt)
      · refine .inr ?_
        rw [Branch.row, getD_eq_getElem?_getD, getElem?_eq_none (not_lt.mp hlt)]
        simp [zeroRow]

theorem Level.weak {ref : FrameRef} {lease : Ticket}
    (hlease : (acquireWeak p.store ref).2 = .ok lease) :
    Level queued { p with store := (releaseLease (acquireWeak p.store ref).1 lease).1 } ∧
      Calm p.store (releaseLease (acquireWeak p.store ref).1 lease).1 := by
  have hcalm := acquireWeak_calm p.store ref
  have hcalm' := hcalm.trans (releaseLease_calm (acquireWeak p.store ref).1 lease)
  obtain ⟨rfl, hout⟩ := h.backed.outstanding.leased hlease
  obtain ⟨_, hdone⟩ := hout.leaseBack
  rw [hcalm.ticket] at hdone
  exact ⟨h.withStore ⟨hdone, fun b hb => Names.of_ticket (h.backed.names b hb) hcalm'.ticket⟩,
    hcalm'⟩

theorem Level.retired (ref : FrameRef) :
    Level queued { p with store := (retire p.store ref).1 } := by
  obtain ⟨hcfg, hgen⟩ := fsStep_identity p.store (.retire ref)
  refine h.withStore ⟨h.backed.outstanding.retired ref,
    fun b hb => Names.of_ticket (h.backed.names b hb) (fun n => ?_)⟩
  exact congrArg₂ (fun c g => Ticket.mk (FsConfig.storeId c) g n) hcfg hgen

theorem Level.published {i : ℕ} (hfree : (p.store.slots i).state = .free)
    (data : List UInt8) (session display : ℕ) :
    Level queued { p with store := publishInto p.store i data session display } :=
  h.withStore ⟨h.backed.outstanding.published hfree data session display,
    fun b hb => Names.of_ticket (h.backed.names b hb) (fun _ => rfl)⟩

theorem Level.counters {b : Branch} (hb : b ∈ p.fanout.branches)
    (hfree : ∀ row ∈ b.rows, row.state = .free) : b.stats.ready = 0 ∧ b.stats.taken = 0 := by
  obtain ⟨history, hflow⟩ := h.flow
  obtain ⟨i, hi⟩ := mem_iff_getElem?.mp hb
  have htallied := (hflow.branches i b hi).tallied
  have hnone : ∀ state, state ≠ RowState.free →
      b.rows.countP (fun r => decide (r.state = state)) = 0 := by
    intro state hstate
    rw [countP_eq_zero]
    intro row hrow
    rw [decide_eq_true_eq, hfree row hrow]
    exact hstate.symm
  exact ⟨htallied.ready.trans (hnone .ready (by simp)),
    htallied.taken.trans (hnone .taken (by simp))⟩

end Level

section Sinks

variable {queued : List FrameRef} {p : Plant} {i k : ℕ} {b : Branch}

/-- The ticket for row `k` of a branch. -/
def Plant.ticketFor (p : Plant) (i k : ℕ) (b : Branch) : FoTicket :=
  ⟨p.fanout.incarnation, i, k, (b.row k).generation⟩

variable (hb : p.fanout.branches[i]? = some b)
include hb

theorem take_some (hk : oldestReady b = some k) :
    take p i = (p.setBranch i (b.takeRow k), .ok (p.ticketFor i k b, (b.row k).ref)) := by
  rw [take, hb]
  dsimp only
  rw [hk]
  rfl

theorem getElem?_takeRow (hk : oldestReady b = some k) :
    (p.setBranch i (b.takeRow k)).fanout.branches[i]? = some (b.takeRow k) ∧
      (b.takeRow k).rows[k]? = some { b.row k with state := .taken } := by
  obtain ⟨row, hrow, _, _⟩ := oldestReady_some hk
  exact ⟨getElem?_set_self (List.getElem?_eq_some_iff.mp hb).1,
    getElem?_set_self (List.getElem?_eq_some_iff.mp hrow).1⟩

/-- The row that was taken is found under its ticket, unless its generation is zero. -/
theorem foLookup_taken (hk : oldestReady b = some k)
    (hgen : (b.row k).generation ≠ 0) :
    foLookup (p.setBranch i (b.takeRow k)).fanout (p.ticketFor i k b) =
      some (b.takeRow k, { b.row k with state := .taken }) := by
  obtain ⟨hbranch, htaken⟩ := getElem?_takeRow hb hk
  have hvalid : ¬((p.ticketFor i k b).incarnation ≠
      (p.setBranch i (b.takeRow k)).fanout.incarnation ∨
      (p.ticketFor i k b).slotGeneration = 0) :=
    not_or.mpr ⟨not_not.mpr rfl, hgen⟩
  rw [foLookup, if_neg hvalid, Plant.ticketFor]
  rw [hbranch]
  dsimp only
  rw [htaken]
  exact if_pos ⟨by simp, rfl⟩

omit hb

/-- The row that was taken is settled, whatever has happened to the store meanwhile. -/
theorem Level.settled {s : Store} (h : Level queued p) (hb : p.fanout.branches[i]? = some b)
    (hk : oldestReady b = some k) (hgen : (b.row k).generation ≠ 0)
    (hbacked : Backed ⟨s, (p.setBranch i (b.takeRow k)).fanout⟩ [] []) :
    (settle ⟨s, (p.setBranch i (b.takeRow k)).fanout⟩ (p.ticketFor i k b)).2 = .ok ∧ Level queued
        (settle ⟨s, (p.setBranch i (b.takeRow k)).fanout⟩ (p.ticketFor i k b)).1 := by
  have hlook := foLookup_taken hb hk hgen
  obtain ⟨hbranch, htaken⟩ := getElem?_takeRow hb hk
  obtain ⟨rest, hout, hnames, _⟩ := hbacked.branch hbranch
  obtain ⟨hrel, _, _, _⟩ := foRelease_backed hout hnames htaken (by simp)
  have hsettle : settle ⟨s, (p.setBranch i (b.takeRow k)).fanout⟩ (p.ticketFor i k b) =
      (Plant.setBranch ⟨(foRelease s (b.takeRow k) k).1, (p.setBranch i (b.takeRow k)).fanout⟩ i
        ((b.takeRow k).release k), .ok) := by
    rw [settle, hlook]
    dsimp only
    rw [if_neg (not_not.mpr rfl)]
    show (Plant.setBranch _ i (foRelease s (b.takeRow k) k).2.1,
      (foRelease s (b.takeRow k) k).2.2) = _
    rw [hrel]
    rfl
  obtain ⟨history, hflow⟩ := h.flow
  have htook := hflow.taken i
  rw [take_some hb hk] at htook
  have hsettled := Flow.settled (p := ⟨s, (p.setBranch i (b.takeRow k)).fanout⟩) htook
    (p.ticketFor i k b)
  have hbacked' := (hbacked.settled (p.ticketFor i k b)).1
  rw [hsettle] at hsettled hbacked' ⊢
  refine ⟨rfl, hbacked', ⟨_, hsettled⟩, fun b' hb' => ?_⟩
  have hrows : ((b.takeRow k).release k).rows =
      b.rows.set k ((b.takeRow k).row k).clear := set_set _
  have hset : (Plant.setBranch ⟨(foRelease s (b.takeRow k) k).1,
      (p.setBranch i (b.takeRow k)).fanout⟩ i ((b.takeRow k).release k)).fanout.branches =
      p.fanout.branches.set i ((b.takeRow k).release k) := set_set _
  rw [hset] at hb'
  rcases mem_or_eq_of_mem_set hb' with hb' | rfl
  · exact h.waits b' hb'
  · exact Waits.set (h.waits b (mem_of_getElem? hb)) hrows (fun hstate => absurd rfl hstate)

theorem Level.leaseTaken (h : Level queued p) (hb : p.fanout.branches[i]? = some b)
    (hk : oldestReady b = some k) (hgen : (b.row k).generation ≠ 0) :
    ∃ s, (∃ e, acquireLease (p.setBranch i (b.takeRow k)) (p.ticketFor i k b) =
        (⟨s, (p.setBranch i (b.takeRow k)).fanout⟩, .error e) ∧ Calm p.store s ∧
        Backed ⟨s, (p.setBranch i (b.takeRow k)).fanout⟩ [] []) ∨
      (∃ lease, acquireLease (p.setBranch i (b.takeRow k)) (p.ticketFor i k b) =
        (⟨s, (p.setBranch i (b.takeRow k)).fanout⟩, .ok lease) ∧ (releaseLease s lease).2 = .ok ∧
        Calm p.store (releaseLease s lease).1 ∧
        Backed ⟨(releaseLease s lease).1, (p.setBranch i (b.takeRow k)).fanout⟩ [] []) := by
  have hlook := foLookup_taken hb hk hgen
  obtain ⟨hbranch, htaken⟩ := getElem?_takeRow hb hk
  have hbacked := (h.backed.taken i).1
  rw [take_some hb hk] at hbacked
  have hcalm := acquirePinned_calm p.store (b.row k).pin
  have hlease : acquireLease (p.setBranch i (b.takeRow k)) (p.ticketFor i k b) =
      (⟨(acquirePinned p.store (b.row k).pin).1, (p.setBranch i (b.takeRow k)).fanout⟩,
        foFsAnswer (acquirePinned p.store (b.row k).pin).2) := by
    rw [acquireLease, hlook]
    exact if_neg (not_not.mpr rfl)
  rw [hlease]
  refine ⟨(acquirePinned p.store (b.row k).pin).1, ?_⟩
  rcases hbacked.pinLeased hbranch (mem_of_getElem? htaken) (by simp) with
    ⟨⟨e, herr⟩, hsame⟩ | ⟨hok, hout⟩
  · refine .inl ⟨foFsStatus e, ?_, hcalm, ?_⟩
    · exact congrArg (fun r => (_, foFsAnswer r)) herr
    · have hstore : (acquirePinned p.store (b.row k).pin).1 = p.store := hsame
      rw [hstore]
      exact hbacked
  · obtain ⟨hreleased, hdone⟩ := hout.outstanding.leaseBack
    have hcalm' := hcalm.trans (releaseLease_calm (acquirePinned p.store (b.row k).pin).1
      (p.store.ticket (p.store.nextTicketId + 1)))
    have htick : (acquirePinned p.store (b.row k).pin).1.ticket (p.store.nextTicketId + 1) =
        p.store.ticket (p.store.nextTicketId + 1) := hcalm.ticket _
    refine .inr ⟨p.store.ticket (p.store.nextTicketId + 1), ?_, ?_, hcalm', ?_⟩
    · exact congrArg (fun r => (_, foFsAnswer r)) hok
    · rw [← htick]
      exact hreleased
    · refine ⟨?_, fun b' hb' => Names.of_ticket (hbacked.names b' hb') hcalm'.ticket⟩
      rw [← htick]
      exact hdone

end Sinks

theorem fsCreate_free {c : FsConfig} {generation : ℕ} {buffers : ℕ → List UInt8} {s : Store}
    (h : fsCreate c generation buffers = .ok s) (i : ℕ) : (s.slots i).state = .free := by
  rw [fsCreate] at h
  split_ifs at h
  cases h
  rfl

/-- At most the frame of this reference is ready, and it is if its number is not zero. -/
structure OnlyReady (s : Store) (ref : FrameRef) : Prop where
  none : ref.frameId = 0 → ∀ i, (s.slots i).state ≠ .ready
  some : ref.frameId ≠ 0 → ref.slot < s.config.slotCapacity ∧ s.refOf ref.slot = ref ∧
    ∀ i, (s.slots i).state = .ready ↔ i = ref.slot

variable {s s' : Store} {ref : FrameRef}

theorem OnlyReady.calm (h : OnlyReady s ref) (hcalm : Calm s s') : OnlyReady s' ref := by
  constructor
  · intro hzero i hready
    exact h.none hzero i ((hcalm.ready i).mp hready)
  · intro hframe
    obtain ⟨hlt, href, hready⟩ := h.some hframe
    rw [hcalm.keeps.config, hcalm.keeps.refOf]
    exact ⟨hlt, href, fun i => (hcalm.ready i).trans (hready i)⟩

theorem OnlyReady.retired (h : OnlyReady s ref) (hframe : ref.frameId ≠ 0) :
    ((retire s ref).2 = .ok ∨ (retire s ref).2 = .ebusy) ∧
      OnlyReady (retire s ref).1 zeroRef := by
  obtain ⟨hlt, href, hready⟩ := h.some hframe
  have hhold : Holds s ref := by
    refine ⟨?_, href⟩
    rw [(hready ref.slot).mpr rfl]
    simp
  rw [retire, refIndex_of_holds hhold hlt]
  dsimp only
  refine ⟨?_, fun _ i => ?_, fun hzero => absurd rfl hzero⟩
  · split_ifs
    · exact .inl rfl
    · exact .inr rfl
  · by_cases hi : i = ref.slot
    · subst hi
      simp [modifySlot, retireSlot, maybeRetire_ready]
    · simp [modifySlot, hi, (hready i).not.mpr hi]

theorem OnlyReady.published {i : ℕ} (h : ∀ i, (s.slots i).state ≠ .ready)
    (hlt : i < s.config.slotCapacity) (data : List UInt8) (session display : ℕ) :
    OnlyReady (publishInto s i data session display)
      ((publishInto s i data session display).refOf i) := by
  have hslot : ((publishInto s i data session display).refOf i).slot = i := rfl
  have hframe : ((publishInto s i data session display).refOf i).frameId =
      s.nextFrameId + 1 := by
    simp [refOf, publishInto, modifySlot, fillSlot]
  constructor
  · intro hzero
    rw [hframe] at hzero
    cases hzero
  · intro _
    rw [hslot]
    refine ⟨hlt, rfl, fun j => ?_⟩
    by_cases hj : j = i
    · subst hj
      simp [publishInto, modifySlot, fillSlot]
    · simp [publishInto, modifySlot, hj, h j]

end TurboMedia.StreamGraph
