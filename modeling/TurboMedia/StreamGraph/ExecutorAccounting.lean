import TurboMedia.StreamGraph.ExecutorPlant
import TurboMedia.StreamGraph.ExecutorProtocol

/-!
# Executor frame accounting

**Input.**  An executor on a store that only it uses, driven by any calls, with any
answers of its providers.

**Method.**  Every call is accepted by the protocol and leads from one steady state to
another (`Yields`).  In a steady state every pin is that of a row that waits, and no
frame is ready but the one that is pending; so nothing is left when the executor has
stopped and no row waits.

The visit of a sink settles the row it took, unless the generation of the row is zero:
the counter of a row that is replaced while it waits wraps around.
-/

namespace TurboMedia.StreamGraph

open Acceptor Words List Executor StreamGraph

section Steady

def Executor.phase (o : Executor) : Phase :=
  if o.pending.frameId ≠ 0 then .visiting o.pending o.processorCount
  else if o.pendingData = [] then .idle else .sourced

/-- What holds at every point of a call where no credit is out. -/
structure Steady (processors : ℕ) (q : Progress) (o : Executor) : Prop where
  processors : o.processorCount = processors
  level : Level q.queued o.plant
  ready : OnlyReady o.plant.store o.pending
  stopped : q.stopped = o.stopped
  last : q.lastFrame ≤ o.plant.store.nextFrameId
  ended : o.stopped = true → o.pending.frameId = 0 ∧ o.plant.fanout.sealed = true

/-- What holds between two calls. -/
structure Settled (processors : ℕ) (q : Progress) (o : Executor) : Prop
    extends Steady processors q o where
  phase : o.stopped = false → q.phase = o.phase
  scratch : o.pending.frameId ≠ 0 → o.pendingData = []

/-- The protocol accepts what happened, and the call is over. -/
def Yields (processors : ℕ) (q : Progress) (r : ExResult) : Prop :=
  ∃ q', (protocol processors).run q r.events = some q' ∧ Settled processors q' r.owner

variable {processors : ℕ} {q q' : Progress} {o o' : Executor} {r : ExResult}

theorem Yields.after {events : List ExEvent} (h : Yields processors q' r)
    (hrun : (protocol processors).run q events = some q') :
    Yields processors q (r.after events) := by
  obtain ⟨q'', hrest, hset⟩ := h
  exact ⟨q'', (run_append hrun).trans hrest, hset⟩

theorem Steady.withPlant {p : Plant} (h : Steady processors q o) (hlevel : Level q.queued p)
    (hcalm : Calm o.plant.store p.store)
    (hsealed : o.plant.fanout.sealed = true → p.fanout.sealed = true) :
    Steady processors q { o with plant := p } where
  processors := h.processors
  level := hlevel
  ready := h.ready.calm hcalm
  stopped := h.stopped
  last := by
    show q.lastFrame ≤ p.store.nextFrameId
    rw [hcalm.nextFrameId]
    exact h.last
  ended := fun hstopped => ⟨(h.ended hstopped).1, hsealed (h.ended hstopped).2⟩

theorem retireRef_eq (h : OnlyReady o.plant.store o.pending) (hframe : o.pending.frameId ≠ 0) :
    retireRef o = ({ o.withStore (retire o.plant.store o.pending).1 with pending := zeroRef },
      .ok) := by
  have hstat : ¬((retire o.plant.store o.pending).2 ≠ .ok ∧
      (retire o.plant.store o.pending).2 ≠ .ebusy) := by
    rintro ⟨hok, hbusy⟩
    exact (h.retired hframe).1.elim hok hbusy
  rw [retireRef]
  exact if_neg hstat

theorem retire_nextFrameId (s : Store) (ref : FrameRef) :
    (retire s ref).1.nextFrameId = s.nextFrameId := by
  rw [retire]
  split
  · rfl
  · rfl

variable (h : Steady processors q o)
include h

theorem Steady.retired (hrunning : o.stopped = false)
    (hframe : o.pending.frameId ≠ 0) :
    Steady processors q
      { o.withStore (retire o.plant.store o.pending).1 with pending := zeroRef } where
  processors := h.processors
  level := h.level.retired o.pending
  ready := (h.ready.retired hframe).2
  stopped := h.stopped
  last := h.last.trans (retire_nextFrameId o.plant.store o.pending).ge
  ended := fun hstopped => absurd (hrunning.symm.trans hstopped) (by simp)

theorem Steady.halted (hframe : o.pending.frameId = 0) :
    Settled processors { q with stopped := true } o.halt.sealOwner where
  processors := h.processors
  level := h.level.sealed
  ready := h.ready
  stopped := rfl
  last := h.last
  ended := fun _ => ⟨hframe, rfl⟩
  phase := fun hrunning => absurd hrunning.symm Bool.false_ne_true
  scratch := fun hpend => absurd hframe hpend

theorem Steady.stops : Yields processors q (exStop o) := by
  cases hstopped : o.stopped with
  | true =>
    rw [exStop, if_pos hstopped]
    refine ⟨q, rfl, h, fun hrunning => ?_, fun hframe => absurd (h.ended hstopped).1 hframe⟩
    exact absurd (hstopped.symm.trans hrunning) (by simp)
  | false =>
    have hempty : Steady processors q { o with pendingData := [] } :=
      ⟨h.processors, h.level, h.ready, h.stopped, h.last, h.ended⟩
    have hrun : (protocol processors).run q [.stopped] = some { q with stopped := true } :=
      run_singleton (if_pos (h.stopped.trans hstopped))
    rw [exStop, if_neg (by rw [hstopped]; simp)]
    by_cases hframe : o.halt.pending.frameId ≠ 0
    · dsimp only
      rw [if_pos hframe, retireRef_eq]
      · exact ⟨_, hrun, (hempty.retired hstopped hframe).halted rfl⟩
      · exact h.ready
      · exact hframe
    · dsimp only
      rw [if_neg hframe]
      exact ⟨_, hrun, hempty.halted (not_not.mp hframe)⟩

theorem Steady.stopsWith (status : ExStatus) :
    Yields processors q (stopWith o status) :=
  h.stops

end Steady

section Source

variable {processors : ℕ} {q q' : Progress} {o : Executor}

theorem Steady.withStats (h : Steady processors q o) (f : ExStats → ExStats) :
    Steady processors q (o.withStats f) :=
  ⟨h.processors, h.level, h.ready, h.stopped, h.last, h.ended⟩

theorem Settled.withStats (h : Settled processors q o) (f : ExStats → ExStats) :
    Settled processors q (o.withStats f) :=
  ⟨h.toSteady.withStats f, h.phase, h.scratch⟩

theorem Steady.inPhase (h : Steady processors q o) (phase : Phase) :
    Steady processors { q with phase := phase } o :=
  ⟨h.processors, h.level, h.ready, h.stopped, h.last, h.ended⟩

theorem Steady.idle (h : Steady processors q o) (hframe : o.pending.frameId = 0)
    (hscratch : o.pendingData = []) (hphase : q.phase = .idle) :
    Settled processors q o where
  toSteady := h
  phase := by
    intro _
    rw [hphase, phase, if_neg (not_not.mpr hframe), if_pos hscratch]
  scratch := fun _ => hscratch

theorem Steady.inHand (h : Steady processors q o) (hframe : o.pending.frameId ≠ 0)
    (hscratch : o.pendingData = []) (hphase : q.phase = .visiting o.pending processors) :
    Settled processors q o where
  toSteady := h
  phase := by
    intro _
    rw [hphase, phase, if_pos hframe, h.processors]
  scratch := fun _ => hscratch

theorem Settled.refused (h : Settled processors q o) (hrunning : o.stopped = false)
    (hfail : (submit o.plant o.pending).2 ≠ .ok) :
    Settled processors q { o with plant := (submit o.plant o.pending).1 } where
  processors := h.processors
  level := h.level.submitFailed hfail
  ready := h.ready.calm (h.level.backed.submitted o.pending).2
  stopped := h.stopped
  last := h.last.trans (h.level.backed.submitted o.pending).2.nextFrameId.ge
  ended := fun hstopped => absurd (hrunning.symm.trans hstopped) (by simp)
  phase := h.phase
  scratch := h.scratch

theorem Settled.accepted (h : Settled processors q o) (hrunning : o.stopped = false)
    (hok : (submit o.plant o.pending).2 = .ok) :
    Steady processors { q with
      phase := .idle
      queued := q.queued ++ [o.pending] } { o with plant := (submit o.plant o.pending).1 } where
  processors := h.processors
  level := h.level.submit_ok hok
  ready := h.ready.calm (h.level.backed.submitted o.pending).2
  stopped := h.stopped
  last := h.last.trans (h.level.backed.submitted o.pending).2.nextFrameId.ge
  ended := fun hstopped => absurd (hrunning.symm.trans hstopped) (by simp)

theorem Settled.pendingSubmitted (h : Settled processors q o) (hrunning : o.stopped = false)
    (hframe : o.pending.frameId ≠ 0) : Yields processors q (submitPending o) := by
  have hphase : q.phase = .visiting o.pending processors := by
    rw [h.phase hrunning, Executor.phase, if_pos hframe, h.processors]
  have hrun : (protocol processors).run q [.submit o.pending (submit o.plant o.pending).2] =
      some (q.submitted o.pending (submit o.plant o.pending).2) :=
    run_singleton (if_pos ⟨h.stopped.trans hrunning, hphase⟩)
  rw [submitPending]
  by_cases hok : (submit o.plant o.pending).2 = .ok
  · have hsteady := (h.accepted hrunning hok).withStats
      (fun st => { st with submitted := succ64 st.submitted })
    rw [Progress.submitted, if_pos hok] at hrun
    rw [if_neg (by rw [hok]; simp), if_neg (not_not.mpr hok), retireRef_eq]
    · exact ⟨_, hrun, (hsteady.retired hrunning hframe).idle rfl (h.scratch hframe) rfl⟩
    · exact hsteady.ready
    · exact hframe
  · have hset := h.refused hrunning hok
    rw [Progress.submitted, if_neg hok] at hrun
    by_cases hfull : (submit o.plant o.pending).2 = .efull
    · rw [if_pos hfull]
      exact ⟨_, hrun, hset.withStats
        (fun st => { st with backpressure := succ64 st.backpressure })⟩
    · rw [if_neg hfull, if_pos hok]
      exact ⟨_, hrun, hset⟩

/-- The processors are visited from the `i`-th on. -/
theorem visitAll_run {i n : ℕ} (ref : FrameRef) (view : CpuView) (visits : ℕ → ℤ)
    (hrunning : q.stopped = false) (hphase : q.phase = .visiting ref i) (hn : i + n = processors) :
    (protocol processors).run q (visitAll ref view visits (range' i n)).2 =
      some { q with phase := if (visitAll ref view visits (range' i n)).1 = 0
        then .visiting ref processors else .refused } := by
  induction n generalizing i q with
  | zero =>
    obtain rfl : i = processors := hn
    show some q = some { q with phase := .visiting ref i }
    rw [← hphase]
  | succ n ih =>
    have hstep : (protocol processors).step q (.visit i ref view (visits i)) = some { q with
        phase := if visits i = 0 then .visiting ref (i + 1) else .refused } :=
      if_pos ⟨hrunning, hphase, by omega⟩
    rw [List.range'_succ, visitAll]
    by_cases hres : visits i = 0
    · rw [if_pos hres] at hstep
      rw [if_neg (not_not.mpr hres)]
      rw [run_cons hstep]
      exact ih hrunning rfl (by omega)
    · rw [if_neg hres] at hstep
      rw [if_pos hres]
      rw [run_singleton hstep, if_neg hres]

/-- The frame that was published is shown to the processors and submitted. -/
theorem Steady.processPending (h : Steady processors q o) (hrunning : o.stopped = false)
    (hframe : o.pending.frameId ≠ 0) (hscratch : o.pendingData = [])
    (hphase : q.phase = .visiting o.pending 0) (visits : ℕ → ℤ) :
    Yields processors q (processPending o visits) := by
  obtain rfl := h.processors
  rw [processPending]
  cases hacquire : acquireWeak o.plant.store o.pending with
  | mk s answer =>
    cases answer with
    | error e =>
      have hsame := acquireWeak_error (congrArg Prod.snd hacquire)
      rw [hacquire] at hsame
      subst hsame
      exact h.stopsWith .eframe
    | ok lease =>
      obtain ⟨hlevel, hcalm⟩ := h.level.weak (congrArg Prod.snd hacquire)
      rw [hacquire] at hlevel hcalm
      have hreleased := h.withPlant hlevel hcalm (fun hsealed => hsealed)
      have hvisits := visitAll_run o.pending (mapCpu s lease viewInit).2 visits
        (h.stopped.trans hrunning) hphase (Nat.zero_add o.processorCount)
      rw [← range_eq_range'] at hvisits
      dsimp only
      split
      · exact hreleased.stopsWith .eframe
      · by_cases hres : (visitAll o.pending (mapCpu s lease viewInit).2 visits
            (List.range o.processorCount)).1 = 0
        · rw [if_pos hres] at hvisits
          rw [if_neg (not_not.mpr hres)]
          refine Yields.after (Settled.pendingSubmitted ?_ hrunning hframe) hvisits
          have hvisited := (hreleased.inPhase (.visiting o.pending o.processorCount)).withStats
            (fun st => { st with processed := succ64 st.processed })
          exact hvisited.inHand hframe hscratch rfl
        · rw [if_neg hres] at hvisits
          rw [if_pos hres]
          exact Yields.after ((hreleased.inPhase .refused).stopsWith .eprovider) hvisits

theorem Steady.pendingPublished (h : Steady processors q o) (hrunning : o.stopped = false)
    (hframe : o.pending.frameId = 0) (hscratch : o.pendingData ≠ []) (hphase : q.phase = .sourced)
    (visits : ℕ → ℤ) : Yields processors q (publishPending o visits) := by
  rw [publishPending]
  rcases publishCpu_cases o.plant.store o.pendingData o.sourceSessionGeneration
    o.displayGeneration with ⟨e, href⟩ | ⟨i, hfree, hlt, hfill⟩
  · rw [href]
    by_cases hfull : e = .efull
    · subst hfull
      have hset : Settled processors q o := by
        refine ⟨h, fun _ => ?_, fun hpend => absurd hframe hpend⟩
        rw [hphase, phase, if_neg (not_not.mpr hframe), if_neg hscratch]
      exact ⟨q, rfl, hset.withStats
        (fun st => { st with backpressure := succ64 st.backpressure })⟩
    · cases e with
      | efull => exact absurd rfl hfull
      | _ => exact h.stopsWith .eframe
  · rw [hfill]
    have hnumber : ((publishInto o.plant.store i o.pendingData o.sourceSessionGeneration
        o.displayGeneration).refOf i).frameId = o.plant.store.nextFrameId + 1 := by
      simp [Store.refOf, publishInto, Store.modifySlot, fillSlot]
    have hlast : q.lastFrame < ((publishInto o.plant.store i o.pendingData
        o.sourceSessionGeneration o.displayGeneration).refOf i).frameId := by
      rw [hnumber]
      exact Nat.lt_succ_of_le h.last
    refine Yields.after (Steady.processPending ?_ ?_ ?_ rfl rfl visits)
      (run_singleton (if_pos ⟨h.stopped.trans hrunning, hphase, hlast⟩))
    · exact {
        processors := h.processors
        level := h.level.published hfree o.pendingData o.sourceSessionGeneration
          o.displayGeneration
        ready := OnlyReady.published (h.ready.none hframe) hlt o.pendingData
          o.sourceSessionGeneration o.displayGeneration
        stopped := h.stopped
        last := hnumber.le
        ended := fun hstopped => absurd (hrunning.symm.trans hstopped) (by simp) }
    · exact hrunning
    · show ((publishInto o.plant.store i o.pendingData o.sourceSessionGeneration
        o.displayGeneration).refOf i).frameId ≠ 0
      rw [hnumber]
      exact Nat.succ_ne_zero _

theorem Steady.polled (h : Steady processors q o) (hrunning : o.stopped = false)
    (hframe : o.pending.frameId = 0) (hphase : q.phase = .idle) (reply : SourceReply)
    (visits : ℕ → ℤ) :
    Yields processors q (match reply with
      | .eos => ⟨o.halt.sealOwner, .eos, [.source .eos, .stopped]⟩
      | .failed => (stopWith o .eprovider).after [.source .failed]
      | .frame data =>
        if data.length = 0 ∨ data.length > o.scratchCapacity then
          (stopWith o .eprovider).after [.source (.frame data)]
        else (publishPending ({ o with pendingData := data }.withStats
            (fun st => { st with sourced := succ64 st.sourced })) visits).after
            [.source (.frame data)]) := by
  have hsrc : (protocol processors).step q (.source reply) = some { q with phase := reply.phase } :=
    if_pos ⟨h.stopped.trans hrunning, hphase⟩
  have hpolled := h.inPhase reply.phase
  cases reply with
  | eos =>
    have hstop : (protocol processors).step { q with phase := .refused } .stopped =
        some { q with
          phase := .refused
          stopped := true } :=
      if_pos (h.stopped.trans hrunning)
    exact ⟨_, (run_cons hsrc).trans (run_singleton hstop), hpolled.halted hframe⟩
  | failed => exact Yields.after (hpolled.stopsWith .eprovider) (run_singleton hsrc)
  | frame data =>
    dsimp only
    split
    · exact Yields.after (hpolled.stopsWith .eprovider) (run_singleton hsrc)
    next hlen =>
      have hdata : data ≠ [] := by
        rintro rfl
        exact hlen (.inl rfl)
      have hwritten : Steady processors { q with phase := .sourced }
          ({ o with pendingData := data }.withStats
            (fun st => { st with sourced := succ64 st.sourced })) :=
        ⟨hpolled.processors, hpolled.level, hpolled.ready, hpolled.stopped, hpolled.last,
          hpolled.ended⟩
      exact Yields.after (hwritten.pendingPublished hrunning hframe hdata rfl visits)
        (run_singleton hsrc)

theorem Settled.pumpSource (h : Settled processors q o) (reply : SourceReply) (visits : ℕ → ℤ) :
    Yields processors q (pumpSource o reply visits) := by
  rw [pumpSource.eq_def]
  split
  · exact ⟨q, rfl, h⟩
  next hstopped =>
    rw [Bool.not_eq_true] at hstopped
    by_cases hframe : o.pending.frameId ≠ 0
    · rw [if_pos hframe]
      exact h.pendingSubmitted hstopped hframe
    · have hphase := h.phase hstopped
      rw [Executor.phase, if_neg hframe] at hphase
      rw [if_neg hframe]
      rw [not_not] at hframe
      by_cases hscratch : o.pendingData = []
      · rw [if_pos hscratch] at hphase
        rw [if_neg (by rw [hscratch]; exact not_not.mpr rfl)]
        exact h.toSteady.polled hstopped hframe hphase reply visits
      · rw [if_neg hscratch] at hphase
        rw [if_pos (by simpa using hscratch)]
        exact h.toSteady.pendingPublished hstopped hframe hscratch hphase visits

end Source

section Sink

variable {processors : ℕ} {q : Progress} {o : Executor} {b : Branch} {branch k : ℕ}

theorem settle_sealed (p : Plant) (t : FoTicket) :
    (settle p t).1.fanout.sealed = p.fanout.sealed := by
  rw [settle]
  split
  · rfl
  · split_ifs
    · rfl
    · rfl

theorem Settled.withPlant {p : Plant} (h : Settled processors q o) (hlevel : Level q.queued p)
    (hcalm : Calm o.plant.store p.store)
    (hsealed : o.plant.fanout.sealed = true → p.fanout.sealed = true) :
    Settled processors q { o with plant := p } :=
  ⟨h.toSteady.withPlant hlevel hcalm hsealed, h.phase, h.scratch⟩

/-- The row that was taken is settled, after the store has changed to `s`. -/
theorem Settled.settled {s : Store} (h : Settled processors q o)
    (hb : o.plant.fanout.branches[branch]? = some b) (hk : oldestReady b = some k)
    (hgen : (b.row k).generation ≠ 0) (hcalm : Calm o.plant.store s)
    (hbacked : Backed ⟨s, (o.plant.setBranch branch (b.takeRow k)).fanout⟩ [] []) :
    (settle ⟨s, (o.plant.setBranch branch (b.takeRow k)).fanout⟩
        (o.plant.ticketFor branch k b)).2 = .ok ∧ Settled processors q { o with
        plant := (settle ⟨s, (o.plant.setBranch branch (b.takeRow k)).fanout⟩
          (o.plant.ticketFor branch k b)).1 } := by
  obtain ⟨hok, hlevel⟩ := h.level.settled hb hk hgen hbacked
  refine ⟨hok, h.withPlant hlevel ?_ (fun hsealed => ?_)⟩
  · exact hcalm.trans (hbacked.settled (o.plant.ticketFor branch k b)).2
  · exact (settle_sealed _ _).trans hsealed

theorem Settled.sinkVisited (h : Settled processors q o)
    (hb : o.plant.fanout.branches[branch]? = some b) (hk : oldestReady b = some k)
    (hgen : (b.row k).generation ≠ 0) (result : ℤ) :
    Yields processors q (visitSink { o with plant := o.plant.setBranch branch (b.takeRow k) } branch
      result (o.plant.ticketFor branch k b) (b.row k).ref) := by
  rw [visitSink]
  obtain ⟨s, ⟨e, hlease, hcalm, hbacked⟩ | ⟨lease, hlease, hreleased, hcalm, hbacked⟩⟩ :=
    h.level.leaseTaken hb hk hgen
  · obtain ⟨_, hset⟩ := h.settled hb hk hgen hcalm hbacked
    rw [hlease]
    exact hset.toSteady.stopsWith .eframe
  · obtain ⟨hok, hset⟩ := h.settled hb hk hgen hcalm hbacked
    obtain ⟨row, hrow, hready, _⟩ := oldestReady_some hk
    have hused : row.state ≠ .free := by
      rw [hready]
      simp
    have hq : (b.row k).ref ∈ q.queued := by
      rw [Branch.row_eq hrow]
      exact (h.level.waits b (mem_of_getElem? hb) row (mem_of_getElem? hrow) hused).2
    have hvisit : (protocol processors).run q
        [.sinkVisit branch (b.row k).ref (mapCpu s lease viewInit).2 result] = some q :=
      run_singleton (if_pos hq)
    rw [hlease]
    dsimp only
    split
    · exact hset.toSteady.stopsWith .eframe
    · rw [if_neg (not_not.mpr hreleased), if_neg (not_not.mpr hok)]
      split
      · exact Yields.after (hset.toSteady.stopsWith .eprovider) hvisit
      · have hdel := hset.withStats (fun st => { st with delivered := succ64 st.delivered })
        exact Yields.after ⟨q, rfl, hdel⟩ hvisit

/-- The row that a visit of a sink takes can be found under its ticket. -/
def FindsRow (o : Executor) : ExOp → Prop
  | .pumpSink branch _ => ∀ b k, o.plant.fanout.branches[branch]? = some b →
      oldestReady b = some k → (b.row k).generation ≠ 0
  | _ => True

theorem Settled.sinkPumped (h : Settled processors q o) (branch : ℕ) (result : ℤ)
    (hfinds : FindsRow o (.pumpSink branch result)) :
    Yields processors q (pumpSink o branch result) := by
  rw [pumpSink]
  split
  · exact ⟨q, rfl, h⟩
  · cases hb : o.plant.fanout.branches[branch]? with
    | none =>
      have htake : take o.plant branch = (o.plant, .error .einval) := by
        rw [take, hb]
      rw [htake]
      exact ⟨q, rfl, h⟩
    | some b =>
      cases hk : oldestReady b with
      | none =>
        have htake : take o.plant branch = (o.plant, .error .ebusy) := by
          rw [take, hb]
          dsimp only
          rw [hk]
        rw [htake]
        exact ⟨q, rfl, h⟩
      | some k =>
        rw [take_some hb hk]
        exact h.sinkVisited hb hk (hfinds b k hb hk) result

theorem discardReady_sealed (p : Plant) (branch : ℕ) :
    (discardReady p branch).1.fanout.sealed = p.fanout.sealed := by
  rw [discardReady]
  split
  · rfl
  · rfl

theorem Settled.discarded (h : Settled processors q o) (branch : ℕ) :
    Yields processors q (exDiscardReady o branch) := by
  rw [exDiscardReady]
  split_ifs
  · exact ⟨q, rfl, h⟩
  · exact ⟨q, rfl, h⟩
  · exact ⟨q, rfl, h.withPlant (h.level.discarded branch) (h.level.backed.discarded branch).2
      (fun hsealed => (discardReady_sealed o.plant branch).trans hsealed)⟩

theorem Settled.exStep (h : Settled processors q o) (op : ExOp) (hfinds : FindsRow o op) :
    Yields processors q (exStep o op) := by
  cases op with
  | pumpSource reply visits => exact h.pumpSource reply visits
  | pumpSink branch result => exact h.sinkPumped branch result hfinds
  | stop => exact h.toSteady.stops
  | discardReady branch => exact h.discarded branch

end Sink

variable {processors : ℕ} {q : Progress} {o : Executor}

/-- No row waits in any branch: a visit of a sink finds nothing. -/
def Executor.Drained (o : Executor) : Prop :=
  ∀ b ∈ o.plant.fanout.branches, oldestReady b = none

/-- Nothing is left behind: no pin, no lease and no frame that is ready, and both the
executor and the sealed store can be destroyed. -/
structure Executor.Clean (o : Executor) : Prop where
  pins : ∀ i, (o.plant.store.slots i).pins = 0
  leases : ∀ i, (o.plant.store.slots i).leases = 0
  ready : ∀ i, (o.plant.store.slots i).state ≠ .ready
  destroy : exDestroy o = .ok
  destroyStore : fsDestroy (fsSeal o.plant.store) = .ok

theorem Settled.clean (h : Settled processors q o) (hstopped : o.stopped = true)
    (hdrained : o.Drained) : o.Clean := by
  have hfree : ∀ b ∈ o.plant.fanout.branches, ∀ row ∈ b.rows, row.state = .free := by
    intro b hb row hrow
    by_contra hused
    exact oldestReady_none (hdrained b hb) row hrow (h.level.waits b hb row hrow hused).1
  have hcounts := h.level.backed.outstanding.counts
  rw [creditsOf_of_free hfree] at hcounts
  obtain ⟨hpend, hsealed⟩ := h.ended hstopped
  refine ⟨fun i => (hcounts i).1, fun i => (hcounts i).2, h.ready.none hpend, ?_, ?_⟩
  · have hstats : o.plant.fanout.branches.any
        (fun b => decide (b.stats.ready ≠ 0) || decide (b.stats.taken ≠ 0)) = false := by
      rw [any_eq_false]
      intro b hb
      obtain ⟨hready, htaken⟩ := h.level.counters hb (hfree b hb)
      simp [hready, htaken]
    rw [exDestroy, if_neg (by rw [hstopped]; simp), foDestroy,
      if_neg (by rw [hsealed]; simp), hstats]
    rfl
  · have hcredits : (List.range o.plant.store.config.slotCapacity).any
        (fun i => decide ((o.plant.store.slots i).pins ≠ 0) ||
          decide ((o.plant.store.slots i).leases ≠ 0)) = false := by
      rw [any_eq_false]
      intro i _
      simp [(hcounts i).1, (hcounts i).2]
    rw [fsDestroy, fsSeal]
    rw [if_neg (by simp), hcredits]
    rfl

theorem Settled.discards (h : Settled processors q o) (hstopped : o.stopped = true) (branch : ℕ)
    (b : Branch)
    (hb : (exDiscardReady o branch).owner.plant.fanout.branches[branch]? = some b)
    (hrange : branch < o.sinkCount) : oldestReady b = none := by
  rw [exDiscardReady, if_neg (not_le.mpr hrange),
    if_neg (by rw [hstopped]; simp)] at hb
  exact h.level.discards branch hb

theorem settled_create
    {c : FsConfig} {generation : ℕ} {buffers : ℕ → List UInt8} {store : Store} {cfg : FoConfig}
    {incarnation : ℕ} {fanout : Fanout} (hstore : fsCreate c generation buffers = .ok store)
    (hfanout : foCreate cfg incarnation = .ok fanout) (processors capacity session display : ℕ) :
    Settled processors Progress.fresh (exNew store fanout processors capacity session display) where
  processors := rfl
  level := ⟨backed_create hfanout (sound_create hstore).1, ⟨_, flow_create hfanout⟩,
    fun _ hb _ hrow hused => absurd (foCreate_free hfanout hb hrow) hused⟩
  ready := by
    refine ⟨fun _ i => ?_, fun hframe => absurd rfl hframe⟩
    show (store.slots i).state ≠ .ready
    rw [fsCreate_free hstore i]
    simp
  stopped := rfl
  last := Nat.zero_le _
  ended := fun hstopped => absurd hstopped Bool.false_ne_true
  phase := fun _ => rfl
  scratch := fun _ => rfl

/-- **Frame accounting.** -/
theorem executor_accounting (c : FsConfig) (generation : ℕ) (buffers : ℕ → List UInt8)
    (store : Store) (hstore : fsCreate c generation buffers = .ok store) (cfg : FoConfig)
    (incarnation : ℕ) (fanout : Fanout) (hfanout : foCreate cfg incarnation = .ok fanout)
    (processors capacity session display : ℕ) (ops : List ExOp)
    (hops : executorMachine.Along (fun t op => FindsRow t.owner op)
      ⟨exNew store fanout processors capacity session display, []⟩ ops) (t : Traced)
    (ht : t = executorMachine.run
      ⟨exNew store fanout processors capacity session display, []⟩ ops) :
    Orderly processors t.trace ∧ (t.owner.stopped = true → t.owner.Drained → t.owner.Clean) ∧
      (t.owner.stopped = true → ∀ branch b,
        (exDiscardReady t.owner branch).owner.plant.fanout.branches[branch]? = some b →
        branch < t.owner.sinkCount → oldestReady b = none) := by
  have hrun : ∃ q, (protocol processors).run Progress.fresh t.trace = some q ∧
      Settled processors q t.owner := by
    rw [ht]
    refine executorMachine.run_invariant_along (P := fun t => ∃ q,
      (protocol processors).run Progress.fresh t.trace = some q ∧ Settled processors q t.owner)
      ?_ ⟨Progress.fresh, rfl, settled_create hstore hfanout processors capacity session display⟩
      hops
    rintro t op hfinds ⟨q, htrace, hsettled⟩
    obtain ⟨q', hevents, hnext⟩ := hsettled.exStep op hfinds
    exact ⟨q', (run_append htrace).trans hevents, hnext⟩
  obtain ⟨q, htrace, hsettled⟩ := hrun
  exact ⟨orderly_of_run htrace, hsettled.clean, hsettled.discards⟩

/-- A frame is delivered, and the executor stopped. -/
def oneDelivered : List ExOp :=
  [.pumpSource (.frame [10]) (fun _ => 0), .pumpSink 0 0, .stop]

theorem executor_accounting_delivered :
    (executorMachine.run ⟨exNew smallStore latestOwner 1 4 3 4, []⟩ oneDelivered).owner.Clean ∧
      Orderly 1
        (executorMachine.run ⟨exNew smallStore latestOwner 1 4 3 4, []⟩ oneDelivered).trace := by
  have hfinds : executorMachine.Along (fun t op => FindsRow t.owner op)
      ⟨exNew smallStore latestOwner 1 4 3 4, []⟩ oneDelivered := by
    refine ⟨trivial, ?_, trivial, trivial⟩
    intro b k hb hk
    cases hb
    cases hk
    decide
  obtain ⟨horderly, hclean, _⟩ := executor_accounting smallFsConfig 5 (fun _ => []) smallStore rfl
    latestFoConfig 9 latestOwner rfl 1 4 3 4 oneDelivered hfinds _ rfl
  refine ⟨hclean rfl ?_, horderly⟩
  intro b hb
  cases mem_singleton.mp hb
  rfl

end TurboMedia.StreamGraph
