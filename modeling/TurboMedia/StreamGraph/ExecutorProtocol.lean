import TurboMedia.Lib.Acceptor
import TurboMedia.StreamGraph.Executor

/-!
# The protocol of an executor

What the providers of an executor and its fan-out may see, stated without the executor:
a source is polled, the frame gets a reference, the processors are visited one after
the other, the frame is submitted until it is taken, and only then is the source polled
again.  After the end only frames that were taken are shown to sinks.

**Method.**  The protocol is an acceptor of events.  That an accepted sequence is
orderly, in terms of the events alone, follows from what the acceptor remembers.
-/

namespace TurboMedia.StreamGraph

open List Acceptor

/-- Where the frame in hand is. -/
inductive Phase where
  | idle
  | sourced
  | visiting (ref : FrameRef) (accepted : ℕ)
  | refused
deriving DecidableEq

structure Progress where
  phase : Phase
  lastFrame : ℕ
  queued : List FrameRef
  stopped : Bool

/-- The phase after the source has been polled. -/
def SourceReply.phase : SourceReply → Phase
  | .frame _ => .sourced
  | _ => .refused

/-- The progress after a submission of the frame in hand. -/
def Progress.submitted (q : Progress) (ref : FrameRef) (status : FoStatus) : Progress :=
  if status = .ok then
    { q with
      phase := .idle
      queued := q.queued ++ [ref] }
  else q

/-- The protocol with this number of processors. -/
def protocol (processors : ℕ) : Acceptor Progress ExEvent where
  step := fun q e =>
    match e with
    | .source reply =>
      if q.stopped = false ∧ q.phase = .idle then some { q with phase := reply.phase }
      else none
    | .publish ref =>
      if q.stopped = false ∧ q.phase = .sourced ∧ q.lastFrame < ref.frameId then
        some { q with
          phase := .visiting ref 0
          lastFrame := ref.frameId }
      else none
    | .visit i ref _ result =>
      if q.stopped = false ∧ q.phase = .visiting ref i ∧ i < processors then
        some { q with phase := if result = 0 then .visiting ref (i + 1) else .refused }
      else none
    | .submit ref status =>
      if q.stopped = false ∧ q.phase = .visiting ref processors then some (q.submitted ref status)
      else none
    | .sinkVisit _ ref _ _ =>
      if ref ∈ q.queued then some q else none
    | .stopped =>
      if q.stopped = false then some { q with stopped := true } else none

def Progress.fresh : Progress :=
  ⟨.idle, 0, [], false⟩

/-- The visits of processors to a frame, with their results. -/
def visitOf (ref : FrameRef) : ExEvent → Option (ℕ × ℤ)
  | .visit i ref' _ result => if ref' = ref then some (i, result) else none
  | _ => none

def acceptedOf : ExEvent → Option FrameRef
  | .submit ref .ok => some ref
  | _ => none

def ExEvent.isFrame : ExEvent → Bool
  | .source (.frame _) => true
  | _ => false

def ExEvent.isAccepted (e : ExEvent) : Bool :=
  (acceptedOf e).isSome

def ExEvent.isPublish : ExEvent → Bool
  | .publish _ => true
  | _ => false

/-- What happens is in order: every frame of the source gets one new reference, under
which it is visited by the processors in turn, at most once by each; it is submitted when
all have accepted it and not any more once it has been taken; the source is not polled
while a frame is in hand, and what is submitted again is the same frame; after the end
there are only visits of sinks to frames taken before. -/
structure Orderly (processors : ℕ) (trace : List ExEvent) : Prop where
  publishes : ∀ before ref after, trace = before ++ .publish ref :: after →
    before.countP ExEvent.isFrame = before.countP ExEvent.isPublish + 1 ∧
      ExEvent.publish ref ∉ before
  published : ∀ before i ref view result after,
    trace = before ++ .visit i ref view result :: after → ExEvent.publish ref ∈ before
  visits : ∀ ref, ∃ m ≤ processors,
    (trace.filterMap (visitOf ref)).map Prod.fst = List.range m
  submits : ∀ before ref status after, trace = before ++ .submit ref status :: after →
    before.filterMap (visitOf ref) = (List.range processors).map (fun i => (i, 0)) ∧
      ExEvent.submit ref .ok ∉ before
  polls : ∀ before reply after, trace = before ++ .source reply :: after →
    before.countP ExEvent.isFrame = before.countP ExEvent.isAccepted
  retries : ∀ before ref status mid ref' status' after,
    trace = before ++ .submit ref status :: (mid ++ .submit ref' status' :: after) →
    status ≠ .ok → (∀ reply, ExEvent.source reply ∉ mid) → ref' = ref
  stops : ∀ before after, trace = before ++ .stopped :: after → ∀ e ∈ after,
    ∃ branch ref view result, e = .sinkVisit branch ref view result ∧
      ExEvent.submit ref .ok ∈ before

variable {processors : ℕ} {trace : List ExEvent} {q q' : Progress} {e : ExEvent}

section Memory

/-- What the protocol remembers of the events so far. -/
structure Remembers (processors : ℕ) (trace : List ExEvent) (q : Progress) : Prop where
  visits : ∀ ref, ∃ m ≤ processors,
    (trace.filterMap (visitOf ref)).map Prod.fst = List.range m
  inHand : ∀ ref accepted, q.phase = .visiting ref accepted →
    trace.filterMap (visitOf ref) = (List.range accepted).map (fun i => (i, 0)) ∧
      accepted ≤ processors ∧ ref ∉ q.queued ∧ ref.frameId = q.lastFrame
  unseen : ∀ ref, q.lastFrame < ref.frameId → trace.filterMap (visitOf ref) = []
  queued : q.queued = trace.filterMap acceptedOf
  queuedLast : ∀ ref ∈ q.queued, ref.frameId ≤ q.lastFrame
  polled : q.phase ≠ .refused →
    trace.countP ExEvent.isFrame = q.queued.length + if q.phase = .idle then 0 else 1

theorem Remembers.quiet (h : Remembers processors trace q) (hvisit : ∀ ref, visitOf ref e = none)
    (hacc : acceptedOf e = none)
    (hphase : ∀ ref accepted, q'.phase = .visiting ref accepted → q.phase = .visiting ref accepted)
    (hqueued : q'.queued = q.queued) (hlast : q'.lastFrame = q.lastFrame)
    (hpolled : q'.phase ≠ .refused → (trace ++ [e]).countP ExEvent.isFrame =
      q'.queued.length + if q'.phase = .idle then 0 else 1) :
    Remembers processors (trace ++ [e]) q' := by
  have hsame : ∀ ref, (trace ++ [e]).filterMap (visitOf ref) = trace.filterMap (visitOf ref) := by
    intro ref
    rw [filterMap_append, filterMap_cons_none (hvisit ref), filterMap_nil, append_nil]
  constructor
  · intro ref
    rw [hsame]
    exact h.visits ref
  · intro ref accepted hin
    rw [hsame, hqueued, hlast]
    exact h.inHand ref accepted (hphase ref accepted hin)
  · intro ref href
    rw [hlast] at href
    rw [hsame]
    exact h.unseen ref href
  · rw [hqueued, h.queued, filterMap_append, filterMap_cons_none hacc,
      filterMap_nil, append_nil]
  · rw [hqueued, hlast]
    exact h.queuedLast
  · exact hpolled

theorem countP_isFrame_append (trace : List ExEvent) (he : e.isFrame = false) :
    (trace ++ [e]).countP ExEvent.isFrame = trace.countP ExEvent.isFrame := by
  rw [countP_append, countP_singleton, he]
  rfl

theorem filterMap_visitOf_append {ref : FrameRef} (trace : List ExEvent)
    (he : visitOf ref e = none) :
    (trace ++ [e]).filterMap (visitOf ref) = trace.filterMap (visitOf ref) := by
  rw [filterMap_append, filterMap_cons_none he, filterMap_nil, append_nil]

variable (h : Remembers processors trace q)
include h

theorem Remembers.publish {ref : FrameRef}
    (hphase : q.phase = .sourced) (hlast : q.lastFrame < ref.frameId) :
    Remembers processors (trace ++ [.publish ref]) { q with
      phase := .visiting ref 0
      lastFrame := ref.frameId } := by
  have hsame : ∀ ref', (trace ++ [ExEvent.publish ref]).filterMap (visitOf ref') =
      trace.filterMap (visitOf ref') := fun _ => filterMap_visitOf_append trace rfl
  constructor
  · intro ref'
    rw [hsame]
    exact h.visits ref'
  · intro ref' accepted hin
    cases hin
    refine ⟨(hsame ref).trans (h.unseen ref hlast), Nat.zero_le _, fun hmem => ?_, rfl⟩
    exact absurd (h.queuedLast ref hmem) (not_le.mpr hlast)
  · intro ref' href
    rw [hsame]
    exact h.unseen ref' (hlast.trans href)
  · rw [filterMap_append, ← h.queued]
    exact (append_nil _).symm
  · exact fun ref' hmem => (h.queuedLast ref' hmem).trans hlast.le
  · intro _
    rw [countP_isFrame_append trace rfl, h.polled (by rw [hphase]; simp), hphase]
    rfl

theorem Remembers.visit {ref : FrameRef} {i : ℕ}
    (hphase : q.phase = .visiting ref i) (hi : i < processors) (view : CpuView) (result : ℤ) :
    Remembers processors (trace ++ [.visit i ref view result])
      { q with phase := if result = 0 then .visiting ref (i + 1) else .refused } := by
  obtain ⟨hvisits, _, hqueued, hlast⟩ := h.inHand ref i hphase
  have hself : (trace ++ [ExEvent.visit i ref view result]).filterMap (visitOf ref) =
      (List.range i).map (fun j => (j, 0)) ++ [(i, result)] := by
    have hvisit : visitOf ref (.visit i ref view result) = some (i, result) := if_pos rfl
    rw [filterMap_append, hvisits, filterMap_cons_some hvisit, filterMap_nil]
  have hother : ∀ ref', ref' ≠ ref →
      (trace ++ [ExEvent.visit i ref view result]).filterMap (visitOf ref') =
        trace.filterMap (visitOf ref') :=
    fun ref' hne => filterMap_visitOf_append trace (if_neg (Ne.symm hne))
  constructor
  · intro ref'
    by_cases heq : ref' = ref
    · subst heq
      refine ⟨i + 1, hi, ?_⟩
      rw [hself, map_append, map_map, range_succ]
      congr 1
      exact map_id _
    · rw [hother ref' heq]
      exact h.visits ref'
  · intro ref' accepted hin
    split_ifs at hin with hres
    cases hin
    refine ⟨?_, hi, hqueued, hlast⟩
    rw [hself, range_succ, map_append, hres]
    rfl
  · intro ref' href
    have hne : ref' ≠ ref := by
      rintro rfl
      exact absurd hlast (ne_of_gt href)
    rw [hother ref' hne]
    exact h.unseen ref' href
  · rw [filterMap_append, ← h.queued]
    exact (append_nil _).symm
  · exact h.queuedLast
  · intro hrefused
    split_ifs at hrefused with hres
    · rw [if_pos hres, countP_isFrame_append trace rfl,
        h.polled (by rw [hphase]; simp), hphase]
      rfl
    · exact absurd rfl hrefused

theorem Remembers.accept {ref : FrameRef} (hphase : q.phase = .visiting ref processors) :
    Remembers processors (trace ++ [.submit ref .ok]) { q with
      phase := .idle
      queued := q.queued ++ [ref] } := by
  obtain ⟨_, _, _, hlast⟩ := h.inHand ref processors hphase
  have hsame : ∀ ref', (trace ++ [ExEvent.submit ref .ok]).filterMap (visitOf ref') =
      trace.filterMap (visitOf ref') := fun _ => filterMap_visitOf_append trace rfl
  constructor
  · intro ref'
    rw [hsame]
    exact h.visits ref'
  · exact fun _ _ hin => by cases hin
  · intro ref' href
    rw [hsame]
    exact h.unseen ref' href
  · rw [filterMap_append, ← h.queued]
    rfl
  · intro ref' hmem
    rcases mem_append.mp hmem with hmem | hmem
    · exact h.queuedLast ref' hmem
    · rw [mem_singleton] at hmem
      rw [hmem]
      exact hlast.le
  · intro _
    rw [countP_isFrame_append trace rfl, h.polled (by rw [hphase]; simp), hphase,
      length_append]
    rfl

theorem Remembers.step (hstep : (protocol processors).step q e = some q') :
    Remembers processors (trace ++ [e]) q' := by
  cases e with
  | source reply =>
    obtain ⟨hguard, hnext⟩ := Option.ite_none_right_eq_some.mp hstep
    cases hnext
    have hpolled := h.polled (by rw [hguard.2]; simp)
    rw [hguard.2, if_pos rfl] at hpolled
    refine h.quiet (fun _ => rfl) rfl ?_ rfl rfl ?_
    · intro ref accepted hin
      cases reply <;> cases hin
    · intro hphase
      cases reply with
      | frame data =>
        rw [countP_append, hpolled]
        rfl
      | eos | failed => exact absurd rfl hphase
  | publish ref =>
    obtain ⟨hguard, hnext⟩ := Option.ite_none_right_eq_some.mp hstep
    cases hnext
    exact h.publish hguard.2.1 hguard.2.2
  | visit i ref view result =>
    obtain ⟨hguard, hnext⟩ := Option.ite_none_right_eq_some.mp hstep
    cases hnext
    exact h.visit hguard.2.1 hguard.2.2 view result
  | submit ref status =>
    obtain ⟨hguard, hnext⟩ := Option.ite_none_right_eq_some.mp hstep
    cases hnext
    rw [Progress.submitted]
    split_ifs with hok
    · rw [hok]
      exact h.accept hguard.2
    · refine h.quiet (fun _ => rfl) ?_ (fun _ _ hin => hin) rfl rfl (fun hphase => ?_)
      · cases status with
        | ok => exact absurd rfl hok
        | _ => rfl
      · rw [countP_isFrame_append trace rfl]
        exact h.polled hphase
  | sinkVisit branch ref view result | stopped =>
    obtain ⟨_, hnext⟩ := Option.ite_none_right_eq_some.mp hstep
    cases hnext
    refine h.quiet (fun _ => rfl) rfl (fun _ _ hin => hin) rfl rfl (fun hphase => ?_)
    rw [countP_isFrame_append trace rfl]
    exact h.polled hphase

omit h

theorem remembers_fresh (processors : ℕ) :
    Remembers processors [] Progress.fresh where
  visits := fun _ => ⟨0, Nat.zero_le _, rfl⟩
  inHand := fun _ _ hin => by cases hin
  unseen := fun _ _ => rfl
  queued := rfl
  queuedLast := fun _ hmem => absurd hmem not_mem_nil
  polled := fun _ => rfl

theorem remembers_of_run (h : (protocol processors).run Progress.fresh trace = some q) :
    Remembers processors trace q := by
  have hrun := run_invariant (I := Remembers processors)
    (fun _ _ _ _ hpre hstep => hpre.step hstep) (remembers_fresh processors) h
  exact hrun

end Memory

section Numbers

/-- What the protocol remembers of the references that were given. -/
structure Numbers (trace : List ExEvent) (q : Progress) : Prop where
  published : ∀ ref accepted, q.phase = .visiting ref accepted → ExEvent.publish ref ∈ trace
  last : ∀ ref, ExEvent.publish ref ∈ trace → ref.frameId ≤ q.lastFrame
  frames : q.phase ≠ .refused → trace.countP ExEvent.isFrame =
    trace.countP ExEvent.isPublish + if q.phase = .sourced then 1 else 0

theorem Numbers.quiet (h : Numbers trace q) (hframe : e.isFrame = false)
    (hpublish : e.isPublish = false)
    (hphase : ∀ ref accepted, q'.phase = .visiting ref accepted →
      ∃ before, q.phase = .visiting ref before) (hlast : q'.lastFrame = q.lastFrame)
    (hsourced : q'.phase ≠ .refused →
      q.phase ≠ .refused ∧ (q'.phase = .sourced ↔ q.phase = .sourced)) :
    Numbers (trace ++ [e]) q' := by
  constructor
  · intro ref accepted hin
    obtain ⟨before, hbef⟩ := hphase ref accepted hin
    exact mem_append_left _ (h.published ref before hbef)
  · intro ref hmem
    rw [hlast]
    rcases mem_append.mp hmem with hmem | hmem
    · exact h.last ref hmem
    · rw [mem_singleton] at hmem
      rw [← hmem] at hpublish
      cases hpublish
  · intro hrefused
    obtain ⟨hbef, hiff⟩ := hsourced hrefused
    rw [countP_append, countP_append, countP_singleton, countP_singleton,
      hframe, hpublish, if_congr hiff rfl rfl]
    exact h.frames hbef

theorem Numbers.source (h : Numbers trace q) (hphase : q.phase = .idle) (reply : SourceReply) :
    Numbers (trace ++ [.source reply]) { q with phase := reply.phase } := by
  have hfrs := h.frames (by rw [hphase]; simp)
  rw [hphase] at hfrs
  cases reply with
  | frame data =>
    refine ⟨by simp [SourceReply.phase], fun ref hmem => h.last ref ?_, fun _ => ?_⟩
    · rcases mem_append.mp hmem with hmem | hmem
      · exact hmem
      · cases mem_singleton.mp hmem
    · rw [countP_append, countP_append, hfrs]
      rfl
  | eos | failed =>
    exact h.quiet rfl rfl (fun _ _ hin => by cases hin) rfl (fun hin => absurd rfl hin)

theorem Numbers.publish {ref : FrameRef} (h : Numbers trace q) (hphase : q.phase = .sourced)
    (hlast : q.lastFrame < ref.frameId) :
    Numbers (trace ++ [.publish ref]) { q with
      phase := .visiting ref 0
      lastFrame := ref.frameId } := by
  have hfrs := h.frames (by rw [hphase]; simp)
  rw [hphase] at hfrs
  refine ⟨fun ref' accepted hin => ?_, fun ref' hmem => ?_, fun _ => ?_⟩
  · cases hin
    exact mem_append_right _ mem_cons_self
  · rcases mem_append.mp hmem with hmem | hmem
    · exact (h.last ref' hmem).trans hlast.le
    · cases mem_singleton.mp hmem
      exact le_rfl
  · rw [countP_append, countP_append, hfrs]
    rfl

theorem Numbers.step (h : Numbers trace q) (hstep : (protocol processors).step q e = some q') :
    Numbers (trace ++ [e]) q' := by
  cases e with
  | source reply =>
    obtain ⟨hguard, hnext⟩ := Option.ite_none_right_eq_some.mp hstep
    cases hnext
    exact h.source hguard.2 reply
  | publish ref =>
    obtain ⟨hguard, hnext⟩ := Option.ite_none_right_eq_some.mp hstep
    cases hnext
    exact h.publish hguard.2.1 hguard.2.2
  | visit i ref view result =>
    obtain ⟨hguard, hnext⟩ := Option.ite_none_right_eq_some.mp hstep
    cases hnext
    refine h.quiet rfl rfl (fun ref' accepted hin => ?_) rfl (fun hrefused => ?_)
    · dsimp only at hin
      split_ifs at hin
      cases hin
      exact ⟨i, hguard.2.1⟩
    · rw [hguard.2.1]
      split_ifs at hrefused with hres
      · rw [if_pos hres]
        exact ⟨by simp, iff_of_false (by simp) (by simp)⟩
      · exact absurd rfl hrefused
  | submit ref status =>
    obtain ⟨hguard, hnext⟩ := Option.ite_none_right_eq_some.mp hstep
    cases hnext
    rw [Progress.submitted]
    split_ifs
    · refine h.quiet rfl rfl (fun _ _ hin => by cases hin) rfl (fun _ => ?_)
      rw [hguard.2]
      exact ⟨by simp, iff_of_false (by simp) (by simp)⟩
    · exact h.quiet rfl rfl (fun _ accepted hin => ⟨accepted, hin⟩) rfl
        (fun hin => ⟨hin, Iff.rfl⟩)
  | sinkVisit branch ref view result | stopped =>
    obtain ⟨_, hnext⟩ := Option.ite_none_right_eq_some.mp hstep
    cases hnext
    exact h.quiet rfl rfl (fun _ accepted hin => ⟨accepted, hin⟩) rfl
      (fun hin => ⟨hin, Iff.rfl⟩)

theorem numbers_of_run (h : (protocol processors).run Progress.fresh trace = some q) :
    Numbers trace q := by
  have hfresh : Numbers [] Progress.fresh :=
    ⟨by simp [Progress.fresh], by simp, fun _ => rfl⟩
  have hrun := run_invariant (I := Numbers)
    (fun _ _ _ _ hpre hstep => hpre.step hstep) hfresh h
  exact hrun

end Numbers

variable {before after : List ExEvent} {ref : FrameRef}

theorem Remembers.mem_queued (h : Remembers processors trace q) :
    ref ∈ q.queued ↔ ExEvent.submit ref .ok ∈ trace := by
  rw [h.queued, mem_filterMap]
  constructor
  · rintro ⟨e, hmem, he⟩
    cases e with
    | submit ref' status =>
      cases status <;> cases he
      exact hmem
    | _ => cases he
  · exact fun hmem => ⟨_, hmem, rfl⟩

/-- A frame that every processor has accepted stays in hand until it is taken. -/
theorem protocol_held (hstep : (protocol processors).step q e = some q')
    (hsrc : ∀ reply, ExEvent.source reply ≠ e)
    (hphase : q.phase = .visiting ref processors ∨ q.phase = .idle) :
    q'.phase = .visiting ref processors ∨ q'.phase = .idle := by
  cases e with
  | source reply => exact absurd rfl (hsrc reply)
  | publish ref' =>
    obtain ⟨hguard, _⟩ := Option.ite_none_right_eq_some.mp hstep
    rw [hguard.2.1] at hphase
    rcases hphase with hphase | hphase <;> cases hphase
  | visit i ref' view result =>
    obtain ⟨hguard, _⟩ := Option.ite_none_right_eq_some.mp hstep
    rw [hguard.2.1] at hphase
    rcases hphase with hphase | hphase
    · cases hphase
      exact absurd hguard.2.2 (lt_irrefl processors)
    · cases hphase
  | submit ref' status =>
    obtain ⟨_, hnext⟩ := Option.ite_none_right_eq_some.mp hstep
    cases hnext
    rw [Progress.submitted]
    split_ifs
    · exact Or.inr rfl
    · exact hphase
  | sinkVisit branch ref' view result | stopped =>
    obtain ⟨_, hnext⟩ := Option.ite_none_right_eq_some.mp hstep
    cases hnext
    exact hphase

/-- After the end only frames that were taken are visited, and only by sinks. -/
theorem protocol_ended (hstep : (protocol processors).step q e = some q')
    (hstopped : q.stopped = true) :
    q' = q ∧ ∃ branch ref view result, e = .sinkVisit branch ref view result ∧ ref ∈ q.queued := by
  have hrunning : q.stopped ≠ false := by
    rw [hstopped]
    simp
  cases e with
  | sinkVisit branch ref view result =>
    obtain ⟨hmem, hnext⟩ := Option.ite_none_right_eq_some.mp hstep
    cases hnext
    exact ⟨rfl, branch, ref, view, result, rfl, hmem⟩
  | stopped => exact absurd (Option.ite_none_right_eq_some.mp hstep).1 hrunning
  | _ => exact absurd (Option.ite_none_right_eq_some.mp hstep).1.1 hrunning

/-- **Order.**  What the protocol accepts is orderly. -/
theorem orderly_of_run (h : (protocol processors).run Progress.fresh trace = some q) :
    Orderly processors trace := by
  constructor
  · intro before ref after heq
    rw [heq] at h
    obtain ⟨r, r', hbef, hstep, _⟩ := run_split h
    have hmem := numbers_of_run hbef
    have hguard := (Option.ite_none_right_eq_some.mp hstep).1
    have hfrs := hmem.frames (by rw [hguard.2.1]; simp)
    rw [if_pos hguard.2.1] at hfrs
    exact ⟨hfrs, fun hin => absurd (hmem.last ref hin) (not_le.mpr hguard.2.2)⟩
  · intro before i ref view result after heq
    rw [heq] at h
    obtain ⟨r, r', hbef, hstep, _⟩ := run_split h
    have hguard := (Option.ite_none_right_eq_some.mp hstep).1
    exact (numbers_of_run hbef).published ref i hguard.2.1
  · exact (remembers_of_run h).visits
  · intro before ref status after heq
    rw [heq] at h
    obtain ⟨r, r', hbef, hstep, _⟩ := run_split h
    have hmem := remembers_of_run hbef
    have hguard := (Option.ite_none_right_eq_some.mp hstep).1
    obtain ⟨hvisits, _, hqueued, _⟩ := hmem.inHand ref processors hguard.2
    exact ⟨hvisits, fun hin => hqueued (hmem.mem_queued.mpr hin)⟩
  · intro before reply after heq
    rw [heq] at h
    obtain ⟨r, r', hbef, hstep, _⟩ := run_split h
    have hmem := remembers_of_run hbef
    have hguard := (Option.ite_none_right_eq_some.mp hstep).1
    have hpolled := hmem.polled (by rw [hguard.2]; simp)
    rw [hguard.2, if_pos rfl, hmem.queued, length_filterMap_eq_countP] at hpolled
    exact hpolled
  · intro before ref status mid ref' status' after heq hstat hmid
    rw [heq] at h
    obtain ⟨r, r', _, hstep, hrest⟩ := run_split h
    obtain ⟨hguard, hnext⟩ := Option.ite_none_right_eq_some.mp hstep
    cases hnext
    rw [Progress.submitted, if_neg hstat] at hrest
    obtain ⟨s, s', hrun, hagain, _⟩ := run_split hrest
    have hheld := run_keeps
      (fun q e q' hmem hq hs => protocol_held hs (fun reply heq => hmid reply (heq ▸ hmem)) hq)
      (Or.inl hguard.2) hrun
    have hphase := (Option.ite_none_right_eq_some.mp hagain).1.2
    rw [hphase] at hheld
    rcases hheld with hheld | hheld
    · cases hheld
      rfl
    · cases hheld
  · intro before after heq e hmem
    rw [heq] at h
    obtain ⟨r, r', hbef, hstep, hrest⟩ := run_split h
    obtain ⟨_, hnext⟩ := Option.ite_none_right_eq_some.mp hstep
    cases hnext
    obtain ⟨mid, rest, rfl⟩ := append_of_mem hmem
    obtain ⟨s, s', hrun, hlast, _⟩ := run_split hrest
    have hended : s.stopped = true ∧ s.queued = r.queued :=
      run_keeps (I := fun s => s.stopped = true ∧ s.queued = r.queued)
        (fun q e q' _ hq hs => by
          rw [(protocol_ended hs hq.1).1]
          exact hq)
        ⟨rfl, rfl⟩ hrun
    obtain ⟨_, branch, ref, view, result, he, hqueued⟩ := protocol_ended hlast hended.1
    rw [hended.2, (remembers_of_run hbef).mem_queued] at hqueued
    exact ⟨branch, ref, view, result, he, hqueued⟩

end TurboMedia.StreamGraph
