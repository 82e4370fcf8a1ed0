import TurboMedia.Lib.Ring
import TurboMedia.Pipeline.RuntimeQueue

/-!
# What the input queue of a Runtime/RTP pipeline delivers

In every state that the threads reach, in whatever order, the worker has read a prefix of the
accepted frames from their slots, byte for byte; what is accepted and not finished is stored in
the ring, and `count` is its length until the worker ends the run.  A frame that is refused for
lack of room or size makes the run end with `TURBO_PIPELINE_EBACKPRESSURE`, unless a stop or a
failed packet ends it first, and the worker takes no frame after it.
-/

namespace TurboMedia.Pipeline

open List Function WorkerPc RuntimePipeline

def WorkerPc.live : WorkerPc → Bool
  | idle | started | checking | asleep _ | holding _ | processed _ _ => true
  | _ => false

def Ending.drops : Ending → Bool
  | stopped | asyncFailed _ => true
  | stoppedEarly | packetFailed _ => false

/-- `count` was set to zero and the queue is not freed yet. -/
def WorkerPc.dropped : WorkerPc → Bool
  | releasing ending | unsubscribing ending | freeing ending => ending.drops
  | _ => false

def WorkerPc.freed : WorkerPc → Bool
  | finishing _ | ended _ => true
  | _ => false

/-- `pipeline_runtime_release` has passed its critical section. -/
def WorkerPc.closed : WorkerPc → Bool
  | unsubscribing _ | freeing _ | finishing _ | ended _ => true
  | _ => false

/-- The worker has read the slot of the frame it holds. -/
def WorkerPc.hasRead : WorkerPc → Bool
  | processed _ _ => true
  | _ => false

def WorkerPc.entry? : WorkerPc → Option QueueEntry
  | holding entry => some entry
  | processed entry _ => some entry
  | _ => none

/-- The state that goes with the place of the worker. -/
def WorkerPc.Fits (state : PipelineState) : WorkerPc → Prop
  | idle => state = .prepared
  | ended ending => state = ending.state
  | _ => state = .running ∨ state = .stopping

section Stored

variable {o : RuntimeOptions} {entries : ℕ → QueueEntry} {slots : ℕ → List UInt8}
  {head tail : ℕ} {pending : List Frame}

def readSlot (slots : ℕ → List UInt8) (entry : QueueEntry) : Frame :=
  ⟨entry.info, (slots entry.slot).take entry.size⟩

/-- The ring stores the frames from `head` on, each with its bytes in the slot of its place. -/
structure Stored (o : RuntimeOptions) (entries : ℕ → QueueEntry) (slots : ℕ → List UInt8)
    (head tail : ℕ) (pending : List Frame) : Prop where
  head_lt : head < o.queueCapacity
  tail_eq : tail = (head + pending.length) % o.queueCapacity
  fits : pending.length ≤ o.queueCapacity
  slot_eq : ∀ p < pending.length,
    (entries ((head + p) % o.queueCapacity)).slot = (head + p) % o.queueCapacity
  frame_eq : ∀ p < pending.length,
    pending[p]? = some (readSlot slots (entries ((head + p) % o.queueCapacity)))

theorem take_copyTo (slot data : List UInt8) : (copyTo slot data).take data.length = data := by
  simp [copyTo]

theorem Stored.enqueue (h : Stored o entries slots head tail pending)
    (hroom : pending.length < o.queueCapacity) (frame : Frame) :
    Stored o (update entries tail ⟨frame.info, frame.data.length, tail⟩)
      (update slots tail (copyTo (slots tail) frame.data))
      head ((tail + 1) % o.queueCapacity) (pending ++ [frame]) := by
  have hother : ∀ p < pending.length, (head + p) % o.queueCapacity ≠ tail := by
    intro p hp heq
    rw [h.tail_eq] at heq
    have := Ring.index_injective (by omega) hroom heq
    omega
  refine ⟨h.head_lt, ?_, ?_, ?_, ?_⟩
  · rw [h.tail_eq, Nat.mod_add_mod, length_append, length_singleton, Nat.add_assoc]
  · rw [length_append, length_singleton]
    exact hroom
  · intro p hp
    rw [length_append, length_singleton] at hp
    by_cases hlt : p < pending.length
    · rw [update_of_ne (hother p hlt), h.slot_eq p hlt]
    · obtain rfl : p = pending.length := by omega
      rw [← h.tail_eq, update_self]
  · intro p hp
    rw [length_append, length_singleton] at hp
    by_cases hlt : p < pending.length
    · rw [update_of_ne (hother p hlt), getElem?_append_left hlt, h.frame_eq p hlt,
        readSlot, readSlot, h.slot_eq p hlt, update_of_ne (hother p hlt)]
    · obtain rfl : p = pending.length := by omega
      rw [← h.tail_eq, update_self, readSlot, update_self, take_copyTo]
      simp

theorem Stored.finish {frame : Frame} (h : Stored o entries slots head tail (frame :: pending)) :
    Stored o entries slots ((head + 1) % o.queueCapacity) tail pending := by
  have hfits := h.fits
  have hpos := h.head_lt
  have hidx : ∀ p, ((head + 1) % o.queueCapacity + p) % o.queueCapacity =
      (head + (p + 1)) % o.queueCapacity := by
    intro p
    rw [Nat.mod_add_mod, Nat.add_assoc, Nat.add_comm 1 p]
  rw [length_cons] at hfits
  refine ⟨Nat.mod_lt _ (by omega), ?_, by omega, ?_, ?_⟩
  · rw [h.tail_eq, hidx, length_cons]
  · intro p hp
    rw [hidx]
    exact h.slot_eq (p + 1) (by rw [length_cons]; omega)
  · intro p hp
    rw [hidx, ← h.frame_eq (p + 1) (by rw [length_cons]; omega), getElem?_cons_succ]

theorem Stored.first {frame : Frame} (h : Stored o entries slots head tail (frame :: pending)) :
    readSlot slots (entries head) = frame := by
  have hframe := h.frame_eq 0 (by simp)
  rw [Nat.add_zero, Nat.mod_eq_of_lt h.head_lt] at hframe
  simpa using hframe.symm

end Stored

section Invariant

/-- What holds in every state, apart from the sleep of the worker. -/
structure Core (o : RuntimeOptions) (s : RuntimePipeline) : Prop where
  sync : s.syncInitialized = !s.worker.freed
  stored : s.worker.freed = false →
    Stored o s.entries s.packetSlots s.head s.tail (s.accepted.drop s.packetsRead)
  count : s.count =
    if s.worker.dropped || s.worker.freed then 0 else s.accepted.length - s.packetsRead
  closed : s.worker.dropped || s.worker.closed → s.accepting = false
  read_le : s.packetsRead ≤ s.accepted.length
  processed : s.processed =
    s.accepted.take (s.packetsRead + if s.worker.hasRead then 1 else 0)
  held : ∀ entry, s.worker.entry? = some entry →
    entry = s.entries s.head ∧ s.packetsRead < s.accepted.length
  state : s.worker.Fits s.state

/-- The worker does not sleep while there is something to do. -/
def Awake (s : RuntimePipeline) : Prop :=
  s.worker = .asleep false → s.count = 0 ∧ s.asyncStatus = .ok

theorem prepare_core (o : RuntimeOptions) :
    Core o prepare where
  sync := rfl
  stored := by
    intro _
    have hcap := o.queueCapacity_range
    exact ⟨hcap.1, by simp [prepare], by simp [prepare],
      by simp [prepare], by simp [prepare]⟩
  count := rfl
  closed := by simp [prepare, dropped, closed]
  read_le := le_rfl
  processed := rfl
  held := by simp [prepare, entry?]
  state := rfl

variable {o : RuntimeOptions} {s : RuntimePipeline}

theorem signal_cases (s : RuntimePipeline) :
    (∃ signalled, s.worker = .asleep signalled ∧ s.signal = { s with worker := .asleep true }) ∨
      ((∀ signalled, s.worker ≠ .asleep signalled) ∧ s.signal = s) := by
  cases hworker : s.worker with
  | asleep signalled =>
    left
    exact ⟨signalled, rfl, by simp [signal, hworker]⟩
  | _ =>
    right
    exact ⟨by simp, by simp [signal, hworker]⟩

theorem signal_awake (s : RuntimePipeline) :
    Awake s.signal := by
  rcases signal_cases s with ⟨signalled, hworker, heq⟩ | ⟨hworker, heq⟩
  · rw [heq]
    simp [Awake]
  · rw [heq]
    intro hasleep
    exact absurd hasleep (hworker false)

/-- A signal keeps what does not depend on whether the worker was signalled. -/
theorem Core.signal (h : Core o s) : Core o s.signal := by
  rcases signal_cases s with ⟨signalled, hworker, heq⟩ | ⟨hworker, heq⟩
  · obtain ⟨hsync, hstored, hcount, hclosed, hle, hproc, hheld, hstate⟩ := h
    rw [heq]
    rw [hworker] at hsync hstored hcount hclosed hproc hheld hstate
    exact ⟨hsync, hstored, hcount, hclosed, hle, hproc, hheld, hstate⟩
  · rw [heq]
    exact h

/-- `count` counts what is accepted and not finished as long as the queue is open. -/
theorem Core.count_of_accepting (h : Core o s) (haccepting : s.accepting = true) :
    s.worker.freed = false ∧ s.count = s.accepted.length - s.packetsRead := by
  have hclosed : ¬ (s.worker.dropped || s.worker.closed) = true := by
    intro hc
    rw [h.closed hc] at haccepting
    cases haccepting
  have hfreed : s.worker.freed = false := by
    cases hworker : s.worker <;> simp_all [WorkerPc.freed, WorkerPc.closed]
  refine ⟨hfreed, ?_⟩
  rw [h.count, hfreed]
  simp_all

theorem Core.enqueue (h : Core o s) (haccepting : s.accepting = true)
    (hroom : s.count ≠ o.queueCapacity) (frame : Frame) : Core o (s.enqueue o frame) := by
  obtain ⟨hfreed, hcount⟩ := h.count_of_accepting haccepting
  have hstored := h.stored hfreed
  have hle := h.read_le
  have hfits := hstored.fits
  rw [length_drop] at hfits
  have hdrop : (s.accepted ++ [frame]).drop s.packetsRead =
      s.accepted.drop s.packetsRead ++ [frame] := drop_append_of_le_length hle
  refine ⟨h.sync, ?_, ?_, h.closed, ?_, ?_, ?_, h.state⟩
  · intro _
    change Stored o _ _ _ _ ((s.accepted ++ [frame]).drop s.packetsRead)
    rw [hdrop]
    exact hstored.enqueue (by rw [length_drop]; omega) frame
  · have hdropped : s.worker.dropped = false := by
      by_contra hne
      rw [h.closed (by simp_all)] at haccepting
      cases haccepting
    change s.count + 1 = if s.worker.dropped || s.worker.freed then 0 else
      (s.accepted ++ [frame]).length - s.packetsRead
    rw [hdropped, hfreed, hcount, length_append, length_singleton]
    simp only [Bool.or_self, Bool.false_eq_true, if_false]
    omega
  · change s.packetsRead ≤ (s.accepted ++ [frame]).length
    rw [length_append]
    omega
  · change s.processed = (s.accepted ++ [frame]).take _
    rw [h.processed]
    refine (take_append_of_le_length ?_).symm
    cases hworker : s.worker with
    | processed entry result =>
      have hlt := (h.held entry (by rw [hworker]; rfl)).2
      exact hlt
    | _ => exact hle
  · intro entry hent
    obtain ⟨heq, hlt⟩ := h.held entry hent
    -- the frame that is held keeps its entry: the tail is not the head
    have htail : s.head ≠ s.tail := by
      intro hht
      have hh := hstored.tail_eq
      rw [← hht, length_drop] at hh
      have := Ring.index_injective (n := o.queueCapacity) (p := 0)
        (q := s.accepted.length - s.packetsRead) (by omega) (by omega)
        (by rw [Nat.add_zero, Nat.mod_eq_of_lt hstored.head_lt]; exact hh)
      omega
    refine ⟨?_, ?_⟩
    · change entry = update s.entries s.tail _ s.head
      rw [update_of_ne htail, heq]
    · change s.packetsRead < (s.accepted ++ [frame]).length
      rw [length_append]
      omega

/-- The invariant of every state. -/
structure Law (o : RuntimeOptions) (s : RuntimePipeline) : Prop where
  core : Core o s
  awake : Awake s

theorem prepare_law (o : RuntimeOptions) :
    Law o prepare where
  core := prepare_core o
  awake := by simp [Awake, prepare]

/-- What a call of the publisher can do. -/
inductive FrameOutcome (o : RuntimeOptions) (s : RuntimePipeline) :
    Option Frame → RuntimePipeline × MediaStatus → Prop
  | invalid :
      FrameOutcome o s none (s, .errInvalid)
  | otherTrack {frame : Frame} :
      findTrack o frame.info.trackId = false →
      FrameOutcome o s (some frame) (s, .ok)
  | closed {frame : Frame} :
      FrameOutcome o s (some frame) (s, .errState)
  | refused {frame : Frame} :
      s.accepting = true → s.stopRequested = false →
      FrameOutcome o s (some frame)
        (({ s with asyncStatus := .ebackpressure } : RuntimePipeline).signal, .errFull)
  | queued {frame : Frame} :
      s.accepting = true → s.count ≠ o.queueCapacity →
      FrameOutcome o s (some frame) ((s.enqueue o frame).signal, .ok)

theorem onFrame_outcome (o : RuntimeOptions) (s : RuntimePipeline) (frame : Option Frame) :
    FrameOutcome o s frame (onFrame o s frame) := by
  cases frame with
  | none => exact .invalid
  | some frame =>
    simp only [onFrame, Bool.not_eq_eq_eq_not, Bool.not_true, Bool.or_eq_true]
    split_ifs with htrack hopen hroom
    · exact .otherTrack htrack
    · exact .closed
    · exact .refused (by simp_all) (by simp_all)
    · exact .queued (by simp_all) (by simp_all)

theorem Law.onFrame (h : Law o s) (frame : Option Frame) : Law o (onFrame o s frame).1 := by
  have hout := onFrame_outcome o s frame
  generalize Pipeline.onFrame o s frame = out at hout
  cases hout with
  | invalid | otherTrack _ | closed => exact h
  | refused _ _ =>
    obtain ⟨hsync, hstored, hcount, hclosed, hle, hproc, hheld, hstate⟩ := h.core
    have hcore : Core o { s with asyncStatus := .ebackpressure } :=
      ⟨hsync, hstored, hcount, hclosed, hle, hproc, hheld, hstate⟩
    exact ⟨hcore.signal, signal_awake _⟩
  | queued haccepting hroom => exact ⟨(h.core.enqueue haccepting hroom _).signal, signal_awake _⟩

theorem Law.checkQueue (h : Law o s)
    (hworker : s.worker = .checking ∨ ∃ signalled, s.worker = .asleep signalled) :
    Law o (checkQueue s) := by
  obtain ⟨⟨hsync, hstored, hcount, hclosed, hle, hproc, hheld, hstate⟩, -⟩ := h
  have hsame : s.worker.freed = false ∧ s.worker.dropped = false ∧ s.worker.hasRead = false ∧
      (s.state = .running ∨ s.state = .stopping) := by
    rcases hworker with hw | ⟨signalled, hw⟩
    · rw [hw] at hstate ⊢
      exact ⟨rfl, rfl, rfl, hstate⟩
    · rw [hw] at hstate ⊢
      exact ⟨rfl, rfl, rfl, hstate⟩
  obtain ⟨hfreed, hdropped, hread, hstate⟩ := hsame
  rw [hfreed] at hsync hstored hcount
  rw [hread] at hproc
  rw [hdropped] at hcount
  unfold Pipeline.checkQueue
  split_ifs with hempty hstat hstop
  · exact ⟨⟨hsync, hstored, hcount, by simp [dropped, closed], hle, hproc,
      by simp [WorkerPc.entry?], hstate⟩, fun _ => ⟨hempty.1, hempty.2.2⟩⟩
  · exact ⟨⟨hsync, hstored, rfl, fun _ => rfl, hle, hproc, by simp [WorkerPc.entry?],
      hstate⟩, by simp [Awake]⟩
  · exact ⟨⟨hsync, hstored, rfl, fun _ => rfl, hle, hproc, by simp [WorkerPc.entry?],
      hstate⟩, by simp [Awake]⟩
  · refine ⟨⟨hsync, hstored, hcount, by simp [dropped, closed], hle, hproc,
      ?_, hstate⟩, by simp [Awake]⟩
    intro entry hent
    obtain rfl : s.entries s.head = entry := by simpa [WorkerPc.entry?] using hent
    have hcount' : s.count = s.accepted.length - s.packetsRead := by simpa using hcount
    have hne : s.count ≠ 0 := by
      intro hzero
      simp_all
    refine ⟨rfl, ?_⟩
    change s.packetsRead < s.accepted.length
    omega

theorem Core.read_held (h : Core o s) {entry : QueueEntry} (hent : s.worker.entry? = some entry) :
    s.accepted[s.packetsRead]? = some (s.read entry) := by
  obtain ⟨rfl, hlt⟩ := h.held entry hent
  have hfreed : s.worker.freed = false := by
    cases hworker : s.worker <;> simp_all [WorkerPc.entry?, freed]
  have hstored := h.stored hfreed
  rw [drop_eq_getElem_cons hlt] at hstored
  rw [getElem?_eq_getElem hlt, ← hstored.first]
  rfl

variable (h : Law o s)
include h

theorem Law.finishPacket {entry : QueueEntry} {result : PacketResult}
    (hworker : s.worker = .processed entry result) : Law o (finishPacket o s entry result) := by
  obtain ⟨⟨hsync, hstored, hcount, hclosed, hle, hproc, hheld, hstate⟩, -⟩ := h
  rw [hworker] at hsync hstored hcount hclosed hproc hheld hstate
  obtain ⟨-, hlt⟩ := hheld entry rfl
  have hfinished : Stored o s.entries s.packetSlots ((s.head + 1) % o.queueCapacity) s.tail
      (s.accepted.drop (s.packetsRead + 1)) := by
    have hbef := hstored rfl
    rw [drop_eq_getElem_cons hlt] at hbef
    exact hbef.finish
  have hcount' : s.count - 1 = s.accepted.length - (s.packetsRead + 1) := by
    have : s.count = s.accepted.length - s.packetsRead := hcount
    omega
  unfold Pipeline.finishPacket
  split
  · exact ⟨⟨hsync, fun _ => hfinished, hcount', by simp [dropped, closed], hlt,
      hproc, by simp [WorkerPc.entry?], hstate⟩, by simp [Awake]⟩
  · obtain ⟨status, hstat⟩ : ∃ status,
        (if result.errorCode ≠ .ok then releasing (.packetFailed result.errorCode) else
          releasing (.packetFailed .eio)) = .releasing (.packetFailed status) := by
      split_ifs
      · exact ⟨_, rfl⟩
      · exact ⟨_, rfl⟩
    rw [hstat]
    exact ⟨⟨hsync, fun _ => hfinished, hcount',
      by simp [dropped, closed, Ending.drops], hlt, hproc,
      by simp [WorkerPc.entry?], hstate⟩, by simp [Awake]⟩

theorem Law.work (result : PacketResult) : Law o (work o s result) := by
  have hlaw := h
  obtain ⟨⟨hsync, hstored, hcount, hclosed, hle, hproc, hheld, hstate⟩, -⟩ := h
  unfold Pipeline.work
  generalize hworker : s.worker = worker at hsync hstored hcount hclosed hproc hheld hstate ⊢
  cases worker with
  | checking => exact hlaw.checkQueue (.inl hworker)
  | asleep signalled =>
    cases signalled with
    | false => exact hlaw
    | true => exact hlaw.checkQueue (.inr ⟨true, hworker⟩)
  | processed entry result => exact hlaw.finishPacket hworker
  | ended ending => exact hlaw
  | idle =>
    have hprepared : s.state = .prepared := hstate
    rw [if_pos hprepared]
    exact ⟨⟨hsync, hstored, hcount, hclosed, hle, hproc, hheld, .inl rfl⟩,
      by simp [Awake]⟩
  | started =>
    dsimp only
    split_ifs
    · exact ⟨⟨hsync, hstored, hcount, hclosed, hle, hproc, hheld, hstate⟩,
        by simp [Awake]⟩
    · exact ⟨⟨hsync, hstored, hcount, hclosed, hle, hproc, hheld, hstate⟩,
        by simp [Awake]⟩
  | holding entry =>
    have hframe := hlaw.core.read_held (by rw [hworker]; rfl)
    refine ⟨⟨hsync, hstored, hcount, hclosed, hle, ?_, hheld, hstate⟩, by simp [Awake]⟩
    change s.processed ++ [s.read entry] = s.accepted.take (s.packetsRead + 1)
    rw [take_add_one, hframe, hproc]
    rfl
  | releasing ending =>
    exact ⟨⟨hsync, hstored, hcount, fun _ => rfl, hle, hproc, hheld, hstate⟩,
      by simp [Awake]⟩
  | unsubscribing ending =>
    exact ⟨⟨hsync, hstored, hcount, fun _ => hclosed (by simp [closed]), hle,
      hproc, hheld, hstate⟩, by simp [Awake]⟩
  | freeing ending =>
    exact ⟨⟨rfl, fun hfreed => absurd hfreed (by simp [freeQueue, freed]), rfl,
      fun _ => rfl, hle, hproc, by simp [freeQueue, entry?], hstate⟩,
      by simp [Awake, freeQueue]⟩
  | finishing ending =>
    exact ⟨⟨hsync, fun hfreed => absurd hfreed (by simp [freed]), hcount,
      fun _ => hclosed (by simp [closed]), hle, hproc, hheld, rfl⟩,
      by simp [Awake]⟩

theorem Law.setStops (stops : ℕ → StopPc) : Law o { s with stops := stops } :=
  ⟨⟨h.core.sync, h.core.stored, h.core.count, h.core.closed, h.core.read_le, h.core.processed,
    h.core.held, h.core.state⟩, h.awake⟩

theorem Law.signal : Law o s.signal :=
  ⟨h.core.signal, signal_awake s⟩

theorem Law.closeQueue : Law o (closeQueue s) := by
  unfold Pipeline.closeQueue
  split_ifs with hsync
  · have hclosed : Law o { s with accepting := false } :=
      ⟨⟨h.core.sync, h.core.stored, h.core.count, fun _ => rfl, h.core.read_le,
        h.core.processed, h.core.held, h.core.state⟩, h.awake⟩
    exact hclosed.signal
  · exact h

theorem Law.swapState (loaded : PipelineState) : Law o (swapState s loaded) := by
  unfold Pipeline.swapState
  split_ifs with hrunning
  · have hfits : s.worker.Fits .stopping := by
      have hstate := h.core.state
      rw [hrunning.2] at hstate
      cases hworker : s.worker with
      | idle =>
        rw [hworker] at hstate
        cases hstate
      | ended ending =>
        rw [hworker] at hstate
        cases ending <;> cases hstate
      | _ => exact .inr rfl
    exact ⟨⟨h.core.sync, h.core.stored, h.core.count, h.core.closed, h.core.read_le,
      h.core.processed, h.core.held, hfits⟩, h.awake⟩
  · exact h

theorem Law.requestStop (i : ℕ) : Law o (requestStop s i) := by
  unfold Pipeline.requestStop
  cases s.stops i with
  | called =>
    split_ifs <;> exact h.setStops _
  | loaded state =>
    have hstop : Law o { s with stopRequested := true } :=
      ⟨⟨h.core.sync, h.core.stored, h.core.count, h.core.closed, h.core.read_le,
        h.core.processed, h.core.held, h.core.state⟩, h.awake⟩
    exact hstop.setStops _
  | stored state => exact h.closeQueue.setStops _
  | passed state => exact (h.swapState state).setStops _
  | returned status => exact h

omit h

theorem next_onFrame (o : RuntimeOptions) (s : RuntimePipeline) (frame : Option Frame) :
    (queueMachine o).next s (.onFrame frame) = (onFrame o s frame).1 ∨
      (queueMachine o).next s (.onFrame frame) = s := by
  by_cases hsub : s.subscribed = true
  · left
    simp [Machine.next, queueMachine, hsub]
  · right
    simp [Machine.next, queueMachine, hsub]

theorem Law.next (h : Law o s) (op : QueueOp) : Law o ((queueMachine o).next s op) := by
  cases op with
  | onFrame frame =>
    rcases next_onFrame o s frame with heq | heq
    · rw [heq]
      exact h.onFrame frame
    · rw [heq]
      exact h
  | work result => exact h.work result
  | wake => exact h.signal
  | requestStop i => exact h.requestStop i

theorem run_law (o : RuntimeOptions) (ops : List QueueOp) :
    Law o ((queueMachine o).run prepare ops) :=
  (queueMachine o).run_invariant (fun _ op h => h.next op) (prepare_law o) ops

end Invariant

section Refusals

/-- The worker holds a packet, or has failed with one. -/
def WorkerPc.busy : WorkerPc → Bool
  | holding _ | processed _ _ | releasing (.packetFailed _) => true
  | _ => false

/-- How many frames the worker holds and has not read. -/
def WorkerPc.toRead : WorkerPc → ℕ
  | holding _ => 1
  | _ => 0

def Ending.AfterRefusal (busy : Bool) : Ending → Prop
  | stoppedEarly => True
  | stopped => False
  | asyncFailed status => status = .ebackpressure
  | packetFailed _ => busy = true

/-- Where the worker may be after a refusal; `left` is how many frames it may still read. -/
def WorkerPc.Doomed (status : PipelineStatus) (busy : Bool) (left : ℕ) : WorkerPc → Prop
  | idle | started | checking => status = .ebackpressure
  | asleep signalled => status = .ebackpressure ∧ signalled = true
  | holding _ => status = .ebackpressure ∧ busy = true ∧ 0 < left
  | processed _ _ => status = .ebackpressure ∧ busy = true
  | releasing ending | unsubscribing ending | freeing ending | finishing ending | ended ending =>
    ending.AfterRefusal busy

/-- What holds after a refusal. -/
structure Doomed (busy : Bool) (limit : ℕ) (t : RuntimePipeline) : Prop where
  read_le : t.processed.length ≤ limit
  place : t.worker.Doomed t.asyncStatus busy (limit - t.processed.length)

/-- How many steps the worker has left after a refusal. -/
def WorkerPc.remaining : WorkerPc → ℕ
  | ended _ => 0
  | finishing _ => 1
  | freeing _ => 2
  | unsubscribing _ => 3
  | releasing _ => 4
  | checking => 5
  | asleep _ => 5
  | started => 6
  | processed _ _ => 6
  | idle => 7
  | holding _ => 7

def QueueOp.isWork : QueueOp → Bool
  | work _ => true
  | _ => false

variable {o : RuntimeOptions} {s t : RuntimePipeline} {busy : Bool} {limit : ℕ}

theorem Doomed.signal (h : Doomed busy limit t) : Doomed busy limit t.signal := by
  rcases signal_cases t with ⟨signalled, hworker, heq⟩ | ⟨-, heq⟩
  · obtain ⟨hle, hplace⟩ := h
    rw [hworker] at hplace
    rw [heq]
    exact ⟨hle, hplace.1, rfl⟩
  · rw [heq]
    exact h

theorem signal_remaining (t : RuntimePipeline) :
    t.signal.worker.remaining = t.worker.remaining := by
  rcases signal_cases t with ⟨signalled, hworker, heq⟩ | ⟨-, heq⟩
  · rw [heq, hworker]
    rfl
  · rw [heq]

theorem doomed_of_refused (h : Law o s) (haccepting : s.accepting = true) :
    Doomed s.worker.busy (s.processed.length + s.worker.toRead)
      ({ s with asyncStatus := .ebackpressure } : RuntimePipeline).signal := by
  have hclosed : ¬ (s.worker.dropped || s.worker.closed) = true := by
    intro hc
    rw [h.core.closed hc] at haccepting
    cases haccepting
  cases hworker : s.worker with
  | asleep signalled =>
    refine ⟨?_, ?_⟩
    · simp [signal]
    · simp [signal, WorkerPc.Doomed]
  | releasing ending =>
    refine ⟨?_, ?_⟩
    · simp [signal]
    · rw [hworker] at hclosed
      cases ending <;>
        simp_all [signal, WorkerPc.Doomed, Ending.AfterRefusal, busy,
          dropped, Ending.drops]
  | unsubscribing ending | freeing ending | finishing ending | ended ending =>
    rw [hworker] at hclosed
    simp [closed] at hclosed
  | idle | started | checking | holding entry | processed entry result =>
    refine ⟨?_, ?_⟩
    · simp [signal]
    · simp [signal, WorkerPc.Doomed, busy, toRead]

theorem Doomed.onFrame (h : Doomed busy limit t) (frame : Option Frame) :
    Doomed busy limit (onFrame o t frame).1 ∧
      (onFrame o t frame).1.worker.remaining = t.worker.remaining := by
  have hout := onFrame_outcome o t frame
  generalize Pipeline.onFrame o t frame = out at hout
  cases hout with
  | invalid | otherTrack _ | closed => exact ⟨h, rfl⟩
  | refused _ _ =>
    have hset : Doomed busy limit { t with asyncStatus := .ebackpressure } := by
      refine ⟨h.read_le, ?_⟩
      have hplace := h.place
      cases hworker : t.worker <;> rw [hworker] at hplace <;> simp_all [WorkerPc.Doomed]
    exact ⟨hset.signal, signal_remaining _⟩
  | @queued frame _ _ =>
    have hset : Doomed busy limit (t.enqueue o frame) := ⟨h.read_le, h.place⟩
    exact ⟨hset.signal, signal_remaining _⟩

theorem checkQueue_refused (hstat : t.asyncStatus = .ebackpressure) :
    checkQueue t = { t with
        accepting := false
        count := 0
        worker := .releasing (.asyncFailed .ebackpressure) } := by
  simp [checkQueue, hstat]

theorem Doomed.work (h : Doomed busy limit t) (hlaw : Law o t) (result : PacketResult) :
    Doomed busy limit (work o t result) ∧
      (work o t result).worker.remaining ≤ t.worker.remaining - 1 := by
  obtain ⟨hle, hplace⟩ := h
  unfold Pipeline.work
  cases hworker : t.worker with
  | idle =>
    have hprepared : t.state = .prepared := by
      have hstate := hlaw.core.state
      rw [hworker] at hstate
      exact hstate
    rw [hworker] at hplace
    rw [if_pos hprepared]
    exact ⟨⟨hle, hplace⟩, le_rfl⟩
  | started =>
    rw [hworker] at hplace
    dsimp only
    split_ifs
    · exact ⟨⟨hle, trivial⟩, by simp [remaining]⟩
    · exact ⟨⟨hle, hplace⟩, le_rfl⟩
  | checking =>
    rw [hworker] at hplace
    rw [checkQueue_refused hplace]
    exact ⟨⟨hle, rfl⟩, le_rfl⟩
  | asleep signalled =>
    rw [hworker] at hplace
    obtain ⟨hstat, rfl⟩ := hplace
    dsimp only
    rw [if_pos rfl, checkQueue_refused hstat]
    exact ⟨⟨hle, rfl⟩, le_rfl⟩
  | holding entry =>
    rw [hworker] at hplace
    obtain ⟨hstat, hbusy, hleft⟩ := hplace
    refine ⟨⟨?_, hstat, hbusy⟩, le_rfl⟩
    rw [length_append, length_singleton]
    omega
  | processed entry result =>
    rw [hworker] at hplace
    obtain ⟨hstat, hbusy⟩ := hplace
    dsimp only [finishPacket]
    refine ⟨⟨hle, ?_⟩, ?_⟩
    · split_ifs
      · exact hstat
      · exact hbusy
      · exact hbusy
    · split_ifs <;> simp [remaining]
  | releasing ending | unsubscribing ending | freeing ending | finishing ending =>
    rw [hworker] at hplace
    exact ⟨⟨hle, hplace⟩, le_rfl⟩
  | ended ending =>
    refine ⟨⟨hle, hplace⟩, ?_⟩
    rw [hworker]
    exact le_rfl

/-- A stop call moves neither the worker, unless it wakes it, nor the status. -/
theorem requestStop_cases (t : RuntimePipeline) (i : ℕ) :
    ((requestStop t i).worker = t.worker ∨ (requestStop t i).worker = t.signal.worker) ∧
      (requestStop t i).asyncStatus = t.asyncStatus ∧ (requestStop t i).processed = t.processed ∧
      (requestStop t i).accepted = t.accepted := by
  unfold requestStop
  cases t.stops i with
  | called =>
    split_ifs <;> exact ⟨.inl rfl, rfl, rfl, rfl⟩
  | loaded state | returned status => exact ⟨.inl rfl, rfl, rfl, rfl⟩
  | stored state =>
    dsimp only [closeQueue]
    split_ifs
    · rcases signal_cases t with ⟨signalled, hworker, heq⟩ | ⟨hworker, heq⟩
      · rw [heq]
        simp [signal, hworker]
      · cases hw : t.worker with
        | asleep signalled => exact absurd hw (hworker signalled)
        | _ => simp [signal, hw]
    · exact ⟨.inl rfl, rfl, rfl, rfl⟩
  | passed state =>
    dsimp only [swapState]
    split_ifs <;> exact ⟨.inl rfl, rfl, rfl, rfl⟩

theorem Doomed.requestStop (h : Doomed busy limit t) (i : ℕ) :
    Doomed busy limit (requestStop t i) ∧
      (requestStop t i).worker.remaining = t.worker.remaining := by
  obtain ⟨hworker, hstat, hproc, -⟩ := requestStop_cases t i
  rcases hworker with hworker | hworker
  · refine ⟨⟨?_, ?_⟩, by rw [hworker]⟩
    · rw [hproc]
      exact h.read_le
    · rw [hworker, hstat, hproc]
      exact h.place
  · refine ⟨⟨?_, ?_⟩, by rw [hworker, signal_remaining]⟩
    · rw [hproc]
      exact h.read_le
    · have hplace := h.signal.place
      rw [hworker, hstat, hproc]
      rcases signal_cases t with ⟨_, -, heq⟩ | ⟨-, heq⟩
      · rw [heq] at hplace ⊢
        exact hplace
      · rw [heq] at hplace ⊢
        exact hplace

theorem Doomed.next (h : Doomed busy limit t) (hlaw : Law o t) (op : QueueOp) :
    Doomed busy limit ((queueMachine o).next t op) ∧ ((queueMachine o).next t op).worker.remaining ≤
        t.worker.remaining - if op.isWork then 1 else 0 := by
  cases op with
  | onFrame frame =>
    rcases next_onFrame o t frame with heq | heq
    · rw [heq]
      obtain ⟨hnext, hsame⟩ := h.onFrame (o := o) frame
      exact ⟨hnext, hsame.le⟩
    · rw [heq]
      exact ⟨h, le_rfl⟩
  | work result => exact h.work hlaw result
  | wake => exact ⟨h.signal, (signal_remaining t).le⟩
  | requestStop i =>
    obtain ⟨hnext, hsame⟩ := h.requestStop i
    exact ⟨hnext, hsame.le⟩

theorem Doomed.run (h : Doomed busy limit t) (hlaw : Law o t) (ops : List QueueOp) :
    Doomed busy limit ((queueMachine o).run t ops) ∧ ((queueMachine o).run t ops).worker.remaining ≤
        t.worker.remaining - ops.countP QueueOp.isWork := by
  induction ops generalizing t with
  | nil => exact ⟨h, le_rfl⟩
  | cons op ops ih =>
    obtain ⟨hnext, hstep⟩ := h.next hlaw op
    obtain ⟨hrun, hrest⟩ := ih hnext (hlaw.next op)
    refine ⟨hrun, ?_⟩
    rw [Machine.run_cons, countP_cons]
    omega

end Refusals

variable {o : RuntimeOptions} {s : RuntimePipeline}

theorem accepted_next (o : RuntimeOptions) (s : RuntimePipeline) (op : QueueOp) :
    s.accepted <+: ((queueMachine o).next s op).accepted := by
  have hsig : ∀ t : RuntimePipeline, t.signal.accepted = t.accepted := by
    intro t
    rcases signal_cases t with ⟨_, -, heq⟩ | ⟨-, heq⟩ <;> rw [heq]
  cases op with
  | onFrame frame =>
    rcases next_onFrame o s frame with heq | heq
    · rw [heq]
      have hout := onFrame_outcome o s frame
      generalize onFrame o s frame = out at hout
      cases hout with
      | refused _ _ => rw [hsig]
      | queued _ _ =>
        rw [hsig]
        exact prefix_append _ _
      | _ => exact prefix_rfl
    · rw [heq]
  | work result =>
    have hsame : (work o s result).accepted = s.accepted := by
      unfold work checkQueue finishPacket freeQueue
      split <;> (try split_ifs) <;> rfl
    exact hsame ▸ prefix_rfl
  | wake => exact (hsig s).symm ▸ prefix_rfl
  | requestStop i => exact (requestStop_cases s i).2.2.2.symm ▸ prefix_rfl

theorem accepted_run (o : RuntimeOptions) (s : RuntimePipeline) (ops : List QueueOp) :
    s.accepted <+: ((queueMachine o).run s ops).accepted := by
  induction ops generalizing s with
  | nil => exact prefix_rfl
  | cons op ops ih => exact (accepted_next o s op).trans (ih _)

/-- What holds in the state `s`: the frames read are a prefix of the accepted ones, the queue
stores the others with their bytes, and `count` is their number as long as the run goes on. -/
structure Delivers (o : RuntimeOptions) (s : RuntimePipeline) : Prop where
  processed : s.processed <+: s.accepted
  finished : s.packetsRead ≤ s.processed.length ∧ s.processed.length ≤ s.packetsRead + 1
  stored : s.worker.live →
    Stored o s.entries s.packetSlots s.head s.tail (s.accepted.drop s.packetsRead)
  held : ∀ entry, s.worker.entry? = some entry →
    s.accepted[s.packetsRead]? = some (s.read entry)
  count : s.worker.live → s.count = s.accepted.length - s.packetsRead
  count_le : s.count ≤ o.queueCapacity

theorem Law.delivers (h : Law o s) :
    Delivers o s where
  processed := by
    rw [h.core.processed]
    exact take_prefix _ _
  finished := by
    have hle := h.core.read_le
    rw [h.core.processed, length_take]
    cases hworker : s.worker with
    | processed entry result =>
      have hlt := (h.core.held entry (by rw [hworker]; rfl)).2
      simp only [hasRead, if_true]
      omega
    | _ =>
      simp only [hasRead, Bool.false_eq_true, if_false]
      omega
  stored := by
    intro hlive
    apply h.core.stored
    cases hworker : s.worker <;> simp_all [live, freed]
  held := fun _ hent => h.core.read_held hent
  count := by
    intro hlive
    rw [h.core.count]
    cases hworker : s.worker <;> simp_all [live, freed, dropped]
  count_le := by
    rw [h.core.count]
    cases hfreed : s.worker.freed with
    | true => simp
    | false =>
      have hfits := (h.core.stored hfreed).fits
      rw [length_drop] at hfits
      split_ifs <;> omega

/-- The publisher is told OK for a frame of another track, and for one that is queued. -/
theorem told_ok {frame : Option Frame} (h : (queueMachine o).answer s (.onFrame frame) = some .ok) :
    ∃ f, frame = some f ∧ (findTrack o f.info.trackId = false ∨
      ((queueMachine o).next s (.onFrame frame)).accepted = s.accepted ++ [f]) := by
  by_cases hsub : s.subscribed = true
  · have hout := onFrame_outcome o s frame
    simp only [Machine.answer, Machine.next, queueMachine, hsub, if_true,
      Option.some.injEq] at h ⊢
    generalize onFrame o s frame = out at hout h
    cases hout with
    | otherTrack htrack => exact ⟨_, rfl, .inl htrack⟩
    | @queued f _ _ =>
      refine ⟨f, rfl, .inr ?_⟩
      rcases signal_cases (s.enqueue o f) with ⟨_, -, heq⟩ | ⟨-, heq⟩ <;> rw [heq] <;> rfl
    | _ => cases h
  · simp [Machine.answer, queueMachine, hsub] at h

/-- How a run goes on after a refusal in the state `s`, to the state `t`: the worker reads no
frame that was accepted later, and if it has ended, it has failed with
`TURBO_PIPELINE_EBACKPRESSURE`, or it saw a stop before it began, or it failed with the packet
that it held. -/
structure Refused (s t : RuntimePipeline) : Prop where
  processed : t.processed <+: s.accepted
  ending : ∀ ending, t.worker = .ended ending →
    (ending.status = .ebackpressure ∧ t.state = .failed) ∨ ending = .stoppedEarly ∨
      (s.worker.busy ∧ ∃ status, ending = .packetFailed status)

theorem refused_run {frame : Option Frame} (h : Law o s)
    (hans : (queueMachine o).answer s (.onFrame frame) = some .errFull) (more : List QueueOp) :
    Refused s ((queueMachine o).run ((queueMachine o).next s (.onFrame frame)) more) ∧
      (7 ≤ more.countP QueueOp.isWork → ∃ ending,
        ((queueMachine o).run ((queueMachine o).next s (.onFrame frame)) more).worker =
          .ended ending) := by
  have hnext := h.next (.onFrame frame)
  have hacc := accepted_next o s (.onFrame frame)
  have hbegin : Doomed s.worker.busy (s.processed.length + s.worker.toRead)
      ((queueMachine o).next s (.onFrame frame)) := by
    by_cases hsub : s.subscribed = true
    · have hout := onFrame_outcome o s frame
      simp only [Machine.answer, Machine.next, queueMachine, hsub, if_true,
        Option.some.injEq] at hans ⊢
      generalize onFrame o s frame = out at hout hans
      cases hout with
      | refused haccepting _ => exact doomed_of_refused h haccepting
      | _ => cases hans
    · simp [Machine.answer, queueMachine, hsub] at hans
  obtain ⟨⟨hle, hplace⟩, hrem⟩ := hbegin.run hnext more
  have hlaw : Law o ((queueMachine o).run ((queueMachine o).next s (.onFrame frame)) more) :=
    (queueMachine o).run_invariant (fun _ op hl => hl.next op) hnext more
  have hgrown := hacc.trans (accepted_run o ((queueMachine o).next s (.onFrame frame)) more)
  generalize (queueMachine o).run ((queueMachine o).next s (.onFrame frame)) more = t at *
  refine ⟨⟨?_, ?_⟩, ?_⟩
  · -- both are prefixes of what is accepted by then
    apply prefix_of_prefix_length_le hlaw.delivers.processed hgrown
    have hread : s.processed.length + s.worker.toRead ≤ s.accepted.length := by
      have hbef := h.delivers.finished.1
      have hprefix := h.delivers.processed.length_le
      cases hworker : s.worker with
      | holding entry =>
        have hlt := (h.core.held entry (by rw [hworker]; rfl)).2
        have hproc := congrArg List.length h.core.processed
        rw [hworker] at hproc
        simp only [hasRead, Bool.false_eq_true, if_false, length_take] at hproc
        simp only [toRead]
        omega
      | _ => exact hprefix
    omega
  · intro ending hended
    rw [hended] at hplace
    have hstate := hlaw.core.state
    rw [hended] at hstate
    cases ending with
    | stoppedEarly => exact .inr (.inl rfl)
    | stopped => cases hplace
    | asyncFailed status => exact .inl ⟨hplace, hstate⟩
    | packetFailed status => exact .inr (.inr ⟨hplace, status, rfl⟩)
  · intro hwork
    have hmost : ∀ pc : WorkerPc, pc.remaining ≤ 7 := by
      intro pc
      cases pc <;> simp [remaining]
    have hzero : t.worker.remaining = 0 := by
      have := hmost ((queueMachine o).next s (.onFrame frame)).worker
      omega
    cases hworker : t.worker with
    | ended ending => exact ⟨ending, rfl⟩
    | _ =>
      rw [hworker] at hzero
      cases hzero

/-- In every order of steps the queue delivers what it accepted, the publisher is told OK only
for what is queued or of another track, and a refusal ends the run. -/
theorem runtime_queue (o : RuntimeOptions) (ops : List QueueOp) :
    let s := (queueMachine o).run prepare ops
    Delivers o s ∧ (∀ frame, (queueMachine o).answer s (.onFrame frame) = some .ok →
        ∃ f, frame = some f ∧ (findTrack o f.info.trackId = false ∨
          ((queueMachine o).next s (.onFrame frame)).accepted = s.accepted ++ [f])) ∧
      (∀ frame more, (queueMachine o).answer s (.onFrame frame) = some .errFull →
        let t := (queueMachine o).run ((queueMachine o).next s (.onFrame frame)) more
        Refused s t ∧
          (7 ≤ more.countP QueueOp.isWork → ∃ ending, t.worker = .ended ending)) := by
  have hlaw := run_law o ops
  exact ⟨hlaw.delivers, fun _ => told_ok, fun _ more hanswer => refused_run hlaw hanswer more⟩

/-- One slot, packets of at most 64 bytes, track 1. -/
def oneSlot : RuntimeOptions where
  queueCapacity := 1
  maxPacketBytes := 64
  inputTracks := [1]
  queueCapacity_range := by decide
  maxPacketBytes_range := by decide
  inputTracks_count := by decide

def onePacket : Frame :=
  ⟨⟨1, 0, 0, 0, 0, 0⟩, [0x80]⟩

/-- The packet is queued when the stop is seen. -/
def stoppedFull : List QueueOp :=
  [.work ⟨true, .ok⟩, .work ⟨true, .ok⟩, .onFrame (some onePacket), .requestStop 0,
    .requestStop 0, .work ⟨true, .ok⟩]

/-- A stop drops what is queued: the packet was accepted and is not processed, and `count` is
not the number of accepted packets less the finished ones. -/
theorem stop_drops_queued :
    let s := (queueMachine oneSlot).run prepare stoppedFull
    s.accepted = [onePacket] ∧ s.processed = [] ∧ s.worker = .releasing .stopped ∧
      s.count ≠ s.accepted.length - s.packetsRead := by
  decide

end TurboMedia.Pipeline
