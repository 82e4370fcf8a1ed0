import TurboMedia.StreamGraph.ExecutorAccounting

/-!
# A branch that is overrun

**Input.**  An executor with one branch of one row that keeps the latest frame, and a
source that always has a frame, while the sink is never served.

**Method.**  Every frame takes the slot that the frame before it does not hold, and its
row; so the state after `n` frames is known but for the contents of the slots
(`Overrun`), and the generation of the row is `n` modulo the size of its word.  The frame
that brings it back to zero can be taken, but not settled.
-/

namespace TurboMedia.StreamGraph

open Function Words Scan

section States

/-- Two slots of four bytes, two pins and one lease. -/
def overrunConfig : FsConfig :=
  ⟨sizeofFsConfig, fsAbi, 7, 2, 4, 2, 1, 8⟩

/-- The store after `n` frames and `m` credits, with slot `j` the next to be tried. -/
def overrunStore (slots : ℕ → Slot) (pins : List (Option Credit)) (j n m : ℕ) : Store where
  config := overrunConfig
  generation := 5
  nextFrameId := n
  nextTicketId := m
  slots := slots
  pins := pins
  leases := [none]
  cursor := j
  sealed := false

/-- The frame with number `n` in slot `j`. -/
def overrunFrame (j generation n : ℕ) : FrameRef :=
  ⟨sizeofFrameRef, fsAbi, 7, 5, j, generation, n, 3, 4⟩

def overrunPin (m : ℕ) : Ticket :=
  ⟨7, 5, m⟩

/-- The slot holds this frame of the source, which is ready. -/
structure Slot.Fresh (slot : Slot) (generation n : ℕ) : Prop where
  state : slot.state = .ready
  slotGeneration : slot.slotGeneration = generation
  frameId : slot.frameId = n
  sessionGeneration : slot.sessionGeneration = 3
  displayGeneration : slot.displayGeneration = 4

def Opposite (i j : ℕ) : Prop :=
  i = 0 ∧ j = 1 ∨ i = 1 ∧ j = 0

variable {slots : ℕ → Slot} {pins : List (Option Credit)} {i j n m generation : ℕ}

theorem Opposite.lt (h : Opposite i j) : j < 2 := by
  rcases h with ⟨_, rfl⟩ | ⟨_, rfl⟩ <;> decide

theorem Opposite.ne (h : Opposite i j) : i ≠ j := by
  rcases h with ⟨rfl, rfl⟩ | ⟨rfl, rfl⟩ <;> decide

theorem Opposite.symm (h : Opposite i j) : Opposite j i :=
  h.elim (fun hij => .inr ⟨hij.2, hij.1⟩) (fun hij => .inl ⟨hij.2, hij.1⟩)

theorem overrun_publish (hij : Opposite i j) (hn : n ≠ max64)
    (hfree : (slots j).state = .free) (hgen : (slots j).slotGeneration ≠ max32) :
    publishCpu (overrunStore slots pins j n m) [0] 3 4 =
      (overrunStore (update slots j (fillSlot [0] (n + 1) 3 4 (slots j))) pins i (n + 1) m,
        .ok (overrunFrame j ((slots j).slotGeneration + 1) (n + 1))) := by
  rcases hij with ⟨rfl, rfl⟩ | ⟨rfl, rfl⟩ <;>
    simp [publishCpu, publishSlot, overrunStore, overrunConfig, List.range_succ, hfree,
      hgen, hn, Store.refOf, publishInto, Store.modifySlot, fillSlot, overrunFrame]

theorem overrun_refIndex (hj : j < 2) (hfresh : (slots j).Fresh generation n) :
    refIndex (overrunStore slots pins i n m) (overrunFrame j generation n) = .ok j := by
  have hstate : (slots j).state ≠ .free := by
    rw [hfresh.state]
    simp
  simp [refIndex, overrunStore, overrunFrame, overrunConfig, hstate, hfresh.slotGeneration,
    hfresh.frameId, hfresh.sessionGeneration, hfresh.displayGeneration, hj]

theorem overrun_ready (hj : j < 2) (hfresh : (slots j).Fresh generation n) :
    readySlot (overrunStore slots pins i n m) (overrunFrame j generation n) = .ok j := by
  rw [readySlot, overrun_refIndex hj hfresh]
  simp [overrunStore, hfresh.state]

theorem overrun_lease (hj : j < 2) (hfresh : (slots j).Fresh generation n)
    (hleases : (slots j).leases = 0) (hm : m ≠ max64) :
    ∃ s, acquireWeak (overrunStore slots pins i n m) (overrunFrame j generation n) =
        (s, .ok (overrunPin (m + 1))) ∧ (mapCpu s (overrunPin (m + 1)) viewInit).1 = .ok ∧
      (releaseLease s (overrunPin (m + 1))).1 = overrunStore slots pins i n (m + 1) := by
  have halloc : creditAlloc (overrunStore slots pins i n m)
      (overrunStore slots pins i n m).leases = .ok (0, m + 1) := by
    rw [creditAlloc]
    exact if_neg hm
  have hdrop : dropLease (addLease (slots j)) = slots j := by
    rw [dropLease, addLease]
    rw [hleases, pred32_eq Nat.zero_lt_one (by decide), maybeRetire]
    rw [if_neg (by rw [hfresh.state]; simp)]
    show { slots j with leases := 0 } = slots j
    rw [← hleases]
  refine ⟨{ overrunStore (update slots j (addLease (slots j))) pins i n (m + 1) with
    leases := [some ⟨m + 1, j, (slots j).slotGeneration⟩] }, ?_, ?_, ?_⟩
  · rw [acquireWeak, overrun_ready hj hfresh]
    dsimp only
    rw [acquireSlot, halloc]
    rfl
  · simp [mapCpu, viewInit, creditLookup, overrunPin, overrunStore, overrunConfig,
      SlotTable.findOccupied]
  · simp [releaseLease, creditLookup, overrunPin, overrunStore, overrunConfig,
      SlotTable.findOccupied, Store.modifySlot, hdrop]

theorem overrun_pin {old : Credit} {k c : ℕ} (hij : Opposite i j) (hk : k < 2)
    (hfresh : (slots k).Fresh generation n) (hm : m ≠ max64) :
    reservePin (overrunStore slots ([none, none].set i (some old)) c n m)
        (overrunFrame k generation n) = (overrunStore (update slots k (addPin (slots k)))
        (([none, none].set i (some old)).set j (some ⟨m + 1, k, generation⟩)) c n (m + 1),
        .ok (overrunPin (m + 1))) := by
  have halloc : creditAlloc (overrunStore slots ([none, none].set i (some old)) c n m)
      (overrunStore slots ([none, none].set i (some old)) c n m).pins = .ok (j, m + 1) := by
    rw [creditAlloc]
    rcases hij with ⟨rfl, rfl⟩ | ⟨rfl, rfl⟩ <;> exact if_neg hm
  rw [reservePin, overrun_ready hk hfresh]
  dsimp only
  rw [takePin, halloc, ← hfresh.slotGeneration]
  rfl

theorem dropPin_retiring {slot : Slot} (hstate : slot.state = .retiring) (hpins : slot.pins = 1)
    (hleases : slot.leases = 0) : dropPin slot = { slot with
      pins := 0
      state := .free
      length := 0 } := by
  rw [dropPin, hpins, pred32_eq Nat.zero_lt_one (by decide), maybeRetire]
  exact if_pos ⟨hstate, rfl, hleases⟩

theorem overrun_unpin {new : Credit} {m' k c g : ℕ} (hij : Opposite i j) (hm : m' ≠ 0)
    (hnew : new.token ≠ m') :
    releasePin (overrunStore slots (([none, none].set i (some ⟨m', k, g⟩)).set j (some new)) c n m)
        (overrunPin m') = (overrunStore (update slots k (dropPin (slots k)))
        ([none, none].set j (some new)) c n m, .ok) := by
  rcases hij with ⟨rfl, rfl⟩ | ⟨rfl, rfl⟩ <;>
    simp [releasePin, creditLookup, overrunPin, overrunStore, overrunConfig, hm, hnew,
      SlotTable.findOccupied, Store.modifySlot]

theorem overrun_retire (hj : j < 2) (hfresh : (slots j).Fresh generation n)
    (hpins : (slots j).pins = 1) :
    retire (overrunStore slots pins i n m) (overrunFrame j generation n) =
      (overrunStore (update slots j { slots j with state := .retiring }) pins i n m,
        .ebusy) := by
  have hretire : retireSlot (slots j) = { slots j with state := .retiring } := by
    rw [retireSlot]
    refine maybeRetire_state (.inl ?_)
    rw [hpins]
    exact Nat.one_ne_zero
  rw [retire, overrun_refIndex hj hfresh]
  simp [overrunStore, Store.modifySlot, hretire]

end States

section Frames

/-- The executor after `n` frames. -/
def overrunOwner (store : Store) (n : ℕ) (row : Row) (stats : BranchStats) (st : ExStats) :
    Executor where
  plant := ⟨store, ⟨9, n + 1, [⟨[row], .latest, 0, stats⟩], false⟩⟩
  processorCount := 1
  sinkCount := 1
  scratchCapacity := 4
  pendingData := []
  sourceSessionGeneration := 3
  displayGeneration := 4
  pending := zeroRef
  stats := st
  stopped := false

variable {slots : ℕ → Slot} {i j n : ℕ} {row : Row} {stats : BranchStats} {st : ExStats}

variable {s : Store}

theorem submit_replaces {s' s'' : Store} {ref : FrameRef} {pin : Ticket} (stats : BranchStats)
    (hframe : ref.frameId ≠ 0) (hsize : ref.size = sizeofFrameRef) (hver : ref.version = fsAbi)
    (hn : n + 1 ≠ max64) (hready : row.state = .ready) (horder : row.order < max64)
    (hreserve : reservePin s ref = (s', .ok pin)) (hrel : releasePin s' row.pin = (s'', .ok)) :
    ∃ stats' : BranchStats, stats'.taken = stats.taken ∧
      submit ⟨s, ⟨9, n + 1, [⟨[row], .latest, 0, stats⟩], false⟩⟩ ref =
        (⟨s'', ⟨9, n + 2, [⟨[row.fill ref pin (n + 1)], .latest, 0, stats'⟩], false⟩⟩, .ok) := by
  set b : Branch := ⟨[row], .latest, 0, stats⟩ with hb
  have hrow : b.row 0 = row := rfl
  have hchoose : foChooseRow b = some 0 := by
    simp [foChooseRow, hb, hready, horder, firstMin, firstMinFrom, better]
  have hpreflight : preflight ref [b] =
      .ok [⟨b, some 0, zeroTicket⟩] := by
    rw [preflight, hchoose]
    rfl
  have hrsv : reserveAll ref s 0 [⟨b, some 0, zeroTicket⟩] =
      ⟨s', [⟨b, some 0, pin⟩], 1, .ok⟩ := by
    rw [reserveAll, hreserve]
    rfl
  have hfoRelease : foRelease s' b 0 =
      (s'', b.release 0, .ok) := by
    rw [foRelease, hrow, hrel]
    rfl
  have hevicted : evictAll 1 s' [⟨b, some 0, pin⟩] =
      ⟨s'', [⟨(b.release 0).replaced, some 0, pin⟩], 1, .ok⟩ := by
    rw [evictAll]
    dsimp only
    rw [hrow, if_pos hready, hfoRelease]
    rfl
  rw [submit, if_neg (by simp [hframe, hsize, hver]), if_neg (by simp), if_neg hn, hpreflight]
  dsimp only
  rw [hrsv, if_neg (not_not.mpr rfl), submitReserved]
  rw [hevicted, if_neg (not_not.mpr rfl)]
  refine ⟨(Lane.commit ref (n + 1) ⟨(b.release 0).replaced, some 0,
    pin⟩).stats, ?_, rfl⟩
  show (if (b.row 0).state = .taken then _ else stats.taken) = _
  rw [hrow, hready]
  rfl

/-- What is known of the executor after `n` frames: slot `i` holds the last one, which
waits in the row. -/
structure OverrunAt (slots : ℕ → Slot) (i j n : ℕ) (row : Row) (stats : BranchStats) : Prop where
  opposite : Opposite i j
  pos : 0 < n
  retiring : (slots i).state = .retiring
  pins : (slots i).pins = 1
  leases : (slots i).leases = 0
  generation : (slots i).slotGeneration = (n + 1) / 2
  free : (slots j).state = .free
  freePins : (slots j).pins = 0
  freeLeases : (slots j).leases = 0
  freeGeneration : (slots j).slotGeneration = n / 2
  state : row.state = .ready
  order : row.order = n
  pin : row.pin = overrunPin (2 * n)
  rowGeneration : row.generation = n % (max32 + 1)
  taken : stats.taken = 0

/-- The executor after `n` frames. -/
def Overrun (n : ℕ) (o : Executor) : Prop :=
  ∃ slots i j row stats st generation, OverrunAt slots i j n row stats ∧
    o = overrunOwner (overrunStore slots ([none, none].set i (some ⟨2 * n, i, generation⟩)) j n
      (2 * n)) n row stats st

def overrunOp : ExOp :=
  .pumpSource (.frame [0]) (fun _ => 0)

variable {o : Executor}

theorem retireRef_busy (hretire : retire o.plant.store o.pending = (s, .ebusy)) :
    retireRef o = ({ o.withStore s with pending := zeroRef }, .ok) := by
  rw [retireRef, hretire]
  rfl

theorem submitPending_owner {p : Plant} (hsubmit : submit o.plant o.pending = (p, .ok))
    (hretire : retire p.store o.pending = (s, .ebusy)) :
    ∃ st, (submitPending o).owner = { o with
      plant := ⟨s, p.fanout⟩
      pending := zeroRef
      stats := st } := by
  rw [submitPending, hsubmit]
  rw [if_neg (by simp), if_neg (not_not.mpr rfl), retireRef_busy]
  · exact ⟨_, rfl⟩
  · exact hretire

theorem processPending_owner {lease : Ticket}
    (hacquire : acquireWeak o.plant.store o.pending = (s, .ok lease))
    (hmap : (mapCpu s lease viewInit).1 = .ok) (hprocessors : o.processorCount = 1) :
    ∃ st, (processPending o (fun _ => 0)).owner = (submitPending { o with
      plant := { o.plant with store := (releaseLease s lease).1 }
      stats := st }).owner := by
  have hvisits : (visitAll o.pending (mapCpu s lease viewInit).2 (fun _ => 0)
      (List.range o.processorCount)).1 = 0 := by
    rw [hprocessors]
    rfl
  rw [processPending, hacquire]
  dsimp only
  rw [if_neg (not_not.mpr hmap), if_neg (not_not.mpr hvisits)]
  exact ⟨_, rfl⟩

theorem publishPending_owner {ref : FrameRef}
    (hpublish : publishCpu o.plant.store o.pendingData o.sourceSessionGeneration
      o.displayGeneration = (s, .ok ref)) (visits : ℕ → ℤ) :
    (publishPending o visits).owner = (processPending { o with
      plant := { o.plant with store := s }
      pending := ref
      pendingData := [] } visits).owner := by
  rw [publishPending, hpublish]
  rfl

theorem fillSlot_fresh (slot : Slot) :
    (fillSlot [0] n 3 4 slot).Fresh (slot.slotGeneration + 1) n :=
  ⟨rfl, rfl, rfl, rfl, rfl⟩

/-- The slots while one more frame goes by: it is written to slot `j` and pinned, slot
`i` is freed, and the frame is retired. -/
def filledSlots (slots : ℕ → Slot) (j n : ℕ) : ℕ → Slot :=
  update slots j (fillSlot [0] (n + 1) 3 4 (slots j))

def pinnedSlots (slots : ℕ → Slot) (j n : ℕ) : ℕ → Slot :=
  update (filledSlots slots j n) j (addPin (filledSlots slots j n j))

def freedSlots (slots : ℕ → Slot) (i j n : ℕ) : ℕ → Slot :=
  update (pinnedSlots slots j n) i { pinnedSlots slots j n i with
    pins := 0
    state := .free
    length := 0 }

def retiredSlots (slots : ℕ → Slot) (i j n : ℕ) : ℕ → Slot :=
  update (freedSlots slots i j n) j
    { freedSlots slots i j n j with state := .retiring }

theorem filledSlots_self (slots : ℕ → Slot) (j n : ℕ) :
    filledSlots slots j n j = fillSlot [0] (n + 1) 3 4 (slots j) :=
  update_self ..

theorem pinnedSlots_of_ne (hij : i ≠ j) : pinnedSlots slots j n i = slots i := by
  rw [pinnedSlots, update_of_ne hij, filledSlots, update_of_ne hij]

theorem freedSlots_of_ne (hij : i ≠ j) :
    freedSlots slots i j n j = addPin (fillSlot [0] (n + 1) 3 4 (slots j)) := by
  rw [freedSlots, update_of_ne hij.symm, pinnedSlots, update_self, filledSlots_self]

theorem OverrunAt.pump {old : ℕ} (h : OverrunAt slots i j n row stats) (hn : n < 2 * max32)
    (st : ExStats) :
    ∃ stats' st', stats'.taken = stats.taken ∧
      (exStep (overrunOwner (overrunStore slots ([none, none].set i (some ⟨2 * n, i, old⟩)) j n
          (2 * n)) n row stats st) overrunOp).owner =
        overrunOwner (overrunStore (retiredSlots slots i j n)
          ([none, none].set j (some ⟨2 * n + 2, j, (slots j).slotGeneration + 1⟩)) i (n + 1)
          (2 * n + 2)) (n + 1) (row.fill (overrunFrame j ((slots j).slotGeneration + 1) (n + 1))
            (overrunPin (2 * n + 2)) (n + 1)) stats' st' := by
  have hbound : 4 * max32 + 5 < max64 ∧ max32 = 4294967295 := by decide
  have hij := h.opposite.ne
  have hpos := h.pos
  have hfilled : (filledSlots slots j n j).Fresh ((slots j).slotGeneration + 1) (n + 1) := by
    rw [filledSlots_self]
    exact fillSlot_fresh (slots j)
  have hpinned : pinnedSlots slots j n i = slots i := pinnedSlots_of_ne hij
  have hfreed : (freedSlots slots i j n j).Fresh ((slots j).slotGeneration + 1) (n + 1) := by
    rw [freedSlots_of_ne hij]
    exact ⟨rfl, rfl, rfl, rfl, rfl⟩
  set pins : List (Option Credit) := [none, none].set i (some ⟨2 * n, i, old⟩)
  set pinned : List (Option Credit) :=
    [none, none].set j (some ⟨2 * n + 2, j, (slots j).slotGeneration + 1⟩)
  set frame := overrunFrame j ((slots j).slotGeneration + 1) (n + 1)
  have hpublish : publishCpu (overrunStore slots pins j n (2 * n)) [0] 3 4 =
      (overrunStore (filledSlots slots j n) pins i (n + 1) (2 * n), .ok frame) :=
    overrun_publish h.opposite (by omega) h.free (by rw [h.freeGeneration]; omega)
  obtain ⟨leased, hacquire, hmap, hrel⟩ : ∃ s, acquireWeak (overrunStore
      (filledSlots slots j n) pins i (n + 1) (2 * n)) frame =
        (s, .ok (overrunPin (2 * n + 1))) ∧ _ ∧ _ :=
    overrun_lease h.opposite.lt hfilled (by rw [filledSlots_self]; exact h.freeLeases) (by omega)
  have hreserve : reservePin (overrunStore (filledSlots slots j n) pins i (n + 1) (2 * n + 1))
      frame = (overrunStore (pinnedSlots slots j n) (pins.set j
        (some ⟨2 * n + 2, j, (slots j).slotGeneration + 1⟩)) i (n + 1) (2 * n + 2),
        .ok (overrunPin (2 * n + 2))) :=
    overrun_pin h.opposite h.opposite.lt hfilled (by omega)
  have hunpin : releasePin (overrunStore (pinnedSlots slots j n) (pins.set j
      (some ⟨2 * n + 2, j, (slots j).slotGeneration + 1⟩)) i (n + 1) (2 * n + 2)) row.pin =
      (overrunStore (freedSlots slots i j n) pinned i (n + 1) (2 * n + 2), .ok) := by
    rw [h.pin, overrun_unpin h.opposite (by omega) (by dsimp only; omega), freedSlots,
      dropPin_retiring (by rw [hpinned]; exact h.retiring) (by rw [hpinned]; exact h.pins)
        (by rw [hpinned]; exact h.leases)]
  obtain ⟨stats', htaken, hsubmit⟩ := submit_replaces (n := n) stats
    (Nat.succ_ne_zero n) rfl rfl (by omega) h.state (by rw [h.order]; omega) hreserve hunpin
  have hretire : retire (overrunStore (freedSlots slots i j n) pinned i (n + 1) (2 * n + 2))
      frame = (overrunStore (retiredSlots slots i j n) pinned i (n + 1) (2 * n + 2), .ebusy) := by
    refine overrun_retire h.opposite.lt hfreed ?_
    rw [freedSlots_of_ne hij]
    show (slots j).pins + 1 = 1
    rw [h.freePins]
  have hpolled : (exStep (overrunOwner (overrunStore slots pins j n (2 * n)) n row stats st)
      overrunOp).owner = (publishPending ({ overrunOwner (overrunStore slots pins j n (2 * n)) n row
        stats st with pendingData := [0] }.withStats
          (fun st => { st with sourced := succ64 st.sourced })) (fun _ => 0)).owner := rfl
  rw [hpolled, publishPending_owner hpublish]
  obtain ⟨st', hprocess⟩ := processPending_owner (o := { overrunOwner (overrunStore
      (filledSlots slots j n) pins i (n + 1) (2 * n)) n row
      stats { st with sourced := succ64 st.sourced } with pending := frame }) hacquire hmap rfl
  obtain ⟨st'', hdone⟩ := submitPending_owner (o := { overrunOwner (overrunStore
      (filledSlots slots j n) pins i (n + 1) (2 * n + 1)) n row stats st' with
        pending := frame }) hsubmit hretire
  refine ⟨stats', st'', htaken, ?_⟩
  rw [hrel] at hprocess
  exact hprocess.trans hdone

theorem Overrun.next (h : Overrun n o) (hn : n < 2 * max32) :
    Overrun (n + 1) (exStep o overrunOp).owner := by
  obtain ⟨slots, i, j, row, stats, st, old, hat, rfl⟩ := h
  obtain ⟨stats', st', htaken, howner⟩ := hat.pump hn st
  have hij := hat.opposite.ne
  have hnew : retiredSlots slots i j n j = { addPin (fillSlot [0] (n + 1) 3 4 (slots j)) with
      state := .retiring } := by
    rw [retiredSlots, update_self, freedSlots_of_ne hij]
  have hold : retiredSlots slots i j n i = { slots i with
      pins := 0
      state := .free
      length := 0 } := by
    rw [retiredSlots, update_of_ne hij, freedSlots, update_self, pinnedSlots_of_ne hij]
  refine ⟨retiredSlots slots i j n, j, i, _, stats', st', _, ?_, howner⟩
  exact {
    opposite := hat.opposite.symm
    pos := Nat.succ_pos n
    retiring := by rw [hnew]
    pins := by
      rw [hnew]
      show (slots j).pins + 1 = 1
      rw [hat.freePins]
    leases := by
      rw [hnew]
      exact hat.freeLeases
    generation := by
      rw [hnew]
      show (slots j).slotGeneration + 1 = _
      rw [hat.freeGeneration]
      omega
    free := by rw [hold]
    freePins := by rw [hold]
    freeLeases := by
      rw [hold]
      exact hat.leases
    freeGeneration := by
      rw [hold]
      exact hat.generation
    state := rfl
    order := rfl
    pin := rfl
    rowGeneration := by
      show (row.generation + 1) % (max32 + 1) = _
      rw [hat.rowGeneration, Nat.mod_add_mod]
    taken := htaken.trans hat.taken }

end Frames

def overrunStart : Traced :=
  ⟨exNew (overrunStore (fun _ => ⟨[0], 0, 0, 0, 0, 0, 0, 0, .free⟩) [none, none] 0 0 0) latestOwner
    1 4 3 4, []⟩

theorem overrun_first : Overrun 1 (exStep overrunStart.owner overrunOp).owner := by
  refine ⟨(exStep overrunStart.owner overrunOp).owner.plant.store.slots, 0, 1,
    ⟨.ready, 1, 1, overrunFrame 0 1 1, overrunPin 2⟩, ⟨1, 0, 1, 0, 0, 0, 0⟩,
    ⟨1, 1, 1, 0, 0, false⟩, 1, ?_, rfl⟩
  constructor <;> first | rfl | decide | exact .inl ⟨rfl, rfl⟩

/-- **Overrun.**  After `n` frames the generation of the row is `n`, modulo its word. -/
theorem overrun_run (n : ℕ) (hpos : 0 < n) (hn : n ≤ 2 * max32) :
    Overrun n (executorMachine.run overrunStart (List.replicate n overrunOp)).owner := by
  induction n, hpos using Nat.le_induction with
  | base => exact overrun_first
  | succ n hpos ih =>
    rw [List.replicate_succ', Machine.run_append]
    exact (ih (by omega)).next (by omega)

theorem Overrun.stuck {n : ℕ} {o : Executor} (h : Overrun n o) (hn : n % (max32 + 1) = 0) :
    ∃ slots i j m row stats o', (slots i).pins = 1 ∧ i < 2 ∧ row.state = .taken ∧
      stats.taken = 1 ∧ o'.stopped = true ∧ o'.plant.fanout.sealed = true ∧
      o'.plant.fanout.branches = [⟨[row], .latest, 0, stats⟩] ∧
      o'.plant.store = overrunStore slots m j n (2 * n) ∧
      (exStep (exStep o (.pumpSink 0 0)).owner (.discardReady 0)).owner = o' := by
  obtain ⟨slots, i, j, ⟨state, generation, order, ref, pin⟩, stats, st, old, hat, rfl⟩ := h
  have hstate : state = .ready := hat.state
  have hgen : generation = 0 := hat.rowGeneration.trans hn
  subst hstate hgen
  refine ⟨slots, i, j, [none, none].set i (some ⟨2 * n, i, old⟩), ⟨.taken, 0, order, ref, pin⟩,
    { stats with
      ready := pred32 stats.ready
      taken := succ32 stats.taken }, _, hat.pins, hat.opposite.symm.lt, rfl, ?_, ?_, ?_, ?_,
    ?_, rfl⟩
  · show succ32 stats.taken = 1
    rw [hat.taken]
    rfl
  all_goals rfl

theorem run_pair (t : Traced) (op op' : ExOp) :
    (executorMachine.run t [op, op']).owner = (exStep (exStep t.owner op).owner op').owner :=
  rfl

/-- After as many frames as a word has values, with the sink served once and the branch
discarded, the executor and its store cannot be destroyed. -/
theorem executor_accounting_overrun :
    fsCreate overrunConfig 5 (fun _ => [0]) = .ok overrunStart.owner.plant.store ∧
      foCreate latestFoConfig 9 = .ok latestOwner ∧
      (executorMachine.run overrunStart (List.replicate 4294967296 overrunOp ++
        [.pumpSink 0 0, .discardReady 0])).owner.stopped = true ∧
      (executorMachine.run overrunStart (List.replicate 4294967296 overrunOp ++
        [.pumpSink 0 0, .discardReady 0])).owner.Drained ∧
      ¬(executorMachine.run overrunStart (List.replicate 4294967296 overrunOp ++
        [.pumpSink 0 0, .discardReady 0])).owner.Clean := by
  have hrun : Overrun 4294967296
      (executorMachine.run overrunStart (List.replicate 4294967296 overrunOp)).owner :=
    overrun_run 4294967296 (by decide) (by decide)
  obtain ⟨slots, i, j, m, row, stats, o', hpins, hi, hrow, _, hstopped, _, hbranches, hstore,
    howner⟩ := hrun.stuck (by decide)
  have hend : (executorMachine.run overrunStart (List.replicate 4294967296 overrunOp ++
      [.pumpSink 0 0, .discardReady 0])).owner = o' := by
    rw [Machine.run_append, run_pair, howner]
  rw [hend]
  refine ⟨rfl, rfl, hstopped, ?_, fun hclean => ?_⟩
  · intro b hb
    rw [hbranches, List.mem_singleton] at hb
    subst hb
    simp [oldestReady, firstMin, firstMinFrom, better, hrow]
  · have hzero := hclean.pins i
    rw [hstore] at hzero
    exact absurd (hpins.symm.trans hzero) Nat.one_ne_zero

end TurboMedia.StreamGraph
