import TurboMedia.StreamGraph.FanoutBacking

/-!
# Submission is all or nothing

**Input.**  Any run of an owner over a store that others use as well, without giving
back pins of the owner, and any reference.

**Method.**  Along the run every row in use is backed by a pin.  So evictions do
not fail, a failed reservation is rolled back to the same credits, and the branches
of a submission that succeeds can be compared one by one with those before it.
-/

namespace TurboMedia.StreamGraph

open List

/-- Only counters of rejections may differ, and no slot has more or fewer pins. -/
structure Untouched (p p' : Plant) : Prop where
  branches : p'.fanout.branches.map Branch.core = p.fanout.branches.map Branch.core
  pins : ∀ i, (p'.store.slots i).pins = (p.store.slots i).pins

/-- The branch has a new ready row for the frame, with a pin of its own on it, in the
place of a row that was free or the oldest ready row of a latest branch. -/
def Gained (p p' : Plant) (ref : FrameRef) (b b' : Branch) : Prop :=
  ∃ k old row, b.rows[k]? = some old ∧ b'.rows = b.rows.set k row ∧
    (old.state = .free ∨ (b.policy = .latest ∧ old.state = .ready ∧
      ∀ r ∈ b.rows, r.state = .ready → old.order ≤ r.order)) ∧
    row.state = .ready ∧ row.ref = ref ∧ p.store.nextTicketId < row.pin.ticketId ∧
    Holds p'.store ref ∧
    ∃ i c, creditLookup p'.store row.pin p'.store.pins = .ok (i, c) ∧ c.slot = ref.slot

def TakenKept (b b' : Branch) : Prop :=
  ∀ (i : ℕ) (row : Row), b.rows[i]? = some row → row.state = .taken → b'.rows[i]? = some row

/-- What a submission does to one branch. -/
structure Served (p p' : Plant) (ref : FrameRef) (b b' : Branch) : Prop where
  selected : foSelected b ref = true → Gained p p' ref b b'
  passed : foSelected b ref = false → b'.rows = b.rows
  taken : TakenKept b b'

/-- Every branch is served, and no two rows in use share a pin. -/
structure Admitted (p p' : Plant) (ref : FrameRef) : Prop where
  branches : List.Forall₂ (Served p p' ref) p.fanout.branches p'.fanout.branches
  pins : ((creditsOf p'.fanout.branches).map Prod.fst).Nodup

section Outcome

variable {p : Plant} {others leases : List (ℕ × FrameRef)} {ref : FrameRef}

theorem submit_core (h : Backed p others leases) (hfail : (submit p ref).2 ≠ .ok) :
    (submit p ref).1.fanout.branches.map Branch.core = p.fanout.branches.map Branch.core := by
  have hview := submit_submission p ref
  generalize submit p ref = r at hview hfail ⊢
  cases hview with
  | refused hstat => rfl
  | full hcore => exact hcore
  | unreserved hadm hres =>
    rw [← reservedLanes_core p ref]
    exact map_map
  | reserved hadm hres => exact absurd (h.lanesSubmitted hres).1 hfail

theorem untouched_of_failed (h : Backed p others leases) (hfail : (submit p ref).2 ≠ .ok) :
    Untouched p (submit p ref).1 := by
  have hcore := submit_core h hfail
  refine ⟨hcore, fun i => ?_⟩
  have hafter := ((h.submitted ref).1.outstanding.counts i).1
  rw [creditsOf_of_core hcore] at hafter
  exact hafter.trans (h.outstanding.counts i).1.symm

theorem takenKept_set {b b' : Branch} {k : ℕ} {old row : Row} (hold : b.rows[k]? = some old)
    (hstate : old.state ≠ .taken) (hset : b'.rows = b.rows.set k row) : TakenKept b b' := by
  intro i r hr htaken
  have hne : k ≠ i := by
    rintro rfl
    rw [hold] at hr
    cases hr
    exact hstate htaken
  rw [hset, getElem?_set_ne hne]
  exact hr

theorem served_of_lane {lane : Lane} {p' : Plant} (hp' : Backed p' others leases)
    (hbranch : lane.evict.commit ref p.fanout.nextOrder ∈ p'.fanout.branches)
    (hidx : lane.index = if foSelected lane.branch ref = true then foChooseRow lane.branch
      else none) (hsome : foSelected lane.branch ref = true → foChooseRow lane.branch ≠ none)
    (hpin : lane.index ≠ none → p.store.nextTicketId < lane.reservation.ticketId) :
    Served p p' ref lane.branch (lane.evict.commit ref p.fanout.nextOrder) := by
  cases hk : lane.index with
  | none =>
    have hrows := commit_evict_rows_none hk ref p.fanout.nextOrder
    constructor
    · intro hsel
      rw [if_pos hsel, hk] at hidx
      exact absurd hidx.symm (hsome hsel)
    · exact fun _ => hrows
    · intro i row hrow _
      rw [hrows]
      exact hrow
  | some k =>
    rw [hk] at hidx hpin
    split_ifs at hidx with hsel
    obtain ⟨old, hold, hchosen⟩ := foChooseRow_some hidx.symm
    have hrows := commit_evict_rows hk hidx.symm ref p.fanout.nextOrder
    have hlt : k < lane.branch.rows.length := (List.getElem?_eq_some_iff.mp hold).1
    have hrow : (lane.branch.row k).fill ref lane.reservation p.fanout.nextOrder ∈
        (lane.evict.commit ref p.fanout.nextOrder).rows := by
      rw [hrows]
      exact mem_set hlt _
    have hcredit : (lane.reservation.ticketId, ref) ∈ creditsOf p'.fanout.branches ++ others :=
      mem_append_left _ (mem_flatMap.mpr
        ⟨_, hbranch, mem_credits.mpr ⟨_, hrow, by simp [Row.fill], rfl⟩⟩)
    have htick := hp'.names _ hbranch _ hrow (by simp [Row.fill])
    obtain ⟨i, c, hlook, hslot⟩ := hp'.outstanding.lookup_pin hcredit
    have hhold := hp'.outstanding.holds (mem_append_left leases hcredit)
    constructor
    · refine fun _ => ⟨k, old, _, hold, hrows, hchosen, rfl, rfl, hpin (by simp), hhold, i, c, ?_,
        hslot⟩
      rw [htick]
      exact hlook
    · exact fun hpassed => absurd hsel (by simp [hpassed])
    · refine takenKept_set hold ?_ hrows
      rcases hchosen with hfree | ⟨_, hready, _⟩
      · rw [hfree]
        simp
      · rw [hready]
        simp

theorem admitted_of_ok (h : Backed p others leases) (hok : (submit p ref).2 = .ok) :
    Admitted p (submit p ref).1 ref := by
  have hafter := (h.submitted ref).1
  have hview := submit_submission p ref
  generalize submit p ref = r at hview hok hafter ⊢
  refine ⟨?_, ?_⟩
  · cases hview with
    | refused hstat | unreserved hadm hstat => exact absurd hok hstat
    | full hcore => cases hok
    | reserved hadm hres =>
      obtain ⟨_, hfanout, hbacked, _⟩ := h.lanesSubmitted hres
      have hpass := h.lanesReserved ref
      have hbranches := reservedLanes_branches hres
      rw [hfanout]
      rw [← hbranches, forall₂_map_left_iff, forall₂_map_right_iff, forall₂_same]
      intro lane hlane
      obtain ⟨hmem, hidx⟩ := reservedLanes_lane hres hlane
      refine served_of_lane hbacked ?_ hidx (hadm.chosen _ hmem) (fun hsome => ?_)
      · rw [hfanout]
        exact mem_map.mpr ⟨lane, hlane, rfl⟩
      · exact ((hpass.booked lane hlane).2 (hpass.complete hres lane hlane hsome)).2
  · have hnodup := hafter.outstanding.nodup.1
    rw [map_append] at hnodup
    exact (nodup_append.mp hnodup).1

end Outcome

/-- **All or nothing.**  In every state of an owner and its store that a run reaches
without others giving back pins of the owner, a submission that fails changes no
branch but for rejections and no count of pins, and one that succeeds gives every
selected branch one ready row with a pin of its own. -/
theorem submit_all_or_nothing (config : FsConfig) (generation : ℕ) (buffers : ℕ → List UInt8)
    (s : Store) (hstore : fsCreate config generation buffers = .ok s) (before : List FsOp)
    (cfg : FoConfig) (incarnation : ℕ) (o : Fanout) (howner : foCreate cfg incarnation = .ok o)
    (ops : List PlantOp)
    (hops : plantMachine.Along KeepsPins
      ⟨(watchedMachine.run ⟨s, freshObserver⟩ before).store, o⟩ ops) (p : Plant)
    (hp : p = plantMachine.run
      ⟨(watchedMachine.run ⟨s, freshObserver⟩ before).store, o⟩ ops) (ref : FrameRef) :
    ((submit p ref).2 ≠ .ok → Untouched p (submit p ref).1) ∧
      ((submit p ref).2 = .ok → Admitted p (submit p ref).1 ref) := by
  have hbacked : ∃ others leases, Backed p others leases := by
    rw [hp]
    refine plantMachine.run_invariant_along (P := fun q => ∃ others leases, Backed q others leases)
      ?_ ⟨_, _, backed_create howner (sound_run hstore before).1⟩ hops
    rintro q op hop ⟨others, leases, hq⟩
    exact hq.step op hop
  obtain ⟨others, leases, h⟩ := hbacked
  exact ⟨untouched_of_failed h, admitted_of_ok h⟩

/-- A lossless and a latest branch, both with one row. -/
def pairFoConfig : FoConfig where
  size := sizeofFoConfig
  version := foAbi
  branchCount := 2
  reserved := 0
  branches := fun i => ⟨sizeofBranchConfig, foAbi, if i.val = 0 then 1 else 3, 1, 0⟩

def pairOwner : Fanout where
  incarnation := 9
  nextOrder := 1
  branches := [⟨[zeroRow], .orderedLossless, 0, ⟨0, 0, 0, 0, 0, 0, 0⟩⟩,
    ⟨[zeroRow], .latest, 0, ⟨0, 0, 0, 0, 0, 0, 0⟩⟩]
  sealed := false

def onePublished : List PlantOp :=
  [.onStore (.publishCpu [10, 20] 3 4)]

def oneAdmitted : List PlantOp :=
  [.onStore (.publishCpu [10, 20] 3 4), .submit firstFrame]

/-- The frame is admitted to both branches, and a second time the lossless branch is
full. -/
theorem submit_all_or_nothing_pair :
    Admitted (plantMachine.run ⟨smallStore, pairOwner⟩ onePublished)
        (submit (plantMachine.run ⟨smallStore, pairOwner⟩ onePublished) firstFrame).1 firstFrame ∧
      Untouched (plantMachine.run ⟨smallStore, pairOwner⟩ oneAdmitted)
        (submit (plantMachine.run ⟨smallStore, pairOwner⟩ oneAdmitted) firstFrame).1 := by
  have hok : (submit (plantMachine.run ⟨smallStore, pairOwner⟩ onePublished) firstFrame).2 =
      .ok := by
    rfl
  have hfull : (submit (plantMachine.run ⟨smallStore, pairOwner⟩ oneAdmitted) firstFrame).2 ≠
      .ok := by
    decide
  exact ⟨(submit_all_or_nothing smallFsConfig 5 (fun _ => []) smallStore rfl [] pairFoConfig 9
      pairOwner rfl onePublished ⟨trivial, trivial⟩ _ rfl firstFrame).2 hok,
    (submit_all_or_nothing smallFsConfig 5 (fun _ => []) smallStore rfl [] pairFoConfig 9
      pairOwner rfl oneAdmitted ⟨trivial, trivial, trivial⟩ _ rfl firstFrame).1 hfull⟩

end TurboMedia.StreamGraph
