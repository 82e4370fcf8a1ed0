import TurboMedia.Lib.Delivery
import TurboMedia.StreamGraph.FanoutPasses
import TurboMedia.StreamGraph.FrameStoreSafety

/-!
# Delivery on the branches of a fan-out

**Input.**  Any run of an owner and its store; others may do anything to the store.

**Method.**  A history of the run is kept beside the owner: the submissions that
succeeded, each under its own stamp, and for every branch what was taken from it,
what was replaced and what was discarded while it was ready.  On every branch the
submissions it selects are kept in order: those that are not lost have been taken or
wait in a row that is ready (`Delivery.Kept`).  The counters are the rows in each
state (`Tallied`).  Nothing is assumed of the answers of the store.
-/

namespace TurboMedia.StreamGraph

open List Branch StreamGraph Words Lane

section Counters

/-- The counters tell the states of the rows, and no counter overflows. -/
structure Tallied (nextOrder : ℕ) (b : Branch) : Prop where
  ready : b.stats.ready = b.rows.countP (fun r => decide (r.state = .ready))
  taken : b.stats.taken = b.rows.countP (fun r => decide (r.state = .taken))
  admitted : b.stats.admitted = b.stats.ready + b.stats.taken + b.stats.completed
  bound : b.stats.admitted < nextOrder
  depth : b.rows.length ≤ maxQueueDepth

def Row.weight (row : Row) (state : RowState) : ℕ :=
  if row.state = state then 1 else 0

variable {n m : ℕ} {b b' : Branch} {k : ℕ} {row row' : Row}

theorem countP_set_row (state : RowState) (hrow : b.rows[k]? = some row) (row' : Row) :
    (b.rows.set k row').countP (fun r => decide (r.state = state)) + row.weight state =
      b.rows.countP (fun r => decide (r.state = state)) + row'.weight state := by
  obtain ⟨hlt, rfl⟩ := List.getElem?_eq_some_iff.mp hrow
  rw [countP_set hlt, Row.weight, Row.weight]
  simp only [decide_eq_true_eq]
  by_cases hp : (b.rows[k]).state = state
  · have hpos : 0 < b.rows.countP (fun r => decide (r.state = state)) :=
      countP_pos_iff.mpr ⟨_, getElem_mem hlt, by simpa using hp⟩
    rw [if_pos hp]
    omega
  · rw [if_neg hp]
    omega

variable (h : Tallied n b)
include h

theorem Tallied.of_core (hcore : b'.core = b.core) : Tallied n b' := by
  have hself : Tallied n b.core := ⟨h.ready, h.taken, h.admitted, h.bound, h.depth⟩
  rw [← hcore] at hself
  exact ⟨hself.ready, hself.taken, hself.admitted, hself.bound, hself.depth⟩

theorem Tallied.write (hrow : b.rows[k]? = some row)
    (hrows : b'.rows = b.rows.set k row')
    (hready : b'.stats.ready + row.weight .ready = b.stats.ready + row'.weight .ready)
    (htaken : b'.stats.taken + row.weight .taken = b.stats.taken + row'.weight .taken)
    (hadmitted : b'.stats.admitted = b'.stats.ready + b'.stats.taken + b'.stats.completed)
    (hbound : b'.stats.admitted < m) :
    Tallied m b' where
  ready := by
    have hcount := countP_set_row .ready hrow row'
    have := h.ready
    rw [hrows]
    omega
  taken := by
    have hcount := countP_set_row .taken hrow row'
    have := h.taken
    rw [hrows]
    omega
  admitted := hadmitted
  bound := hbound
  depth := by
    rw [hrows, length_set]
    exact h.depth

/-- The counters are small, and a state with a row in it can be counted down. -/
theorem Tallied.pos (hrow : b.rows[k]? = some row) :
    row.weight .ready ≤ b.stats.ready ∧ row.weight .taken ≤ b.stats.taken ∧
      b.stats.ready < max32 ∧ b.stats.taken < max32 := by
  have hweight : ∀ state, row.weight state ≤ b.rows.countP (fun r => decide (r.state = state)) := by
    intro state
    rw [Row.weight]
    split_ifs with hstate
    · exact countP_pos_iff.mpr ⟨row, mem_of_getElem? hrow, by simpa using hstate⟩
    · exact Nat.zero_le _
  have hdepth : b.rows.length < max32 := h.depth.trans_lt (by decide)
  rw [h.ready, h.taken]
  exact ⟨hweight .ready, hweight .taken, countP_le_length.trans_lt hdepth,
    countP_le_length.trans_lt hdepth⟩

theorem Tallied.release (hn : n ≤ max64) (hrow : b.rows[k]? = some row)
    (hused : row.state ≠ .free) : Tallied n (b.release k) := by
  obtain ⟨hready, htaken, hreadyLt, htakenLt⟩ := h.pos hrow
  have hadmitted := h.admitted
  have hbound := h.bound
  have hcomp : succ64 b.stats.completed = b.stats.completed + 1 :=
    succ64_eq (by omega)
  have hrows : (b.release k).rows = b.rows.set k row.clear := by
    rw [Branch.release, Branch.row_eq hrow]
  have hstats : (b.release k).stats = b.stats.release row.state := by
    rw [Branch.release, Branch.row_eq hrow]
  cases hstate : row.state with
  | free => exact absurd hstate hused
  | ready =>
    simp only [Row.weight, hstate, reduceCtorEq, if_true, if_false] at hready htaken
    have hpred : pred32 b.stats.ready = b.stats.ready - 1 :=
      pred32_eq (by omega) (by omega)
    refine h.write hrow hrows ?_ ?_ ?_ ?_ <;>
      simp only [hstats, BranchStats.release, Row.weight, hstate, Row.clear, reduceCtorEq, if_true,
        if_false, hpred, hcomp] <;> omega
  | taken =>
    simp only [Row.weight, hstate, reduceCtorEq, if_true, if_false] at hready htaken
    have hpred : pred32 b.stats.taken = b.stats.taken - 1 :=
      pred32_eq (by omega) (by omega)
    refine h.write hrow hrows ?_ ?_ ?_ ?_ <;>
      simp only [hstats, BranchStats.release, Row.weight, hstate, Row.clear, reduceCtorEq, if_true,
        if_false, hpred, hcomp] <;> omega

theorem Tallied.takeRow (hrow : b.rows[k]? = some row)
    (hstate : row.state = .ready) : Tallied n (b.takeRow k) := by
  obtain ⟨hready, _, hreadyLt, htakenLt⟩ := h.pos hrow
  have hadmitted := h.admitted
  have hbound := h.bound
  simp only [Row.weight, hstate, if_true] at hready
  have hpred : pred32 b.stats.ready = b.stats.ready - 1 :=
    pred32_eq (by omega) (by omega)
  have hsucc : succ32 b.stats.taken = b.stats.taken + 1 := succ32_eq htakenLt
  have hrows : (b.takeRow k).rows = b.rows.set k { row with state := .taken } := by
    rw [Branch.takeRow, Branch.row_eq hrow]
  refine h.write hrow hrows ?_ ?_ ?_ ?_ <;>
    simp only [Branch.takeRow, Row.weight, hstate, reduceCtorEq, if_true, if_false, hpred,
      hsucc] <;> omega

omit h

theorem Tallied.commit {lane : Lane} {ref : FrameRef} (h : Tallied n lane.branch)
    (hn : n < max64)
    (hvacant : ∀ k, lane.index = some k →
      ∃ row, lane.branch.rows[k]? = some row ∧ row.state = .free) (order : ℕ) :
    Tallied (n + 1) (lane.commit ref order) := by
  have hbound := h.bound
  rw [Lane.commit]
  cases hidx : lane.index with
  | none => exact ⟨h.ready, h.taken, h.admitted, hbound.trans (Nat.lt_succ_self n), h.depth⟩
  | some k =>
    obtain ⟨row, hrow, hfree⟩ := hvacant k hidx
    obtain ⟨_, _, hreadyLt, _⟩ := h.pos hrow
    have hadmitted := h.admitted
    have hsucc : succ32 lane.branch.stats.ready = lane.branch.stats.ready + 1 :=
      succ32_eq hreadyLt
    have hcount : succ64 lane.branch.stats.admitted = lane.branch.stats.admitted + 1 :=
      succ64_eq (by omega)
    refine h.write hrow rfl ?_ ?_ ?_ ?_ <;>
      simp only [Row.weight, Row.fill, hfree, reduceCtorEq, if_true, if_false, hsucc,
        hcount] <;> omega

end Counters

section Waiting

/-- A submission that succeeded, under the order it was given. -/
structure Submitted where
  stamp : ℕ
  ref : FrameRef
deriving DecidableEq

/-- The submission that waits in a row that is ready. -/
def Row.waiting (row : Row) : Option Submitted :=
  if row.state = .ready then some ⟨row.order, row.ref⟩ else none

def Branch.waiting (b : Branch) : List Submitted :=
  (b.rows.map Row.waiting).reduceOption

/-- What waited on the branch and does not wait on it any more. -/
def Branch.lostTo (b b' : Branch) : List Submitted :=
  b.waiting.filter (fun a => decide (a ∉ b'.waiting))

/-- The branch loses `gone` and gains `new`, and keeps its policy. -/
structure Moves (gone : List Submitted) (new : Option Submitted) (b b' : Branch) :
    Prop where
  policy : b'.policy = b.policy
  sampleEvery : b'.sampleEvery = b.sampleEvery
  waiting : ∃ rest, b.waiting.Perm (gone ++ rest) ∧ b'.waiting.Perm (new.toList ++ rest)

variable {b b' b'' : Branch} {k : ℕ} {row row' : Row}
variable {gone gone' : List Submitted} {new : Option Submitted}

theorem mem_waiting {a : Submitted} :
    a ∈ b.waiting ↔ ∃ row ∈ b.rows, row.state = .ready ∧ a = ⟨row.order, row.ref⟩ := by
  rw [waiting, reduceOption_mem_iff, mem_map]
  constructor
  · rintro ⟨row, hrow, hwaiting⟩
    rw [Row.waiting] at hwaiting
    split_ifs at hwaiting with hstate
    cases hwaiting
    exact ⟨row, hrow, hstate, rfl⟩
  · rintro ⟨row, hrow, hstate, rfl⟩
    exact ⟨row, hrow, if_pos hstate⟩

theorem Moves.of_core (hcore : b'.core = b.core) : Moves [] none b b' := by
  have hself : Moves [] none b b.core := ⟨rfl, rfl, b.waiting, List.Perm.refl _, List.Perm.refl _⟩
  rw [← hcore] at hself
  exact ⟨hself.policy, hself.sampleEvery, hself.waiting⟩

theorem Moves.of_rows (hrows : b'.rows = b.rows) (hpolicy : b'.policy = b.policy)
    (hevery : b'.sampleEvery = b.sampleEvery) : Moves [] none b b' := by
  refine ⟨hpolicy, hevery, b.waiting, List.Perm.refl _, ?_⟩
  rw [Branch.waiting, hrows]
  exact List.Perm.refl _

theorem Moves.write (hrow : b.rows[k]? = some row) (hrows : b'.rows = b.rows.set k row')
    (hpolicy : b'.policy = b.policy) (hevery : b'.sampleEvery = b.sampleEvery) :
    Moves row.waiting.toList row'.waiting b b' := by
  refine ⟨hpolicy, hevery, ?_⟩
  rw [Branch.waiting, Branch.waiting, hrows]
  exact SlotTable.perm_map_set hrow row'

theorem Moves.release (hrow : b.rows[k]? = some row) :
    Moves row.waiting.toList none b (b.release k) := by
  have hrows : (b.release k).rows = b.rows.set k row.clear := by
    rw [Branch.release, Branch.row_eq hrow]
  exact Moves.write hrow hrows rfl rfl

theorem Moves.trans (h : Moves gone none b b') (h' : Moves gone' none b' b'') :
    Moves (gone ++ gone') none b b'' := by
  obtain ⟨rest, hbef, hafter⟩ := h.waiting
  obtain ⟨rest', hbef', hafter'⟩ := h'.waiting
  refine ⟨h'.policy.trans h.policy, h'.sampleEvery.trans h.sampleEvery, rest', ?_, hafter'⟩
  rw [append_assoc]
  exact hbef.trans ((hafter.symm.trans hbef').append_left gone)

theorem Moves.lost_perm (h : Moves gone new b b') (hnodup : b.waiting.Nodup)
    (hnew : ∀ a ∈ gone, a ∉ new.toList) : (b.lostTo b').Perm gone := by
  obtain ⟨rest, hbef, hafter⟩ := h.waiting
  have hsplit := hbef.nodup_iff.mp hnodup
  rw [nodup_append] at hsplit
  obtain ⟨_, _, hapart⟩ := hsplit
  have hgone : gone.filter (fun a => decide (a ∉ b'.waiting)) = gone := by
    rw [filter_eq_self]
    intro a ha
    rw [decide_eq_true_eq, hafter.mem_iff, mem_append, not_or]
    exact ⟨hnew a ha, fun hrest => hapart a ha a hrest rfl⟩
  have hrest : rest.filter (fun a => decide (a ∉ b'.waiting)) = [] := by
    rw [filter_eq_nil_iff]
    intro a ha
    rw [decide_eq_true_eq, not_not, hafter.mem_iff]
    exact mem_append_right _ ha
  have hfilter := hbef.filter (fun a => decide (a ∉ b'.waiting))
  rw [filter_append, hgone, hrest, append_nil] at hfilter
  exact hfilter

theorem Moves.kept {accepted delivered lost queue : List Submitted} (h : Moves gone new b b')
    (hkept : Delivery.Kept accepted delivered lost queue) (hqueue : queue.Perm b.waiting)
    (hnew : ∀ a ∈ new.toList, a ∉ accepted) :
    (b.lostTo b').Perm gone ∧ ∃ queue', queue'.Perm b'.waiting ∧
      Delivery.Kept (accepted ++ new.toList) delivered (lost ++ b.lostTo b') queue' := by
  obtain ⟨rest, hbef, hafter⟩ := h.waiting
  have hsplit : (gone ++ rest).Nodup := by
    rw [← hbef.nodup_iff, ← hqueue.nodup_iff]
    exact ((sublist_append_right _ _).trans hkept.sublist).nodup hkept.nodup
  have hwaits : ∀ a ∈ gone, a ∈ queue := by
    intro a ha
    exact hqueue.mem_iff.mpr (hbef.mem_iff.mpr (mem_append_left _ ha))
  have hlost : (b.lostTo b').Perm gone :=
    h.lost_perm (hbef.nodup_iff.mpr hsplit)
      (fun a ha hmem => hnew a hmem (hkept.waits_not_lost (hwaits a ha)).1)
  obtain ⟨hgone, _, hapart⟩ := nodup_append.mp hsplit
  have hleft : (queue.filter (fun a => decide (a ∉ b.lostTo b'))).Perm rest := by
    have hnone : gone.filter (fun a => decide (a ∉ b.lostTo b')) = [] := by
      rw [filter_eq_nil_iff]
      intro a ha
      simpa using hlost.mem_iff.mpr ha
    have hall : rest.filter (fun a => decide (a ∉ b.lostTo b')) = rest := by
      rw [filter_eq_self]
      intro a ha
      rw [decide_eq_true_eq, hlost.mem_iff]
      exact fun hmem => hapart a hmem a ha rfl
    have hfilter := (hqueue.trans hbef).filter (fun a => decide (a ∉ b.lostTo b'))
    rw [filter_append, hnone, hall] at hfilter
    exact hfilter
  have hkept' := hkept.lose (hlost.nodup_iff.mpr hgone) (fun a ha => hwaits a (hlost.mem_iff.mp ha))
  refine ⟨hlost, ?_⟩
  cases new with
  | none =>
    rw [Option.toList_none, append_nil]
    exact ⟨_, hleft.trans hafter.symm, hkept'⟩
  | some a =>
    refine ⟨_, ?_, hkept'.accept (hnew a (by simp))⟩
    exact (perm_append_singleton _ _).trans ((hleft.cons a).trans hafter.symm)

end Waiting

section Submission

variable {p : Plant} {ref : FrameRef} {i : ℕ} {b' : Branch}

theorem getElem?_of_forall₂ {α β : Type} {R : α → β → Prop} {l : List α} {l' : List β} {y : β}
    (h : List.Forall₂ R l l') (hy : l'[i]? = some y) : ∃ x, l[i]? = some x ∧ R x y := by
  induction h generalizing i with
  | nil => cases hy
  | cons hr _ ih =>
    cases i with
    | zero =>
      cases hy
      exact ⟨_, rfl, hr⟩
    | succ i => exact ih hy

theorem getElem?_of_map {α β : Type} {f : α → β} {l : List α} {y : β} (h : (l.map f)[i]? = some y) :
    ∃ x, l[i]? = some x ∧ f x = y := by
  rw [getElem?_map] at h
  exact Option.map_eq_some_iff.mp h

theorem reservedLanes_at {lane : Lane} (hres : (reservedLanes p ref).result = .ok)
    (hlane : (reservedLanes p ref).lanes[i]? = some lane) :
    p.fanout.branches[i]? = some lane.branch ∧
      lane.index = if foSelected lane.branch ref = true then foChooseRow lane.branch else none := by
  refine ⟨?_, (reservedLanes_lane hres (mem_of_getElem? hlane)).2⟩
  rw [← reservedLanes_branches hres, getElem?_map, hlane]
  rfl

theorem core_of_map {bs bs' : List Branch} (h : bs'.map core = bs.map core)
    (hb' : bs'[i]? = some b') : ∃ b, bs[i]? = some b ∧ b'.core = b.core := by
  have hcore : (bs.map core)[i]? = some b'.core := by
    rw [← h, getElem?_map, hb']
    rfl
  obtain ⟨b, hb, heq⟩ := getElem?_of_map hcore
  exact ⟨b, hb, heq.symm⟩

/-- Where a submission fails, a branch has counted a rejection, or has given up its
oldest ready row for a frame that another branch had no place for. -/
theorem submit_failed (hfail : (submit p ref).2 ≠ .ok) :
    (submit p ref).1.fanout.nextOrder = p.fanout.nextOrder ∧
      ∀ (i : ℕ) (b' : Branch), (submit p ref).1.fanout.branches[i]? = some b' →
        ∃ b, p.fanout.branches[i]? = some b ∧ (b'.core = b.core ∨
          ∃ k, foChooseRow b = some k ∧ (b.row k).state = .ready ∧
            b' = (b.release k).replaced) := by
  have hview := submit_submission p ref
  generalize submit p ref = r at hview hfail ⊢
  cases hview with
  | refused hstat => exact ⟨rfl, fun i b' hb' => ⟨b', hb', .inl rfl⟩⟩
  | full hcore =>
    refine ⟨rfl, fun i b' hb' => ?_⟩
    obtain ⟨b, hb, heq⟩ := core_of_map hcore hb'
    exact ⟨b, hb, .inl heq⟩
  | unreserved hadm hres =>
    refine ⟨rfl, fun i b' hb' => ?_⟩
    have hcore : (p.undo (reservedLanes p ref)).fanout.branches.map core =
        p.fanout.branches.map core := by
      rw [← reservedLanes_core p ref]
      exact map_map
    obtain ⟨b, hb, heq⟩ := core_of_map hcore hb'
    exact ⟨b, hb, .inl heq⟩
  | reserved hadm hres =>
    rw [submitReserved] at hfail ⊢
    split_ifs at hfail ⊢ with hevict
    · refine ⟨rfl, fun i b' hb' => ?_⟩
      have hlanes := evictAll_lanes_or (reservedLanes p ref).reserved (reservedLanes p ref).store
        (reservedLanes p ref).lanes
      obtain ⟨lane', hlane', rfl⟩ := getElem?_of_map hb'
      obtain ⟨lane, hlane, hmove⟩ := getElem?_of_forall₂ hlanes hlane'
      obtain ⟨hb, hidx⟩ := reservedLanes_at hres hlane
      refine ⟨lane.branch, hb, ?_⟩
      rcases hmove with rfl | rfl
      · exact .inl rfl
      · rcases lane.row_cases with hkeep | ⟨k, hk, hready⟩
        · rw [evict_eq_self hkeep]
          exact .inl rfl
        · rw [hk] at hidx
          split_ifs at hidx
          rw [evict_eq hk hready]
          exact .inr ⟨k, hidx.symm, hready, rfl⟩
    · exact absurd rfl hfail

theorem submit_accepted (hok : (submit p ref).2 = .ok) :
    Admissible p ref ∧ (submit p ref).1.fanout.nextOrder = p.fanout.nextOrder + 1 ∧
      ∀ (i : ℕ) (b' : Branch), (submit p ref).1.fanout.branches[i]? = some b' →
        ∃ lane : Lane, p.fanout.branches[i]? = some lane.branch ∧
          lane.index = (if foSelected lane.branch ref = true then foChooseRow lane.branch
            else none) ∧ b' = lane.evict.commit ref p.fanout.nextOrder := by
  have hview := submit_submission p ref
  generalize submit p ref = r at hview hok ⊢
  cases hview with
  | refused hstat | unreserved hadm hstat => exact absurd hok hstat
  | full hcore => cases hok
  | reserved hadm hres =>
    refine ⟨hadm, ?_⟩
    rw [submitReserved] at hok ⊢
    split_ifs at hok ⊢ with hevict
    · exact absurd hok hevict
    · refine ⟨rfl, fun i b' hb' => ?_⟩
      rw [evictAll_lanes (not_not.mp hevict), map_map] at hb'
      obtain ⟨lane, hlane, rfl⟩ := getElem?_of_map hb'
      obtain ⟨hb, hidx⟩ := reservedLanes_at hres hlane
      exact ⟨lane, hb, hidx, rfl⟩

variable {lane : Lane} {n : ℕ}

theorem commit_evict_policy (lane : Lane) (ref : FrameRef) (order : ℕ) :
    (lane.evict.commit ref order).policy = lane.branch.policy ∧
      (lane.evict.commit ref order).sampleEvery = lane.branch.sampleEvery := by
  have hevict : lane.evict.branch.policy = lane.branch.policy ∧
      lane.evict.branch.sampleEvery = lane.branch.sampleEvery := by
    rcases lane.row_cases with hkeep | ⟨k, hidx, hstate⟩
    · rw [evict_eq_self hkeep]
      exact ⟨rfl, rfl⟩
    · rw [evict_eq hidx hstate]
      exact ⟨rfl, rfl⟩
  rw [commit]
  split <;> exact hevict

/-- A branch that has committed: its ready row may have been replaced, where it keeps
the latest frames, and the new frame waits, where it is selected. -/
theorem commit_moves
    (hidx : lane.index = if foSelected lane.branch ref = true then foChooseRow lane.branch
      else none) (hchosen : foSelected lane.branch ref = true → foChooseRow lane.branch ≠ none)
    (order : ℕ) :
    ∃ gone, Moves gone (if foSelected lane.branch ref = true then some ⟨order, ref⟩ else none)
        lane.branch (lane.evict.commit ref order) ∧ (lane.branch.policy ≠ .latest → gone = []) := by
  obtain ⟨hpolicy, hevery⟩ := commit_evict_policy lane ref order
  by_cases hsel : foSelected lane.branch ref = true
  · rw [if_pos hsel] at hidx ⊢
    cases hchoose : foChooseRow lane.branch with
    | none => exact absurd hchoose (hchosen hsel)
    | some k =>
      rw [hchoose] at hidx
      obtain ⟨old, hold, hstate⟩ := foChooseRow_some hchoose
      have hrows := commit_evict_rows hidx hchoose ref order
      have hmoves := Moves.write hold hrows hpolicy hevery
      refine ⟨old.waiting.toList, hmoves, fun hkeeps => ?_⟩
      rcases hstate with hfree | ⟨hlatest, _⟩
      · rw [Row.waiting, hfree]
        rfl
      · exact absurd hlatest hkeeps
  · rw [if_neg hsel] at hidx ⊢
    exact ⟨[], Moves.of_rows (commit_evict_rows_none hidx ref order) hpolicy hevery,
      fun _ => rfl⟩

theorem Tallied.evict (h : Tallied n lane.branch) (hn : n ≤ max64) :
    Tallied n lane.evict.branch := by
  rcases lane.row_cases with hkeep | ⟨k, hidx, hstate⟩
  · rw [evict_eq_self hkeep]
    exact h
  · have hused : (lane.branch.row k).state ≠ .free := by
      rw [hstate]
      simp
    have hreleased := h.release hn (getElem?_row hused) hused
    rw [evict_eq hidx hstate]
    exact ⟨hreleased.ready, hreleased.taken, hreleased.admitted, hreleased.bound, hreleased.depth⟩

theorem Tallied.commit_evict (h : Tallied n lane.branch) (hn : n < max64)
    (hidx : lane.index = if foSelected lane.branch ref = true then foChooseRow lane.branch
      else none) (order : ℕ) : Tallied (n + 1) (lane.evict.commit ref order) := by
  refine (h.evict hn.le).commit hn (fun k hk => ?_) order
  rw [lane.evict_index.1] at hk
  rw [hk] at hidx
  split_ifs at hidx
  obtain ⟨row, hrow, hfree, _⟩ := evict_vacant hk hidx.symm
  exact ⟨row, hrow, hfree⟩

end Submission

section History

/-- What happened along a run: the submissions that succeeded, and for every branch
those that were taken from it, and those that it lost while they were ready to a
submission or to being discarded. -/
structure History where
  accepted : List Submitted
  taken : ℕ → List Submitted
  replaced : ℕ → List Submitted
  discarded : ℕ → List Submitted

/-- What stopped waiting on branch `i`. -/
def lostOn (p p' : Plant) (i : ℕ) : List Submitted :=
  match p.fanout.branches[i]?, p'.fanout.branches[i]? with
  | some b, some b' => b.lostTo b'
  | _, _ => []

def stampOf (p : Plant) (branch slot : ℕ) : ℕ :=
  match p.fanout.branches[branch]? with
  | some b => (b.row slot).order
  | none => 0

/-- A call with its answer, between two states. -/
def History.see (h : History) (p p' : Plant) : PlantOp → PlantAnswer → History
  | .submit ref, .status .ok =>
    { h with
      accepted := h.accepted ++ [⟨p.fanout.nextOrder, ref⟩]
      replaced := fun i => h.replaced i ++ lostOn p p' i }
  | .submit _, _ => { h with replaced := fun i => h.replaced i ++ lostOn p p' i }
  | .take branch, .taken (.ok (ticket, ref)) =>
    { h with
      taken := Function.update h.taken branch
        (h.taken branch ++ [⟨stampOf p branch ticket.slot, ref⟩]) }
  | .discardReady _, _ => { h with discarded := fun i => h.discarded i ++ lostOn p p' i }
  | _, _ => h

/-- A plant and its history. -/
structure Recorded where
  plant : Plant
  history : History

def recordedMachine : Machine Recorded PlantOp PlantAnswer where
  step := fun r op =>
    let next := plantStep r.plant op
    (⟨next.1, r.history.see r.plant next.1 op next.2⟩, next.2)

def freshHistory : History :=
  ⟨[], fun _ => [], fun _ => [], fun _ => []⟩

/-- A branch and its part of the history. -/
structure BranchFlow (h : History) (nextOrder i : ℕ) (b : Branch) : Prop where
  tallied : Tallied nextOrder b
  kept : ∃ queue, queue.Perm b.waiting ∧
    Delivery.Kept (h.accepted.filter (fun a => foSelected b a.ref)) (h.taken i)
      (h.replaced i ++ h.discarded i) queue
  replaced : b.policy ≠ .latest → h.replaced i = []

/-- Submissions are stamped in order, and every branch keeps its part of them. -/
structure Flow (h : History) (o : Fanout) : Prop where
  stamps : h.accepted.Pairwise (fun a a' => a.stamp < a'.stamp)
  below : ∀ a ∈ h.accepted, a.stamp < o.nextOrder
  frames : ∀ a ∈ h.accepted, a.ref.frameId ≠ 0
  order : o.nextOrder ≤ max64
  branches : ∀ (i : ℕ) (b : Branch), o.branches[i]? = some b → BranchFlow h o.nextOrder i b

variable {h : History} {p p' : Plant} {i n : ℕ} {b b' : Branch}

theorem lostOn_eq (hb : p.fanout.branches[i]? = some b) (hb' : p'.fanout.branches[i]? = some b') :
    lostOn p p' i = b.lostTo b' := by
  rw [lostOn, hb, hb']

theorem lostTo_self (b : Branch) : b.lostTo b = [] := by
  rw [lostTo, filter_eq_nil_iff]
  intro a ha
  simpa using ha

theorem lostOn_of_eq (hsame : p'.fanout.branches[i]? = p.fanout.branches[i]?) :
    lostOn p p' i = [] := by
  rw [lostOn, hsame]
  cases hb : p.fanout.branches[i]? with
  | none => rfl
  | some b => exact lostTo_self b

theorem foSelected_of_moves {gone : List Submitted} {new : Option Submitted}
    (h : Moves gone new b b') : foSelected b' = foSelected b := by
  funext ref
  rw [foSelected, foSelected, h.policy, h.sampleEvery]

end History

section Steps

variable {h : History} {p : Plant} {i n : ℕ} {b b' : Branch}

theorem BranchFlow.move {h' : History} {gone : List Submitted} {new : Option Submitted} {m : ℕ}
    (hflow : BranchFlow h n i b) (hmoves : Moves gone new b b') (htallied : Tallied m b')
    (hnew : ∀ a ∈ new.toList, a ∉ h.accepted)
    (hacc : h'.accepted.filter (fun a => foSelected b a.ref) =
      h.accepted.filter (fun a => foSelected b a.ref) ++ new.toList)
    (htaken : h'.taken i = h.taken i)
    (hlost : (b.lostTo b').Perm gone → (h.replaced i ++ h.discarded i ++ b.lostTo b').Perm
      (h'.replaced i ++ h'.discarded i))
    (hrepl : (b.lostTo b').Perm gone → b.policy ≠ .latest → h'.replaced i = []) :
    BranchFlow h' m i b' := by
  obtain ⟨queue, hqueue, hkept⟩ := hflow.kept
  obtain ⟨hgone, queue', hqueue', hkept'⟩ := hmoves.kept hkept hqueue
    (fun a ha hmem => hnew a ha (mem_of_mem_filter hmem))
  refine ⟨htallied, ⟨queue', hqueue', ?_⟩, fun hpolicy => ?_⟩
  · rw [foSelected_of_moves hmoves, hacc, htaken]
    exact hkept'.perm_lost (hlost hgone)
  · rw [hmoves.policy] at hpolicy
    exact hrepl hgone hpolicy

theorem BranchFlow.submitted {h' : History} {gone : List Submitted} {new : Option Submitted} {m : ℕ}
    (hflow : BranchFlow h n i b) (hmoves : Moves gone new b b') (htallied : Tallied m b')
    (hnew : ∀ a ∈ new.toList, a ∉ h.accepted)
    (hacc : h'.accepted.filter (fun a => foSelected b a.ref) =
      h.accepted.filter (fun a => foSelected b a.ref) ++ new.toList)
    (htaken : h'.taken i = h.taken i) (hrepl : h'.replaced i = h.replaced i ++ b.lostTo b')
    (hdiscarded : h'.discarded i = h.discarded i) (hlatest : b.policy ≠ .latest → gone = []) :
    BranchFlow h' m i b' := by
  refine hflow.move hmoves htallied hnew hacc htaken (fun _ => ?_) (fun hgone hpolicy => ?_)
  · rw [hrepl, hdiscarded, append_assoc, append_assoc]
    exact perm_append_comm.append_left _
  · rw [hlatest hpolicy] at hgone
    rw [hrepl, hflow.replaced hpolicy, hgone.eq_nil, append_nil]

theorem BranchFlow.still (hflow : BranchFlow h n i b) (hmoves : Moves [] none b b')
    (htallied : Tallied n b') : BranchFlow h n i b' := by
  refine hflow.move hmoves htallied (by simp) (by simp) rfl (fun hgone => ?_)
    (fun _ hpolicy => hflow.replaced hpolicy)
  rw [hgone.eq_nil, append_nil]

theorem Flow.submit_ok {ref : FrameRef} (hflow : Flow h p.fanout)
    (hok : (submit p ref).2 = .ok) :
    Flow (h.see p (submit p ref).1 (.submit ref) (.status .ok))
      (submit p ref).1.fanout := by
  obtain ⟨hadm, hnext, hbranches⟩ := submit_accepted hok
  have hfresh : ∀ a ∈ h.accepted, a.stamp < p.fanout.nextOrder := hflow.below
  have hlt : p.fanout.nextOrder < max64 :=
    lt_of_le_of_ne hflow.order hadm.order
  constructor
  · show (h.accepted ++ [Submitted.mk p.fanout.nextOrder ref]).Pairwise _
    rw [pairwise_append]
    exact ⟨hflow.stamps, pairwise_singleton _ _, by simpa using hfresh⟩
  · intro a ha
    rw [hnext]
    rcases mem_append.mp ha with ha | ha
    · exact (hfresh a ha).trans (Nat.lt_succ_self _)
    · rw [mem_singleton] at ha
      subst ha
      exact Nat.lt_succ_self _
  · intro a ha
    rcases mem_append.mp ha with ha | ha
    · exact hflow.frames a ha
    · rw [mem_singleton] at ha
      subst ha
      exact hadm.frame
  · rw [hnext]
    exact hlt
  · intro i b' hb'
    obtain ⟨lane, hb, hidx, rfl⟩ := hbranches i b' hb'
    have hbranch := hflow.branches i _ hb
    obtain ⟨gone, hmoves, hlatest⟩ := commit_moves hidx
      (hadm.chosen _ (mem_of_getElem? hb)) p.fanout.nextOrder
    rw [hnext]
    refine hbranch.submitted hmoves (hbranch.tallied.commit_evict hlt hidx _) ?_ ?_ rfl ?_ rfl
      hlatest
    · intro a ha hmem
      split_ifs at ha
      · simp only [Option.toList_some, mem_singleton] at ha
        subst ha
        exact lt_irrefl _ (hfresh _ hmem)
      · simp at ha
    · show (h.accepted ++ [Submitted.mk p.fanout.nextOrder ref]).filter _ = _
      rw [filter_append]
      congr 1
      split
      next hsel => exact filter_cons_of_pos hsel
      next hsel => exact filter_cons_of_neg hsel
    · show h.replaced i ++ lostOn p (submit p ref).1 i = _
      rw [lostOn_eq hb hb']

theorem Flow.submitFailed {ref : FrameRef} (hflow : Flow h p.fanout)
    (hfail : (submit p ref).2 ≠ .ok) :
    Flow (h.see p (submit p ref).1 (.submit ref)
      (.status (submit p ref).2)) (submit p ref).1.fanout := by
  obtain ⟨hnext, hbranches⟩ := submit_failed hfail
  have hsee : h.see p (submit p ref).1 (.submit ref)
      (.status (submit p ref).2) =
      { h with replaced := fun i => h.replaced i ++ lostOn p (submit p ref).1 i } := by
    cases hstat : (submit p ref).2 with
    | ok => exact absurd hstat hfail
    | _ => rfl
  rw [hsee]
  constructor
  · exact hflow.stamps
  · rw [hnext]
    exact hflow.below
  · exact hflow.frames
  · rw [hnext]
    exact hflow.order
  · intro i b' hb'
    obtain ⟨b, hb, hmove⟩ := hbranches i b' hb'
    have hbranch := hflow.branches i b hb
    rw [hnext]
    have hrepl : h.replaced i ++ lostOn p (submit p ref).1 i =
        h.replaced i ++ b.lostTo b' := by
      rw [lostOn_eq hb hb']
    rcases hmove with hcore | ⟨k, hchoose, hready, rfl⟩
    · exact hbranch.submitted (Moves.of_core hcore) (hbranch.tallied.of_core hcore) (by simp)
        (by simp) rfl hrepl rfl (fun _ => rfl)
    · obtain ⟨row, hrow, hchosen⟩ := foChooseRow_some hchoose
      rw [row_eq hrow] at hready
      have hused : row.state ≠ .free := by
        rw [hready]
        simp
      have hmoves := Moves.release hrow
      have htallied := hbranch.tallied.release hflow.order hrow hused
      refine hbranch.submitted ⟨hmoves.policy, hmoves.sampleEvery, hmoves.waiting⟩
        ⟨htallied.ready, htallied.taken, htallied.admitted, htallied.bound, htallied.depth⟩
        (by simp) (by simp) rfl hrepl rfl (fun hpolicy => ?_)
      rcases hchosen with hfree | ⟨hlatest, _⟩
      · exact absurd hfree hused
      · exact absurd hlatest hpolicy

/-- Another history that says the same of branch `i`. -/
structure SameOn (h h' : History) (i : ℕ) : Prop where
  taken : h'.taken i = h.taken i
  replaced : h'.replaced i = h.replaced i
  discarded : h'.discarded i = h.discarded i

theorem Flow.setBranch {h' : History} (hflow : Flow h p.fanout)
    (hacc : h'.accepted = h.accepted) (hself : BranchFlow h' p.fanout.nextOrder i b')
    (hothers : ∀ j, j ≠ i → SameOn h h' j) : Flow h' (p.setBranch i b').fanout := by
  constructor
  · rw [hacc]
    exact hflow.stamps
  · rw [hacc]
    exact hflow.below
  · rw [hacc]
    exact hflow.frames
  · exact hflow.order
  · intro j b hb
    by_cases hj : j = i
    · subst hj
      have hset : (p.fanout.branches.set j b')[j]? = some b := hb
      obtain ⟨_, heq⟩ := List.getElem?_eq_some_iff.mp hset
      rw [getElem_set_self] at heq
      subst heq
      exact hself
    · have hset : (p.fanout.branches.set i b')[j]? = some b := hb
      rw [getElem?_set_ne (Ne.symm hj)] at hset
      have hbranch := hflow.branches j b hset
      obtain ⟨htaken, hrepl, hdiscarded⟩ := hothers j hj
      refine ⟨hbranch.tallied, ?_, ?_⟩
      · rw [hacc, htaken, hrepl, hdiscarded]
        exact hbranch.kept
      · rw [hrepl]
        exact hbranch.replaced

theorem BranchFlow.taken {k : ℕ} {row : Row} {h' : History} (hflow : BranchFlow h n i b)
    (hstamps : h.accepted.Pairwise (fun a a' => a.stamp < a'.stamp)) (hrow : b.rows[k]? = some row)
    (hready : row.state = .ready) (holdest : ∀ r ∈ b.rows, r.state = .ready → row.order ≤ r.order)
    (hacc : h'.accepted = h.accepted) (htaken : h'.taken i = h.taken i ++ [⟨row.order, row.ref⟩])
    (hrepl : h'.replaced i = h.replaced i) (hdiscarded : h'.discarded i = h.discarded i) :
    BranchFlow h' n i (b.takeRow k) := by
  obtain ⟨queue, hqueue, hkept⟩ := hflow.kept
  have hrows : (b.takeRow k).rows = b.rows.set k { row with state := .taken } := by
    rw [takeRow, row_eq hrow]
  have hmoves : Moves row.waiting.toList none b (b.takeRow k) :=
    Moves.write hrow hrows rfl rfl
  have hwaiting : row.waiting = some ⟨row.order, row.ref⟩ := if_pos hready
  obtain ⟨rest, hbef, hafter⟩ := hmoves.waiting
  rw [hwaiting] at hbef
  have hmem : (⟨row.order, row.ref⟩ : Submitted) ∈ queue :=
    hqueue.mem_iff.mpr (hbef.mem_iff.mpr (by simp))
  have hsorted : queue.Pairwise (fun a a' => a.stamp < a'.stamp) :=
    hstamps.sublist (((sublist_append_right _ _).trans hkept.sublist).trans filter_sublist)
  obtain ⟨queue', rfl⟩ := Delivery.head_of_least hsorted hmem (fun a ha => by
    obtain ⟨r, hr, hstate, rfl⟩ := mem_waiting.mp (hqueue.mem_iff.mp ha)
    exact holdest r hr hstate)
  refine ⟨hflow.tallied.takeRow hrow hready, ⟨queue', ?_, ?_⟩, ?_⟩
  · exact ((hqueue.trans hbef).cons_inv).trans hafter.symm
  · rw [foSelected_of_moves hmoves, hacc, htaken, hrepl, hdiscarded]
    exact hkept.deliver
  · rw [hrepl]
    exact hflow.replaced

theorem Flow.taken (hflow : Flow h p.fanout) (branch : ℕ) :
    Flow (h.see p (take p branch).1 (.take branch) (.taken (take p branch).2))
      (take p branch).1.fanout := by
  rw [take]
  cases hb : p.fanout.branches[branch]? with
  | none => exact hflow
  | some b =>
    dsimp only
    cases hk : oldestReady b with
    | none => exact hflow
    | some k =>
      obtain ⟨row, hrow, hready, holdest⟩ := oldestReady_some hk
      have hstamp : stampOf p branch k = row.order := by
        rw [stampOf, hb]
        exact congrArg Row.order (row_eq hrow)
      refine hflow.setBranch rfl ?_ (fun j hj => ⟨Function.update_of_ne hj _ _, rfl, rfl⟩)
      refine (hflow.branches branch b hb).taken hflow.stamps hrow hready holdest rfl ?_ rfl rfl
      show Function.update h.taken branch _ branch = _
      rw [Function.update_self, hstamp, row_eq hrow]

theorem Flow.settled (hflow : Flow h p.fanout) (t : FoTicket) : Flow h (settle p t).1.fanout := by
  rw [settle]
  cases hlook : foLookup p.fanout t with
  | none => exact hflow
  | some found =>
    obtain ⟨b, row⟩ := found
    obtain ⟨hb, hrow, hstate⟩ := foLookup_some hlook
    dsimp only
    split_ifs with htaken
    · exact hflow
    · have hbranch := hflow.branches _ b hb
      have hsame : ∀ j, j ≠ t.branch → SameOn h h j := fun j _ => ⟨rfl, rfl, rfl⟩
      by_cases hrel : (foRelease p.store b t.slot).2.2 = .ok
      · rw [foRelease_ok hrel]
        refine hflow.setBranch rfl (hbranch.still ?_ ?_) hsame
        · have hwaiting : row.waiting = none := by
            rw [Row.waiting, not_not.mp htaken]
            rfl
          have hmoves := Moves.release hrow
          rw [hwaiting] at hmoves
          exact hmoves
        · exact hbranch.tallied.release hflow.order hrow hstate
      · rw [foRelease_failed hrel]
        exact hflow.setBranch rfl hbranch hsame

theorem discardRows_moves {s : Store} (ks : List ℕ) (hn : n ≤ max64)
    (htallied : Tallied n b) :
    Tallied n (discardRows ks s b).2.1 ∧ ∃ gone, Moves gone none b (discardRows ks s b).2.1 := by
  induction ks generalizing s b with
  | nil => exact ⟨htallied, [], Moves.of_core rfl⟩
  | cons k ks ih =>
    by_cases hready : (b.row k).state = .ready
    · by_cases hrel : (foRelease s b k).2.2 = .ok
      · have hused : (b.row k).state ≠ .free := by
          rw [hready]
          simp
        have hrow := getElem?_row hused
        obtain ⟨htallied', gone, hmoves⟩ := ih (s := (foRelease s b k).1)
          (htallied.release hn hrow hused)
        rw [discardRows_next hready hrel]
        exact ⟨htallied', _, (Moves.release hrow).trans hmoves⟩
      · rw [discardRows_fail hready hrel]
        exact ⟨htallied, [], Moves.of_core rfl⟩
    · rw [discardRows_keep hready]
      exact ih htallied

theorem Flow.discarded (hflow : Flow h p.fanout) (branch : ℕ) :
    Flow (h.see p (discardReady p branch).1 (.discardReady branch)
      (.status (discardReady p branch).2)) (discardReady p branch).1.fanout := by
  have hsee : h.see p (discardReady p branch).1 (.discardReady branch)
      (.status (discardReady p branch).2) = { h with
        discarded := fun i => h.discarded i ++
          lostOn p (discardReady p branch).1 i } := rfl
  rw [hsee, discardReady]
  cases hb : p.fanout.branches[branch]? with
  | none =>
    have hsame : (fun i => h.discarded i ++ lostOn p p i) = h.discarded := by
      funext i
      rw [lostOn_of_eq rfl, append_nil]
    rw [hsame]
    exact hflow
  | some b =>
    dsimp only
    generalize hr : discardRows (List.range b.rows.length) p.store b = r
    have hbranch := hflow.branches branch b hb
    obtain ⟨htallied, gone, hmoves⟩ := discardRows_moves (s := p.store)
      (List.range b.rows.length) hflow.order hbranch.tallied
    rw [hr] at htallied hmoves
    have hset : (Plant.setBranch { p with store := r.1 } branch r.2.1).fanout.branches[branch]? =
        some r.2.1 :=
      getElem?_set_self (List.getElem?_eq_some_iff.mp hb).1
    refine Flow.setBranch (p := { p with store := r.1 }) hflow rfl ?_ (fun j hj => ⟨rfl, rfl, ?_⟩)
    · refine hbranch.move hmoves htallied (by simp) (by simp) rfl (fun _ => ?_)
        (fun _ hpolicy => hbranch.replaced hpolicy)
      show (h.replaced branch ++ h.discarded branch ++ b.lostTo r.2.1).Perm
        (h.replaced branch ++ (h.discarded branch ++ lostOn p _ branch))
      rw [lostOn_eq hb hset, append_assoc]
    · have hother : (Plant.setBranch { p with store := r.1 } branch r.2.1).fanout.branches[j]? =
          p.fanout.branches[j]? :=
        getElem?_set_ne (Ne.symm hj)
      show h.discarded j ++ lostOn p _ j = h.discarded j
      rw [lostOn_of_eq hother, append_nil]

theorem Flow.step {r : Recorded} (hflow : Flow r.history r.plant.fanout) (op : PlantOp) :
    Flow (recordedMachine.next r op).history (recordedMachine.next r op).plant.fanout := by
  cases op with
  | submit ref =>
    show Flow (r.history.see r.plant (submit r.plant ref).1 (.submit ref)
      (.status (submit r.plant ref).2)) (submit r.plant ref).1.fanout
    by_cases hok : (submit r.plant ref).2 = .ok
    · rw [hok]
      exact hflow.submit_ok hok
    · exact hflow.submitFailed hok
  | take branch => exact hflow.taken branch
  | acquireLease ticket =>
    have hsame : (acquireLease r.plant ticket).1.fanout = r.plant.fanout := by
      rw [acquireLease]
      split
      · rfl
      · split_ifs <;> rfl
    show Flow r.history (acquireLease r.plant ticket).1.fanout
    rw [hsame]
    exact hflow
  | settle ticket => exact hflow.settled ticket
  | discardReady branch => exact hflow.discarded branch
  | sealOwner => exact ⟨hflow.stamps, hflow.below, hflow.frames, hflow.order, hflow.branches⟩
  | onStore op => exact hflow

end Steps

theorem branchCheck_depth {c : BranchConfig} {policy : Policy} (h : branchCheck c = .ok policy) :
    c.queueDepth ≤ maxQueueDepth := by
  rw [branchCheck] at h
  by_cases hver : c.version ≠ foAbi
  · rw [if_pos hver] at h
    cases h
  · rw [if_neg hver] at h
    by_cases hsize : c.size ≠ sizeofBranchConfig ∨ c.queueDepth = 0 ∨ c.queueDepth > maxQueueDepth
    · rw [if_pos hsize] at h
      cases h
    · simp only [not_or, not_lt, gt_iff_lt] at hsize
      exact hsize.2.2

theorem flow_create {cfg : FoConfig} {incarnation : ℕ} {o : Fanout}
    (hcreate : foCreate cfg incarnation = .ok o) : Flow freshHistory o := by
  obtain ⟨hnew, horder, _⟩ := foCreate_new hcreate
  constructor
  · exact List.Pairwise.nil
  · exact fun a ha => absurd ha not_mem_nil
  · exact fun a ha => absurd ha not_mem_nil
  · rw [horder]
    decide
  · intro i b hb
    obtain ⟨c, policy, hcheck, rfl⟩ := hnew b (mem_of_getElem? hb)
    have hnone : ∀ state, state ≠ RowState.free → (newBranch c policy).rows.countP
        (fun r => decide (r.state = state)) = 0 := by
      intro state hstate
      rw [countP_eq_zero]
      intro r hr
      rw [eq_of_mem_replicate hr, decide_eq_true_eq]
      exact hstate.symm
    have hwaiting : (newBranch c policy).waiting = [] := by
      rw [eq_nil_iff_forall_not_mem]
      intro a ha
      obtain ⟨r, hr, hstate, _⟩ := mem_waiting.mp ha
      rw [eq_of_mem_replicate hr] at hstate
      cases hstate
    refine ⟨⟨(hnone .ready (by simp)).symm, (hnone .taken (by simp)).symm, rfl, ?_, ?_⟩,
      ⟨[], ?_, Delivery.Kept.empty⟩, fun _ => rfl⟩
    · rw [horder]
      exact Nat.zero_lt_one
    · show (replicate c.queueDepth zeroRow).length ≤ maxQueueDepth
      rw [length_replicate]
      exact branchCheck_depth hcheck
    · rw [hwaiting]

/-- What a branch owes to those who submit: everything it selects is taken in the order
of submission, but for what was discarded and, where only the latest frames are kept,
replaced while it was ready, and what still waits. -/
structure Delivered (h : History) (i : ℕ) (b : Branch) : Prop where
  lossless : b.policy = .orderedLossless → ∃ queue, queue.Perm b.waiting ∧
    h.accepted.filter (fun a => decide (a ∉ h.discarded i)) = h.taken i ++ queue
  sample : b.policy = .sample → ∃ queue, queue.Perm b.waiting ∧
    h.accepted.filter (fun a => decide (a.ref.frameId ≡ 1 [MOD b.sampleEvery] ∧
      a ∉ h.discarded i)) = h.taken i ++ queue
  latest : b.policy = .latest → ∃ queue, queue.Perm b.waiting ∧
    h.accepted.filter (fun a => decide (a ∉ h.replaced i ++ h.discarded i)) = h.taken i ++ queue
  once : (h.taken i ++ b.waiting ++ (h.replaced i ++ h.discarded i)).Perm
    (h.accepted.filter (fun a => foSelected b a.ref))
  ready : b.stats.ready = b.rows.countP (fun r => decide (r.state = .ready))
  taken : b.stats.taken = b.rows.countP (fun r => decide (r.state = .taken))
  admitted : b.stats.admitted = b.stats.ready + b.stats.taken + b.stats.completed

theorem foSelected_sample {b : Branch} {ref : FrameRef} (hpolicy : b.policy = .sample)
    (hframe : ref.frameId ≠ 0) :
    foSelected b ref = decide (ref.frameId ≡ 1 [MOD b.sampleEvery]) := by
  have hone : 1 ≤ ref.frameId := Nat.one_le_iff_ne_zero.mpr hframe
  rw [foSelected, hpolicy]
  simp only [ne_eq, not_true_eq_false, decide_false, Bool.false_or, decide_eq_decide]
  rw [Nat.ModEq.comm, Nat.modEq_iff_dvd' hone]
  exact (Nat.dvd_iff_mod_eq_zero ..).symm

theorem foSelected_all {b : Branch} (hpolicy : b.policy ≠ .sample) (ref : FrameRef) :
    foSelected b ref = true := by
  rw [foSelected, decide_eq_true hpolicy, Bool.true_or]

theorem BranchFlow.delivered {h : History} {n i : ℕ} {b : Branch} (hflow : BranchFlow h n i b)
    (hfrs : ∀ a ∈ h.accepted, a.ref.frameId ≠ 0) : Delivered h i b := by
  obtain ⟨queue, hqueue, hkept⟩ := hflow.kept
  have horder := hkept.order
  rw [filter_filter] at horder
  constructor
  · intro hpolicy
    refine ⟨queue, hqueue, ?_⟩
    rw [hflow.replaced (by rw [hpolicy]; simp), nil_append] at horder
    rw [← horder]
    refine filter_congr (fun a _ => ?_)
    rw [foSelected_all (by rw [hpolicy]; simp), Bool.and_true]
  · intro hpolicy
    refine ⟨queue, hqueue, ?_⟩
    rw [hflow.replaced (by rw [hpolicy]; simp), nil_append] at horder
    rw [← horder]
    refine filter_congr (fun a ha => ?_)
    rw [foSelected_sample hpolicy (hfrs a ha), Bool.and_comm]
    exact Bool.decide_and _ _
  · intro hpolicy
    refine ⟨queue, hqueue, ?_⟩
    rw [← horder]
    refine filter_congr (fun a _ => ?_)
    rw [foSelected_all (by rw [hpolicy]; simp), Bool.and_true]
  · exact ((hqueue.symm.append_left _).append_right _).trans hkept.perm
  · exact hflow.tallied.ready
  · exact hflow.tallied.taken
  · exact hflow.tallied.admitted

def latestFoConfig : FoConfig where
  size := sizeofFoConfig
  version := foAbi
  branchCount := 1
  reserved := 0
  branches := fun _ => ⟨sizeofBranchConfig, foAbi, 3, 1, 0⟩

def latestOwner : Fanout where
  incarnation := 9
  nextOrder := 1
  branches := [⟨[zeroRow], .latest, 0, ⟨0, 0, 0, 0, 0, 0, 0⟩⟩]
  sealed := false

end TurboMedia.StreamGraph
