import TurboMedia.StreamGraph.Fanout

/-!
# The loops of a submission

What each of the four loops does to the lanes, whatever the store answers: only
counters of rejections change where a loop gives up, rows are chosen among the
free ones and, for the latest policy, the oldest ready one, and only rows that are
ready are given up for the new frame.
-/

namespace TurboMedia.StreamGraph

open List Lane Pass

theorem newBranches_new {cs : List BranchConfig} {bs : List Branch} (h : newBranches cs = .ok bs) :
    ∀ b ∈ bs, ∃ c policy, branchCheck c = .ok policy ∧ b = newBranch c policy := by
  induction cs generalizing bs with
  | nil =>
    cases h
    simp
  | cons c cs ih =>
    rw [newBranches] at h
    cases hcheck : branchCheck c with
    | error e =>
      rw [hcheck] at h
      cases h
    | ok policy =>
      rw [hcheck] at h
      cases hrest : newBranches cs with
      | error e =>
        rw [hrest] at h
        cases h
      | ok rest =>
        rw [hrest] at h
        cases h
        intro b hb
        rcases mem_cons.mp hb with rfl | hb
        · exact ⟨c, policy, hcheck, rfl⟩
        · exact ih hrest b hb

theorem foCreate_new {cfg : FoConfig} {incarnation : ℕ} {o : Fanout}
    (h : foCreate cfg incarnation = .ok o) :
    (∀ b ∈ o.branches, ∃ c policy, branchCheck c = .ok policy ∧ b = newBranch c policy) ∧
      o.nextOrder = 1 ∧ o.sealed = false := by
  rw [foCreate] at h
  cases hbranches : newBranches ((ofFn cfg.branches).take cfg.branchCount) with
  | error e =>
    rw [hbranches] at h
    split_ifs at h
  | ok branches =>
    rw [hbranches] at h
    split_ifs at h
    cases h
    exact ⟨newBranches_new hbranches, rfl, rfl⟩

theorem foCreate_free {cfg : FoConfig} {incarnation : ℕ} {o : Fanout} {b : Branch} {row : Row}
    (h : foCreate cfg incarnation = .ok o) (hb : b ∈ o.branches) (hrow : row ∈ b.rows) :
    row.state = .free := by
  obtain ⟨c, policy, _, rfl⟩ := (foCreate_new h).1 b hb
  rw [eq_of_mem_replicate hrow]
  rfl

section Choice

variable {b : Branch} {k : ℕ}

theorem Branch.row_eq {row : Row} (h : b.rows[k]? = some row) : b.row k = row := by
  rw [Branch.row, getD_eq_getElem?_getD, h]
  rfl

theorem Branch.getElem?_row (h : (b.row k).state ≠ .free) : b.rows[k]? = some (b.row k) := by
  rw [Branch.row, getD_eq_getElem?_getD] at h ⊢
  cases hrow : b.rows[k]? with
  | none =>
    rw [hrow] at h
    exact absurd rfl h
  | some row => rfl

/-- The row chosen for a frame is free, or the oldest ready row of a branch that
keeps the latest frames. -/
theorem foChooseRow_some (h : foChooseRow b = some k) :
    ∃ row, b.rows[k]? = some row ∧ (row.state = .free ∨ (b.policy = .latest ∧ row.state = .ready ∧
        ∀ r ∈ b.rows, r.state = .ready → row.order ≤ r.order)) := by
  rw [foChooseRow] at h
  split at h
  · next j hfree =>
      cases h
      obtain ⟨hlt, hp, _⟩ := findIdx?_eq_some_iff_getElem.mp hfree
      simp only [Bool.and_eq_true, decide_eq_true_eq] at hp
      exact ⟨b.rows[k], getElem?_eq_getElem hlt, .inl hp.1⟩
  · split_ifs at h with hpolicy
    obtain ⟨⟨i, order⟩, hmin, rfl⟩ := Option.map_eq_some_iff.mp h
    obtain ⟨row, hrow, hkey, hleast⟩ := Scan.firstMin_eq_some hmin
    split_ifs at hkey with hready
    cases hkey
    refine ⟨row, hrow, .inr ⟨not_not.mp hpolicy, hready.1, fun r hr hstate => ?_⟩⟩
    by_cases hlt : r.order < Words.max64
    · exact hleast r hr r.order (if_pos ⟨hstate, hlt⟩)
    · exact hready.2.le.trans (not_lt.mp hlt)

theorem oldestReady_some (h : oldestReady b = some k) :
    ∃ row, b.rows[k]? = some row ∧ row.state = .ready ∧
      ∀ r ∈ b.rows, r.state = .ready → row.order ≤ r.order := by
  rw [oldestReady] at h
  obtain ⟨⟨i, order⟩, hmin, rfl⟩ := Option.map_eq_some_iff.mp h
  obtain ⟨row, hrow, hkey, hleast⟩ := Scan.firstMin_eq_some hmin
  split_ifs at hkey with hready
  cases hkey
  exact ⟨row, hrow, hready, fun r hr hstate => hleast r hr r.order (if_pos hstate)⟩

theorem oldestReady_none (h : oldestReady b = none) : ∀ r ∈ b.rows, r.state ≠ .ready := by
  rw [oldestReady, Option.map_eq_none_iff] at h
  intro r hr hstate
  have hkey := Scan.firstMin_eq_none h r hr
  rw [if_pos hstate] at hkey
  cases hkey

theorem foLookup_some {o : Fanout} {t : FoTicket} {row : Row} (h : foLookup o t = some (b, row)) :
    o.branches[t.branch]? = some b ∧ b.rows[t.slot]? = some row ∧ row.state ≠ .free := by
  rw [foLookup] at h
  split_ifs at h
  cases hb : o.branches[t.branch]? with
  | none =>
    rw [hb] at h
    cases h
  | some b' =>
    rw [hb] at h
    dsimp only at h
    cases hrow : b'.rows[t.slot]? with
    | none =>
      rw [hrow] at h
      cases h
    | some row' =>
      rw [hrow] at h
      dsimp only at h
      split_ifs at h with hstate
      cases h
      exact ⟨rfl, hrow, hstate.1⟩

end Choice

variable {s : Store} {ref : FrameRef} {e : FsStatus}

theorem refIndex_ne_ok (h : refIndex s ref = .error e) :
    e ≠ .ok := by
  rw [refIndex] at h
  dsimp only at h
  split_ifs at h <;> cases h <;> simp

theorem readySlot_ne_ok (h : readySlot s ref = .error e) : e ≠ .ok := by
  rw [readySlot] at h
  split_ifs at h
  · cases h
    simp
  · split at h
    · next e' hidx =>
        cases h
        exact refIndex_ne_ok hidx
    · split_ifs at h
      cases h
      simp

theorem creditAlloc_ne_ok {rows : List (Option Credit)}
    (h : creditAlloc s rows = .error e) : e ≠ .ok := by
  rw [creditAlloc] at h
  split at h
  · cases h
    simp
  · split_ifs at h
    cases h
    simp

theorem reservePin_ne_ok (h : (reservePin s ref).2 = .error e) : e ≠ .ok := by
  rw [reservePin] at h
  cases hready : readySlot s ref with
  | error e' =>
    rw [hready] at h
    cases h
    exact readySlot_ne_ok hready
  | ok i =>
    rw [hready] at h
    dsimp only at h
    rw [takePin] at h
    cases halloc : creditAlloc s s.pins with
    | error e' =>
      rw [halloc] at h
      cases h
      exact creditAlloc_ne_ok halloc
    | ok found =>
      rw [halloc] at h
      cases h

section Lanes

/-- A branch up to its counter of rejections. -/
def Branch.core (b : Branch) : Branch :=
  { b with stats := { b.stats with rejected := 0 } }

/-- The lane of a branch after the first loop. -/
def laneOf (ref : FrameRef) (b : Branch) : Lane :=
  ⟨b, if foSelected b ref = true then foChooseRow b else none, zeroTicket⟩

variable {ref : FrameRef}

theorem preflight_ok {bs : List Branch} {lanes : List Lane} (h : preflight ref bs = .ok lanes) :
    lanes = bs.map (laneOf ref) ∧ ∀ b ∈ bs, foSelected b ref = true → foChooseRow b ≠ none := by
  induction bs generalizing lanes with
  | nil =>
    cases h
    exact ⟨rfl, by simp⟩
  | cons b bs ih =>
    rw [preflight] at h
    cases hrest : preflight ref bs with
    | error bs' =>
      rw [hrest] at h
      split_ifs at h
      split at h <;> cases h
    | ok rest =>
      obtain ⟨rfl, hall⟩ := ih hrest
      rw [hrest] at h
      split_ifs at h with hsel
      · cases h
        constructor
        · simp [laneOf, hsel]
        · intro b' hb'
          rcases mem_cons.mp hb' with rfl | hb'
          · simp [hsel]
          · exact hall b' hb'
      · split at h
        · cases h
        · next k hchoose =>
            cases h
            rw [Bool.not_eq_false] at hsel
            constructor
            · simp [laneOf, hsel, hchoose]
            · intro b' hb'
              rcases mem_cons.mp hb' with rfl | hb'
              · simp [hchoose]
              · exact hall b' hb'

theorem preflight_error {bs bs' : List Branch} (h : preflight ref bs = .error bs') :
    bs'.map Branch.core = bs.map Branch.core := by
  induction bs generalizing bs' with
  | nil => cases h
  | cons b bs ih =>
    rw [preflight] at h
    cases hrest : preflight ref bs with
    | error rest =>
      have hcore := ih hrest
      rw [hrest] at h
      split_ifs at h
      · cases h
        rw [map_cons, map_cons, hcore]
      · split at h
        · cases h
          rfl
        · cases h
          rw [map_cons, map_cons, hcore]
    | ok lanes =>
      rw [hrest] at h
      split_ifs at h
      split at h
      · cases h
        rfl
      · cases h

/-- What a lane keeps while its pin is reserved: its row and its branch, the latter
up to a rejection. -/
def Lane.seat (lane : Lane) : Branch × Option ℕ :=
  (lane.branch.core, lane.index)

variable {s s' : Store} {reserved k : ℕ} {lane : Lane} {lanes : List Lane}

theorem reserveAll_skip (hidx : lane.index = none) :
    reserveAll ref s reserved (lane :: lanes) =
      behind lane (reserveAll ref s reserved lanes) := by
  rw [reserveAll, hidx]

theorem reserveAll_fail {e : FsStatus} (hidx : lane.index = some k)
    (hrsv : (reservePin s ref).2 = .error e) :
    reserveAll ref s reserved (lane :: lanes) =
      ⟨(reservePin s ref).1, { lane with branch := lane.branch.reject } :: lanes, reserved,
        foFsStatus e⟩ := by
  rw [reserveAll, hidx]
  rw [← Prod.mk.eta (p := reservePin s ref), hrsv]

theorem reserveAll_next {pin : Ticket} (hidx : lane.index = some k)
    (hrsv : (reservePin s ref).2 = .ok pin) :
    reserveAll ref s reserved (lane :: lanes) = behind { lane with reservation := pin }
        (reserveAll ref (reservePin s ref).1 (reserved + 1) lanes) := by
  rw [reserveAll, hidx]
  rw [← Prod.mk.eta (p := reservePin s ref), hrsv]

theorem reserveAll_seats (s : Store) (reserved : ℕ) (lanes : List Lane) :
    (reserveAll ref s reserved lanes).lanes.map seat = lanes.map seat := by
  induction lanes generalizing s reserved with
  | nil => rfl
  | cons lane lanes ih =>
    cases hidx : lane.index with
    | none => rw [reserveAll_skip hidx, behind, map_cons, map_cons, ih]
    | some k =>
      cases hrsv : (reservePin s ref).2 with
      | error e =>
        rw [reserveAll_fail hidx hrsv]
        rfl
      | ok pin =>
        rw [reserveAll_next hidx hrsv, behind, map_cons, map_cons, ih]
        rfl

theorem foFsStatus_ne_ok {e : FsStatus} (h : e ≠ .ok) : foFsStatus e ≠ .ok := by
  cases e with
  | ok => exact absurd rfl h
  | _ => simp [foFsStatus]

def Lane.bare (lane : Lane) : Lane :=
  { lane with reservation := zeroTicket }

/-- Where all pins were reserved, the lanes have only got their reservations. -/
theorem reserveAll_bare (h : (reserveAll ref s reserved lanes).result = .ok) :
    (reserveAll ref s reserved lanes).lanes.map bare = lanes.map bare := by
  induction lanes generalizing s reserved with
  | nil => rfl
  | cons lane lanes ih =>
    cases hidx : lane.index with
    | none =>
      rw [reserveAll_skip hidx] at h ⊢
      rw [behind, map_cons, map_cons, ih h]
    | some k =>
      cases hrsv : (reservePin s ref).2 with
      | error e =>
        rw [reserveAll_fail hidx hrsv] at h
        exact absurd h (foFsStatus_ne_ok (reservePin_ne_ok hrsv))
      | ok pin =>
        rw [reserveAll_next hidx hrsv] at h ⊢
        rw [behind, map_cons, map_cons, ih h]
        rfl

/-- A lane whose row, if it was ready, has been given up. -/
def Lane.evict (lane : Lane) : Lane :=
  match lane.index with
  | none => lane
  | some k =>
    if (lane.branch.row k).state = .ready then
      { lane with branch := (lane.branch.release k).replaced }
    else lane

theorem foRelease_ok {b : Branch} (h : (foRelease s b k).2.2 = .ok) :
    (foRelease s b k).2.1 = b.release k := by
  rw [foRelease] at h ⊢
  split_ifs at h ⊢ with hpin
  · exact absurd h (foFsStatus_ne_ok hpin)
  · rfl

theorem foRelease_failed {b : Branch} (h : (foRelease s b k).2.2 ≠ .ok) :
    (foRelease s b k).2.1 = b := by
  rw [foRelease] at h ⊢
  split_ifs at h ⊢ with hpin
  · rfl
  · exact absurd rfl h

theorem Lane.row_cases (lane : Lane) :
    (lane.index = none ∨ ∃ k, lane.index = some k ∧ (lane.branch.row k).state ≠ .ready) ∨
      ∃ k, lane.index = some k ∧ (lane.branch.row k).state = .ready := by
  cases hidx : lane.index with
  | none => exact .inl (.inl rfl)
  | some k =>
    by_cases hstate : (lane.branch.row k).state = .ready
    · exact .inr ⟨k, rfl, hstate⟩
    · exact .inl (.inr ⟨k, rfl, hstate⟩)

theorem Lane.evict_eq_self
    (h : lane.index = none ∨ ∃ k, lane.index = some k ∧ (lane.branch.row k).state ≠ .ready) :
    lane.evict = lane := by
  rw [evict]
  rcases h with hidx | ⟨k, hidx, hstate⟩
  · rw [hidx]
  · rw [hidx]
    exact if_neg hstate

theorem evictAll_keep
    (h : lane.index = none ∨ ∃ k, lane.index = some k ∧ (lane.branch.row k).state ≠ .ready) :
    evictAll reserved s (lane :: lanes) = behind lane (evictAll reserved s lanes) := by
  rw [evictAll]
  rcases h with hidx | ⟨k, hidx, hstate⟩
  · rw [hidx]
  · rw [hidx]
    exact if_neg hstate

theorem evictAll_fail (hidx : lane.index = some k) (hstate : (lane.branch.row k).state = .ready)
    (hrel : (foRelease s lane.branch k).2.2 ≠ .ok) :
    evictAll reserved s (lane :: lanes) = ⟨(foRelease s lane.branch k).1, lane :: lanes, reserved,
        (foRelease s lane.branch k).2.2⟩ := by
  obtain ⟨b, index, pin⟩ := lane
  cases hidx
  rw [evictAll]
  dsimp only at hstate hrel ⊢
  rw [if_pos hstate, if_pos hrel, foRelease_failed hrel]

theorem Lane.evict_eq (hidx : lane.index = some k) (hstate : (lane.branch.row k).state = .ready) :
    lane.evict = { lane with branch := (lane.branch.release k).replaced } := by
  rw [evict, hidx]
  exact if_pos hstate

theorem evictAll_next (hidx : lane.index = some k) (hstate : (lane.branch.row k).state = .ready)
    (hrel : (foRelease s lane.branch k).2.2 = .ok) :
    evictAll reserved s (lane :: lanes) =
      behind lane.evict (evictAll reserved (foRelease s lane.branch k).1 lanes) := by
  rw [evict_eq hidx hstate]
  obtain ⟨b, index, pin⟩ := lane
  cases hidx
  rw [evictAll]
  dsimp only at hstate hrel ⊢
  rw [if_pos hstate, if_neg (not_not.mpr hrel), foRelease_ok hrel]

theorem evictAll_lanes (h : (evictAll reserved s lanes).result = .ok) :
    (evictAll reserved s lanes).lanes = lanes.map evict := by
  induction lanes generalizing s with
  | nil => rfl
  | cons lane lanes ih =>
    rcases lane.row_cases with hkeep | ⟨k, hidx, hstate⟩
    · rw [evictAll_keep hkeep] at h ⊢
      rw [behind, map_cons, ih h, evict_eq_self hkeep]
    · by_cases hrel : (foRelease s lane.branch k).2.2 = .ok
      · rw [evictAll_next hidx hstate hrel] at h ⊢
        rw [behind, map_cons, ih h]
      · rw [evictAll_fail hidx hstate hrel] at h
        exact absurd h hrel

theorem evictAll_lanes_or (reserved : ℕ) (s : Store) (lanes : List Lane) :
    List.Forall₂ (fun lane lane' => lane' = lane ∨ lane' = lane.evict) lanes
      (evictAll reserved s lanes).lanes := by
  induction lanes generalizing s with
  | nil => exact List.Forall₂.nil
  | cons lane lanes ih =>
    rcases lane.row_cases with hkeep | ⟨k, hidx, hstate⟩
    · rw [evictAll_keep hkeep]
      exact List.Forall₂.cons (.inl rfl) (ih s)
    · by_cases hrel : (foRelease s lane.branch k).2.2 = .ok
      · rw [evictAll_next hidx hstate hrel]
        exact List.Forall₂.cons (.inr rfl) (ih _)
      · rw [evictAll_fail hidx hstate hrel]
        exact List.Forall₂.cons (.inl rfl) (forall₂_same.mpr (fun _ _ => .inl rfl))

end Lanes

section Discard

variable {s : Store} {b : Branch} {k : ℕ} {ks : List ℕ}

theorem discardRows_keep (hstate : (b.row k).state ≠ .ready) :
    discardRows (k :: ks) s b = discardRows ks s b := by
  rw [discardRows, if_neg hstate]

theorem discardRows_next (hstate : (b.row k).state = .ready)
    (hrel : (foRelease s b k).2.2 = .ok) :
    discardRows (k :: ks) s b = discardRows ks (foRelease s b k).1 (b.release k) := by
  rw [discardRows, if_pos hstate]
  rw [if_neg (not_not.mpr hrel), foRelease_ok hrel]

theorem discardRows_fail (hstate : (b.row k).state = .ready)
    (hrel : (foRelease s b k).2.2 ≠ .ok) : (discardRows (k :: ks) s b).2.1 = b := by
  rw [discardRows, if_pos hstate]
  rw [if_pos hrel, foRelease_failed hrel]

end Discard

/-- The lanes that a submission has when its pins are reserved. -/
def reservedLanes (p : Plant) (ref : FrameRef) : Pass :=
  reserveAll ref p.store 0 (p.fanout.branches.map (laneOf ref))

/-- A submission that got past its checks and the first loop. -/
structure Admissible (p : Plant) (ref : FrameRef) : Prop where
  frame : ref.frameId ≠ 0
  version : ref.version = fsAbi
  size : ref.size = sizeofFrameRef
  opened : p.fanout.sealed = false
  order : p.fanout.nextOrder ≠ Words.max64
  chosen : ∀ b ∈ p.fanout.branches, foSelected b ref = true → foChooseRow b ≠ none

/-- What a submission does. -/
inductive Submission (p : Plant) (ref : FrameRef) : Plant × FoStatus → Prop
  | refused
      {e : FoStatus}
      (hstatus : e ≠ .ok) :
      Submission p ref (p, e)
  | full
      {branches : List Branch}
      (hcore : branches.map Branch.core = p.fanout.branches.map Branch.core) :
      Submission p ref ({ p with fanout := { p.fanout with branches := branches } }, .efull)
  | unreserved
      (hadmissible : Admissible p ref)
      (hresult : (reservedLanes p ref).result ≠ .ok) :
      Submission p ref (p.undo (reservedLanes p ref), (reservedLanes p ref).result)
  | reserved
      (hadmissible : Admissible p ref)
      (hresult : (reservedLanes p ref).result = .ok) :
      Submission p ref (submitReserved p ref (reservedLanes p ref))

theorem submit_submission (p : Plant) (ref : FrameRef) : Submission p ref (submit p ref) := by
  rw [submit]
  split_ifs with hinv hsealed horder
  · exact Submission.refused (by simp)
  · exact Submission.refused (by simp)
  · exact Submission.refused (by simp)
  · cases hpreflight : preflight ref p.fanout.branches with
    | error branches => exact Submission.full (preflight_error hpreflight)
    | ok lanes =>
      obtain ⟨rfl, hchosen⟩ := preflight_ok hpreflight
      simp only [not_or, not_not] at hinv
      obtain ⟨hframe, hsize, hver⟩ := hinv
      have hadmissible : Admissible p ref :=
        ⟨hframe, hver, hsize, by simpa using hsealed, horder, hchosen⟩
      dsimp only
      split_ifs with hresult
      · exact Submission.unreserved hadmissible hresult
      · exact Submission.reserved hadmissible (not_not.mp hresult)

/-- Up to rejections the branches are not touched while pins are reserved. -/
theorem reservedLanes_core (p : Plant) (ref : FrameRef) :
    (reservedLanes p ref).lanes.map (fun lane => lane.branch.core) =
      p.fanout.branches.map Branch.core := by
  have hseats : (reservedLanes p ref).lanes.map seat =
      (p.fanout.branches.map (laneOf ref)).map seat :=
    reserveAll_seats p.store 0 _
  have hcores := congrArg (List.map Prod.fst) hseats
  rw [map_map, map_map, map_map] at hcores
  exact hcores

/-- The lanes of a submission are those of the branches, with reservations. -/
theorem reservedLanes_bare {p : Plant} {ref : FrameRef} (h : (reservedLanes p ref).result = .ok) :
    (reservedLanes p ref).lanes.map bare = p.fanout.branches.map (laneOf ref) := by
  rw [reservedLanes, reserveAll_bare h, map_map]
  rfl

theorem reservedLanes_branches {p : Plant} {ref : FrameRef}
    (h : (reservedLanes p ref).result = .ok) :
    (reservedLanes p ref).lanes.map branch = p.fanout.branches := by
  have hbare := congrArg (List.map branch) (reservedLanes_bare h)
  rw [map_map, map_map] at hbare
  exact hbare.trans (map_id p.fanout.branches)

theorem reservedLanes_lane {p : Plant} {ref : FrameRef} {lane : Lane}
    (h : (reservedLanes p ref).result = .ok) (hlane : lane ∈ (reservedLanes p ref).lanes) :
    lane.branch ∈ p.fanout.branches ∧
      lane.index = if foSelected lane.branch ref = true then foChooseRow lane.branch else none := by
  have hbare := mem_map_of_mem (f := bare) hlane
  rw [reservedLanes_bare h] at hbare
  obtain ⟨b, hb, heq⟩ := mem_map.mp hbare
  have hbranch : b = lane.branch := congrArg branch heq
  have hidx := congrArg index heq
  subst hbranch
  exact ⟨hb, hidx.symm⟩

variable {lane : Lane} {k : ℕ}

theorem Lane.evict_vacant (hidx : lane.index = some k)
    (hchoose : foChooseRow lane.branch = some k) :
    ∃ row, lane.evict.branch.rows[k]? = some row ∧ row.state = .free ∧
      row.generation = (lane.branch.row k).generation ∧
      ∀ row', lane.evict.branch.rows.set k row' = lane.branch.rows.set k row' := by
  obtain ⟨row, hrow, hchosen⟩ := foChooseRow_some hchoose
  have hget := Branch.row_eq hrow
  rcases hchosen with hfree | ⟨_, hready, _⟩
  · have hself : lane.evict = lane := by
      refine evict_eq_self (.inr ⟨k, hidx, ?_⟩)
      rw [hget, hfree]
      simp
    rw [hself, hget]
    exact ⟨row, hrow, hfree, rfl, fun _ => rfl⟩
  · rw [← hget] at hready
    rw [evict_eq hidx hready]
    have hlt : k < lane.branch.rows.length := (List.getElem?_eq_some_iff.mp hrow).1
    refine ⟨(lane.branch.row k).clear, ?_, rfl, rfl, fun row' => ?_⟩
    · exact getElem?_set_self hlt
    · exact set_set _

theorem Lane.evict_index (lane : Lane) :
    lane.evict.index = lane.index ∧ lane.evict.reservation = lane.reservation := by
  rcases lane.row_cases with hkeep | ⟨k, hidx, hstate⟩
  · rw [evict_eq_self hkeep]
    exact ⟨rfl, rfl⟩
  · rw [evict_eq hidx hstate]
    exact ⟨rfl, rfl⟩

theorem commit_evict_rows (hidx : lane.index = some k)
    (hchoose : foChooseRow lane.branch = some k) (ref : FrameRef) (order : ℕ) :
    (lane.evict.commit ref order).rows =
      lane.branch.rows.set k ((lane.branch.row k).fill ref lane.reservation order) := by
  obtain ⟨row, hrow, _, hgen, hset⟩ := evict_vacant hidx hchoose
  rw [commit, (lane.evict_index).1, hidx, (lane.evict_index).2]
  dsimp only
  rw [hset, Branch.row_eq hrow, Row.fill, Row.fill, hgen]

theorem commit_evict_rows_none (hidx : lane.index = none) (ref : FrameRef) (order : ℕ) :
    (lane.evict.commit ref order).rows = lane.branch.rows := by
  rw [evict_eq_self (.inl hidx), commit, hidx]

end TurboMedia.StreamGraph
