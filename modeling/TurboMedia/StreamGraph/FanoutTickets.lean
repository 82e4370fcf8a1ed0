import TurboMedia.Lib.Tickets
import TurboMedia.StreamGraph.ExecutorOverrun
import TurboMedia.StreamGraph.FanoutAtomic

/-!
# The tickets of the fan-out

A ticket that was taken is good until it is settled, and never after, as long as no
ready row with the last generation is replaced (`SparesLast`).

**Method.**  Outside of `take` and `settle` a row stays, is freed, or is filled under
the next generation, the last two only while nobody holds it (`Row.Quiet`).  With the
tickets that were taken and settled beside the plant, a taken row is the one of the
open ticket with its generation (`Ticketed`).
-/

namespace TurboMedia.StreamGraph

open List Plant Branch Words

section Rows

def Plant.rowAt (p : Plant) (i k : ℕ) : Option Row :=
  (p.fanout.branches[i]?).bind (fun b => b.rows[k]?)

/-- What can happen to a row that is neither taken nor settled. -/
inductive Row.Quiet (row row' : Row) : Prop where
  | same (hstate : row'.state = row.state) (hgeneration : row'.generation = row.generation)
  | freed (hfree : row.state ≠ .taken) (hstate : row'.state = .free)
      (hgeneration : row'.generation = row.generation)
  | filled (hfree : row.state ≠ .taken) (hlast : row.generation ≠ max32)
      (hstate : row'.state = .ready) (hgeneration : row'.generation = succ32 row.generation)

theorem Row.Quiet.refl (row : Row) : row.Quiet row :=
  .same rfl rfl

variable {p : Plant} {b b' : Branch} {i j k n : ℕ} {row row' : Row}

theorem rowAt_eq_some :
    p.rowAt i k = some row ↔ ∃ b, p.fanout.branches[i]? = some b ∧ b.rows[k]? = some row :=
  Option.bind_eq_some_iff

theorem rowAt_setBranch (hb : p.fanout.branches[i]? = some b) (j n : ℕ) :
    (p.setBranch i b').rowAt j n = if j = i then b'.rows[n]? else p.rowAt j n := by
  rw [rowAt, setBranch]
  split
  next heq =>
    rw [heq, getElem?_set_self (List.getElem?_eq_some_iff.mp hb).1]
    rfl
  next hne =>
    rw [getElem?_set_ne (Ne.symm hne)]
    rfl

/-- One row of a branch is written. -/
theorem rowAt_write (hb : p.fanout.branches[i]? = some b) (hrow : b.rows[k]? = some row)
    (hset : b'.rows = b.rows.set k row') (j n : ℕ) :
    (p.setBranch i b').rowAt j n = if j = i ∧ n = k then some row' else p.rowAt j n := by
  rw [rowAt_setBranch hb, hset]
  by_cases hj : j = i
  · subst hj
    by_cases hn : n = k
    · subst hn
      rw [if_pos rfl, if_pos ⟨rfl, rfl⟩]
      exact getElem?_set_self (List.getElem?_eq_some_iff.mp hrow).1
    · rw [if_pos rfl, if_neg (fun h => hn h.2), getElem?_set_ne (Ne.symm hn), rowAt, hb]
      rfl
  · rw [if_neg hj, if_neg (fun h => hj h.1)]

/-- The rows of a branch, before and after. -/
def Branch.Quiet (b b' : Branch) : Prop :=
  ∀ k : ℕ, Option.Rel Row.Quiet b.rows[k]? b'.rows[k]?

theorem relQuiet_refl (o : Option Row) : Option.Rel Row.Quiet o o := by
  cases o with
  | none => exact .none
  | some row => exact .some (.refl row)

theorem Branch.Quiet.of_rows (h : b'.rows = b.rows) : b.Quiet b' := by
  intro k
  rw [h]
  exact relQuiet_refl _

theorem Branch.Quiet.write (hrow : b.rows[k]? = some row) (hset : b'.rows = b.rows.set k row')
    (hquiet : row.Quiet row') : b.Quiet b' := by
  intro n
  rw [hset]
  by_cases hn : n = k
  · subst hn
    rw [hrow, getElem?_set_self (List.getElem?_eq_some_iff.mp hrow).1]
    exact .some hquiet
  · rw [getElem?_set_ne (Ne.symm hn)]
    exact relQuiet_refl _

/-- The plant after calls that neither take nor settle. -/
structure Plant.Quiet (p p' : Plant) : Prop where
  incarnation : p'.fanout.incarnation = p.fanout.incarnation
  rows : ∀ i k, Option.Rel Row.Quiet (p.rowAt i k) (p'.rowAt i k)

theorem Plant.Quiet.of_branches {p' : Plant} (hname : p'.fanout.incarnation = p.fanout.incarnation)
    (hlen : p'.fanout.branches.length = p.fanout.branches.length)
    (h : ∀ (i : ℕ) (b' : Branch), p'.fanout.branches[i]? = some b' →
      ∃ b, p.fanout.branches[i]? = some b ∧ b.Quiet b') : p.Quiet p' := by
  refine ⟨hname, fun i k => ?_⟩
  rw [rowAt, rowAt]
  by_cases hlt : i < p'.fanout.branches.length
  · obtain ⟨b, hb, hquiet⟩ := h i _ (getElem?_eq_getElem hlt)
    rw [hb, getElem?_eq_getElem hlt]
    exact hquiet k
  · rw [getElem?_eq_none (not_lt.mp hlt), getElem?_eq_none (by omega)]
    exact .none

end Rows

section Submission

variable {p : Plant} {ref : FrameRef} {others leases : List (ℕ × FrameRef)}

/-- A submission that is admitted replaces no ready row with the last generation. -/
def SparesLast (p : Plant) : PlantOp → Prop
  | .submit ref => (submit p ref).2 = .ok → ∀ b ∈ p.fanout.branches, foSelected b ref = true →
      ∀ k, foChooseRow b = some k → (b.row k).state = .ready → (b.row k).generation ≠ max32
  | _ => True

theorem submit_incarnation (p : Plant) (ref : FrameRef) :
    (submit p ref).1.fanout.incarnation = p.fanout.incarnation := by
  have hview := submit_submission p ref
  generalize submit p ref = r at hview ⊢
  cases hview with
  | reserved hadm hres =>
    rw [submitReserved]
    split <;> rfl
  | _ => rfl

theorem submit_length (h : Backed p others leases) (ref : FrameRef) :
    (submit p ref).1.fanout.branches.length = p.fanout.branches.length := by
  by_cases hok : (submit p ref).2 = .ok
  · have hview := submit_submission p ref
    generalize submit p ref = r at hview hok ⊢
    cases hview with
    | refused hstat | unreserved hadm hstat => exact absurd hok hstat
    | full hcore => cases hok
    | reserved hadm hres =>
      have hbranches := congrArg List.length (reservedLanes_branches hres)
      have hevicted := (evictAll_lanes_or (reservedLanes p ref).reserved
        (reservedLanes p ref).store (reservedLanes p ref).lanes).length_eq
      rw [length_map] at hbranches
      rw [submitReserved]
      split
      · exact (length_map _).trans (hevicted.symm.trans hbranches)
      · exact (length_map _).trans (hevicted.symm.trans hbranches)
  · have hlen := congrArg List.length (submit_core h hok)
    rwa [length_map, length_map] at hlen

theorem chosen_spare {b : Branch} {k : ℕ} (h : foChooseRow b = some k)
    (hfree : (b.row k).state = .free) : (b.row k).generation ≠ max32 := by
  rw [foChooseRow] at h
  split at h
  next j hfound =>
    cases h
    obtain ⟨hlt, hp, -⟩ := findIdx?_eq_some_iff_getElem.mp hfound
    rw [row_eq (getElem?_eq_getElem hlt)]
    simp only [Bool.and_eq_true, decide_eq_true_eq] at hp
    exact hp.2
  next =>
    split_ifs at h
    obtain ⟨⟨i, order⟩, hmin, rfl⟩ := Option.map_eq_some_iff.mp h
    obtain ⟨row, hrow, hkey, -⟩ := Scan.firstMin_eq_some hmin
    split_ifs at hkey with hready
    rw [row_eq hrow, hready.1] at hfree
    cases hfree

theorem Backed.submit_quiet (h : Backed p others leases) (hspares : SparesLast p (.submit ref)) :
    p.Quiet (StreamGraph.submit p ref).1 := by
  refine .of_branches (submit_incarnation p ref) (submit_length h ref) (fun i b' hb' => ?_)
  by_cases hok : (StreamGraph.submit p ref).2 = .ok
  · obtain ⟨hadm, -, hlanes⟩ := submit_accepted hok
    obtain ⟨lane, hb, hidx, rfl⟩ := hlanes i b' hb'
    have hmem := mem_of_getElem? hb
    refine ⟨lane.branch, hb, ?_⟩
    by_cases hsel : foSelected lane.branch ref = true
    · rw [if_pos hsel] at hidx
      cases hchoose : foChooseRow lane.branch with
      | none => exact absurd hchoose (hadm.chosen _ hmem hsel)
      | some k =>
        rw [hchoose] at hidx
        obtain ⟨old, hold, hstate⟩ := foChooseRow_some hchoose
        have hrow := row_eq hold
        refine .write hold (commit_evict_rows hidx hchoose ref _) (.filled ?_ ?_ rfl ?_)
        · rcases hstate with hfree | ⟨-, hready, -⟩ <;> simp [*]
        · rw [← hrow]
          rcases hstate with hfree | ⟨-, hready, -⟩
          · exact chosen_spare hchoose (hrow ▸ hfree)
          · exact hspares hok _ hmem hsel k hchoose (hrow ▸ hready)
        · rw [hrow]
          rfl
    · rw [if_neg hsel] at hidx
      exact .of_rows (commit_evict_rows_none hidx ref _)
  · obtain ⟨b, hb, hcore⟩ := core_of_map (submit_core h hok) hb'
    have hrows : b'.core.rows = b.core.rows := congrArg rows hcore
    exact ⟨b, hb, .of_rows hrows⟩

/-- A row that was freed first. -/
theorem Row.Quiet.of_freed {row row₁ row₂ : Row} (hfree : row.state ≠ .taken)
    (hstate : row₁.state = .free) (hgeneration : row₁.generation = row.generation)
    (h : row₁.Quiet row₂) : row.Quiet row₂ := by
  cases h with
  | same hs hg => exact .freed hfree (hs.trans hstate) (hg.trans hgeneration)
  | freed _ hs hg => exact .freed hfree hs (hg.trans hgeneration)
  | filled _ hlast hs hg =>
    rw [hgeneration] at hlast hg
    exact .filled hfree hlast hs hg

theorem discardRows_quiet (ks : List ℕ) (s : Store) (b : Branch) :
    b.Quiet (discardRows ks s b).2.1 := by
  induction ks generalizing s b with
  | nil => exact .of_rows rfl
  | cons k ks ih =>
    by_cases hready : (b.row k).state = .ready
    · by_cases hrelease : (foRelease s b k).2.2 = .ok
      · rw [discardRows_next hready hrelease]
        have hrow := getElem?_row (b := b) (k := k) (by simp [hready])
        intro n
        have hn := ih (foRelease s b k).1 (b.release k) n
        by_cases heq : n = k
        · subst heq
          have hset : (b.release n).rows[n]? = some (b.row n).clear :=
            getElem?_set_self (List.getElem?_eq_some_iff.mp hrow).1
          rw [hset] at hn
          rw [hrow]
          generalize (discardRows ks (foRelease s b n).1 _).2.1.rows[n]? = last at hn ⊢
          cases hn with
          | some hquiet =>
            have hfree : (b.row n).state ≠ .taken := by
              rw [hready]
              simp
            exact .some (@Row.Quiet.of_freed _ (b.row n).clear _ hfree rfl rfl hquiet)
        · rw [Branch.release, getElem?_set_ne (Ne.symm heq)] at hn
          exact hn
      · rw [discardRows_fail hready hrelease]
        exact .of_rows rfl
    · rw [discardRows_keep hready]
      exact ih s b

theorem discardReady_quiet (p : Plant) (branch : ℕ) : p.Quiet (discardReady p branch).1 := by
  rw [discardReady]
  cases hb : p.fanout.branches[branch]? with
  | none => exact ⟨rfl, fun i k => relQuiet_refl _⟩
  | some b =>
    refine ⟨rfl, fun i k => ?_⟩
    change Option.Rel Row.Quiet _ ((p.setBranch branch
      (discardRows (List.range b.rows.length) p.store b).2.1).rowAt i k)
    rw [rowAt_setBranch hb]
    split
    next heq =>
      subst heq
      rw [rowAt, hb]
      exact discardRows_quiet _ _ b k
    next => exact relQuiet_refl _

end Submission

section Tickets

/-- The tickets that were taken and those that were settled, beside the plant. -/
structure Ticketing where
  plant : Plant
  takes : List FoTicket
  settled : List FoTicket

def Ticketing.see (w : Ticketing) (plant : Plant) : PlantOp → PlantAnswer → Ticketing
  | .take _, .taken (.ok (ticket, _)) => ⟨plant, w.takes ++ [ticket], w.settled⟩
  | .settle ticket, .status .ok => ⟨plant, w.takes, w.settled ++ [ticket]⟩
  | _, _ => ⟨plant, w.takes, w.settled⟩

def ticketMachine : Machine Ticketing PlantOp PlantAnswer where
  step := fun w op =>
    let next := plantStep w.plant op
    (w.see next.1 op next.2, next.2)

/-- The open tickets are good, and the settled ones are refused.  Only the store may
refuse a lease, for want of credits. -/
structure Ticketing.Resolves (w : Ticketing) : Prop where
  nodup : w.takes.Nodup
  generation : ∀ i k row, w.plant.rowAt i k = some row → row.state ≠ .free → row.generation ≠ 0
  opened : ∀ t ∈ w.takes, t ∉ w.settled →
    (settle w.plant t).2 = .ok ∧
      ∀ e, (acquireLease w.plant t).2 = .error e → e = .efull ∨ e = .eexhausted
  closed : ∀ t ∈ w.settled, (settle w.plant t).2 = .estale ∧
    (acquireLease w.plant t).2 = .error .estale

/-- The rows of a plant and the tickets. -/
structure Ticketed (p : Plant) (takes settled : List FoTicket) : Prop where
  nodup : takes.Nodup
  known : ∀ t ∈ settled, t ∈ takes
  home : ∀ t ∈ takes, t.incarnation = p.fanout.incarnation ∧
    ∃ row, p.rowAt t.branch t.slot = some row ∧ t.slotGeneration ≤ row.generation ∧
      (row.state = .ready → t.slotGeneration < row.generation) ∧
      (t ∉ settled → row.state = .taken ∧ row.generation = t.slotGeneration)
  used : ∀ i k row, p.rowAt i k = some row → row.generation ≤ max32 ∧
    (row.state ≠ .free → row.generation ≠ 0) ∧
    (row.state = .taken → ⟨p.fanout.incarnation, i, k, row.generation⟩ ∈ takes ∧
      ⟨p.fanout.incarnation, i, k, row.generation⟩ ∉ settled)

variable {p p' : Plant} {takes settled : List FoTicket} {others leases : List (ℕ × FrameRef)}

theorem Ticketed.quiet (h : Ticketed p takes settled) (hquiet : p.Quiet p') :
    Ticketed p' takes settled := by
  refine ⟨h.nodup, h.known, fun t ht => ?_, fun i k row' hrow' => ?_⟩
  · obtain ⟨hname, row, hrow, hle, hready, hopen⟩ := h.home t ht
    refine ⟨hname.trans hquiet.incarnation.symm, ?_⟩
    have hbound := (h.used _ _ row hrow).1
    have hrel := hquiet.rows t.branch t.slot
    rw [hrow] at hrel
    generalize p'.rowAt t.branch t.slot = after at hrel
    cases hrel with
    | some hmove =>
      refine ⟨_, rfl, ?_⟩
      cases hmove with
      | same hs hg =>
        rw [hs, hg]
        exact ⟨hle, hready, hopen⟩
      | freed hfree hs hg =>
        rw [hs, hg]
        exact ⟨hle, nofun, fun hnot => absurd (hopen hnot).1 hfree⟩
      | filled hfree hlast hs hg =>
        rw [hs, hg, succ32_eq (by omega)]
        exact ⟨by omega, fun _ => by omega, fun hnot => absurd (hopen hnot).1 hfree⟩
  · have hrel := hquiet.rows i k
    rw [hrow'] at hrel
    generalize hbef : p.rowAt i k = before at hrel
    cases hrel with
    | some hmove =>
      obtain ⟨hbound, hzero, htaken⟩ := h.used i k _ hbef
      rw [hquiet.incarnation]
      cases hmove with
      | same hs hg =>
        rw [hs, hg]
        exact ⟨hbound, hzero, htaken⟩
      | freed hfree hs hg =>
        rw [hs, hg]
        exact ⟨hbound, fun hne => absurd rfl hne, nofun⟩
      | filled hfree hlast hs hg =>
        rw [hs, hg, succ32_eq (by omega)]
        exact ⟨by omega, fun _ => by omega, nofun⟩

variable {i k : ℕ} {b : Branch} {row : Row} {t : FoTicket}

theorem Ticketed.take (h : Ticketed p takes settled) (hb : p.fanout.branches[i]? = some b)
    (hk : oldestReady b = some k) :
    Ticketed (p.setBranch i (b.takeRow k)) (takes ++ [p.ticketFor i k b]) settled := by
  obtain ⟨row, hrow, hready, -⟩ := oldestReady_some hk
  have hold : p.rowAt i k = some row := rowAt_eq_some.mpr ⟨b, hb, hrow⟩
  have hat := @rowAt_write _ _ (b.takeRow k) _ _ _ _ hb hrow rfl
  rw [ticketFor, row_eq hrow]
  rw [row_eq hrow] at hat
  have hfresh : ⟨p.fanout.incarnation, i, k, row.generation⟩ ∉ takes := by
    intro hmem
    obtain ⟨-, row', hrow', -, hlt, -⟩ := h.home _ hmem
    cases hold.symm.trans hrow'
    exact lt_irrefl _ (hlt hready)
  obtain ⟨hbound, hzero, -⟩ := h.used i k row hold
  refine ⟨Tickets.nodup_append_singleton h.nodup hfresh,
    fun t ht => mem_append_left _ (h.known t ht), fun t ht => ?_, fun j n row' hrow' => ?_⟩
  · rcases mem_append.mp ht with ht | ht
    · obtain ⟨hname, row', hrow', hle, hlt, hopen⟩ := h.home t ht
      refine ⟨hname, ?_⟩
      rw [hat]
      split
      next hplace =>
        rw [hplace.1, hplace.2] at hrow'
        cases hold.symm.trans hrow'
        refine ⟨_, rfl, hle, by rintro ⟨⟩, fun hnot => ?_⟩
        rw [hready] at hopen
        exact absurd (hopen hnot).1 (by simp)
      next => exact ⟨row', hrow', hle, hlt, hopen⟩
    · cases mem_singleton.mp ht
      refine ⟨rfl, ?_⟩
      rw [hat, if_pos ⟨rfl, rfl⟩]
      exact ⟨_, rfl, le_rfl, by rintro ⟨⟩, fun _ => ⟨rfl, rfl⟩⟩
  · rw [hat] at hrow'
    split at hrow'
    next hplace =>
      obtain ⟨rfl, rfl⟩ := hplace
      cases hrow'
      refine ⟨hbound, fun _ => hzero (by rw [hready]; simp), fun _ => ⟨?_, ?_⟩⟩
      · exact mem_append_right _ (mem_singleton_self _)
      · exact fun hmem => hfresh (h.known _ hmem)
    next =>
      obtain ⟨hbound', hzero', htaken⟩ := h.used j n row' hrow'
      exact ⟨hbound', hzero', fun hs => ⟨mem_append_left _ (htaken hs).1, (htaken hs).2⟩⟩

theorem foLookup_iff {o : Fanout} :
    foLookup o t = some (b, row) ↔ t.incarnation = o.incarnation ∧ t.slotGeneration ≠ 0 ∧
      o.branches[t.branch]? = some b ∧ b.rows[t.slot]? = some row ∧ row.state ≠ .free ∧
        row.generation = t.slotGeneration := by
  rw [foLookup]
  split_ifs with hname
  · simp only [false_iff]
    exact fun h => hname.elim (fun hne => hne h.1) h.2.1
  · rw [not_or, not_not] at hname
    cases hb : o.branches[t.branch]? with
    | none => simp
    | some b' =>
      cases hrow : b'.rows[t.slot]? with
      | none =>
        simp only [hrow, reduceCtorEq, false_iff]
        rintro ⟨-, -, h, h', -⟩
        cases h
        rw [hrow] at h'
        cases h'
      | some row' =>
        simp only [hrow]
        split_ifs with hstate
        · constructor
          · rintro ⟨⟩
            exact ⟨hname.1, hname.2, rfl, hrow, hstate⟩
          · rintro ⟨-, -, h, h', -⟩
            cases h
            rw [hrow] at h'
            cases h'
            rfl
        · simp only [false_iff]
          rintro ⟨-, -, h, h', h''⟩
          cases h
          rw [hrow] at h'
          cases h'
          exact hstate h''

theorem Ticketed.settle {s : Store} (h : Ticketed p takes settled)
    (hlook : foLookup p.fanout t = some (b, row)) (hstate : row.state = .taken) :
    Ticketed (setBranch { p with store := s } t.branch (b.release t.slot)) takes
      (settled ++ [t]) := by
  obtain ⟨hname, -, hb, hrow, -, hgeneration⟩ := foLookup_iff.mp hlook
  have hold : p.rowAt t.branch t.slot = some row := rowAt_eq_some.mpr ⟨b, hb, hrow⟩
  have hat := @rowAt_write _ _ (b.release t.slot) _ _ _ _ hb hrow rfl
  rw [row_eq hrow] at hat
  obtain ⟨hbound, -, hcur⟩ := h.used _ _ row hold
  obtain ⟨hmem, hnot⟩ := hcur hstate
  have hself : (⟨p.fanout.incarnation, t.branch, t.slot, row.generation⟩ : FoTicket) = t := by
    rw [hgeneration, ← hname]
  rw [hself] at hmem hnot
  refine ⟨h.nodup, fun t' ht' => ?_, fun t' ht' => ?_, fun j n row' hrow' => ?_⟩
  · rcases mem_append.mp ht' with ht' | ht'
    · exact h.known t' ht'
    · exact mem_singleton.mp ht' ▸ hmem
  · obtain ⟨hname', row', hrow', hle, hlt, hopen⟩ := h.home t' ht'
    refine ⟨hname', ?_⟩
    change ∃ row'', (p.setBranch t.branch (b.release t.slot)).rowAt _ _ = some row'' ∧ _
    rw [hat]
    split
    next hplace =>
      rw [hplace.1, hplace.2] at hrow'
      cases hold.symm.trans hrow'
      refine ⟨_, rfl, hle, nofun, fun hopened => ?_⟩
      rw [mem_append, not_or] at hopened
      refine absurd ?_ hopened.2
      obtain ⟨-, hsame⟩ := hopen hopened.1
      rw [mem_singleton, ← hself, hsame, ← hplace.1, ← hplace.2, ← hname']
    next =>
      exact ⟨row', hrow', hle, hlt, fun hopened =>
        hopen (fun hmem' => hopened (mem_append_left _ hmem'))⟩
  · change (p.setBranch t.branch (b.release t.slot)).rowAt j n = some row' at hrow'
    rw [hat] at hrow'
    split at hrow'
    next hplace =>
      cases hrow'
      exact ⟨hbound, fun hne => absurd rfl hne, nofun⟩
    next hplace =>
      obtain ⟨hbound', hzero', htaken⟩ := h.used j n row' hrow'
      refine ⟨hbound', hzero', fun hs => ⟨(htaken hs).1, fun hmem' => ?_⟩⟩
      rcases mem_append.mp hmem' with hmem' | hmem'
      · exact (htaken hs).2 hmem'
      · rw [mem_singleton] at hmem'
        exact hplace ⟨congrArg FoTicket.branch hmem', congrArg FoTicket.slot hmem'⟩

theorem Ticketed.resolves (h : Ticketed p takes settled) (hbacked : Backed p others leases) :
    Ticketing.Resolves ⟨p, takes, settled⟩ := by
  refine ⟨h.nodup, fun i k row hrow => (h.used i k row hrow).2.1, fun t ht hnot => ?_,
    fun t ht => ?_⟩
  · obtain ⟨hname, row, hrow, -, -, hopen⟩ := h.home t ht
    obtain ⟨hstate, hgeneration⟩ := hopen hnot
    have hused : row.state ≠ .free := by simp [hstate]
    obtain ⟨b, hb, hget⟩ := rowAt_eq_some.mp hrow
    have hlook : foLookup p.fanout t = some (b, row) := foLookup_iff.mpr
      ⟨hname, hgeneration ▸ (h.used _ _ row hrow).2.1 hused, hb, hget, hused, hgeneration⟩
    obtain ⟨rest, hout, hnames, -⟩ := hbacked.branch hb
    constructor
    · obtain ⟨hrelease, -⟩ := foRelease_backed hout hnames hget hused
      rw [StreamGraph.settle, hlook]
      dsimp only
      rw [if_neg (not_not.mpr hstate), hrelease]
    · have hpin := hnames row (mem_of_getElem? hget) hused
      obtain ⟨n, c, hcredit, -⟩ := hout.lookup_pin
        (mem_append_left rest (mem_credits.mpr ⟨row, mem_of_getElem? hget, hused, rfl⟩))
      rw [← hpin] at hcredit
      rw [acquireLease, hlook]
      dsimp only
      rw [if_neg (not_not.mpr hstate), acquirePinned, hcredit]
      dsimp only
      rw [acquireSlot, creditAlloc]
      intro e he
      split at he
      next e' halloc =>
        cases he
        split at halloc
        · cases halloc
          exact .inl rfl
        · split_ifs at halloc
          cases halloc
          exact .inr rfl
      next => cases he
  · have hlook : foLookup p.fanout t = none := by
      rw [Option.eq_none_iff_forall_not_mem]
      rintro ⟨b, row⟩ hmem
      obtain ⟨hname, -, hb, hget, hused, hgeneration⟩ := foLookup_iff.mp hmem
      obtain ⟨-, row', hrow', -, hlt, -⟩ := h.home t (h.known t ht)
      have hrow : p.rowAt t.branch t.slot = some row := rowAt_eq_some.mpr ⟨b, hb, hget⟩
      cases hrow.symm.trans hrow'
      cases hstate : row.state with
      | free => exact hused hstate
      | ready => exact absurd (hlt hstate) (by omega)
      | taken =>
        refine (((h.used _ _ row hrow).2.2 hstate).2) ?_
        rw [hgeneration, ← hname]
        exact ht
    rw [StreamGraph.settle, acquireLease, hlook]
    exact ⟨rfl, rfl⟩

def Ticketing.Booked (w : Ticketing) : Prop :=
  Ticketed w.plant w.takes w.settled

theorem Ticketed.still (h : Ticketed p takes settled)
    (hname : p'.fanout.incarnation = p.fanout.incarnation)
    (hbranches : p'.fanout.branches = p.fanout.branches) : Ticketed p' takes settled := by
  refine h.quiet ⟨hname, fun i k => ?_⟩
  rw [rowAt, rowAt, hbranches]
  exact relQuiet_refl _

theorem Ticketing.Booked.step {w : Ticketing} (h : w.Booked)
    (hbacked : Backed w.plant others leases) {op : PlantOp} (hop : SparesLast w.plant op) :
    (ticketMachine.next w op).Booked := by
  cases op with
  | submit ref => exact Ticketed.quiet h (hbacked.submit_quiet hop)
  | take branch =>
    change (w.see (take w.plant branch).1 (.take branch) (.taken (take w.plant branch).2)).Booked
    cases hb : w.plant.fanout.branches[branch]? with
    | none =>
      have htake : take w.plant branch = (w.plant, .error .einval) := by
        rw [take, hb]
      rw [htake]
      exact h
    | some b =>
      cases hk : oldestReady b with
      | none =>
        have htake : take w.plant branch = (w.plant, .error .ebusy) := by
          rw [take, hb]
          dsimp only
          rw [hk]
        rw [htake]
        exact h
      | some k =>
        rw [take_some hb hk]
        exact Ticketed.take h hb hk
  | acquireLease ticket =>
    have hsame : (acquireLease w.plant ticket).1.fanout = w.plant.fanout := by
      rw [acquireLease]
      split
      · rfl
      · split_ifs <;> rfl
    exact Ticketed.still h (congrArg Fanout.incarnation hsame) (congrArg Fanout.branches hsame)
  | settle ticket =>
    change (w.see (settle w.plant ticket).1 (.settle ticket)
      (.status (settle w.plant ticket).2)).Booked
    cases hlook : foLookup w.plant.fanout ticket with
    | none =>
      have hsettle : settle w.plant ticket = (w.plant, .estale) := by
        rw [settle, hlook]
      rw [hsettle]
      exact h
    | some found =>
      obtain ⟨b, row⟩ := found
      by_cases hstate : row.state = .taken
      · obtain ⟨hb, hrow, hused⟩ := foLookup_some hlook
        obtain ⟨rest, hout, hnames, -⟩ := hbacked.branch hb
        obtain ⟨hrelease, -⟩ := foRelease_backed hout hnames hrow hused
        have hsettle : settle w.plant ticket =
            (setBranch { w.plant with store := (foRelease w.plant.store b ticket.slot).1 }
              ticket.branch (b.release ticket.slot), .ok) := by
          rw [settle, hlook]
          dsimp only
          rw [if_neg (not_not.mpr hstate), hrelease]
        rw [hsettle]
        exact Ticketed.settle h hlook hstate
      · have hsettle : settle w.plant ticket = (w.plant, .ebusy) := by
          rw [settle, hlook]
          exact if_pos hstate
        rw [hsettle]
        exact h
  | discardReady branch => exact Ticketed.quiet h (discardReady_quiet _ branch)
  | sealOwner | onStore op => exact Ticketed.still h rfl rfl

end Tickets

theorem ticketed_create {cfg : FoConfig} {incarnation : ℕ} {o : Fanout} (s : Store)
    (hcreate : foCreate cfg incarnation = .ok o) : Ticketed ⟨s, o⟩ [] [] := by
  refine ⟨nodup_nil, nofun, nofun, fun i k row hrow => ?_⟩
  obtain ⟨b, hb, hget⟩ := rowAt_eq_some.mp hrow
  obtain ⟨c, policy, -, rfl⟩ := (foCreate_new hcreate).1 b (mem_of_getElem? hb)
  rw [eq_of_mem_replicate (mem_of_getElem? hget)]
  exact ⟨Nat.zero_le _, fun hne => absurd rfl hne, nofun⟩

/-- **Tickets resolve.**  In every state of an owner and its store that a run reaches in
which no ready row with the last generation is replaced, and without others giving back
pins of the owner, a ticket is good from when it was taken until it is settled, and
refused afterwards. -/
theorem tickets_resolve (config : FsConfig) (generation : ℕ) (buffers : ℕ → List UInt8) (s : Store)
    (hstore : fsCreate config generation buffers = .ok s) (before : List FsOp) (cfg : FoConfig)
    (incarnation : ℕ) (o : Fanout) (howner : foCreate cfg incarnation = .ok o) (ops : List PlantOp)
    (hops : ticketMachine.Along (fun w op => KeepsPins w.plant op ∧ SparesLast w.plant op)
      ⟨⟨(watchedMachine.run ⟨s, freshObserver⟩ before).store, o⟩, [], []⟩ ops) (w : Ticketing)
    (hw : w = ticketMachine.run
      ⟨⟨(watchedMachine.run ⟨s, freshObserver⟩ before).store, o⟩, [], []⟩ ops) : w.Resolves := by
  have hsound : w.Booked ∧ ∃ others leases, Backed w.plant others leases := by
    rw [hw]
    refine ticketMachine.run_invariant_along
      (P := fun w => w.Booked ∧ ∃ others leases, Backed w.plant others leases) ?_ ?_ hops
    · rintro w op ⟨hpins, hspares⟩ ⟨hbooked, others, leases, hbacked⟩
      refine ⟨hbooked.step hbacked hspares, ?_⟩
      have hplant : (ticketMachine.next w op).plant = plantMachine.next w.plant op := by
        change (w.see _ op _).plant = _
        rw [Ticketing.see.eq_def]
        split <;> rfl
      rw [hplant]
      exact hbacked.step op hpins
    · exact ⟨ticketed_create _ howner, _, _, backed_create howner (sound_run hstore before).1⟩
  obtain ⟨hbooked, others, leases, hbacked⟩ := hsound
  exact hbooked.resolves hbacked

def oneSettled : List PlantOp :=
  [.onStore (.publishCpu [10, 20] 3 4), .submit firstFrame, .take 0, .settle ⟨9, 0, 0, 1⟩]

theorem tickets_resolve_pair :
    ∃ w, w = ticketMachine.run ⟨⟨smallStore, pairOwner⟩, [], []⟩ oneSettled ∧
      w.takes = [⟨9, 0, 0, 1⟩] ∧ w.settled = w.takes ∧ w.Resolves := by
  refine ⟨_, rfl, rfl, rfl, ?_⟩
  refine tickets_resolve smallFsConfig 5 (fun _ => []) smallStore rfl [] pairFoConfig 9
    pairOwner rfl
    oneSettled ?_ _ rfl
  refine ⟨⟨trivial, trivial⟩, ⟨trivial, ?_⟩, ⟨trivial, trivial⟩, ⟨trivial, trivial⟩, trivial⟩
  intro hok b hb hselected k hk hready
  have hrow : b.row k = zeroRow := by
    rcases mem_cons.mp hb with rfl | hb
    · cases k <;> rfl
    · cases mem_singleton.mp hb
      cases k <;> rfl
  rw [hrow]
  decide

variable {n : ℕ} {p : Plant}

/-- The plant of a branch of one row after the same frame was submitted `n` times. -/
def Refilled (n : ℕ) (p : Plant) : Prop :=
  ∃ slots i j row stats, Opposite i j ∧ (slots 0).Fresh 1 1 ∧ (slots 0).pins = 1 ∧
    row.state = .ready ∧ row.order = n ∧ row.pin = overrunPin n ∧
    row.generation = n % (max32 + 1) ∧
    p = ⟨overrunStore slots ([none, none].set i (some ⟨n, 0, 1⟩)) 1 1 n,
      ⟨9, n + 1, [⟨[row], .latest, 0, stats⟩], false⟩⟩

theorem Refilled.next (h : Refilled n p) (hpos : 0 < n) (hn : n ≤ max32) :
    Refilled (n + 1) (submit p (overrunFrame 0 1 1)).1 := by
  have hbound : max32 + 2 < max64 := by decide
  obtain ⟨slots, i, j, row, stats, hij, hfresh, hpins, hready, horder, hpin, hgeneration, rfl⟩ := h
  have hdrop : dropPin (addPin (slots 0)) = slots 0 := by
    rw [dropPin, addPin]
    dsimp only
    rw [hpins, pred32_eq (by decide) (by decide), maybeRetire]
    rw [if_neg (by rw [hfresh.state]; simp)]
    show { slots 0 with pins := 1 } = slots 0
    rw [← hpins]
  have hrsv := @overrun_pin slots i j 1 n 1 ⟨n, 0, 1⟩ 0 1 hij (by decide) hfresh (by omega)
  have hunpin := @overrun_unpin (Function.update slots 0 (addPin (slots 0))) i j 1 (n + 1)
    ⟨n + 1, 0, 1⟩ n 0 1 1 hij (by omega) (by dsimp only; omega)
  rw [Function.update_self, hdrop, Function.update_idem, Function.update_eq_self] at hunpin
  rw [← hpin] at hunpin
  obtain ⟨stats', -, hsubmit⟩ := submit_replaces (n := n) stats (by decide) rfl rfl (by omega)
    hready (by rw [horder]; omega) hrsv hunpin
  rw [hsubmit]
  refine ⟨slots, j, i, _, stats', hij.symm, hfresh, hpins, rfl, rfl, rfl, ?_, rfl⟩
  change (row.generation + 1) % (max32 + 1) = _
  rw [hgeneration, Nat.mod_add_mod]

def refills (n : ℕ) : List PlantOp :=
  .onStore (.publishCpu [0] 3 4) :: replicate n (.submit (overrunFrame 0 1 1))

theorem refills_run (n : ℕ) (hpos : 0 < n) (hn : n ≤ max32 + 1) :
    ∃ p, Refilled n p ∧ ticketMachine.run ⟨⟨overrunStart.owner.plant.store, latestOwner⟩, [], []⟩
      (refills n) = ⟨p, [], []⟩ := by
  induction n, hpos using Nat.le_induction with
  | base =>
    refine ⟨_, ?_, rfl⟩
    refine ⟨_, 0, 1, ⟨.ready, 1, 1, overrunFrame 0 1 1, overrunPin 1⟩, ⟨1, 0, 1, 0, 0, 0, 0⟩,
      .inl ⟨rfl, rfl⟩, ?_, ?_, rfl, rfl, rfl, rfl, rfl⟩
    · exact ⟨rfl, rfl, rfl, rfl, rfl⟩
    · rfl
  | succ n hpos ih =>
    obtain ⟨p, hp, hrun⟩ := ih (by omega)
    refine ⟨_, hp.next hpos (by omega), ?_⟩
    rw [refills, replicate_succ', ← cons_append, Machine.run_append]
    rw [refills] at hrun
    rw [hrun]
    rfl

/-- A row of a latest branch is replaced as many times as a word has values, and its
ticket then has generation 0: it is refused although it is open. -/
theorem tickets_resolve_overrun :
    fsCreate overrunConfig 5 (fun _ => [0]) = .ok overrunStart.owner.plant.store ∧
      foCreate latestFoConfig 9 = .ok latestOwner ∧
      ∃ w, w = ticketMachine.run ⟨⟨overrunStart.owner.plant.store, latestOwner⟩, [], []⟩
          (refills 4294967296 ++ [.take 0]) ∧
        w.takes = [⟨9, 0, 0, 0⟩] ∧ w.settled = [] ∧ (settle w.plant ⟨9, 0, 0, 0⟩).2 = .estale ∧
        ¬w.Resolves := by
  obtain ⟨p, hp, hrun⟩ := refills_run 4294967296 (by decide) (by decide)
  obtain ⟨slots, i, j, ⟨state, generation, order, ref, pin⟩, stats, -, -, -, hstate, horder, -,
    hgeneration, rfl⟩ := hp
  cases hstate
  cases horder
  have hzero : generation = 0 := hgeneration
  subst hzero
  refine ⟨rfl, rfl, _, rfl, ?_⟩
  rw [Machine.run_append, hrun]
  refine ⟨rfl, rfl, rfl, fun hresolves => ?_⟩
  have hopen := (hresolves.opened ⟨9, 0, 0, 0⟩ (mem_singleton_self _) nofun).1
  cases hopen

end TurboMedia.StreamGraph
