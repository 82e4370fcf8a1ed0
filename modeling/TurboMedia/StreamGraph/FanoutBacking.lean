import TurboMedia.StreamGraph.FanoutPasses
import TurboMedia.StreamGraph.StoreCredits

/-!
# Every row in use holds a pin

**Input.**  A plant whose store is shared with others that keep their hands off the
pins of the owner.

**Method.**  The rows in use of all branches are credits outstanding on the store
(`Backed`), beside credits of others.  A loop over the lanes turns the credits of
the lanes it has not reached yet, with the others as a frame around them; so an
eviction or a rollback always finds the pin it gives back.
-/

namespace TurboMedia.StreamGraph

open List Lane

section Credits

def Row.credit (row : Row) : Option (ℕ × FrameRef) :=
  if row.state = .free then none else some (row.pin.ticketId, row.ref)

def Branch.credits (b : Branch) : List (ℕ × FrameRef) :=
  (b.rows.map Row.credit).reduceOption

def creditsOf (bs : List Branch) : List (ℕ × FrameRef) :=
  bs.flatMap Branch.credits

/-- The rows in use hold tickets of this store. -/
def Branch.Names (s : Store) (b : Branch) : Prop :=
  ∀ row ∈ b.rows, row.state ≠ .free → row.pin = s.ticket row.pin.ticketId

/-- The pins of the owner are outstanding, beside the pins of others. -/
structure Backed (p : Plant) (others leases : List (ℕ × FrameRef)) : Prop where
  outstanding : Outstanding p.store (creditsOf p.fanout.branches ++ others) leases
  names : ∀ b ∈ p.fanout.branches, b.Names p.store

variable {b b' : Branch} {k : ℕ} {row row' : Row}

theorem Row.credit_of_used (h : row.state ≠ .free) :
    row.credit = some (row.pin.ticketId, row.ref) :=
  if_neg h

theorem Row.credit_of_free (h : row.state = .free) : row.credit = none :=
  if_pos h

theorem mem_credits {c : ℕ × FrameRef} :
    c ∈ b.credits ↔ ∃ row ∈ b.rows, row.state ≠ .free ∧ c = (row.pin.ticketId, row.ref) := by
  rw [Branch.credits, reduceOption_mem_iff, mem_map]
  constructor
  · rintro ⟨row, hrow, hcredit⟩
    rw [Row.credit] at hcredit
    split_ifs at hcredit with hstate
    cases hcredit
    exact ⟨row, hrow, hstate, rfl⟩
  · rintro ⟨row, hrow, hstate, rfl⟩
    exact ⟨row, hrow, row.credit_of_used hstate⟩

theorem credits_set (hrow : b.rows[k]? = some row) (hset : b'.rows = b.rows.set k row') :
    ∃ rest, b.credits.Perm (row.credit.toList ++ rest) ∧
      b'.credits.Perm (row'.credit.toList ++ rest) := by
  rw [Branch.credits, Branch.credits, hset]
  exact SlotTable.perm_map_set hrow row'

theorem credits_release (hrow : b.rows[k]? = some row) (hstate : row.state ≠ .free) :
    b.credits.Perm ((row.pin.ticketId, row.ref) :: (b.release k).credits) := by
  have hset : (b.release k).rows = b.rows.set k row.clear := by
    rw [Branch.release, Branch.row_eq hrow]
  obtain ⟨rest, hbef, hafter⟩ := credits_set hrow hset
  rw [row.credit_of_used hstate] at hbef
  rw [Row.credit_of_free rfl] at hafter
  exact hbef.trans (hafter.symm.cons _)

theorem credits_fill (hrow : b.rows[k]? = some row) (hstate : row.state = .free)
    (hset : b'.rows = b.rows.set k row') (hused : row'.state ≠ .free) :
    b'.credits.Perm ((row'.pin.ticketId, row'.ref) :: b.credits) := by
  obtain ⟨rest, hbef, hafter⟩ := credits_set hrow hset
  rw [row.credit_of_free hstate] at hbef
  rw [row'.credit_of_used hused] at hafter
  exact hafter.trans (hbef.symm.cons _)

theorem creditsOf_set {bs : List Branch} {i : ℕ} (h : bs[i]? = some b) :
    ∃ rest, (creditsOf bs).Perm (b.credits ++ rest) ∧
      ∀ b', (creditsOf (bs.set i b')).Perm (b'.credits ++ rest) := by
  obtain ⟨hlt, rfl⟩ := List.getElem?_eq_some_iff.mp h
  have hset : ∀ b', (creditsOf (bs.set i b')).Perm
      (b'.credits ++ creditsOf (bs.take i ++ bs.drop (i + 1))) := by
    intro b'
    rw [set_eq_take_cons_drop _ hlt, creditsOf, flatMap_append, flatMap_cons,
      creditsOf, flatMap_append]
    exact perm_append_comm_assoc _ _ _
  refine ⟨_, ?_, hset⟩
  have hself := hset bs[i]
  rwa [set_getElem_self] at hself

theorem Names.of_ticket {s s' : Store} (h : b.Names s) (htick : ∀ n, s'.ticket n = s.ticket n) :
    b.Names s' := by
  intro row hrow hstate
  rw [htick]
  exact h row hrow hstate

theorem Names.set {s : Store} (h : b.Names s) (hset : b'.rows = b.rows.set k row')
    (hrow : row'.state ≠ .free → row'.pin = s.ticket row'.pin.ticketId) : b'.Names s := by
  intro r hr hstate
  rw [hset] at hr
  rcases mem_or_eq_of_mem_set hr with hr | rfl
  · exact h r hr hstate
  · exact hrow hstate

theorem creditsOf_of_free {bs : List Branch} (h : ∀ b ∈ bs, ∀ row ∈ b.rows, row.state = .free) :
    creditsOf bs = [] := by
  rw [creditsOf, flatMap_eq_nil_iff]
  intro b hb
  rw [eq_nil_iff_forall_not_mem]
  intro c hc
  obtain ⟨row, hrow, hstate, _⟩ := mem_credits.mp hc
  exact hstate (h b hb row hrow)

theorem creditsOf_of_core {bs bs' : List Branch} (h : bs'.map Branch.core = bs.map Branch.core) :
    creditsOf bs' = creditsOf bs := by
  have hcore : ∀ l : List Branch, creditsOf l = (l.map Branch.core).flatMap Branch.credits := by
    intro l
    rw [flatMap_map]
    rfl
  rw [hcore, hcore, h]

theorem names_of_core {s : Store} {bs bs' : List Branch}
    (h : bs'.map Branch.core = bs.map Branch.core) (hnames : ∀ b ∈ bs, b.Names s) :
    ∀ b ∈ bs', b.Names s := by
  intro b hb
  have hmem := mem_map_of_mem (f := Branch.core) hb
  rw [h] at hmem
  obtain ⟨b', hb', heq⟩ := mem_map.mp hmem
  have hrows : b'.core.rows = b.core.rows := congrArg Branch.rows heq
  have hrows' : b'.rows = b.rows := hrows
  intro row hrow
  rw [← hrows'] at hrow
  exact hnames b' hb' row hrow

end Credits

section Release

variable {s : Store} {b : Branch} {k : ℕ} {row : Row} {others leases : List (ℕ × FrameRef)}

theorem foRelease_backed (h : Outstanding s (b.credits ++ others) leases) (hnames : b.Names s)
    (hrow : b.rows[k]? = some row) (hstate : row.state ≠ .free) :
    (foRelease s b k).2 = (b.release k, .ok) ∧
      Outstanding (foRelease s b k).1 ((b.release k).credits ++ others) leases ∧
      Calm s (foRelease s b k).1 ∧ (b.release k).Names (foRelease s b k).1 := by
  have hperm := (credits_release hrow hstate).append_right others
  obtain ⟨hok, hout⟩ := (h.perm hperm (List.Perm.refl _)).pinBack
  rw [← hnames row (mem_of_getElem? hrow) hstate, ← Branch.row_eq hrow] at hok hout
  have hcalm := releasePin_calm s (b.row k).pin
  have heq : foRelease s b k = ((releasePin s (b.row k).pin).1, b.release k, .ok) := by
    rw [foRelease]
    exact if_neg (not_not.mpr hok)
  have hset : (b.release k).rows = b.rows.set k (b.row k).clear := rfl
  have hcleared : (b.release k).Names s := Names.set hnames hset (fun hused => absurd rfl hused)
  rw [heq]
  exact ⟨rfl, hout, hcalm, Names.of_ticket hcleared hcalm.ticket⟩

end Release

section Lanes

/-- The pin that a ticket stands for, once it has been reserved. -/
def reservedCredit (ref : FrameRef) (pin : Ticket) : List (ℕ × FrameRef) :=
  if pin.ticketId = 0 then [] else [(pin.ticketId, ref)]

/-- What the lane holds: the pins of its branch and its reservation. -/
def Lane.credits (ref : FrameRef) (lane : Lane) : List (ℕ × FrameRef) :=
  lane.branch.credits ++ reservedCredit ref lane.reservation

variable {ref : FrameRef} {s : Store} {lane : Lane} {lanes : List Lane}
variable {others leases : List (ℕ × FrameRef)}

theorem flatMap_credits_perm (ref : FrameRef) (lanes : List Lane) :
    (lanes.flatMap (credits ref)).Perm
      ((lanes.map reservation).flatMap (reservedCredit ref) ++
        creditsOf (lanes.map branch)) := by
  rw [creditsOf, flatMap_map, flatMap_map]
  exact (flatMap_append_perm lanes _ _).symm.trans perm_append_comm

/-- A loop over the lanes turns to the next one: the lane that is done joins the
frame. -/
theorem Outstanding.past
    (h : Outstanding s ((lane :: lanes).flatMap (credits ref) ++ others) leases) :
    Outstanding s (lanes.flatMap (credits ref) ++ (lane.credits ref ++ others)) leases := by
  rw [flatMap_cons, append_assoc] at h
  exact h.perm (perm_append_comm_assoc _ _ _) (List.Perm.refl _)

theorem Outstanding.front
    (h : Outstanding s (lanes.flatMap (credits ref) ++ (lane.credits ref ++ others)) leases) :
    Outstanding s ((lane :: lanes).flatMap (credits ref) ++ others) leases := by
  rw [flatMap_cons, append_assoc]
  exact h.perm (perm_append_comm_assoc _ _ _) (List.Perm.refl _)

theorem rollback_outstanding {pins : List Ticket} {reserved : ℕ}
    (h : Outstanding s (pins.flatMap (reservedCredit ref) ++ others) leases)
    (hnames : ∀ pin ∈ pins, pin.ticketId ≠ 0 → pin = s.ticket pin.ticketId)
    (hcount : reserved = pins.countP (fun pin => decide (pin.ticketId ≠ 0))) :
    Outstanding (rollback reserved s pins) others leases ∧ Calm s (rollback reserved s pins) := by
  induction pins generalizing s reserved with
  | nil => cases reserved <;> exact ⟨h, calm_refl s⟩
  | cons pin pins ih =>
    have hrest : ∀ pin ∈ pins, pin.ticketId ≠ 0 → pin = s.ticket pin.ticketId :=
      fun pin hpin => hnames pin (mem_cons_of_mem _ hpin)
    by_cases hzero : pin.ticketId = 0
    · rw [flatMap_cons, reservedCredit, if_pos hzero] at h
      rw [countP_cons_of_neg (by simp [hzero])] at hcount
      have hskip : rollback reserved s (pin :: pins) = rollback reserved s pins := by
        cases reserved with
        | zero => rw [rollback, rollback]
        | succ n => rw [rollback, if_pos hzero]
      rw [hskip]
      exact ih h hrest hcount
    · rw [countP_cons_of_pos (by simp [hzero])] at hcount
      rw [flatMap_cons, reservedCredit, if_neg hzero] at h
      obtain ⟨_, hout⟩ := Outstanding.pinBack h
      rw [← hnames pin mem_cons_self hzero] at hout
      have hcalm := releasePin_calm s pin
      obtain ⟨hdone, hcalm'⟩ := ih hout
        (fun pin' hpin' hne => (hrest pin' hpin' hne).trans (hcalm.ticket _).symm) rfl
      rw [hcount, rollback, if_neg hzero]
      exact ⟨hdone, hcalm.trans hcalm'⟩

/-- A lane without a row has no reservation, and a lane with one has a pin that was
issued later than `n`. -/
def Lane.Booked (s : Store) (n : ℕ) (lane : Lane) : Prop :=
  (lane.index = none → lane.reservation = zeroTicket) ∧ (lane.reservation.ticketId ≠ 0 →
      lane.reservation = s.ticket lane.reservation.ticketId ∧ n < lane.reservation.ticketId)

/-- The pass after the second loop. -/
structure ReservedPass (s : Store) (ref : FrameRef) (others leases : List (ℕ × FrameRef))
    (reserved : ℕ) (pass : Pass) : Prop where
  outstanding : Outstanding pass.store (pass.lanes.flatMap (credits ref) ++ others) leases
  calm : Calm s pass.store
  booked : ∀ lane ∈ pass.lanes, lane.Booked s s.nextTicketId
  count : pass.reserved =
    reserved + pass.lanes.countP (fun lane => decide (lane.reservation.ticketId ≠ 0))
  complete : pass.result = .ok →
    ∀ lane ∈ pass.lanes, lane.index ≠ none → lane.reservation.ticketId ≠ 0

theorem Lane.credits_reserve {pin : Ticket} (ref : FrameRef) (hlane : lane.reservation = zeroTicket)
    (hpin : pin.ticketId ≠ 0) :
    (credits ref { lane with reservation := pin }).Perm
      ((pin.ticketId, ref) :: lane.credits ref) := by
  have hnone : reservedCredit ref zeroTicket = [] := rfl
  rw [credits, credits, hlane, hnone, append_nil, reservedCredit, if_neg hpin]
  exact perm_append_singleton _ _

theorem Lane.booked_of_zero {n : ℕ} (h : lane.reservation = zeroTicket) : lane.Booked s n := by
  rw [Lane.Booked, h]
  exact ⟨fun _ => rfl, fun hne => absurd rfl hne⟩

theorem ReservedPass.behind {s' : Store} {reserved reserved' : ℕ} {pass : Pass}
    (h : ReservedPass s' ref (lane.credits ref ++ others) leases reserved' pass) (hcalm : Calm s s')
    (htick : s.nextTicketId ≤ s'.nextTicketId) (hlane : lane.Booked s s.nextTicketId)
    (hcomp : lane.index ≠ none → lane.reservation.ticketId ≠ 0)
    (hcount : reserved' = reserved + if lane.reservation.ticketId ≠ 0 then 1 else 0) :
    ReservedPass s ref others leases reserved (Pass.behind lane pass) where
  outstanding := h.outstanding.front
  calm := hcalm.trans h.calm
  booked := by
    intro l hl
    rcases mem_cons.mp hl with rfl | hl
    · exact hlane
    · obtain ⟨hskipped, hiss⟩ := h.booked l hl
      refine ⟨hskipped, fun hne => ?_⟩
      obtain ⟨hpin, hlt⟩ := hiss hne
      rw [hcalm.ticket] at hpin
      exact ⟨hpin, htick.trans_lt hlt⟩
  count := by
    have hrest := h.count
    simp only [Pass.behind, countP_cons, decide_eq_true_eq]
    omega
  complete := by
    intro hok l hl hidx
    rcases mem_cons.mp hl with rfl | hl
    · exact hcomp hidx
    · exact h.complete hok l hl hidx

theorem reserveAll_backed (reserved : ℕ)
    (h : Outstanding s (lanes.flatMap (credits ref) ++ others) leases)
    (hzero : ∀ lane ∈ lanes, lane.reservation = zeroTicket) :
    ReservedPass s ref others leases reserved (reserveAll ref s reserved lanes) := by
  induction lanes generalizing s others reserved with
  | nil => exact ⟨h, calm_refl s, by simp [reserveAll], rfl, by simp [reserveAll]⟩
  | cons lane lanes ih =>
    have hlane := hzero lane mem_cons_self
    have hrest : ∀ l ∈ lanes, l.reservation = zeroTicket :=
      fun l hl => hzero l (mem_cons_of_mem _ hl)
    cases hidx : lane.index with
    | none =>
      rw [reserveAll_skip hidx]
      exact (ih reserved h.past hrest).behind (calm_refl s) le_rfl (booked_of_zero hlane)
        (fun hsome => absurd hidx hsome) (by simp [hlane, zeroTicket])
    | some k =>
      cases hrsv : (reservePin s ref).2 with
      | error e =>
        rw [reserveAll_fail hidx hrsv, reservePin_error hrsv]
        constructor
        · exact h
        · exact calm_refl s
        · intro l hl
          rcases mem_cons.mp hl with rfl | hl
          · exact booked_of_zero hlane
          · exact booked_of_zero (hrest l hl)
        · rw [countP_eq_zero.mpr]
          · rfl
          · intro l hl
            rcases mem_cons.mp hl with rfl | hl
            · simp [hlane, zeroTicket]
            · simp [hrest l hl, zeroTicket]
        · exact fun hok => absurd hok (foFsStatus_ne_ok (reservePin_ne_ok hrsv))
      | ok pin =>
        rw [reserveAll_next hidx hrsv]
        obtain ⟨rfl, _, hnext, hout⟩ := h.reserved hrsv
        have hpin : (s.ticket (s.nextTicketId + 1)).ticketId ≠ 0 := Nat.succ_ne_zero _
        refine ReservedPass.behind (ih (reserved + 1) ?_ hrest) (reservePin_calm s ref)
          (by omega) ⟨fun hnone => ?_, fun _ => ⟨rfl, Nat.lt_succ_self _⟩⟩ (fun _ => hpin)
          (by simp [Store.ticket])
        · have hshift := perm_append_comm_assoc
            ((s.nextTicketId + 1, ref) :: lane.credits ref)
            (lanes.flatMap (credits ref)) others
          have hnew := credits_reserve ref hlane hpin
          rw [flatMap_cons, append_assoc, ← cons_append] at hout
          exact hout.perm (hshift.trans ((hnew.symm.append_right others).append_left _))
            (List.Perm.refl _)
        · rw [hidx] at hnone
          cases hnone

theorem evictAll_backed (reserved : ℕ)
    (h : Outstanding s (lanes.flatMap (credits ref) ++ others) leases)
    (hnames : ∀ lane ∈ lanes, lane.branch.Names s) :
    (evictAll reserved s lanes).result = .ok ∧ Outstanding (evictAll reserved s lanes).store
        ((lanes.map evict).flatMap (credits ref) ++ others) leases ∧
      Calm s (evictAll reserved s lanes).store ∧ ∀ lane ∈ lanes, lane.evict.branch.Names s := by
  induction lanes generalizing s others with
  | nil => exact ⟨rfl, h, calm_refl s, by simp⟩
  | cons lane lanes ih =>
    have hrest : ∀ l ∈ lanes, l.branch.Names s :=
      fun l hl => hnames l (mem_cons_of_mem _ hl)
    rcases lane.row_cases with hkeep | ⟨k, hidx, hstate⟩
    · obtain ⟨hok, hout, hcalm, hnames'⟩ := ih h.past hrest
      rw [evictAll_keep hkeep, map_cons, evict_eq_self hkeep]
      refine ⟨hok, hout.front, hcalm, fun l hl => ?_⟩
      rcases mem_cons.mp hl with rfl | hl
      · rw [evict_eq_self hkeep]
        exact hnames l mem_cons_self
      · exact hnames' l hl
    · have hused : (lane.branch.row k).state ≠ .free := by
        rw [hstate]
        simp
      rw [flatMap_cons, credits, append_assoc, append_assoc] at h
      obtain ⟨hrel, hout, hcalm, hreleased⟩ := foRelease_backed h
        (hnames lane mem_cons_self) (Branch.getElem?_row hused) hused
      have hok : (foRelease s lane.branch k).2.2 = .ok := by
        rw [hrel]
      have hlane := evict_eq hidx hstate
      have hnext : Outstanding (foRelease s lane.branch k).1
          (lanes.flatMap (credits ref) ++ (lane.evict.credits ref ++ others)) leases := by
        rw [hlane]
        refine Outstanding.past ?_
        rw [flatMap_cons, credits, append_assoc, append_assoc]
        exact hout
      obtain ⟨hdone, hout', hcalm', hnames'⟩ := ih hnext
        (fun l hl => Names.of_ticket (hrest l hl) hcalm.ticket)
      rw [evictAll_next hidx hstate hok, map_cons]
      refine ⟨hdone, hout'.front, hcalm.trans hcalm', fun l hl => ?_⟩
      rcases mem_cons.mp hl with rfl | hl
      · rw [hlane]
        exact Names.of_ticket hreleased (fun n => (hcalm.ticket n).symm)
      · exact Names.of_ticket (hnames' l hl) (fun n => (hcalm.ticket n).symm)

end Lanes

section Submission

variable {p : Plant} {ref : FrameRef} {lane : Lane} {others leases : List (ℕ × FrameRef)}

theorem commit_credits
    (hidx : lane.index = if foSelected lane.branch ref = true then foChooseRow lane.branch
      else none) (hnone : lane.index = none → lane.reservation = zeroTicket)
    (hsome : lane.index ≠ none → lane.reservation.ticketId ≠ 0) (order : ℕ) :
    (lane.evict.commit ref order).credits.Perm (lane.evict.credits ref) := by
  cases hk : lane.index with
  | none =>
    have hrows := commit_evict_rows_none hk ref order
    rw [Branch.credits, hrows, evict_eq_self (.inl hk), credits, hnone hk]
    exact (append_nil _).symm ▸ List.Perm.refl _
  | some k =>
    rw [hk] at hidx hsome
    split_ifs at hidx
    obtain ⟨row, hrow, hfree, _, hset⟩ := evict_vacant hk hidx.symm
    have hrows := commit_evict_rows hk hidx.symm ref order
    rw [← hset] at hrows
    have hperm := credits_fill hrow hfree hrows (by simp [Row.fill])
    rw [credits, lane.evict_index.2, reservedCredit, if_neg (hsome (by simp))]
    exact hperm.trans (perm_append_singleton _ _).symm

variable (h : Backed p others leases)
include h

theorem Backed.lanesReserved (ref : FrameRef) :
    ReservedPass p.store ref others leases 0 (reservedLanes p ref) := by
  refine reserveAll_backed 0 ?_ ?_
  · have hcredits : (p.fanout.branches.map (laneOf ref)).flatMap (credits ref) =
        creditsOf p.fanout.branches := by
      rw [flatMap_map, creditsOf]
      congr 1
      funext b
      exact append_nil _
    rw [hcredits]
    exact h.outstanding
  · intro lane hlane
    obtain ⟨b, _, rfl⟩ := mem_map.mp hlane
    rfl

theorem Backed.undo {pass : Pass} (hpass : ReservedPass p.store ref others leases 0 pass)
    (hcore : pass.lanes.map (fun lane => lane.branch.core) = p.fanout.branches.map Branch.core) :
    Backed (p.undo pass) others leases ∧ Calm p.store (p.undo pass).store := by
  have hcore' : (p.undo pass).fanout.branches.map Branch.core =
      p.fanout.branches.map Branch.core := by
    rw [← hcore]
    exact map_map
  have hperm := (flatMap_credits_perm ref pass.lanes).append_right others
  rw [append_assoc] at hperm
  have hnames : ∀ pin ∈ pass.lanes.map reservation, pin.ticketId ≠ 0 →
      pin = pass.store.ticket pin.ticketId := by
    intro pin hpin hne
    obtain ⟨lane, hlane, rfl⟩ := mem_map.mp hpin
    rw [hpass.calm.ticket]
    exact ((hpass.booked lane hlane).2 hne).1
  have hcount : pass.reserved = (pass.lanes.map reservation).countP
      (fun pin => decide (pin.ticketId ≠ 0)) := by
    rw [hpass.count, Nat.zero_add, countP_map]
    rfl
  obtain ⟨hout, hcalm⟩ := rollback_outstanding
    (hpass.outstanding.perm hperm (List.Perm.refl _)) hnames hcount
  have hcalm' := hpass.calm.trans hcalm
  refine ⟨⟨hout, fun b hb => ?_⟩, hcalm'⟩
  exact Names.of_ticket (names_of_core hcore' h.names b hb) hcalm'.ticket

theorem Backed.lanesSubmitted (hres : (reservedLanes p ref).result = .ok) :
    (submitReserved p ref (reservedLanes p ref)).2 = .ok ∧
      (submitReserved p ref (reservedLanes p ref)).1.fanout = { p.fanout with
        branches := (reservedLanes p ref).lanes.map
          (fun lane => lane.evict.commit ref p.fanout.nextOrder)
        nextOrder := p.fanout.nextOrder + 1 } ∧
      Backed (submitReserved p ref (reservedLanes p ref)).1 others leases ∧
      Calm p.store (submitReserved p ref
        (reservedLanes p ref)).1.store := by
  have hpass := h.lanesReserved ref
  have hlanes : ∀ lane ∈ (reservedLanes p ref).lanes, lane.branch ∈ p.fanout.branches ∧
      lane.index = if foSelected lane.branch ref = true then foChooseRow lane.branch else none :=
    fun lane hlane => reservedLanes_lane hres hlane
  generalize hp : reservedLanes p ref = pass at *
  obtain ⟨hok, hout, hcalm, hnames⟩ := evictAll_backed pass.reserved hpass.outstanding
    (fun lane hlane => Names.of_ticket (h.names _ (hlanes lane hlane).1) hpass.calm.ticket)
  have hevicted := evictAll_lanes hok
  have hcommit : submitReserved p ref pass =
      (⟨(evictAll pass.reserved pass.store pass.lanes).store, { p.fanout with
        branches := pass.lanes.map (fun lane => lane.evict.commit ref p.fanout.nextOrder)
        nextOrder := p.fanout.nextOrder + 1 }⟩, .ok) := by
    rw [submitReserved]
    rw [if_neg (not_not.mpr hok), hevicted, map_map]
    rfl
  have hcalm' := hpass.calm.trans hcalm
  rw [hcommit]
  refine ⟨rfl, rfl, ⟨?_, fun b hb => ?_⟩, hcalm'⟩
  · refine hout.perm (List.Perm.append_right _ ?_) (List.Perm.refl _)
    rw [creditsOf, flatMap_map, flatMap_map]
    refine List.Perm.flatMap_left _ (fun lane hlane => (commit_credits (hlanes lane hlane).2
      (hpass.booked lane hlane).1 (hpass.complete hres lane hlane) _).symm)
  · obtain ⟨lane, hlane, rfl⟩ := mem_map.mp hb
    have hstore : ∀ n, (evictAll pass.reserved pass.store pass.lanes).store.ticket n =
        p.store.ticket n := hcalm'.ticket
    have hlaneNames := Names.of_ticket (h.names _ (hlanes lane hlane).1) hstore
    cases hidx : lane.index with
    | none =>
      have hrows := commit_evict_rows_none hidx ref p.fanout.nextOrder
      intro row hrow
      rw [hrows] at hrow
      exact hlaneNames row hrow
    | some k =>
      have hchoose := (hlanes lane hlane).2
      rw [hidx] at hchoose
      split_ifs at hchoose
      have hpin := hpass.complete hres lane hlane (by rw [hidx]; simp)
      refine Names.set hlaneNames (commit_evict_rows hidx hchoose.symm ref _) (fun _ => ?_)
      show lane.reservation = _
      rw [hstore]
      exact ((hpass.booked lane hlane).2 hpin).1

theorem Backed.submitted (ref : FrameRef) :
    Backed (submit p ref).1 others leases ∧ Calm p.store (submit p ref).1.store := by
  have hview := submit_submission p ref
  generalize submit p ref = r at hview ⊢
  cases hview with
  | refused hstat => exact ⟨h, calm_refl p.store⟩
  | full hcore =>
    refine ⟨⟨?_, names_of_core hcore h.names⟩, calm_refl p.store⟩
    rw [creditsOf_of_core hcore]
    exact h.outstanding
  | unreserved hadm hres => exact h.undo (h.lanesReserved ref) (reservedLanes_core p ref)
  | reserved hadm hres =>
    obtain ⟨_, _, hbacked⟩ := h.lanesSubmitted hres
    exact hbacked

end Submission

section Delivery

variable {p : Plant} {others leases : List (ℕ × FrameRef)} {i : ℕ} {b : Branch}

theorem Backed.branch (h : Backed p others leases) (hb : p.fanout.branches[i]? = some b) :
    ∃ rest, Outstanding p.store (b.credits ++ rest) leases ∧ b.Names p.store ∧
      ∀ s' b' leases', Outstanding s' (b'.credits ++ rest) leases' → Calm p.store s' →
        b'.Names s' → Backed ({ p with store := s' }.setBranch i b') others leases' := by
  obtain ⟨rest, hself, hset⟩ := creditsOf_set hb
  refine ⟨rest ++ others, ?_, h.names b (mem_of_getElem? hb),
    fun s' b' leases' hout hcalm hnames => ⟨?_, fun b'' hb'' => ?_⟩⟩
  · have hperm := hself.append_right others
    rw [append_assoc] at hperm
    exact h.outstanding.perm hperm (List.Perm.refl _)
  · have hperm := (hset b').append_right others
    rw [append_assoc] at hperm
    exact hout.perm hperm.symm (List.Perm.refl _)
  · rcases mem_or_eq_of_mem_set hb'' with hb'' | rfl
    · exact Names.of_ticket (h.names b'' hb'') hcalm.ticket
    · exact hnames

theorem takeRow_credits {k : ℕ} {row : Row} (hrow : b.rows[k]? = some row)
    (hready : row.state = .ready) : (b.takeRow k).credits.Perm b.credits := by
  have hset : (b.takeRow k).rows = b.rows.set k { row with state := .taken } := by
    rw [Branch.takeRow, Branch.row_eq hrow]
  obtain ⟨rest, hbef, hafter⟩ := credits_set hrow hset
  have hcredit : Row.credit { row with state := .taken } = row.credit := by
    rw [Row.credit, Row.credit, hready]
    rfl
  rw [hcredit] at hafter
  exact hafter.trans hbef.symm

variable (h : Backed p others leases)
include h

theorem Backed.taken (branch : ℕ) :
    Backed (take p branch).1 others leases ∧ (take p branch).1.store = p.store := by
  rw [take]
  cases hb : p.fanout.branches[branch]? with
  | none => exact ⟨h, rfl⟩
  | some b =>
    dsimp only
    cases hk : oldestReady b with
    | none => exact ⟨h, rfl⟩
    | some k =>
      obtain ⟨row, hrow, hready, _⟩ := oldestReady_some hk
      obtain ⟨rest, hout, hnames, hset⟩ := h.branch hb
      refine ⟨hset p.store (b.takeRow k) leases ?_ (calm_refl _) ?_, rfl⟩
      · exact hout.perm ((takeRow_credits hrow hready).symm.append_right rest)
          (List.Perm.refl _)
      · refine Names.set hnames rfl (fun _ => ?_)
        have hpin := hnames row (mem_of_getElem? hrow) (by rw [hready]; simp)
        rw [Branch.row_eq hrow]
        exact hpin

theorem Backed.pinLeased {row : Row}
    (hb : p.fanout.branches[i]? = some b) (hrow : row ∈ b.rows) (hstate : row.state ≠ .free) :
    ((∃ e, (acquirePinned p.store row.pin).2 = .error e) ∧
        (acquirePinned p.store row.pin).1 = p.store) ∨
      ((acquirePinned p.store row.pin).2 =
          .ok (p.store.ticket (p.store.nextTicketId + 1)) ∧
        Backed { p with store := (acquirePinned p.store row.pin).1 } others
          ((p.store.nextTicketId + 1, row.ref) :: leases)) := by
  have hcredit : (row.pin.ticketId, row.ref) ∈ creditsOf p.fanout.branches ++ others := by
    refine mem_append_left _ (mem_flatMap.mpr ⟨b, mem_of_getElem? hb, ?_⟩)
    exact mem_credits.mpr ⟨row, hrow, hstate, rfl⟩
  obtain ⟨front, back, hsplit⟩ := append_of_mem hcredit
  have hperm : (creditsOf p.fanout.branches ++ others).Perm
      ((row.pin.ticketId, row.ref) :: (front ++ back)) := by
    rw [hsplit]
    exact perm_middle
  have hpin := h.names b (mem_of_getElem? hb) row hrow hstate
  have hcalm := acquirePinned_calm p.store row.pin
  cases hlease : (acquirePinned p.store row.pin).2 with
  | error e => exact .inl ⟨⟨e, rfl⟩, acquirePinned_error hlease⟩
  | ok t =>
    have hok := hlease
    rw [hpin] at hok
    obtain ⟨rfl, hout⟩ := (h.outstanding.perm hperm (List.Perm.refl _)).pinLeased hok
    rw [← hpin] at hout
    exact .inr ⟨rfl, hout.perm hperm.symm (List.Perm.refl _),
      fun b' hb' => Names.of_ticket (h.names b' hb') hcalm.ticket⟩

theorem Backed.leaseTaken (t : FoTicket) :
    ∃ leases', Backed (acquireLease p t).1 others leases' := by
  rw [acquireLease]
  cases hlook : foLookup p.fanout t with
  | none => exact ⟨leases, h⟩
  | some found =>
    obtain ⟨b, row⟩ := found
    obtain ⟨hb, hrow, hstate⟩ := foLookup_some hlook
    dsimp only
    split_ifs
    · exact ⟨leases, h⟩
    · rcases h.pinLeased hb (mem_of_getElem? hrow) hstate with ⟨_, hsame⟩ | ⟨_, hlease⟩
      · rw [hsame]
        exact ⟨leases, h⟩
      · exact ⟨_, hlease⟩

theorem Backed.settled (t : FoTicket) :
    Backed (settle p t).1 others leases ∧ Calm p.store (settle p t).1.store := by
  rw [settle]
  cases hlook : foLookup p.fanout t with
  | none => exact ⟨h, calm_refl _⟩
  | some found =>
    obtain ⟨b, row⟩ := found
    obtain ⟨hb, hrow, hstate⟩ := foLookup_some hlook
    dsimp only
    split_ifs
    · exact ⟨h, calm_refl _⟩
    · obtain ⟨rest, hout, hnames, hset⟩ := h.branch hb
      obtain ⟨hrel, hout', hcalm, hnames'⟩ := foRelease_backed hout hnames hrow hstate
      rw [hrel]
      exact ⟨hset _ _ _ hout' hcalm hnames', hcalm⟩

omit h

theorem discardRows_backed {s : Store} (ks : List ℕ)
    (h : Outstanding s (b.credits ++ others) leases) (hnames : b.Names s) :
    (discardRows ks s b).2.2 = .ok ∧
      Outstanding (discardRows ks s b).1 ((discardRows ks s b).2.1.credits ++ others) leases ∧
      Calm s (discardRows ks s b).1 ∧ (discardRows ks s b).2.1.Names (discardRows ks s b).1 := by
  induction ks generalizing s b with
  | nil => exact ⟨rfl, h, calm_refl s, hnames⟩
  | cons k ks ih =>
    by_cases hready : (b.row k).state = .ready
    · have hused : (b.row k).state ≠ .free := by
        rw [hready]
        simp
      obtain ⟨hrel, hout, hcalm, hnames'⟩ := foRelease_backed h hnames
        (Branch.getElem?_row hused) hused
      obtain ⟨hok, hdone, hcalm', hnames''⟩ := ih hout hnames'
      rw [discardRows_next hready (by rw [hrel])]
      exact ⟨hok, hdone, hcalm.trans hcalm', hnames''⟩
    · rw [discardRows_keep hready]
      exact ih h hnames

theorem Backed.discarded (h : Backed p others leases) (branch : ℕ) :
    Backed (discardReady p branch).1 others leases ∧
      Calm p.store (discardReady p branch).1.store := by
  rw [discardReady]
  cases hb : p.fanout.branches[branch]? with
  | none => exact ⟨h, calm_refl _⟩
  | some b =>
    obtain ⟨rest, hout, hnames, hset⟩ := h.branch hb
    obtain ⟨_, hout', hcalm, hnames'⟩ :=
      discardRows_backed (List.range b.rows.length) hout hnames
    exact ⟨hset _ _ _ hout' hcalm hnames', hcalm⟩

end Delivery

/-- Calls of others on the store do not give back a pin of the owner. -/
def KeepsPins (p : Plant) : PlantOp → Prop
  | .onStore (.releasePin pin) =>
    ∀ b ∈ p.fanout.branches, ∀ row ∈ b.rows, row.state ≠ .free → pin ≠ row.pin
  | _ => True

variable {p : Plant}

theorem Backed.step {others leases : List (ℕ × FrameRef)} (h : Backed p others leases)
    (op : PlantOp) (hop : KeepsPins p op) :
    ∃ others' leases', Backed (plantMachine.next p op) others' leases' := by
  cases op with
  | submit ref => exact ⟨others, leases, (h.submitted ref).1⟩
  | take branch => exact ⟨others, leases, (h.taken branch).1⟩
  | acquireLease ticket =>
    obtain ⟨leases', hbacked⟩ := h.leaseTaken ticket
    exact ⟨others, leases', hbacked⟩
  | settle ticket => exact ⟨others, leases, (h.settled ticket).1⟩
  | discardReady branch => exact ⟨others, leases, (h.discarded branch).1⟩
  | sealOwner => exact ⟨others, leases, h.outstanding, h.names⟩
  | onStore op =>
    have hforeign : ∀ c ∈ creditsOf p.fanout.branches, op ≠ .releasePin (p.store.ticket c.1) := by
      rintro c hc rfl
      obtain ⟨b, hb, hcb⟩ := mem_flatMap.mp hc
      obtain ⟨row, hrow, hstate, rfl⟩ := mem_credits.mp hcb
      exact hop b hb row hrow hstate (h.names b hb row hrow hstate).symm
    obtain ⟨hcfg, hgen⟩ := fsStep_identity p.store op
    obtain ⟨others', leases', hout⟩ := h.outstanding.stepped op hforeign
    refine ⟨others', leases', hout, fun b hb => Names.of_ticket (h.names b hb) (fun n => ?_)⟩
    show (fsStep p.store op).1.ticket n = p.store.ticket n
    rw [Store.ticket, Store.ticket, hcfg, hgen]

theorem backed_create {cfg : FoConfig} {incarnation : ℕ} {o : Fanout} {s : Store} {v : Observer}
    (hcreate : foCreate cfg incarnation = .ok o) (hsound : Sound s v) :
    Backed ⟨s, o⟩ v.pins v.leases := by
  have hfree : ∀ b ∈ o.branches, ∀ row ∈ b.rows, row.state = .free :=
    fun b hb row hrow => foCreate_free hcreate hb hrow
  constructor
  · show Outstanding s (creditsOf o.branches ++ v.pins) v.leases
    rw [creditsOf_of_free hfree]
    exact ⟨v, hsound, List.Perm.refl _, List.Perm.refl _⟩
  · exact fun b hb row hrow hstate => absurd (hfree b hb row hrow) hstate

end TurboMedia.StreamGraph
