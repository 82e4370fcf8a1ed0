import TurboMedia.StreamGraph.FrameStoreSafety

/-!
# Credits outstanding on a frame store

What a component that works on a frame store has to know of it: which pins and
leases are outstanding, each with its number and its frame (`Outstanding`), and
that the operations on credits leave the frames that are ready alone (`Calm`).

**Method.**  Both are read off the invariant of the store, so that the components
above it reason on lists of credits, up to permutation.
-/

namespace TurboMedia.StreamGraph

open List

def Outstanding (s : Store) (pins leases : List (ℕ × FrameRef)) : Prop :=
  ∃ v, Sound s v ∧ v.pins.Perm pins ∧ v.leases.Perm leases

/-- The second store has the identity of the first and the same frames ready. -/
structure Calm (s s' : Store) : Prop where
  keeps : StoreKeeps s s'
  sealed : s'.sealed = s.sealed
  nextFrameId : s'.nextFrameId = s.nextFrameId
  ready : ∀ i, (s'.slots i).state = .ready ↔ (s.slots i).state = .ready

theorem calm_refl (s : Store) :
    Calm s s where
  keeps := ⟨rfl, rfl, fun i => keeps_refl (s.slots i)⟩
  sealed := rfl
  nextFrameId := rfl
  ready := fun _ => Iff.rfl

theorem Calm.trans {s s' s'' : Store} (h : Calm s s') (h' : Calm s' s'') :
    Calm s s'' where
  keeps := ⟨h'.keeps.config.trans h.keeps.config, h'.keeps.generation.trans h.keeps.generation,
    fun i => (h.keeps.slots i).trans (h'.keeps.slots i)⟩
  sealed := h'.sealed.trans h.sealed
  nextFrameId := h'.nextFrameId.trans h.nextFrameId
  ready := fun i => (h'.ready i).trans (h.ready i)

theorem Calm.ticket {s s' : Store} (h : Calm s s') (n : ℕ) : s'.ticket n = s.ticket n := by
  rw [Store.ticket, Store.ticket, h.keeps.config, h.keeps.generation]

theorem maybeRetire_ready (slot : Slot) :
    (maybeRetire slot).state = .ready ↔ slot.state = .ready := by
  rw [maybeRetire]
  split_ifs with h
  · simp [h.1]
  · exact Iff.rfl

theorem Calm.of_modifySlot {s s' : Store} {k : ℕ} {f : Slot → Slot} (hcfg : s'.config = s.config)
    (hgen : s'.generation = s.generation) (hslots : s'.slots = (s.modifySlot k f).slots)
    (hsealed : s'.sealed = s.sealed) (hframe : s'.nextFrameId = s.nextFrameId)
    (hkeeps : Keeps (s.slots k) (f (s.slots k)))
    (hready : (f (s.slots k)).state = .ready ↔ (s.slots k).state = .ready) :
    Calm s s' where
  keeps := StoreKeeps.of_modifySlot hcfg hgen hslots hkeeps
  sealed := hsealed
  nextFrameId := hframe
  ready := by
    intro i
    rw [hslots]
    by_cases hi : i = k
    · subst hi
      simpa [Store.modifySlot] using hready
    · simp [Store.modifySlot, hi]

variable (s : Store)
include s

theorem takePin_calm (i : ℕ) : Calm s (takePin s i).1 := by
  rw [takePin]
  split
  · exact calm_refl s
  · exact Calm.of_modifySlot rfl rfl rfl rfl rfl (addPin_keeps _) Iff.rfl

theorem acquireSlot_calm (i : ℕ) : Calm s (acquireSlot s i).1 := by
  rw [acquireSlot]
  split
  · exact calm_refl s
  · exact Calm.of_modifySlot rfl rfl rfl rfl rfl (addLease_keeps _) Iff.rfl

theorem reservePin_calm (ref : FrameRef) : Calm s (reservePin s ref).1 := by
  rw [reservePin]
  split
  · exact calm_refl s
  · exact takePin_calm s _

theorem acquireWeak_calm (ref : FrameRef) : Calm s (acquireWeak s ref).1 := by
  rw [acquireWeak]
  split
  · exact calm_refl s
  · exact acquireSlot_calm s _

theorem acquirePinned_calm (pin : Ticket) : Calm s (acquirePinned s pin).1 := by
  rw [acquirePinned]
  split
  · exact calm_refl s
  · exact acquireSlot_calm s _

theorem releasePin_calm (pin : Ticket) : Calm s (releasePin s pin).1 := by
  rw [releasePin]
  split
  · exact calm_refl s
  · exact Calm.of_modifySlot rfl rfl rfl rfl rfl (dropPin_keeps _) (maybeRetire_ready _)

theorem releaseLease_calm (lease : Ticket) : Calm s (releaseLease s lease).1 := by
  rw [releaseLease]
  split
  · exact calm_refl s
  · exact Calm.of_modifySlot rfl rfl rfl rfl rfl (dropLease_keeps _) (maybeRetire_ready _)

omit s

section Outstanding

variable {s : Store} {pins pins' leases leases' : List (ℕ × FrameRef)}

variable (h : Outstanding s pins leases)
include h

theorem Outstanding.perm (hpins : pins.Perm pins')
    (hleases : leases.Perm leases') : Outstanding s pins' leases' := by
  obtain ⟨v, hsound, hv, hv'⟩ := h
  exact ⟨v, hsound, hv.trans hpins, hv'.trans hleases⟩

theorem Outstanding.counts (i : ℕ) :
    (s.slots i).pins = pins.countP (fun p => decide (p.2.slot = i)) ∧
      (s.slots i).leases = leases.countP (fun p => decide (p.2.slot = i)) := by
  obtain ⟨v, hsound, hv, hv'⟩ := h
  rw [← hv.countP_eq, ← hv'.countP_eq]
  exact ⟨hsound.pins.counts i, hsound.leases.counts i⟩

theorem Outstanding.nodup :
    (pins.map Prod.fst).Nodup ∧ (leases.map Prod.fst).Nodup := by
  obtain ⟨v, hsound, hv, hv'⟩ := h
  obtain ⟨hpins, hleases, _⟩ := hsound.tickets_split
  exact ⟨(hv.map Prod.fst).nodup_iff.mp hpins, (hv'.map Prod.fst).nodup_iff.mp hleases⟩

variable {p : ℕ × FrameRef}

theorem Outstanding.number
    (hp : p ∈ pins ++ leases) : 0 < p.1 ∧ p.1 ≤ s.nextTicketId := by
  obtain ⟨v, hsound, hv, hv'⟩ := h
  exact hsound.issued_le _ (hsound.live p ((hv.append hv').mem_iff.mpr hp))

theorem Outstanding.holds (hp : p ∈ pins ++ leases) : Holds s p.2 := by
  obtain ⟨v, hsound, hv, hv'⟩ := h
  exact hsound.held p ((hv.append hv').mem_iff.mpr hp)

/-- An outstanding pin is found under its ticket, on the slot of its frame. -/
theorem Outstanding.lookup_pin (hp : p ∈ pins) :
    ∃ row c, creditLookup s (s.ticket p.1) s.pins = .ok (row, c) ∧ c.slot = p.2.slot := by
  have hpos := (h.number (mem_append_left leases hp)).1
  obtain ⟨v, hsound, hv, _⟩ := h
  have hmem : (p.1, p.2) ∈ v.pins := hv.mem_iff.mpr hp
  obtain ⟨row, c, hlook, _, hslot⟩ := creditLookup_live s hsound.pins hsound.tickets_split.1 hpos
    hmem
  exact ⟨row, c, hlook, hslot⟩

theorem Outstanding.lookup_lease (hp : p ∈ leases) :
    ∃ row c, creditLookup s (s.ticket p.1) s.leases = .ok (row, c) ∧ c.slot = p.2.slot := by
  have hpos := (h.number (mem_append_right pins hp)).1
  obtain ⟨v, hsound, _, hv⟩ := h
  have hmem : (p.1, p.2) ∈ v.leases := hv.mem_iff.mpr hp
  obtain ⟨row, c, hlook, _, hslot⟩ := creditLookup_live s hsound.leases hsound.tickets_split.2.1
    hpos hmem
  exact ⟨row, c, hlook, hslot⟩

end Outstanding

variable {s : Store} {pins leases : List (ℕ × FrameRef)} {n : ℕ} {ref : FrameRef} {t : Ticket}

theorem reservePin_error {e : FsStatus} (h : (reservePin s ref).2 = .error e) :
    (reservePin s ref).1 = s := by
  rcases reservePin_cases s ref with ⟨e', href⟩ | ⟨htake, _⟩
  · rw [href]
  · rw [htake] at h ⊢
    exact takePin_error h

theorem takePin_nextTicketId {i : ℕ} (h : (takePin s i).2 = .ok t) :
    (takePin s i).1.nextTicketId = s.nextTicketId + 1 := by
  rw [takePin] at h ⊢
  cases halloc : creditAlloc s s.pins with
  | error e =>
    rw [halloc] at h
    cases h
  | ok found => exact (creditAlloc_ok halloc).2

/-- A reservation that succeeds is a new pin on the frame, which is ready. -/
theorem Outstanding.reserved (h : Outstanding s pins leases)
    (hok : (reservePin s ref).2 = .ok t) :
    t = s.ticket (s.nextTicketId + 1) ∧ (s.slots ref.slot).state = .ready ∧
      (reservePin s ref).1.nextTicketId = s.nextTicketId + 1 ∧
      Outstanding (reservePin s ref).1 ((s.nextTicketId + 1, ref) :: pins) leases := by
  obtain ⟨v, hsound, hv, hv'⟩ := h
  rcases reservePin_cases s ref with ⟨e, href⟩ | ⟨htake, hhold, _, hready⟩
  · rw [href] at hok
    cases hok
  · rw [htake] at hok ⊢
    obtain ⟨rfl, hsound'⟩ := hsound.pinTaken hhold hok
    exact ⟨rfl, hready, takePin_nextTicketId hok, _, hsound', hv.cons _, hv'⟩

theorem Outstanding.pinBack (h : Outstanding s ((n, ref) :: pins) leases) :
    (releasePin s (s.ticket n)).2 = .ok ∧
      Outstanding (releasePin s (s.ticket n)).1 pins leases := by
  obtain ⟨row, c, hlook, _⟩ := h.lookup_pin mem_cons_self
  obtain ⟨v, hsound, hv, hv'⟩ := h
  have hok : (releasePin s (s.ticket n)).2 = .ok := by
    rw [releasePin, hlook]
  exact ⟨hok, _, (hsound.pinBack hok).2, Credits.filter_ne_perm hsound.tickets_split.1 hv, hv'⟩

theorem Outstanding.pinLeased (h : Outstanding s ((n, ref) :: pins) leases)
    (hok : (acquirePinned s (s.ticket n)).2 = .ok t) :
    t = s.ticket (s.nextTicketId + 1) ∧
      Outstanding (acquirePinned s (s.ticket n)).1 ((n, ref) :: pins)
        ((s.nextTicketId + 1, ref) :: leases) := by
  obtain ⟨row, c, hlook, hslot⟩ := h.lookup_pin mem_cons_self
  have hhold := h.holds mem_cons_self
  obtain ⟨v, hsound, hv, hv'⟩ := h
  rw [acquirePinned, hlook] at hok ⊢
  dsimp only at hok ⊢ hslot
  rw [hslot] at hok ⊢
  obtain ⟨rfl, hsound'⟩ := hsound.slotLeased hhold hok
  exact ⟨rfl, _, hsound', hv, hv'.cons _⟩

theorem acquirePinned_error {pin : Ticket} {e : FsStatus} (h : (acquirePinned s pin).2 = .error e) :
    (acquirePinned s pin).1 = s := by
  rw [acquirePinned] at h ⊢
  cases hlook : creditLookup s pin s.pins with
  | error e' => rfl
  | ok found =>
    rw [hlook] at h
    exact acquireSlot_error h

theorem Outstanding.leased (h : Outstanding s pins leases)
    (hok : (acquireWeak s ref).2 = .ok t) :
    t = s.ticket (s.nextTicketId + 1) ∧ Outstanding (acquireWeak s ref).1 pins
        ((s.nextTicketId + 1, ref) :: leases) := by
  obtain ⟨v, hsound, hv, hv'⟩ := h
  rcases acquireWeak_cases s ref with ⟨e, href⟩ | ⟨htake, hhold⟩
  · rw [href] at hok
    cases hok
  · rw [htake] at hok ⊢
    obtain ⟨rfl, hsound'⟩ := hsound.slotLeased hhold hok
    exact ⟨rfl, _, hsound', hv, hv'.cons _⟩

theorem acquireWeak_error {e : FsStatus} (h : (acquireWeak s ref).2 = .error e) :
    (acquireWeak s ref).1 = s := by
  rcases acquireWeak_cases s ref with ⟨e', href⟩ | ⟨htake, _⟩
  · rw [href]
  · rw [htake] at h ⊢
    exact acquireSlot_error h

theorem Outstanding.leaseBack (h : Outstanding s pins ((n, ref) :: leases)) :
    (releaseLease s (s.ticket n)).2 = .ok ∧
      Outstanding (releaseLease s (s.ticket n)).1 pins leases := by
  obtain ⟨row, c, hlook, _⟩ := h.lookup_lease mem_cons_self
  obtain ⟨v, hsound, hv, hv'⟩ := h
  have hok : (releaseLease s (s.ticket n)).2 = .ok := by
    rw [releaseLease, hlook]
  exact ⟨hok, _, (hsound.leaseBack hok).2, hv,
    Credits.filter_ne_perm hsound.tickets_split.2.1 hv'⟩

theorem Outstanding.retired (h : Outstanding s pins leases) (ref : FrameRef) :
    Outstanding (retire s ref).1 pins leases := by
  obtain ⟨v, hsound, hv, hv'⟩ := h
  exact ⟨v, hsound.retired ref, hv, hv'⟩

theorem Outstanding.published {i : ℕ} (h : Outstanding s pins leases)
    (hfree : (s.slots i).state = .free) (data : List UInt8) (session display : ℕ) :
    Outstanding (publishInto s i data session display) pins leases := by
  obtain ⟨v, hsound, hv, hv'⟩ := h
  exact ⟨_, hsound.published hfree data session display, hv, hv'⟩

theorem releasePin_ticket {pin : Ticket} (h : (releasePin s pin).2 = .ok) :
    pin = s.ticket pin.ticketId := by
  rw [releasePin] at h
  cases hlook : creditLookup s pin s.pins with
  | error e =>
    rw [hlook] at h
    exact absurd h (creditLookup_ne_ok hlook)
  | ok found => exact (creditLookup_ok hlook).2.2

/-- An operation of others on the store leaves `own` alone, unless it gives one of
these pins back. -/
theorem Outstanding.stepped {own others : List (ℕ × FrameRef)}
    (h : Outstanding s (own ++ others) leases) (op : FsOp)
    (hforeign : ∀ p ∈ own, op ≠ .releasePin (s.ticket p.1)) :
    ∃ others' leases', Outstanding (fsStep s op).1 (own ++ others') leases' := by
  obtain ⟨v, hsound, hv, _⟩ := h
  have hstep : Sound (fsStep s op).1 (v.see op (fsStep s op).2) :=
    hsound.step (w := ⟨s, v⟩) op
  have hpins : ∃ others', (v.see op (fsStep s op).2).pins.Perm (own ++ others') := by
    cases op with
    | publishCpu data session display =>
      refine ⟨others, ?_⟩
      cases hans : (fsStep s (.publishCpu data session display)).2 <;> exact hv
    | reservePin ref =>
      cases hans : (fsStep s (.reservePin ref)).2 with
      | ticket t => exact ⟨(t.ticketId, ref) :: others, (hv.cons _).trans perm_middle.symm⟩
      | _ => exact ⟨others, hv⟩
    | acquireWeak ref =>
      refine ⟨others, ?_⟩
      cases hans : (fsStep s (.acquireWeak ref)).2 <;> exact hv
    | acquirePinned pin =>
      refine ⟨others, ?_⟩
      cases hans : (fsStep s (.acquirePinned pin)).2 with
      | ticket t =>
        rw [Observer.see]
        split <;> exact hv
      | _ => exact hv
    | mapCpu lease out | retire ref | sealStore => exact ⟨others, hv⟩
    | releaseLease lease =>
      refine ⟨others, ?_⟩
      show (v.see (.releaseLease lease)
        (.status (releaseLease s lease).2)).pins.Perm _
      cases hstat : (releaseLease s lease).2 <;> exact hv
    | releasePin pin =>
      show ∃ others', (v.see (.releasePin pin)
        (.status (releasePin s pin).2)).pins.Perm (own ++ others')
      cases hstat : (releasePin s pin).2 with
      | ok =>
        have hown : own.filter (fun p => p.1 ≠ pin.ticketId) = own := by
          rw [filter_eq_self]
          intro p hp
          have hpin := releasePin_ticket hstat
          rw [decide_eq_true_eq]
          rintro heq
          exact hforeign p hp (by rw [heq, ← hpin])
        refine ⟨others.filter (fun p => p.1 ≠ pin.ticketId), ?_⟩
        have hfilter := hv.filter (fun p => p.1 ≠ pin.ticketId)
        rw [filter_append, hown] at hfilter
        exact hfilter
      | _ => exact ⟨others, hv⟩
  obtain ⟨others', hothers⟩ := hpins
  exact ⟨others', _, _, hstep, hothers, List.Perm.refl _⟩

end TurboMedia.StreamGraph
