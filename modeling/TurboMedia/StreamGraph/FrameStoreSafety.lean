import TurboMedia.Lib.Credits
import TurboMedia.StreamGraph.FrameStore

/-!
# Lifetimes in the frame store

**Input.**  A configuration that is accepted, and any run of the operations, with
references and tickets of any origin.

**Method.**  An observer who sees operations and answers, and nothing of the
store, keeps the frames that were published, the credits that are outstanding
with the frame of each, and the numbers that were issued.  `Sound` relates the
store to what the observer knows; every operation keeps it.
-/

namespace TurboMedia.StreamGraph

open List StreamGraph Store SlotTable

/-- What can be known from the outside. -/
structure Observer where
  frames : List (FrameRef × List UInt8)
  pins : List (ℕ × FrameRef)
  leases : List (ℕ × FrameRef)
  issued : List ℕ

/-- The frame an outstanding number was given for. -/
def frameOf (live : List (ℕ × FrameRef)) (t : ℕ) : Option FrameRef :=
  (live.find? (fun p => p.1 = t)).map Prod.snd

def Observer.see (v : Observer) : FsOp → FsAnswer → Observer
  | .publishCpu data _ _, .frame ref => { v with frames := (ref, data) :: v.frames }
  | .reservePin ref, .ticket t =>
    { v with
      pins := (t.ticketId, ref) :: v.pins
      issued := t.ticketId :: v.issued }
  | .acquireWeak ref, .ticket t =>
    { v with
      leases := (t.ticketId, ref) :: v.leases
      issued := t.ticketId :: v.issued }
  | .acquirePinned pin, .ticket t =>
    match frameOf v.pins pin.ticketId with
    | none => { v with issued := t.ticketId :: v.issued }
    | some ref =>
      { v with
        leases := (t.ticketId, ref) :: v.leases
        issued := t.ticketId :: v.issued }
  | .releaseLease lease, .status .ok =>
    { v with leases := v.leases.filter (fun p => p.1 ≠ lease.ticketId) }
  | .releasePin pin, .status .ok => { v with pins := v.pins.filter (fun p => p.1 ≠ pin.ticketId) }
  | _, _ => v

/-- The store and its observer. -/
structure Watched where
  store : Store
  observer : Observer

/-- An operation on the store, seen by the observer. -/
def watchedMachine : Machine Watched FsOp FsAnswer where
  step := fun w op =>
    let r := fsStep w.store op
    (⟨r.1, w.observer.see op r.2⟩, r.2)

def freshObserver : Observer :=
  ⟨[], [], [], []⟩

def Holds (s : Store) (ref : FrameRef) : Prop :=
  (s.slots ref.slot).state ≠ .free ∧ s.refOf ref.slot = ref

def Slot.bytes (slot : Slot) : List UInt8 :=
  slot.memory.take slot.length

/-- The store is as the observer has to think it is. -/
structure Sound (s : Store) (v : Observer) : Prop where
  pins : Credits.Booked Credit.token Credit.slot FrameRef.slot s.pins v.pins
    (fun i => (s.slots i).pins)
  leases : Credits.Booked Credit.token Credit.slot FrameRef.slot s.leases v.leases
    (fun i => (s.slots i).leases)
  held : ∀ p ∈ v.pins ++ v.leases, Holds s p.2
  frames : ∀ i, (s.slots i).state ≠ .free → (s.refOf i, (s.slots i).bytes) ∈ v.frames
  lengths : ∀ i, (s.slots i).state ≠ .free → (s.slots i).bytes.length = (s.slots i).length
  frameIds : (v.frames.map (fun f => f.1.frameId)).Nodup
  frameIds_le : ∀ f ∈ v.frames, f.1.frameId ≤ s.nextFrameId
  tickets : ((v.pins ++ v.leases).map Prod.fst).Nodup
  issued : v.issued.Nodup
  issued_le : ∀ t ∈ v.issued, 0 < t ∧ t ≤ s.nextTicketId
  live : ∀ p ∈ v.pins ++ v.leases, p.1 ∈ v.issued

theorem modifySlot_map {α : Type} (s : Store) (k : ℕ) (f : Slot → Slot) (g : Slot → α) :
    (fun i => g ((s.modifySlot k f).slots i)) =
      Function.update (fun i => g (s.slots i)) k (g (f (s.slots k))) := by
  funext i
  by_cases hi : i = k
  · subst hi
    simp [modifySlot]
  · simp [modifySlot, hi]

variable {s : Store}

theorem modifySlot_proj {α : Type} {k : ℕ} {f : Slot → Slot} {g : Slot → α}
    (h : g (f (s.slots k)) = g (s.slots k)) :
    (fun i => g ((s.modifySlot k f).slots i)) = fun i => g (s.slots i) := by
  rw [modifySlot_map, h, Function.update_eq_self]

/-- The slot holds the same frame, or none. -/
structure Keeps (slot slot' : Slot) : Prop where
  memory : slot'.memory = slot.memory
  frameId : slot'.frameId = slot.frameId
  slotGeneration : slot'.slotGeneration = slot.slotGeneration
  sessionGeneration : slot'.sessionGeneration = slot.sessionGeneration
  displayGeneration : slot'.displayGeneration = slot.displayGeneration
  inUse : slot'.state ≠ .free → slot.state ≠ .free ∧ slot'.length = slot.length

/-- All slots of the two stores hold the same frames, or none in the second. -/
structure StoreKeeps (s s' : Store) : Prop where
  config : s'.config = s.config
  generation : s'.generation = s.generation
  slots : ∀ i, Keeps (s.slots i) (s'.slots i)

variable {s' : Store}

theorem StoreKeeps.refOf (h : StoreKeeps s s') (i : ℕ) : s'.refOf i = s.refOf i := by
  simp only [Store.refOf, h.config, h.generation, (h.slots i).slotGeneration, (h.slots i).frameId,
    (h.slots i).sessionGeneration, (h.slots i).displayGeneration]

theorem keeps_refl (slot : Slot) : Keeps slot slot :=
  ⟨rfl, rfl, rfl, rfl, rfl, fun h => ⟨h, rfl⟩⟩

theorem StoreKeeps.of_modifySlot {k : ℕ} {f : Slot → Slot}
    (hcfg : s'.config = s.config) (hgen : s'.generation = s.generation)
    (hslots : s'.slots = (s.modifySlot k f).slots) (hkeeps : Keeps (s.slots k) (f (s.slots k))) :
    StoreKeeps s s' := by
  refine ⟨hcfg, hgen, fun i => ?_⟩
  rw [hslots]
  by_cases hi : i = k
  · subst hi
    simpa [modifySlot] using hkeeps
  · simpa [modifySlot, hi] using keeps_refl (s.slots i)

variable {slot : Slot}

theorem Keeps.bytes {slot' : Slot} (h : Keeps slot slot') (hstate : slot'.state ≠ .free) :
    slot'.bytes = slot.bytes := by
  rw [Slot.bytes, Slot.bytes, (h.inUse hstate).2, h.memory]

variable {v : Observer}

theorem Sound.frames_of_keeps (h : Sound s v)
    (hkeeps : StoreKeeps s s') (i : ℕ) (hi : (s'.slots i).state ≠ .free) :
    (s'.refOf i, (s'.slots i).bytes) ∈ v.frames := by
  rw [hkeeps.refOf, (hkeeps.slots i).bytes hi]
  exact h.frames i ((hkeeps.slots i).inUse hi).1

theorem Sound.lengths_of_keeps (h : Sound s v)
    (hkeeps : StoreKeeps s s') (i : ℕ) (hi : (s'.slots i).state ≠ .free) :
    (s'.slots i).bytes.length = (s'.slots i).length := by
  obtain ⟨hstate, hlen⟩ := (hkeeps.slots i).inUse hi
  rw [(hkeeps.slots i).bytes hi, hlen]
  exact h.lengths i hstate

theorem maybeRetire_keeps (slot : Slot) : Keeps slot (maybeRetire slot) := by
  rw [maybeRetire]
  split_ifs
  · exact ⟨rfl, rfl, rfl, rfl, rfl, fun h => absurd rfl h⟩
  · exact keeps_refl slot

theorem Keeps.trans {a b c : Slot} (h : Keeps a b) (h' : Keeps b c) :
    Keeps a c where
  memory := h'.memory.trans h.memory
  frameId := h'.frameId.trans h.frameId
  slotGeneration := h'.slotGeneration.trans h.slotGeneration
  sessionGeneration := h'.sessionGeneration.trans h.sessionGeneration
  displayGeneration := h'.displayGeneration.trans h.displayGeneration
  inUse := fun hc => ⟨(h.inUse (h'.inUse hc).1).1, (h'.inUse hc).2.trans
    (h.inUse (h'.inUse hc).1).2⟩

theorem addPin_keeps (slot : Slot) : Keeps slot (addPin slot) :=
  ⟨rfl, rfl, rfl, rfl, rfl, fun h => ⟨h, rfl⟩⟩

theorem addLease_keeps (slot : Slot) : Keeps slot (addLease slot) :=
  ⟨rfl, rfl, rfl, rfl, rfl, fun h => ⟨h, rfl⟩⟩

theorem dropPin_keeps (slot : Slot) : Keeps slot (dropPin slot) := by
  have hcount : Keeps slot { slot with pins := Words.pred32 slot.pins } :=
    ⟨rfl, rfl, rfl, rfl, rfl, fun h => ⟨h, rfl⟩⟩
  exact hcount.trans (maybeRetire_keeps _)

theorem dropLease_keeps (slot : Slot) : Keeps slot (dropLease slot) := by
  have hcount : Keeps slot { slot with leases := Words.pred32 slot.leases } :=
    ⟨rfl, rfl, rfl, rfl, rfl, fun h => ⟨h, rfl⟩⟩
  exact hcount.trans (maybeRetire_keeps _)

theorem retireSlot_keeps (h : slot.state ≠ .free) : Keeps slot (retireSlot slot) := by
  have hstate : Keeps slot { slot with state := .retiring } :=
    ⟨rfl, rfl, rfl, rfl, rfl, fun _ => ⟨h, rfl⟩⟩
  exact hstate.trans (maybeRetire_keeps _)

@[simp] theorem maybeRetire_pins (slot : Slot) : (maybeRetire slot).pins = slot.pins := by
  rw [maybeRetire]
  split_ifs <;> rfl

@[simp] theorem maybeRetire_leases (slot : Slot) : (maybeRetire slot).leases = slot.leases := by
  rw [maybeRetire]
  split_ifs <;> rfl

@[simp] theorem dropPin_pins (slot : Slot) : (dropPin slot).pins = Words.pred32 slot.pins :=
  maybeRetire_pins _

@[simp] theorem dropPin_leases (slot : Slot) : (dropPin slot).leases = slot.leases :=
  maybeRetire_leases _

@[simp] theorem dropLease_pins (slot : Slot) : (dropLease slot).pins = slot.pins :=
  maybeRetire_pins _

@[simp] theorem dropLease_leases (slot : Slot) :
    (dropLease slot).leases = Words.pred32 slot.leases :=
  maybeRetire_leases _

@[simp] theorem retireSlot_pins (slot : Slot) : (retireSlot slot).pins = slot.pins :=
  maybeRetire_pins _

@[simp] theorem retireSlot_leases (slot : Slot) : (retireSlot slot).leases = slot.leases :=
  maybeRetire_leases _

theorem maybeRetire_state (h : slot.pins ≠ 0 ∨ slot.leases ≠ 0) :
    maybeRetire slot = slot := by
  rw [maybeRetire, if_neg]
  rintro ⟨_, hpins, hleases⟩
  exact h.elim (fun h => h hpins) (fun h => h hleases)

section Lookups

variable {s : Store}

variable {ref : FrameRef} {i : ℕ}

theorem refIndex_ok (h : refIndex s ref = .ok i) :
    i = ref.slot ∧ Holds s ref ∧ ref.slot < s.config.slotCapacity := by
  rw [refIndex] at h
  dsimp only at h
  split_ifs at h with hver hsize hstore hslot
  cases h
  simp only [not_or, not_not, not_le] at hver hsize hstore hslot
  obtain ⟨hid, hgen, hlt⟩ := hstore
  obtain ⟨hstate, hslotGeneration, hframe, hsess, hdisplay⟩ := hslot
  refine ⟨rfl, ⟨hstate, ?_⟩, hlt⟩
  rw [refOf, hslotGeneration, hframe, hsess, hdisplay, ← hver, ← hsize, ← hid, ← hgen]

theorem refIndex_of_holds (h : Holds s ref)
    (hlt : ref.slot < s.config.slotCapacity) : refIndex s ref = .ok ref.slot := by
  obtain ⟨hstate, href⟩ := h
  have hfields := href
  simp only [refOf] at hfields
  rw [refIndex, ← hfields]
  rw [if_neg (by simp), if_neg (by simp), if_neg (by simpa using hlt),
    if_neg (by simpa using hstate)]

theorem readySlot_ok (h : readySlot s ref = .ok i) :
    i = ref.slot ∧ Holds s ref ∧ ref.slot < s.config.slotCapacity ∧
      (s.slots ref.slot).state = .ready ∧ s.sealed = false := by
  rw [readySlot] at h
  split_ifs at h with hsealed
  cases hidx : refIndex s ref with
  | error e =>
    rw [hidx] at h
    cases h
  | ok j =>
    rw [hidx] at h
    dsimp only at h
    split_ifs at h with hready
    cases h
    obtain ⟨rfl, hhold, hlt⟩ := refIndex_ok hidx
    exact ⟨rfl, hhold, hlt, not_not.mp hready, by simpa using hsealed⟩

variable {rows : List (Option Credit)}

theorem creditLookup_ok {t : Ticket} {row : ℕ} {c : Credit}
    (h : creditLookup s t rows = .ok (row, c)) :
    rows[row]? = some (some c) ∧ c.token = t.ticketId ∧ t = s.ticket t.ticketId := by
  rw [creditLookup] at h
  split_ifs at h with hzero hstore
  cases hfound : findOccupied (fun c => decide (c.token = t.ticketId)) rows with
  | none =>
    rw [hfound] at h
    cases h
  | some e =>
    rw [hfound] at h
    cases h
    obtain ⟨hrow, hp⟩ := findOccupied_some hfound
    simp only [not_or, not_not] at hstore
    refine ⟨hrow, by simpa using hp, ?_⟩
    rw [ticket, ← hstore.1, ← hstore.2]

variable {e : FsStatus}

theorem creditLookup_ne_ok {t : Ticket} (h : creditLookup s t rows = .error e) : e ≠ .ok := by
  rw [creditLookup] at h
  split_ifs at h
  · cases h
    simp
  · cases h
    simp
  · split at h
    · cases h
      simp
    · cases h

theorem creditAlloc_ok {row token : ℕ} (h : creditAlloc s rows = .ok (row, token)) :
    rows[row]? = some none ∧ token = s.nextTicketId + 1 := by
  rw [creditAlloc] at h
  cases hfree : rows.findIdx? Option.isNone with
  | none =>
    rw [hfree] at h
    cases h
  | some i =>
    rw [hfree] at h
    split_ifs at h
    cases h
    obtain ⟨o, hrow, hnone⟩ := findIdx?_getElem? hfree
    cases o with
    | none => exact ⟨hrow, rfl⟩
    | some c => cases hnone

theorem publishSlot_some (h : publishSlot s = some i) :
    (s.slots i).state = .free ∧ i < s.config.slotCapacity := by
  have hfree := find?_some h
  simp only [Bool.and_eq_true, decide_eq_true_eq] at hfree
  obtain ⟨step, hstep, rfl⟩ := mem_map.mp (mem_of_find?_eq_some h)
  exact ⟨hfree.1, Nat.mod_lt _ (Nat.zero_lt_of_lt (mem_range.mp hstep))⟩

theorem publishCpu_cases (s : Store) (data : List UInt8) (session display : ℕ) :
    (∃ e, publishCpu s data session display = (s, .error e)) ∨
      ∃ i, (s.slots i).state = .free ∧ i < s.config.slotCapacity ∧
        publishCpu s data session display = (publishInto s i data session display,
            .ok ((publishInto s i data session display).refOf i)) := by
  rw [publishCpu]
  split
  · exact .inl ⟨_, rfl⟩
  · split
    · exact .inl ⟨_, rfl⟩
    · cases hslot : publishSlot s with
      | none => exact .inl ⟨_, rfl⟩
      | some i =>
        obtain ⟨hfree, hlt⟩ := publishSlot_some hslot
        dsimp only
        split
        · exact .inl ⟨_, rfl⟩
        · exact .inr ⟨i, hfree, hlt, rfl⟩

theorem takePin_error (h : (takePin s i).2 = .error e) :
    (takePin s i).1 = s := by
  rw [takePin] at h ⊢
  cases halloc : creditAlloc s s.pins with
  | error e => rfl
  | ok found =>
    rw [halloc] at h
    cases h

theorem acquireSlot_error (h : (acquireSlot s i).2 = .error e) :
    (acquireSlot s i).1 = s := by
  rw [acquireSlot] at h ⊢
  cases halloc : creditAlloc s s.leases with
  | error e => rfl
  | ok found =>
    rw [halloc] at h
    cases h

theorem reservePin_cases (s : Store) (ref : FrameRef) :
    (∃ e, reservePin s ref = (s, .error e)) ∨ (reservePin s ref = takePin s ref.slot ∧ Holds s ref ∧
        ref.slot < s.config.slotCapacity ∧ (s.slots ref.slot).state = .ready) := by
  rw [reservePin]
  cases hready : readySlot s ref with
  | error e => exact .inl ⟨e, rfl⟩
  | ok i =>
    obtain ⟨rfl, hhold, hlt, hstate, _⟩ := readySlot_ok hready
    exact .inr ⟨rfl, hhold, hlt, hstate⟩

/-- A weak reference is refused, or gives a lease on a frame that is ready. -/
theorem acquireWeak_cases (s : Store) (ref : FrameRef) :
    (∃ e, acquireWeak s ref = (s, .error e)) ∨
      (acquireWeak s ref = acquireSlot s ref.slot ∧ Holds s ref) := by
  rw [acquireWeak]
  cases hready : readySlot s ref with
  | error e => exact .inl ⟨e, rfl⟩
  | ok i =>
    obtain ⟨rfl, hhold, _⟩ := readySlot_ok hready
    exact .inr ⟨rfl, hhold⟩

theorem releasePin_error {pin : Ticket} (h : (releasePin s pin).2 ≠ .ok) :
    (releasePin s pin).1 = s := by
  rw [releasePin] at h ⊢
  cases hlook : creditLookup s pin s.pins with
  | error e => rfl
  | ok found =>
    rw [hlook] at h
    exact absurd rfl h

theorem releaseLease_error {lease : Ticket} (h : (releaseLease s lease).2 ≠ .ok) :
    (releaseLease s lease).1 = s := by
  rw [releaseLease] at h ⊢
  cases hlook : creditLookup s lease s.leases with
  | error e => rfl
  | ok found =>
    rw [hlook] at h
    exact absurd rfl h

end Lookups

section Steps

variable {s : Store} {v : Observer}

theorem Sound.tickets_split (h : Sound s v) :
    (v.pins.map Prod.fst).Nodup ∧ (v.leases.map Prod.fst).Nodup ∧
      ∀ t ∈ v.pins.map Prod.fst, t ∉ v.leases.map Prod.fst := by
  have htickets := h.tickets
  rw [map_append, nodup_append] at htickets
  obtain ⟨hpins, hleases, hapart⟩ := htickets
  exact ⟨hpins, hleases, fun t ht ht' => hapart t ht t ht' rfl⟩

theorem Sound.new_ticket (h : Sound s v) : s.nextTicketId + 1 ∉ v.issued := by
  intro hmem
  have := (h.issued_le _ hmem).2
  omega

variable {s' : Store} {ref : FrameRef}

theorem Holds.of_keeps {s : Store} (h : Holds s ref) (hkeeps : StoreKeeps s s')
    (hstate : (s'.slots ref.slot).state ≠ .free) : Holds s' ref :=
  ⟨hstate, (hkeeps.refOf ref.slot).trans h.2⟩

/-- One number more is outstanding, for a frame that is held. -/
theorem Sound.issue {pins leases : List (ℕ × FrameRef)}
    (h : Sound s v) (hkeeps : StoreKeeps s s') (hframe : s'.nextFrameId = s.nextFrameId)
    (htick : s'.nextTicketId = s.nextTicketId + 1)
    (hstate : ∀ i, (s'.slots i).state = (s.slots i).state) (hhold : Holds s ref)
    (hpins : Credits.Booked Credit.token Credit.slot FrameRef.slot s'.pins pins
      (fun i => (s'.slots i).pins))
    (hleases : Credits.Booked Credit.token Credit.slot FrameRef.slot s'.leases leases
      (fun i => (s'.slots i).leases))
    (hperm : (pins ++ leases).Perm ((s.nextTicketId + 1, ref) :: (v.pins ++ v.leases))) :
    Sound s' { v with
      pins := pins
      leases := leases
      issued := (s.nextTicketId + 1) :: v.issued } where
  pins := hpins
  leases := hleases
  held := by
    intro p hp
    have hin : Holds s p.2 := by
      rcases mem_cons.mp (hperm.mem_iff.mp hp) with rfl | hp
      · exact hhold
      · exact h.held p hp
    exact hin.of_keeps hkeeps (by rw [hstate]; exact hin.1)
  frames := h.frames_of_keeps hkeeps
  lengths := h.lengths_of_keeps hkeeps
  frameIds := h.frameIds
  frameIds_le := by
    rw [hframe]
    exact h.frameIds_le
  tickets := by
    rw [(hperm.map Prod.fst).nodup_iff, map_cons, nodup_cons]
    refine ⟨fun hmem => ?_, h.tickets⟩
    obtain ⟨p, hp, heq⟩ := mem_map.mp hmem
    have hiss := h.live p hp
    rw [heq] at hiss
    exact h.new_ticket hiss
  issued := nodup_cons.mpr ⟨h.new_ticket, h.issued⟩
  issued_le := by
    intro t ht
    rw [htick]
    rcases mem_cons.mp ht with rfl | ht
    · omega
    · have := h.issued_le t ht
      omega
  live := by
    intro p hp
    rcases mem_cons.mp (hperm.mem_iff.mp hp) with rfl | hp
    · simp
    · exact mem_cons_of_mem _ (h.live p hp)

/-- A pin is booked under a new number. -/
theorem Sound.pinTaken {t : Ticket} (h : Sound s v) (hhold : Holds s ref)
    (htake : (takePin s ref.slot).2 = .ok t) :
    t = s.ticket (s.nextTicketId + 1) ∧ Sound (takePin s ref.slot).1 { v with
        pins := (t.ticketId, ref) :: v.pins
        issued := t.ticketId :: v.issued } := by
  rw [takePin] at htake ⊢
  cases halloc : creditAlloc s s.pins with
  | error e =>
    rw [halloc] at htake
    cases htake
  | ok rowToken =>
    obtain ⟨row, token⟩ := rowToken
    obtain ⟨hrow, rfl⟩ := creditAlloc_ok halloc
    rw [halloc] at htake
    cases htake
    refine ⟨rfl, ?_⟩
    have hpins := h.pins.give (c := ⟨s.nextTicketId + 1, ref.slot,
      (s.slots ref.slot).slotGeneration⟩) (b := ref) hrow rfl
    have hleases := h.leases
    rw [← modifySlot_proj (s := s) (k := ref.slot) (f := addPin) (g := Slot.leases) rfl] at hleases
    exact h.issue (StoreKeeps.of_modifySlot rfl rfl rfl (addPin_keeps _)) rfl rfl
      (congrFun (modifySlot_proj (g := Slot.state) rfl)) hhold
      (modifySlot_map s ref.slot addPin Slot.pins ▸ hpins) hleases (List.Perm.refl _)

/-- A lease is booked under a new number. -/
theorem Sound.slotLeased {t : Ticket} (h : Sound s v) (hhold : Holds s ref)
    (htake : (acquireSlot s ref.slot).2 = .ok t) :
    t = s.ticket (s.nextTicketId + 1) ∧ Sound (acquireSlot s ref.slot).1 { v with
        leases := (t.ticketId, ref) :: v.leases
        issued := t.ticketId :: v.issued } := by
  rw [acquireSlot] at htake ⊢
  cases halloc : creditAlloc s s.leases with
  | error e =>
    rw [halloc] at htake
    cases htake
  | ok rowToken =>
    obtain ⟨row, token⟩ := rowToken
    obtain ⟨hrow, rfl⟩ := creditAlloc_ok halloc
    rw [halloc] at htake
    cases htake
    refine ⟨rfl, ?_⟩
    have hleases := h.leases.give (c := ⟨s.nextTicketId + 1, ref.slot,
      (s.slots ref.slot).slotGeneration⟩) (b := ref) hrow rfl
    have hpins := h.pins
    rw [← modifySlot_proj (s := s) (k := ref.slot) (f := addLease) (g := Slot.pins) rfl] at hpins
    exact h.issue (StoreKeeps.of_modifySlot rfl rfl rfl (addLease_keeps _)) rfl rfl
      (congrFun (modifySlot_proj (g := Slot.state) rfl)) hhold hpins
      (modifySlot_map s ref.slot addLease Slot.leases ▸ hleases) perm_middle

theorem counted_of_live
    {live : List (ℕ × FrameRef)} {rows : List (Option Credit)} {count : ℕ → ℕ} {p : ℕ × FrameRef}
    (h : Credits.Booked Credit.token Credit.slot FrameRef.slot rows live count) (hp : p ∈ live) :
    count p.2.slot ≠ 0 := by
  rw [h.counts, ← Nat.pos_iff_ne_zero, countP_pos_iff]
  exact ⟨p, hp, by simp⟩

/-- Numbers that are outstanding may become fewer, and slots without credits end. -/
theorem Sound.shrink {pins leases : List (ℕ × FrameRef)} (h : Sound s v)
    (hkeeps : StoreKeeps s s') (hframe : s'.nextFrameId = s.nextFrameId)
    (htick : s'.nextTicketId = s.nextTicketId)
    (hstate : ∀ i, ((s'.slots i).pins ≠ 0 ∨ (s'.slots i).leases ≠ 0) →
      (s.slots i).state ≠ .free → (s'.slots i).state ≠ .free)
    (hpins : Credits.Booked Credit.token Credit.slot FrameRef.slot s'.pins pins
      (fun i => (s'.slots i).pins))
    (hleases : Credits.Booked Credit.token Credit.slot FrameRef.slot s'.leases leases
      (fun i => (s'.slots i).leases)) (hsub : (pins ++ leases).Sublist (v.pins ++ v.leases)) :
    Sound s' { v with
      pins := pins
      leases := leases } where
  pins := hpins
  leases := hleases
  held := by
    intro p hp
    have hin := h.held p (hsub.subset hp)
    refine hin.of_keeps hkeeps (hstate _ ?_ hin.1)
    rcases mem_append.mp hp with hp | hp
    · exact .inl (counted_of_live hpins hp)
    · exact .inr (counted_of_live hleases hp)
  frames := h.frames_of_keeps hkeeps
  lengths := h.lengths_of_keeps hkeeps
  frameIds := h.frameIds
  frameIds_le := by
    rw [hframe]
    exact h.frameIds_le
  tickets := (hsub.map Prod.fst).nodup h.tickets
  issued := h.issued
  issued_le := by
    rw [htick]
    exact h.issued_le
  live := fun p hp => h.live p (hsub.subset hp)

theorem state_of_modifySlot {k : ℕ} {f : Slot → Slot}
    (hf : ((f (s.slots k)).pins ≠ 0 ∨ (f (s.slots k)).leases ≠ 0) →
      (s.slots k).state ≠ .free → (f (s.slots k)).state ≠ .free) (i : ℕ)
    (hcnt : ((s.modifySlot k f).slots i).pins ≠ 0 ∨ ((s.modifySlot k f).slots i).leases ≠ 0)
    (hi : (s.slots i).state ≠ .free) : ((s.modifySlot k f).slots i).state ≠ .free := by
  by_cases hk : i = k
  · subst hk
    simp only [modifySlot, Function.update_self] at hcnt ⊢
    exact hf hcnt hi
  · simpa [modifySlot, hk] using hi

theorem maybeRetire_waits {slot slot' : Slot} (hstate : slot.state ≠ .free → slot'.state ≠ .free)
    (hcnt : (maybeRetire slot').pins ≠ 0 ∨ (maybeRetire slot').leases ≠ 0)
    (h : slot.state ≠ .free) : (maybeRetire slot').state ≠ .free := by
  rw [maybeRetire_pins, maybeRetire_leases] at hcnt
  rw [maybeRetire_state hcnt]
  exact hstate h

theorem Sound.pinBack {pin : Ticket} (h : Sound s v) (hrel : (releasePin s pin).2 = .ok) :
    (∃ ref, (pin.ticketId, ref) ∈ v.pins) ∧ Sound (releasePin s pin).1
        { v with pins := v.pins.filter (fun p => p.1 ≠ pin.ticketId) } := by
  rw [releasePin] at hrel ⊢
  cases hlook : creditLookup s pin s.pins with
  | error e =>
    rw [hlook] at hrel
    exact absurd hrel (creditLookup_ne_ok hlook)
  | ok found =>
    obtain ⟨row, c⟩ := found
    obtain ⟨hrow, htoken, _⟩ := creditLookup_ok hlook
    obtain ⟨hpinsNodup, _, _⟩ := h.tickets_split
    obtain ⟨ref, href, hslot⟩ := h.pins.exists_live hrow
    have hpins := h.pins.takeBack hpinsNodup hrow
    have hleases := h.leases
    rw [htoken] at href hpins
    rw [← dropPin_pins, ← modifySlot_map s c.slot dropPin Slot.pins] at hpins
    rw [← modifySlot_proj (g := Slot.leases) (dropPin_leases (s.slots c.slot))] at hleases
    exact ⟨⟨ref, href⟩, h.shrink (StoreKeeps.of_modifySlot rfl rfl rfl (dropPin_keeps _)) rfl rfl
      (state_of_modifySlot (maybeRetire_waits (fun h => h))) hpins hleases
      (filter_sublist.append_right _)⟩

theorem Sound.leaseBack {lease : Ticket} (h : Sound s v)
    (hrel : (releaseLease s lease).2 = .ok) :
    (∃ ref, (lease.ticketId, ref) ∈ v.leases) ∧ Sound (releaseLease s lease).1
        { v with leases := v.leases.filter (fun p => p.1 ≠ lease.ticketId) } := by
  rw [releaseLease] at hrel ⊢
  cases hlook : creditLookup s lease s.leases with
  | error e =>
    rw [hlook] at hrel
    exact absurd hrel (creditLookup_ne_ok hlook)
  | ok found =>
    obtain ⟨row, c⟩ := found
    obtain ⟨hrow, htoken, _⟩ := creditLookup_ok hlook
    obtain ⟨_, hleasesNodup, _⟩ := h.tickets_split
    obtain ⟨ref, href, hslot⟩ := h.leases.exists_live hrow
    have hleases := h.leases.takeBack hleasesNodup hrow
    have hpins := h.pins
    rw [htoken] at href hleases
    rw [← dropLease_leases, ← modifySlot_map s c.slot dropLease Slot.leases] at hleases
    rw [← modifySlot_proj (g := Slot.pins) (dropLease_pins (s.slots c.slot))] at hpins
    exact ⟨⟨ref, href⟩, h.shrink (StoreKeeps.of_modifySlot rfl rfl rfl (dropLease_keeps _)) rfl
      rfl (state_of_modifySlot (maybeRetire_waits (fun h => h))) hpins hleases
      (filter_sublist.append_left _)⟩

theorem Sound.retired (h : Sound s v) (ref : FrameRef) : Sound (retire s ref).1 v := by
  rw [retire]
  cases hidx : refIndex s ref with
  | error e => exact h
  | ok i =>
    obtain ⟨rfl, hhold, _⟩ := refIndex_ok hidx
    have hpins := h.pins
    have hleases := h.leases
    rw [← modifySlot_proj (g := Slot.pins) (retireSlot_pins (s.slots ref.slot))] at hpins
    rw [← modifySlot_proj (g := Slot.leases) (retireSlot_leases (s.slots ref.slot))] at hleases
    exact h.shrink (StoreKeeps.of_modifySlot rfl rfl rfl (retireSlot_keeps hhold.1)) rfl rfl
      (state_of_modifySlot (maybeRetire_waits (fun _ => by simp))) hpins hleases
      (List.Sublist.refl _)

theorem fillSlot_bytes (data : List UInt8) (frameId session display : ℕ) (slot : Slot) :
    (fillSlot data frameId session display slot).bytes = data := by
  simp [Slot.bytes, fillSlot]

/-- A free slot takes the new frame. -/
theorem Sound.published {i : ℕ} (h : Sound s v) (hfree : (s.slots i).state = .free)
    (data : List UInt8) (session display : ℕ) :
    Sound (publishInto s i data session display) { v with
        frames := ((publishInto s i data session display).refOf i, data) ::
          v.frames } := by
  have hsame : ∀ j, j ≠ i →
      (publishInto s i data session display).slots j = s.slots j := by
    intro j hj
    simp [publishInto, modifySlot, hj]
  have hnew : (publishInto s i data session display).slots i =
      fillSlot data (s.nextFrameId + 1) session display (s.slots i) := by
    simp [publishInto, modifySlot]
  have href : ∀ j, j ≠ i →
      (publishInto s i data session display).refOf j = s.refOf j := by
    intro j hj
    simp only [refOf, hsame j hj]
    rfl
  have hid : ((publishInto s i data session display).refOf i).frameId =
      s.nextFrameId + 1 := by
    simp [refOf, hnew, fillSlot]
  constructor
  · have hpins := h.pins
    rw [← modifySlot_proj (s := s) (k := i)
      (f := fillSlot data (s.nextFrameId + 1) session display) (g := Slot.pins) rfl] at hpins
    exact hpins
  · have hleases := h.leases
    rw [← modifySlot_proj (s := s) (k := i)
      (f := fillSlot data (s.nextFrameId + 1) session display) (g := Slot.leases) rfl] at hleases
    exact hleases
  · intro p hp
    have hin := h.held p hp
    have hne : p.2.slot ≠ i := by
      rintro rfl
      exact hin.1 hfree
    exact ⟨by rw [hsame _ hne]; exact hin.1, by rw [href _ hne]; exact hin.2⟩
  · intro j hj
    by_cases hji : j = i
    · subst hji
      rw [hnew, fillSlot_bytes]
      exact mem_cons_self
    · rw [hsame j hji] at hj ⊢
      rw [href j hji]
      exact mem_cons_of_mem _ (h.frames j hj)
  · intro j hj
    by_cases hji : j = i
    · subst hji
      rw [hnew, fillSlot_bytes]
      rfl
    · rw [hsame j hji] at hj ⊢
      exact h.lengths j hj
  · rw [map_cons, nodup_cons]
    refine ⟨fun hmem => ?_, h.frameIds⟩
    obtain ⟨f, hf, heq⟩ := mem_map.mp hmem
    have hle := h.frameIds_le f hf
    have hsucc := heq.trans hid
    omega
  · intro f hf
    have hnext : (publishInto s i data session display).nextFrameId =
        s.nextFrameId + 1 := rfl
    rw [hnext]
    rcases mem_cons.mp hf with rfl | hf
    · exact hid.le
    · exact (h.frameIds_le f hf).trans (Nat.le_succ _)
  · exact h.tickets
  · exact h.issued
  · exact h.issued_le
  · exact h.live

theorem Sound.reserved (h : Sound s v) (ref : FrameRef) :
    Sound (reservePin s ref).1
      (v.see (.reservePin ref) (answerWith .ticket (reservePin s ref).2)) := by
  rcases reservePin_cases s ref with ⟨e, hrefused⟩ | ⟨htake, hhold, _⟩
  · rw [hrefused]
    exact h
  · rw [htake]
    cases htick : (takePin s ref.slot).2 with
    | error e =>
      rw [takePin_error htick]
      exact h
    | ok t => exact (h.pinTaken hhold htick).2

theorem Sound.leased (h : Sound s v) (ref : FrameRef) :
    Sound (acquireWeak s ref).1
      (v.see (.acquireWeak ref) (answerWith .ticket (acquireWeak s ref).2)) := by
  rcases acquireWeak_cases s ref with ⟨e, hrefused⟩ | ⟨htake, hhold⟩
  · rw [hrefused]
    exact h
  · rw [htake]
    cases htick : (acquireSlot s ref.slot).2 with
    | error e =>
      rw [acquireSlot_error htick]
      exact h
    | ok t => exact (h.slotLeased hhold htick).2

theorem frameOf_eq_some {live : List (ℕ × FrameRef)} {t : ℕ}
    (hnodup : (live.map Prod.fst).Nodup) (h : (t, ref) ∈ live) : frameOf live t = some ref := by
  rw [frameOf]
  cases hfind : live.find? (fun p => decide (p.1 = t)) with
  | none =>
    rw [find?_eq_none] at hfind
    exact absurd (by simp) (hfind _ h)
  | some p =>
    have hp := find?_some hfind
    have heq : p = (t, ref) := inj_on_of_nodup_map hnodup (mem_of_find?_eq_some hfind)
      h (by simpa using hp)
    rw [heq]
    rfl

theorem Sound.pinLeased (h : Sound s v) (pin : Ticket) :
    Sound (acquirePinned s pin).1
      (v.see (.acquirePinned pin) (answerWith .ticket (acquirePinned s pin).2)) := by
  rw [acquirePinned]
  cases hlook : creditLookup s pin s.pins with
  | error e => exact h
  | ok found =>
    obtain ⟨row, c⟩ := found
    obtain ⟨hrow, htoken, _⟩ := creditLookup_ok hlook
    obtain ⟨ref, href, hslot⟩ := h.pins.exists_live hrow
    rw [htoken] at href
    have hframe := frameOf_eq_some h.tickets_split.1 href
    have hhold := h.held _ (mem_append_left _ href)
    dsimp only
    rw [← hslot]
    cases htick : (acquireSlot s ref.slot).2 with
    | error e =>
      rw [acquireSlot_error htick]
      exact h
    | ok t =>
      have hlease := (h.slotLeased hhold htick).2
      simp only [answerWith, Observer.see, hframe]
      exact hlease

/-- Each operation keeps the store as the observer thinks it is. -/
theorem Sound.step {w : Watched} (h : Sound w.store w.observer) (op : FsOp) :
    Sound (watchedMachine.next w op).store (watchedMachine.next w op).observer := by
  cases op with
  | publishCpu data session display =>
    show Sound (publishCpu w.store data session display).1 (w.observer.see
      (.publishCpu data session display)
      (answerWith .frame (publishCpu w.store data session display).2))
    rcases publishCpu_cases w.store data session display with ⟨e, hrefused⟩ | ⟨i, hfree, _, hfill⟩
    · rw [hrefused]
      exact h
    · rw [hfill]
      exact h.published hfree data session display
  | reservePin ref => exact h.reserved ref
  | acquireWeak ref => exact h.leased ref
  | acquirePinned pin => exact h.pinLeased pin
  | mapCpu lease out => exact h
  | releaseLease lease =>
    show Sound (releaseLease w.store lease).1 (w.observer.see (.releaseLease lease)
      (.status (releaseLease w.store lease).2))
    by_cases hok : (releaseLease w.store lease).2 = .ok
    · rw [hok]
      exact (h.leaseBack hok).2
    · rw [releaseLease_error hok]
      cases hstat : (releaseLease w.store lease).2 with
      | ok => exact absurd hstat hok
      | _ => exact h
  | releasePin pin =>
    show Sound (releasePin w.store pin).1 (w.observer.see (.releasePin pin)
      (.status (releasePin w.store pin).2))
    by_cases hok : (releasePin w.store pin).2 = .ok
    · rw [hok]
      exact (h.pinBack hok).2
    · rw [releasePin_error hok]
      cases hstat : (releasePin w.store pin).2 with
      | ok => exact absurd hstat hok
      | _ => exact h
  | retire ref =>
    have hretire := h.retired ref
    show Sound (retire w.store ref).1 (w.observer.see (.retire ref)
      (.status (retire w.store ref).2))
    exact hretire
  | sealStore =>
    exact ⟨h.pins, h.leases, h.held, h.frames, h.lengths, h.frameIds, h.frameIds_le, h.tickets,
      h.issued, h.issued_le, h.live⟩

theorem fsStep_identity (s : Store) (op : FsOp) :
    (fsStep s op).1.config = s.config ∧ (fsStep s op).1.generation = s.generation := by
  have htakePin : ∀ i, (takePin s i).1.config = s.config ∧
      (takePin s i).1.generation = s.generation := by
    intro i
    rw [takePin]
    split <;> exact ⟨rfl, rfl⟩
  have hacquire : ∀ i, (acquireSlot s i).1.config = s.config ∧
      (acquireSlot s i).1.generation = s.generation := by
    intro i
    rw [acquireSlot]
    split <;> exact ⟨rfl, rfl⟩
  cases op with
  | publishCpu data session display =>
    rcases publishCpu_cases s data session display with ⟨e, hrefused⟩ | ⟨i, _, _, hfill⟩
    · rw [fsStep, hrefused]
      exact ⟨rfl, rfl⟩
    · rw [fsStep, hfill]
      exact ⟨rfl, rfl⟩
  | reservePin ref =>
    rcases reservePin_cases s ref with ⟨e, hrefused⟩ | ⟨htake, _⟩
    · rw [fsStep, hrefused]
      exact ⟨rfl, rfl⟩
    · rw [fsStep, htake]
      exact htakePin _
  | acquireWeak ref =>
    rcases acquireWeak_cases s ref with ⟨e, hrefused⟩ | ⟨htake, _⟩
    · rw [fsStep, hrefused]
      exact ⟨rfl, rfl⟩
    · rw [fsStep, htake]
      exact hacquire _
  | acquirePinned pin =>
    rw [fsStep, acquirePinned]
    split
    · exact ⟨rfl, rfl⟩
    · exact hacquire _
  | mapCpu lease out | sealStore => exact ⟨rfl, rfl⟩
  | releaseLease lease =>
    rw [fsStep, releaseLease]
    split <;> exact ⟨rfl, rfl⟩
  | releasePin pin =>
    rw [fsStep, releasePin]
    split <;> exact ⟨rfl, rfl⟩
  | retire ref =>
    rw [fsStep, retire]
    split <;> exact ⟨rfl, rfl⟩

end Steps

theorem sound_create {config : FsConfig} {generation : ℕ} {buffers : ℕ → List UInt8}
    (h : fsCreate config generation buffers = .ok s) :
    Sound s freshObserver ∧ s.config = config ∧ s.generation = generation := by
  rw [fsCreate] at h
  split_ifs at h with hver hvalid hgen
  cases h
  rw [Bool.not_eq_false, fsConfigValid] at hvalid
  simp only [Bool.and_eq_true, decide_eq_true_eq] at hvalid
  obtain ⟨⟨⟨⟨_, hpins⟩, _⟩, hleases⟩, _⟩ := hvalid
  have hcredits : maxCredits ≤ Words.max32 := by
    decide
  refine ⟨?_, rfl, rfl⟩
  constructor
  · exact Credits.Booked.empty _ (hpins.trans hcredits)
  · exact Credits.Booked.empty _ (hleases.trans hcredits)
  · exact fun p hp => absurd hp not_mem_nil
  · exact fun i hi => absurd rfl hi
  · exact fun i hi => absurd rfl hi
  · exact nodup_nil
  · exact fun f hf => absurd hf not_mem_nil
  · exact nodup_nil
  · exact nodup_nil
  · exact fun t ht => absurd ht not_mem_nil
  · exact fun p hp => absurd hp not_mem_nil

theorem sound_run {config : FsConfig} {generation : ℕ} {buffers : ℕ → List UInt8}
    (h : fsCreate config generation buffers = .ok s) (ops : List FsOp) :
    Sound (watchedMachine.run ⟨s, freshObserver⟩ ops).store
        (watchedMachine.run ⟨s, freshObserver⟩ ops).observer ∧
      (watchedMachine.run ⟨s, freshObserver⟩ ops).store.config = config ∧
      (watchedMachine.run ⟨s, freshObserver⟩ ops).store.generation = generation := by
  refine watchedMachine.run_invariant (P := fun w => Sound w.store w.observer ∧
    w.store.config = config ∧ w.store.generation = generation) ?_ (sound_create h) ops
  rintro w op ⟨hsound, hcfg, hgen⟩
  obtain ⟨hcfg', hgen'⟩ := fsStep_identity w.store op
  exact ⟨hsound.step op, hcfg'.trans hcfg, hgen'.trans hgen⟩

variable {ref : FrameRef}

theorem Sound.bytes_unique {data data' : List UInt8}
    (h : Sound s v) (hf : (ref, data) ∈ v.frames) (hf' : (ref, data') ∈ v.frames) :
    data = data' := by
  have heq : (ref, data) = (ref, data') := inj_on_of_nodup_map h.frameIds hf hf' rfl
  exact congrArg Prod.snd heq

theorem creditLookup_live
    {rows : List (Option Credit)} {live : List (ℕ × FrameRef)} {count : ℕ → ℕ} {t : ℕ} (s : Store)
    (h : Credits.Booked Credit.token Credit.slot FrameRef.slot rows live count)
    (hnodup : (live.map Prod.fst).Nodup) (hpos : 0 < t) (ht : (t, ref) ∈ live) :
    ∃ row c, creditLookup s (s.ticket t) rows = .ok (row, c) ∧ rows[row]? = some (some c) ∧
      c.slot = ref.slot := by
  obtain ⟨row, c, hfound, htoken⟩ := h.exists_row ht
  obtain ⟨hrow, _⟩ := findOccupied_some hfound
  refine ⟨row, c, ?_, hrow, h.place_eq hnodup hrow (by rw [htoken]; exact ht)⟩
  have hzero : ¬ (s.ticket t).ticketId = 0 := Nat.pos_iff_ne_zero.mp hpos
  have hsame : ¬ ((s.ticket t).storeId ≠ s.config.storeId ∨
      (s.ticket t).storeGeneration ≠ s.generation) := by
    simp [ticket]
  have htick : findOccupied (fun c => decide (c.token = (s.ticket t).ticketId)) rows =
      some (row, c) := hfound
  rw [creditLookup, if_neg hzero, if_neg hsame, htick]

/-- A lease shows the bytes of its frame. -/
theorem Sound.mapped {t : ℕ} {out : CpuView}
    (h : Sound s v) (ht : (t, ref) ∈ v.leases) (hver : out.version = fsAbi)
    (hsize : out.size = sizeofCpuView) :
    ∃ data, (ref, data) ∈ v.frames ∧ (mapCpu s (s.ticket t) out).1 = .ok ∧
      (mapCpu s (s.ticket t) out).2.bytes = data ∧
      (mapCpu s (s.ticket t) out).2.sizeBytes = data.length := by
  have hlive := mem_append_right v.pins ht
  have hpos := (h.issued_le _ (h.live _ hlive)).1
  obtain ⟨row, c, hlook, _, hslot⟩ :=
    creditLookup_live s h.leases h.tickets_split.2.1 hpos ht
  have hhold := h.held _ hlive
  have hframe := h.frames ref.slot hhold.1
  have hlen := h.lengths ref.slot hhold.1
  rw [hhold.2] at hframe
  refine ⟨_, hframe, ?_⟩
  rw [mapCpu, if_neg (by simp [hver]), if_neg (by simp [hsize]), hlook]
  dsimp only
  rw [hslot]
  exact ⟨rfl, rfl, hlen.symm⟩

theorem creditLookup_estale
    {rows : List (Option Credit)} {live : List (ℕ × FrameRef)} {count : ℕ → ℕ}
    {t : Ticket} (h : Credits.Booked Credit.token Credit.slot FrameRef.slot rows live count)
    (hpos : 0 < t.ticketId) (hgone : t.ticketId ∉ live.map Prod.fst) :
    creditLookup s t rows = .error .estale := by
  rw [creditLookup, if_neg (Nat.pos_iff_ne_zero.mp hpos)]
  split_ifs
  · rfl
  · rw [h.findOccupied_eq_none hgone]

/-- A ticket that every operation on tickets refuses, leaving the store alone. -/
structure Refused (s : Store) (t : Ticket) : Prop where
  acquirePinned : acquirePinned s t = (s, .error .estale)
  releasePin : releasePin s t = (s, .estale)
  releaseLease : releaseLease s t = (s, .estale)
  mapCpu : ∀ out : CpuView, out.version = fsAbi → out.size = sizeofCpuView →
    (mapCpu s t out).1 = .estale

/-- A number that was given back is refused everywhere. -/
theorem Sound.refused {t : Ticket} (h : Sound s v)
    (hiss : t.ticketId ∈ v.issued) (hgone : t.ticketId ∉ (v.pins ++ v.leases).map Prod.fst) :
    Refused s t := by
  have hpos := (h.issued_le _ hiss).1
  rw [map_append, mem_append, not_or] at hgone
  have hpins := creditLookup_estale (s := s) h.pins hpos hgone.1
  have hleases := creditLookup_estale (s := s) h.leases hpos hgone.2
  constructor
  · rw [acquirePinned, hpins]
  · rw [releasePin, hpins]
  · rw [releaseLease, hleases]
  · intro out hver hsize
    rw [mapCpu, if_neg (by simp [hver]), if_neg (by simp [hsize]), hleases]

/-- **Lifetimes.**  Along every run the counters are the credits outstanding,
numbers are issued once, slots with credits are in use, a lease shows the frame
it was acquired on, references resolve to their own frame, and tickets that were
released are refused. -/
theorem frame_store_lifetimes (config : FsConfig) (generation : ℕ) (buffers : ℕ → List UInt8)
    (s : Store) (hcreate : fsCreate config generation buffers = .ok s) (ops : List FsOp)
    (w : Watched) (hw : w = watchedMachine.run ⟨s, freshObserver⟩ ops) :
    (∀ i, (w.store.slots i).pins = w.observer.pins.countP (fun p => decide (p.2.slot = i)) ∧
        (w.store.slots i).leases = w.observer.leases.countP (fun p => decide (p.2.slot = i))) ∧
      ((w.observer.pins ++ w.observer.leases).map Prod.fst).Nodup ∧ w.observer.issued.Nodup ∧
      (∀ p ∈ w.observer.pins ++ w.observer.leases,
        p.1 ∈ w.observer.issued ∧ (w.store.slots p.2.slot).state ≠ .free) ∧
      (∀ t ref, (t, ref) ∈ w.observer.leases → ∀ out : CpuView, out.version = fsAbi →
        out.size = sizeofCpuView → ∃ data, (ref, data) ∈ w.observer.frames ∧
          (mapCpu w.store ⟨config.storeId, generation, t⟩ out).1 = .ok ∧
          (mapCpu w.store ⟨config.storeId, generation, t⟩ out).2.bytes = data ∧
          (mapCpu w.store ⟨config.storeId, generation, t⟩ out).2.sizeBytes = data.length) ∧
      (∀ ref i, refIndex w.store ref = .ok i →
        (w.store.slots i).state ≠ .free ∧ w.store.refOf i = ref ∧
          ∀ data, (ref, data) ∈ w.observer.frames ↔ data = (w.store.slots i).bytes) ∧
      ∀ t : Ticket, t.ticketId ∈ w.observer.issued →
        t.ticketId ∉ (w.observer.pins ++ w.observer.leases).map Prod.fst → Refused w.store t := by
  obtain ⟨h, hconfig, hgeneration⟩ := sound_run hcreate ops
  rw [← hw] at h hconfig hgeneration
  refine ⟨fun i => ⟨h.pins.counts i, h.leases.counts i⟩, h.tickets, h.issued,
    fun p hp => ⟨h.live p hp, (h.held p hp).1⟩, fun t ref ht out hversion hsize => ?_,
    fun ref i hindex => ?_, fun t hissued hgone => h.refused hissued hgone⟩
  · have hmap := h.mapped ht hversion hsize
    rw [ticket, hconfig, hgeneration] at hmap
    exact hmap
  · obtain ⟨rfl, hholds, _⟩ := refIndex_ok hindex
    have hframe := h.frames ref.slot hholds.1
    rw [hholds.2] at hframe
    refine ⟨hholds.1, hholds.2, fun data => ⟨fun hdata => h.bytes_unique hdata hframe, ?_⟩⟩
    rintro rfl
    exact hframe

/-- One slot of four bytes, two credits of either kind. -/
def smallFsConfig : FsConfig :=
  ⟨sizeofFsConfig, fsAbi, 7, 1, 4, 2, 2, 4⟩

def smallStore : Store where
  config := smallFsConfig
  generation := 5
  nextFrameId := 0
  nextTicketId := 0
  slots := fun _ => ⟨[], 0, 0, 0, 0, 0, 0, 0, .free⟩
  pins := [none, none]
  leases := [none, none]
  cursor := 0
  sealed := false

def firstFrame : FrameRef :=
  ⟨sizeofFrameRef, fsAbi, 7, 5, 0, 1, 1, 3, 4⟩

/-- A frame is leased, retired, and the store tried for another one. -/
def retiredWhileLeased : List FsOp :=
  [.publishCpu [10, 20] 3 4, .acquireWeak firstFrame, .retire firstFrame,
    .publishCpu [30] 3 4, .acquireWeak firstFrame]

theorem frame_store_lifetimes_retired : (1, firstFrame) ∈
        (watchedMachine.run ⟨smallStore, freshObserver⟩ retiredWhileLeased).observer.leases ∧
      ∃ data, (firstFrame, data) ∈
          (watchedMachine.run ⟨smallStore, freshObserver⟩ retiredWhileLeased).observer.frames ∧
        (mapCpu (watchedMachine.run ⟨smallStore, freshObserver⟩ retiredWhileLeased).store
          ⟨7, 5, 1⟩ viewInit).1 = .ok ∧
        (mapCpu (watchedMachine.run ⟨smallStore, freshObserver⟩ retiredWhileLeased).store
          ⟨7, 5, 1⟩ viewInit).2.bytes = data ∧
        (mapCpu (watchedMachine.run ⟨smallStore, freshObserver⟩ retiredWhileLeased).store
          ⟨7, 5, 1⟩ viewInit).2.sizeBytes = data.length := by
  have hlease : (1, firstFrame) ∈
      (watchedMachine.run ⟨smallStore, freshObserver⟩ retiredWhileLeased).observer.leases := by
    decide
  have hrun := frame_store_lifetimes smallFsConfig 5 (fun _ => []) smallStore rfl
    retiredWhileLeased _ rfl
  exact ⟨hlease, hrun.2.2.2.2.1 1 firstFrame hlease viewInit rfl rfl⟩

end TurboMedia.StreamGraph
