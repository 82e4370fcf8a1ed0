import TurboMedia.Lib.Ring

/-!
# Frame queues in two rings

The part that the video and the audio queue of `client_processing_queues.c`
share: frame records in a ring of slots, payloads in a ring of bytes, and the
counters.  `enqueue` and `dequeue` are the stretches of code that both `admit`
and both `pop` functions end with; the checks before them differ and are in the
next module.

A queue represents a list of frames (`Represents`) when its slots are the layout
of that list from some base offset on and its storage holds the payloads one
behind the other from there.
-/

namespace TurboMedia.Client

open List Ring

/-- Arithmetic of `size_t`. -/
def wrap (n : ℕ) : ℕ :=
  n % 2 ^ 64

/-- A slot: where the payload lies, and what is kept about the frame. -/
structure Slot (μ : Type) where
  offset : ℕ
  size : ℕ
  info : μ

/-- The state of one queue. -/
structure FrameRing (μ : Type) where
  slots : List (Slot μ)
  storage : List UInt8
  head : ℕ
  storageTail : ℕ
  queuedFrames : ℕ
  queuedBytes : ℕ
  queuedDurationUs : UInt64
  admittedFrames : UInt64
  rejectedFrames : UInt64

/-- The size of the two rings: `queue_capacity` slots, `queue_max_bytes` bytes.
A size that was allocated is at most `PTRDIFF_MAX`, and the number of slots
passed the overflow check. -/
structure Room where
  capacity : ℕ
  maxBytes : ℕ
  capacity_pos : 0 < capacity
  capacity_le : capacity ≤ (2 ^ 64 - 1) / 32
  maxBytes_pos : 0 < maxBytes
  maxBytes_le : maxBytes ≤ 2 ^ 63 - 1

section Code

variable {μ : Type} [Inhabited μ]

/-- A slot after `memset` to zero. -/
def Slot.zero : Slot μ :=
  { offset := 0, size := 0, info := default }

/-- `turbo_client_processing_ring_copy_in`. -/
def ringCopyIn (storage : List UInt8) (capacity offset : ℕ) (source : List UInt8) :
    List UInt8 :=
  if source.length = 0 then storage
  else
    let first := min (capacity - offset) source.length
    let storage := blit storage offset (source.take first)
    if first < source.length then blit storage 0 (source.drop first)
    else storage

/-- `turbo_client_processing_ring_copy_out`. -/
def ringCopyOut (storage : List UInt8) (capacity offset size : ℕ) : List UInt8 :=
  if size = 0 then []
  else
    let first := min (capacity - offset) size
    let front := (storage.drop offset).take first
    if first < size then front ++ storage.take (size - first)
    else front

def FrameRing.headSlot (q : FrameRing μ) : Slot μ :=
  q.slots.getD q.head Slot.zero

variable (room : Room)

/-- The slot of the newest frame of a queue that is not empty. -/
def FrameRing.newestSlot (q : FrameRing μ) : Slot μ :=
  q.slots.getD (wrap (q.head + q.queuedFrames - 1) % room.capacity) Slot.zero

/-- The end of the admit functions: payload and slot are written, the counters
follow. -/
def enqueue (q : FrameRing μ) (payload : List UInt8) (info : μ)
    (duration : UInt64) : FrameRing μ :=
  { q with
    storage := ringCopyIn q.storage room.maxBytes q.storageTail payload
    slots := q.slots.set (wrap (q.head + q.queuedFrames) % room.capacity)
      { offset := q.storageTail, size := payload.length, info := info }
    storageTail := wrap (q.storageTail + payload.length) % room.maxBytes
    queuedFrames := q.queuedFrames + 1
    queuedBytes := q.queuedBytes + payload.length
    queuedDurationUs := duration
    admittedFrames := q.admittedFrames + 1 }

/-- The end of the pop functions before the duration is recomputed: the slot is
cleared, and an empty queue starts again at zero. -/
def dequeue (q : FrameRing μ) : FrameRing μ :=
  let q :=
    { q with
      queuedBytes := q.queuedBytes - q.headSlot.size
      slots := q.slots.set q.head Slot.zero
      head := wrap (q.head + 1) % room.capacity
      queuedFrames := q.queuedFrames - 1 }
  if q.queuedFrames = 0 then { q with head := 0, storageTail := 0 }
  else q

/-- The clear functions: `memset` of the slots, and everything but the totals
reset. -/
def clearRing (q : FrameRing μ) : FrameRing μ :=
  { q with
    slots := replicate room.capacity Slot.zero
    head := 0
    storageTail := 0
    queuedFrames := 0
    queuedBytes := 0
    queuedDurationUs := 0 }

/-- A queue after allocation; the storage is not initialised. -/
def emptyRing (garbage : ℕ → UInt8) : FrameRing μ :=
  { slots := replicate room.capacity Slot.zero
    storage := (List.range room.maxBytes).map garbage
    head := 0
    storageTail := 0
    queuedFrames := 0
    queuedBytes := 0
    queuedDurationUs := 0
    admittedFrames := 0
    rejectedFrames := 0 }

end Code

section Copies

variable {storage source : List UInt8} {capacity offset : ℕ}

variable (hcap : storage.length = capacity)
include hcap

variable (hoff : offset < capacity)
include hoff

theorem ringCopyIn_length (hlen : source.length ≤ capacity) :
    (ringCopyIn storage capacity offset source).length = capacity := by
  rw [ringCopyIn]
  split_ifs
  · exact hcap
  · dsimp only
    have hfirst : (blit storage offset
        (source.take (min (capacity - offset) source.length))).length = capacity := by
      rw [length_blit (by rw [length_take]; omega), hcap]
    split_ifs
    · rw [length_blit (by rw [length_drop]; omega), hfirst]
    · exact hfirst

theorem ringCopyIn_holds (hlen : source.length ≤ capacity) :
    Ring.Holds (ringCopyIn storage capacity offset source) offset source := by
  intro p hp
  rw [ringCopyIn_length hcap hoff hlen, index_eq hoff (by omega), ringCopyIn,
    if_neg (by omega)]
  dsimp only
  set first := min (capacity - offset) source.length with hfirst
  have hblit : offset + (source.take first).length ≤ storage.length := by
    rw [length_take]
    omega
  have hblit' : 0 + (source.drop first).length ≤
      (blit storage offset (source.take first)).length := by
    rw [length_blit hblit, length_drop]
    omega
  by_cases hwrap : offset + p < capacity
  · have hpf : p < (source.take first).length := by
      rw [length_take]
      omega
    have hinside : (blit storage offset (source.take first))[offset + p]? = source[p]? := by
      rw [getElem?_blit_inside hblit hpf, getElem?_take, if_pos (by omega)]
    rw [if_pos hwrap]
    split_ifs with hmore
    · rw [getElem?_blit_outside hblit' (by rw [length_drop]; omega), hinside]
    · exact hinside
  · rw [if_neg hwrap, if_pos (by omega)]
    have hpf : p - first < (source.drop first).length := by
      rw [length_drop]
      omega
    have hidx : offset + p - capacity = 0 + (p - first) := by omega
    rw [hidx, getElem?_blit_inside hblit' hpf, getElem?_drop]
    congr 1
    omega

theorem ringCopyIn_outside {p : ℕ} (hlen : source.length ≤ p) (hp : p < capacity) :
    (ringCopyIn storage capacity offset source)[(offset + p) % capacity]? =
      storage[(offset + p) % capacity]? := by
  rw [index_eq hoff hp, ringCopyIn]
  by_cases hempty : source.length = 0
  · rw [if_pos hempty]
  · rw [if_neg hempty]
    dsimp only
    set first := min (capacity - offset) source.length with hfirst
    have hblit : offset + (source.take first).length ≤ storage.length := by
      rw [length_take]
      omega
    have hblit' : 0 + (source.drop first).length ≤
        (blit storage offset (source.take first)).length := by
      rw [length_blit hblit, length_drop]
      omega
    have houtside : ∀ i, i < offset ∨ offset + first ≤ i →
        (blit storage offset (source.take first))[i]? = storage[i]? := by
      intro i hi
      rw [getElem?_blit_outside hblit]
      rw [length_take]
      omega
    split_ifs with hmore hwrap hwrap
    · omega
    · rw [getElem?_blit_outside hblit' (by rw [length_drop]; omega),
        houtside _ (by omega)]
    · rw [houtside _ (by omega)]
    · rw [houtside _ (by omega)]

theorem ringCopyOut_eq (hlen : source.length ≤ capacity) (h : Ring.Holds storage offset source) :
    ringCopyOut storage capacity offset source.length = source := by
  rw [ringCopyOut]
  split
  next hempty => rw [length_eq_zero_iff.mp hempty]
  · dsimp only
    set first := min (capacity - offset) source.length with hfirst
    have hread : ∀ p < source.length,
        storage[if offset + p < capacity then offset + p else offset + p - capacity]? =
          source[p]? := by
      intro p hp
      rw [← index_eq hoff (by omega), ← hcap]
      exact h p hp
    apply ext_getElem?
    intro p
    have hfront : ∀ p < first, ((storage.drop offset).take first)[p]? = source[p]? := by
      intro p hp
      rw [getElem?_take, if_pos hp, getElem?_drop, ← hread p (by omega),
        if_pos (by omega)]
    have hflen : ((storage.drop offset).take first).length = first := by
      rw [length_take, length_drop]
      omega
    by_cases hp : p < first
    · split_ifs
      · rw [getElem?_append_left (by omega), hfront p hp]
      · exact hfront p hp
    · by_cases hps : p < source.length
      · rw [if_pos (by omega), getElem?_append_right (by omega), hflen, getElem?_take,
          if_pos (by omega), ← hread p hps, if_neg (by omega)]
        congr 1
        omega
      · rw [getElem?_eq_none (l := source) (by omega), getElem?_eq_none]
        split_ifs
        · rw [length_append, hflen, length_take]
          omega
        · omega

end Copies

variable {μ : Type}

/-- A queued frame: its payload and what is kept about it. -/
structure Frame (μ : Type) where
  payload : List UInt8
  info : μ

def totalBytes (frames : List (Frame μ)) : ℕ :=
  (frames.map (fun f => f.payload.length)).sum

def payloads (frames : List (Frame μ)) : List UInt8 :=
  frames.flatMap Frame.payload

/-- The slots of frames whose payloads lie in the ring from `base` on. -/
def layout (maxBytes : ℕ) : ℕ → List (Frame μ) → List (Slot μ)
  | _, [] => []
  | base, f :: fs =>
    { offset := base % maxBytes, size := f.payload.length, info := f.info } ::
      layout maxBytes (base + f.payload.length) fs

/-- The queue represents the list of frames. -/
structure Represents (room : Room) (q : FrameRing μ) (base : ℕ) (frames : List (Frame μ)) :
    Prop where
  slots_length : q.slots.length = room.capacity
  storage_length : q.storage.length = room.maxBytes
  head_lt : q.head < room.capacity
  queuedFrames : q.queuedFrames = frames.length
  frames_le : frames.length ≤ room.capacity
  queuedBytes : q.queuedBytes = totalBytes frames
  bytes_le : totalBytes frames ≤ room.maxBytes
  slots : Ring.Holds q.slots q.head (layout room.maxBytes base frames)
  bytes : Ring.Holds q.storage base (payloads frames)
  storageTail : q.storageTail = (base + totalBytes frames) % room.maxBytes

@[simp] theorem totalBytes_cons (f : Frame μ) (fs : List (Frame μ)) :
    totalBytes (f :: fs) = f.payload.length + totalBytes fs := by
  simp [totalBytes]

@[simp] theorem totalBytes_append (fs gs : List (Frame μ)) :
    totalBytes (fs ++ gs) = totalBytes fs + totalBytes gs := by
  simp [totalBytes]

@[simp] theorem totalBytes_nil : totalBytes ([] : List (Frame μ)) = 0 := by
  rfl

theorem length_payloads (fs : List (Frame μ)) : (payloads fs).length = totalBytes fs := by
  simp [payloads, totalBytes, length_flatMap]

@[simp] theorem length_layout (n base : ℕ) (fs : List (Frame μ)) :
    (layout n base fs).length = fs.length := by
  induction fs generalizing base with
  | nil => rfl
  | cons f fs ih => simp [layout, ih]

theorem layout_append (n base : ℕ) (fs gs : List (Frame μ)) :
    layout n base (fs ++ gs) = layout n base fs ++ layout n (base + totalBytes fs) gs := by
  induction fs generalizing base with
  | nil => rfl
  | cons f fs ih => simp [layout, ih, Nat.add_assoc]

variable {room : Room} {q : FrameRing μ} {base : ℕ} {frames : List (Frame μ)}

theorem wrap_slots {i : ℕ} (hhead : q.head < room.capacity) (hi : i ≤ room.capacity) :
    wrap (q.head + i) = q.head + i := by
  have hle := room.capacity_le
  rw [wrap, Nat.mod_eq_of_lt]
  omega

theorem Represents.enqueue {payload : List UInt8} (h : Represents room q base frames)
    (hfrs : frames.length < room.capacity)
    (hbytes : payload.length ≤ room.maxBytes - q.queuedBytes) (info : μ) (duration : UInt64) :
    Represents room (enqueue room q payload info duration) base
      (frames ++ [{ payload := payload, info := info }]) := by
  have hpos := room.maxBytes_pos
  have hle := room.maxBytes_le
  have htotal := h.bytes_le
  rw [h.queuedBytes] at hbytes
  have htail : q.storageTail < room.maxBytes := by
    rw [h.storageTail]
    exact Nat.mod_lt _ hpos
  have hlen : payload.length ≤ room.maxBytes := by omega
  have hstorage := ringCopyIn_length h.storage_length htail hlen
  refine
    { slots_length := by rw [Client.enqueue, length_set, h.slots_length]
      storage_length := hstorage
      head_lt := h.head_lt
      queuedFrames := by rw [Client.enqueue, h.queuedFrames, length_append]; rfl
      frames_le := by rw [length_append]; exact hfrs
      queuedBytes := by simp [Client.enqueue, h.queuedBytes]
      bytes_le := by simp; omega
      slots := ?_
      bytes := ?_
      storageTail := ?_ }
  · have hnext := h.slots.set_next
      (x := { offset := q.storageTail, size := payload.length, info := info })
      (i := wrap (q.head + q.queuedFrames) % room.capacity)
      (by rw [length_layout, h.slots_length]; exact hfrs)
      (by rw [length_layout, h.slots_length, h.queuedFrames, wrap_slots h.head_lt hfrs.le])
    rw [layout_append, layout, layout, ← h.storageTail]
    exact hnext
  · have hcat : payloads (frames ++ [{ payload := payload, info := info }]) =
        payloads frames ++ payload := by
      simp [payloads]
    rw [hcat]
    apply h.bytes.append
    · rw [h.storage_length]
      exact hstorage
    · intro p hp
      rw [length_payloads] at hp
      have hidx : (base + p) % room.maxBytes =
          (q.storageTail + (room.maxBytes - totalBytes frames + p)) % room.maxBytes := by
        rw [h.storageTail, Nat.mod_add_mod, ← Nat.add_mod_right (base + p)]
        congr 1
        omega
      rw [h.storage_length, hidx]
      exact ringCopyIn_outside h.storage_length htail (by omega) (by omega)
    · apply holds_mod.mp
      change Ring.Holds (ringCopyIn q.storage room.maxBytes q.storageTail payload)
        (_ % (ringCopyIn q.storage room.maxBytes q.storageTail payload).length) payload
      rw [hstorage, length_payloads, ← h.storageTail]
      exact ringCopyIn_holds h.storage_length htail hlen
  · have hwrap : wrap (q.storageTail + payload.length) = q.storageTail + payload.length :=
      Nat.mod_eq_of_lt (by omega)
    change wrap (q.storageTail + payload.length) % room.maxBytes = _
    rw [hwrap, h.storageTail, Nat.mod_add_mod, totalBytes_append, Nat.add_assoc]
    simp

theorem represents_nil (hslots : q.slots.length = room.capacity)
    (hstorage : q.storage.length = room.maxBytes) (hhead : q.head = 0) (htail : q.storageTail = 0)
    (hfrs : q.queuedFrames = 0) (hbytes : q.queuedBytes = 0) :
    Represents room q 0 [] where
  slots_length := hslots
  storage_length := hstorage
  head_lt := by rw [hhead]; exact room.capacity_pos
  queuedFrames := hfrs
  frames_le := Nat.zero_le _
  queuedBytes := hbytes
  bytes_le := Nat.zero_le _
  slots := Ring.Holds.nil _ _
  bytes := Ring.Holds.nil _ _
  storageTail := by simp [htail]

theorem Represents.slot {f : Frame μ} {fs gs : List (Frame μ)}
    (h : Represents room q base (fs ++ f :: gs)) :
    q.slots[(q.head + fs.length) % room.capacity]? = some
        { offset := (base + totalBytes fs) % room.maxBytes
          size := f.payload.length
          info := f.info } := by
  have hslot := h.slots fs.length (by simp)
  rw [h.slots_length, layout_append, getElem?_append_right (by simp)] at hslot
  rw [hslot]
  simp [layout]

theorem Represents.read {f : Frame μ} {fs gs : List (Frame μ)}
    (h : Represents room q base (fs ++ f :: gs)) :
    ringCopyOut q.storage room.maxBytes ((base + totalBytes fs) % room.maxBytes)
      f.payload.length = f.payload := by
  have htotal := h.bytes_le
  rw [totalBytes_append, totalBytes_cons] at htotal
  apply ringCopyOut_eq h.storage_length (Nat.mod_lt _ room.maxBytes_pos) (by omega)
  rw [← h.storage_length, holds_mod]
  have hbytes := h.bytes
  rw [payloads, flatMap_append] at hbytes
  have hright := hbytes.right
  rw [flatMap_cons, ← payloads, length_payloads] at hright
  exact hright.left

variable [Inhabited μ]

/-- The frames of a queue, read out without removing them. -/
def FrameRing.contents (room : Room) (q : FrameRing μ) : List (Frame μ) :=
  (List.range q.queuedFrames).map (fun k =>
    let slot := q.slots.getD ((q.head + k) % room.capacity) Slot.zero
    { payload := ringCopyOut q.storage room.maxBytes slot.offset slot.size
      info := slot.info })

theorem Represents.contents (h : Represents room q base frames) : q.contents room = frames := by
  apply ext_getElem?
  intro k
  by_cases hk : k < frames.length
  · obtain ⟨f, hf⟩ : ∃ f, frames[k]? = some f := ⟨_, getElem?_eq_getElem hk⟩
    have hsplit : frames = frames.take k ++ f :: frames.drop (k + 1) := by
      conv_lhs => rw [← take_append_drop k frames]
      rw [drop_eq_getElem_cons hk]
      rw [getElem?_eq_getElem hk, Option.some.injEq] at hf
      rw [hf]
    have hmid : Represents room q base (frames.take k ++ f :: frames.drop (k + 1)) := by
      rw [← hsplit]
      exact h
    have htake : (frames.take k).length = k := by
      rw [length_take]
      omega
    have hslot := hmid.slot
    rw [htake] at hslot
    rw [hf, FrameRing.contents, getElem?_map, h.queuedFrames,
      getElem?_range hk, Option.map_some, getD_eq_getElem?_getD, hslot,
      Option.getD_some]
    dsimp only
    rw [hmid.read]
  · rw [getElem?_eq_none (l := frames) (by omega), getElem?_eq_none]
    simp only [FrameRing.contents, length_map, length_range, h.queuedFrames]
    omega

theorem Represents.headSlot {f : Frame μ} {fs : List (Frame μ)}
    (h : Represents room q base (f :: fs)) :
    q.headSlot = { offset := base % room.maxBytes, size := f.payload.length, info := f.info } := by
  have hmid : Represents room q base ([] ++ f :: fs) := h
  have hslot := hmid.slot
  rw [length_nil, Nat.add_zero, Nat.mod_eq_of_lt h.head_lt] at hslot
  rw [FrameRing.headSlot, getD_eq_getElem?_getD, hslot]
  rfl

theorem Represents.newestSlot {f : Frame μ} {fs : List (Frame μ)}
    (h : Represents room q base (fs ++ [f])) : (q.newestSlot room).info = f.info := by
  have hlen := h.frames_le
  rw [length_append, length_singleton] at hlen
  have hidx : wrap (q.head + q.queuedFrames - 1) = q.head + fs.length := by
    rw [h.queuedFrames, length_append, length_singleton, ← Nat.add_assoc,
      Nat.add_sub_cancel, wrap_slots h.head_lt (by omega)]
  rw [FrameRing.newestSlot, hidx, getD_eq_getElem?_getD, h.slot]
  rfl

theorem Represents.read_head {f : Frame μ} {fs : List (Frame μ)}
    (h : Represents room q base (f :: fs)) :
    ringCopyOut q.storage room.maxBytes q.headSlot.offset q.headSlot.size = f.payload := by
  have hmid : Represents room q base ([] ++ f :: fs) := h
  rw [h.headSlot]
  exact hmid.read

theorem Represents.dequeue {f : Frame μ} {fs : List (Frame μ)}
    (h : Represents room q base (f :: fs)) :
    ∃ base', Represents room (dequeue room q) base' fs := by
  have hfrs := h.frames_le
  have htotal := h.bytes_le
  have hq := h.queuedFrames
  have hqbytes := h.queuedBytes
  rw [length_cons] at hfrs hq
  rw [totalBytes_cons] at htotal hqbytes
  rw [Client.dequeue, h.headSlot]
  by_cases hlast : q.queuedFrames - 1 = 0
  · obtain rfl : fs = [] := by
      apply eq_nil_of_length_eq_zero
      omega
    rw [if_pos hlast]
    refine ⟨0, ?_⟩
    exact
      { slots_length := by rw [length_set, h.slots_length]
        storage_length := h.storage_length
        head_lt := room.capacity_pos
        queuedFrames := hlast
        frames_le := Nat.zero_le _
        queuedBytes := by simp [hqbytes]
        bytes_le := Nat.zero_le _
        slots := Ring.Holds.nil _ _
        bytes := Ring.Holds.nil _ _
        storageTail := by simp }
  · rw [if_neg hlast]
    refine ⟨base + f.payload.length, ?_⟩
    have hslots : Ring.Holds (q.slots.set q.head Slot.zero) (q.head + 1)
        (layout room.maxBytes (base + f.payload.length) fs) := by
      have hfirst := h.slots
      rw [layout] at hfirst
      apply hfirst.set_first
      · rw [length_layout, h.slots_length]
        omega
      · rw [h.slots_length, Nat.mod_eq_of_lt h.head_lt]
    have hlen : (q.slots.set q.head Slot.zero).length = room.capacity := by
      rw [length_set, h.slots_length]
    exact
      { slots_length := hlen
        storage_length := h.storage_length
        head_lt := Nat.mod_lt _ room.capacity_pos
        queuedFrames := by simp only; omega
        frames_le := by omega
        queuedBytes := by simp only; omega
        bytes_le := by omega
        slots := by
          rw [wrap_slots h.head_lt room.capacity_pos, ← hlen, holds_mod]
          exact hslots
        bytes := by
          have hbytes := h.bytes
          rw [payloads, flatMap_cons] at hbytes
          exact hbytes.right
        storageTail := by
          rw [h.storageTail, totalBytes_cons, Nat.add_assoc] }

end TurboMedia.Client
