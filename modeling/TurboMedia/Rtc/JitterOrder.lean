import TurboMedia.Rtc.JitterBuffer

/-!
# Order of delivery of the jitter buffer

Along a run in which no packet behind the output is stored, every packet that
is handed out is the one put with the sequence number of its turn, packets come
out in increasing serial order, and none comes out twice.

**Input.**  Any packets at any times, also duplicates, packets far behind and
packets far ahead.

**Method.**  A slot that is filled holds a packet of the window in front of the
output (`Placed`); the place of a packet in the output, counted in advances of
the output, is fixed when it is put.  The invariant `Ordered` carries for each
filled slot the call that put its packet.

A packet that is 1 to 128 behind is stored by the source, and is handed out 256
places after its own.
-/

namespace TurboMedia.JitterBuffer

open List Machine Serial Function Option

open RtpPacket (Packet)

section Placement

/-- Filled slots hold packets with their index, between `low` and 127 from the
output; a buffer that was not started is empty. -/
structure Placed (low : ℤ) (jb : Buffer) : Prop where
  empty : jb.initialized = false → ∀ k, jb.slots k = none
  index : ∀ k slot, jb.slots k = some slot → slotIndex slot.sequence.toNat = k
  low_le : ∀ k slot, jb.slots k = some slot → low ≤ seqDiff slot.sequence jb.nextSeqOut
  lt_high : ∀ k slot, jb.slots k = some slot → seqDiff slot.sequence jb.nextSeqOut < 128
  fits : ∀ k slot, jb.slots k = some slot → slot.data.length ≤ jb.slotSize

variable {low : ℤ} {jb : Buffer}

theorem create_placed (low : ℤ) (targetDelayMs : UInt32) (slotSize : ℕ) :
    Placed low (create targetDelayMs slotSize) where
  empty _ _ := rfl
  index k slot h := by simp [create] at h
  low_le k slot h := by simp [create] at h
  lt_high k slot h := by simp [create] at h
  fits k slot h := by simp [create] at h

theorem Placed.index_ahead (h : Placed low jb) {k : Fin 256} {slot : Slot}
    (hslot : jb.slots k = some slot) :
    ((jb.nextSeqOut.toNat : ℤ) + seqDiff slot.sequence jb.nextSeqOut) % 256 = k.val := by
  have hidx := congrArg Fin.val (h.index k slot hslot)
  simp only [slotIndex] at hidx
  have hmod := emod_diff (a := slot.sequence) (b := jb.nextSeqOut) (m := 256) (by decide)
  rw [seqDiff]
  omega

/-- A packet that is a multiple of 256 away from the output is in its slot. -/
theorem Placed.slot_of_dvd (h : Placed low jb) {k : Fin 256} {slot : Slot}
    (hslot : jb.slots k = some slot) (hdvd : seqDiff slot.sequence jb.nextSeqOut % 256 = 0) :
    k = slotIndex jb.nextSeqOut.toNat := by
  have hidx := h.index_ahead hslot
  apply Fin.ext
  simp only [slotIndex]
  omega

/-- Starting the buffer moves the output only while the buffer is empty. -/
theorem Placed.start (h : Placed low jb) (seq : UInt16) : Placed low (start jb seq) := by
  unfold JitterBuffer.start
  split_ifs with hinit
  · exact h
  · have hempty := h.empty (by simpa using hinit)
    refine ⟨by simp, ?_, ?_, ?_, ?_⟩
    all_goals
      intro k slot hslot
      simp [hempty k] at hslot

theorem Placed.advance (h : Placed low jb) (jb' : Buffer) (hrange : -32768 < low)
    (hlow : low % 256 = 0) (hinit : jb'.initialized = true) (hsize : jb'.slotSize = jb.slotSize)
    (hnext : jb'.nextSeqOut = jb.nextSeqOut + 1)
    (hslots : ∀ k slot, jb'.slots k = some slot →
      jb.slots k = some slot ∧ k ≠ slotIndex jb.nextSeqOut.toNat) :
    Placed low jb' ∧ ∀ k slot, jb'.slots k = some slot →
        seqDiff slot.sequence jb'.nextSeqOut = seqDiff slot.sequence jb.nextSeqOut - 1 := by
  have hdiff : ∀ k slot, jb'.slots k = some slot →
      seqDiff slot.sequence jb'.nextSeqOut = seqDiff slot.sequence jb.nextSeqOut - 1 := by
    intro k slot hslot
    have hlo := h.low_le k slot (hslots k slot hslot).1
    rw [hnext]
    apply diff_succ_right
    rw [seqDiff] at hlo
    omega
  refine ⟨⟨by simp [hinit], ?_, ?_, ?_, ?_⟩, hdiff⟩
  · intro k slot hslot
    exact h.index k slot (hslots k slot hslot).1
  · intro k slot hslot
    obtain ⟨hold, hne⟩ := hslots k slot hslot
    have hlo := h.low_le k slot hold
    have hnot : seqDiff slot.sequence jb.nextSeqOut ≠ low := by
      intro heq
      exact hne (h.slot_of_dvd hold (by rw [heq]; exact hlow))
    rw [hdiff k slot hslot]
    omega
  · intro k slot hslot
    have hhi := h.lt_high k slot (hslots k slot hslot).1
    rw [hdiff k slot hslot]
    omega
  · intro k slot hslot
    rw [hsize]
    exact h.fits k slot (hslots k slot hslot).1

theorem update_some
    {slots : Fin 256 → Option Slot} {index k : Fin 256} {content : Option Slot} {slot : Slot}
    (h : update slots index content k = some slot) :
    (k = index ∧ content = some slot) ∨ (k ≠ index ∧ slots k = some slot) := by
  by_cases hk : k = index
  · subst hk
    exact Or.inl ⟨rfl, by simpa using h⟩
  · exact Or.inr ⟨hk, by simpa [hk] using h⟩

/-- Storing a packet at a distance of at least `low`. -/
theorem Placed.store (h : Placed low jb) (hinit : jb.initialized = true)
    {pkt : Packet} {nowMs : UInt64} (hwin : InWindow jb pkt.header.sequence)
    (hlow : low ≤ seqDiff pkt.header.sequence jb.nextSeqOut)
    (hfits : pkt.payload.length ≤ jb.slotSize) :
    Placed low { jb with
        slots := update jb.slots (slotIndex pkt.header.sequence.toNat)
          (some (slotOf pkt nowMs))
        packetsIn := jb.packetsIn + 1 } := by
  refine ⟨by simp [hinit], ?_, ?_, ?_, ?_⟩
  · intro k slot hslot
    rcases update_some hslot with ⟨rfl, heq⟩ | ⟨_, hold⟩
    · rw [← some.inj heq]
      rfl
    · exact h.index k slot hold
  · intro k slot hslot
    rcases update_some hslot with ⟨rfl, heq⟩ | ⟨_, hold⟩
    · rw [← some.inj heq]
      exact hlow
    · exact h.low_le k slot hold
  · intro k slot hslot
    rcases update_some hslot with ⟨rfl, heq⟩ | ⟨_, hold⟩
    · rw [← some.inj heq]
      exact hwin.2
    · exact h.lt_high k slot hold
  · intro k slot hslot
    rcases update_some hslot with ⟨rfl, heq⟩ | ⟨_, hold⟩
    · rw [← some.inj heq]
      exact hfits
    · exact h.fits k slot hold

theorem lost_slots (hnone : ahead jb 0 = none) :
    ∀ k slot, (lostBuffer jb).slots k = some slot →
      jb.slots k = some slot ∧ k ≠ slotIndex jb.nextSeqOut.toNat := by
  intro k slot hslot
  refine ⟨hslot, ?_⟩
  rintro rfl
  simp only [ahead, Nat.add_zero] at hnone
  simp [lostBuffer, hnone] at hslot

theorem served_slots (jb : Buffer) :
    ∀ k slot, (servedBuffer jb).slots k = some slot →
      jb.slots k = some slot ∧ k ≠ slotIndex jb.nextSeqOut.toNat := by
  intro k slot hslot
  rcases update_some hslot with ⟨_, heq⟩ | ⟨hne, hold⟩
  · simp at heq
  · exact ⟨hold, hne⟩

theorem start_initialized (jb : Buffer) (seq : UInt16) : (start jb seq).initialized = true := by
  unfold start
  split_ifs with hinit
  · exact hinit
  · rfl

theorem start_slotSize (jb : Buffer) (seq : UInt16) : (start jb seq).slotSize = jb.slotSize := by
  unfold start
  split_ifs
  · rfl
  · rfl

/-- A `put` keeps the placement when it stores no packet below `low`. -/
theorem put_placed (h : Placed low jb) {pkt : Packet} (nowMs : UInt64)
    (hlow : InWindow (start jb pkt.header.sequence) pkt.header.sequence →
      pkt.payload.length ≤ jb.slotSize →
      low ≤ seqDiff pkt.header.sequence (start jb pkt.header.sequence).nextSeqOut) :
    Placed low (put jb pkt nowMs).1 := by
  have hstart := h.start pkt.header.sequence
  have hinit := start_initialized jb pkt.header.sequence
  have hsize := start_slotSize jb pkt.header.sequence
  have hout := put_outcome jb pkt nowMs
  generalize put jb pkt nowMs = out at hout
  cases hout with
  | kept hslots hnext hinit' hsize' _ _ =>
    refine ⟨by simp [hinit', hinit], ?_, ?_, ?_, ?_⟩
    · intro k slot hslot
      exact hstart.index k slot (hslots ▸ hslot)
    · intro k slot hslot
      rw [hnext]
      exact hstart.low_le k slot (hslots ▸ hslot)
    · intro k slot hslot
      rw [hnext]
      exact hstart.lt_high k slot (hslots ▸ hslot)
    · intro k slot hslot
      rw [hsize']
      exact hstart.fits k slot (hslots ▸ hslot)
  | stored hwin hfits => exact hstart.store hinit hwin (hlow hwin (hsize ▸ hfits)) hfits

/-- A `get` keeps the placement, for every bound that is a multiple of 256. -/
theorem getEx_placed (h : Placed low jb) (hrange : -32768 < low) (hlow : low % 256 = 0)
    (maxLen : ℕ) (nowMs : UInt64) : Placed low (getEx jb maxLen nowMs).1 := by
  have hout := getEx_outcome jb maxLen nowMs
  generalize getEx jb maxLen nowMs = out at hout
  cases hout with
  | waiting _ => exact h
  | lost hinit hnone _ _ _ =>
    exact (h.advance (lostBuffer jb) hrange hlow hinit rfl rfl (lost_slots hnone)).1
  | packet hinit _ =>
    exact (h.advance (servedBuffer jb) hrange hlow hinit rfl rfl (served_slots jb)).1

end Placement

/-- Number of places by which a call moves the output on. -/
def advance : Answer → ℕ
  | .get (.packet _) => 1
  | .get .lost => 1
  | _ => 0

/-- Places by which the output moved on before the `i`-th call. -/
def position (jb₀ : Buffer) (ops : List Op) (i : ℕ) : ℕ :=
  machine.tally advance jb₀ (ops.take i)

/-- The `i`-th call hands out a packet. -/
def Delivers (jb₀ : Buffer) (ops : List Op) (i : ℕ) (out : Output) : Prop :=
  machine.answerAt jb₀ ops i = some (.get (.packet out))

def outputOf (pkt : Packet) : Output :=
  ⟨pkt.payload, pkt.header.timestamp, pkt.header.marker⟩

/-- Call `i` hands out the packet that call `j` put: it has the sequence number
whose turn it is, it was not behind the output when it was put, and the output
has moved exactly to its place since. -/
def ComesFrom (jb₀ : Buffer) (ops : List Op) (j i : ℕ) (out : Output) : Prop :=
  j < i ∧ ∃ pkt nowMs, ops[j]? = some (.put pkt nowMs) ∧
    pkt.header.sequence = (machine.stateAt jb₀ ops i).nextSeqOut ∧
    out = outputOf pkt ∧
    0 ≤ seqDiff pkt.header.sequence (machine.stateAt jb₀ ops (j + 1)).nextSeqOut ∧
    (position jb₀ ops i : ℤ) = position jb₀ ops j +
      seqDiff pkt.header.sequence (machine.stateAt jb₀ ops (j + 1)).nextSeqOut

/-- Every packet handed out is the one put for its turn and none is handed out
twice; the sequence numbers of one delivery and the next increase. -/
def DeliversInOrder (jb₀ : Buffer) (ops : List Op) : Prop :=
  (∃ source : ℕ → ℕ, (∀ i out, Delivers jb₀ ops i out → ComesFrom jb₀ ops (source i) i out) ∧
    (∀ i i' out out', Delivers jb₀ ops i out → Delivers jb₀ ops i' out' → i < i' →
      source i ≠ source i')) ∧
  (∀ i i' out out', Delivers jb₀ ops i out → Delivers jb₀ ops i' out' → i < i' →
    (∀ m out, i < m → m < i' → ¬Delivers jb₀ ops m out) →
    0 < seqDiff (machine.stateAt jb₀ ops i').nextSeqOut (machine.stateAt jb₀ ops i).nextSeqOut)

/-- The call does not store a packet that is 1 to 128 behind the output. -/
def NotLate (jb : Buffer) : Op → Prop
  | .put pkt _ =>
    seqDiff pkt.header.sequence (start jb pkt.header.sequence).nextSeqOut < -128 ∨
      0 ≤ seqDiff pkt.header.sequence (start jb pkt.header.sequence).nextSeqOut ∨
      jb.slotSize < pkt.payload.length
  | .get _ _ => True

section Invariant

variable {jb₀ : Buffer} {ops : List Op}

/-- Call `j` put what is in the slot, and the place of the packet is its
distance in front of the output. -/
def Held (jb₀ : Buffer) (ops : List Op) (j : ℕ) (slot : Slot) : Prop :=
  j < ops.length ∧ ∃ pkt nowMs, ops[j]? = some (.put pkt nowMs) ∧ slot = slotOf pkt nowMs ∧
    0 ≤ seqDiff pkt.header.sequence (machine.stateAt jb₀ ops (j + 1)).nextSeqOut ∧
    (machine.tally advance jb₀ ops : ℤ) + seqDiff slot.sequence (machine.run jb₀ ops).nextSeqOut =
      position jb₀ ops j + seqDiff pkt.header.sequence (machine.stateAt jb₀ ops (j + 1)).nextSeqOut

/-- Every filled slot is held by a call whose packet was not handed out yet;
every packet handed out comes from its own call. -/
structure Ordered (jb₀ : Buffer) (ops : List Op) (source : ℕ → ℕ) : Prop where
  placed : Placed 0 (machine.run jb₀ ops)
  held : ∀ k slot, (machine.run jb₀ ops).slots k = some slot →
    ∃ j, Held jb₀ ops j slot ∧ ∀ i out, Delivers jb₀ ops i out → source i ≠ j
  delivered : ∀ i out, Delivers jb₀ ops i out → ComesFrom jb₀ ops (source i) i out
  once : ∀ i i' out out', Delivers jb₀ ops i out → Delivers jb₀ ops i' out' → i < i' →
    source i ≠ source i'

theorem Delivers.lt {i : ℕ} {out : Output} (h : Delivers jb₀ ops i out) : i < ops.length := by
  by_contra hge
  rw [Delivers, answerAt_none (not_lt.mp hge)] at h
  simp at h

theorem position_append {i : ℕ} (h : i ≤ ops.length) (more : List Op) :
    position jb₀ (ops ++ more) i = position jb₀ ops i := by
  rw [position, position, take_append_of_le_length h]

theorem delivers_snoc_iff (op : Op) (i : ℕ) (out : Output) :
    Delivers jb₀ (ops ++ [op]) i out ↔ Delivers jb₀ ops i out ∨
        (i = ops.length ∧ machine.answer (machine.run jb₀ ops) op = .get (.packet out)) := by
  constructor
  · intro h
    have hlt := h.lt
    rw [length_append, length_singleton] at hlt
    rcases Nat.lt_or_ge i ops.length with hi | hi
    · left
      rw [Delivers, answerAt_append hi] at h
      exact h
    · right
      obtain rfl : i = ops.length := by omega
      rw [Delivers, answerAt_last, some.injEq] at h
      exact ⟨rfl, h⟩
  · rintro (h | ⟨rfl, h⟩)
    · rw [Delivers, answerAt_append h.lt]
      exact h
    · rw [Delivers, answerAt_last, h]

theorem ComesFrom.append {j i : ℕ} {out : Output} (h : ComesFrom jb₀ ops j i out)
    (hi : i ≤ ops.length) (more : List Op) : ComesFrom jb₀ (ops ++ more) j i out := by
  obtain ⟨hlt, pkt, nowMs, hget, hseq, hout, hnonneg, hposition⟩ := h
  refine ⟨hlt, pkt, nowMs, ?_, ?_, hout, ?_, ?_⟩
  · rw [getElem?_append_left (by omega)]
    exact hget
  · rw [stateAt_append hi]
    exact hseq
  · rw [stateAt_append (by omega)]
    exact hnonneg
  · rw [stateAt_append (by omega), position_append hi, position_append (by omega)]
    exact hposition

/-- A slot stays held while its distance shrinks as the output moves on. -/
theorem Held.append {j : ℕ} {slot : Slot} (h : Held jb₀ ops j slot) (op : Op)
    (hdiff : seqDiff slot.sequence (machine.next (machine.run jb₀ ops) op).nextSeqOut =
      seqDiff slot.sequence (machine.run jb₀ ops).nextSeqOut -
        advance (machine.answer (machine.run jb₀ ops) op)) : Held jb₀ (ops ++ [op]) j slot := by
  obtain ⟨hlt, pkt, nowMs, hget, hslot, hnonneg, hplace⟩ := h
  refine ⟨by rw [length_append]; omega, pkt, nowMs, ?_, hslot, ?_, ?_⟩
  · rw [getElem?_append_left hlt]
    exact hget
  · rw [stateAt_append (by omega)]
    exact hnonneg
  · rw [stateAt_append (by omega), position_append hlt.le, tally_append,
      run_append]
    simp only [tally, run_cons, run_nil, Nat.add_zero]
    omega

theorem Ordered.quiet {source : ℕ → ℕ} {op : Op} (h : Ordered jb₀ ops source)
    (hplaced : Placed 0 (machine.next (machine.run jb₀ ops) op))
    (hsilent : ∀ out, machine.answer (machine.run jb₀ ops) op ≠ .get (.packet out))
    (hslots : ∀ k slot, (machine.next (machine.run jb₀ ops) op).slots k = some slot →
      ((machine.run jb₀ ops).slots k = some slot ∧
        seqDiff slot.sequence (machine.next (machine.run jb₀ ops) op).nextSeqOut =
          seqDiff slot.sequence (machine.run jb₀ ops).nextSeqOut -
            advance (machine.answer (machine.run jb₀ ops) op)) ∨
      Held jb₀ (ops ++ [op]) ops.length slot) : Ordered jb₀ (ops ++ [op]) source := by
  have hdeliv : ∀ i out, Delivers jb₀ (ops ++ [op]) i out → Delivers jb₀ ops i out := by
    intro i out hd
    rcases (delivers_snoc_iff op i out).mp hd with hd | ⟨_, hans⟩
    · exact hd
    · exact absurd hans (hsilent out)
  refine ⟨?_, ?_, ?_, ?_⟩
  · rw [run_append]
    exact hplaced
  · intro k slot hslot
    rw [run_append] at hslot
    rcases hslots k slot hslot with ⟨hold, hdiff⟩ | hnew
    · obtain ⟨j, hj, hfresh⟩ := h.held k slot hold
      exact ⟨j, hj.append op hdiff, fun i out hd => hfresh i out (hdeliv i out hd)⟩
    · refine ⟨ops.length, hnew, ?_⟩
      intro i out hd
      have hd' := hdeliv i out hd
      have hsrc := (h.delivered i out hd').1
      have hlt := hd'.lt
      omega
  · intro i out hd
    have hd' := hdeliv i out hd
    exact (h.delivered i out hd').append hd'.lt.le [op]
  · intro i i' out out' hd hd' hlt
    exact h.once i i' out out' (hdeliv i out hd) (hdeliv i' out' hd') hlt

end Invariant

section Steps

variable {jb₀ : Buffer} {ops : List Op} {source : ℕ → ℕ}

/-- After a `put` a filled slot is an old one, or holds the packet that was put. -/
theorem put_slots {low : ℤ} {jb : Buffer} (h : Placed low jb) (pkt : Packet) (nowMs : UInt64) :
    (put jb pkt nowMs).1.nextSeqOut = (start jb pkt.header.sequence).nextSeqOut ∧
    ∀ k slot, (put jb pkt nowMs).1.slots k = some slot →
      (jb.slots k = some slot ∧ (put jb pkt nowMs).1.nextSeqOut = jb.nextSeqOut) ∨
      (slot = slotOf pkt nowMs ∧ InWindow (start jb pkt.header.sequence) pkt.header.sequence ∧
        pkt.payload.length ≤ jb.slotSize) := by
  have hold : ∀ k slot, (start jb pkt.header.sequence).slots k = some slot →
      jb.slots k = some slot ∧
        (start jb pkt.header.sequence).nextSeqOut = jb.nextSeqOut := by
    intro k slot hslot
    unfold start at hslot ⊢
    split_ifs at hslot ⊢ with hinit
    · exact ⟨hslot, rfl⟩
    · simp [h.empty (by simpa using hinit) k] at hslot
  have hsize := start_slotSize jb pkt.header.sequence
  have hout := put_outcome jb pkt nowMs
  generalize put jb pkt nowMs = out at hout
  cases hout with
  | kept hslots hnext _ _ _ _ =>
    refine ⟨hnext, ?_⟩
    intro k slot hslot
    left
    rw [hnext]
    exact hold k slot (hslots ▸ hslot)
  | stored hwin hfits =>
    refine ⟨rfl, ?_⟩
    intro k slot hslot
    rcases update_some hslot with ⟨_, heq⟩ | ⟨_, hkept⟩
    · exact Or.inr ⟨(some.inj heq).symm, hwin, hsize ▸ hfits⟩
    · exact Or.inl (hold k slot hkept)

theorem NotLate.nonneg {jb : Buffer} {pkt : Packet} {nowMs : UInt64}
    (h : NotLate jb (.put pkt nowMs))
    (hwin : InWindow (start jb pkt.header.sequence) pkt.header.sequence)
    (hfits : pkt.payload.length ≤ jb.slotSize) :
    0 ≤ seqDiff pkt.header.sequence (start jb pkt.header.sequence).nextSeqOut := by
  rcases h with hlate | hahead | hlarge
  · have := hwin.1
    omega
  · exact hahead
  · omega

theorem Ordered.put_step (h : Ordered jb₀ ops source) {pkt : Packet} {nowMs : UInt64}
    (hnot : NotLate (machine.run jb₀ ops) (.put pkt nowMs)) :
    Ordered jb₀ (ops ++ [.put pkt nowMs]) source := by
  obtain ⟨hnext, hslots⟩ := put_slots h.placed pkt nowMs
  refine h.quiet ?_ ?_ ?_
  · exact put_placed h.placed nowMs hnot.nonneg
  · rintro out ⟨⟩
  · intro k slot hslot
    rcases hslots k slot hslot with ⟨hold, hsame⟩ | ⟨rfl, hwin, hfits⟩
    · refine Or.inl ⟨hold, ?_⟩
      change seqDiff slot.sequence (put _ pkt nowMs).1.nextSeqOut = _ - ((0 : ℕ) : ℤ)
      rw [hsame, Nat.cast_zero, Int.sub_zero]
    · right
      have hstate : machine.stateAt jb₀ (ops ++ [.put pkt nowMs]) (ops.length + 1) =
          (put (machine.run jb₀ ops) pkt nowMs).1 := by
        rw [stateAt, take_of_length_le (by simp), run_append]
        rfl
      have hrun : machine.run jb₀ (ops ++ [.put pkt nowMs]) =
          (put (machine.run jb₀ ops) pkt nowMs).1 := by
        rw [run_append]
        rfl
      have htally : machine.tally advance jb₀ (ops ++ [.put pkt nowMs]) =
          machine.tally advance jb₀ ops := by
        rw [tally_append]
        rfl
      refine ⟨by simp, pkt, nowMs, by simp, rfl, ?_, ?_⟩
      · rw [hstate, hnext]
        exact hnot.nonneg hwin hfits
      · rw [hstate, hrun, htally, position_append le_rfl, position, take_length]
        rfl

theorem Held.unique {j : ℕ} {slot slot' : Slot} (h : Held jb₀ ops j slot)
    (h' : Held jb₀ ops j slot') : slot = slot' := by
  obtain ⟨_, pkt, nowMs, hget, rfl, _⟩ := h
  obtain ⟨_, pkt', nowMs', hget', rfl, _⟩ := h'
  rw [hget, some.injEq, Op.put.injEq] at hget'
  rw [hget'.1, hget'.2]

/-- The packet in the slot of the output has the sequence number whose turn it is. -/
theorem Placed.current {jb : Buffer} {slot : Slot} (h : Placed 0 jb)
    (hslot : ahead jb 0 = some slot) : seqDiff slot.sequence jb.nextSeqOut = 0 := by
  have hidx := h.index_ahead hslot
  have hlow := h.low_le _ slot hslot
  have hhigh := h.lt_high _ slot hslot
  simp only [slotIndex] at hidx
  omega

theorem Held.comesFrom {j : ℕ} {slot : Slot} (h : Held jb₀ ops j slot)
    (hturn : seqDiff slot.sequence (machine.run jb₀ ops).nextSeqOut = 0) (op : Op) :
    ComesFrom jb₀ (ops ++ [op]) j ops.length ⟨slot.data, slot.timestamp, slot.marker⟩ := by
  obtain ⟨hlt, pkt, nowMs, hget, rfl, hnonneg, hplace⟩ := h
  rw [hturn, Int.add_zero] at hplace
  have hstate : machine.stateAt jb₀ (ops ++ [op]) ops.length = machine.run jb₀ ops := by
    rw [stateAt_append le_rfl, stateAt_length]
  refine ⟨hlt, pkt, nowMs, ?_, ?_, rfl, ?_, ?_⟩
  · rw [getElem?_append_left hlt]
    exact hget
  · rw [hstate]
    exact diff_eq_zero_iff.mp hturn
  · rw [stateAt_append (by omega)]
    exact hnonneg
  · rw [stateAt_append (by omega), position_append le_rfl, position_append (by omega)]
    rw [position, take_length]
    exact hplace

theorem Ordered.deliver (h : Ordered jb₀ ops source) {op : Op} {slot : Slot}
    (hinit : (machine.run jb₀ ops).initialized = true)
    (hslot : ahead (machine.run jb₀ ops) 0 = some slot)
    (hnext : machine.next (machine.run jb₀ ops) op = servedBuffer (machine.run jb₀ ops))
    (hans : machine.answer (machine.run jb₀ ops) op =
      .get (.packet ⟨slot.data, slot.timestamp, slot.marker⟩)) :
    ∃ source', Ordered jb₀ (ops ++ [op]) source' := by
  obtain ⟨j, hj, hfresh⟩ := h.held _ slot hslot
  have hturn := h.placed.current hslot
  obtain ⟨hplaced, hdiff⟩ := h.placed.advance (servedBuffer (machine.run jb₀ ops))
    (by decide) (by decide) hinit rfl rfl (served_slots _)
  have hrun : machine.run jb₀ (ops ++ [op]) = servedBuffer (machine.run jb₀ ops) := by
    rw [run_append, run_cons, run_nil, hnext]
  have hold : ∀ i, i < ops.length → update source ops.length j i = source i := by
    intro i hi
    exact update_of_ne hi.ne _ _
  refine ⟨update source ops.length j, ?_, ?_, ?_, ?_⟩
  · rw [hrun]
    exact hplaced
  · intro k slot' hslot'
    rw [hrun] at hslot'
    obtain ⟨hbef, hne⟩ := served_slots _ k slot' hslot'
    obtain ⟨j', hj', hfresh'⟩ := h.held k slot' hbef
    refine ⟨j', hj'.append op ?_, ?_⟩
    · rw [hnext, hans]
      exact hdiff k slot' hslot'
    · intro i out hd
      rcases (delivers_snoc_iff op i out).mp hd with hd | ⟨rfl, _⟩
      · rw [hold i hd.lt]
        exact hfresh' i out hd
      · rw [update_self]
        rintro rfl
        obtain rfl := hj.unique hj'
        apply hne
        rw [← h.placed.index k slot hbef, h.placed.index _ slot hslot]
        rfl
  · intro i out hd
    rcases (delivers_snoc_iff op i out).mp hd with hd | ⟨rfl, hout⟩
    · rw [hold i hd.lt]
      exact (h.delivered i out hd).append hd.lt.le [op]
    · rw [hans, Answer.get.injEq, GetResult.packet.injEq] at hout
      rw [update_self, ← hout]
      exact hj.comesFrom hturn op
  · intro i i' out out' hd hd' hlt
    rcases (delivers_snoc_iff op i' out').mp hd' with hd' | ⟨rfl, _⟩
    · have hd₀ := ((delivers_snoc_iff op i out).mp hd).resolve_right
        (fun hlast => by have := hd'.lt; omega)
      rw [hold i hd₀.lt, hold i' hd'.lt]
      exact h.once i i' out out' hd₀ hd' hlt
    · have hd₀ := ((delivers_snoc_iff op i out).mp hd).resolve_right
        (fun hlast => by omega)
      rw [hold i hlt, update_self]
      exact hfresh i out hd₀

theorem Ordered.get_step (h : Ordered jb₀ ops source) (maxLen : ℕ) (nowMs : UInt64) :
    ∃ source', Ordered jb₀ (ops ++ [.get maxLen nowMs]) source' := by
  have hout := getEx_outcome (machine.run jb₀ ops) maxLen nowMs
  have hnext : machine.next (machine.run jb₀ ops) (.get maxLen nowMs) =
      (getEx (machine.run jb₀ ops) maxLen nowMs).1 := rfl
  have hans : machine.answer (machine.run jb₀ ops) (.get maxLen nowMs) =
      .get (getEx (machine.run jb₀ ops) maxLen nowMs).2 := rfl
  generalize getEx (machine.run jb₀ ops) maxLen nowMs = out at hout hnext hans
  cases hout with
  | waiting hres =>
    refine ⟨source, h.quiet ?_ ?_ ?_⟩
    · rw [hnext]
      exact h.placed
    · intro out
      rw [hans]
      rcases hres with rfl | rfl
      · simp
      · simp
    · intro k slot hslot
      left
      rw [hnext] at hslot ⊢
      rw [hans]
      refine ⟨hslot, ?_⟩
      rcases hres with rfl | rfl
      · simp [advance]
      · simp [advance]
  | lost hinit hnone _ _ _ =>
    obtain ⟨hplaced, hdiff⟩ := h.placed.advance (lostBuffer (machine.run jb₀ ops))
      (by decide) (by decide) hinit rfl rfl (lost_slots hnone)
    refine ⟨source, h.quiet ?_ ?_ ?_⟩
    · rw [hnext]
      exact hplaced
    · intro out
      rw [hans]
      simp
    · intro k slot hslot
      left
      rw [hnext] at hslot ⊢
      rw [hans]
      exact ⟨(lost_slots hnone k slot hslot).1, hdiff k slot hslot⟩
  | packet hinit hslot => exact h.deliver hinit hslot hnext hans

/-- The order is kept along every run that stores nothing behind the output. -/
theorem ordered_run (targetDelayMs : UInt32) (slotSize : ℕ) (ops : List Op)
    (h : machine.Along NotLate (create targetDelayMs slotSize) ops) :
    ∃ source, Ordered (create targetDelayMs slotSize) ops source := by
  induction ops using reverseRecOn with
  | nil =>
    refine ⟨id, create_placed 0 targetDelayMs slotSize, ?_, ?_, ?_⟩
    · intro k slot hslot
      simp [create] at hslot
    · intro i out hd
      simp [Delivers, answerAt] at hd
    · intro i i' out out' hd
      simp [Delivers, answerAt] at hd
  | append_singleton ops op ih =>
    obtain ⟨source, hsrc⟩ := ih (machine.along_append_left h)
    have hop := (machine.along_append_right h).1
    cases op with
    | put pkt nowMs => exact ⟨source, hsrc.put_step hop⟩
    | get maxLen nowMs => exact hsrc.get_step maxLen nowMs

end Steps

/-- The output moved on by `n` since `base` without handing out a packet: a
filled slot fewer than 64 places after `base` is still in front. -/
def Gap (base : UInt16) (jb : Buffer) : Prop :=
  jb.initialized = true ∧ ∃ n : ℕ, n ≤ 63 ∧
    (jb.nextSeqOut.toNat : ℤ) = ((base.toNat : ℤ) + n) % 65536 ∧
    (n = 0 ∨ ∃ m, n + m ≤ 63 ∧ (ahead jb m).isSome = true)

def Silent (jb : Buffer) (op : Op) : Prop :=
  ∀ out, machine.answer jb op ≠ .get (.packet out)

theorem ahead_lostBuffer (jb : Buffer) (m : ℕ) : ahead (lostBuffer jb) m = ahead jb (m + 1) := by
  have hsucc := toNat_succ jb.nextSeqOut
  unfold ahead lostBuffer slotIndex
  dsimp only
  congr 1
  apply Fin.ext
  dsimp only
  omega

theorem Gap.step {base : UInt16} {jb : Buffer} {op : Op} (h : Gap base jb)
    (hsilent : Silent jb op) : Gap base (machine.next jb op) := by
  obtain ⟨hinit, n, hn, hnext, hfilled⟩ := h
  cases op with
  | put pkt nowMs =>
    have hstart : start jb pkt.header.sequence = jb := by
      rw [start, if_pos hinit]
    have hout := put_outcome jb pkt nowMs
    rw [hstart] at hout
    change Gap base (put jb pkt nowMs).1
    generalize put jb pkt nowMs = out at hout
    cases hout with
    | kept hslots hsame hinit' _ _ _ =>
      refine ⟨hinit'.trans hinit, n, hn, hsame ▸ hnext, ?_⟩
      simp only [ahead, hslots, hsame]
      exact hfilled
    | stored _ _ =>
      refine ⟨hinit, n, hn, hnext, hfilled.imp_right ?_⟩
      rintro ⟨m, hm, hsome⟩
      refine ⟨m, hm, ?_⟩
      unfold ahead
      dsimp only
      by_cases heq : slotIndex (jb.nextSeqOut.toNat + m) = slotIndex pkt.header.sequence.toNat
      · rw [heq, update_self]
        rfl
      · rw [update_of_ne heq]
        exact hsome
  | get maxLen nowMs =>
    have hout := getEx_outcome jb maxLen nowMs
    have hans : machine.answer jb (.get maxLen nowMs) = .get (getEx jb maxLen nowMs).2 := rfl
    change Gap base (getEx jb maxLen nowMs).1
    generalize getEx jb maxLen nowMs = out at hout hans
    cases hout with
    | waiting _ => exact ⟨hinit, n, hn, hnext, hfilled⟩
    | packet _ _ => exact absurd hans (hsilent _)
    | @lost i _ hnone hlow hhigh hsome =>
      have hsucc := toNat_succ jb.nextSeqOut
      have hmoved : ((lostBuffer jb).nextSeqOut.toNat : ℤ) =
          ((base.toNat : ℤ) + (n + 1 : ℕ)) % 65536 := by
        rw [lostBuffer]
        push_cast
        omega
      have hfront : ∃ m, n + m ≤ 63 ∧ 1 ≤ m ∧ (ahead jb m).isSome = true := by
        rcases hfilled with rfl | ⟨m, hm, hsome'⟩
        · exact ⟨i, by omega, hlow, hsome⟩
        · refine ⟨m, hm, Nat.one_le_iff_ne_zero.mpr ?_, hsome'⟩
          rintro rfl
          simp [hnone] at hsome'
      obtain ⟨m, hm, hpos, hsome'⟩ := hfront
      refine ⟨hinit, n + 1, by omega, hmoved, Or.inr ⟨m - 1, by omega, ?_⟩⟩
      rw [ahead_lostBuffer, Nat.sub_add_cancel hpos]
      exact hsome'

/-- Packets that are handed out one after the other are in serial order, in
every run. -/
theorem consecutive_increase (jb₀ : Buffer) (ops : List Op) {i i' : ℕ} {out : Output}
    (hd : Delivers jb₀ ops i out) (hlt : i < i')
    (hbetween : ∀ m out, i < m → m < i' → ¬Delivers jb₀ ops m out) :
    0 < seqDiff (machine.stateAt jb₀ ops i').nextSeqOut (machine.stateAt jb₀ ops i).nextSeqOut := by
  obtain ⟨op, hop, hans⟩ := map_eq_some_iff.mp hd
  have hbase : (machine.stateAt jb₀ ops (i + 1)).initialized = true ∧
      (machine.stateAt jb₀ ops (i + 1)).nextSeqOut =
        (machine.stateAt jb₀ ops i).nextSeqOut + 1 := by
    rw [stateAt_succ hop]
    generalize machine.stateAt jb₀ ops i = jb at hans
    cases op with
    | put pkt nowMs => exact absurd hans (by rintro ⟨⟩)
    | get maxLen nowMs =>
      have hout := getEx_outcome jb maxLen nowMs
      have hans' : (getEx jb maxLen nowMs).2 = .packet out := Answer.get.inj hans
      change (getEx jb maxLen nowMs).1.initialized = true ∧
        (getEx jb maxLen nowMs).1.nextSeqOut = jb.nextSeqOut + 1
      generalize getEx jb maxLen nowMs = result at hout hans'
      cases hout with
      | waiting hres =>
        dsimp only at hans'
        simp [hans'] at hres
      | lost _ _ _ _ _ => cases hans'
      | packet hinit _ => exact ⟨hinit, rfl⟩
  have hgap : Gap (machine.stateAt jb₀ ops (i + 1)).nextSeqOut
      (machine.stateAt jb₀ ops (i + 1)) := by
    refine ⟨hbase.1, 0, by omega, ?_, Or.inl rfl⟩
    have := (machine.stateAt jb₀ ops (i + 1)).nextSeqOut.toNat_lt
    omega
  have hsilent : ∀ m op, i + 1 ≤ m → m < i' → ops[m]? = some op →
      Silent (machine.stateAt jb₀ ops m) op := by
    intro m op hm hlt' hop' out hout
    apply hbetween m out (by omega) hlt'
    rw [Delivers, answerAt, hop', map_some, hout]
  obtain ⟨halong, hrun⟩ := along_segment hlt hsilent
  have hfinal := machine.run_invariant_along (fun _ _ hsilent h => Gap.step h hsilent)
    hgap halong
  rw [hrun, hbase.2] at hfinal
  obtain ⟨_, n, hn, hnext, _⟩ := hfinal
  have hsucc := toNat_succ (machine.stateAt jb₀ ops i).nextSeqOut
  have hdiff : seqDiff (machine.stateAt jb₀ ops i').nextSeqOut
      (machine.stateAt jb₀ ops i).nextSeqOut = n + 1 := by
    apply diff_unique
    · omega
    · omega
    · omega
  omega

/--
**Order of delivery.**

In every run that stores no packet behind the output, every packet handed out
was put with the sequence number of its turn, no later than its turn and in
front of the output, no packet comes out twice, and sequence numbers increase.
-/
theorem delivers_in_order (targetDelayMs : UInt32) (slotSize : ℕ) (ops : List Op)
    (h : machine.Along NotLate (create targetDelayMs slotSize) ops) :
    DeliversInOrder (create targetDelayMs slotSize) ops := by
  obtain ⟨source, hsource⟩ := ordered_run targetDelayMs slotSize ops h
  refine ⟨⟨source, hsource.delivered, hsource.once⟩, ?_⟩
  intro i i' out out' hd _ hlt hbetween
  exact consecutive_increase _ ops hd hlt hbetween

def bytePacket (sequence : UInt16) (byte : UInt8) : Packet :=
  { header :=
      { version := ⟨2, by decide⟩, padding := false, extension := false, marker := false
        payloadType := ⟨96, by decide⟩, sequence := sequence, timestamp := 0, ssrc := 1 }
    csrc := []
    extensions := []
    payload := [byte] }

theorem delivers_in_order_reordered :
    Delivers (create 0 1500)
        [.put (bytePacket 65535 1) 0, .put (bytePacket 0 2) 0, .get 1500 0, .get 1500 0] 3
        ⟨[2], 0, false⟩ ∧ DeliversInOrder (create 0 1500)
        [.put (bytePacket 65535 1) 0, .put (bytePacket 0 2) 0, .get 1500 0, .get 1500 0] := by
  refine ⟨by unfold Delivers; decide +kernel, delivers_in_order 0 1500 _ ?_⟩
  refine ⟨Or.inr (Or.inl ?_), Or.inr (Or.inl ?_), trivial, trivial, trivial⟩
  · decide
  · decide

/-- Packet 0 is stored 128 behind the output and stays in its slot until the
output has come to 256. -/
def lateRun : List Op :=
  [.put (bytePacket 128 1) 0, .put (bytePacket 0 2) 0, .get 1500 0,
    .put (bytePacket 192 3) 0] ++ replicate 128 (.get 1500 0)

theorem lateRun_out_of_order : ¬DeliversInOrder (create 0 1500) lateRun := by
  rintro ⟨⟨source, hfrom, _⟩, _⟩
  have hd : Delivers (create 0 1500) lateRun 131 ⟨[2], 0, false⟩ := by
    unfold Delivers
    decide +kernel
  have hturn : (machine.stateAt (create 0 1500) lateRun 131).nextSeqOut = 256 := by
    decide +kernel
  obtain ⟨_, pkt, nowMs, hget, hseq, _⟩ := hfrom 131 _ hd
  have hmem : Op.put pkt nowMs ∈ lateRun := mem_of_getElem? hget
  simp only [lateRun, mem_append, mem_cons, mem_replicate, not_mem_nil,
    reduceCtorEq, or_false, false_or, and_false, Op.put.injEq] at hmem
  rw [hturn] at hseq
  rcases hmem with ⟨rfl, _⟩ | ⟨rfl, _⟩ | ⟨rfl, _⟩ <;> exact absurd hseq (by decide)

end TurboMedia.JitterBuffer
