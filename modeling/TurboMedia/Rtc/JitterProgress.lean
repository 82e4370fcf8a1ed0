import TurboMedia.Rtc.JitterOrder

/-!
# Progress of the jitter buffer

When every buffered packet is ripe, the `n`-th of a row of `get` calls looks at
the slot `n` places in front of where the row began and at the 63 slots after
it.  The row therefore comes to a packet exactly if no 64 empty slots in a row
lie in front of it.

**Input.**  A state that calls can reach, and a row of `get` calls at times at
which every buffered packet is ripe.

**Output.**  A buffered packet that is not behind the output is handed out by
one of the first 128 calls, or the output stops in front of it for good.
-/

namespace TurboMedia.JitterBuffer

open RtpPacket (Packet)

/-- In every reachable state a packet is at most 256 behind its output and at
most 127 in front of it. -/
theorem placed_run (targetDelayMs : UInt32) (slotSize : ℕ) (ops : List Op) :
    Placed (-256) (machine.run (create targetDelayMs slotSize) ops) := by
  apply machine.run_invariant ?_ (create_placed (-256) targetDelayMs slotSize) ops
  intro jb op h
  cases op with
  | put pkt nowMs =>
    refine put_placed h nowMs ?_
    intro hwin _
    have := hwin.1
    omega
  | get maxLen nowMs => exact getEx_placed h (by decide) (by decide) maxLen nowMs

/-- The arguments of a `get`: the size of the output and the time. -/
structure Call where
  maxLen : ℕ
  nowMs : UInt64

/-- Every buffered packet has waited for the target delay and fits the output. -/
def Ripe (jb : Buffer) (call : Call) : Prop :=
  ∀ k slot, jb.slots k = some slot →
    slot.arrivalTime.toNat + jb.targetDelayMs.toNat ≤ call.nowMs.toNat ∧
      slot.data.length ≤ call.maxLen

/-- The slot holds a packet at or after the output in serial order. -/
def Waiting (jb : Buffer) (k : Fin 256) (slot : Slot) : Prop :=
  jb.slots k = some slot ∧ 0 ≤ seqDiff slot.sequence jb.nextSeqOut

/-- The buffer after the first `n` calls of a row. -/
def afterCalls (jb : Buffer) (calls : ℕ → Call) : ℕ → Buffer
  | 0 => jb
  | n + 1 => (getEx (afterCalls jb calls n) (calls n).maxLen (calls n).nowMs).1

/-- Answer of the `n`-th call of a row. -/
def callResult (jb : Buffer) (calls : ℕ → Call) (n : ℕ) : GetResult :=
  (getEx (afterCalls jb calls n) (calls n).maxLen (calls n).nowMs).2

/-- The call hands out or counts lost the next packet, and moves the output on. -/
def Advances (jb : Buffer) (call : Call) : Prop :=
  ((getEx jb call.maxLen call.nowMs).2 = .lost ∨
    ∃ out, (getEx jb call.maxLen call.nowMs).2 = .packet out) ∧
  (getEx jb call.maxLen call.nowMs).1.nextSeqOut = jb.nextSeqOut + 1

/-- While a packet waits the next call advances, and 256 calls hand out every
waiting packet at its turn. -/
def Drains (jb : Buffer) (calls : ℕ → Call) : Prop :=
  ∀ k slot, Waiting jb k slot → Advances jb (calls 0) ∧
    ∃ n, n < 256 ∧ (afterCalls jb calls n).nextSeqOut = slot.sequence ∧
      callResult jb calls n = .packet ⟨slot.data, slot.timestamp, slot.marker⟩

/-- One of the 64 slots from the `j`-th on is filled. -/
def Near (jb : Buffer) (j : ℕ) : Prop :=
  ∃ i, i < 64 ∧ (ahead jb (j + i)).isSome = true

/-- No 64 empty slots in a row lie between the output and a waiting packet. -/
def NoWideGap (jb : Buffer) : Prop :=
  ∀ k slot, Waiting jb k slot → ∀ j : ℕ, (j : ℤ) < seqDiff slot.sequence jb.nextSeqOut → Near jb j

instance (jb : Buffer) (call : Call) : Decidable (Ripe jb call) :=
  inferInstanceAs (Decidable (∀ k, ∀ slot ∈ jb.slots k,
    slot.arrivalTime.toNat + jb.targetDelayMs.toNat ≤ call.nowMs.toNat ∧
      slot.data.length ≤ call.maxLen))

instance (jb : Buffer) (j : ℕ) : Decidable (Near jb j) :=
  inferInstanceAs (Decidable (∃ i, i < 64 ∧ (ahead jb (j + i)).isSome = true))

section Row

variable {jb jb' : Buffer} {j : ℕ}

/-- `jb'` is `jb` with the output moved on by `j` places, the slots of which are
no longer looked at. -/
structure Passed (jb : Buffer) (j : ℕ) (jb' : Buffer) : Prop where
  initialized : jb'.initialized = jb.initialized
  targetDelayMs : jb'.targetDelayMs = jb.targetDelayMs
  nextSeqOut : (jb'.nextSeqOut.toNat : ℤ) = ((jb.nextSeqOut.toNat : ℤ) + j) % 65536
  slots : ∀ i, j + i < 256 → ahead jb' i = ahead jb (j + i)

theorem Passed.refl (jb : Buffer) :
    Passed jb 0 jb where
  initialized := rfl
  targetDelayMs := rfl
  nextSeqOut := by
    have := jb.nextSeqOut.toNat_lt
    omega
  slots i _ := by rw [Nat.zero_add]

theorem ahead_servedBuffer (jb : Buffer) {i : ℕ} (hi : i + 1 < 256) :
    ahead (servedBuffer jb) i = ahead jb (i + 1) := by
  have hsucc := Serial.toNat_succ jb.nextSeqOut
  have hidx : slotIndex ((jb.nextSeqOut + 1).toNat + i) =
      slotIndex (jb.nextSeqOut.toNat + (i + 1)) := by
    apply Fin.ext
    simp only [slotIndex]
    omega
  have hne : slotIndex (jb.nextSeqOut.toNat + (i + 1)) ≠ slotIndex jb.nextSeqOut.toNat := by
    intro heq
    have hval := congrArg Fin.val heq
    simp only [slotIndex] at hval
    omega
  rw [ahead, ahead, servedBuffer]
  dsimp only
  rw [hidx, Function.update_of_ne hne]

theorem Passed.succ (h : Passed jb j jb') {jb'' : Buffer}
    (hinit : jb''.initialized = jb'.initialized) (hdelay : jb''.targetDelayMs = jb'.targetDelayMs)
    (hnext : jb''.nextSeqOut = jb'.nextSeqOut + 1)
    (hslots : ∀ i, i + 1 < 256 → ahead jb'' i = ahead jb' (i + 1)) :
    Passed jb (j + 1) jb'' where
  initialized := hinit.trans h.initialized
  targetDelayMs := hdelay.trans h.targetDelayMs
  nextSeqOut := by
    have hsucc := Serial.toNat_succ jb'.nextSeqOut
    have hpos := h.nextSeqOut
    rw [hnext]
    omega
  slots i hi := by
    rw [hslots i (by omega), h.slots (i + 1) (by omega), Nat.add_right_comm, Nat.add_assoc]

/-- What a `get` answers when the slot `j` places in front is looked at. -/
def turnResult (content : Option Slot) : GetResult :=
  match content with
  | none => .lost
  | some slot => .packet ⟨slot.data, slot.timestamp, slot.marker⟩

theorem ripe_delay {call : Call} {slot : Slot} {i : ℕ} (hripe : Ripe jb call)
    (hslot : ahead jb i = some slot) :
    ¬call.nowMs - slot.arrivalTime < jb.targetDelayMs.toUInt64 ∧
      ¬slot.data.length > call.maxLen := by
  obtain ⟨hdelay, hlen⟩ := hripe _ slot hslot
  refine ⟨?_, by omega⟩
  have hle : slot.arrivalTime ≤ call.nowMs := by
    rw [UInt64.le_iff_toNat_le]
    omega
  rw [UInt64.lt_iff_toNat_lt, UInt64.toNat_sub_of_le _ _ hle, UInt32.toNat_toUInt64]
  omega

theorem Passed.get_near (h : Passed jb j jb') (hinit : jb.initialized = true) (hj : j + 64 ≤ 256)
    {call : Call} (hripe : Ripe jb call) (hnear : Near jb j) :
    Passed jb (j + 1) (getEx jb' call.maxLen call.nowMs).1 ∧
      (getEx jb' call.maxLen call.nowMs).2 = turnResult (ahead jb j) := by
  have hinit' : jb'.initialized = true := h.initialized.trans hinit
  have hcur : ahead jb' 0 = ahead jb j := h.slots 0 (by omega)
  cases hslot : ahead jb j with
  | none =>
    have hfuture : haveFuture jb' = true := by
      obtain ⟨i, hi, hsome⟩ := hnear
      have hpos : 1 ≤ i := by
        rw [Nat.one_le_iff_ne_zero]
        rintro rfl
        simp [hslot] at hsome
      refine (haveFuture_iff jb').mpr ⟨i, hpos, by omega, ?_⟩
      rw [h.slots i (by omega)]
      exact hsome
    have hget : getEx jb' call.maxLen call.nowMs = (lostBuffer jb', .lost) := by
      simp [getEx, hinit', hcur, hslot, hfuture]
    rw [hget]
    exact ⟨h.succ rfl rfl rfl (fun i _ => ahead_lostBuffer jb' i), rfl⟩
  | some slot =>
    obtain ⟨hdelay, hlen⟩ := ripe_delay hripe hslot
    have hget : getEx jb' call.maxLen call.nowMs =
        (servedBuffer jb', .packet ⟨slot.data, slot.timestamp, slot.marker⟩) := by
      rw [getEx, if_neg (by simp [hinit']), hcur, hslot]
      dsimp only
      rw [h.targetDelayMs, if_neg hdelay, if_neg hlen]
    rw [hget]
    exact ⟨h.succ rfl rfl rfl (fun i hi => ahead_servedBuffer jb' hi), rfl⟩

theorem Passed.get_far (h : Passed jb j jb') (hj : j + 64 ≤ 256) (call : Call) (hfar : ¬Near jb j) :
    getEx jb' call.maxLen call.nowMs = (jb', .notReady) := by
  have hempty : ∀ i, i < 64 → ahead jb' i = none := by
    intro i hi
    rw [h.slots i (by omega)]
    by_contra hsome
    exact hfar ⟨i, hi, Option.isSome_iff_ne_none.mpr hsome⟩
  have hfuture : haveFuture jb' = false := by
    rw [Bool.eq_false_iff]
    intro htrue
    obtain ⟨i, _, hi, hsome⟩ := (haveFuture_iff jb').mp htrue
    simp [hempty i (by omega)] at hsome
  rw [getEx, hempty 0 (by omega), hfuture]
  cases jb'.initialized with
  | false => rfl
  | true => rfl

variable {calls : ℕ → Call}

theorem afterCalls_passed (hinit : jb.initialized = true) (hripe : ∀ n, Ripe jb (calls n)) {n : ℕ}
    (hn : n ≤ 128) (hnear : ∀ j, j < n → Near jb j) : Passed jb n (afterCalls jb calls n) := by
  induction n with
  | zero => exact Passed.refl jb
  | succ n ih =>
    have hbef := ih (by omega) (fun j hj => hnear j (by omega))
    exact (hbef.get_near hinit (by omega) (hripe n) (hnear n (by omega))).1

theorem afterCalls_stuck (h : Passed jb j (afterCalls jb calls j)) (hj : j + 64 ≤ 256)
    (hfar : ¬Near jb j) {n : ℕ} (hn : j ≤ n) : afterCalls jb calls n = afterCalls jb calls j := by
  induction n, hn using Nat.le_induction with
  | base => rfl
  | succ n _ ih => rw [afterCalls, ih, h.get_far hj (calls n) hfar]

end Row

variable {jb : Buffer} {calls : ℕ → Call} {low : ℤ}

theorem Placed.ahead_waiting (h : Placed low jb) {k : Fin 256} {slot : Slot} {d : ℕ}
    (hslot : jb.slots k = some slot) (hd : seqDiff slot.sequence jb.nextSeqOut = d) :
    ahead jb d = some slot := by
  have hidx := h.index_ahead hslot
  rw [hd] at hidx
  have hk : slotIndex (jb.nextSeqOut.toNat + d) = k := by
    apply Fin.ext
    simp only [slotIndex]
    omega
  rw [ahead, hk, hslot]

theorem Placed.initialized_of_slot (h : Placed low jb) {k : Fin 256} {slot : Slot}
    (hslot : jb.slots k = some slot) : jb.initialized = true := by
  rw [← Bool.not_eq_false]
  intro hinit
  simp [h.empty hinit k] at hslot

/-- The output is at a waiting packet exactly after as many advances as it is
away. -/
theorem Passed.at_sequence {jb' : Buffer} {slot : Slot} {d n : ℕ} (h : Passed jb n jb')
    (hd : seqDiff slot.sequence jb.nextSeqOut = d) (hd' : d < 128) (hn : n ≤ 128) :
    jb'.nextSeqOut = slot.sequence ↔ n = d := by
  have hadd := Serial.add_diff slot.sequence jb.nextSeqOut
  have hpos := h.nextSeqOut
  rw [seqDiff] at hd
  rw [← UInt16.toNat_inj]
  constructor
  · intro heq
    omega
  · rintro rfl
    omega

theorem drains_of_noWideGap (h : Placed low jb) (hripe : ∀ n, Ripe jb (calls n))
    (hgap : NoWideGap jb) : Drains jb calls := by
  rintro k slot ⟨hslot, hnonneg⟩
  obtain ⟨d, hd⟩ := Int.eq_ofNat_of_zero_le hnonneg
  have hhigh := h.lt_high k slot hslot
  have hinit := h.initialized_of_slot hslot
  have hahead := h.ahead_waiting hslot hd
  have hself : Near jb d := ⟨0, by omega, by simp [hahead]⟩
  have hnear : ∀ j, j < d → Near jb j := by
    intro j hj
    exact hgap k slot ⟨hslot, hnonneg⟩ j (by omega)
  constructor
  · have hfirst : Near jb 0 := by
      rcases Nat.eq_zero_or_pos d with rfl | hpos
      · exact hself
      · exact hnear 0 hpos
    have hstep := (Passed.refl jb).get_near hinit (by omega) (hripe 0) hfirst
    refine ⟨?_, ?_⟩
    · rw [hstep.2]
      cases ahead jb 0 with
      | none => exact Or.inl rfl
      | some slot₀ => exact Or.inr ⟨_, rfl⟩
    · have hpos := hstep.1.nextSeqOut
      have hsucc := Serial.toNat_succ jb.nextSeqOut
      rw [← UInt16.toNat_inj]
      omega
  · have hpass := afterCalls_passed hinit hripe (n := d) (by omega) hnear
    refine ⟨d, by omega, (hpass.at_sequence hd (by omega) (by omega)).mpr rfl, ?_⟩
    rw [callResult, (hpass.get_near hinit (by omega) (hripe d) hself).2, hahead]
    rfl

theorem noWideGap_of_drains (h : Placed low jb) (hripe : ∀ n, Ripe jb (calls n))
    (hdrains : Drains jb calls) : NoWideGap jb := by
  classical
  rintro k slot ⟨hslot, hnonneg⟩ j hj
  obtain ⟨d, hd⟩ := Int.eq_ofNat_of_zero_le hnonneg
  have hhigh := h.lt_high k slot hslot
  have hinit := h.initialized_of_slot hslot
  by_contra hfar
  -- The row stops at the first place from which 64 slots are empty.
  have hex : ∃ j, ¬Near jb j := ⟨j, hfar⟩
  have hle : Nat.find hex ≤ j := Nat.find_min' hex hfar
  have hnear : ∀ j', j' < Nat.find hex → Near jb j' := by
    intro j' hj'
    exact not_not.mp (Nat.find_min hex hj')
  have hstop := afterCalls_passed hinit hripe (by omega) hnear
  obtain ⟨_, n, _, hturn, _⟩ := hdrains k slot ⟨hslot, hnonneg⟩
  rcases Nat.lt_or_ge n (Nat.find hex) with hlt | hge
  · have hpass := afterCalls_passed hinit hripe (n := n) (by omega)
      (fun j' hj' => hnear j' (by omega))
    have := (hpass.at_sequence hd (by omega) (by omega)).mp hturn
    omega
  · rw [afterCalls_stuck hstop (by omega) (Nat.find_spec hex) hge] at hturn
    have := (hstop.at_sequence hd (by omega) (by omega)).mp hturn
    omega

/--
**Progress.**

In every reachable state whose packets are ripe, the next `get` advances and
256 `get` calls hand out every waiting packet if and only if no 64 empty slots
in a row lie between the output and a waiting packet.
-/
theorem drains_iff_noWideGap (targetDelayMs : UInt32) (slotSize : ℕ) (ops : List Op)
    (calls : ℕ → Call)
    (hripe : ∀ n, Ripe (machine.run (create targetDelayMs slotSize) ops) (calls n)) :
    Drains (machine.run (create targetDelayMs slotSize) ops) calls ↔
      NoWideGap (machine.run (create targetDelayMs slotSize) ops) := by
  have hplaced := placed_run targetDelayMs slotSize ops
  constructor
  · exact noWideGap_of_drains hplaced hripe
  · exact drains_of_noWideGap hplaced hripe

/-- One packet is handed out, and the next to arrive is `seq`. -/
def burstLoss (seq : UInt16) : List Op :=
  [.put (bytePacket 0 1) 0, .get 1500 0, .put (bytePacket seq 2) 0]

theorem drains_iff_noWideGap_burst :
    Drains (machine.run (create 0 1500) (burstLoss 64)) (fun _ => ⟨1500, 0⟩) := by
  apply (drains_iff_noWideGap 0 1500 (burstLoss 64) (fun _ => ⟨1500, 0⟩) ?_).mpr
  · rintro k slot ⟨hslot, _⟩ j hj
    have hfilled : ∀ k, ∀ slot ∈ (machine.run (create 0 1500) (burstLoss 64)).slots k,
        seqDiff slot.sequence (machine.run (create 0 1500) (burstLoss 64)).nextSeqOut = 63 := by
      decide +kernel
    have hnear : ∀ j, j < 63 → Near (machine.run (create 0 1500) (burstLoss 64)) j := by
      decide +kernel
    rw [hfilled k slot hslot] at hj
    exact hnear j (by omega)
  · intro _
    decide +kernel

theorem burstLoss_wedges :
    ¬∀ (targetDelayMs : UInt32) (slotSize : ℕ) (ops : List Op) (calls : ℕ → Call),
      (∀ n, Ripe (machine.run (create targetDelayMs slotSize) ops) (calls n)) →
        Drains (machine.run (create targetDelayMs slotSize) ops) calls := by
  intro hall
  have hripe : Ripe (machine.run (create 0 1500) (burstLoss 65)) ⟨1500, 1000⟩ := by
    decide +kernel
  have hdrains := hall 0 1500 (burstLoss 65) (fun _ => ⟨1500, 1000⟩) (fun _ => hripe)
  have hadvance := (hdrains 65 (slotOf (bytePacket 65 2) 0) ⟨by decide, by decide⟩).1.1
  have hanswer : (getEx (machine.run (create 0 1500) (burstLoss 65)) 1500 1000).2 = .notReady := by
    decide +kernel
  rw [hanswer] at hadvance
  simp at hadvance

end TurboMedia.JitterBuffer
