import Mathlib.Tactic

/-!
# Retransmission history

Model of `rtp_history.c` and of the sender side of `nack.c`.  A packet is kept in the slot of
its sequence number modulo the number of slots, which need not divide 65536.

**Result.**  `history_recent_iff`: the last packets put can all be retransmitted exactly when no
two of them share a slot, and `shared_iff` says when two of them do.
-/

namespace TurboMedia.RtpHistory

/-- `history_slot_t`. -/
structure HistorySlot where
  data : List UInt8
  len : ℕ
  seq : UInt16
  valid : Bool

/-- `rtp_history_t`. -/
structure History where
  slots : ℕ → HistorySlot
  maxPackets : ℕ
  maxPacketSize : ℕ

/-- `SIZE_MAX`. -/
def sizeMax : ℕ := 2 ^ 64 - 1

/-- `rtp_history_create`, when memory is available; `garbage` is what `malloc` left there. -/
def create (maxPackets maxPacketSize : ℕ) (garbage : ℕ → List UInt8) : Option History :=
  if maxPackets = 0 ∨ maxPacketSize = 0 ∨ maxPackets > sizeMax / 24 ∨
      maxPackets > sizeMax / maxPacketSize then
    none
  else some ⟨fun i => ⟨garbage i, 0, 0, false⟩, maxPackets, maxPacketSize⟩

/-- `rtp_history_put`. -/
def put (history : History) (seq : UInt16) (packet : List UInt8) : History :=
  if packet.length > history.maxPacketSize then history
  else
    let idx := seq.toNat % history.maxPackets
    { history with
      slots := Function.update history.slots idx
        ⟨packet ++ (history.slots idx).data.drop packet.length, packet.length, seq, true⟩ }

/-- `rtp_history_get`. -/
def get (history : History) (seq : UInt16) (maxLen : ℕ) : Option (List UInt8) :=
  let slot := history.slots (seq.toNat % history.maxPackets)
  if slot.valid = false ∨ slot.seq ≠ seq then none
  else if slot.len > maxLen then none
  else some (slot.data.take slot.len)

/-- `nack_sender_t`. -/
structure NackSender where
  ssrc : UInt32
  history : History
  nacksReceived : ℤ
  packetsRetransmitted : ℤ
  retransmitFailures : ℤ

/-- The loop of `nack_sender_process_nack`, with the packets that are retransmitted. -/
def processFrom (sender : NackSender) : List UInt16 → NackSender × List (List UInt8)
  | [] => (sender, [])
  | seq :: rest =>
    match get sender.history seq 2048 with
    | some packet =>
      let out := processFrom
        { sender with packetsRetransmitted := sender.packetsRetransmitted + 1 } rest
      (out.1, packet :: out.2)
    | none => processFrom { sender with retransmitFailures := sender.retransmitFailures + 1 } rest

/-- `nack_sender_process_nack`; the result is the number of packets. -/
def processNack (sender : NackSender) (seqNums : List UInt16) : NackSender × List (List UInt8) :=
  if seqNums = [] then (sender, [])
  else processFrom { sender with nacksReceived := sender.nacksReceived + 1 } seqNums

/-- Packets put under consecutive sequence numbers. -/
def putAll (history : History) : UInt16 → List (List UInt8) → History
  | _, [] => history
  | first, packet :: rest => putAll (put history first packet) (first + 1) rest

section Slots

variable {history : History} {first : UInt16} {packets : List (List UInt8)}

/-- The `k`-th sequence number of a run. -/
def seqAt (first : UInt16) (k : ℕ) : ℕ :=
  (first.toNat + k) % 65536

theorem seqAt_succ (first : UInt16) (k : ℕ) : seqAt (first + 1) k = seqAt first (k + 1) := by
  rw [seqAt, seqAt, UInt16.toNat_add]
  change ((first.toNat + 1) % 65536 + k) % 65536 = _
  omega

/-- A slot has a packet. -/
structure Has (slot : HistorySlot) (seq : ℕ) (packet : List UInt8) : Prop where
  valid : slot.valid = true
  seq : slot.seq.toNat = seq
  len : slot.len = packet.length
  data : slot.data.take slot.len = packet

/-- The slot has the last packet of a run that belongs there. -/
structure Latest (n : ℕ) (first : UInt16) (packets : List (List UInt8)) (i : ℕ)
    (slot : HistorySlot) (k : ℕ) : Prop where
  lt : k < packets.length
  here : seqAt first k % n = i
  last : ∀ k', k < k' → k' < packets.length → seqAt first k' % n ≠ i
  has : Has slot (seqAt first k) packets[k]

theorem putAll_maxPackets (history : History) (first : UInt16) (packets : List (List UInt8)) :
    (putAll history first packets).maxPackets = history.maxPackets := by
  induction packets generalizing history first with
  | nil => rfl
  | cons packet rest ih =>
    rw [putAll, ih, put]
    split_ifs <;> rfl

theorem slot_putAll (hsize : ∀ packet ∈ packets, packet.length ≤ history.maxPacketSize) (i : ℕ) :
    (∃ k, Latest history.maxPackets first packets i ((putAll history first packets).slots i) k) ∨
      (∀ k < packets.length, seqAt first k % history.maxPackets ≠ i) ∧
        (putAll history first packets).slots i = history.slots i := by
  induction packets generalizing history first with
  | nil => exact .inr ⟨fun k hk => absurd hk (Nat.not_lt_zero k), rfl⟩
  | cons packet rest ih =>
    obtain ⟨hpkt, hrest⟩ := List.forall_mem_cons.mp hsize
    have hzero : seqAt first 0 = first.toNat := Nat.mod_eq_of_lt first.toNat_lt
    have hput : put history first packet = { history with
        slots := Function.update history.slots (first.toNat % history.maxPackets)
          ⟨packet ++ (history.slots (first.toNat % history.maxPackets)).data.drop packet.length,
            packet.length, first, true⟩ } := if_neg (not_lt.mpr hpkt)
    rw [putAll]
    have hnext := @ih (put history first packet) (first + 1) (by rw [hput]; exact hrest)
    rw [show (put history first packet).maxPackets = history.maxPackets by rw [hput]] at hnext
    rcases hnext with ⟨k, hk⟩ | ⟨hnone, hsame⟩
    · refine .inl ⟨k + 1, Nat.succ_lt_succ hk.lt, ?_, ?_, ?_⟩
      · rw [← seqAt_succ]
        exact hk.here
      · intro k' hlt hk'
        obtain ⟨j, rfl⟩ : ∃ j, k' = j + 1 := ⟨k' - 1, by omega⟩
        rw [← seqAt_succ]
        exact hk.last j (by omega) (Nat.lt_of_succ_lt_succ hk')
      · rw [← seqAt_succ]
        exact hk.has
    · rw [hsame, hput]
      dsimp only
      by_cases hi : first.toNat % history.maxPackets = i
      · refine .inl ⟨0, Nat.succ_pos _, by rw [hzero, hi], fun k' hlt hk' => ?_, ?_⟩
        · obtain ⟨j, rfl⟩ : ∃ j, k' = j + 1 := ⟨k' - 1, by omega⟩
          rw [← seqAt_succ]
          exact hnone j (Nat.lt_of_succ_lt_succ hk')
        · rw [← hi, Function.update_self]
          exact ⟨rfl, hzero.symm, rfl, List.take_left⟩
      · refine .inr ⟨fun k hk => ?_, Function.update_of_ne (Ne.symm hi) _ _⟩
        cases k with
        | zero => rwa [hzero]
        | succ k =>
          rw [← seqAt_succ]
          exact hnone k (Nat.lt_of_succ_lt_succ hk)

theorem get_has {s : UInt16} {seq maxLen : ℕ} {packet : List UInt8}
    (h : Has (history.slots (s.toNat % history.maxPackets)) seq packet)
    (hmax : packet.length ≤ maxLen) :
    get history s maxLen = if s.toNat = seq then some packet else none := by
  unfold get
  by_cases hs : s.toNat = seq
  · have hseq : (history.slots (s.toNat % history.maxPackets)).seq = s := by
      rw [← UInt16.toNat_inj, h.seq, hs]
    rw [if_neg (by simp [h.valid, hseq]), if_neg (by rw [h.len]; omega), if_pos hs, h.data]
  · rw [if_pos, if_neg hs]
    right
    intro heq
    rw [← heq] at hs
    exact hs (heq ▸ h.seq)

end Slots

section Window

variable {n m : ℕ} {first : UInt16}

/-- How many of the last packets are to be kept. -/
def window (n m : ℕ) : ℕ :=
  min m (min n 65536)

def lastSeq (first : UInt16) (m : ℕ) : ℕ :=
  (first.toNat + m + 65535) % 65536

/-- How many numbers before the last one a number was put. -/
def back (first : UInt16) (m : ℕ) (s : UInt16) : ℕ :=
  (lastSeq first m + 65536 - s.toNat) % 65536

/-- The packet that is to be found under a sequence number. -/
def wanted (n : ℕ) (first : UInt16) (packets : List (List UInt8)) (s : UInt16) :
    Option (List UInt8) :=
  if back first packets.length s < window n packets.length then
    packets[packets.length - 1 - back first packets.length s]?
  else none

/-- Two of the packets to be kept belong into one slot. -/
def Shared (n : ℕ) (first : UInt16) (m : ℕ) : Prop :=
  ∃ k₁ k₂, m - window n m ≤ k₁ ∧ k₁ < k₂ ∧ k₂ < m ∧ seqAt first k₁ % n = seqAt first k₂ % n

/-- The packets to be kept do not lie on both sides of the wrap, or too few of them do. -/
def fits (n : ℕ) (first : UInt16) (m : ℕ) : Prop :=
  window n m ≤ lastSeq first m + 1 ∨ window n m < 65535 % n + 2

theorem seqAt_back {k : ℕ} (hk : k < m) (hnear : m - 1 - k < 65536) :
    seqAt first k = if m - 1 - k ≤ lastSeq first m then lastSeq first m - (m - 1 - k)
      else lastSeq first m + 65536 - (m - 1 - k) := by
  rw [seqAt, lastSeq]
  split_ifs <;> omega

/-- Two numbers on one side of the wrap are too close to share a slot, and numbers on both sides
share one when their distance leaves a multiple of `n`. -/
theorem shared_iff (hn : 0 < n) : Shared n first m ↔ ¬ fits n first m := by
  have hlast : lastSeq first m < 65536 := Nat.mod_lt _ (by decide)
  have hmod := Nat.div_add_mod 65535 n
  have hmodlt := Nat.mod_lt 65535 hn
  rw [fits, not_or, not_le, not_lt]
  constructor
  · rintro ⟨k₁, k₂, hlow, hlt, hhigh, hsame⟩
    have hw : window n m ≤ m ∧ window n m ≤ n ∧ window n m ≤ 65536 := by
      unfold window
      omega
    rw [seqAt_back (m := m) (by omega) (by omega), seqAt_back hhigh (by omega)] at hsame
    have hnear : ∀ a b, a < b → b - a < n → a % n ≠ b % n := by
      intro a b hab hclose heq
      have hdvd := (Nat.modEq_iff_dvd' hab.le).mp heq
      exact absurd (Nat.le_of_dvd (by omega) hdvd) (by omega)
    split_ifs at hsame with h₁ h₂ h₂
    · exact absurd hsame (hnear _ _ (by omega) (by omega))
    · omega
    · -- the number before the wrap and the one behind it differ by 65536 less their distance
      obtain ⟨q, hq⟩ := (Nat.modEq_iff_dvd' (by omega)).mp hsame.symm
      have hle : q ≤ 65535 / n := by
        rw [Nat.le_div_iff_mul_le hn, Nat.mul_comm]
        omega
      have hmul := Nat.mul_le_mul_left n hle
      omega
    · exact absurd hsame (hnear _ _ (by omega) (by omega))
  · rintro ⟨hcross, hmany⟩
    have hw : window n m ≤ m ∧ window n m ≤ 65536 := by
      unfold window
      omega
    -- the distance that leaves the largest multiple of `n`
    have hdiv : 65536 - (65535 % n + 1) = n * (65535 / n) := by omega
    obtain ⟨x, hx⟩ : ∃ x, x = min (lastSeq first m) (window n m - 2 - 65535 % n) := ⟨_, rfl⟩
    refine ⟨m - 1 - (x + (65535 % n + 1)), m - 1 - x, by omega, by omega, by omega, ?_⟩
    rw [seqAt_back (m := m) (by omega) (by omega), seqAt_back (m := m) (by omega) (by omega)]
    rw [if_neg (by omega), if_pos (by omega)]
    apply Nat.ModEq.symm
    refine (Nat.modEq_iff_dvd' (by omega)).mpr ⟨65535 / n, ?_⟩
    omega

theorem back_eq {s : UInt16} {k : ℕ} (hk : k < m) (hnear : m - 1 - k < 65536)
    (hs : s.toNat = seqAt first k) : back first m s = m - 1 - k := by
  have hlast : lastSeq first m < 65536 := Nat.mod_lt _ (by decide)
  rw [back, hs, seqAt_back hk hnear]
  split_ifs <;> omega

theorem seqAt_of_back {s : UInt16} (hback : back first m s < m) :
    seqAt first (m - 1 - back first m s) = s.toNat := by
  have hlast : lastSeq first m < 65536 := Nat.mod_lt _ (by decide)
  have hs := s.toNat_lt
  have hlt : back first m s < 65536 := Nat.mod_lt _ (by decide)
  rw [seqAt_back (m := m) (by omega) (by omega)]
  unfold back at hback hlt ⊢
  split_ifs <;> omega

/-- As many packets as there are slots fill all of them, where no two share one. -/
theorem slot_filled {i : ℕ} (hshared : ¬ Shared n first m) (hn : n ≤ m) (hmax : n ≤ 65536)
    (hi : i < n) : ∃ k, m - n ≤ k ∧ k < m ∧ seqAt first k % n = i := by
  have hw : window n m = n := by
    unfold window
    omega
  let place : Fin n → Fin n := fun j =>
    ⟨seqAt first (m - n + j) % n, Nat.mod_lt _ (by omega)⟩
  have hinj : Function.Injective place := by
    intro a b hab
    have hsame : seqAt first (m - n + a) % n = seqAt first (m - n + b) % n := congrArg Fin.val hab
    by_contra hne
    rcases Nat.lt_or_gt_of_ne (fun heq => hne (Fin.ext heq)) with hlt | hlt
    · exact hshared ⟨m - n + a, m - n + b, by omega, by omega, by omega, hsame⟩
    · exact hshared ⟨m - n + b, m - n + a, by omega, by omega, by omega, hsame.symm⟩
  obtain ⟨j, hj⟩ := Finite.surjective_of_injective hinj ⟨i, hi⟩
  exact ⟨m - n + j, by omega, by omega, congrArg Fin.val hj⟩

end Window

variable {n size : ℕ} {history : History} {first : UInt16} {packets : List (List UInt8)}

/-- The last packets are found and retransmitted, and no others. -/
structure KeepsRecent (n : ℕ) (first : UInt16) (packets : List (List UInt8))
    (history : History) : Prop where
  found : ∀ (s : UInt16) (maxLen : ℕ), history.maxPacketSize ≤ maxLen →
    get history s maxLen = wanted n first packets s
  resent : history.maxPacketSize ≤ 2048 →
    ∀ (ssrc : UInt32) (received sent failed : ℤ) (seqNums : List UInt16),
      (processNack ⟨ssrc, history, received, sent, failed⟩ seqNums).2 =
        seqNums.filterMap (wanted n first packets)

theorem processFrom_resent {f : UInt16 → Option (List UInt8)} {sender : NackSender}
    (hget : ∀ s, get sender.history s 2048 = f s) (seqNums : List UInt16) :
    (processFrom sender seqNums).2 = seqNums.filterMap f := by
  induction seqNums generalizing sender with
  | nil => rfl
  | cons s rest ih =>
    rw [processFrom, List.filterMap_cons, hget]
    cases hf : f s with
    | none => exact ih hget
    | some packet => exact congrArg (List.cons packet) (ih hget)

variable {garbage : ℕ → List UInt8}

theorem create_some (h : create n size garbage = some history) :
    0 < n ∧ history = ⟨fun i => ⟨garbage i, 0, 0, false⟩, n, size⟩ := by
  unfold create at h
  split_ifs at h with hbad
  exact ⟨by omega, (Option.some.inj h).symm⟩

theorem putAll_maxPacketSize (history : History) (first : UInt16) (packets : List (List UInt8)) :
    (putAll history first packets).maxPacketSize = history.maxPacketSize := by
  induction packets generalizing history first with
  | nil => rfl
  | cons packet rest ih =>
    rw [putAll, ih, put]
    split_ifs <;> rfl

theorem get_putAll (hcreate : create n size garbage = some history)
    (hsize : ∀ packet ∈ packets, packet.length ≤ size) (s : UInt16) {maxLen : ℕ}
    (hmax : size ≤ maxLen) :
    (∃ k, ∃ hk : k < packets.length, seqAt first k % n = s.toNat % n ∧
      (∀ k', k < k' → k' < packets.length → seqAt first k' % n ≠ s.toNat % n) ∧
      get (putAll history first packets) s maxLen =
        if s.toNat = seqAt first k then some packets[k] else none) ∨
      (∀ k < packets.length, seqAt first k % n ≠ s.toNat % n) ∧
        get (putAll history first packets) s maxLen = none := by
  obtain ⟨-, rfl⟩ := create_some hcreate
  have hput := putAll_maxPackets ⟨fun i => ⟨garbage i, 0, 0, false⟩, n, size⟩ first packets
  rcases @slot_putAll ⟨fun i => ⟨garbage i, 0, 0, false⟩, n, size⟩ _ _
    hsize (s.toNat % n) with ⟨k, hk⟩ | ⟨hnone, hsame⟩
  · refine .inl ⟨k, hk.lt, hk.here, hk.last, get_has ?_ ?_⟩
    · rw [hput]
      exact hk.has
    · exact (hsize _ (List.getElem_mem _)).trans hmax
  · refine .inr ⟨hnone, ?_⟩
    unfold get
    rw [hput]
    rw [hsame]
    exact if_pos (.inl rfl)

theorem found_of_unshared (hcreate : create n size garbage = some history)
    (hsize : ∀ packet ∈ packets, packet.length ≤ size) (hshared : ¬ Shared n first packets.length)
    (s : UInt16) {maxLen : ℕ} (hmax : size ≤ maxLen) :
    get (putAll history first packets) s maxLen = wanted n first packets s := by
  obtain ⟨hn, -⟩ := create_some hcreate
  obtain ⟨m, hm⟩ : ∃ m, m = packets.length := ⟨_, rfl⟩
  have hw : window n m ≤ m ∧ window n m ≤ n ∧ window n m ≤ 65536 := by
    unfold window
    omega
  -- a number that is wanted has a packet in its slot
  have hwanted : back first m s < window n m → m - window n m ≤ m - 1 - back first m s ∧
      seqAt first (m - 1 - back first m s) = s.toNat :=
    fun hback => ⟨by omega, seqAt_of_back (by omega)⟩
  rcases get_putAll hcreate hsize s hmax with
    ⟨k, hk, hhere, hlast, hget⟩ | ⟨hnone, hget⟩
  · rw [← hm] at hk hlast hshared
    rw [hget, wanted, ← hm]
    by_cases hs : s.toNat = seqAt first k
    · -- the packet is one of the last, or one of these would have taken its slot
      have hrecent : m - window n m ≤ k := by
        by_contra hold
        have hfull : window n m = min n 65536 := by
          unfold window at hold ⊢
          omega
        by_cases hmany : n ≤ 65536
        · obtain ⟨k', hlow, hhigh, hsame⟩ := slot_filled hshared (by omega) hmany
            (Nat.mod_lt s.toNat hn)
          exact hlast k' (by omega) hhigh hsame
        · have hback : back first m s < 65536 := Nat.mod_lt _ (by decide)
          obtain ⟨hlow, hseq⟩ := hwanted (by omega)
          exact hlast (m - 1 - back first m s) (by omega) (by omega) (by rw [hseq])
      have hback := back_eq (by omega) (by omega) hs (m := m)
      rw [if_pos hs, if_pos (by omega), hback, show m - 1 - (m - 1 - k) = k by omega,
        List.getElem?_eq_getElem]
    · rw [if_neg hs]
      symm
      apply if_neg
      intro hback
      obtain ⟨hlow, hseq⟩ := hwanted hback
      rcases Nat.lt_trichotomy (m - 1 - back first m s) k with hlt | heq | hgt
      · exact hshared ⟨_, k, hlow, hlt, hk, by rw [hseq, hhere]⟩
      · exact hs (by rw [← hseq, heq])
      · exact hlast (m - 1 - back first m s) hgt (by omega) (by rw [hseq])
  · rw [hget, wanted, ← hm]
    symm
    apply if_neg
    intro hback
    obtain ⟨-, hseq⟩ := hwanted hback
    exact hnone (m - 1 - back first m s) (by omega) (by rw [hseq])

theorem unshared_of_found (hcreate : create n size garbage = some history)
    (hsize : ∀ packet ∈ packets, packet.length ≤ size)
    (hfound : ∀ s : UInt16, get (putAll history first packets) s size = wanted n first packets s) :
    ¬ Shared n first packets.length := by
  rintro ⟨k₁, k₂, hlow, hlt, hhigh, hsame⟩
  have hw : window n packets.length ≤ 65536 ∧ window n packets.length ≤ packets.length := by
    unfold window
    omega
  obtain ⟨s, hs⟩ : ∃ s : UInt16, s.toNat = seqAt first k₁ :=
    ⟨UInt16.ofNat (seqAt first k₁), UInt16.toNat_ofNat_of_lt (Nat.mod_lt _ (by decide))⟩
  have hback := back_eq (by omega) (by omega) hs (m := packets.length)
  have hwanted : wanted n first packets s = some packets[k₁] := by
    rw [wanted, if_pos (by omega), hback,
      show packets.length - 1 - (packets.length - 1 - k₁) = k₁ by omega, List.getElem?_eq_getElem]
  rcases get_putAll hcreate hsize s le_rfl with
    ⟨k, hk, hhere, hlast, hget⟩ | ⟨hnone, hget⟩
  · have hlate : k₂ ≤ k := by
      by_contra hnot
      exact hlast k₂ (by omega) hhigh (by rw [← hsame, hs])
    rw [hfound, hwanted, hs, if_neg] at hget
    · cases hget
    · unfold seqAt
      omega
  · rw [hfound, hwanted] at hget
    cases hget

/-- The packets of a run of consecutive numbers are found and retransmitted as they should be
exactly when the last ones fit into their slots. -/
theorem history_recent_iff {garbage : ℕ → List UInt8}
    (hcreate : create n size garbage = some history)
    (hsize : ∀ packet ∈ packets, packet.length ≤ size) :
    KeepsRecent n first packets (putAll history first packets) ↔ fits n first packets.length := by
  obtain ⟨hn, rfl⟩ := create_some hcreate
  have hmax : (putAll ⟨fun i => ⟨garbage i, 0, 0, false⟩, n, size⟩ first packets).maxPacketSize =
      size := putAll_maxPacketSize _ first packets
  rw [← not_iff_not, ← shared_iff hn]
  constructor
  · intro hnot
    by_contra hshared
    have hfound := fun s maxLen hle =>
      @found_of_unshared _ _ _ _ _ _ hcreate hsize hshared s maxLen hle
    refine hnot ⟨fun s maxLen hle => hfound s maxLen (hmax ▸ hle), ?_⟩
    intro hbuffer ssrc received sent failed seqNums
    rw [processNack]
    split_ifs with hempty
    · rw [hempty]
      rfl
    · exact processFrom_resent (fun s => hfound s 2048 (hmax ▸ hbuffer)) seqNums
  · intro hshared hkeeps
    exact unshared_of_found hcreate hsize (fun s => hkeeps.found s size hmax.le) hshared

theorem history_recent_iff_two :
    KeepsRecent 2 65535 [[1], [2], [3]]
      (putAll ⟨fun _ => ⟨[0], 0, 0, false⟩, 2, 1⟩ 65535 [[1], [2], [3]]) :=
  (@history_recent_iff 2 1 _ _ _ (fun _ => [0])
    (by rw [create, if_neg (by decide)]) (by decide)).mpr (.inr (by decide))

/-- Three slots, and two packets across the wrap: the second takes the slot of the first. -/
theorem history_loses_recent :
    wanted 3 65535 [[1], [2]] 65535 = some [1] ∧
      get (putAll ⟨fun _ => ⟨[0], 0, 0, false⟩, 3, 1⟩ 65535 [[1], [2]]) 65535 1 = none ∧
      ¬ KeepsRecent 3 65535 [[1], [2]]
        (putAll ⟨fun _ => ⟨[0], 0, 0, false⟩, 3, 1⟩ 65535 [[1], [2]]) := by
  have hlost : get (putAll ⟨fun _ => ⟨[0], 0, 0, false⟩, 3, 1⟩ 65535 [[1], [2]]) 65535 1 =
      none := by
    decide
  refine ⟨by decide, hlost, fun h => ?_⟩
  have hfound := h.found 65535 1 (by decide)
  rw [hlost] at hfound
  exact absurd hfound (by decide)

/-- Packets put under any sequence numbers, in any order. -/
def putEach (history : History) (puts : List (UInt16 × List UInt8)) : History :=
  puts.foldl (fun history p => put history p.1 p.2) history

/-- The last packet of storable size that was put into a slot. -/
def lastPut (n size i : ℕ) (puts : List (UInt16 × List UInt8)) : Option (UInt16 × List UInt8) :=
  (puts.filter (fun p => p.2.length ≤ size && p.1.toNat % n = i)).getLast?

theorem slots_putEach (garbage : ℕ → List UInt8) (puts : List (UInt16 × List UInt8)) :
    ∃ slots, putEach ⟨fun i => ⟨garbage i, 0, 0, false⟩, n, size⟩ puts = ⟨slots, n, size⟩ ∧
      ∀ i, ((slots i).valid = false ∧ lastPut n size i puts = none) ∨
        ∃ p, lastPut n size i puts = some p ∧ Has (slots i) p.1.toNat p.2 := by
  induction puts using List.reverseRecOn with
  | nil => exact ⟨_, rfl, fun i => .inl ⟨rfl, rfl⟩⟩
  | append_singleton puts p ih =>
    obtain ⟨slots, heq, hslots⟩ := ih
    rw [putEach] at heq ⊢
    rw [List.foldl_concat, heq, put]
    simp only [lastPut, List.filter_append, List.filter_singleton] at hslots ⊢
    by_cases hsize : p.2.length ≤ size
    · rw [if_neg (not_lt.mpr hsize)]
      refine ⟨_, rfl, fun i => ?_⟩
      by_cases hi : p.1.toNat % n = i
      · subst hi
        exact .inr ⟨p, by simp [hsize], by simp, by simp, by simp, by simp⟩
      · simpa [Function.update_of_ne (Ne.symm hi), hi] using hslots i
    · rw [if_pos (not_le.mp hsize)]
      exact ⟨slots, rfl, fun i => by simpa [hsize] using hslots i⟩

/-- **A retransmission is the last packet put.**  Whatever was put, a number that is asked for
is answered with the last packet that was put into its slot, if it was put under this number and
fits the buffer, and with nothing otherwise. -/
theorem retransmits_last_put (hcreate : create n size garbage = some history)
    (puts : List (UInt16 × List UInt8)) (ssrc : UInt32) (received sent failed : ℤ)
    (seqNums : List UInt16) :
    (processNack ⟨ssrc, putEach history puts, received, sent, failed⟩ seqNums).2 =
      seqNums.filterMap (fun s => ((lastPut n size (s.toNat % n) puts).filter
        (fun p => p.1 = s && p.2.length ≤ 2048)).map Prod.snd) := by
  obtain ⟨-, rfl⟩ := create_some hcreate
  obtain ⟨slots, heq, hslots⟩ := slots_putEach garbage puts
  rw [heq, processNack]
  split_ifs with hempty
  · rw [hempty]
    rfl
  refine processFrom_resent (fun s => ?_) seqNums
  rw [get]
  dsimp only
  rcases hslots (s.toNat % n) with ⟨hvalid, hnone⟩ | ⟨p, hp, hhas⟩
  · rw [if_pos (.inl hvalid), hnone]
    rfl
  · have hseq := UInt16.toNat_inj.mp hhas.seq
    rw [hp, Option.filter_some, hhas.data, hhas.len, hhas.valid, hseq]
    grind

theorem retransmits_last_put_reused :
    (processNack ⟨1, putEach ⟨fun _ => ⟨[0], 0, 0, false⟩, 2, 1⟩
      [(7, [1]), (4, [2]), (9, [3])], 0, 0, 0⟩ [7, 4, 9]).2 = [[2], [3]] :=
  @retransmits_last_put 2 1 _ (fun _ => [0]) (by rw [create, if_neg (by decide)]) _ _ _ _ _ _

end TurboMedia.RtpHistory
