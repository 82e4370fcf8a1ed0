import Mathlib.Data.List.Sort
import Mathlib.Data.List.TakeWhile
import TurboMedia.Rtc.Twcc

/-!
# What a transport feedback reports

A feedback is built from the records that were registered since the last one.
This module settles when it reports exactly these arrivals.

**Input.**  Any run of registrations and feedback requests in which the pending
sequence numbers lie within 8192 consecutive values.

**Method.**  In such a window the serial order is the order of the places, so
the stored records are the first 8192 registrations, sorted (`Stored`).  The
copy loop lists consecutive sequence numbers in any case; its last entry is a
received one exactly if it never looks for a number that it has passed.

A number that was registered twice is looked for after it was passed, and the
loop then fills the message to its end.
-/

namespace TurboMedia.Twcc

open List Serial

/-- One call adds its record, or a feedback takes all records. -/
def pendingStep (receiver : Receiver) (records : List Record) : Op → List Record
  | .register record => records ++ [record]
  | .generate nowUs =>
    if (generateFeedback receiver nowUs).2.isSome then [] else records

/-- The records registered since the last feedback of a run. -/
def pending (receiver : Receiver) : List Op → List Record → List Record
  | [], records => records
  | op :: ops, records => pending (machine.next receiver op) ops (pendingStep receiver records op)

/-- The sequence numbers lie in the window of 8192 values that begins at `w`. -/
def InWindow (w : UInt16) (records : List Record) : Prop :=
  ∀ record ∈ records, offset w record.twccSeq < maxPackets

/-- The feedback lists the sequence numbers from its base to the highest one
registered, each once, and marks and dates those that were registered. -/
structure Exact (feedback : Feedback) (records : List Record) : Prop where
  consecutive : ∀ i status, feedback.packets[i]? = some status →
    status.seq = feedback.baseSeq + UInt16.ofNat i
  count : feedback.packetCount.toNat = feedback.packets.length ∧
    feedback.packets.length ≤ maxPackets
  highest : ∃ status ∈ feedback.packets.getLast?, ∃ record ∈ records,
    record.twccSeq = status.seq ∧
      ∀ record' ∈ records, 0 ≤ diff record.twccSeq record'.twccSeq
  listed : ∀ record ∈ records, ∃ status ∈ feedback.packets, status.seq = record.twccSeq
  received : ∀ status ∈ feedback.packets,
    (status.received = true ↔ ∃ record ∈ records, record.twccSeq = status.seq)
  arrival : ∀ status ∈ feedback.packets, status.received = true →
    ∃ record ∈ records, record.twccSeq = status.seq ∧ record.arrivalTimeUs = status.arrivalTimeUs

/-- Among the first 8192 registrations only the number 8191 after another one
occurs twice, and no number comes later for the first time. -/
structure Listable (records : List Record) : Prop where
  repeats : (records.take maxPackets).Pairwise (fun a b => a.twccSeq = b.twccSeq →
    ∃ c ∈ records.take maxPackets, a.twccSeq = c.twccSeq + 8191)
  kept : ∀ record ∈ records, ∃ record' ∈ records.take maxPackets,
    record'.twccSeq = record.twccSeq

section Store

variable {w : UInt16} {packets : List Record} {record : Record}

def Before (w : UInt16) (a b : Record) : Prop :=
  offset w a.twccSeq ≤ offset w b.twccSeq

instance (w : UInt16) : DecidableRel (Before w) :=
  fun a b => inferInstanceAs (Decidable (offset w a.twccSeq ≤ offset w b.twccSeq))

instance (w : UInt16) : Std.Total (Before w) :=
  ⟨fun a b => Nat.le_total (offset w a.twccSeq) (offset w b.twccSeq)⟩

instance (w : UInt16) : IsTrans Record (Before w) :=
  ⟨fun _ _ _ hab hbc => Nat.le_trans hab hbc⟩

theorem seqNewer_iff {a b : Record} (ha : offset w a.twccSeq < maxPackets)
    (hb : offset w b.twccSeq < maxPackets) :
    seqNewer a.twccSeq b.twccSeq = true ↔ ¬Before w a b := by
  unfold maxPackets at ha hb
  have hdiff := diff_eq_offset (w := w) (a := a.twccSeq) (b := b.twccSeq)
    (by omega) (by omega)
  rw [seqNewer, decide_eq_true_iff, hdiff, Before]
  omega

/-- The position found from the end is the one after the smaller records. -/
theorem insertPos_eq (hwin : InWindow w (record :: packets))
    (hsorted : packets.Pairwise (Before w)) :
    insertPos record.twccSeq packets.reverse =
      (packets.takeWhile (fun b => ¬Before w record b)).length := by
  induction packets using reverseRecOn with
  | nil => rfl
  | append_singleton packets last ih =>
    obtain ⟨hbef, _, hlast⟩ := pairwise_append.mp hsorted
    have hnewer := seqNewer_iff (hwin record (by simp)) (hwin last (by simp))
    rw [reverse_append, reverse_singleton, singleton_append, insertPos]
    split_ifs with h
    · have hall : ∀ b ∈ packets ++ [last], decide (¬Before w record b) = true := by
        intro b hb
        rw [decide_eq_true_iff]
        intro hle
        apply hnewer.mp h
        rcases mem_append.mp hb with hb | hb
        · exact Nat.le_trans hle (hlast b hb last (by simp))
        · rw [← mem_singleton.mp hb]
          exact hle
      rw [takeWhile_eq_self_iff.mpr hall, length_append, length_reverse, length_singleton]
    · have hle : Before w record last := by
        by_contra hnot
        exact h (hnewer.mpr hnot)
      rw [ih ?_ hbef, takeWhile_append]
      · split_ifs with hfull
        · rw [takeWhile_cons_of_neg (by simpa using hle), append_nil, hfull]
        · rfl
      · intro r hr
        apply hwin r
        rcases mem_cons.mp hr with rfl | hr
        · simp
        · simp [hr]

theorem take_length_takeWhile (packets : List Record) (p : Record → Bool) :
    packets.take (packets.takeWhile p).length = packets.takeWhile p ∧
      packets.drop (packets.takeWhile p).length = packets.dropWhile p := by
  induction packets with
  | nil => simp
  | cons head packets ih =>
    by_cases h : p head
    · simp [h, ih.1, ih.2]
    · simp [h]

theorem storeRecord_eq (hwin : InWindow w (record :: packets))
    (hsorted : packets.Pairwise (Before w)) :
    storeRecord packets record =
      if packets.length < maxPackets then packets.orderedInsert (Before w) record
      else packets := by
  have happend : (∀ b ∈ packets, ¬Before w record b) →
      packets ++ [record] = packets.orderedInsert (Before w) record := by
    intro hall
    have htake : packets.takeWhile (fun b => decide (¬Before w record b)) = packets := by
      rw [takeWhile_eq_self_iff]
      intro b hb
      exact decide_eq_true (hall b hb)
    have hdrop := (take_length_takeWhile packets (fun b => decide (¬Before w record b))).2
    rw [htake, drop_length] at hdrop
    rw [orderedInsert_eq_take_drop, htake, ← hdrop]
  cases hlast : packets.getLast? with
  | none =>
    rw [getLast?_eq_none_iff] at hlast
    subst hlast
    rfl
  | some last =>
    have hmem : last ∈ packets := mem_of_getLast? hlast
    have hnewer := seqNewer_iff (hwin record (by simp)) (hwin last (by simp [hmem]))
    rw [storeRecord, hlast]
    dsimp only
    split_ifs with h hroom hroom
    · obtain ⟨htake, hdrop⟩ := take_length_takeWhile packets
        (fun b => decide (¬Before w record b))
      rw [insertRecord, if_pos hroom, insertPos_eq hwin hsorted, htake, hdrop,
        orderedInsert_eq_take_drop]
    · rw [insertRecord, if_neg hroom]
    · rw [appendRecord, if_pos hroom]
      apply happend
      intro b hb hle
      have hnot : ¬Before w record last := hnewer.mp (by simpa using h)
      obtain ⟨init, rfl⟩ := getLast?_eq_some_iff.mp hlast
      rcases mem_append.mp hb with hb | hb
      · exact hnot (Nat.le_trans hle
          ((pairwise_append.mp hsorted).2.2 b hb last (by simp)))
      · rw [mem_singleton.mp hb] at hle
        exact hnot hle
    · rw [appendRecord, if_neg hroom]

/-- The stored records are the first 8192 registrations, sorted. -/
structure Stored (w : UInt16) (records packets : List Record) : Prop where
  sorted : packets.Pairwise (Before w)
  perm : packets.Perm (records.take maxPackets)

theorem foldl_storeRecord (records : List Record) (hwin : InWindow w records) :
    Stored w records (records.foldl storeRecord []) := by
  induction records using reverseRecOn with
  | nil => exact ⟨List.Pairwise.nil, List.Perm.refl _⟩
  | append_singleton records record ih =>
    have hbef := ih (fun r hr => hwin r (by simp [hr]))
    have hlen : (records.foldl storeRecord []).length =
        min maxPackets records.length := by
      rw [hbef.perm.length_eq, length_take]
    have hwin' : InWindow w (record :: records.foldl storeRecord []) := by
      intro r hr
      apply hwin r
      rcases mem_cons.mp hr with rfl | hr
      · simp
      · have := mem_of_mem_take (hbef.perm.mem_iff.mp hr)
        simp [this]
    rw [foldl_append, foldl_cons, foldl_nil, storeRecord_eq hwin' hbef.sorted]
    split_ifs with hroom
    · have hlt : records.length < maxPackets := by omega
      refine ⟨List.Pairwise.orderedInsert record _ hbef.sorted, ?_⟩
      rw [take_of_length_le (by simp; omega)]
      have hperm := hbef.perm
      rw [take_of_length_le hlt.le] at hperm
      refine (perm_orderedInsert _ record _).trans ?_
      exact (hperm.cons record).trans (perm_append_singleton record records).symm
    · refine ⟨hbef.sorted, ?_⟩
      rw [take_append_of_le_length (by omega)]
      exact hbef.perm

end Store

section Copy

variable {w expectedSeq : UInt16} {record : Record} {records : List Record} {room : ℕ}

theorem fillGap_eq (twccSeq expectedSeq : UInt16) (room : ℕ) :
    fillGap twccSeq room expectedSeq =
      (List.range (min room (offset expectedSeq twccSeq))).map
        (fun i => ⟨expectedSeq + UInt16.ofNat i, false, 0⟩) := by
  induction room generalizing expectedSeq with
  | zero => simp [fillGap]
  | succ room ih =>
    rw [fillGap]
    split_ifs with h
    · subst h
      simp [offset]
    · obtain ⟨n, hn⟩ : ∃ n, offset expectedSeq twccSeq = n + 1 := by
        apply Nat.exists_eq_succ_of_ne_zero
        intro hzero
        apply h
        rw [← offset_inj, hzero]
        simp [offset]
      have hnext : offset (expectedSeq + 1) twccSeq = n := by
        rw [← offset_succ_left hn]
      rw [ih, hnext, hn, Nat.add_min_add_right, range_succ_eq_map, map_cons, map_map]
      congr 1
      · simp
      · apply map_congr_left
        intro i _
        rw [Function.comp_apply, Nat.succ_eq_add_one, UInt16.ofNat_add, UInt16.ofNat_one]
        congr 1
        grind

theorem fillGap_length (twccSeq expectedSeq : UInt16) (room : ℕ) :
    (fillGap twccSeq room expectedSeq).length = min room (offset expectedSeq twccSeq) := by
  rw [fillGap_eq, length_map, length_range]

/-- The entries have consecutive sequence numbers, whatever the records are. -/
theorem copyStatuses_consecutive (records : List Record) (room : ℕ) (expectedSeq : UInt16)
    {i : ℕ} {status : PacketStatus}
    (h : (copyStatuses records room expectedSeq)[i]? = some status) :
    status.seq = expectedSeq + UInt16.ofNat i := by
  induction records generalizing room expectedSeq i with
  | nil => simp [copyStatuses] at h
  | cons record records ih =>
    have hgap : ∀ {i status}, (fillGap record.twccSeq room expectedSeq)[i]? = some status →
        status.seq = expectedSeq + UInt16.ofNat i := by
      intro i status hi
      rw [fillGap_eq, getElem?_map, Option.map_eq_some_iff] at hi
      obtain ⟨k, hk, rfl⟩ := hi
      obtain ⟨_, hget⟩ := List.getElem?_eq_some_iff.mp hk
      rw [getElem_range] at hget
      rw [hget]
    rw [copyStatuses] at h
    split_ifs at h with hfull
    · exact hgap h
    · rcases Nat.lt_trichotomy i (fillGap record.twccSeq room expectedSeq).length with
        hlt | rfl | hgt
      · rw [getElem?_append_left hlt] at h
        exact hgap h
      · rw [getElem?_append_right le_rfl, Nat.sub_self, getElem?_cons_zero,
          Option.some.injEq] at h
        rw [← h, fillGap_length, Nat.min_eq_right (by rw [fillGap_length] at hfull; omega)]
        exact (add_offset expectedSeq record.twccSeq).symm
      · obtain ⟨n, rfl⟩ := Nat.exists_eq_add_of_lt hgt
        rw [getElem?_append_right (by omega)] at h
        have hidx : (fillGap record.twccSeq room expectedSeq).length + n + 1 -
            (fillGap record.twccSeq room expectedSeq).length = n + 1 := by
          omega
        rw [hidx, getElem?_cons_succ] at h
        rw [ih _ _ h, UInt16.ofNat_add, UInt16.ofNat_add]
        grind

theorem copyStatuses_length (records : List Record) (room : ℕ) (expectedSeq : UInt16) :
    (copyStatuses records room expectedSeq).length ≤ room := by
  induction records generalizing room expectedSeq with
  | nil => simp [copyStatuses]
  | cons record records ih =>
    have hgap := fillGap_length record.twccSeq expectedSeq room
    rw [copyStatuses]
    split_ifs with hfull
    · omega
    · have hrest := ih (room - (fillGap record.twccSeq room expectedSeq).length - 1)
        (expectedSeq + UInt16.ofNat (fillGap record.twccSeq room expectedSeq).length + 1)
      rw [length_append, length_cons]
      omega

theorem copyStatuses_received (records : List Record) (room : ℕ) (expectedSeq : UInt16)
    {status : PacketStatus} (h : status ∈ copyStatuses records room expectedSeq)
    (hrecv : status.received = true) : ∃ record ∈ records, receivedStatus record = status := by
  induction records generalizing room expectedSeq with
  | nil => simp [copyStatuses] at h
  | cons record records ih =>
    have hgap : status ∉ fillGap record.twccSeq room expectedSeq := by
      intro hmem
      rw [fillGap_eq, mem_map] at hmem
      obtain ⟨i, _, rfl⟩ := hmem
      simp at hrecv
    rw [copyStatuses] at h
    split_ifs at h with hfull
    · exact absurd h hgap
    · rcases mem_append.mp h with h | h
      · exact absurd h hgap
      · rcases mem_cons.mp h with rfl | h
        · exact ⟨record, by simp, rfl⟩
        · obtain ⟨record', hmem, heq⟩ := ih _ _ h
          exact ⟨record', by simp [hmem], heq⟩

end Copy

section Ends

variable {w expectedSeq : UInt16} {record : Record} {records : List Record}
variable {room top : ℕ}

/-- No place before `top` is taken twice. -/
def Distinct (w : UInt16) (top : ℕ) (records : List Record) : Prop :=
  records.Pairwise (fun a b => a.twccSeq = b.twccSeq → offset w a.twccSeq = top)

/-- The loop stands at `expectedSeq`, no later than the records, and has room up
to the place `top`. -/
structure Reaches (w : UInt16) (top : ℕ) (records : List Record) (room : ℕ)
    (expectedSeq : UInt16) : Prop where
  sorted : records.Pairwise (Before w)
  low : ∀ record ∈ records, offset w expectedSeq ≤ offset w record.twccSeq
  high : ∀ record ∈ records, offset w record.twccSeq ≤ top
  room : offset w expectedSeq + room = top + 1
  small : top < 32768

theorem Reaches.cons (h : Reaches w top (record :: records) room expectedSeq) :
    ∃ gap, copyStatuses (record :: records) room expectedSeq = gap ++ receivedStatus record ::
        copyStatuses records (top - offset w record.twccSeq) (record.twccSeq + 1) := by
  have hlow := h.low record (by simp)
  have hhigh := h.high record (by simp)
  have hroom := h.room
  have hsmall := h.small
  have hoffset : offset expectedSeq record.twccSeq =
      offset w record.twccSeq - offset w expectedSeq := by
    apply offset_sub hlow
  have hgap := fillGap_length record.twccSeq expectedSeq room
  rw [hoffset, Nat.min_eq_right (by omega)] at hgap
  refine ⟨fillGap record.twccSeq room expectedSeq, ?_⟩
  rw [copyStatuses, if_neg (by omega), hgap, ← hoffset,
    add_offset expectedSeq record.twccSeq, hoffset]
  congr 3
  omega

theorem copyStatuses_no_room (records : List Record) (expectedSeq : UInt16) :
    copyStatuses records 0 expectedSeq = [] := by
  apply eq_nil_of_length_eq_zero
  have := copyStatuses_length records 0 expectedSeq
  omega

/-- After the first record the loop stands before the others, if none has the
same number and there is room. -/
theorem Reaches.tail (h : Reaches w top (record :: records) room expectedSeq)
    (hne : ∀ record' ∈ records, record.twccSeq ≠ record'.twccSeq) :
    Reaches w top records (top - offset w record.twccSeq) (record.twccSeq + 1) := by
  have hhigh := h.high record (by simp)
  have hsmall := h.small
  have hnext : offset w (record.twccSeq + 1) = offset w record.twccSeq + 1 :=
    offset_add w record.twccSeq (n := 1) (by omega)
  obtain ⟨hfirst, hrest⟩ := pairwise_cons.mp h.sorted
  refine ⟨hrest, ?_, ?_, ?_, hsmall⟩
  · intro record' hmem
    have hle : offset w record.twccSeq ≤ offset w record'.twccSeq :=
      hfirst record' hmem
    have hdiff : offset w record.twccSeq ≠ offset w record'.twccSeq := by
      intro heq
      exact hne record' hmem (offset_inj.mp heq)
    omega
  · intro record' hmem
    exact h.high record' (by simp [hmem])
  · omega

/-- The records after one at the place `top` have its number. -/
theorem Reaches.eq_of_top (h : Reaches w top (record :: records) room expectedSeq)
    (htop : offset w record.twccSeq = top) {record' : Record} (hmem : record' ∈ records) :
    record.twccSeq = record'.twccSeq := by
  have hle : offset w record.twccSeq ≤ offset w record'.twccSeq :=
    (pairwise_cons.mp h.sorted).1 record' hmem
  have hhigh := h.high record' (by simp [hmem])
  apply (offset_inj (w := w)).mp
  omega

/-- A record before `top` has another number than the records after it, when no
place before `top` is taken twice. -/
theorem Distinct.ne (hdist : Distinct w top (record :: records))
    (htop : offset w record.twccSeq ≠ top) :
    ∀ record' ∈ records, record.twccSeq ≠ record'.twccSeq := by
  intro record' hmem heq
  exact htop ((pairwise_cons.mp hdist).1 record' hmem heq)

/-- Every record is listed when no place before `top` is taken twice. -/
theorem Reaches.listed (h : Reaches w top records room expectedSeq)
    (hdist : Distinct w top records) :
    ∀ record ∈ records, ∃ status ∈ copyStatuses records room expectedSeq,
      status.seq = record.twccSeq ∧ status.received = true := by
  induction records generalizing room expectedSeq with
  | nil => simp
  | cons first records ih =>
    obtain ⟨gap, hcopy⟩ := h.cons
    have hself : ∃ status ∈ copyStatuses (first :: records) room expectedSeq,
        status.seq = first.twccSeq ∧ status.received = true := by
      rw [hcopy]
      exact ⟨receivedStatus first, by simp, rfl, rfl⟩
    intro record hmem
    rcases mem_cons.mp hmem with rfl | hmem
    · exact hself
    · by_cases htop : offset w first.twccSeq = top
      · rw [← h.eq_of_top htop hmem]
        exact hself
      · have htail := h.tail (hdist.ne htop)
        obtain ⟨status, hstat, hseq, hrecv⟩ :=
          ih htail (pairwise_cons.mp hdist).2 record hmem
        refine ⟨status, ?_, hseq, hrecv⟩
        rw [hcopy]
        simp [hstat]

theorem getLast?_of_tail {gap rest : List PacketStatus} {first status : PacketStatus}
    (h : rest.getLast? = some status) : (gap ++ first :: rest).getLast? = some status := by
  simp [getLast?_append, getLast?_cons, h]

/-- The message ends with a received packet when no place before `top` is taken
twice. -/
theorem Reaches.last_received (h : Reaches w top records room expectedSeq)
    (hdist : Distinct w top records) (hne : records ≠ []) :
    ∃ status ∈ (copyStatuses records room expectedSeq).getLast?, status.received = true := by
  induction records generalizing room expectedSeq with
  | nil => exact absurd rfl hne
  | cons first records ih =>
    obtain ⟨gap, hcopy⟩ := h.cons
    rw [hcopy]
    have hlast : ∀ rest, rest = [] ∨ (∃ status ∈ rest.getLast?, status.received = true) →
        ∃ status ∈ (gap ++ receivedStatus first :: rest).getLast?, status.received = true := by
      rintro rest (rfl | ⟨status, hstat, hrecv⟩)
      · exact ⟨receivedStatus first, by simp, rfl⟩
      · exact ⟨status, getLast?_of_tail hstat, hrecv⟩
    apply hlast
    by_cases hempty : records = []
    · subst hempty
      exact Or.inl rfl
    · by_cases htop : offset w first.twccSeq = top
      · rw [htop, Nat.sub_self]
        exact Or.inl (copyStatuses_no_room records _)
      · exact Or.inr (ih (h.tail (hdist.ne htop)) (pairwise_cons.mp hdist).2 hempty)

theorem copyStatuses_repeat (record : Record) (records : List Record) {room : ℕ} (hpos : 0 < room)
    (hroom : room < 32768) :
    ∃ status ∈ (copyStatuses (record :: records) room (record.twccSeq + 1)).getLast?,
      status.received = false := by
  have hoffset : offset (record.twccSeq + 1) record.twccSeq = 65535 := by
    have hsub : record.twccSeq - (record.twccSeq + 1) = UInt16.ofNat 65535 := by
      have hone : UInt16.ofNat 65535 = 0 - 1 := by decide
      rw [hone]
      grind
    rw [offset, hsub]
    decide
  have hgap := fillGap_length record.twccSeq (record.twccSeq + 1) room
  rw [hoffset, Nat.min_eq_left (by omega)] at hgap
  rw [copyStatuses, if_pos (by omega), fillGap_eq, hoffset, Nat.min_eq_left (by omega)]
  obtain ⟨n, rfl⟩ := Nat.exists_eq_succ_of_ne_zero hpos.ne'
  rw [range_succ, map_append, map_singleton]
  exact ⟨⟨record.twccSeq + 1 + UInt16.ofNat n, false, 0⟩, by simp, rfl⟩

/-- The message ends with a missing packet when a place before `top` is taken
twice. -/
theorem Reaches.last_missing (h : Reaches w top records room expectedSeq)
    (hrepeat : ¬Distinct w top records) :
    ∃ status ∈ (copyStatuses records room expectedSeq).getLast?, status.received = false := by
  induction records generalizing room expectedSeq with
  | nil => exact absurd List.Pairwise.nil hrepeat
  | cons first records ih =>
    obtain ⟨gap, hcopy⟩ := h.cons
    have hhigh := h.high first (by simp)
    have hlast : (∃ status ∈ (copyStatuses records
          (top - offset w first.twccSeq) (first.twccSeq + 1)).getLast?,
            status.received = false) →
        ∃ status ∈ (copyStatuses (first :: records) room expectedSeq).getLast?,
          status.received = false := by
      rintro ⟨status, hstat, hmissing⟩
      rw [hcopy]
      exact ⟨status, getLast?_of_tail hstat, hmissing⟩
    apply hlast
    by_cases htop : offset w first.twccSeq = top
    · exfalso
      apply hrepeat
      refine pairwise_cons.mpr ⟨fun _ _ _ => htop, ?_⟩
      refine pairwise_of_forall_mem_list ?_
      intro a ha b _ _
      rw [← h.eq_of_top htop ha]
      exact htop
    · by_cases hagain : ∃ record' ∈ records, first.twccSeq = record'.twccSeq
      · -- The records are sorted, so the next one has the same number.
        obtain ⟨record', hmem, heq⟩ := hagain
        cases records with
        | nil => simp at hmem
        | cons second records =>
          obtain ⟨hfirst, hrest⟩ := pairwise_cons.mp h.sorted
          have hle : offset w first.twccSeq ≤ offset w second.twccSeq :=
            hfirst second (by simp)
          have hle' : offset w second.twccSeq ≤ offset w record'.twccSeq := by
            rcases mem_cons.mp hmem with rfl | hmem
            · exact le_rfl
            · exact (pairwise_cons.mp hrest).1 record' hmem
          have hsame : second.twccSeq = first.twccSeq := by
            apply (offset_inj (w := w)).mp
            rw [← heq] at hle'
            omega
          rw [← hsame]
          apply copyStatuses_repeat second records
          · rw [hsame]
            omega
          · have := h.small
            omega
      · have hne : ∀ record' ∈ records, first.twccSeq ≠ record'.twccSeq := by
          intro record' hmem heq
          exact hagain ⟨record', hmem, heq⟩
        apply ih (h.tail hne)
        intro hdist
        apply hrepeat
        exact pairwise_cons.mpr ⟨fun record' hmem heq => absurd heq (hne record' hmem),
          hdist⟩

end Ends

variable {w : UInt16} {records packets : List Record}

/-- What a feedback request can do. -/
inductive GenerateOutcome (receiver : Receiver) (nowUs : UInt64) :
    Receiver × Option Feedback → Prop
  | waiting :
      GenerateOutcome receiver nowUs (receiver, none)
  | feedback {next : Receiver} {feedback : Feedback} {first : Record} {rest : List Record} :
      receiver.packets = first :: rest →
      next.packets = [] →
      feedback.baseSeq = first.twccSeq →
      feedback.packets = copyStatuses receiver.packets maxPackets first.twccSeq →
      feedback.packetCount = UInt16.ofNat feedback.packets.length →
      GenerateOutcome receiver nowUs (next, some feedback)

theorem generateFeedback_outcome (receiver : Receiver) (nowUs : UInt64) :
    GenerateOutcome receiver nowUs (generateFeedback receiver nowUs) := by
  unfold generateFeedback
  split_ifs with hready
  · exact .waiting
  · cases hpackets : receiver.packets with
    | nil => exact .waiting
    | cons first rest =>
      refine .feedback hpackets rfl rfl ?_ rfl
      rw [hpackets]

/-- The stored records are those of the registrations since the last feedback. -/
theorem run_packets (ops : List Op) (receiver : Receiver) (records : List Record)
    (h : receiver.packets = records.foldl storeRecord []) :
    (machine.run receiver ops).packets = (pending receiver ops records).foldl storeRecord [] := by
  induction ops generalizing receiver records with
  | nil => exact h
  | cons op ops ih =>
    rw [Machine.run_cons, pending]
    apply ih
    cases op with
    | register record =>
      rw [pendingStep, foldl_append, ← h]
      rfl
    | generate nowUs =>
      have hout := generateFeedback_outcome receiver nowUs
      rw [pendingStep]
      change (generateFeedback receiver nowUs).1.packets = _
      generalize generateFeedback receiver nowUs = out at hout
      cases hout with
      | waiting => exact h
      | feedback _ hnext _ _ _ => exact hnext

theorem copyStatuses_unique (records : List Record) (expectedSeq : UInt16)
    {status status' : PacketStatus} (h : status ∈ copyStatuses records maxPackets expectedSeq)
    (h' : status' ∈ copyStatuses records maxPackets expectedSeq) (hseq : status.seq = status'.seq) :
    status = status' := by
  obtain ⟨i, hi⟩ := mem_iff_getElem?.mp h
  obtain ⟨i', hi'⟩ := mem_iff_getElem?.mp h'
  have hlen : (copyStatuses records maxPackets expectedSeq).length ≤ 8192 :=
    copyStatuses_length records maxPackets expectedSeq
  have hlt := (List.getElem?_eq_some_iff.mp hi).1
  have hlt' := (List.getElem?_eq_some_iff.mp hi').1
  have hself : offset expectedSeq expectedSeq = 0 := by
    simp [offset]
  have hoffset := congrArg (offset expectedSeq) hseq
  rw [copyStatuses_consecutive records maxPackets expectedSeq hi,
    copyStatuses_consecutive records maxPackets expectedSeq hi',
    offset_add _ _ (by omega), offset_add _ _ (by omega), hself] at hoffset
  obtain rfl : i = i' := by omega
  rw [hi, Option.some.injEq] at hi'
  exact hi'

theorem Stored.mem_records (h : Stored w records packets) {record : Record}
    (hmem : record ∈ packets) : record ∈ records :=
  mem_of_mem_take (h.perm.mem_iff.mp hmem)

variable {first : Record} {rest : List Record}

/-- The loop over stored records has room for the window from the first one on. -/
theorem Stored.reaches (h : Stored w records (first :: rest)) (hwin : InWindow w records) :
    Reaches w (offset w first.twccSeq + 8191) (first :: rest) maxPackets first.twccSeq := by
  have hplace : ∀ record ∈ first :: rest, offset w record.twccSeq < 8192 := by
    intro record hmem
    exact hwin record (h.mem_records hmem)
  have hfirst := hplace first (by simp)
  refine ⟨h.sorted, ?_, ?_, ?_, by omega⟩
  · intro record hmem
    rcases mem_cons.mp hmem with rfl | hmem
    · exact le_rfl
    · exact (pairwise_cons.mp h.sorted).1 record hmem
  · intro record hmem
    have := hplace record hmem
    omega
  · rw [maxPackets]

/-- Repetitions among the stored records are those of the registrations. -/
theorem Stored.distinct_iff (h : Stored w records (first :: rest)) (hwin : InWindow w records) :
    Distinct w (offset w first.twccSeq + 8191) (first :: rest) ↔
      (records.take maxPackets).Pairwise (fun a b => a.twccSeq = b.twccSeq →
        ∃ c ∈ records.take maxPackets, a.twccSeq = c.twccSeq + 8191) := by
  have hplace : ∀ record ∈ records.take maxPackets, offset w record.twccSeq < 8192 ∧
        offset w first.twccSeq ≤ offset w record.twccSeq := by
    intro record hmem
    refine ⟨hwin record (mem_of_mem_take hmem), ?_⟩
    exact (h.reaches hwin).low record (h.perm.mem_iff.mpr hmem)
  have hfirst : first ∈ records.take maxPackets := h.perm.mem_iff.mp (by simp)
  have htop : ∀ a ∈ records.take maxPackets,
      (offset w a.twccSeq = offset w first.twccSeq + 8191 ↔
        ∃ c ∈ records.take maxPackets, a.twccSeq = c.twccSeq + 8191) := by
    intro a ha
    have hadd : ∀ c ∈ records.take maxPackets,
        offset w (c.twccSeq + 8191) = offset w c.twccSeq + 8191 := by
      intro c hc
      have := (hplace c hc).1
      exact offset_add w c.twccSeq (n := 8191) (by omega)
    constructor
    · intro heq
      refine ⟨first, hfirst, (offset_inj (w := w)).mp ?_⟩
      rw [hadd first hfirst, heq]
    · rintro ⟨c, hc, heq⟩
      have hc' := hadd c hc
      rw [← heq] at hc'
      have := hplace a ha
      have := hplace c hc
      omega
  have hsymm : ∀ {a b : Record}, (a.twccSeq = b.twccSeq →
      offset w a.twccSeq = offset w first.twccSeq + 8191) →
      b.twccSeq = a.twccSeq →
      offset w b.twccSeq = offset w first.twccSeq + 8191 := by
    intro a b hab heq
    rw [heq]
    exact hab heq.symm
  rw [Distinct, h.perm.pairwise_iff hsymm]
  apply List.Pairwise.iff_of_mem
  intro a b ha _
  rw [htop a ha]

/-- Of entries with consecutive numbers in a window the last one has the highest
number. -/
theorem last_highest {firstSeq : UInt16} {statuses : List PacketStatus} {last status : PacketStatus}
    (hseq : ∀ {i status}, statuses[i]? = some status →
      status.seq = firstSeq + UInt16.ofNat i) (hfirst : offset w firstSeq < 8192)
    (hlen : statuses.length ≤ 8192) (hlast : statuses.getLast? = some last)
    (hmem : status ∈ statuses) : 0 ≤ diff last.seq status.seq := by
  obtain ⟨i, hi⟩ := mem_iff_getElem?.mp hmem
  have hi' := (List.getElem?_eq_some_iff.mp hi).1
  rw [getLast?_eq_getElem?] at hlast
  have hplace : ∀ n, n < 8192 → offset w (firstSeq + UInt16.ofNat n) =
      offset w firstSeq + n := by
    intro n hn
    exact offset_add w firstSeq (by omega)
  have hlastPlace := hplace (statuses.length - 1) (by omega)
  have hplace' := hplace i (by omega)
  rw [hseq hlast, hseq hi, diff_eq_offset (w := w) (by omega) (by omega), hlastPlace,
    hplace']
  omega

/-- The message is exact when its loop never looks for a number it has passed. -/
theorem Stored.exact {feedback : Feedback}
    (h : Stored w records (first :: rest)) (hwin : InWindow w records)
    (hbase : feedback.baseSeq = first.twccSeq)
    (hpackets : feedback.packets = copyStatuses (first :: rest) maxPackets first.twccSeq)
    (hcount : feedback.packetCount = UInt16.ofNat feedback.packets.length)
    (hlistable : Listable records) : Exact feedback records := by
  have hreaches := h.reaches hwin
  have hdist := (h.distinct_iff hwin).mpr hlistable.repeats
  have hlen := copyStatuses_length (first :: rest) maxPackets first.twccSeq
  rw [← hpackets] at hlen
  have hseq : ∀ {i status}, feedback.packets[i]? = some status →
      status.seq = first.twccSeq + UInt16.ofNat i := by
    intro i status hi
    rw [hpackets] at hi
    exact copyStatuses_consecutive _ _ _ hi
  have hlisted : ∀ record ∈ records, ∃ status ∈ feedback.packets,
      status.seq = record.twccSeq ∧ status.received = true := by
    intro record hmem
    obtain ⟨record', hmem', heq⟩ := hlistable.kept record hmem
    rw [hpackets, ← heq]
    exact hreaches.listed hdist record' (h.perm.mem_iff.mpr hmem')
  have hmarked : ∀ status ∈ feedback.packets, status.received = true →
      ∃ record ∈ records, receivedStatus record = status := by
    intro status hmem hrecv
    rw [hpackets] at hmem
    obtain ⟨record, hrecord, heq⟩ := copyStatuses_received _ _ _ hmem hrecv
    exact ⟨record, h.mem_records hrecord, heq⟩
  refine ⟨?_, ?_, ?_, ?_, ?_, ?_⟩
  · intro i status hi
    rw [hbase]
    exact hseq hi
  · refine ⟨?_, hlen⟩
    rw [maxPackets] at hlen
    rw [hcount, UInt16.toNat_ofNat', Nat.mod_eq_of_lt (by omega)]
  · obtain ⟨status, hlast, hrecv⟩ := hreaches.last_received hdist (by simp)
    rw [← hpackets] at hlast
    obtain ⟨record, hmem, rfl⟩ := hmarked status (mem_of_getLast? hlast) hrecv
    refine ⟨receivedStatus record, hlast, record, hmem, rfl, ?_⟩
    intro record' hmem'
    obtain ⟨status', hstat', heq', _⟩ := hlisted record' hmem'
    have hfirst : offset w first.twccSeq < 8192 := hwin first (h.mem_records (by simp))
    have hhighest : 0 ≤ diff (receivedStatus record).seq status'.seq :=
      last_highest hseq hfirst hlen hlast hstat'
    rw [heq'] at hhighest
    exact hhighest
  · intro record hmem
    obtain ⟨status, hstat, heq, _⟩ := hlisted record hmem
    exact ⟨status, hstat, heq⟩
  · intro status hmem
    constructor
    · intro hrecv
      obtain ⟨record, hrecord, heq⟩ := hmarked status hmem hrecv
      exact ⟨record, hrecord, by rw [← heq]; rfl⟩
    · rintro ⟨record, hrecord, heq⟩
      obtain ⟨status', hstat', heq', hrecv⟩ := hlisted record hrecord
      rw [hpackets] at hmem hstat'
      rw [copyStatuses_unique _ _ hmem hstat' (by rw [heq', heq])]
      exact hrecv
  · intro status hmem hrecv
    obtain ⟨record, hrecord, rfl⟩ := hmarked status hmem hrecv
    exact ⟨record, hrecord, rfl, rfl⟩

/-- An exact message ends with a received packet and lists all that was kept. -/
theorem Stored.listable {feedback : Feedback}
    (h : Stored w records (first :: rest)) (hwin : InWindow w records)
    (hpackets : feedback.packets = copyStatuses (first :: rest) maxPackets first.twccSeq)
    (hexact : Exact feedback records) : Listable records := by
  constructor
  · rw [← h.distinct_iff hwin]
    by_contra hrepeat
    obtain ⟨status, hlast, hmissing⟩ := (h.reaches hwin).last_missing hrepeat
    obtain ⟨status', hlast', record, hmem, heq, _⟩ := hexact.highest
    rw [← hpackets, Option.mem_unique hlast hlast'] at *
    have hrecv := (hexact.received status' (mem_of_getLast? hlast')).mpr ⟨record, hmem, heq⟩
    simp [hrecv] at hmissing
  · intro record hmem
    obtain ⟨status, hstat, heq⟩ := hexact.listed record hmem
    have hrecv := (hexact.received status hstat).mpr ⟨record, hmem, heq.symm⟩
    rw [hpackets] at hstat
    obtain ⟨record', hrecord', rfl⟩ := copyStatuses_received _ _ _ hstat hrecv
    exact ⟨record', h.perm.mem_iff.mp hrecord', heq⟩

/--
**Exact reports.**

In every run, a feedback about sequence numbers within 8192 consecutive values
reports exactly the arrivals since the last feedback if and only if among the
first 8192 of them no number is repeated but the one 8191 after the lowest, and
the others bring no new number.
-/
theorem feedback_exact_iff (ssrc : UInt32) (startUs nowUs : UInt64) (ops : List Op)
    (feedback : Feedback)
    (hfeedback : machine.answer (machine.run (create ssrc startUs) ops) (.generate nowUs) =
      some feedback) (w : UInt16) (hwindow : InWindow w (pending (create ssrc startUs) ops [])) :
    Exact feedback (pending (create ssrc startUs) ops []) ↔
      Listable (pending (create ssrc startUs) ops []) := by
  have hstored := foldl_storeRecord _ hwindow
  rw [← run_packets ops (create ssrc startUs) [] rfl] at hstored
  have hout := generateFeedback_outcome (machine.run (create ssrc startUs) ops) nowUs
  change (generateFeedback _ nowUs).2 = some feedback at hfeedback
  generalize generateFeedback (machine.run (create ssrc startUs) ops) nowUs = out at hout hfeedback
  cases hout with
  | waiting => simp at hfeedback
  | feedback hfirst _ hbase hpackets hcount =>
    obtain rfl := Option.some.inj hfeedback
    rw [hfirst] at hpackets hstored
    constructor
    · exact hstored.listable hwindow hpackets
    · exact hstored.exact hwindow hbase hpackets hcount

/-- Ten registrations, out of order and across the wrap, without 65535. -/
def reordered : List Op :=
  [1, 0, 65534, 2, 5, 4, 3, 6, 7, 8].map (fun seq => .register ⟨seq, 64000⟩)

theorem feedback_exact_iff_reordered :
    ∃ feedback, machine.answer (machine.run (create 1 0) reordered) (.generate 0) = some feedback ∧
      Exact feedback (pending (create 1 0) reordered []) := by
  have hwindow : InWindow 65534 (pending (create 1 0) reordered []) := by
    unfold InWindow
    decide
  have hlistable : Listable (pending (create 1 0) reordered []) := by
    constructor
    · apply List.Pairwise.imp (R := fun a b => a.twccSeq ≠ b.twccSeq)
      · intro a b hne heq
        exact absurd heq hne
      · decide
    · decide
  obtain ⟨feedback, hfeedback⟩ :
      ∃ feedback, machine.answer (machine.run (create 1 0) reordered) (.generate 0) =
        some feedback := by
    apply Option.isSome_iff_exists.mp
    decide +kernel
  exact ⟨feedback, hfeedback,
    (feedback_exact_iff 1 0 0 reordered feedback hfeedback 65534 hwindow).mpr hlistable⟩

/-- Eleven registrations, one of them a duplicate. -/
def duplicated : List Op :=
  [0, 1, 2, 3, 3, 4, 5, 6, 7, 8, 9].map (fun seq => .register ⟨seq, 64000⟩)

theorem duplicated_not_exact :
    ¬∀ (ssrc : UInt32) (startUs nowUs : UInt64) (ops : List Op) (feedback : Feedback) (w : UInt16),
      machine.answer (machine.run (create ssrc startUs) ops) (.generate nowUs) = some feedback →
      InWindow w (pending (create ssrc startUs) ops []) →
      Exact feedback (pending (create ssrc startUs) ops []) := by
  intro hall
  have hentry : (machine.answer (machine.run (create 1 0) duplicated) (.generate 0)).bind
      (fun feedback => feedback.packets[4]?) = some ⟨4, false, 0⟩ := by
    decide +kernel
  obtain ⟨feedback, hfeedback, hget⟩ := Option.bind_eq_some_iff.mp hentry
  have hwindow : InWindow 0 (pending (create 1 0) duplicated []) := by
    unfold InWindow
    decide
  have hexact := hall 1 0 0 duplicated feedback 0 hfeedback hwindow
  have hreceived := (hexact.received _ (mem_of_getElem? hget)).mpr ⟨⟨4, 64000⟩, by decide, rfl⟩
  simp at hreceived

end TurboMedia.Twcc
