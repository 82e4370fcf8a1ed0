import TurboMedia.Rtc.Twcc

/-!
# Transport-wide congestion control: the sender

Model of the sender side of `twcc.c`.  A registered packet takes the next 16-bit
sequence number and overwrites the slot of that number modulo `TWCC_MAX_HISTORY`;
feedback counts a report when the slot of its number holds that number.

The slots start zero-filled, and 65536 is not a multiple of 1000, so a slot does
not always hold one of the last 1000 packets.  `reports_accounted_iff` says for
which reports that shows.

The bitrate estimate, which is made of floats and reads the counts only, is left
out.
-/

namespace TurboMedia.TwccSender

open List

open Twcc (PacketStatus)

/-- `TWCC_MAX_HISTORY`. -/
def maxHistory : ℕ := 1000

/-- `twcc_send_record_t`. -/
structure SendRecord where
  twccSeq : UInt16
  sendTimeUs : UInt64
  size : ℕ
  acked : Bool

/-- `twcc_tracker_t`. -/
structure Tracker where
  nextSeq : UInt16
  history : Fin 1000 → SendRecord
  historyCount : ℕ

/-- `twcc_tracker_create`: all zero. -/
def create : Tracker :=
  { nextSeq := 0
    history := fun _ => ⟨0, 0, 0, false⟩
    historyCount := 0 }

/-- `seq % TWCC_MAX_HISTORY`. -/
def slot (seq : UInt16) : Fin 1000 :=
  Fin.ofNat 1000 seq.toNat

/-- `twcc_tracker_register_packet`. -/
def registerPacket (tracker : Tracker) (size : ℕ) (sendTimeUs : UInt64) : Tracker × UInt16 :=
  let seq := tracker.nextSeq
  ({ nextSeq := seq + 1
     history := Function.update tracker.history (slot seq) ⟨seq, sendTimeUs, size, false⟩
     historyCount :=
       if tracker.historyCount < maxHistory then tracker.historyCount + 1
       else tracker.historyCount },
   seq)

/-- The counters of `twcc_tracker_process_feedback`. -/
structure Tally where
  receivedCount : ℕ
  lostCount : ℕ
  totalRttUs : UInt64
  rttSamples : ℕ

def Tally.start : Tally :=
  ⟨0, 0, 0, 0⟩

def processPacket (state : Tracker × Tally) (pkt : PacketStatus) : Tracker × Tally :=
  let (tracker, tally) := state
  let record := tracker.history (slot pkt.seq)
  if record.twccSeq = pkt.seq then
    if pkt.received then
      let rttUs := pkt.arrivalTimeUs - record.sendTimeUs
      let sane := 0 < rttUs ∧ rttUs < 10000000
      ({ tracker with
          history := Function.update tracker.history (slot pkt.seq)
            { record with acked := true } },
       { tally with
          receivedCount := tally.receivedCount + 1
          totalRttUs := if sane then tally.totalRttUs + rttUs else tally.totalRttUs
          rttSamples := if sane then tally.rttSamples + 1 else tally.rttSamples })
    else (tracker, { tally with lostCount := tally.lostCount + 1 })
  else state

/-- `twcc_tracker_process_feedback`, up to the bitrate estimate. -/
def processFeedback (tracker : Tracker) (packets : List PacketStatus) : Tracker × Tally :=
  packets.foldl processPacket (tracker, Tally.start)

/-- The calls on a tracker. -/
inductive Op where
  | register (size : ℕ) (sendTimeUs : UInt64)
  | feedback (packets : List PacketStatus)

/-- What they return. -/
inductive Answer where
  | seq (seq : UInt16)
  | tally (tally : Tally)

def machine : Machine Tracker Op Answer where
  step := fun tracker op =>
    match op with
    | .register size sendTimeUs =>
      let out := registerPacket tracker size sendTimeUs
      (out.1, .seq out.2)
    | .feedback packets =>
      let out := processFeedback tracker packets
      (out.1, .tally out.2)

def Answer.assigned : Answer → Option UInt16
  | seq number => some number
  | tally _ => none

/-- The sequence numbers a run has assigned, in order. -/
def assigned (ops : List Op) : List UInt16 :=
  (machine.transcript create ops).filterMap (fun call => call.2.assigned)

/-- A number names one of the last `TWCC_MAX_HISTORY` packets. -/
def NamesRecent (sent : List UInt16) (seq : UInt16) : Prop :=
  seq ∈ sent.drop (sent.length - maxHistory)

/-- The report was counted, as received or as lost. -/
def Counted (pkt : PacketStatus) (before after : Tally) : Prop :=
  if pkt.received then
    after.receivedCount = before.receivedCount + 1 ∧ after.lostCount = before.lostCount
  else after.receivedCount = before.receivedCount ∧ after.lostCount = before.lostCount + 1

def Ignored (before after : Tally) : Prop :=
  after.receivedCount = before.receivedCount ∧ after.lostCount = before.lostCount

/-- A report is counted if it names one of the last packets, and else passed over. -/
def Accounted (sent : List UInt16) (pkt : PacketStatus) (before after : Tally) : Prop :=
  (NamesRecent sent pkt.seq → Counted pkt before after) ∧
    (¬ NamesRecent sent pkt.seq → Ignored before after)

/-- After `sent` packets the slot of `seq` tells the truth about it.

It does not for 0 while nothing was sent.  While fewer than 1000 packets were sent
since the numbers last started over, the slots of 65000 and on are overwritten too
early, and those of 64536 and on too late. -/
def Truthful (sent seq : ℕ) : Prop :=
  (sent = 0 → seq ≠ 0) ∧ (65536 < sent → 0 < sent % 65536 → sent % 65536 < 1000 →
      ¬ (max 65000 (64536 + sent % 65536) ≤ seq ∧ seq < 65000 + sent % 65536) ∧
      ¬ (max 64536 (64000 + sent % 65536) ≤ seq ∧ seq < min 65000 (64536 + sent % 65536)))

instance (sent seq : ℕ) : Decidable (Truthful sent seq) := by
  unfold Truthful
  infer_instance

/-- The number in slot `i` after `sent` packets: the last one of the running cycle,
else the last one of the cycle before, else zero. -/
def slotSeq (sent i : ℕ) : ℕ :=
  if i < sent % 65536 then (sent % 65536 - 1 - i) / 1000 * 1000 + i
  else if 65536 ≤ sent then (65535 - i) / 1000 * 1000 + i
  else 0

theorem slotSeq_zero (i : ℕ) :
    slotSeq 0 i = 0 := by
  simp [slotSeq]

theorem slotSeq_succ {sent i : ℕ} (hi : i < 1000) :
    slotSeq (sent + 1) i =
      if i = sent % 65536 % 1000 then sent % 65536 else slotSeq sent i := by
  unfold slotSeq
  -- the numbers start over or they do not
  by_cases hwrap : sent % 65536 = 65535
  · have hnext : (sent + 1) % 65536 = 0 := by omega
    rw [hnext, hwrap]
    split_ifs <;> omega
  · have hnext : (sent + 1) % 65536 = sent % 65536 + 1 := by omega
    rw [hnext]
    split_ifs <;> omega

theorem slotSeq_eq_iff {sent seq : ℕ} (hseq : seq < 65536) :
    slotSeq sent (seq % 1000) = seq ↔ (sent = 0 ∧ seq = 0) ∨
      (seq < sent % 65536 ∧ sent % 65536 ≤ seq + 1000) ∨
      (65536 ≤ sent ∧ sent % 65536 ≤ seq % 1000 ∧ 64536 ≤ seq) := by
  unfold slotSeq
  split_ifs <;> omega

theorem recent_iff {sent seq : ℕ} (hseq : seq < 65536) :
    (∃ m, m < sent ∧ sent ≤ m + 1000 ∧ m % 65536 = seq) ↔
      (seq < sent % 65536 ∧ sent % 65536 ≤ seq + 1000) ∨
      (65536 ≤ sent ∧ sent % 65536 + 64536 ≤ seq) := by
  constructor
  · rintro ⟨m, hm, hle, hmod⟩
    omega
  · rintro (⟨hlt, hle⟩ | ⟨hle, hseq'⟩)
    · exact ⟨sent / 65536 * 65536 + seq, by omega, by omega, by omega⟩
    · exact ⟨(sent / 65536 - 1) * 65536 + seq, by omega, by omega, by omega⟩

theorem truthful_iff {sent seq : ℕ} (hseq : seq < 65536) :
    (slotSeq sent (seq % 1000) = seq ↔ ∃ m, m < sent ∧ sent ≤ m + 1000 ∧ m % 65536 = seq) ↔
      Truthful sent seq := by
  rw [slotSeq_eq_iff hseq, recent_iff hseq]
  unfold Truthful
  omega

/-- The state of a tracker after `sent` packets. -/
structure Tracked (sent : ℕ) (tracker : Tracker) : Prop where
  nextSeq : tracker.nextSeq.toNat = sent % 65536
  history : ∀ i : Fin 1000, (tracker.history i).twccSeq.toNat = slotSeq sent i

theorem create_tracked :
    Tracked 0 create where
  nextSeq := rfl
  history := by
    intro i
    rw [slotSeq_zero]
    rfl

theorem slot_val (seq : UInt16) :
    (slot seq).val = seq.toNat % 1000 := by
  rfl

theorem registerPacket_tracked {sent : ℕ} {tracker : Tracker} (h : Tracked sent tracker)
    (size : ℕ) (sendTimeUs : UInt64) :
    Tracked (sent + 1) (registerPacket tracker size sendTimeUs).1 where
  nextSeq := by
    change (tracker.nextSeq + 1).toNat = _
    rw [UInt16.toNat_add, h.nextSeq]
    simp
  history := by
    intro i
    rw [slotSeq_succ i.isLt, ← h.nextSeq, ← slot_val]
    by_cases hi : i = slot tracker.nextSeq
    · subst hi
      simp [registerPacket]
    · rw [if_neg (fun hval => hi (Fin.ext hval)), ← h.history i]
      simp [registerPacket, Function.update_of_ne hi]

theorem processPacket_seqs (state : Tracker × Tally) (pkt : PacketStatus) :
    (processPacket state pkt).1.nextSeq = state.1.nextSeq ∧
      ∀ i, ((processPacket state pkt).1.history i).twccSeq = (state.1.history i).twccSeq := by
  obtain ⟨tracker, tally⟩ := state
  by_cases hfound : (tracker.history (slot pkt.seq)).twccSeq = pkt.seq
  · by_cases hrecv : pkt.received = true
    · refine ⟨by simp [processPacket, hfound, hrecv], ?_⟩
      intro i
      by_cases hi : i = slot pkt.seq
      · subst hi
        simp [processPacket, hfound, hrecv]
      · simp [processPacket, hfound, hrecv, Function.update_of_ne hi]
    · simp [processPacket, hfound, hrecv]
  · simp [processPacket, hfound]

theorem processPacket_tracked {sent : ℕ} {state : Tracker × Tally} (h : Tracked sent state.1)
    (pkt : PacketStatus) :
    Tracked sent (processPacket state pkt).1 where
  nextSeq := by
    rw [(processPacket_seqs state pkt).1]
    exact h.nextSeq
  history := by
    intro i
    rw [(processPacket_seqs state pkt).2]
    exact h.history i

theorem foldl_tracked {sent : ℕ} {state : Tracker × Tally} (h : Tracked sent state.1)
    (packets : List PacketStatus) : Tracked sent (packets.foldl processPacket state).1 := by
  induction packets generalizing state with
  | nil => exact h
  | cons pkt packets ih => exact ih (processPacket_tracked h pkt)

theorem assigned_concat (ops : List Op) (op : Op) :
    assigned (ops ++ [op]) =
      assigned ops ++ (machine.answer (machine.run create ops) op).assigned.toList := by
  rw [assigned, Machine.transcript_append, filterMap_append]
  cases hans : (machine.answer (machine.run create ops) op).assigned <;>
    simp [assigned, Machine.transcript, hans]

/-- The numbers count up from zero, modulo 2^16, and the tracker has kept up. -/
theorem run_tracked (ops : List Op) :
    Tracked (assigned ops).length (machine.run create ops) ∧
      assigned ops = (List.range (assigned ops).length).map UInt16.ofNat := by
  induction ops using reverseRecOn with
  | nil => exact ⟨create_tracked, rfl⟩
  | append_singleton ops op ih =>
    obtain ⟨htrk, hassigned⟩ := ih
    rw [assigned_concat, Machine.run_append]
    cases op with
    | register size sendTimeUs =>
      change Tracked (assigned ops ++ [(machine.run create ops).nextSeq]).length
          (registerPacket (machine.run create ops) size sendTimeUs).1 ∧
        assigned ops ++ [(machine.run create ops).nextSeq] =
          (List.range (assigned ops ++ [(machine.run create ops).nextSeq]).length).map UInt16.ofNat
      have hnext : (machine.run create ops).nextSeq =
          UInt16.ofNat (assigned ops).length := by
        apply UInt16.toNat_inj.mp
        rw [htrk.nextSeq]
        rfl
      rw [length_append, length_singleton, range_succ, map_append, ← hassigned, hnext]
      exact ⟨registerPacket_tracked htrk size sendTimeUs, rfl⟩
    | feedback packets =>
      change Tracked (assigned ops ++ []).length
          (packets.foldl processPacket (machine.run create ops, Tally.start)).1 ∧
        assigned ops ++ [] = (List.range (assigned ops ++ []).length).map UInt16.ofNat
      rw [append_nil]
      exact ⟨foldl_tracked htrk packets, hassigned⟩

theorem mem_drop_range {n k m : ℕ} : m ∈ (List.range n).drop k ↔ k ≤ m ∧ m < n := by
  rw [range_eq_range', drop_range', mem_range'_1]
  omega

theorem namesRecent_iff {sent : List UInt16} (h : sent = (List.range sent.length).map UInt16.ofNat)
    (seq : UInt16) :
    NamesRecent sent seq ↔
      ∃ m, m < sent.length ∧ sent.length ≤ m + 1000 ∧ m % 65536 = seq.toNat := by
  unfold NamesRecent maxHistory
  generalize sent.length = n at h
  rw [h, ← map_drop, mem_map]
  constructor
  · rintro ⟨m, hm, rfl⟩
    obtain ⟨hle, hlt⟩ := mem_drop_range.mp hm
    exact ⟨m, hlt, by omega, rfl⟩
  · rintro ⟨m, hlt, hle, hmod⟩
    refine ⟨m, mem_drop_range.mpr ⟨by omega, hlt⟩, ?_⟩
    apply UInt16.toNat_inj.mp
    rw [← hmod]
    rfl

theorem processPacket_counts (state : Tracker × Tally) (pkt : PacketStatus) :
    ((state.1.history (slot pkt.seq)).twccSeq = pkt.seq →
        Counted pkt state.2 (processPacket state pkt).2) ∧
      ((state.1.history (slot pkt.seq)).twccSeq ≠ pkt.seq →
        Ignored state.2 (processPacket state pkt).2) := by
  constructor
  · intro hfound
    unfold Counted processPacket
    dsimp only at hfound ⊢
    rw [if_pos hfound]
    split_ifs <;> exact ⟨rfl, rfl⟩
  · intro hother
    unfold Ignored processPacket
    dsimp only at hother ⊢
    rw [if_neg hother]
    exact ⟨rfl, rfl⟩

theorem Counted.not_ignored {pkt : PacketStatus} {before after : Tally}
    (h : Counted pkt before after) : ¬ Ignored before after := by
  rintro ⟨hrecv, hlost⟩
  unfold Counted at h
  split_ifs at h <;> omega

theorem processFeedback_concat
    (tracker : Tracker) (before : List PacketStatus) (pkt : PacketStatus) :
    processFeedback tracker (before ++ [pkt]) =
      processPacket (processFeedback tracker before) pkt := by
  simp [processFeedback]

/-- In whatever run and behind whatever reports, a report is accounted for exactly if
its slot tells the truth. -/
theorem reports_accounted_iff (ops : List Op) (before : List PacketStatus) (pkt : PacketStatus) :
    Accounted (assigned ops) pkt (processFeedback (machine.run create ops) before).2
        (processFeedback (machine.run create ops) (before ++ [pkt])).2 ↔
      Truthful (assigned ops).length pkt.seq.toNat := by
  obtain ⟨hrun, hassigned⟩ := run_tracked ops
  have hstate : Tracked (assigned ops).length
      (processFeedback (machine.run create ops) before).1 := foldl_tracked hrun before
  rw [processFeedback_concat]
  generalize processFeedback (machine.run create ops) before = state at hstate
  have hfound : (state.1.history (slot pkt.seq)).twccSeq = pkt.seq ↔
      slotSeq (assigned ops).length (pkt.seq.toNat % 1000) = pkt.seq.toNat := by
    rw [← UInt16.toNat_inj, hstate.history, slot_val]
  obtain ⟨hcounts, hignores⟩ := processPacket_counts state pkt
  rw [← truthful_iff pkt.seq.toNat_lt, ← hfound, ← namesRecent_iff hassigned]
  constructor
  · rintro ⟨hnamed, hunnamed⟩
    constructor
    · intro heq
      by_contra hnot
      exact (hcounts heq).not_ignored (hunnamed hnot)
    · intro hrecent
      by_contra hne
      exact (hnamed hrecent).not_ignored (hignores hne)
  · intro h
    exact ⟨fun hrecent => hcounts (h.mpr hrecent),
      fun hnot => hignores (fun heq => hnot (h.mp heq))⟩

/-- A report that packet 0 is lost, before any packet was sent. -/
def earlyReport : PacketStatus :=
  ⟨0, false, 0⟩

def lateReport : PacketStatus :=
  ⟨65000, true, 0⟩

/-- 65537 packets: the last one has number 0 again. -/
def wrapped : List Op :=
  replicate 65537 (.register 1200 0)

theorem assigned_replicate (n : ℕ) :
    (assigned (replicate n (.register 1200 0))).length = n := by
  induction n with
  | zero => rfl
  | succ n ih =>
    rw [replicate_succ', assigned_concat, length_append, ih]
    rfl

theorem lateReport_ignored {ops : List Op} (hlen : (assigned ops).length = 65537) :
    NamesRecent (assigned ops) lateReport.seq ∧
      ¬ Accounted (assigned ops) lateReport (processFeedback (machine.run create ops) []).2
        (processFeedback (machine.run create ops) [lateReport]).2 := by
  obtain ⟨hrun, hassigned⟩ := run_tracked ops
  have hrecent : NamesRecent (assigned ops) lateReport.seq := by
    rw [namesRecent_iff hassigned, hlen]
    exact ⟨65000, by decide, by decide, by decide⟩
  refine ⟨hrecent, ?_⟩
  rintro ⟨hcnt, -⟩
  have hother :
      ((machine.run create ops).history (slot lateReport.seq)).twccSeq ≠ lateReport.seq := by
    rw [ne_eq, ← UInt16.toNat_inj, hrun.history, hlen]
    decide
  exact (hcnt hrecent).not_ignored
    ((processPacket_counts (machine.run create ops, Tally.start) lateReport).2 hother)

/-- Before anything was sent, packet 0 is counted as lost; and packet 65000 is not
counted when it was sent 537 packets ago. -/
theorem reports_miscounted :
    ¬ Accounted (assigned []) earlyReport (processFeedback (machine.run create []) []).2
        (processFeedback (machine.run create []) [earlyReport]).2 ∧
      NamesRecent (assigned wrapped) lateReport.seq ∧
      ¬ Accounted (assigned wrapped) lateReport (processFeedback (machine.run create wrapped) []).2
        (processFeedback (machine.run create wrapped) [lateReport]).2 := by
  refine ⟨?_, lateReport_ignored (assigned_replicate 65537)⟩
  rintro ⟨-, hignored⟩
  have hnone : ¬ NamesRecent (assigned []) earlyReport.seq := by
    simp [NamesRecent, assigned, Machine.transcript]
  exact absurd (hignored hnone).2 (by decide)

end TurboMedia.TwccSender
