import TurboMedia.Rtsp.NalTransport

/-!
# What the receiver's statistics know of an arrival order

**Input.**  Packets of one source, numbered from the first one on, that arrive in some order,
each of them once.

**Method.**  `Tracked` ties the statistics to the numbers that have arrived: the newest one, and
for each bit of the bitmap a packet that has arrived.  A packet is classified by its distance
to the newest one, in whichever way the sequence numbers wrap around.

* `Tracked.newer`: a packet ahead of all others is found in order;
* `Tracked.older`: a packet behind the newest one is found late, and never a duplicate.
-/

namespace TurboMedia.Rtsp

open List Bool

theorem getLsbD_one_bitmap {j : ℕ} (h : (1 : BitVec 64).getLsbD j = true) : j = 0 := by
  have hone : (1 : BitVec 64) = 1#64 := rfl
  rw [hone, BitVec.getLsbD_one, and_eq_true, decide_eq_true_eq, decide_eq_true_eq] at h
  exact h.2

theorem getLsbD_mark {bitmap : BitVec 64} {d j : ℕ}
    (h : (if d ≥ 64 then 1 else bitmap <<< d ||| 1).getLsbD j = true) :
    j = 0 ∨ (d ≤ j ∧ bitmap.getLsbD (j - d) = true) := by
  split_ifs at h with hd
  · exact .inl (getLsbD_one_bitmap h)
  · rw [BitVec.getLsbD_or, BitVec.getLsbD_shiftLeft] at h
    simp only [or_eq_true, and_eq_true, decide_eq_true_eq, not_eq_true',
      decide_eq_false_iff_not, Nat.not_lt] at h
    rcases h with h | h
    · exact .inr ⟨h.1.2, h.2⟩
    · exact .inl (getLsbD_one_bitmap h)

theorem getLsbD_late {bitmap : BitVec 64} {d j : ℕ}
    (h : (bitmap ||| (1 : BitVec 64) <<< d).getLsbD j = true) :
    bitmap.getLsbD j = true ∨ j = d := by
  rw [BitVec.getLsbD_or, BitVec.getLsbD_shiftLeft] at h
  simp only [or_eq_true, and_eq_true, decide_eq_true_eq, not_eq_true',
    decide_eq_false_iff_not, Nat.not_lt] at h
  rcases h with h | h
  · exact .inl h
  · have hzero := getLsbD_one_bitmap h.2
    exact .inr (by omega)

variable {ssrc : UInt32} {base : UInt16} {A : List ℕ} {source : RtpSource} {i : ℕ}

/-- The statistics after the packets with these numbers. -/
structure Tracked (ssrc : UInt32) (base : UInt16) (A : List ℕ) (newest : ℕ)
    (source : RtpSource) : Prop where
  initialized : source.initialized = true
  ssrc_eq : source.ssrc = ssrc
  mem : newest ∈ A
  le : ∀ j ∈ A, j ≤ newest
  max : source.maxSequenceNumber = base + UInt16.ofNat newest
  bits : ∀ d < 64, d ≤ newest → source.receivedSequenceBitmap.getLsbD d = true →
    newest - d ∈ A

theorem RtpSource.classify_behind (source : RtpSource) {d : ℕ} {sequence : UInt16} (hpos : 0 < d)
    (hlt : d < 64) (hseq : sequence + UInt16.ofNat d = source.maxSequenceNumber) :
    ∃ known, source.classify sequence = source.behind known d := by
  have hrange := sequence.toNat_lt
  have hsum : (sequence.toNat + d) % 65536 = source.maxSequenceNumber.toNat := by
    rw [← hseq, UInt16.toNat_add, UInt16.toNat_ofNat']
    omega
  have hne : sequence ≠ source.maxSequenceNumber := by
    intro heq
    rw [← heq] at hsum
    omega
  rw [RtpSource.classify, if_neg hne]
  by_cases hwrap : sequence.toNat + d < 65536
  · refine ⟨true, ?_⟩
    rw [if_neg (by rw [gt_iff_lt, UInt16.lt_iff_toNat_lt]; omega), if_neg (by omega)]
    have hdelta : source.maxSequenceNumber.toNat - sequence.toNat = d := by omega
    rw [hdelta]
  · refine ⟨decide (source.cycles > 0), ?_⟩
    rw [if_pos (UInt16.lt_iff_toNat_lt.mpr (by omega)), if_pos (by omega)]
    have hdelta : source.maxSequenceNumber.toNat + (0x10000 - sequence.toNat) = d := by omega
    rw [hdelta]

theorem add_ofNat_sub {base : UInt16} {m n : ℕ} (h : m ≤ n) :
    base + UInt16.ofNat m + UInt16.ofNat (n - m) = base + UInt16.ofNat n := by
  rw [UInt16.add_assoc, ← UInt16.ofNat_add, Nat.add_sub_cancel' h]

theorem Tracked.begin {header : RtpHeader} {s : NalReceiveStream} (arrival : UInt32)
    (hexpects : s.Expects ssrc base)
    (hver : header.version = 2) (hssrc : header.ssrc = ssrc) (hseq : header.sequenceNumber = base) :
    (rtpSourceUpdateEx s.source header arrival).2 = .ok ∧
      Tracked ssrc base [0] 0 (rtpSourceUpdateEx s.source header arrival).1 := by
  obtain ⟨hok, hinit, hsame, hmax⟩ := rtpSourceUpdateEx_next arrival hexpects hver hssrc hseq
  refine ⟨hok, hinit, hsame, mem_singleton.mpr rfl, ?_, ?_, ?_⟩
  · intro j hj
    exact (mem_singleton.mp hj).le
  · rw [hmax]
    exact (UInt16.add_zero base).symm
  · intro d hd hle hbit
    rw [Nat.le_zero.mp hle]
    exact mem_singleton.mpr rfl

theorem Tracked.newer {header : RtpHeader} {newest : ℕ} (arrival : UInt32)
    (h : Tracked ssrc base A newest source) (hver : header.version = 2)
    (hssrc : header.ssrc = ssrc) (hseq : header.sequenceNumber = base + UInt16.ofNat i)
    (hlt : newest < i) (hnear : i ≤ newest + rtpMaxDropout) :
    (rtpSourceUpdateEx source header arrival).2 = .ok ∧
      Tracked ssrc base (A ++ [i]) i (rtpSourceUpdateEx source header arrival).1 := by
  have hmax : source.maxSequenceNumber + UInt16.ofNat (i - newest) = header.sequenceNumber := by
    rw [h.max, hseq, add_ofNat_sub hlt.le]
  have hclassify := source.classify_ahead (by omega : 0 < i - newest) (by omega)
  rw [hmax] at hclassify
  rw [rtpSourceUpdateEx, if_neg (not_not.mpr hver), h.initialized,
    if_neg true_eq_false.mp, if_neg (not_not.mpr (h.ssrc_eq.trans hssrc.symm)), hclassify]
  refine ⟨rfl, h.initialized, h.ssrc_eq, mem_append_right _ (mem_singleton.mpr rfl),
    ?_, hseq, ?_⟩
  · intro j hj
    rw [mem_append, mem_singleton] at hj
    rcases hj with hj | rfl
    · exact (h.le j hj).trans hlt.le
    · exact le_rfl
  · intro d hd hle hbit
    rw [mem_append, mem_singleton]
    rcases getLsbD_mark hbit with rfl | ⟨hfar, hold⟩
    · exact .inr rfl
    · have hmem := h.bits (d - (i - newest)) (by omega) (by omega) hold
      rw [show newest - (d - (i - newest)) = i - d by omega] at hmem
      exact .inl hmem

/-- A packet behind the newest one is found late, and never a duplicate. -/
theorem Tracked.older {header : RtpHeader} {newest : ℕ} (arrival : UInt32)
    (h : Tracked ssrc base A newest source) (hver : header.version = 2)
    (hssrc : header.ssrc = ssrc) (hseq : header.sequenceNumber = base + UInt16.ofNat i)
    (hnew : i ∉ A) (hlt : i < newest) (hnear : newest < i + 64) :
    (rtpSourceUpdateEx source header arrival).2 = .lateOrOutOfOrder ∧
      Tracked ssrc base (A ++ [i]) newest (rtpSourceUpdateEx source header arrival).1 := by
  have hmax : header.sequenceNumber + UInt16.ofNat (newest - i) = source.maxSequenceNumber := by
    rw [h.max, hseq, add_ofNat_sub hlt.le]
  obtain ⟨known, hclassify⟩ := source.classify_behind (by omega) (by omega) hmax
  have hbit : ¬ source.receivedSequenceBitmap.getLsbD (newest - i) = true := by
    intro hbit
    have hmem := h.bits (newest - i) (by omega) (by omega) hbit
    rw [Nat.sub_sub_self hlt.le] at hmem
    exact hnew hmem
  have hle : ∀ j ∈ A ++ [i], j ≤ newest := by
    intro j hj
    rw [mem_append, mem_singleton] at hj
    rcases hj with hj | rfl
    · exact h.le j hj
    · exact hlt.le
  rw [rtpSourceUpdateEx, if_neg (not_not.mpr hver), h.initialized,
    if_neg true_eq_false.mp, if_neg (not_not.mpr (h.ssrc_eq.trans hssrc.symm)), hclassify,
    RtpSource.behind, if_neg (by rintro ⟨-, -, hset⟩; exact hbit hset)]
  split_ifs with hknown
  · refine ⟨rfl, h.initialized, h.ssrc_eq, mem_append_left _ h.mem, hle, h.max, ?_⟩
    intro d hd hle hset
    rw [mem_append, mem_singleton]
    rcases getLsbD_late hset with hset | rfl
    · exact .inl (h.bits d hd hle hset)
    · exact .inr (Nat.sub_sub_self hlt.le)
  · refine ⟨rfl, h.initialized, h.ssrc_eq, mem_append_left _ h.mem, hle, h.max, ?_⟩
    intro d hd hle hset
    exact mem_append_left _ (h.bits d hd hle hset)

end TurboMedia.Rtsp
