import TurboMedia.Lib.Arrivals
import TurboMedia.Lib.SlotTable
import TurboMedia.Rtsp.SourceTracking

/-!
# Receive streams and reordered packets

**Input.**  The packets of a sending stream, that arrive in some order, each of them once and
the first one first.  After every push the caller drains what is queued until there is nothing.

**Method.**  `Reached A e` says that the packets before `e` have been given to the reassembler
and that the slots hold those of the packets `A` that are not.  One packet that is delivered
from a slot moves `e` on by one (`deliverQueued_some`); the loops that deliver several stop at
the first packet that is missing, or early: `drain` behind a complete NAL unit, and the caller
behind a packet that completes none.

* `Resting.arrive`: when missing packets arrive in order and no packet is left behind in the
  slots, an arrival yields what the packets that it releases yield in order.
-/

namespace TurboMedia.Rtsp

open List NalReceiveStream SlotTable ReorderPacket

open Arrivals

section Draining

variable (f : VideoFormat)

/-- The caller drains what is queued until the result is partial. -/
def drainQueuedAll : ℕ → NalReceiveStream → List UInt8 →
    (NalReceiveStream × List UInt8) × List FrameResult
  | 0, s, buffer => ((s, buffer), [])
  | n + 1, s, buffer =>
    let drained := s.drainQueued f buffer
    if drained.2.2 = .incomplete then ((drained.1, drained.2.1), [.incomplete])
    else
      let rest := drainQueuedAll n drained.1 drained.2.1
      (rest.1, drained.2.2 :: rest.2)

variable {f} in
theorem drainQueuedAll_stop {s s' : NalReceiveStream} {buffer buffer' : List UInt8} (n : ℕ)
    (h : s.drainQueued f buffer = (s', buffer', .incomplete)) :
    drainQueuedAll f (n + 1) s buffer = ((s', buffer'), [.incomplete]) := by
  rw [drainQueuedAll, h]
  exact if_pos rfl

variable {f} in
theorem drainQueuedAll_more
    {s s' : NalReceiveStream} {buffer buffer' : List UInt8} {result : FrameResult} (n : ℕ)
    (h : s.drainQueued f buffer = (s', buffer', result)) (hmore : result ≠ .incomplete) :
    drainQueuedAll f (n + 1) s buffer =
      ((drainQueuedAll f n s' buffer').1, result :: (drainQueuedAll f n s' buffer').2) := by
  rw [drainQueuedAll, h]
  exact if_neg hmore

/-- One packet is pushed and what is queued is drained.  Every round but the last one frees a
slot. -/
def pushDrain (s : NalReceiveStream) (buffer : List UInt8) (push : List UInt8 × UInt32) :
    (NalReceiveStream × List UInt8) × List FrameResult :=
  let pushed := (s.push f push.1 push.2 buffer).1
  let drained := drainQueuedAll f (pushed.1.reorder.length + 1) pushed.1 pushed.2.1
  (drained.1, pushed.2.2 :: drained.2)

/-- Packets in the order in which they arrive. -/
def pushDrainAll : NalReceiveStream → List UInt8 → List (List UInt8 × UInt32) →
    (NalReceiveStream × List UInt8) × List FrameResult
  | s, buffer, [] => ((s, buffer), [])
  | s, buffer, push :: rest =>
    let pushed := pushDrain f s buffer push
    let all := pushDrainAll pushed.1.1 pushed.1.2 rest
    (all.1, pushed.2 ++ all.2)

theorem pushDrainAll_append (s : NalReceiveStream) (buffer : List UInt8)
    (xs ys : List (List UInt8 × UInt32)) :
    pushDrainAll f s buffer (xs ++ ys) =
      ((pushDrainAll f (pushDrainAll f s buffer xs).1.1 (pushDrainAll f s buffer xs).1.2 ys).1,
        (pushDrainAll f s buffer xs).2 ++ (pushDrainAll f (pushDrainAll f s buffer xs).1.1
            (pushDrainAll f s buffer xs).1.2 ys).2) := by
  induction xs generalizing s buffer with
  | nil => rfl
  | cons push rest ih =>
    rw [cons_append, pushDrainAll, ih, pushDrainAll]
    rw [append_assoc]

theorem pushDrainAll_snoc (s : NalReceiveStream) (buffer : List UInt8)
    (xs : List (List UInt8 × UInt32)) (push : List UInt8 × UInt32) :
    pushDrainAll f s buffer (xs ++ [push]) =
      ((pushDrain f (pushDrainAll f s buffer xs).1.1 (pushDrainAll f s buffer xs).1.2 push).1,
        (pushDrainAll f s buffer xs).2 ++ (pushDrain f (pushDrainAll f s buffer xs).1.1
            (pushDrainAll f s buffer xs).1.2 push).2) := by
  rw [pushDrainAll_append, pushDrainAll, pushDrainAll]
  rw [append_nil]

end Draining

section Slots

variable {f : VideoFormat} {s : NalReceiveStream}

theorem reorderFind_some {sequence : UInt16} {index : ℕ} (h : s.reorderFind sequence = some index) :
    ∃ packet, s.reorder[index]? = some (some packet) ∧ packet.header.sequenceNumber = sequence := by
  obtain ⟨hlt, hslot, -⟩ := findIdx?_eq_some_iff_getElem.mp h
  cases hpkt : s.reorder[index] with
  | none =>
    rw [hpkt] at hslot
    cases hslot
  | some packet =>
    rw [hpkt] at hslot
    exact ⟨packet, by rw [getElem?_eq_getElem hlt, hpkt], of_decide_eq_true hslot⟩

theorem reorderFind_none {sequence : UInt16} (h : s.reorderFind sequence = none) :
    ∀ packet ∈ s.reorder.reduceOption, packet.header.sequenceNumber ≠ sequence := by
  intro packet hmem heq
  have hslot := findIdx?_eq_none_iff.mp h (some packet) ((reduceOption_mem_iff).mp hmem)
  exact absurd heq (of_decide_eq_false hslot)

theorem deliverQueued_cases (s : NalReceiveStream) (buffer : List UInt8) :
    (s.deliverQueued f buffer = none ∧ ∀ packet ∈ s.reorder.reduceOption,
          packet.header.sequenceNumber ≠ s.nextSequenceNumber) ∨
      ∃ index packet, s.reorder[index]? = some (some packet) ∧
        packet.header.sequenceNumber = s.nextSequenceNumber ∧
        s.deliverQueued f buffer = some ((s.deliver f packet.header buffer).1.removeReorder index,
            (s.deliver f packet.header buffer).2) := by
  cases hfind : s.reorderFind s.nextSequenceNumber with
  | none => exact .inl ⟨deliverQueued_none hfind buffer, reorderFind_none hfind⟩
  | some index =>
    obtain ⟨packet, hslot, hseq⟩ := reorderFind_some hfind
    refine .inr ⟨index, packet, hslot, hseq, ?_⟩
    rw [deliverQueued, hfind]
    dsimp only
    rw [getD_eq_getElem?_getD, hslot]
    rfl

end Slots

section Reached

variable (f : VideoFormat) (headers : List RtpHeader) (base : UInt16) (memory : List UInt8)

/-- The reassembler and the buffer after so many packets in order. -/
def fedTo (e : ℕ) : (NalReassembler × List UInt8) × List FrameResult :=
  feed f .zero memory (headers.take e)

def resultAt (e : ℕ) : FrameResult :=
  (reassemblerPush f (fedTo f headers memory e).1.1 (headers.getD e .zero)
    (fedTo f headers memory e).1.2).2.2

/-- The packets before `e` have been given to the reassembler, and the slots hold those of the
packets `A` that are not. -/
structure Reached (A : List ℕ) (e : ℕ) (s : NalReceiveStream) (buffer : List UInt8) : Prop where
  hasNext : s.hasNextSequenceNumber = true
  next : s.nextSequenceNumber = base + UInt16.ofNat e
  reassembler : s.reassembler = (fedTo f headers memory e).1.1
  buffer : buffer = (fedTo f headers memory e).1.2
  slots : s.reorder.length = receiveReorderCapacity
  queue : (s.reorder.reduceOption.map ReorderPacket.header).Perm
    ((A.filter (fun j => decide (e ≤ j))).map (fun j => headers.getD j .zero))
  count : s.reorderCount = (A.filter (fun j => decide (e ≤ j))).length

variable {f headers base memory} {A : List ℕ} {e : ℕ} {s : NalReceiveStream} {buffer : List UInt8}

variable (f memory) in
theorem fedTo_succ (h : e < headers.length) :
    fedTo f headers memory (e + 1) =
      (((reassemblerPush f (fedTo f headers memory e).1.1 (headers.getD e .zero)
          (fedTo f headers memory e).1.2).1,
        (reassemblerPush f (fedTo f headers memory e).1.1 (headers.getD e .zero)
          (fedTo f headers memory e).1.2).2.1),
        (fedTo f headers memory e).2 ++ [resultAt f headers memory e]) := by
  have htake : headers.take (e + 1) = headers.take e ++ [headers.getD e .zero] := by
    rw [take_add_one, getElem?_eq_getElem h, getD_eq_getElem?_getD, getElem?_eq_getElem h]
    rfl
  rw [fedTo, htake, feed_append]
  rfl

/-- The numbers of the packets that wait: distinct, known, and within one round of the
sequence numbers. -/
structure Numbered (headers : List RtpHeader) (base : UInt16) (A : List ℕ) (e : ℕ) : Prop where
  nodup : A.Nodup
  lt : ∀ j ∈ A, j < headers.length
  near : ∀ j ∈ A, j < e + 65536
  sequence : ∀ j < headers.length,
    (headers.getD j .zero).sequenceNumber = base + UInt16.ofNat j

theorem ofNat_add_inj {i j : ℕ} (hle : e ≤ i) (hlt : i < e + 65536) (hle' : e ≤ j)
    (hlt' : j < e + 65536) (h : base + UInt16.ofNat i = base + UInt16.ofNat j) : i = j := by
  have hmod : i % 65536 = j % 65536 := by
    have heq : (UInt16.ofNat i) = UInt16.ofNat j := by
      have hsub := congrArg (fun x => x - base) h
      simpa using hsub
    have hnat := congrArg UInt16.toNat heq
    rw [UInt16.toNat_ofNat', UInt16.toNat_ofNat'] at hnat
    exact hnat
  omega

theorem filter_le_perm (hnodup : A.Nodup) (hmem : e ∈ A) :
    (A.filter (fun j => decide (e ≤ j))).Perm (e :: A.filter (fun j => decide (e + 1 ≤ j))) := by
  have hnot : e ∉ A.filter (fun j => decide (e + 1 ≤ j)) := by
    rw [mem_filter, decide_eq_true_iff]
    omega
  refine (perm_ext_iff_of_nodup (hnodup.filter _)
    (nodup_cons.mpr ⟨hnot, hnodup.filter _⟩)).mpr ?_
  intro j
  rw [mem_cons, mem_filter, mem_filter, decide_eq_true_iff, decide_eq_true_iff]
  constructor
  · rintro ⟨hj, hle⟩
    rcases Nat.eq_or_lt_of_le hle with rfl | hlt
    · exact .inl rfl
    · exact .inr ⟨hj, hlt⟩
  · rintro (rfl | ⟨hj, hlt⟩)
    · exact ⟨hmem, le_rfl⟩
    · exact ⟨hj, by omega⟩

variable (h : Reached f headers base memory A e s buffer)
include h

theorem Reached.waiting {packet : ReorderPacket} (hmem : packet ∈ s.reorder.reduceOption) :
    ∃ j ∈ A, e ≤ j ∧ packet.header = headers.getD j .zero := by
  have hhdr := h.queue.mem_iff.mp (mem_map_of_mem hmem)
  obtain ⟨j, hj, heq⟩ := mem_map.mp hhdr
  rw [mem_filter, decide_eq_true_iff] at hj
  exact ⟨j, hj.1, hj.2, heq.symm⟩

theorem deliverQueued_waits
    (hnum : Numbered headers base A e) (hmem : e ∉ A) : s.deliverQueued f buffer = none := by
  rcases deliverQueued_cases (f := f) s buffer with
    ⟨hnone, -⟩ | ⟨index, packet, hslot, hseq, -⟩
  · exact hnone
  · obtain ⟨j, hj, hle, hhdr⟩ := h.waiting (mem_of_getElem? hslot)
    rw [hhdr, hnum.sequence j (hnum.lt j hj), h.next] at hseq
    obtain rfl := ofNat_add_inj hle (hnum.near j hj) le_rfl (by omega) hseq
    exact absurd hj hmem

theorem deliverQueued_some (hnum : Numbered headers base A e) (hmem : e ∈ A) :
    ∃ s', s.deliverQueued f buffer =
        some (s', (fedTo f headers memory (e + 1)).1.2, resultAt f headers memory e) ∧
      s'.source = s.source ∧
      Reached f headers base memory A (e + 1) s' (fedTo f headers memory (e + 1)).1.2 := by
  have hlt := hnum.lt e hmem
  have hfilter := filter_le_perm hnum.nodup hmem
  have hwaits : headers.getD e .zero ∈ s.reorder.reduceOption.map ReorderPacket.header := by
    refine h.queue.mem_iff.mpr (mem_map_of_mem ?_)
    rw [mem_filter, decide_eq_true_iff]
    exact ⟨hmem, le_rfl⟩
  rcases deliverQueued_cases (f := f) s buffer with ⟨-, hnone⟩ | ⟨index, packet, hslot, hseq, hsome⟩
  · obtain ⟨packet, hpkt, hhdr⟩ := mem_map.mp hwaits
    refine absurd ?_ (hnone packet hpkt)
    rw [hhdr, hnum.sequence e hlt, h.next]
  · obtain ⟨j, hj, hle, hhdr⟩ := h.waiting (mem_of_getElem? hslot)
    rw [hhdr, hnum.sequence j (hnum.lt j hj), h.next] at hseq
    obtain rfl := ofNat_add_inj hle (hnum.near j hj) le_rfl (by omega) hseq
    have hperm := (perm_expose hslot).map ReorderPacket.header
    have hrest : ((s.reorder.set index none).reduceOption.map ReorderPacket.header).Perm
        ((A.filter (fun i => decide (j + 1 ≤ i))).map (fun i => headers.getD i .zero)) := by
      have hcons := (hperm.symm.trans h.queue).trans (hfilter.map _)
      rw [map_append, map_cons] at hcons
      have hone : (some packet).toList.map ReorderPacket.header = [packet.header] := rfl
      rw [hone, singleton_append, hhdr] at hcons
      exact hcons.cons_inv
    have hcount := hfilter.length_eq
    rw [length_cons] at hcount
    have hsucc := fedTo_succ f memory hlt
    rw [hsome, hhdr]
    have hdeliver : s.deliver f (headers.getD j .zero) buffer =
        ({ s with
            reassembler := (fedTo f headers memory (j + 1)).1.1
            hasNextSequenceNumber := true
            nextSequenceNumber := base + UInt16.ofNat (j + 1) },
          (fedTo f headers memory (j + 1)).1.2, resultAt f headers memory j) := by
      rw [hsucc, deliver, h.reassembler, h.buffer, hnum.sequence j hlt,
        UInt16.ofNat_add, ← UInt16.add_assoc]
      rfl
    rw [hdeliver]
    refine ⟨_, rfl, rfl, ⟨rfl, rfl, rfl, rfl, ?_, hrest, ?_⟩⟩
    · exact length_set.trans h.slots
    · exact (congrArg (· - 1) (h.count.trans hcount)).trans (Nat.add_sub_cancel _ 1)

omit h

theorem Numbered.mono {e' : ℕ} (h : Numbered headers base A e) (hle : e ≤ e') :
    Numbered headers base A e' :=
  ⟨h.nodup, h.lt, fun j hj => (h.near j hj).trans_le (by omega), h.sequence⟩

theorem nalsOf_fedTo_succ (h : e < headers.length) :
    nalsOf (fedTo f headers memory (e + 1)).2 =
      nalsOf (fedTo f headers memory e).2 ++ nalsOf [resultAt f headers memory e] := by
  rw [fedTo_succ f memory h, nalsOf_append]

variable (f headers base memory) in
/-- Packets from `e` on have been delivered, up to `e1`; `prior` are the NAL units before the
last result. -/
structure LoopRun (A : List ℕ) (e : ℕ) (source : RtpSource) (prior : List (List UInt8))
    (e1 : ℕ) (out : NalReceiveStream × List UInt8 × FrameResult) : Prop where
  le : e ≤ e1
  released : ∀ j, e ≤ j → j < e1 → j ∈ A
  source_eq : out.1.source = source
  reached : Reached f headers base memory A e1 out.1 out.2.1
  ok : out.2.2 ≠ .error
  result : out.2.2 = resultAt f headers memory (e1 - 1)
  nals : nalsOf (fedTo f headers memory e1).2 = prior ++ nalsOf [out.2.2]
  stop : e1 ∉ A ∨ out.2.2 ≠ .incomplete

theorem LoopRun.here {result : FrameResult} {prior : List (List UInt8)}
    (h : Reached f headers base memory A e s buffer) (hres : result ≠ .error)
    (hlast : result = resultAt f headers memory (e - 1))
    (hnals : nalsOf (fedTo f headers memory e).2 = prior ++ nalsOf [result])
    (hstop : e ∉ A ∨ result ≠ .incomplete) :
    LoopRun f headers base memory A e s.source prior e (s, buffer, result) :=
  ⟨le_rfl, fun _ hlow hhigh => absurd hlow (Nat.not_le.mpr hhigh), rfl, h, hres, hlast, hnals,
    hstop⟩

/-- The loop of `drain` delivers packets that wait, up to a missing one or up to one that
completes a NAL unit. -/
theorem drainLoop_run {n : ℕ} {result : FrameResult} {prior : List (List UInt8)}
    (hgood : ∀ e < headers.length, resultAt f headers memory e ≠ .error)
    (h : Reached f headers base memory A e s buffer) (hnum : Numbered headers base A e)
    (hfuel : (A.filter (fun j => decide (e ≤ j))).length ≤ n) (hres : result ≠ .error)
    (hlast : result = resultAt f headers memory (e - 1))
    (hnals : nalsOf (fedTo f headers memory e).2 = prior ++ nalsOf [result]) :
    ∃ e1, LoopRun f headers base memory A e s.source prior e1
      (drainLoop f n s buffer result) := by
  induction n generalizing e s buffer result with
  | zero =>
    refine ⟨e, .here h hres hlast hnals (.inl ?_)⟩
    intro hmem
    have hfilter : e ∈ A.filter (fun j => decide (e ≤ j)) :=
      mem_filter.mpr ⟨hmem, decide_eq_true le_rfl⟩
    exact Nat.not_lt_zero _ ((length_pos_of_mem hfilter).trans_le hfuel)
  | succ n ih =>
    cases result with
    | error => exact absurd rfl hres
    | ok nal => exact ⟨e, .here h hres hlast hnals (.inr (by rintro ⟨⟩))⟩
    | incomplete =>
      rw [drainLoop]
      by_cases hmem : e ∈ A
      · obtain ⟨s', hdeliver, hsrc, hreached⟩ := deliverQueued_some h hnum hmem
        have hlt := hnum.lt e hmem
        have hcount := (filter_le_perm hnum.nodup hmem).length_eq
        rw [length_cons] at hcount
        have hnone : nalsOf [.incomplete] = [] := rfl
        have hnext : nalsOf (fedTo f headers memory (e + 1)).2 =
            prior ++ nalsOf [resultAt f headers memory e] := by
          rw [nalsOf_fedTo_succ hlt, hnals, hnone, append_nil]
        obtain ⟨e1, hrun⟩ := ih hreached (hnum.mono (Nat.le_succ e)) (by omega)
          (hgood e hlt) rfl hnext
        rw [hdeliver]
        refine ⟨e1, by have := hrun.le; omega, ?_, hrun.source_eq.trans hsrc, hrun.reached,
          hrun.ok, hrun.result, hrun.nals, hrun.stop⟩
        intro j hlow hhigh
        rcases Nat.eq_or_lt_of_le hlow with rfl | hlow
        · exact hmem
        · exact hrun.released j hlow hhigh
      · rw [deliverQueued_waits h hnum hmem]
        exact ⟨e, .here h hres hlast hnals (.inl hmem)⟩

variable (f headers base memory) in
/-- The caller has drained what was queued from `e` on, up to the missing packet `e1`. -/
structure DrainRun (A : List ℕ) (e : ℕ) (source : RtpSource) (e1 : ℕ)
    (out : (NalReceiveStream × List UInt8) × List FrameResult) : Prop where
  le : e ≤ e1
  released : ∀ j, e ≤ j → j < e1 → j ∈ A
  missing : e1 ∉ A
  source_eq : out.1.1.source = source
  reached : Reached f headers base memory A e1 out.1.1 out.1.2
  ok : .error ∉ out.2
  nals : nalsOf (fedTo f headers memory e1).2 =
    nalsOf (fedTo f headers memory e).2 ++ nalsOf out.2

/-- The caller's loop delivers all packets that wait, when each of them but the last completes
a NAL unit. -/
theorem drainQueuedAll_run {n : ℕ}
    (hgood : ∀ e < headers.length, resultAt f headers memory e ≠ .error)
    (h : Reached f headers base memory A e s buffer) (hnum : Numbered headers base A e)
    (hfuel : (A.filter (fun j => decide (e ≤ j))).length < n)
    (hcomp : ∀ k, e ≤ k → (∀ j, e ≤ j → j ≤ k + 1 → j ∈ A) →
      resultAt f headers memory k ≠ .incomplete) :
    ∃ e1, DrainRun f headers base memory A e s.source e1 (drainQueuedAll f n s buffer) := by
  induction n generalizing e s buffer with
  | zero => exact absurd hfuel (Nat.not_lt_zero _)
  | succ n ih =>
    by_cases hmem : e ∈ A
    · obtain ⟨s', hdeliver, hsrc, hreached⟩ := deliverQueued_some h hnum hmem
      have hlt := hnum.lt e hmem
      have hsettle : NalReceiveStream.settle
          (s', (fedTo f headers memory (e + 1)).1.2, resultAt f headers memory e) =
            (s', (fedTo f headers memory (e + 1)).1.2, resultAt f headers memory e) :=
        settle_of_ne (hgood e hlt)
      have hdrain : s.drainQueued f buffer =
          (s', (fedTo f headers memory (e + 1)).1.2, resultAt f headers memory e) := by
        rw [drainQueued, h.hasNext, if_neg Bool.true_eq_false.mp, hdeliver]
        exact hsettle
      have hbetween : ∀ e1, (∀ j, e + 1 ≤ j → j < e1 → j ∈ A) →
          ∀ j, e ≤ j → j < e1 → j ∈ A := by
        intro e1 hrest j hlow hhigh
        rcases Nat.eq_or_lt_of_le hlow with rfl | hlow
        · exact hmem
        · exact hrest j hlow hhigh
      by_cases hdone : resultAt f headers memory e = .incomplete
      · rw [hdone] at hdrain
        rw [drainQueuedAll_stop n hdrain]
        refine ⟨e + 1, Nat.le_succ e, ?_, ?_, hsrc, hreached, ?_, ?_⟩
        · exact hbetween (e + 1) (fun j hlow hhigh => absurd hlow (Nat.not_le.mpr hhigh))
        · intro hnext
          refine hcomp e le_rfl ?_ hdone
          intro j hlow hhigh
          rcases Nat.eq_or_lt_of_le hhigh with rfl | hhigh
          · exact hnext
          · obtain rfl : j = e := by omega
            exact hmem
        · rw [mem_singleton]
          rintro ⟨⟩
        · rw [nalsOf_fedTo_succ hlt, hdone]
      · rw [drainQueuedAll_more n hdrain hdone]
        have hcount := (filter_le_perm hnum.nodup hmem).length_eq
        rw [length_cons] at hcount
        obtain ⟨e1, hrun⟩ := ih hreached (hnum.mono (Nat.le_succ e)) (by omega) (by
          intro k hle hall
          refine hcomp k (by omega) ?_
          intro j hlow hhigh
          rcases Nat.eq_or_lt_of_le hlow with rfl | hlow
          · exact hmem
          · exact hall j hlow hhigh)
        have hle := hrun.le
        refine ⟨e1, by omega, hbetween e1 hrun.released, hrun.missing,
          hrun.source_eq.trans hsrc, hrun.reached, ?_, ?_⟩
        · rw [mem_cons, not_or]
          exact ⟨(hgood e hlt).symm, hrun.ok⟩
        · rw [hrun.nals, nalsOf_fedTo_succ hlt, append_assoc, ← nalsOf_append]
          rfl
    · have hdrain : s.drainQueued f buffer = (s, buffer, .incomplete) := by
        rw [drainQueued, h.hasNext, if_neg Bool.true_eq_false.mp,
          deliverQueued_waits h hnum hmem]
      rw [drainQueuedAll_stop n hdrain]
      refine ⟨e, le_rfl, fun j hlow hhigh => absurd hlow (Nat.not_le.mpr hhigh), hmem, rfl, h,
        ?_, (append_nil _).symm⟩
      rw [mem_singleton]
      rintro ⟨⟩

theorem Reached.room (h : Reached f headers base memory A e s buffer) :
    (A.filter (fun j => decide (e ≤ j))).length ≤ receiveReorderCapacity := by
  have hle := reduceOption_length_le s.reorder
  have hlen := h.queue.length_eq
  rw [length_map, length_map] at hlen
  rw [← hlen, ← h.slots]
  exact hle

theorem Reached.delivered
    (h : Reached f headers base memory A e
      { s with
        hasNextSequenceNumber := true
        nextSequenceNumber := base + UInt16.ofNat e } buffer) (hlt : e < headers.length)
    (hnot : e ∉ A) (hseq : (headers.getD e .zero).sequenceNumber = base + UInt16.ofNat e) :
    (reassemblerPush f s.reassembler (headers.getD e .zero) buffer).2 =
        ((fedTo f headers memory (e + 1)).1.2, resultAt f headers memory e) ∧
      Reached f headers base memory (A ++ [e]) (e + 1)
        { s with
          reassembler := (reassemblerPush f s.reassembler (headers.getD e .zero) buffer).1
          hasNextSequenceNumber := true
          nextSequenceNumber := (headers.getD e .zero).sequenceNumber + 1 }
        (fedTo f headers memory (e + 1)).1.2 := by
  have hsucc := fedTo_succ f memory hlt
  have hreassembler : s.reassembler = (fedTo f headers memory e).1.1 := h.reassembler
  have hfilter : (A ++ [e]).filter (fun j => decide (e + 1 ≤ j)) =
      A.filter (fun j => decide (e ≤ j)) := by
    rw [filter_append, filter_singleton, decide_eq_false (Nat.not_succ_le_self e)]
    refine (append_nil _).trans (filter_congr ?_)
    intro j hj
    have hne : j ≠ e := fun heq => hnot (heq ▸ hj)
    rw [decide_eq_decide]
    omega
  rw [hreassembler, h.buffer]
  refine ⟨?_, rfl, ?_, ?_, rfl, h.slots, ?_, ?_⟩
  · rw [hsucc]
    rfl
  · rw [hseq, UInt16.ofNat_add, ← UInt16.add_assoc]
    rfl
  · rw [hsucc]
  · rw [hfilter]
    exact h.queue
  · rw [hfilter]
    exact h.count

/-- The packet that is expected is delivered, and everything that waits for it. -/
theorem accept_run (hgood : ∀ e < headers.length, resultAt f headers memory e ≠ .error)
    (h : Reached f headers base memory A e
      { s with
        hasNextSequenceNumber := true
        nextSequenceNumber := base + UInt16.ofNat e } buffer)
    (hnext : s.hasNextSequenceNumber = true → s.nextSequenceNumber = base + UInt16.ofNat e)
    (hnum : Numbered headers base (A ++ [e]) e) (hnot : e ∉ A) :
    ∃ e1, LoopRun f headers base memory (A ++ [e]) (e + 1) s.source
      (nalsOf (fedTo f headers memory e).2) e1 (s.accept f (headers.getD e .zero) buffer) := by
  have hmem : e ∈ A ++ [e] := mem_append_right _ (mem_singleton.mpr rfl)
  have hlt := hnum.lt e hmem
  have hseq := hnum.sequence e hlt
  obtain ⟨hres, hreached⟩ := h.delivered hlt hnot hseq
  obtain ⟨e1, hrun⟩ := drainLoop_run (n := receiveReorderCapacity) hgood hreached
    (hnum.mono (Nat.le_succ e)) hreached.room (hgood e hlt) rfl (nalsOf_fedTo_succ hlt)
  refine ⟨e1, ?_⟩
  rw [accept_deliver buffer (fun hhas => (hnext hhas).trans hseq.symm), hres]
  rw [settle_of_ne hrun.ok]
  exact hrun

theorem exists_free {slots : List (Option ReorderPacket)}
    (h : slots.reduceOption.length < slots.length) :
    ∃ index, slots.findIdx? Option.isNone = some index ∧ slots[index]? = some none := by
  cases hfind : slots.findIdx? Option.isNone with
  | none =>
    have hall : ∀ slot ∈ slots, slot.isSome = true := by
      intro slot hmem
      have hslot := findIdx?_eq_none_iff.mp hfind slot hmem
      cases slot with
      | none => cases hslot
      | some packet => rfl
    rw [reduceOption_length_eq_iff.mpr hall] at h
    exact absurd h (Nat.lt_irrefl _)
  | some index =>
    obtain ⟨hlt, hslot, -⟩ := findIdx?_eq_some_iff_getElem.mp hfind
    refine ⟨index, rfl, ?_⟩
    rw [getElem?_eq_getElem hlt, Option.isNone_iff_eq_none.mp hslot]

theorem accept_later {i : ℕ} (h : Reached f headers base memory A e s buffer)
    (hnum : Numbered headers base (A ++ [i]) e) (hnot : i ∉ A) (hlow : e < i)
    (hhigh : i ≤ e + receiveReorderWindow)
    (hroom : (A.filter (fun j => decide (e ≤ j))).length < receiveReorderCapacity)
    (hfits : (headers.getD i .zero).payload.length ≤ receiveReorderPayloadSize) :
    ∃ s', s.accept f (headers.getD i .zero) buffer = (s', buffer, .incomplete) ∧
      s'.source = s.source ∧ Reached f headers base memory (A ++ [i]) e s' buffer := by
  have hwin : receiveReorderWindow = 8 := rfl
  have hmem : i ∈ A ++ [i] := mem_append_right _ (mem_singleton.mpr rfl)
  have hseq := hnum.sequence i (hnum.lt i hmem)
  have hdelta : (headers.getD i .zero).sequenceNumber - s.nextSequenceNumber =
      UInt16.ofNat (i - e) := by
    rw [hseq, h.next, ← add_ofNat_sub hlow.le, UInt16.add_comm (base + UInt16.ofNat e),
      UInt16.add_sub_cancel]
  have hnat : (UInt16.ofNat (i - e)).toNat = i - e := by
    rw [UInt16.toNat_ofNat']
    exact Nat.mod_eq_of_lt (by omega)
  have hne : UInt16.ofNat (i - e) ≠ 0 := by
    intro heq
    rw [heq] at hnat
    exact absurd hnat (by rw [UInt16.toNat_zero]; omega)
  have hfind : s.reorderFind (headers.getD i .zero).sequenceNumber = none := by
    cases hfind : s.reorderFind (headers.getD i .zero).sequenceNumber with
    | none => rfl
    | some index =>
      obtain ⟨packet, hslot, hsame⟩ := reorderFind_some hfind
      obtain ⟨j, hj, hle, hhdr⟩ := h.waiting (mem_of_getElem? hslot)
      have hj' := mem_append_left [i] hj
      rw [hhdr, hnum.sequence j (hnum.lt j hj'), hseq] at hsame
      obtain rfl := ofNat_add_inj hle (hnum.near j hj') hlow.le (hnum.near i hmem) hsame
      exact absurd hj hnot
  have hlength := h.queue.length_eq
  rw [length_map, length_map] at hlength
  obtain ⟨index, hfree, hslot⟩ := exists_free
    (by rw [hlength, h.slots]; exact hroom : s.reorder.reduceOption.length < s.reorder.length)
  have hperm := (perm_set hslot
    (some ⟨headers.getD i .zero, hfits⟩)).trans ((perm_expose hslot).symm.cons _)
  have hfilter : (A ++ [i]).filter (fun j => decide (e ≤ j)) =
      A.filter (fun j => decide (e ≤ j)) ++ [i] := by
    rw [filter_append, filter_singleton, decide_eq_true hlow.le]
    rfl
  refine ⟨{ s with
      reorder := s.reorder.set index (some ⟨headers.getD i .zero, hfits⟩)
      reorderCount := s.reorderCount + 1 }, ?_, ?_, ?_⟩
  · rw [accept, if_pos h.hasNext, hdelta, if_neg hne, holdBack,
      hnat, if_pos ⟨by omega, hfind⟩, reorderStore, dif_pos hfits,
      if_neg (by rw [h.count]; omega), hfree]
  · rfl
  · refine ⟨h.hasNext, h.next, h.reassembler, h.buffer, length_set.trans h.slots, ?_, ?_⟩
    · rw [hfilter, map_append]
      exact ((hperm.map ReorderPacket.header).trans (h.queue.cons _)).trans
        (perm_append_singleton _ _).symm
    · rw [hfilter, length_append]
      exact congrArg (· + 1) h.count

end Reached

/-- A packet arrives once, within the window, and not too many are held back then. -/
structure InWindow (A : List ℕ) (i : ℕ) : Prop where
  new : i ∉ A
  window : i ≤ nextExpected A + receiveReorderWindow
  capacity : (held (A ++ [i])).length ≤ receiveReorderCapacity

/-- A packet is the expected one or newer than all others; and among the packets that the
expected one releases, behind one that completes a NAL unit only the last may not. -/
structure OrderlyArrival (completes : ℕ → Bool) (A : List ℕ) (i : ℕ) : Prop where
  order : i = nextExpected A ∨ ∀ j ∈ A, j < i
  released : i = nextExpected A → ∀ j k, i ≤ j → j < k → k + 1 < nextExpected (A ++ [i]) →
    completes j = true → completes k = true

instance (A : List ℕ) (i : ℕ) : Decidable (InWindow A i) :=
  decidable_of_iff (i ∉ A ∧ i ≤ nextExpected A + receiveReorderWindow ∧
      (held (A ++ [i])).length ≤ receiveReorderCapacity)
    ⟨fun h => ⟨h.1, h.2.1, h.2.2⟩, fun h => ⟨h.new, h.window, h.capacity⟩⟩

instance (completes : ℕ → Bool) (A : List ℕ) (i : ℕ) :
    Decidable (OrderlyArrival completes A i) :=
  decidable_of_iff ((i = nextExpected A ∨ ∀ j ∈ A, j < i) ∧
      (i = nextExpected A → ∀ k < nextExpected (A ++ [i]), ∀ j < k, i ≤ j →
        k + 1 < nextExpected (A ++ [i]) → completes j = true → completes k = true))
    ⟨fun h => ⟨h.1, fun hi j k hij hjk hk => h.2 hi k (by omega) j hjk hij hk⟩,
      fun h => ⟨h.order, fun hi k _ j hjk hij hk => h.released hi j k hij hjk hk⟩⟩

variable {f : VideoFormat} {headers : List RtpHeader} {base : UInt16} {memory : List UInt8}
variable {A : List ℕ} {s : NalReceiveStream} {buffer : List UInt8} {ssrc : UInt32} {i : ℕ}

/-- What is known of the packets. -/
structure Known (f : VideoFormat) (headers : List RtpHeader) (base : UInt16) (ssrc : UInt32)
    (memory : List UInt8) (completes : ℕ → Bool) : Prop where
  version : ∀ j < headers.length, (headers.getD j .zero).version = 2
  ssrc_eq : ∀ j < headers.length, (headers.getD j .zero).ssrc = ssrc
  sequence : ∀ j < headers.length,
    (headers.getD j .zero).sequenceNumber = base + UInt16.ofNat j
  fits : ∀ j < headers.length,
    (headers.getD j .zero).payload.length ≤ receiveReorderPayloadSize
  good : ∀ j < headers.length, resultAt f headers memory j ≠ .error
  completes_iff : ∀ j < headers.length,
    completes j = true ↔ resultAt f headers memory j ≠ .incomplete

/-- The receive stream between two arrivals. -/
structure Resting (f : VideoFormat) (headers : List RtpHeader) (base : UInt16) (ssrc : UInt32)
    (memory : List UInt8) (A : List ℕ) (s : NalReceiveStream) (buffer : List UInt8) : Prop where
  reached : Reached f headers base memory A (nextExpected A) s buffer
  tracked : ∃ newest, Tracked ssrc base A newest s.source ∧
    newest ≤ nextExpected A + receiveReorderWindow
  nodup : A.Nodup
  lt : ∀ j ∈ A, j < headers.length

theorem Resting.update {completes : ℕ → Bool} (arrival : UInt32)
    (h : Resting f headers base ssrc memory A s buffer)
    (hknown : Known f headers base ssrc memory completes) (hwin : InWindow A i)
    (horder : i = nextExpected A ∨ ∀ j ∈ A, j < i) (hlt : i < headers.length) :
    ∃ newest, Tracked ssrc base (A ++ [i]) newest
        (rtpSourceUpdateEx s.source (headers.getD i .zero) arrival).1 ∧
      newest ≤ nextExpected A + receiveReorderWindow ∧
      ((rtpSourceUpdateEx s.source (headers.getD i .zero) arrival).2 = .ok ∨
        (rtpSourceUpdateEx s.source (headers.getD i .zero) arrival).2 = .lateOrOutOfOrder ∧
          i = nextExpected A) := by
  obtain ⟨newest, htrk, hnewest⟩ := h.tracked
  have hsize : receiveReorderWindow = 8 := rfl
  have hdropout : rtpMaxDropout = 3000 := rfl
  have hbound := hwin.window
  rcases Nat.lt_trichotomy newest i with hnewer | rfl | holder
  · have hnext : nextExpected A ≤ newest + 1 := by
      by_contra hfar
      have hmem := (nextExpected_spec A).1 (newest + 1) (by omega)
      exact Nat.not_succ_le_self newest (htrk.le _ hmem)
    obtain ⟨hok, htrk'⟩ := htrk.newer arrival (hknown.version i hlt)
      (hknown.ssrc_eq i hlt) (hknown.sequence i hlt) hnewer (by omega)
    exact ⟨i, htrk', hbound, .inl hok⟩
  · exact absurd htrk.mem hwin.new
  · have hexp : i = nextExpected A :=
      horder.resolve_right (fun hall => absurd (hall newest htrk.mem) (by omega))
    obtain ⟨hlate, htrk'⟩ := htrk.older arrival (hknown.version i hlt)
      (hknown.ssrc_eq i hlt) (hknown.sequence i hlt) hwin.new holder (by omega)
    exact ⟨newest, htrk', hnewest, .inr ⟨hlate, hexp⟩⟩

theorem Resting.numbered (h : Resting f headers base ssrc memory A s buffer) {completes : ℕ → Bool}
    (hknown : Known f headers base ssrc memory completes) (hwin : InWindow A i)
    (hlt : i < headers.length) : Numbered headers base (A ++ [i]) (nextExpected A) := by
  obtain ⟨newest, htrk, hnewest⟩ := h.tracked
  have hsize : receiveReorderWindow = 8 := rfl
  have hbound := hwin.window
  refine ⟨nodup_append.mpr ⟨h.nodup, nodup_singleton i, ?_⟩, ?_, ?_, hknown.sequence⟩
  · intro j hj k hk heq
    rw [mem_singleton.mp hk] at heq
    exact hwin.new (heq ▸ hj)
  · intro j hj
    rw [mem_append, mem_singleton] at hj
    rcases hj with hj | rfl
    · exact h.lt j hj
    · exact hlt
  · intro j hj
    rw [mem_append, mem_singleton] at hj
    rcases hj with hj | rfl
    · have hle := htrk.le j hj
      omega
    · omega

variable (f headers base ssrc memory) in
/-- What one arrival comes to. -/
structure Arrived (A : List ℕ) (i : ℕ)
    (out : (NalReceiveStream × List UInt8) × List FrameResult) : Prop where
  resting : Resting f headers base ssrc memory (A ++ [i]) out.1.1 out.1.2
  ok : .error ∉ out.2
  nals : nalsOf (fedTo f headers memory (nextExpected (A ++ [i]))).2 =
    nalsOf (fedTo f headers memory (nextExpected A)).2 ++ nalsOf out.2

theorem arrived_of_drained
    {e1 : ℕ} {result : FrameResult} {newest : ℕ} {prior : List (List UInt8)} {A' : List ℕ}
    {s1 : NalReceiveStream} {buffer1 : List UInt8}
    (hgood : ∀ j < headers.length, resultAt f headers memory j ≠ .error)
    (hnum : Numbered headers base A' e1)
    (hreached : Reached f headers base memory A' e1 s1 buffer1) (hbef : ∀ j < e1, j ∈ A')
    (hres : result ≠ .error)
    (hnals : nalsOf (fedTo f headers memory e1).2 = prior ++ nalsOf [result])
    (htrk : Tracked ssrc base A' newest s1.source)
    (hnewest : newest ≤ nextExpected A' + receiveReorderWindow)
    (hcomp : ∀ k, e1 ≤ k → (∀ j, e1 ≤ j → j ≤ k + 1 → j ∈ A') →
      resultAt f headers memory k ≠ .incomplete) :
    Resting f headers base ssrc memory A' (drainQueuedAll f (s1.reorder.length + 1) s1 buffer1).1.1
        (drainQueuedAll f (s1.reorder.length + 1) s1 buffer1).1.2 ∧
      .error ∉ result :: (drainQueuedAll f (s1.reorder.length + 1) s1 buffer1).2 ∧
      nalsOf (fedTo f headers memory (nextExpected A')).2 =
        prior ++ nalsOf (result :: (drainQueuedAll f (s1.reorder.length + 1) s1 buffer1).2) := by
  obtain ⟨e2, hrun⟩ := drainQueuedAll_run (n := s1.reorder.length + 1) hgood hreached hnum
    (by rw [hreached.slots]; exact Nat.lt_succ_of_le hreached.room) hcomp
  have hnext : nextExpected A' = e2 := by
    refine nextExpected_unique ?_ hrun.missing
    intro j hj
    rcases Nat.lt_or_ge j e1 with hlt | hge
    · exact hbef j hlt
    · exact hrun.released j hge hj
  refine ⟨⟨hnext ▸ hrun.reached, ⟨newest, hrun.source_eq ▸ htrk, hnewest⟩, hnum.nodup,
    hnum.lt⟩, ?_, ?_⟩
  · rw [mem_cons, not_or]
    exact ⟨hres.symm, hrun.ok⟩
  · rw [hnext, hrun.nals, hnals, append_assoc, ← nalsOf_append]
    rfl

variable (f buffer) in
theorem push_accept {packet : List UInt8} {header : RtpHeader} {arrival : UInt32}
    (hparse : rtpParseHeader packet = some header)
    (hupdate : (rtpSourceUpdateEx s.source header arrival).2 = .ok ∨
      (rtpSourceUpdateEx s.source header arrival).2 = .lateOrOutOfOrder ∧
        s.hasNextSequenceNumber = true ∧ header.sequenceNumber = s.nextSequenceNumber) :
    (s.push f packet arrival buffer).1 =
      { s with source := (rtpSourceUpdateEx s.source header arrival).1 }.accept f header
        buffer := by
  rw [push, hparse]
  dsimp only
  rcases hupdate with hok | ⟨hlate, hnext⟩
  · rw [hok]
    rfl
  · rw [hlate]
    exact if_pos hnext

theorem Reached.with_source {e : ℕ} (h : Reached f headers base memory A e s buffer)
    (source : RtpSource) : Reached f headers base memory A e { s with source := source } buffer :=
  ⟨h.hasNext, h.next, h.reassembler, h.buffer, h.slots, h.queue, h.count⟩

/-- Behind the packet that was expected, every packet that waits directly before another one
completes a NAL unit. -/
theorem released_complete
    {completes : ℕ → Bool} {e1 k : ℕ} {out : NalReceiveStream × List UInt8 × FrameResult}
    {source : RtpSource} {prior : List (List UInt8)}
    (hknown : Known f headers base ssrc memory completes)
    (horder : OrderlyArrival completes A (nextExpected A))
    (hrun : LoopRun f headers base memory (A ++ [nextExpected A]) (nextExpected A + 1) source
      prior e1 out) (hlt : ∀ j ∈ A ++ [nextExpected A], j < headers.length) (hlow : e1 ≤ k)
    (hall : ∀ j, e1 ≤ j → j ≤ k + 1 → j ∈ A ++ [nextExpected A]) :
    resultAt f headers memory k ≠ .incomplete := by
  have hle := hrun.le
  have hbef : ∀ j ≤ k + 1, j ∈ A ++ [nextExpected A] := by
    intro j hj
    rcases Nat.lt_trichotomy j (nextExpected A) with hlt | rfl | hgt
    · exact mem_append_left _ ((nextExpected_spec A).1 j hlt)
    · exact mem_append_right _ (mem_singleton.mpr rfl)
    · rcases Nat.lt_or_ge j e1 with hlt | hge
      · exact hrun.released j hgt hlt
      · exact hall j hge hj
  have hnext : k + 1 < nextExpected (A ++ [nextExpected A]) := by
    by_contra hfar
    exact (nextExpected_spec (A ++ [nextExpected A])).2 (hbef _ (Nat.le_of_not_lt hfar))
  have hmem : ∀ j ≤ k, j < headers.length := fun j hj => hlt j (hbef j (by omega))
  rcases hrun.stop with hmissing | hcomp
  · exact absurd (hall e1 le_rfl (by omega)) hmissing
  · rw [hrun.result] at hcomp
    exact (hknown.completes_iff k (hmem k le_rfl)).mp
      (horder.released rfl (e1 - 1) k (by omega) (by omega) hnext
        ((hknown.completes_iff (e1 - 1) (hmem _ (by omega))).mpr hcomp))

theorem arrive_expected {source : RtpSource} {newest : ℕ} {completes : ℕ → Bool}
    (hreached : Reached f headers base memory A (nextExpected A)
      { s with
        source := source
        hasNextSequenceNumber := true
        nextSequenceNumber := base + UInt16.ofNat (nextExpected A) } buffer)
    (hnext : s.hasNextSequenceNumber = true →
      s.nextSequenceNumber = base + UInt16.ofNat (nextExpected A))
    (hnum : Numbered headers base (A ++ [nextExpected A]) (nextExpected A))
    (hknown : Known f headers base ssrc memory completes)
    (horder : OrderlyArrival completes A (nextExpected A))
    (htrk : Tracked ssrc base (A ++ [nextExpected A]) newest source)
    (hnewest : newest ≤ nextExpected A + receiveReorderWindow) :
    ∃ s1 buffer1 result,
      { s with source := source }.accept f (headers.getD (nextExpected A) .zero) buffer =
        (s1, buffer1, result) ∧
      Resting f headers base ssrc memory (A ++ [nextExpected A])
        (drainQueuedAll f (s1.reorder.length + 1) s1 buffer1).1.1
        (drainQueuedAll f (s1.reorder.length + 1) s1 buffer1).1.2 ∧
      .error ∉ result :: (drainQueuedAll f (s1.reorder.length + 1) s1 buffer1).2 ∧
      nalsOf (fedTo f headers memory (nextExpected (A ++ [nextExpected A]))).2 =
        nalsOf (fedTo f headers memory (nextExpected A)).2 ++
          nalsOf (result :: (drainQueuedAll f (s1.reorder.length + 1) s1 buffer1).2) := by
  obtain ⟨e1, hrun⟩ := accept_run (s := { s with source := source }) hknown.good hreached hnext
    hnum (nextExpected_spec A).2
  have hsrc := hrun.source_eq
  dsimp only at hsrc
  rw [← hsrc] at htrk
  obtain ⟨hless, -⟩ := nextExpected_append_next A
  refine ⟨_, _, _, rfl, arrived_of_drained hknown.good
    (hnum.mono ((Nat.le_succ _).trans hrun.le)) hrun.reached ?_ hrun.ok hrun.nals htrk
    (by omega)
    (fun k hlow hall => released_complete hknown horder hrun hnum.lt hlow hall)⟩
  intro j hj
  rcases Nat.lt_trichotomy j (nextExpected A) with hlow | rfl | hhigh
  · exact mem_append_left _ ((nextExpected_spec A).1 j hlow)
  · exact mem_append_right _ (mem_singleton.mpr rfl)
  · exact hrun.released j hhigh hj

theorem Resting.arrive {packet : List UInt8} {completes : ℕ → Bool} (arrival : UInt32)
    (h : Resting f headers base ssrc memory A s buffer)
    (hknown : Known f headers base ssrc memory completes) (hwin : InWindow A i)
    (horder : OrderlyArrival completes A i) (hlt : i < headers.length)
    (hparse : rtpParseHeader packet = some (headers.getD i .zero)) :
    Arrived f headers base memory ssrc A i (pushDrain f s buffer (packet, arrival)) := by
  obtain ⟨newest, htrk, hnewest, hupdate⟩ := h.update arrival hknown hwin horder.order hlt
  have hnum := h.numbered hknown hwin hlt
  have hseq := hknown.sequence i hlt
  have hpush := push_accept f buffer hparse (hupdate.imp_right (by
    rintro ⟨hlate, rfl⟩
    exact ⟨hlate, h.reached.hasNext, hseq.trans h.reached.next.symm⟩))
  rw [pushDrain]
  rw [hpush]
  by_cases hexp : i = nextExpected A
  · subst hexp
    obtain ⟨s1, buffer1, result, haccept, hresting, hok, hnals⟩ := arrive_expected
      ⟨rfl, rfl, h.reached.reassembler, h.reached.buffer, h.reached.slots, h.reached.queue,
        h.reached.count⟩ (fun _ => h.reached.next) hnum hknown horder htrk hnewest
    rw [haccept]
    exact ⟨hresting, hok, hnals⟩
  · have hlater : ∀ j ∈ A, j < i := horder.order.resolve_left hexp
    have hlow : nextExpected A < i := by
      rcases Nat.lt_trichotomy i (nextExpected A) with hlt | heq | hgt
      · exact absurd ((nextExpected_spec A).1 i hlt) hwin.new
      · exact absurd heq hexp
      · exact hgt
    have hsame := nextExpected_append_later hexp
    have hroom : (A.filter (fun j => decide (nextExpected A ≤ j))).length <
        receiveReorderCapacity := by
      have hcap := hwin.capacity
      have hfilter : A.filter (fun j => decide (nextExpected A ≤ j)) =
          A.filter (fun j => decide (nextExpected A < j)) := by
        refine filter_congr ?_
        intro j hj
        have hne : j ≠ nextExpected A := fun heq => (nextExpected_spec A).2 (heq ▸ hj)
        rw [decide_eq_decide]
        omega
      rw [held, hsame, filter_append, filter_singleton, decide_eq_true hlow,
        length_append, ← hfilter] at hcap
      exact hcap
    obtain ⟨s', haccept, hsrc, hreached⟩ := accept_later
      (h.reached.with_source (rtpSourceUpdateEx s.source (headers.getD i .zero) arrival).1)
      hnum hwin.new hlow hwin.window hroom (hknown.fits i hlt)
    have htrk' : Tracked ssrc base (A ++ [i]) newest s'.source := by
      rw [hsrc]
      exact htrk
    have hnone : nalsOf (fedTo f headers memory (nextExpected A)).2 =
        nalsOf (fedTo f headers memory (nextExpected A)).2 ++ nalsOf [.incomplete] :=
      (append_nil _).symm
    rw [haccept]
    obtain ⟨hresting, hok, hnals⟩ := arrived_of_drained hknown.good hnum hreached
      (fun j hj => mem_append_left _ ((nextExpected_spec A).1 j hj))
      (by rintro ⟨⟩) hnone htrk' (by omega) (by
        intro k hle hall
        refine absurd (hall _ le_rfl (by omega)) ?_
        rw [mem_append, mem_singleton, not_or]
        exact ⟨(nextExpected_spec A).2, Ne.symm hexp⟩)
    exact ⟨hresting, hok, hnals⟩

theorem arrive_first {packet : List UInt8} {completes : ℕ → Bool} {receiver : UInt32}
    (arrival : UInt32) (hreceiver : receiver = 0 ∨ receiver = ssrc)
    (hknown : Known f headers base ssrc memory completes) (hlt : 0 < headers.length)
    (hparse : rtpParseHeader packet = some (headers.getD 0 .zero)) :
    Arrived f headers base memory ssrc [] 0
      (pushDrain f (receiveStreamInit receiver) memory (packet, arrival)) := by
  have hexpects := receiveStreamInit_expects hreceiver base
  have hseq : (headers.getD 0 .zero).sequenceNumber = base :=
    (hknown.sequence 0 hlt).trans (UInt16.add_zero base)
  obtain ⟨hok, htrk⟩ := Tracked.begin arrival hexpects
    (hknown.version 0 hlt) (hknown.ssrc_eq 0 hlt) hseq
  have hpush := push_accept f memory hparse (.inl hok)
  have hzero : nextExpected [] = 0 := rfl
  have hnum : Numbered headers base ([] ++ [nextExpected []]) (nextExpected []) := by
    rw [hzero]
    refine ⟨nodup_singleton 0, ?_, ?_, hknown.sequence⟩
    · intro j hj
      rw [mem_singleton.mp hj]
      exact hlt
    · intro j hj
      rw [mem_singleton.mp hj]
      exact Nat.succ_pos _
  have horder : OrderlyArrival completes [] (nextExpected []) := by
    refine ⟨.inl rfl, ?_⟩
    intro _ j k hlow hless hnext
    have hone : nextExpected ([] ++ [nextExpected []]) = 1 := rfl
    omega
  have hreached : Reached f headers base memory [] (nextExpected [])
      { receiveStreamInit receiver with
        source := (rtpSourceUpdateEx (receiveStreamInit receiver).source
          (headers.getD 0 .zero) arrival).1
        hasNextSequenceNumber := true
        nextSequenceNumber := base + UInt16.ofNat (nextExpected []) } memory :=
    ⟨rfl, rfl, rfl, rfl, rfl, .refl _, rfl⟩
  obtain ⟨s1, buffer1, result, haccept, hresting, hok', hnals⟩ := arrive_expected hreached
    (fun hhas => absurd hhas Bool.false_ne_true) hnum hknown horder htrk (Nat.zero_le _)
  rw [hzero] at haccept hresting hnals
  rw [pushDrain]
  rw [hpush, haccept]
  exact ⟨hresting, hok', hnals⟩

end TurboMedia.Rtsp
