import TurboMedia.Rtsp.NalReceiving

/-!
# Transport of NAL units in order

**Input.**  NAL units that the packetizer accepts, written one after the other by one sending
stream, and a fresh receive stream that is given all packets in order.

**Method.**  As long as packets come in order the statistics find nothing wrong and nothing is
held back (`Expects`), so the receive stream pushes what it is given into the reassembler
(`pushAll_feed`).

* `nals_transported_iff`: the transport is lossless if and only if every packet that is needed
  has a length of type `int`.
-/

namespace TurboMedia.Rtsp

open List NalReceiveStream RtpStream VideoCodec

section InOrder

variable {f : VideoFormat} {s : NalReceiveStream} {ssrc : UInt32} {sequence : UInt16}

theorem RtpSource.classify_ahead (source : RtpSource) {d : ℕ} (hpos : 0 < d)
    (hle : d ≤ rtpMaxDropout) :
    source.classify (source.maxSequenceNumber + UInt16.ofNat d) = ({ source with
          cycles :=
            if source.maxSequenceNumber.toNat + d < 0x10000 then source.cycles
            else source.cycles + 0x10000
          maxSequenceNumber := source.maxSequenceNumber + UInt16.ofNat d }.markReceived d,
        .ok) := by
  have hmax : rtpMaxDropout = 3000 := rfl
  have hlt := source.maxSequenceNumber.toNat_lt
  have hsum : (source.maxSequenceNumber + UInt16.ofNat d).toNat =
      (source.maxSequenceNumber.toNat + d) % 65536 := by
    rw [UInt16.toNat_add, UInt16.toNat_ofNat']
    omega
  have hne : source.maxSequenceNumber + UInt16.ofNat d ≠ source.maxSequenceNumber := by
    intro heq
    rw [heq] at hsum
    omega
  rw [RtpSource.classify, if_neg hne]
  by_cases hwrap : source.maxSequenceNumber.toNat + d < 0x10000
  · rw [if_pos hwrap, if_pos (UInt16.lt_iff_toNat_lt.mpr (by omega)), if_neg (by omega)]
    have hdelta : (source.maxSequenceNumber + UInt16.ofNat d).toNat -
        source.maxSequenceNumber.toNat = d := by omega
    rw [hdelta, RtpSource.advance, if_neg (by omega)]
  · rw [if_neg hwrap, if_neg (by rw [gt_iff_lt, UInt16.lt_iff_toNat_lt]; omega),
      if_pos (by omega)]
    have hdelta : 0x10000 - (source.maxSequenceNumber.toNat -
        (source.maxSequenceNumber + UInt16.ofNat d).toNat) = d := by omega
    rw [hdelta, RtpSource.advance, if_neg (by omega)]

/-- The receive stream has taken everything before a sequence number and holds nothing back. -/
structure NalReceiveStream.Expects (s : NalReceiveStream) (ssrc : UInt32) (sequence : UInt16) :
    Prop where
  empty : s.reorder = replicate receiveReorderCapacity none
  started : s.source.initialized = true →
    s.source.ssrc = ssrc ∧ s.source.maxSequenceNumber + 1 = sequence ∧
      s.hasNextSequenceNumber = true ∧ s.nextSequenceNumber = sequence
  fresh : s.source.initialized = false →
    (s.source.hasSsrc = true → s.source.ssrc = ssrc) ∧ s.hasNextSequenceNumber = false

theorem receiveStreamInit_expects {receiver : UInt32} (h : receiver = 0 ∨ receiver = ssrc)
    (sequence : UInt16) :
    (receiveStreamInit receiver).Expects ssrc sequence where
  empty := rfl
  started := by
    intro hinit
    cases hinit
  fresh := by
    intro _
    refine ⟨?_, rfl⟩
    intro hssrc
    exact h.resolve_left (of_decide_eq_true hssrc)

theorem rtpSourceUpdateEx_next {header : RtpHeader} (arrival : UInt32) (h : s.Expects ssrc sequence)
    (hver : header.version = 2) (hssrc : header.ssrc = ssrc)
    (hseq : header.sequenceNumber = sequence) :
    (rtpSourceUpdateEx s.source header arrival).2 = .ok ∧
      (rtpSourceUpdateEx s.source header arrival).1.initialized = true ∧
      (rtpSourceUpdateEx s.source header arrival).1.ssrc = ssrc ∧
      (rtpSourceUpdateEx s.source header arrival).1.maxSequenceNumber = sequence := by
  unfold rtpSourceUpdateEx
  rw [if_neg (not_not.mpr hver)]
  cases hinit : s.source.initialized with
  | false =>
    obtain ⟨hsame, -⟩ := h.fresh hinit
    have hmatch : ¬ (s.source.hasSsrc = true ∧ s.source.ssrc ≠ header.ssrc) := by
      rintro ⟨hhas, hne⟩
      exact hne ((hsame hhas).trans hssrc.symm)
    rw [if_pos rfl, if_neg hmatch]
    exact ⟨rfl, rfl, hssrc, hseq⟩
  | true =>
    obtain ⟨hsame, hmax, -⟩ := h.started hinit
    have hclassify := s.source.classify_ahead Nat.one_pos (by decide)
    rw [if_neg Bool.true_eq_false.mp, if_neg (not_not.mpr (hsame.trans hssrc.symm)), hseq, ← hmax]
    have hone : UInt16.ofNat 1 = 1 := rfl
    rw [hone] at hclassify
    rw [hclassify]
    exact ⟨rfl, hinit, hsame, rfl⟩

theorem reorderFind_empty (h : s.reorder = replicate receiveReorderCapacity none)
    (sequence : UInt16) : s.reorderFind sequence = none := by
  rw [reorderFind, h, findIdx?_eq_none_iff]
  intro slot hslot
  rw [eq_of_mem_replicate hslot]
  rfl

theorem deliverQueued_none (h : s.reorderFind s.nextSequenceNumber = none) (buffer : List UInt8) :
    s.deliverQueued f buffer = none := by
  rw [deliverQueued, h]

theorem drainLoop_done {buffer : List UInt8} (n : ℕ) (result : FrameResult)
    (h : s.deliverQueued f buffer = none) :
    drainLoop f n s buffer result = (s, buffer, result) := by
  cases n with
  | zero => rfl
  | succ n =>
    cases result with
    | error => rfl
    | ok nal => rfl
    | incomplete => rw [drainLoop, h]

theorem settle_error {out : NalReceiveStream × List UInt8 × FrameResult} (h : out.2.2 = .error) :
    NalReceiveStream.settle out = (out.1.reorderReset, out.2) := by
  obtain ⟨s, buffer, result⟩ := out
  obtain rfl : result = .error := h
  rfl

theorem settle_of_ne {out : NalReceiveStream × List UInt8 × FrameResult} (h : out.2.2 ≠ .error) :
    NalReceiveStream.settle out = out := by
  obtain ⟨s, buffer, result⟩ := out
  cases result with
  | error => exact absurd rfl h
  | ok nal => rfl
  | incomplete => rfl

theorem settle_snd (out : NalReceiveStream × List UInt8 × FrameResult) :
    (NalReceiveStream.settle out).2 = out.2 := by
  by_cases h : out.2.2 = .error
  · rw [settle_error h]
  · rw [settle_of_ne h]

/-- A packet that is expected is delivered, and then those that wait for it. -/
theorem accept_deliver {header : RtpHeader} (buffer : List UInt8)
    (hnext : s.hasNextSequenceNumber = true → s.nextSequenceNumber = header.sequenceNumber) :
    s.accept f header buffer =
      NalReceiveStream.settle (drainLoop f receiveReorderCapacity { s with
          reassembler := (reassemblerPush f s.reassembler header buffer).1
          hasNextSequenceNumber := true
          nextSequenceNumber := header.sequenceNumber + 1 }
        (reassemblerPush f s.reassembler header buffer).2.1
        (reassemblerPush f s.reassembler header buffer).2.2) := by
  have hexp : (if s.hasNextSequenceNumber = true then s
      else { s with
        hasNextSequenceNumber := true
        nextSequenceNumber := header.sequenceNumber }) =
      { s with
        hasNextSequenceNumber := true
        nextSequenceNumber := header.sequenceNumber } := by
    split_ifs with hhas
    · rw [← hnext hhas, ← hhas]
    · rfl
  rw [accept, hexp]
  rw [if_pos (UInt16.sub_self _), drain, deliver]

theorem accept_next {header : RtpHeader} (buffer : List UInt8)
    (hempty : s.reorder = replicate receiveReorderCapacity none)
    (hnext : s.hasNextSequenceNumber = true → s.nextSequenceNumber = header.sequenceNumber) :
    s.accept f header buffer = NalReceiveStream.settle ({ s with
          reassembler := (reassemblerPush f s.reassembler header buffer).1
          hasNextSequenceNumber := true
          nextSequenceNumber := header.sequenceNumber + 1 },
        (reassemblerPush f s.reassembler header buffer).2) := by
  rw [accept_deliver buffer hnext]
  refine congrArg NalReceiveStream.settle (drainLoop_done _ _ (deliverQueued_none ?_ _))
  exact reorderFind_empty hempty _

theorem push_next {packet : List UInt8} {header : RtpHeader} (arrival : UInt32)
    (buffer : List UInt8) (h : s.Expects ssrc sequence)
    (hparse : rtpParseHeader packet = some header) (hver : header.version = 2)
    (hssrc : header.ssrc = ssrc) (hseq : header.sequenceNumber = sequence) :
    (s.push f packet arrival buffer).1.2 = (reassemblerPush f s.reassembler header buffer).2 ∧
      ((reassemblerPush f s.reassembler header buffer).2.2 ≠ .error →
        (s.push f packet arrival buffer).1.1.reassembler =
            (reassemblerPush f s.reassembler header buffer).1 ∧
          (s.push f packet arrival buffer).1.1.Expects ssrc (sequence + 1)) := by
  obtain ⟨hok, hinit, hsame, hmax⟩ := rtpSourceUpdateEx_next arrival h hver hssrc hseq
  have hnext : s.hasNextSequenceNumber = true →
      s.nextSequenceNumber = header.sequenceNumber := by
    intro hhas
    cases hstart : s.source.initialized with
    | false =>
      rw [(h.fresh hstart).2] at hhas
      cases hhas
    | true => exact (h.started hstart).2.2.2.trans hseq.symm
  have haccept := accept_next (f := f)
    (s := { s with source := (rtpSourceUpdateEx s.source header arrival).1 }) buffer h.empty hnext
  rw [push, hparse]
  dsimp only
  rw [hok]
  dsimp only [acceptUpdated]
  rw [haccept]
  refine ⟨settle_snd _, ?_⟩
  intro hne
  rw [settle_of_ne hne]
  refine ⟨rfl, h.empty, ?_, ?_⟩
  · intro _
    exact ⟨hsame, hmax ▸ rfl, rfl, hseq ▸ rfl⟩
  · intro hfresh
    rw [hinit] at hfresh
    cases hfresh

end InOrder

section Runs

variable {f : VideoFormat} {s : NalReceiveStream} {ssrc : UInt32} {sequence : UInt16}

/-- Packets pushed one after the other, each with its time of arrival, into one buffer. -/
def NalReceiveStream.pushAll (f : VideoFormat) :
    NalReceiveStream → List UInt8 → List (List UInt8 × UInt32) →
      (NalReceiveStream × List UInt8) × List FrameResult
  | s, buffer, [] => ((s, buffer), [])
  | s, buffer, (packet, arrival) :: rest =>
    let pushed := (s.push f packet arrival buffer).1
    let fed := pushAll f pushed.1 pushed.2.1 rest
    (fed.1, pushed.2.2 :: fed.2)

theorem pushAll_append (s : NalReceiveStream) (buffer : List UInt8)
    (xs ys : List (List UInt8 × UInt32)) :
    s.pushAll f buffer (xs ++ ys) =
      (((s.pushAll f buffer xs).1.1.pushAll f (s.pushAll f buffer xs).1.2 ys).1,
        (s.pushAll f buffer xs).2 ++
          ((s.pushAll f buffer xs).1.1.pushAll f (s.pushAll f buffer xs).1.2 ys).2) := by
  induction xs generalizing s buffer with
  | nil => rfl
  | cons push rest ih =>
    rw [cons_append, pushAll, ih, pushAll]
    rfl

/-- Headers of one source with consecutive sequence numbers. -/
def Consecutive (ssrc : UInt32) : UInt16 → List RtpHeader → Prop
  | _, [] => True
  | sequence, header :: rest =>
    header.version = 2 ∧ header.ssrc = ssrc ∧ header.sequenceNumber = sequence ∧
      Consecutive ssrc (sequence + 1) rest

/-- As long as nothing is wrong, the reassembler is fed with what is pushed. -/
theorem pushAll_feed
    {buffer : List UInt8} {pushes : List (List UInt8 × UInt32)} {headers : List RtpHeader}
    (h : s.Expects ssrc sequence)
    (hparse : List.Forall₂ (fun push header => rtpParseHeader push.1 = some header)
      pushes headers) (hcons : Consecutive ssrc sequence headers)
    (hok : .error ∉ (feed f s.reassembler buffer headers).2 ∨
      .error ∉ (s.pushAll f buffer pushes).2) :
    (s.pushAll f buffer pushes).2 = (feed f s.reassembler buffer headers).2 ∧
      (s.pushAll f buffer pushes).1.2 = (feed f s.reassembler buffer headers).1.2 ∧
      (s.pushAll f buffer pushes).1.1.reassembler = (feed f s.reassembler buffer headers).1.1 ∧
      (s.pushAll f buffer pushes).1.1.Expects ssrc (sequence + UInt16.ofNat headers.length) := by
  induction hparse generalizing s sequence buffer with
  | nil =>
    refine ⟨rfl, rfl, rfl, ?_⟩
    have hzero : sequence + UInt16.ofNat 0 = sequence := UInt16.add_zero sequence
    rw [length_nil, hzero]
    exact h
  | @cons push header pushes headers hpush hrest ih =>
    obtain ⟨hver, hssrc, hseq, hcons⟩ := hcons
    obtain ⟨hsame, hnext⟩ := push_next (f := f) push.2 buffer h hpush hver hssrc hseq
    rw [feed, pushAll] at hok
    rw [hsame, mem_cons, mem_cons, not_or, not_or] at hok
    have hne : (reassemblerPush f s.reassembler header buffer).2.2 ≠ .error := by
      intro heq
      rcases hok with hok | hok <;> exact hok.1 heq.symm
    obtain ⟨hreassembler, hexpects⟩ := hnext hne
    rw [← hreassembler] at hok
    obtain ⟨hresults, hbuf, hlast, hafter⟩ := ih hexpects hcons (hok.imp And.right And.right)
    rw [feed, pushAll]
    rw [hsame, ← hreassembler]
    refine ⟨congrArg _ hresults, hbuf, hlast, ?_⟩
    rw [length_cons, UInt16.ofNat_add]
    rw [UInt16.add_assoc] at hafter
    rw [UInt16.add_comm (UInt16.ofNat headers.length)]
    exact hafter

theorem pushAll_parsed {buffer : List UInt8} {pushes : List (List UInt8 × UInt32)}
    (h : .error ∉ (s.pushAll f buffer pushes).2) :
    ∀ push ∈ pushes, ∃ header, rtpParseHeader push.1 = some header := by
  induction pushes generalizing s buffer with
  | nil =>
    intro push hpush
    cases hpush
  | cons first rest ih =>
    rw [NalReceiveStream.pushAll, mem_cons, not_or] at h
    intro push hpush
    rcases mem_cons.mp hpush with rfl | hmem
    · cases hparse : rtpParseHeader push.1 with
      | none =>
        refine absurd ?_ h.1
        rw [NalReceiveStream.push, hparse]
      | some header => exact ⟨header, rfl⟩
    · exact ih h.2 push hmem

end Runs

section Transport

variable (f : VideoFormat)

/-- Calls of the sending stream one after the other. -/
def writeAll : RtpStream → List NalWrite → RtpStream × List (Option (List (List UInt8)))
  | s, [] => (s, [])
  | s, w :: rest =>
    let written := rtpStreamWriteNalEx f s w
    let all := writeAll written.1 rest
    (all.1, written.2 :: all.2)

/-- The packets of one call: as many as were counted, payloads within the limit, and the marker
of the call on the last one only. -/
structure WrittenAs (w : NalWrite) (packets : List (List UInt8)) : Prop where
  count : packetCount f w.nal w.maxPayload = some packets.length
  packet : ∀ i packet, packets[i]? = some packet → ∃ header,
    rtpParseHeader packet = some header ∧ header.payload.length ≤ w.maxPayload ∧
      header.marker = if (decide (i + 1 = packets.length) && w.marker) = true then 1 else 0

/-- The packets are consecutive from a sequence number on, modulo 2^16. -/
def InSequence (sequence : UInt16) (packets : List (List UInt8)) : Prop :=
  ∀ i packet, packets[i]? = some packet → ∃ header, rtpParseHeader packet = some header ∧
      header.sequenceNumber = sequence + UInt16.ofNat i

/-- NAL units are transported: the calls of the sending stream succeed, and the receive stream
that is given all packets in order yields every NAL unit once, in order and without an error. -/
def Transported (s : RtpStream) (receiver : NalReceiveStream) (buffer : List UInt8)
    (writes : List NalWrite) : Prop :=
  ∃ packets : List (List (List UInt8)), (writeAll f s writes).2 = packets.map some ∧
      List.Forall₂ (WrittenAs f) writes packets ∧
      InSequence s.sequenceNumber packets.flatten ∧
      ∀ pushes : List (List UInt8 × UInt32), pushes.map Prod.fst = packets.flatten →
        nalsOf (receiver.pushAll f buffer pushes).2 = writes.map NalWrite.nal ∧
          .error ∉ (receiver.pushAll f buffer pushes).2

variable {f} {s : RtpStream} {w : NalWrite}

theorem rtpStreamWriteNalEx_refused (f : VideoFormat) {s : RtpStream} {w : NalWrite}
    (h : (rtpStreamWriteNalEx f s w).2 = none) : (rtpStreamWriteNalEx f s w).1 = s := by
  unfold rtpStreamWriteNalEx at h ⊢
  cases hneeded : writeNalNeeded f s w with
  | none => rfl
  | some needed =>
    cases hinit : packetizerInit f w.nal w.maxPayload with
    | none => rfl
    | some packetizer =>
      rw [hneeded, hinit] at h
      dsimp only at h ⊢
      cases hloop : writeNalPackets f w needed packetizer s with
      | none => rfl
      | some written =>
        rw [hloop] at h
        cases h

/-- The packet of every payload has a length of type `int`. -/
def NalWrite.Short (w : NalWrite) : Prop :=
  rtpHeaderSize + min w.nal.length w.maxPayload ≤ packetLenMax

def RtpStream.next (f : VideoFormat) (s : RtpStream) (w : NalWrite) : RtpStream :=
  { s.sentAll (f.payloads w.nal w.maxPayload) with
    timestamp := (s.sentAll (f.payloads w.nal w.maxPayload)).timestamp + w.timestampIncrement }

theorem RtpStream.Ready.next (h : s.Ready) : (s.next f w).Ready :=
  ⟨(h.sentAll _).payloadType, (h.sentAll _).sender⟩

theorem rtpStreamWriteNalEx_ok (hf : f.Lawful) (hready : s.Ready) (h : w.Accepted f)
    (hroom : w.Roomy f) (hshort : w.Short) :
    rtpStreamWriteNalEx f s w = (s.next f w,
        some ((s.headers w.marker (f.payloads w.nal w.maxPayload)).map RtpHeader.packet)) := by
  have hpkt := hroom.packet
  refine rtpStreamWriteNalEx_some hf hready h hroom (writePayloads_ok hready ?_ ?_)
  · intro payload hmem
    have hfit := payloads_fit hf h hmem
    omega
  · intro payload hmem
    have hfit := payloads_fit hf h hmem
    unfold NalWrite.Short at hshort
    omega

variable {sequence : UInt16}

theorem consecutive_append {ssrc : UInt32} {xs ys : List RtpHeader}
    (hxs : Consecutive ssrc sequence xs)
    (hys : Consecutive ssrc (sequence + UInt16.ofNat xs.length) ys) :
    Consecutive ssrc sequence (xs ++ ys) := by
  induction xs generalizing sequence with
  | nil =>
    have hzero : sequence + UInt16.ofNat 0 = sequence := UInt16.add_zero sequence
    rw [length_nil, hzero] at hys
    exact hys
  | cons header rest ih =>
    obtain ⟨hver, hssrc, hseq, hrest⟩ := hxs
    refine ⟨hver, hssrc, hseq, ih hrest ?_⟩
    rw [length_cons, UInt16.ofNat_add, UInt16.add_comm (UInt16.ofNat rest.length),
      ← UInt16.add_assoc] at hys
    exact hys

theorem headers_consecutive (hready : s.Ready) (marker : Bool)
    (payloads : List (List UInt8 × Bool)) :
    Consecutive s.ssrc s.sequenceNumber (s.headers marker payloads) := by
  induction payloads generalizing s with
  | nil => trivial
  | cons payload rest ih => exact ⟨rfl, rfl, rfl, ih (hready.sent payload.1)⟩

theorem headers_writtenAs (hf : f.Lawful) (hready : s.Ready) (h : w.Accepted f) :
    WrittenAs f w ((s.headers w.marker (f.payloads w.nal w.maxPayload)).map RtpHeader.packet) where
  count := by
    rw [packetCount_eq h, length_map, length_headers]
  packet := by
    intro i packet hpkt
    rw [getElem?_map] at hpkt
    obtain ⟨header, hhdr, rfl⟩ := Option.map_eq_some_iff.mp hpkt
    obtain ⟨hplain, -, -, -, last, hload, hmarker⟩ := headers_get hready hhdr
    have hfit := payloads_fit hf h (mem_of_getElem? hload)
    have hlast := payloads_marked f w.nal w.maxPayload hload
    refine ⟨header, rtpParseHeader_packet hplain, hfit.trans (min_le_right _ _), ?_⟩
    rw [length_map, length_headers, ← hlast]
    exact hmarker

/-- The headers of all packets of calls one after the other. -/
def sentHeaders (f : VideoFormat) : RtpStream → List NalWrite → List (List RtpHeader)
  | _, [] => []
  | s, w :: rest =>
    s.headers w.marker (f.payloads w.nal w.maxPayload) :: sentHeaders f (s.next f w) rest

/-- What is asked of every call. -/
structure NalWrite.Served (f : VideoFormat) (bufferSize : ℕ) (w : NalWrite) : Prop where
  initialized : (packetizerInit f w.nal w.maxPayload).isSome = true
  roomy : w.Roomy f
  buffer : w.nal.length ≤ bufferSize

theorem NalWrite.Served.accepted {bufferSize : ℕ} (h : w.Served f bufferSize) : w.Accepted f :=
  packetizerInit_isSome_iff.mp h.initialized

variable {writes : List NalWrite} {bufferSize : ℕ}

instance (f : VideoFormat) (bufferSize : ℕ) (w : NalWrite) : Decidable (w.Served f bufferSize) :=
  decidable_of_iff ((packetizerInit f w.nal w.maxPayload).isSome = true ∧
      (rtpHeaderSize + min w.nal.length w.maxPayload ≤ w.packetSize ∧
        (w.maxPayload < w.nal.length → w.maxPayload ≤ w.payloadScratchSize) ∧
        ∀ n ∈ packetCount f w.nal w.maxPayload,
          n ≤ w.packetCountCapacity ∧ n * w.packetSize ≤ sizeMax) ∧
      w.nal.length ≤ bufferSize)
    ⟨fun h => ⟨h.1, ⟨h.2.1.1, h.2.1.2.1, h.2.1.2.2⟩, h.2.2⟩,
      fun h => ⟨h.initialized, ⟨h.roomy.packet, h.roomy.scratch, h.roomy.packets⟩, h.buffer⟩⟩

theorem writeAll_ok (hf : f.Lawful) (hready : s.Ready) (h : ∀ w ∈ writes, w.Served f bufferSize)
    (hshort : ∀ w ∈ writes, w.Short) :
    (writeAll f s writes).2 =
      ((sentHeaders f s writes).map (List.map RtpHeader.packet)).map some := by
  induction writes generalizing s with
  | nil => rfl
  | cons w rest ih =>
    have hserved := h w mem_cons_self
    rw [writeAll, rtpStreamWriteNalEx_ok hf hready hserved.accepted hserved.roomy
      (hshort w mem_cons_self)]
    exact congrArg _ (ih hready.next (fun v hv => h v (mem_cons_of_mem _ hv))
      (fun v hv => hshort v (mem_cons_of_mem _ hv)))

theorem sentHeaders_writtenAs (hf : f.Lawful) (hready : s.Ready)
    (h : ∀ w ∈ writes, w.Served f bufferSize) :
    List.Forall₂ (WrittenAs f) writes
      ((sentHeaders f s writes).map (List.map RtpHeader.packet)) := by
  induction writes generalizing s with
  | nil => exact .nil
  | cons w rest ih =>
    exact .cons (headers_writtenAs hf hready (h w mem_cons_self).accepted)
      (ih hready.next (fun v hv => h v (mem_cons_of_mem _ hv)))

theorem sentHeaders_consecutive (hready : s.Ready) (writes : List NalWrite) :
    Consecutive s.ssrc s.sequenceNumber (sentHeaders f s writes).flatten := by
  induction writes generalizing s with
  | nil => trivial
  | cons w rest ih =>
    obtain ⟨hssrc, -, hseq⟩ := s.sentAll_fields (f.payloads w.nal w.maxPayload)
    have hrest : Consecutive (s.sentAll (f.payloads w.nal w.maxPayload)).ssrc
        (s.sentAll (f.payloads w.nal w.maxPayload)).sequenceNumber
        (sentHeaders f (s.next f w) rest).flatten :=
      ih hready.next
    rw [hssrc, hseq] at hrest
    rw [sentHeaders, flatten_cons]
    refine consecutive_append (headers_consecutive hready _ _) ?_
    rw [length_headers]
    exact hrest

theorem sentHeaders_plain (hready : s.Ready) (writes : List NalWrite) :
    ∀ header ∈ (sentHeaders f s writes).flatten, header.Plain := by
  induction writes generalizing s with
  | nil =>
    intro header hmem
    cases hmem
  | cons w rest ih =>
    intro header hmem
    rw [sentHeaders, flatten_cons, mem_append] at hmem
    rcases hmem with hmem | hmem
    · obtain ⟨i, hi⟩ := getElem?_of_mem hmem
      exact (headers_get hready hi).1
    · exact ih hready.next header hmem

variable {buffer : List UInt8}

theorem feed_sentHeaders (hf : f.Lawful) (h : ∀ w ∈ writes, w.Served f buffer.length) :
    (feed f .zero buffer (sentHeaders f s writes).flatten).1.1 = .zero ∧
      nalsOf (feed f .zero buffer (sentHeaders f s writes).flatten).2 = writes.map NalWrite.nal ∧
      .error ∉ (feed f .zero buffer (sentHeaders f s writes).flatten).2 := by
  induction writes generalizing s buffer with
  | nil => exact ⟨rfl, rfl, not_mem_nil⟩
  | cons w rest ih =>
    have hserved := h w mem_cons_self
    obtain ⟨buffer', hlen, hfeed⟩ := feed_payloads (s := s) hf hserved.accepted hserved.buffer
    obtain ⟨hzero, hnals, herr⟩ := ih (s := s.next f w)
      (fun v hv => hlen ▸ h v (mem_cons_of_mem _ hv))
    rw [sentHeaders, flatten_cons, feed_append, hfeed]
    refine ⟨hzero, ?_, ?_⟩
    · rw [nalsOf_append, nalsOf_append, nalsOf_incomplete, hnals]
      rfl
    · rw [mem_append, mem_append, mem_singleton]
      rintro ((hmem | hmem) | hmem)
      · cases eq_of_mem_replicate hmem
      · cases hmem
      · exact herr hmem

theorem consecutive_get {ssrc : UInt32} {headers : List RtpHeader} {i : ℕ} {header : RtpHeader}
    (h : Consecutive ssrc sequence headers) (hget : headers[i]? = some header) :
    header.version = 2 ∧ header.ssrc = ssrc ∧
      header.sequenceNumber = sequence + UInt16.ofNat i := by
  induction headers generalizing sequence i with
  | nil => cases hget
  | cons first rest ih =>
    obtain ⟨hver, hssrc, hseq, hrest⟩ := h
    cases i with
    | zero =>
      obtain rfl := Option.some.inj hget
      exact ⟨hver, hssrc, hseq.trans (UInt16.add_zero _).symm⟩
    | succ i =>
      obtain ⟨hver', hssrc', hseq'⟩ := ih hrest hget
      refine ⟨hver', hssrc', hseq'.trans ?_⟩
      rw [UInt16.ofNat_add, UInt16.add_assoc, UInt16.add_comm 1]
      rfl

theorem pushes_parsed {headers : List RtpHeader} {pushes : List (List UInt8 × UInt32)}
    (hplain : ∀ header ∈ headers, header.Plain)
    (h : pushes.map Prod.fst = headers.map RtpHeader.packet) :
    List.Forall₂ (fun push header => rtpParseHeader push.1 = some header) pushes headers := by
  induction headers generalizing pushes with
  | nil =>
    rw [map_nil, map_eq_nil_iff] at h
    rw [h]
    exact .nil
  | cons header rest ih =>
    obtain ⟨push, pushes, rfl, hpush, hpushes⟩ := map_eq_cons_iff.mp h
    refine .cons ?_ (ih (fun q hq => hplain q (mem_cons_of_mem _ hq)) hpushes)
    rw [hpush]
    exact rtpParseHeader_packet (hplain header mem_cons_self)

variable {receiver : NalReceiveStream}

theorem transported_of_short (hf : f.Lawful)
    (hready : s.Ready) (hexpects : receiver.Expects s.ssrc s.sequenceNumber)
    (hzero : receiver.reassembler = .zero) (h : ∀ w ∈ writes, w.Served f buffer.length)
    (hshort : ∀ w ∈ writes, w.Short) : Transported f s receiver buffer writes := by
  have hcons := sentHeaders_consecutive (f := f) hready writes
  have hplain := sentHeaders_plain (f := f) hready writes
  have hflatten : ((sentHeaders f s writes).map (List.map RtpHeader.packet)).flatten =
      (sentHeaders f s writes).flatten.map RtpHeader.packet :=
    map_flatten.symm
  refine ⟨_, writeAll_ok hf hready h hshort, sentHeaders_writtenAs hf hready h, ?_, ?_⟩
  · intro i packet hpkt
    rw [hflatten, getElem?_map] at hpkt
    obtain ⟨header, hhdr, rfl⟩ := Option.map_eq_some_iff.mp hpkt
    exact ⟨header, rtpParseHeader_packet (hplain header (mem_of_getElem? hhdr)),
      (consecutive_get hcons hhdr).2.2⟩
  · intro pushes hpushes
    rw [hflatten] at hpushes
    obtain ⟨-, hnals, herr⟩ := feed_sentHeaders (s := s) hf h
    rw [← hzero] at hnals herr
    obtain ⟨hresults, -⟩ := pushAll_feed hexpects (pushes_parsed hplain hpushes) hcons (.inl herr)
    rw [hresults]
    exact ⟨hnals, herr⟩

/-- A packet that lost its end and is still read is read with a part of its payload. -/
theorem CutPacket.parsed {header header' : RtpHeader} {packet : List UInt8} (hplain : header.Plain)
    (h : CutPacket header packet) (hparse : rtpParseHeader packet = some header') :
    header' = { header with payload := header'.payload } ∧
      ∀ last, CutPayload (header.payload, last) header' := by
  have hsize : rtpHeaderSize = 12 := rfl
  have hbytes := header.length_bytes
  have hlong : rtpHeaderSize ≤ packet.length := by
    by_contra hshort
    rw [rtpParseHeader, if_pos (Nat.lt_of_not_le hshort)] at hparse
    cases hparse
  obtain ⟨k, hk⟩ := h.part
  have hkeep : rtpHeaderSize ≤ k := by
    rw [hk] at hlong
    exact hlong.trans (length_take_le k _)
  have hpkt : packet = header.bytes ++ header.payload.take (k - rtpHeaderSize) := by
    rw [hk, RtpHeader.packet, take_append, take_of_length_le (by omega), hbytes]
  rw [hpkt, rtpParseHeader_bytes hplain] at hparse
  obtain rfl := Option.some.inj hparse
  refine ⟨rfl, fun last => ⟨⟨_, rfl⟩, ?_⟩⟩
  intro hbig
  have hshort := h.short
  rw [header.length_packet, hpkt, length_append, hbytes] at hshort
  have := hshort hbig
  dsimp only
  omega

theorem cutHeaders
    {marker : Bool} {payloads : List (List UInt8 × Bool)} {packets : List (List UInt8)}
    (hready : s.Ready) (hcut : List.Forall₂ CutPacket (s.headers marker payloads) packets)
    (hparse : ∀ packet ∈ packets, ∃ header, rtpParseHeader packet = some header) :
    ∃ headers, List.Forall₂ (fun push header => rtpParseHeader push.1 = some header)
        (packets.map (fun packet => (packet, (0 : UInt32)))) headers ∧
      List.Forall₂ CutPayload payloads headers ∧ Consecutive s.ssrc s.sequenceNumber headers := by
  induction payloads generalizing s packets with
  | nil =>
    cases hcut
    exact ⟨[], .nil, .nil, trivial⟩
  | cons payload rest ih =>
    rw [headers] at hcut
    cases hcut with
    | @cons _ packet _ packets hfirst hrest =>
      obtain ⟨header, hhdr⟩ := hparse packet mem_cons_self
      obtain ⟨headers, hparsed, hcut, hcons⟩ := ih (hready.sent payload.1) hrest
        (fun q hq => hparse q (mem_cons_of_mem _ hq))
      have hplain : (s.header (payload.2 && marker) payload.1).Plain :=
        header_plain hready.payloadType
      obtain ⟨heq, hpart⟩ := hfirst.parsed hplain hhdr
      refine ⟨header :: headers, .cons hhdr hparsed, .cons (hpart payload.2) hcut, ?_⟩
      rw [heq]
      exact ⟨rfl, rfl, rfl, hcons⟩

theorem bytesOf_ge {results : List FrameResult} {nal : List UInt8} {nals rest : List (List UInt8)}
    (hne : nalsOf results ≠ []) (h : nalsOf results ++ rest = nal :: nals) :
    nal.length ≤ bytesOf results := by
  cases hresults : nalsOf results with
  | nil => exact absurd hresults hne
  | cons first others =>
    rw [hresults, cons_append, cons.injEq] at h
    rw [bytesOf, hresults, map_cons, sum_cons, h.1]
    omega

theorem zero_arrivals (packets : List (List UInt8)) :
    (packets.map (fun packet => (packet, (0 : UInt32)))).map Prod.fst = packets := by
  rw [map_map]
  exact map_id packets

/-- The first of several NAL units that are transported has short packets. -/
theorem short_of_first {packets : List (List UInt8)}
    {rest : List (List UInt8 × UInt32)} {nals : List (List UInt8)} (hf : f.Lawful)
    (hready : s.Ready) (hexpects : receiver.Expects s.ssrc s.sequenceNumber)
    (hzero : receiver.reassembler = .zero) (h : w.Served f buffer.length)
    (hwrite : (rtpStreamWriteNalEx f s w).2 = some packets)
    (hnals : nalsOf (receiver.pushAll f buffer
      (packets.map (fun packet => (packet, (0 : UInt32))) ++ rest)).2 = w.nal :: nals)
    (herr : .error ∉ (receiver.pushAll f buffer
      (packets.map (fun packet => (packet, (0 : UInt32))) ++ rest)).2) : w.Short := by
  by_contra hbad
  have hbig : packetLenMax < rtpHeaderSize + min w.nal.length w.maxPayload :=
    Nat.lt_of_not_le hbad
  have hroom := h.roomy.packet
  have hcut : List.Forall₂ CutPacket
      (s.headers w.marker (f.payloads w.nal w.maxPayload)) packets := by
    cases hpayloads : writePayloads w.packetSize w.marker (f.payloads w.nal w.maxPayload) s with
    | none =>
      rw [rtpStreamWriteNalEx_none hf hready h.accepted h.roomy hpayloads] at hwrite
      cases hwrite
    | some written =>
      rw [rtpStreamWriteNalEx_some hf hready h.accepted h.roomy hpayloads] at hwrite
      obtain rfl := Option.some.inj hwrite
      refine writePayloads_cut hready ?_ hpayloads
      intro payload hmem
      have hfit := payloads_fit hf h.accepted hmem
      omega
  rw [pushAll_append] at hnals herr
  rw [mem_append, not_or] at herr
  have hparsed : ∀ packet ∈ packets, ∃ header, rtpParseHeader packet = some header := by
    intro packet hmem
    exact pushAll_parsed herr.1 (packet, 0) (mem_map_of_mem hmem)
  obtain ⟨headers, hheaders, hpayloads, hcons⟩ := cutHeaders hready hcut hparsed
  obtain ⟨hresults, -⟩ := pushAll_feed hexpects hheaders hcons (.inr herr.1)
  obtain ⟨front, result, hfront, hres⟩ := feed_cut receiver.reassembler buffer hf h.accepted
    hpayloads
  have hbytes := feed_bytes hf receiver.reassembler buffer headers
  have hless := cut_payloads_lt hf h.accepted hbig hpayloads
  rw [hresults] at hnals herr
  rw [nalsOf_append] at hnals
  have hne : nalsOf (feed f receiver.reassembler buffer headers).2 ≠ [] := by
    rw [hfront, mem_append, mem_singleton, not_or] at herr
    rw [hfront, nalsOf_append]
    cases result with
    | error => exact absurd rfl herr.1.2
    | ok nal => exact append_ne_nil_of_right_ne_nil _ (cons_ne_nil _ _)
    | incomplete => exact absurd rfl hres
  have hge := bytesOf_ge hne hnals
  rw [hzero] at hbytes hge
  have hnone : NalReassembler.zero.nalLen = 0 := rfl
  omega

theorem pushAll_first {pushes : List (List UInt8 × UInt32)}
    (hf : f.Lawful) (hready : s.Ready) (hexpects : receiver.Expects s.ssrc s.sequenceNumber)
    (hzero : receiver.reassembler = .zero) (h : w.Served f buffer.length)
    (hpushes : pushes.map Prod.fst =
      (s.headers w.marker (f.payloads w.nal w.maxPayload)).map RtpHeader.packet) :
    (receiver.pushAll f buffer pushes).1.1.Expects (s.next f w).ssrc (s.next f w).sequenceNumber ∧
      (receiver.pushAll f buffer pushes).1.1.reassembler = .zero ∧
      (receiver.pushAll f buffer pushes).1.2.length = buffer.length ∧
      nalsOf (receiver.pushAll f buffer pushes).2 = [w.nal] := by
  have hplain : ∀ header ∈ s.headers w.marker (f.payloads w.nal w.maxPayload),
      header.Plain := by
    intro header hmem
    obtain ⟨i, hi⟩ := getElem?_of_mem hmem
    exact (headers_get hready hi).1
  obtain ⟨buffer', hlen, hfeed⟩ := feed_payloads (s := s) hf h.accepted h.buffer
  rw [← hzero] at hfeed
  have herr : .error ∉ (feed f receiver.reassembler buffer
      (s.headers w.marker (f.payloads w.nal w.maxPayload))).2 := by
    rw [hfeed, mem_append, mem_singleton]
    rintro (hmem | hmem)
    · cases eq_of_mem_replicate hmem
    · cases hmem
  obtain ⟨hresults, hbuf, hlast, hafter⟩ := pushAll_feed hexpects
    (pushes_parsed hplain hpushes) (headers_consecutive hready _ _) (.inl herr)
  obtain ⟨hssrc, -, hnumber⟩ := s.sentAll_fields (f.payloads w.nal w.maxPayload)
  rw [length_headers, ← hnumber, ← hssrc] at hafter
  refine ⟨hafter, ?_, ?_, ?_⟩
  · rw [hlast, hfeed, hzero]
  · rw [hbuf, hfeed, hlen]
  · rw [hresults, hfeed, nalsOf_append, nalsOf_incomplete]
    rfl

theorem inSequence_right {xs ys : List (List UInt8)}
    (h : InSequence sequence (xs ++ ys)) : InSequence (sequence + UInt16.ofNat xs.length) ys := by
  intro i packet hpkt
  have hget : (xs ++ ys)[xs.length + i]? = some packet := by
    rw [getElem?_append_right (Nat.le_add_right _ _), Nat.add_sub_cancel_left]
    exact hpkt
  obtain ⟨header, hparse, hseq⟩ := h _ _ hget
  refine ⟨header, hparse, hseq.trans ?_⟩
  rw [UInt16.ofNat_add, UInt16.add_assoc]

/-- A NAL unit whose packets have no length of type `int` is not transported. -/
theorem short_of_transported (hf : f.Lawful)
    (hready : s.Ready) (hexpects : receiver.Expects s.ssrc s.sequenceNumber)
    (hzero : receiver.reassembler = .zero) (h : ∀ w ∈ writes, w.Served f buffer.length)
    (htransported : Transported f s receiver buffer writes) : ∀ w ∈ writes, w.Short := by
  induction writes generalizing s receiver buffer with
  | nil =>
    intro w hmem
    cases hmem
  | cons w rest ih =>
    have hserved := h w mem_cons_self
    obtain ⟨packets, hwrite, hwritten, hseq, hpushes⟩ := htransported
    rw [writeAll] at hwrite
    obtain ⟨first, others, rfl, hfirst, hothers⟩ := map_eq_cons_iff.mp hwrite.symm
    rw [flatten_cons] at hpushes hseq
    have hall := hpushes ((first ++ others.flatten).map (fun packet => (packet, 0)))
      (zero_arrivals _)
    rw [map_append] at hall
    have hshort : w.Short := short_of_first hf hready hexpects hzero hserved hfirst.symm hall.1
      hall.2
    have hok := rtpStreamWriteNalEx_ok hf hready hserved.accepted hserved.roomy hshort
    rw [hok] at hfirst hothers
    obtain rfl := Option.some.inj hfirst
    obtain ⟨hexpects', hzero', hlen, hnals⟩ := pushAll_first hf hready hexpects hzero hserved
      (zero_arrivals _)
    intro v hmem
    rcases mem_cons.mp hmem with rfl | hmem
    · exact hshort
    refine ih hready.next hexpects' hzero' (fun v hv => hlen ▸ h v (mem_cons_of_mem _ hv)) ?_ v hmem
    refine ⟨others, hothers.symm, (forall₂_cons.mp hwritten).2, ?_, ?_⟩
    · have hright := inSequence_right hseq
      obtain ⟨-, -, hnumber⟩ := s.sentAll_fields (f.payloads w.nal w.maxPayload)
      rw [length_map, length_headers, ← hnumber] at hright
      exact hright
    · intro pushes hmap
      have hboth := hpushes (_ ++ pushes) (by rw [map_append, zero_arrivals, hmap])
      rw [pushAll_append] at hboth
      obtain ⟨hnals', herr⟩ := hboth
      rw [nalsOf_append, hnals, singleton_append, map_cons, cons.injEq] at hnals'
      rw [mem_append, not_or] at herr
      exact ⟨hnals'.2, herr.2⟩

end Transport

/-- **NAL units are transported without loss, as long as the packets have lengths of type
`int`.**  A call that fails leaves the sending stream as it was. -/
theorem nals_transported_iff (codec : VideoCodec) (payloadType : UInt8)
    (ssrc timestamp clockRate receiver : UInt32) (sequenceNumber : UInt16) (buffer : List UInt8)
    (writes : List NalWrite) (hpayloadType : payloadType ≤ 127)
    (hreceiver : receiver = 0 ∨ receiver = ssrc)
    (h : ∀ w ∈ writes, w.Served codec.format buffer.length) :
    (∀ (s : RtpStream) (w : NalWrite), (rtpStreamWriteNalEx codec.format s w).2 = none →
        (rtpStreamWriteNalEx codec.format s w).1 = s) ∧ (Transported codec.format
          (rtpStreamInit payloadType ssrc sequenceNumber timestamp clockRate)
          (receiveStreamInit receiver) buffer writes ↔ ∀ w ∈ writes, w.Short) := by
  have hready : (rtpStreamInit payloadType ssrc sequenceNumber timestamp clockRate).Ready :=
    rtpStreamInit_ready hpayloadType
  have hexpects := receiveStreamInit_expects hreceiver sequenceNumber
  refine ⟨fun s w => rtpStreamWriteNalEx_refused codec.format, ?_, ?_⟩
  · exact short_of_transported codec.lawful hready hexpects rfl h
  · exact transported_of_short codec.lawful hready hexpects rfl h

/-- The two fragments of a NAL unit. -/
theorem nals_transported_fragments :
    Transported h264Format (rtpStreamInit 96 7 65535 1000 90000) (receiveStreamInit 7)
      [0, 0, 0, 0, 0] [⟨[0x65, 1, 2, 3, 4], true, 3000, 4, 16, 4, 2⟩] := by
  refine (nals_transported_iff .h264 96 7 1000 90000 7 65535 [0, 0, 0, 0, 0]
    [⟨[0x65, 1, 2, 3, 4], true, 3000, 4, 16, 4, 2⟩] (by decide) (.inr rfl) (by decide)).2.mpr ?_
  intro w hmem
  obtain rfl := mem_singleton.mp hmem
  exact (by decide : 16 ≤ packetLenMax)

def hugeNal : List UInt8 :=
  0x65 :: replicate 2147483647 0

theorem length_hugeNal :
    hugeNal.length = 2147483648 := by
  rw [hugeNal, length_cons, length_replicate]

/-- It is accepted, and the call that writes it into one packet fails. -/
theorem hugeNal_not_transported :
    (∀ w ∈ [(⟨hugeNal, true, 3000, 2147483648, 2147483660, 0, 1⟩ : NalWrite)],
        w.Served h264.format (replicate 2147483648 (0 : UInt8)).length) ∧
      ¬ Transported h264.format (rtpStreamInit 96 7 0 0 90000) (receiveStreamInit 0)
        (replicate 2147483648 0) [⟨hugeNal, true, 3000, 2147483648, 2147483660, 0, 1⟩] := by
  have haccepted : (⟨hugeNal, true, 3000, 2147483648, 2147483660, 0, 1⟩ : NalWrite).Accepted
      h264.format := by
    refine ⟨h264_accepts_iff.mpr ⟨cons_ne_nil _ _, ?_, ?_⟩, by decide, ?_⟩
    · exact (by decide : (0x65 : UInt8) >>> 7 = 0)
    · exact (by decide : h264IsSingleNalType (h264NalType 0x65) = true)
    · dsimp only
      rw [length_hugeNal]
      omega
  have hpayloads : h264.format.payloads hugeNal 2147483648 = [(hugeNal, true)] :=
    if_pos length_hugeNal.le
  have hserved : ∀ w ∈ [(⟨hugeNal, true, 3000, 2147483648, 2147483660, 0, 1⟩ : NalWrite)],
      w.Served h264.format (replicate 2147483648 (0 : UInt8)).length := by
    intro w hmem
    obtain rfl := mem_singleton.mp hmem
    refine ⟨packetizerInit_isSome_iff.mpr haccepted, ⟨?_, ?_, ?_⟩, ?_⟩
    · dsimp only
      rw [length_hugeNal]
      decide
    · dsimp only
      rw [length_hugeNal]
      omega
    · intro n hn
      rw [packetCount_eq haccepted, hpayloads] at hn
      obtain rfl := Option.some.inj hn
      decide
    · dsimp only
      rw [length_hugeNal, length_replicate]
  refine ⟨hserved, ?_⟩
  intro htransported
  have hshort := short_of_transported h264.lawful
    (rtpStreamInit_ready (by decide)) (receiveStreamInit_expects (.inl rfl) 0) rfl hserved
    htransported _ (mem_singleton.mpr rfl)
  unfold NalWrite.Short at hshort
  dsimp only at hshort
  rw [length_hugeNal] at hshort
  exact absurd hshort (by decide)

end TurboMedia.Rtsp
