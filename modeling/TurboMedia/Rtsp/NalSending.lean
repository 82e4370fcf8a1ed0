import TurboMedia.Lib.Cut
import TurboMedia.Rtsp.NalFragments
import TurboMedia.Rtsp.NalStream

/-!
# What a sending stream writes for a NAL unit

**Input.**  A NAL unit that the packetizer accepts, and memory for its packets.

**Method.**  The payloads are described without the packetizer: the NAL unit itself, or its
data cut into pieces behind fragment headers (`VideoFormat.payloads`).  The loop over the needed
packets writes these payloads (`writeNalPackets_eq`), each behind the header of the stream
(`RtpStream.headers`).

* `rtpStreamWriteNalEx_ok`: payloads whose packets have a length of type `int` are written
  whole, and the number of packets is the number that was counted beforehand.
* `rtpStreamWriteNalEx_cut`: otherwise a packet that is written is a part of the packet that
  was meant.
-/

namespace TurboMedia.Rtsp

open List VideoFormat Option

section Headers

variable {s : RtpStream} {marker : Bool}

/-- A stream that can send: an ordinary payload type, and its own source in the counters. -/
structure RtpStream.Ready (s : RtpStream) : Prop where
  payloadType : s.payloadType ≤ 127
  sender : s.sender.hasSsrc = true → s.sender.ssrc = s.ssrc

def RtpStream.sent (s : RtpStream) (payload : List UInt8) : RtpStream :=
  { s with
    sender :=
      ⟨if s.sender.hasSsrc then s.sender.ssrc else s.ssrc, s.sender.packetCount + 1,
        s.sender.octetCount + UInt32.ofNat payload.length, true⟩
    sequenceNumber := s.sequenceNumber + 1 }

theorem RtpStream.Ready.sent (h : s.Ready) (payload : List UInt8) :
    (s.sent payload).Ready where
  payloadType := h.payloadType
  sender := by
    intro _
    change (if s.sender.hasSsrc then s.sender.ssrc else s.ssrc) = s.ssrc
    split_ifs with hssrc
    · exact h.sender hssrc
    · rfl

theorem rtpStreamInit_ready
    {payloadType : UInt8} {ssrc timestamp clockRate : UInt32} {sequenceNumber : UInt16}
    (h : payloadType ≤ 127) :
    (rtpStreamInit payloadType ssrc sequenceNumber timestamp clockRate).Ready where
  payloadType := h
  sender := by
    intro _
    rfl

theorem rtpSenderUpdate_ready (h : s.Ready) (payload : List UInt8) :
    rtpSenderUpdate s.sender (s.header marker payload) = some (s.sent payload).sender := by
  have hsame : ¬ (s.sender.hasSsrc = true ∧ s.sender.ssrc ≠ s.ssrc) := by
    rintro ⟨hssrc, hne⟩
    exact hne (h.sender hssrc)
  exact (if_neg (not_not.mpr rfl)).trans (if_neg hsame)

def RtpHeader.packet (header : RtpHeader) : List UInt8 :=
  header.bytes ++ header.payload

theorem RtpHeader.length_packet (header : RtpHeader) :
    header.packet.length = rtpHeaderSize + header.payload.length := by
  rw [RtpHeader.packet, length_append, RtpHeader.length_bytes]

theorem rtpParseHeader_packet {header : RtpHeader} (h : header.Plain) :
    rtpParseHeader header.packet = some header :=
  rtpParseHeader_bytes h header.payload

/-- The headers for payloads that are sent one after the other; the marker of the call stands
at the payloads that are marked. -/
def RtpStream.headers (marker : Bool) : RtpStream → List (List UInt8 × Bool) → List RtpHeader
  | _, [] => []
  | s, (payload, last) :: rest =>
    s.header (last && marker) payload :: headers marker (s.sent payload) rest

def RtpStream.sentAll : RtpStream → List (List UInt8 × Bool) → RtpStream
  | s, [] => s
  | s, (payload, _) :: rest => sentAll (s.sent payload) rest

@[simp] theorem RtpStream.length_headers (marker : Bool) (s : RtpStream)
    (payloads : List (List UInt8 × Bool)) :
    (s.headers marker payloads).length = payloads.length := by
  induction payloads generalizing s with
  | nil => rfl
  | cons p rest ih => exact congrArg (· + 1) (ih (s.sent p.1))

theorem RtpStream.Ready.sentAll (h : s.Ready) (payloads : List (List UInt8 × Bool)) :
    (s.sentAll payloads).Ready := by
  induction payloads generalizing s with
  | nil => exact h
  | cons p rest ih => exact ih (h.sent p.1)

theorem RtpStream.sentAll_fields (s : RtpStream) (payloads : List (List UInt8 × Bool)) :
    (s.sentAll payloads).ssrc = s.ssrc ∧ (s.sentAll payloads).timestamp = s.timestamp ∧
      (s.sentAll payloads).sequenceNumber = s.sequenceNumber + UInt16.ofNat payloads.length := by
  induction payloads generalizing s with
  | nil => exact ⟨rfl, rfl, (UInt16.add_zero _).symm⟩
  | cons p rest ih =>
    obtain ⟨hssrc, hts, hseq⟩ := ih (s.sent p.1)
    refine ⟨hssrc, hts, hseq.trans ?_⟩
    have hsent : (s.sent p.1).sequenceNumber = s.sequenceNumber + 1 := rfl
    rw [hsent, length_cons, UInt16.ofNat_add, UInt16.add_assoc, UInt16.add_comm 1]
    rfl

end Headers

section Writing

variable {packetSize : ℕ} {header : RtpHeader}

/-- The largest packet length that is a value of type `int`. -/
def packetLenMax : ℕ := 2147483647

/-- A packet whose length is not a value of type `int` is refused or loses its end. -/
structure CutPacket (header : RtpHeader) (packet : List UInt8) : Prop where
  part : ∃ k, packet = header.packet.take k
  whole : header.packet.length ≤ packetLenMax → packet = header.packet
  short : packetLenMax < header.packet.length → packet.length + 4294967296 ≤ header.packet.length

theorem intSum_cases {headerLen payloadLen : ℕ} (h : packetLenMax < headerLen + payloadLen) :
    intSum headerLen payloadLen < 0 ∨
      (intSum headerLen payloadLen).toNat + 4294967296 ≤ headerLen + payloadLen := by
  have hmax : packetLenMax = 2147483647 := rfl
  have hlt : intSum headerLen payloadLen < (((4294967296 : ℕ) : ℤ) + 1) / 2 :=
    Int.bmod_lt (by omega)
  obtain ⟨c, hc⟩ : ((4294967296 : ℕ) : ℤ) ∣
      intSum headerLen payloadLen - ((headerLen + payloadLen : ℕ) : ℤ) :=
    Int.dvd_bmod_sub_self
  omega

theorem rtpWritePacket_cut {packet : List UInt8} (h : header.Plain)
    (hsize : rtpHeaderSize + header.payload.length ≤ packetSize)
    (hwrite : rtpWritePacket packetSize header header.payload = some packet) :
    CutPacket header packet := by
  have hlen := header.length_packet
  have hbytes := header.length_bytes
  rw [rtpWritePacket, if_neg (by rw [h.padding]; decide), rtpWriteHeader_plain h (by omega)]
    at hwrite
  dsimp only at hwrite
  rw [if_neg (by omega), hbytes] at hwrite
  split_ifs at hwrite with hneg
  have hpkt : packet = header.packet.take (intSum rtpHeaderSize header.payload.length).toNat :=
    (some.inj hwrite).symm
  refine ⟨⟨_, hpkt⟩, ?_, ?_⟩
  · intro hle
    have hmax : packetLenMax = 2147483647 := rfl
    rw [hpkt, take_of_length_le]
    rw [intSum_eq (by omega)]
    omega
  · intro hlt
    have hcases := intSum_cases (by omega : packetLenMax < rtpHeaderSize + header.payload.length)
    rw [hpkt, length_take]
    omega

end Writing

variable (f : VideoFormat) {w : NalWrite} {s : RtpStream}

/-- The payloads for the pieces of a NAL unit's data. -/
def VideoFormat.fragments (nal : List UInt8) : Bool → List (List UInt8) →
    List (List UInt8 × Bool)
  | _, [] => []
  | fuStart, piece :: rest =>
    (f.fuHeader nal fuStart rest.isEmpty ++ piece, rest.isEmpty) :: fragments nal false rest

/-- The pieces in which the data of a NAL unit is sent. -/
def VideoFormat.pieces (nal : List UInt8) (maxPayload : ℕ) : List (List UInt8) :=
  let m := maxPayload - f.fuHeaderSize
  Cut.cut m ((nal.length - f.headerSize + m - 1) / m) (nal.drop f.headerSize)

/-- The payloads that are sent for a NAL unit, and which one is the last. -/
def VideoFormat.payloads (nal : List UInt8) (maxPayload : ℕ) : List (List UInt8 × Bool) :=
  if nal.length ≤ maxPayload then [(nal, true)]
  else f.fragments nal true (f.pieces nal maxPayload)

/-- The loop of the sender over payloads that are known. -/
def writePayloads (packetSize : ℕ) (marker : Bool) :
    List (List UInt8 × Bool) → RtpStream → Option (RtpStream × List (List UInt8))
  | [], s => some (s, [])
  | (payload, last) :: rest, s =>
    (rtpWritePacket packetSize (s.header (last && marker) payload) payload).bind (fun packet =>
        (writePayloads packetSize marker rest (s.sent payload)).map
          (fun written => (written.1, packet :: written.2)))

@[simp] theorem VideoFormat.length_fragments (nal : List UInt8) (fuStart : Bool)
    (pieces : List (List UInt8)) : (f.fragments nal fuStart pieces).length = pieces.length := by
  induction pieces generalizing fuStart with
  | nil => rfl
  | cons piece rest ih => exact congrArg (· + 1) (ih false)

theorem writeNalPackets_succ {n : ℕ} {p p' : NalPacketizer} {payload : List UInt8} {last : Bool}
    (hready : s.Ready)
    (hnext : packetizerNext f p w.payloadScratchSize = (p', .payload payload last)) :
    writeNalPackets f w (n + 1) p s =
      (rtpWritePacket w.packetSize (s.header (last && w.marker) payload) payload).bind
        (fun packet =>
          (writeNalPackets f w n p' (s.sent payload)).map
            (fun written => (written.1, packet :: written.2))) := by
  rw [writeNalPackets, hnext]
  dsimp only
  rw [rtpSenderUpdate_ready hready]
  cases hpkt : rtpWritePacket w.packetSize (s.header (last && w.marker) payload) payload with
  | none => rfl
  | some packet =>
    dsimp only
    have hsent : { s with
        sender := (s.sent payload).sender
        sequenceNumber := s.sequenceNumber + 1 } = s.sent payload := rfl
    rw [hsent, bind_some]
    cases writeNalPackets f w n p' (s.sent payload) with
    | none => rfl
    | some written => rfl

theorem packetizerNext_fragment {nal : List UInt8} {maxPayload offset size : ℕ}
    (hlow : f.headerSize ≤ offset) (hhigh : offset < nal.length)
    (hmax : f.headerSize + 2 ≤ maxPayload) (hsize : maxPayload ≤ size) :
    packetizerNext f ⟨nal, maxPayload, offset, false, false⟩ size =
      let data := nal.drop offset
      let m := maxPayload - f.fuHeaderSize
      let last := decide (data.length ≤ m)
      (⟨nal, maxPayload, offset + min data.length m, false, last⟩,
        .payload (f.fuHeader nal (decide (offset = f.headerSize)) last ++ data.take m) last) := by
  have hfu : f.fuHeaderSize = f.headerSize + 1 := rfl
  have hdata : (nal.drop offset).length = nal.length - offset := length_drop
  have hlast : decide (min (nal.length - offset) (maxPayload - f.fuHeaderSize) =
      nal.length - offset) = decide (nal.length - offset ≤ maxPayload - f.fuHeaderSize) := by
    rw [decide_eq_decide]
    omega
  have htake : (nal.drop offset).take (min (nal.length - offset) (maxPayload - f.fuHeaderSize)) =
      (nal.drop offset).take (maxPayload - f.fuHeaderSize) := by
    rw [← hdata, Nat.min_comm]
    exact take_eq_take_min.symm
  rw [packetizerNext]
  dsimp only
  rw [if_neg Bool.false_ne_true, if_neg (by omega), if_neg Bool.false_ne_true,
    if_neg (by omega), if_neg (by omega), hlast, htake, hdata]

/-- The loop of the sender sends the pieces of a NAL unit that is fragmented. -/
theorem writeNalPackets_fragments {n m offset : ℕ} (hm : w.maxPayload - f.fuHeaderSize = m)
    (hready : s.Ready) (hlow : f.headerSize ≤ offset) (hmax : f.headerSize + 2 ≤ w.maxPayload)
    (hsize : w.maxPayload ≤ w.payloadScratchSize)
    (hall : (w.nal.drop offset).length ≤ m * (n + 1)) (hlast : m * n < (w.nal.drop offset).length) :
    writeNalPackets f w (n + 1) ⟨w.nal, w.maxPayload, offset, false, false⟩ s =
      writePayloads w.packetSize w.marker (f.fragments w.nal (decide (offset = f.headerSize))
          (Cut.cut m (n + 1) (w.nal.drop offset))) s := by
  have hfu : f.fuHeaderSize = f.headerSize + 1 := rfl
  have hpos : 0 < m := by omega
  have hhigh : offset < w.nal.length := by
    rw [length_drop] at hlast
    omega
  induction n generalizing s offset with
  | zero =>
    have hone : (w.nal.drop offset).length ≤ m := by omega
    have hnext := packetizerNext_fragment f hlow hhigh hmax hsize
    dsimp only at hnext
    rw [hm, decide_eq_true hone] at hnext
    rw [writeNalPackets_succ f hready hnext]
    rfl
  | succ n ih =>
    have hmul : m * (n + 1) = m * n + m := Nat.mul_succ _ _
    have hmul' : m * (n + 1 + 1) = m * (n + 1) + m := Nat.mul_succ _ _
    have hmore : ¬ (w.nal.drop offset).length ≤ m := by
      have := Nat.zero_le (m * n)
      omega
    have hmin : min (w.nal.drop offset).length m = m := by omega
    have hnext := packetizerNext_fragment f hlow hhigh hmax hsize
    dsimp only at hnext
    rw [hm, decide_eq_false hmore, hmin] at hnext
    have hdrop : (w.nal.drop offset).drop m = w.nal.drop (offset + m) := drop_drop
    have hlen : (w.nal.drop (offset + m)).length = (w.nal.drop offset).length - m := by
      rw [← hdrop, length_drop]
    have hrest := ih (hready.sent (f.fuHeader w.nal (decide (offset = f.headerSize)) false ++
        (w.nal.drop offset).take m))
      (by omega : f.headerSize ≤ offset + m) (by omega) (by omega)
      (by
        rw [length_drop] at hlen
        omega)
    rw [writeNalPackets_succ f hready hnext, hrest, ← hdrop]
    rw [decide_eq_false (by omega : ¬ offset + m = f.headerSize)]
    rfl

variable {f}

def NalWrite.Accepted (f : VideoFormat) (w : NalWrite) : Prop :=
  f.accepts w.nal = true ∧ w.maxPayload ≠ 0 ∧
    (w.maxPayload < w.nal.length → f.headerSize + 2 ≤ w.maxPayload)

theorem packetizerInit_isSome_iff :
    (packetizerInit f w.nal w.maxPayload).isSome = true ↔ w.Accepted f := by
  unfold packetizerInit NalWrite.Accepted
  cases hacc : f.accepts w.nal with
  | false => simp
  | true =>
    by_cases hzero : w.maxPayload = 0
    · simp [hzero]
    · by_cases hshort : w.nal.length > w.maxPayload ∧ w.maxPayload < f.headerSize + 2
      · rw [if_neg (by simp [hzero]), if_pos hshort]
        simp only [isSome_none, Bool.false_eq_true, false_iff, true_and, not_and]
        omega
      · rw [if_neg (by simp [hzero]), if_neg hshort]
        simp only [isSome_some, true_and, true_iff]
        omega

/-- The memory of a call is large enough. -/
structure NalWrite.Roomy (f : VideoFormat) (w : NalWrite) : Prop where
  packet : rtpHeaderSize + min w.nal.length w.maxPayload ≤ w.packetSize
  scratch : w.maxPayload < w.nal.length → w.maxPayload ≤ w.payloadScratchSize
  packets : ∀ n, packetCount f w.nal w.maxPayload = some n →
    n ≤ w.packetCountCapacity ∧ n * w.packetSize ≤ sizeMax

theorem pieces_bounds (hf : f.Lawful) (h : w.Accepted f) (hlong : w.maxPayload < w.nal.length) :
    ∃ n, (w.nal.length - f.headerSize + (w.maxPayload - f.fuHeaderSize) - 1) /
        (w.maxPayload - f.fuHeaderSize) = n + 1 ∧
      (w.nal.drop f.headerSize).length ≤ (w.maxPayload - f.fuHeaderSize) * (n + 1) ∧
      (w.maxPayload - f.fuHeaderSize) * n < (w.nal.drop f.headerSize).length := by
  obtain ⟨hacc, hpos, hmax⟩ := h
  have hhs := hf.accepts_length hacc
  have hfu : f.fuHeaderSize = f.headerSize + 1 := rfl
  have hbig := hmax hlong
  obtain ⟨hone, hall, hlast⟩ := Cut.ceilDiv_bounds (by omega : 0 < w.maxPayload - f.fuHeaderSize)
    (by omega : 0 < w.nal.length - f.headerSize)
  obtain ⟨n, hn⟩ := Nat.exists_eq_succ_of_ne_zero hone.ne'
  rw [hn] at hall hlast
  refine ⟨n, hn, ?_, ?_⟩
  · rw [length_drop]
    exact hall
  · rw [length_drop]
    exact hlast

theorem packetCount_eq (h : w.Accepted f) :
    packetCount f w.nal w.maxPayload = some (f.payloads w.nal w.maxPayload).length := by
  obtain ⟨p, hp⟩ := isSome_iff_exists.mp (packetizerInit_isSome_iff.mpr h)
  rw [packetCount, hp, payloads]
  split_ifs with hfits
  · rfl
  · rw [f.length_fragments, pieces, Cut.length_cut]

variable (hf : f.Lawful)
include hf

theorem payloads_length_pos (h : w.Accepted f) :
    0 < (f.payloads w.nal w.maxPayload).length := by
  rw [payloads]
  split_ifs with hfits
  · exact Nat.one_pos
  · obtain ⟨n, hcount, -⟩ := pieces_bounds hf h (Nat.lt_of_not_le hfits)
    rw [f.length_fragments, pieces, Cut.length_cut, hcount]
    omega

theorem writeNalNeeded_eq (hready : s.Ready) (h : w.Accepted f)
    (hroom : w.Roomy f) : writeNalNeeded f s w = some (f.payloads w.nal w.maxPayload).length := by
  have hcount := packetCount_eq h
  have hpos := payloads_length_pos hf h
  obtain ⟨hcap, hsize⟩ := hroom.packets _ hcount
  have hpkt := hroom.packet
  have hhdr : rtpHeaderSize = 12 := rfl
  have htype : ¬ s.payloadType > 127 := UInt8.not_lt.mpr hready.payloadType
  have hdiv : (f.payloads w.nal w.maxPayload).length ≤ sizeMax / w.packetSize :=
    (Nat.le_div_iff_mul_le (by omega)).mpr hsize
  have hwhole : w.packetSize ≤ sizeMax := (Nat.le_mul_of_pos_left _ hpos).trans hsize
  have hscratch := hroom.scratch
  rw [writeNalNeeded, if_neg (by simp only [htype, false_or]; omega), hcount]
  dsimp only
  rw [if_neg (by omega), if_neg (by omega), if_neg (by omega)]

theorem writeNalPackets_eq {p : NalPacketizer} (hready : s.Ready) (h : w.Accepted f)
    (hroom : w.Roomy f) (hp : packetizerInit f w.nal w.maxPayload = some p) :
    writeNalPackets f w (f.payloads w.nal w.maxPayload).length p s =
      writePayloads w.packetSize w.marker (f.payloads w.nal w.maxPayload) s := by
  obtain ⟨hacc, hpos, hmax⟩ := h
  have hhs := hf.accepts_length hacc
  unfold packetizerInit at hp
  split_ifs at hp with hbad hshort hfits
  · have hpacketizer := some.inj hp
    rw [decide_eq_true hfits] at hpacketizer
    subst hpacketizer
    have hnext : packetizerNext f ⟨w.nal, w.maxPayload, 0, true, false⟩ w.payloadScratchSize =
        (⟨w.nal, w.maxPayload, 0, true, true⟩, .payload w.nal true) := by
      have hpos := hf.header_pos
      rw [packetizerNext, if_neg Bool.false_ne_true, if_neg (by dsimp only; omega), if_pos rfl]
    rw [payloads, if_pos hfits, length_singleton, writeNalPackets_succ f hready hnext]
    rfl
  · have hpacketizer := some.inj hp
    rw [decide_eq_false hfits] at hpacketizer
    subst hpacketizer
    have hlong : w.maxPayload < w.nal.length := Nat.lt_of_not_le hfits
    obtain ⟨n, hcount, hall, hlast⟩ := pieces_bounds hf ⟨hacc, hpos, hmax⟩ hlong
    have hloop := writeNalPackets_fragments f rfl hready le_rfl (hmax hlong) (hroom.scratch hlong)
      hall hlast
    rw [decide_eq_true rfl] at hloop
    rw [payloads, if_neg hfits, f.length_fragments, pieces,
      Cut.length_cut, hcount]
    exact hloop

theorem rtpStreamWriteNalEx_some {next : RtpStream} {packets : List (List UInt8)}
    (hready : s.Ready) (h : w.Accepted f) (hroom : w.Roomy f)
    (hwrite : writePayloads w.packetSize w.marker (f.payloads w.nal w.maxPayload) s =
      some (next, packets)) :
    rtpStreamWriteNalEx f s w =
      ({ next with timestamp := next.timestamp + w.timestampIncrement }, some packets) := by
  obtain ⟨p, hp⟩ := isSome_iff_exists.mp (packetizerInit_isSome_iff.mpr h)
  rw [rtpStreamWriteNalEx, writeNalNeeded_eq hf hready h hroom, hp]
  dsimp only
  rw [writeNalPackets_eq hf hready h hroom hp, hwrite]

theorem rtpStreamWriteNalEx_none (hready : s.Ready) (h : w.Accepted f)
    (hroom : w.Roomy f)
    (hwrite : writePayloads w.packetSize w.marker (f.payloads w.nal w.maxPayload) s = none) :
    rtpStreamWriteNalEx f s w = (s, none) := by
  obtain ⟨p, hp⟩ := isSome_iff_exists.mp (packetizerInit_isSome_iff.mpr h)
  rw [rtpStreamWriteNalEx, writeNalNeeded_eq hf hready h hroom, hp]
  dsimp only
  rw [writeNalPackets_eq hf hready h hroom hp, hwrite]

theorem payloads_fit {payload : List UInt8 × Bool} (h : w.Accepted f)
    (hmem : payload ∈ f.payloads w.nal w.maxPayload) :
    payload.1.length ≤ min w.nal.length w.maxPayload := by
  rw [payloads] at hmem
  split_ifs at hmem with hfits
  · rw [mem_singleton.mp hmem]
    exact le_min le_rfl hfits
  · have hlong : w.maxPayload < w.nal.length := Nat.lt_of_not_le hfits
    have hbig := h.2.2 hlong
    have hfu : f.fuHeaderSize = f.headerSize + 1 := rfl
    have hpieces : ∀ (pieces : List (List UInt8)) (fuStart : Bool),
        (∀ piece ∈ pieces, piece.length ≤ w.maxPayload - f.fuHeaderSize) →
        payload ∈ f.fragments w.nal fuStart pieces → payload.1.length ≤ w.maxPayload := by
      intro pieces
      induction pieces with
      | nil =>
        intro fuStart hshort hpiece
        cases hpiece
      | cons piece rest ih =>
        intro fuStart hshort hpiece
        rcases mem_cons.mp hpiece with rfl | hrest
        · have hpiece := hshort piece mem_cons_self
          rw [length_append, hf.length_fuHeader]
          omega
        · exact ih false (fun q hq => hshort q (mem_cons_of_mem _ hq)) hrest
    have hshort : ∀ piece ∈ f.pieces w.nal w.maxPayload,
        piece.length ≤ w.maxPayload - f.fuHeaderSize := by
      intro piece hpiece
      obtain ⟨n, hcount, hall, hlast⟩ := pieces_bounds hf h hlong
      rw [pieces, hcount] at hpiece
      exact (Cut.mem_cut hlast (by omega) hpiece).2
    have hle := hpieces _ true hshort hmem
    omega

omit hf

variable {marker : Bool} {payloads : List (List UInt8 × Bool)}

theorem writePayloads_ok {packetSize : ℕ}
    (hready : s.Ready) (hsize : ∀ payload ∈ payloads, rtpHeaderSize + payload.1.length ≤ packetSize)
    (hint : ∀ payload ∈ payloads, rtpHeaderSize + payload.1.length ≤ packetLenMax) :
    writePayloads packetSize marker payloads s =
      some (s.sentAll payloads, (s.headers marker payloads).map RtpHeader.packet) := by
  induction payloads generalizing s with
  | nil => rfl
  | cons p rest ih =>
    have hmax : packetLenMax = 2147483647 := rfl
    have hlen := hint p mem_cons_self
    have hpkt : rtpWritePacket packetSize (s.header (p.2 && marker) p.1) p.1 =
        some (s.header (p.2 && marker) p.1).packet :=
      rtpWritePacket_plain (RtpStream.header_plain hready.payloadType)
        (hsize p mem_cons_self) (by omega)
    have hrest := ih (hready.sent p.1) (fun q hq => hsize q (mem_cons_of_mem _ hq))
      (fun q hq => hint q (mem_cons_of_mem _ hq))
    rw [writePayloads, hpkt, bind_some, hrest]
    rfl

/-- The packets of payloads of any sizes are parts of the packets that were meant. -/
theorem writePayloads_cut {packetSize : ℕ}
    {written : RtpStream × List (List UInt8)} (hready : s.Ready)
    (hsize : ∀ payload ∈ payloads, rtpHeaderSize + payload.1.length ≤ packetSize)
    (hwrite : writePayloads packetSize marker payloads s = some written) :
    List.Forall₂ CutPacket (s.headers marker payloads) written.2 := by
  induction payloads generalizing s written with
  | nil =>
    obtain rfl := some.inj hwrite
    exact .nil
  | cons p rest ih =>
    rw [writePayloads] at hwrite
    obtain ⟨packet, hpkt, hwrite⟩ := bind_eq_some_iff.mp hwrite
    obtain ⟨rest', hrest, rfl⟩ := map_eq_some_iff.mp hwrite
    have hcut : CutPacket (s.header (p.2 && marker) p.1) packet :=
      rtpWritePacket_cut (RtpStream.header_plain hready.payloadType) (hsize p mem_cons_self) hpkt
    exact .cons hcut (ih (hready.sent p.1) (fun q hq => hsize q (mem_cons_of_mem _ hq)) hrest)

/-- The packets are read back in order: consecutive sequence numbers, one timestamp and one
source, the payloads and their markers. -/
theorem headers_get {i : ℕ} {header : RtpHeader}
    (hready : s.Ready) (h : (s.headers marker payloads)[i]? = some header) :
    header.Plain ∧ header.sequenceNumber = s.sequenceNumber + UInt16.ofNat i ∧
      header.timestamp = s.timestamp ∧ header.ssrc = s.ssrc ∧
      ∃ last, payloads[i]? = some (header.payload, last) ∧
        header.marker = if (last && marker) = true then 1 else 0 := by
  induction payloads generalizing s i with
  | nil => cases h
  | cons p rest ih =>
    cases i with
    | zero =>
      obtain rfl := some.inj h
      exact ⟨RtpStream.header_plain hready.payloadType, (UInt16.add_zero _).symm, rfl, rfl,
        p.2, rfl, rfl⟩
    | succ i =>
      obtain ⟨hplain, hseq, hts, hssrc, hload⟩ := ih (hready.sent p.1) h
      refine ⟨hplain, ?_, hts, hssrc, hload⟩
      have hsent : (s.sent p.1).sequenceNumber = s.sequenceNumber + 1 := rfl
      rw [hseq, hsent, UInt16.ofNat_add, UInt16.add_assoc, UInt16.add_comm 1]
      rfl

theorem payloads_marked (f : VideoFormat) (nal : List UInt8) (maxPayload : ℕ)
    {i : ℕ} {payload : List UInt8 × Bool} (h : (f.payloads nal maxPayload)[i]? = some payload) :
    payload.2 = decide (i + 1 = (f.payloads nal maxPayload).length) := by
  have hfragments : ∀ (pieces : List (List UInt8)) (fuStart : Bool) (i : ℕ),
      (f.fragments nal fuStart pieces)[i]? = some payload →
      payload.2 = decide (i + 1 = pieces.length) := by
    intro pieces
    induction pieces with
    | nil =>
      intro fuStart i hi
      cases hi
    | cons piece rest ih =>
      intro fuStart i hi
      cases i with
      | zero =>
        obtain rfl := some.inj hi
        cases rest with
        | nil => rfl
        | cons piece' rest =>
          refine (decide_eq_false ?_).symm
          rw [length_cons, length_cons]
          omega
      | succ i =>
        rw [ih false i hi, length_cons, decide_eq_decide]
        omega
  rw [payloads] at h ⊢
  split_ifs at h ⊢ with hfits
  · obtain rfl : i = 0 := by
      have hi := (List.getElem?_eq_some_iff.mp h).1
      rw [length_singleton] at hi
      omega
    obtain rfl := some.inj h
    rfl
  · rw [f.length_fragments]
    exact hfragments _ true i h

end TurboMedia.Rtsp
