import TurboMedia.Rtsp.NalReorder

/-!
# Arrival orders that a receive stream undoes

**Input.**  The packets that a sending stream writes for a list of NAL units, and an order in
which they arrive: each packet once, the first one first, none further ahead of the expected
one than the window reaches, and never more held back than there are slots.

**Method.**  `arrive_all` puts the arrivals of `NalReorder` one behind the other.  The packets
that complete a NAL unit are read off the packet counts of the calls (`completions`).

* `nals_restored`: in every order whose arrivals are orderly, the NAL units come out as for
  packets in order, after every arrival and without an error.
* `nals_not_restored`: an older packet that is not the expected one is dropped, and a packet
  that waits behind one that completes no NAL unit is left in its slot.
-/

namespace TurboMedia.Rtsp

open List

open Arrivals

section Arriving

variable {f : VideoFormat} {headers : List RtpHeader} {base : UInt16} {memory : List UInt8}
variable {ssrc : UInt32}

/-- Every prefix of an orderly arrival order leaves the receive stream at rest, with the NAL
units of the packets before the first missing one. -/
theorem arrive_all {completes : ℕ → Bool} {receiver : UInt32} {packets : List (List UInt8)}
    {order : List ℕ} (arrivals : ℕ → UInt32) (hreceiver : receiver = 0 ∨ receiver = ssrc)
    (hknown : Known f headers base ssrc memory completes)
    (hparse : ∀ i < headers.length,
      rtpParseHeader (packets.getD i []) = some (headers.getD i .zero))
    (hfirst : ∀ i, order[0]? = some i → i = 0)
    (harrive : ∀ k i, order[k]? = some i → i < headers.length ∧ InWindow (order.take k) i ∧
        OrderlyArrival completes (order.take k) i) :
    let all := pushDrainAll f (receiveStreamInit receiver) memory
      (order.map (fun i => (packets.getD i [], arrivals i)))
    (order ≠ [] → Resting f headers base ssrc memory order all.1.1 all.1.2) ∧ .error ∉ all.2 ∧
      nalsOf all.2 = nalsOf (fedTo f headers memory (nextExpected order)).2 := by
  induction order using List.reverseRecOn with
  | nil => exact ⟨fun hne => absurd rfl hne, not_mem_nil, rfl⟩
  | append_singleton A i ih =>
    have hlast : (A ++ [i])[A.length]? = some i := by
      rw [getElem?_append_right le_rfl, Nat.sub_self]
      rfl
    obtain ⟨hlt, hwin, horder⟩ := harrive A.length i hlast
    rw [take_left] at hwin horder
    obtain ⟨hresting, hok, hnals⟩ := ih
      (by
        intro j hj
        have hlow := (List.getElem?_eq_some_iff.mp hj).1
        exact hfirst j (by rw [getElem?_append_left hlow]; exact hj))
      (by
        intro k j hj
        have hlow := (List.getElem?_eq_some_iff.mp hj).1
        have harrived := harrive k j (by rw [getElem?_append_left hlow]; exact hj)
        rw [take_append_of_le_length hlow.le] at harrived
        exact harrived)
    have harrived : Arrived f headers base memory ssrc A i (pushDrain f
          (pushDrainAll f (receiveStreamInit receiver) memory
            (A.map (fun i => (packets.getD i [], arrivals i)))).1.1
          (pushDrainAll f (receiveStreamInit receiver) memory
            (A.map (fun i => (packets.getD i [], arrivals i)))).1.2
          (packets.getD i [], arrivals i)) := by
      cases A with
      | nil =>
        obtain rfl := hfirst i rfl
        exact arrive_first (arrivals 0) hreceiver hknown hlt (hparse 0 hlt)
      | cons j A =>
        exact (hresting (cons_ne_nil j A)).arrive (arrivals i) hknown hwin horder hlt
          (hparse i hlt)
    rw [map_append, map_singleton, pushDrainAll_snoc]
    refine ⟨fun _ => harrived.resting, ?_, ?_⟩
    · rw [mem_append, not_or]
      exact ⟨hok, harrived.ok⟩
    · rw [nalsOf_append, harrived.nals, hnals]

end Arriving

variable (f : VideoFormat)

/-- The packets of calls one after the other. -/
def sentPackets (s : RtpStream) (writes : List NalWrite) : List (List UInt8) :=
  (writeAll f s writes).2.flatMap (fun written => written.getD [])

/-- The packets that complete a NAL unit: the last one of every call. -/
def completions (writes : List NalWrite) : List Bool :=
  writes.flatMap (fun w =>
    replicate ((packetCount f w.nal w.maxPayload).getD 1 - 1) false ++ [true])

def completesNal (writes : List NalWrite) (i : ℕ) : Bool :=
  (completions f writes).getD i false

/-- Packets as they arrive, each with its time. -/
def arriving (packets : List (List UInt8)) (arrivals : ℕ → UInt32) (order : List ℕ) :
    List (List UInt8 × UInt32) :=
  order.map (fun i => (packets.getD i [], arrivals i))

/-- An order in which packets arrive: each of them once, the first one first, within the window
of the expected one and not more than there are slots for. -/
structure AdmissibleOrder (count : ℕ) (order : List ℕ) : Prop where
  first : ∀ i, order[0]? = some i → i = 0
  arrival : ∀ k i, order[k]? = some i → i < count ∧ InWindow (order.take k) i

/-- The packets that arrive yield, without an error, the NAL units of the packets before the
first missing one as these yield them in order; and all NAL units when all have arrived. -/
structure Restored (s : RtpStream) (receiver : NalReceiveStream) (buffer : List UInt8)
    (writes : List NalWrite) (arrivals : ℕ → UInt32) (order : List ℕ) : Prop where
  ok : .error ∉
    (pushDrainAll f receiver buffer (arriving (sentPackets f s writes) arrivals order)).2
  nals : nalsOf (pushDrainAll f receiver buffer
      (arriving (sentPackets f s writes) arrivals order)).2 =
    nalsOf (receiver.pushAll f buffer
      (arriving (sentPackets f s writes) arrivals (List.range (nextExpected order)))).2
  all : order.length = (sentPackets f s writes).length →
    nalsOf (pushDrainAll f receiver buffer
      (arriving (sentPackets f s writes) arrivals order)).2 = writes.map NalWrite.nal

variable {f} {s : RtpStream} {writes : List NalWrite} {buffer : List UInt8}

theorem sentPackets_eq (hf : f.Lawful) (hready : s.Ready)
    (h : ∀ w ∈ writes, w.Served f buffer.length) (hshort : ∀ w ∈ writes, w.Short) :
    sentPackets f s writes = (sentHeaders f s writes).flatten.map RtpHeader.packet := by
  rw [sentPackets, writeAll_ok hf hready h hshort, flatMap_map, map_flatten, flatMap_def]
  simp only [Option.getD_some]
  rw [map_id']

theorem length_feed (r : NalReassembler) (buffer : List UInt8) (headers : List RtpHeader) :
    (feed f r buffer headers).2.length = headers.length := by
  induction headers generalizing r buffer with
  | nil => rfl
  | cons header rest ih => exact congrArg (· + 1) (ih _ _)

variable (f buffer) in
theorem feed_get {headers : List RtpHeader} {i : ℕ} (h : i < headers.length) :
    (feed f .zero buffer headers).2[i]? = some (resultAt f headers buffer i) := by
  have hsplit := feed_append f .zero buffer (headers.take (i + 1)) (headers.drop (i + 1))
  rw [take_append_drop] at hsplit
  have hsucc := congrArg Prod.snd (fedTo_succ f buffer h)
  have hlen : (fedTo f headers buffer i).2.length = i := by
    rw [fedTo, length_feed, length_take]
    omega
  rw [hsplit]
  rw [fedTo] at hsucc
  rw [hsucc, append_assoc, getElem?_append_right hlen.le, hlen, Nat.sub_self]
  rfl

theorem completions_cons (f : VideoFormat) (w : NalWrite) (rest : List NalWrite) :
    completions f (w :: rest) =
      (replicate ((packetCount f w.nal w.maxPayload).getD 1 - 1) false ++ [true]) ++
        completions f rest :=
  flatMap_cons

/-- The results of packets in order are complete where the counts say so. -/
theorem feed_completions (hf : f.Lawful) (h : ∀ w ∈ writes, w.Served f buffer.length) :
    (feed f .zero buffer (sentHeaders f s writes).flatten).2.map
        (fun result => decide (result ≠ .incomplete)) =
      completions f writes := by
  induction writes generalizing s buffer with
  | nil => rfl
  | cons w rest ih =>
    have hserved := h w mem_cons_self
    obtain ⟨buffer', hlen, hfeed⟩ := feed_payloads (s := s) hf hserved.accepted hserved.buffer
    have hrest := ih (s := s.next f w) (fun v hv => hlen ▸ h v (mem_cons_of_mem _ hv))
    rw [sentHeaders, flatten_cons, feed_append, hfeed, map_append, hrest, completions_cons,
      packetCount_eq hserved.accepted, map_append, map_replicate]
    rfl

theorem sentHeaders_payload {limit : ℕ} (hf : f.Lawful) (hready : s.Ready)
    (h : ∀ w ∈ writes, w.Served f buffer.length)
    (hlimit : ∀ w ∈ writes, min w.nal.length w.maxPayload ≤ limit) :
    ∀ header ∈ (sentHeaders f s writes).flatten, header.payload.length ≤ limit := by
  induction writes generalizing s with
  | nil =>
    intro header hmem
    cases hmem
  | cons w rest ih =>
    intro header hmem
    rw [sentHeaders, flatten_cons, mem_append] at hmem
    rcases hmem with hmem | hmem
    · obtain ⟨i, hi⟩ := getElem?_of_mem hmem
      obtain ⟨-, -, -, -, last, hload, -⟩ := headers_get hready hi
      exact (payloads_fit hf (h w mem_cons_self).accepted
        (mem_of_getElem? hload)).trans (hlimit w mem_cons_self)
    · exact ih hready.next (fun v hv => h v (mem_cons_of_mem _ hv))
        (fun v hv => hlimit v (mem_cons_of_mem _ hv)) header hmem

theorem getD_eq_some {headers : List RtpHeader} {i : ℕ} (h : i < headers.length) :
    headers[i]? = some (headers.getD i .zero) := by
  rw [getD_eq_getElem?_getD, getElem?_eq_getElem h]
  rfl

theorem sentHeaders_known (hf : f.Lawful) (hready : s.Ready)
    (h : ∀ w ∈ writes, w.Served f buffer.length)
    (hlimit : ∀ w ∈ writes, min w.nal.length w.maxPayload ≤ receiveReorderPayloadSize) :
    Known f (sentHeaders f s writes).flatten s.sequenceNumber s.ssrc buffer
      (completesNal f writes) := by
  have hcons := sentHeaders_consecutive (f := f) hready writes
  obtain ⟨-, -, herr⟩ := feed_sentHeaders (s := s) hf h
  refine ⟨?_, ?_, ?_, ?_, ?_, ?_⟩
  · intro j hj
    exact (consecutive_get hcons (getD_eq_some hj)).1
  · intro j hj
    exact (consecutive_get hcons (getD_eq_some hj)).2.1
  · intro j hj
    exact (consecutive_get hcons (getD_eq_some hj)).2.2
  · intro j hj
    exact sentHeaders_payload hf hready h hlimit _ (mem_of_getElem? (getD_eq_some hj))
  · intro j hj hbad
    have hget := feed_get f buffer hj
    rw [hbad] at hget
    exact herr (mem_of_getElem? hget)
  · intro j hj
    have hget := feed_get f buffer hj
    rw [completesNal, ← feed_completions (s := s) hf h, getD_eq_getElem?_getD, getElem?_map, hget]
    exact decide_eq_true_iff

theorem consecutive_left {ssrc : UInt32} {sequence : UInt16} {xs ys : List RtpHeader}
    (h : Consecutive ssrc sequence (xs ++ ys)) : Consecutive ssrc sequence xs := by
  induction xs generalizing sequence with
  | nil => trivial
  | cons header rest ih =>
    obtain ⟨hver, hssrc, hseq, hrest⟩ := h
    exact ⟨hver, hssrc, hseq, ih hrest⟩

theorem map_range_getD {α : Type} (xs : List α) (x : α) {e : ℕ} (h : e ≤ xs.length) :
    (List.range e).map (fun i => xs.getD i x) = xs.take e := by
  refine ext_getElem? ?_
  intro i
  rw [getElem?_map, getElem?_take]
  split_ifs with hi
  · rw [getElem?_range hi, getElem?_eq_getElem (hi.trans_le h)]
    exact congrArg some ((getD_eq_getElem?_getD).trans
      (by rw [getElem?_eq_getElem (hi.trans_le h)]; rfl))
  · rw [getElem?_eq_none (by rw [length_range]; omega)]
    rfl

theorem pushAll_inOrder {receiver : UInt32} {e : ℕ} (arrivals : ℕ → UInt32) (hf : f.Lawful)
    (hready : s.Ready) (hreceiver : receiver = 0 ∨ receiver = s.ssrc)
    (h : ∀ w ∈ writes, w.Served f buffer.length)
    (he : e ≤ (sentHeaders f s writes).flatten.length) :
    nalsOf ((receiveStreamInit receiver).pushAll f buffer
        (arriving ((sentHeaders f s writes).flatten.map RtpHeader.packet) arrivals
          (List.range e))).2 = nalsOf (fedTo f (sentHeaders f s writes).flatten buffer e).2 := by
  have hcons := sentHeaders_consecutive (f := f) hready writes
  have hplain := sentHeaders_plain (f := f) hready writes
  obtain ⟨-, -, herr⟩ := feed_sentHeaders (s := s) hf h
  have hpushes : (arriving ((sentHeaders f s writes).flatten.map RtpHeader.packet) arrivals
      (List.range e)).map Prod.fst =
        ((sentHeaders f s writes).flatten.take e).map RtpHeader.packet := by
    rw [arriving, map_map, map_take,
      ← map_range_getD _ ([] : List UInt8) (by rw [length_map]; exact he)]
    rfl
  generalize (sentHeaders f s writes).flatten = headers at *
  have hsplit := feed_append f .zero buffer (headers.take e) (headers.drop e)
  rw [take_append_drop] at hsplit
  rw [hsplit, mem_append, not_or] at herr
  rw [← take_append_drop e headers] at hcons
  obtain ⟨hresults, -⟩ := pushAll_feed (f := f) (receiveStreamInit_expects hreceiver _)
    (pushes_parsed (fun header hmem => hplain header (mem_of_mem_take hmem)) hpushes)
    (consecutive_left hcons) (.inl herr.1)
  rw [hresults]
  rfl

theorem short_of_limit {w : NalWrite}
    (h : min w.nal.length w.maxPayload ≤ receiveReorderPayloadSize) : w.Short := by
  have hlimit : receiveReorderPayloadSize = 2048 := rfl
  have hsize : rtpHeaderSize = 12 := rfl
  have hmax : packetLenMax = 2147483647 := rfl
  unfold NalWrite.Short
  omega

theorem restored_of_orderly {receiver : UInt32} {order : List ℕ} (arrivals : ℕ → UInt32)
    (hf : f.Lawful) (hready : s.Ready) (hreceiver : receiver = 0 ∨ receiver = s.ssrc)
    (h : ∀ w ∈ writes, w.Served f buffer.length)
    (hlimit : ∀ w ∈ writes, min w.nal.length w.maxPayload ≤ receiveReorderPayloadSize)
    (hadm : AdmissibleOrder (sentPackets f s writes).length order)
    (horderly : ∀ k i, order[k]? = some i →
      OrderlyArrival (completesNal f writes) (order.take k) i) :
    Restored f s (receiveStreamInit receiver) buffer writes arrivals order := by
  have hshort : ∀ w ∈ writes, w.Short := fun w hw => short_of_limit (hlimit w hw)
  have hpackets := sentPackets_eq hf hready h hshort
  have hknown := sentHeaders_known hf hready h hlimit
  have hplain := sentHeaders_plain (f := f) hready writes
  have hlength : (sentPackets f s writes).length = (sentHeaders f s writes).flatten.length := by
    rw [hpackets, length_map]
  have hparse : ∀ i < (sentHeaders f s writes).flatten.length,
      rtpParseHeader ((sentPackets f s writes).getD i []) =
        some ((sentHeaders f s writes).flatten.getD i .zero) := by
    intro i hi
    have hget := getD_eq_some hi
    rw [hpackets, getD_eq_getElem?_getD, getElem?_map, hget]
    exact rtpParseHeader_packet (hplain _ (mem_of_getElem? hget))
  have hlt : ∀ i ∈ order, i < (sentHeaders f s writes).flatten.length := by
    intro i hi
    obtain ⟨k, hk⟩ := getElem?_of_mem hi
    rw [← hlength]
    exact (hadm.arrival k i hk).1
  obtain ⟨hresting, hok, hnals⟩ := arrive_all arrivals hreceiver hknown hparse
    hadm.first (fun k i hi =>
      ⟨hlength ▸ (hadm.arrival k i hi).1, (hadm.arrival k i hi).2, horderly k i hi⟩)
  have hinOrder := pushAll_inOrder arrivals hf hready hreceiver h (nextExpected_le hlt)
  rw [← hpackets] at hinOrder
  refine ⟨hok, hnals.trans hinOrder.symm, ?_⟩
  intro hall
  have hnodup : order.Nodup := by
    cases order with
    | nil => exact nodup_nil
    | cons i rest => exact (hresting (cons_ne_nil i rest)).nodup
  obtain ⟨-, hwrites, -⟩ := feed_sentHeaders (s := s) hf h
  rw [nextExpected_of_all hnodup hlt (hall.trans hlength), fedTo, take_length] at hnals
  exact hnals.trans hwrites

/-- **Orderly arrivals are undone.**  After every arrival the NAL units have come out that the
packets before the first missing one make up. -/
theorem nals_restored (codec : VideoCodec) (payloadType : UInt8)
    (ssrc timestamp clockRate receiver : UInt32) (sequenceNumber : UInt16) (buffer : List UInt8)
    (writes : List NalWrite) (arrivals : ℕ → UInt32) (order : List ℕ)
    (hpayloadType : payloadType ≤ 127) (hreceiver : receiver = 0 ∨ receiver = ssrc)
    (h : ∀ w ∈ writes, w.Served codec.format buffer.length)
    (hlimit : ∀ w ∈ writes, min w.nal.length w.maxPayload ≤ receiveReorderPayloadSize)
    (hadmissible : AdmissibleOrder (sentPackets codec.format
        (rtpStreamInit payloadType ssrc sequenceNumber timestamp clockRate) writes).length order)
    (horderly : ∀ k i, order[k]? = some i →
      OrderlyArrival (completesNal codec.format writes) (order.take k) i) :
    Restored codec.format (rtpStreamInit payloadType ssrc sequenceNumber timestamp clockRate)
      (receiveStreamInit receiver) buffer writes arrivals order :=
  restored_of_orderly arrivals codec.lawful (rtpStreamInit_ready hpayloadType) hreceiver h hlimit
    hadmissible horderly

theorem forall_arrivals {P : List ℕ → ℕ → Prop} {order : List ℕ}
    (h : ∀ k < order.length, P (order.take k) (order.getD k 0)) :
    ∀ k i, order[k]? = some i → P (order.take k) i := by
  intro k i hi
  have hget := h k (List.getElem?_eq_some_iff.mp hi).1
  rw [getD_eq_getElem?_getD, hi] at hget
  exact hget

/-- Three packets, of which the last two, the fragments of one NAL unit, change places. -/
theorem nals_restored_fragments :
    Restored h264Format (rtpStreamInit 96 7 65535 1000 90000) (receiveStreamInit 0) [0, 0, 0, 0]
      [⟨[0x65, 1], true, 3000, 2, 15, 3, 2⟩, ⟨[0x65, 1, 2, 3], true, 3000, 3, 16, 4, 3⟩]
      (fun _ => 0) [0, 2, 1] := by
  refine nals_restored .h264 96 7 1000 90000 0 65535 [0, 0, 0, 0]
    [⟨[0x65, 1], true, 3000, 2, 15, 3, 2⟩, ⟨[0x65, 1, 2, 3], true, 3000, 3, 16, 4, 3⟩]
    (fun _ => 0) [0, 2, 1] (by decide) (.inl rfl) (by decide) (by decide) ⟨?_, ?_⟩ ?_
  · intro i hi
    exact (Option.some.inj hi).symm
  · exact forall_arrivals (P := fun A i => i < (sentPackets h264Format
      (rtpStreamInit 96 7 65535 1000 90000)
      [⟨[0x65, 1], true, 3000, 2, 15, 3, 2⟩, ⟨[0x65, 1, 2, 3], true, 3000, 3, 16, 4, 3⟩]).length ∧
        InWindow A i) (by decide +kernel)
  · exact forall_arrivals (P := OrderlyArrival (completesNal h264Format
      [⟨[0x65, 1], true, 3000, 2, 15, 3, 2⟩, ⟨[0x65, 1, 2, 3], true, 3000, 3, 16, 4, 3⟩]))
      (by decide +kernel)

def fourSingle : List NalWrite :=
  [⟨[0x65, 0], true, 3000, 3, 15, 0, 1⟩, ⟨[0x65, 1], true, 3000, 3, 15, 0, 1⟩,
    ⟨[0x65, 2], true, 3000, 3, 15, 0, 1⟩, ⟨[0x65, 3], true, 3000, 3, 15, 0, 1⟩]

/-- Two NAL units of one packet each, and one of two packets. -/
def twoAndFragments : List NalWrite :=
  [⟨[0x65, 0], true, 3000, 3, 15, 0, 1⟩, ⟨[0x65, 1], true, 3000, 3, 15, 0, 1⟩,
    ⟨[0x65, 1, 2, 3, 4], true, 3000, 4, 16, 4, 2⟩]

/-- In the first order the third packet comes behind the fourth while the second is missing,
and is dropped.  In the second one the second packet releases two fragments, and the last of
them is left in its slot. -/
theorem nals_not_restored :
    (∀ w ∈ fourSingle ++ twoAndFragments, w.Served VideoCodec.h264.format 5 ∧
        min w.nal.length w.maxPayload ≤ receiveReorderPayloadSize) ∧
      AdmissibleOrder 4 [0, 3, 2, 1] ∧ AdmissibleOrder 4 [0, 2, 3, 1] ∧
      (sentPackets VideoCodec.h264.format (rtpStreamInit 96 7 65535 1000 90000)
        fourSingle).length = 4 ∧
      (sentPackets VideoCodec.h264.format (rtpStreamInit 96 7 65535 1000 90000)
        twoAndFragments).length = 4 ∧
      ¬ Restored VideoCodec.h264.format (rtpStreamInit 96 7 65535 1000 90000)
        (receiveStreamInit 7) [0, 0, 0, 0, 0] fourSingle (fun _ => 0) [0, 3, 2, 1] ∧
      ¬ Restored VideoCodec.h264.format (rtpStreamInit 96 7 65535 1000 90000)
        (receiveStreamInit 7) [0, 0, 0, 0, 0] twoAndFragments (fun _ => 0) [0, 2, 3, 1] := by
  have hcount : (sentPackets VideoCodec.h264.format (rtpStreamInit 96 7 65535 1000 90000)
      fourSingle).length = 4 := by decide +kernel
  have hcount' : (sentPackets VideoCodec.h264.format (rtpStreamInit 96 7 65535 1000 90000)
      twoAndFragments).length = 4 := by decide +kernel
  refine ⟨by decide, ⟨?_, ?_⟩, ⟨?_, ?_⟩, hcount, hcount', ?_, ?_⟩
  · intro i hi
    exact (Option.some.inj hi).symm
  · exact forall_arrivals (P := fun A i => i < 4 ∧ InWindow A i) (by decide)
  · intro i hi
    exact (Option.some.inj hi).symm
  · exact forall_arrivals (P := fun A i => i < 4 ∧ InWindow A i) (by decide)
  · intro h
    exact absurd (h.all hcount.symm) (by decide +kernel)
  · intro h
    exact absurd (h.all hcount'.symm) (by decide +kernel)

end TurboMedia.Rtsp
