import TurboMedia.Rtsp.NalSending

/-!
# What a reassembler makes of the packets of a sending stream

**Input.**  The headers of packets, in the order in which a reassembler takes them.

**Method.**  `feed` pushes the packets one after the other, with the buffer that the caller
keeps.  For the packets of one NAL unit the proof is an induction on the pieces behind the
first: the buffer begins with what the pieces before it have brought.

* `feed_payloads`: the packets of a NAL unit yield it with the last of them.
* `feed_bytes`: a reassembler never returns more bytes than it was given.
* `feed_cut`: the last packet of a NAL unit never leaves the reassembler waiting, even when it
  lost its end.
-/

namespace TurboMedia.Rtsp

open List Ring VideoFormat RtpStream NalReassembler Bool

section Feed

variable (f : VideoFormat)

def feed : NalReassembler → List UInt8 → List RtpHeader →
    (NalReassembler × List UInt8) × List FrameResult
  | r, buffer, [] => ((r, buffer), [])
  | r, buffer, header :: rest =>
    let pushed := reassemblerPush f r header buffer
    let fed := feed pushed.1 pushed.2.1 rest
    (fed.1, pushed.2.2 :: fed.2)

def FrameResult.nal? : FrameResult → Option (List UInt8)
  | .ok nal => some nal
  | _ => none

def nalsOf (results : List FrameResult) : List (List UInt8) :=
  results.filterMap FrameResult.nal?

@[simp] theorem nalsOf_append (xs ys : List FrameResult) :
    nalsOf (xs ++ ys) = nalsOf xs ++ nalsOf ys :=
  filterMap_append

theorem nalsOf_incomplete (n : ℕ) : nalsOf (replicate n .incomplete) = [] := by
  induction n with
  | zero => rfl
  | succ n ih => exact ih

theorem feed_append (r : NalReassembler) (buffer : List UInt8) (xs ys : List RtpHeader) :
    feed f r buffer (xs ++ ys) = ((feed f (feed f r buffer xs).1.1 (feed f r buffer xs).1.2 ys).1,
        (feed f r buffer xs).2 ++ (feed f (feed f r buffer xs).1.1 (feed f r buffer xs).1.2 ys).2)
      := by
  induction xs generalizing r buffer with
  | nil => rfl
  | cons header rest ih =>
    rw [cons_append, feed, ih, feed]
    rfl

end Feed

variable {f : VideoFormat} {r : NalReassembler} {buffer : List UInt8} {header : RtpHeader}

section Pushed

/-- The reassembler that has begun a NAL unit with a fragment. -/
def NalReassembler.begun (header : RtpHeader) (type : UInt8) (nalHeader data : List UInt8) :
    NalReassembler :=
  { ssrc := header.ssrc
    timestamp := header.timestamp
    nextSequenceNumber := header.sequenceNumber + 1
    fuNalUnitType := type
    reconstructedNalHeader := nalHeader
    nalLen := nalHeader.length + data.length
    started := true }

/-- What a push can do. -/
inductive Pushed (f : VideoFormat) (r : NalReassembler) (header : RtpHeader)
    (buffer : List UInt8) : NalReassembler × List UInt8 × FrameResult → Prop
  | error {r' : NalReassembler} {buffer' : List UInt8} :
      r' = .zero ∨ (r' = r ∧ r.started = false) →
      buffer'.length = buffer.length →
      Pushed f r header buffer (r', buffer', .error)
  | single {nal : List UInt8} :
      f.payloadParse header.payload = some (.single nal) →
      r.started = false →
      Pushed f r header buffer (r, buffer, .ok nal)
  | start {fuEnd : Bool} {type : UInt8} {nalHeader data : List UInt8} :
      f.payloadParse header.payload = some (.fragment true fuEnd type nalHeader data) →
      r.started = false →
      nalHeader.length + data.length ≤ buffer.length →
      Pushed f r header buffer (.begun header type nalHeader data,
          blit (blit buffer 0 nalHeader) nalHeader.length data, .incomplete)
  | middle {type : UInt8} {nalHeader data : List UInt8} :
      f.payloadParse header.payload = some (.fragment false false type nalHeader data) →
      r.continuedBy header type nalHeader = true →
      r.nalLen + data.length ≤ buffer.length →
      Pushed f r header buffer
        ({ r with
            nalLen := r.nalLen + data.length
            nextSequenceNumber := header.sequenceNumber + 1 },
          blit buffer r.nalLen data, .incomplete)
  | last {type : UInt8} {nalHeader data : List UInt8} :
      f.payloadParse header.payload = some (.fragment false true type nalHeader data) →
      r.continuedBy header type nalHeader = true →
      r.nalLen + data.length ≤ buffer.length →
      Pushed f r header buffer (.zero, blit buffer r.nalLen data,
          .ok ((blit buffer r.nalLen data).take (r.nalLen + data.length)))

theorem reassemblerAppend_eq {payload : List UInt8}
    (h : r.nalLen + payload.length ≤ buffer.length) :
    reassemblerAppend r buffer payload = some ({ r with nalLen := r.nalLen + payload.length },
        blit buffer r.nalLen payload) :=
  if_neg (by omega)

theorem reassemblerAppend_none {payload : List UInt8}
    (h : ¬ r.nalLen + payload.length ≤ buffer.length) : reassemblerAppend r buffer payload = none :=
  if_pos (by omega)

theorem reassemblerPush_pushed (f : VideoFormat) (r : NalReassembler) (header : RtpHeader)
    (buffer : List UInt8) : Pushed f r header buffer (reassemblerPush f r header buffer) := by
  unfold reassemblerPush
  cases hparse : f.payloadParse header.payload with
  | none => exact .error (.inl rfl) rfl
  | some payload =>
    cases payload with
    | single nal =>
      cases hstarted : r.started with
      | true => exact .error (.inl rfl) rfl
      | false => exact .single hparse hstarted
    | aggregation =>
      cases hstarted : r.started with
      | true => exact .error (.inl rfl) rfl
      | false => exact .error (.inr ⟨rfl, hstarted⟩) rfl
    | fragment fuStart fuEnd type nalHeader data =>
      cases fuStart with
      | true =>
        cases hstarted : r.started with
        | true => exact .error (.inl rfl) rfl
        | false =>
          change Pushed f r header buffer (reassemblerStart header buffer type nalHeader data)
          rw [reassemblerStart]
          split_ifs with hsize
          · exact .error (.inl rfl) rfl
          · have hblit : (blit buffer 0 nalHeader).length = buffer.length :=
              length_blit (by omega)
            dsimp only
            by_cases hfits : nalHeader.length + data.length ≤ buffer.length
            · rw [reassemblerAppend_eq (hblit ▸ hfits)]
              exact .start hparse hstarted hfits
            · rw [reassemblerAppend_none (hblit ▸ hfits)]
              exact .error (.inl rfl) hblit
      | false =>
        change Pushed f r header buffer
          (reassemblerContinue r header buffer fuEnd type nalHeader data)
        rw [reassemblerContinue]
        cases hcontinued : r.continuedBy header type nalHeader with
        | false => exact .error (.inl rfl) rfl
        | true =>
          rw [if_neg true_eq_false.mp]
          by_cases hfits : r.nalLen + data.length ≤ buffer.length
          · rw [reassemblerAppend_eq hfits]
            cases fuEnd with
            | false => exact .middle hparse hcontinued hfits
            | true => exact .last hparse hcontinued hfits
          · rw [reassemblerAppend_none hfits]
            exact .error (.inl rfl) rfl

/-- The buffer behind the first fragment begins with the header and the data. -/
theorem take_begun {nalHeader data : List UInt8}
    (h : nalHeader.length + data.length ≤ buffer.length) :
    (blit (blit buffer 0 nalHeader) nalHeader.length data).take
      (nalHeader.length + data.length) = nalHeader ++ data := by
  have hfirst : (blit buffer 0 nalHeader).take (0 + nalHeader.length) =
      buffer.take 0 ++ nalHeader :=
    take_blit (by omega)
  rw [Nat.zero_add] at hfirst
  rw [take_blit (by rw [length_blit (by omega)]; omega), hfirst]
  rfl

end Pushed

section Bytes

def bytesOf (results : List FrameResult) : ℕ :=
  ((nalsOf results).map List.length).sum

theorem bytesOf_cons (result : FrameResult) (results : List FrameResult) :
    bytesOf (result :: results) = bytesOf [result] + bytesOf results := by
  have happend : nalsOf (result :: results) = nalsOf [result] ++ nalsOf results :=
    nalsOf_append [result] results
  rw [bytesOf, happend, map_append, sum_append]
  rfl

/-- One push returns and keeps no more bytes than there were and than it is given. -/
theorem Pushed.bytes {out : NalReassembler × List UInt8 × FrameResult} (hf : f.Lawful)
    (h : Pushed f r header buffer out) :
    bytesOf [out.2.2] + out.1.nalLen ≤ r.nalLen + header.payload.length := by
  cases h with
  | error hr hbuf =>
    rcases hr with rfl | ⟨rfl, -⟩
    · exact Nat.zero_le _
    · exact (Nat.zero_add _).le.trans (Nat.le_add_right _ _)
  | single hparse hstarted =>
    rw [hf.parse_single hparse]
    exact (Nat.add_comm _ _).le
  | start hparse hstarted hfits =>
    have hlen := hf.parse_length hparse
    exact (Nat.zero_add _).le.trans (hlen.trans (Nat.le_add_left _ _))
  | middle hparse hcontinued hfits =>
    have hlen := hf.parse_length hparse
    exact (Nat.zero_add _).le.trans (by dsimp only; omega)
  | last hparse hcontinued hfits =>
    have hlen := hf.parse_length hparse
    refine (Nat.add_zero _).le.trans ((length_take_le _ _).trans ?_)
    omega

/-- **A reassembler never returns more bytes than it was given.** -/
theorem feed_bytes (hf : f.Lawful) (r : NalReassembler) (buffer : List UInt8)
    (headers : List RtpHeader) :
    bytesOf (feed f r buffer headers).2 ≤
      r.nalLen + (headers.map (fun header => header.payload.length)).sum := by
  induction headers generalizing r buffer with
  | nil => exact Nat.zero_le _
  | cons header rest ih =>
    have hpush := (reassemblerPush_pushed f r header buffer).bytes hf
    have hrest := ih (reassemblerPush f r header buffer).1 (reassemblerPush f r header buffer).2.1
    rw [feed, bytesOf_cons, map_cons, sum_cons]
    omega

end Bytes

section Whole

variable {type : UInt8} {nalHeader data : List UInt8} {fuEnd : Bool}

theorem reassemblerPush_single {nal : List UInt8}
    (hparse : f.payloadParse header.payload = some (.single nal)) (hstarted : r.started = false) :
    reassemblerPush f r header buffer = (r, buffer, .ok nal) := by
  rw [reassemblerPush, hparse]
  exact if_neg (by rw [hstarted]; exact false_ne_true)

theorem reassemblerPush_start
    (hparse : f.payloadParse header.payload = some (.fragment true fuEnd type nalHeader data))
    (hstarted : r.started = false) (hfits : nalHeader.length + data.length ≤ buffer.length) :
    reassemblerPush f r header buffer = (.begun header type nalHeader data,
        blit (blit buffer 0 nalHeader) nalHeader.length data, .incomplete) := by
  have hblit : (blit buffer 0 nalHeader).length = buffer.length :=
    length_blit (by omega)
  rw [reassemblerPush, hparse]
  dsimp only
  rw [if_pos rfl, if_neg (by rw [hstarted]; exact false_ne_true), reassemblerStart,
    if_neg (by omega)]
  dsimp only
  rw [reassemblerAppend_eq (hblit ▸ hfits)]
  rfl

theorem reassemblerPush_continue
    (hparse : f.payloadParse header.payload = some (.fragment false fuEnd type nalHeader data))
    (hcontinued : r.continuedBy header type nalHeader = true)
    (hfits : r.nalLen + data.length ≤ buffer.length) :
    reassemblerPush f r header buffer =
      if fuEnd = true then
        (.zero, blit buffer r.nalLen data, .ok (buffer.take r.nalLen ++ data))
      else ({ r with
            nalLen := r.nalLen + data.length
            nextSequenceNumber := header.sequenceNumber + 1 },
          blit buffer r.nalLen data, .incomplete) := by
  rw [reassemblerPush, hparse]
  dsimp only
  rw [if_neg Bool.false_ne_true, reassemblerContinue, hcontinued,
    if_neg Bool.true_eq_false.mp, reassemblerAppend_eq hfits]
  dsimp only
  rw [take_blit hfits]

theorem feed_fragments {nal : List UInt8} {pieces : List (List UInt8)} {s : RtpStream}
    (marker : Bool)
    (hparse : ∀ {fuStart fuEnd data}, (fuStart && fuEnd) = false → data ≠ [] →
      f.payloadParse (f.fuHeader nal fuStart fuEnd ++ data) =
        some (.fragment fuStart fuEnd type nalHeader data)) (hne : pieces ≠ [])
    (hpieces : ∀ piece ∈ pieces, piece ≠ [])
    (hr : r = ⟨s.ssrc, s.timestamp, s.sequenceNumber, type, nalHeader, r.nalLen, true⟩)
    (hfits : r.nalLen + pieces.flatten.length ≤ buffer.length) :
    ∃ buffer', buffer'.length = buffer.length ∧
      feed f r buffer (s.headers marker (f.fragments nal false pieces)) =
        ((.zero, buffer'), replicate (pieces.length - 1) .incomplete ++
          [.ok (buffer.take r.nalLen ++ pieces.flatten)]) := by
  induction pieces generalizing r buffer s with
  | nil => exact absurd rfl hne
  | cons piece rest ih =>
    rw [flatten_cons, length_append] at hfits
    have hblit : (blit buffer r.nalLen piece).length = buffer.length :=
      length_blit (by omega)
    have hdata : piece ≠ [] := hpieces piece mem_cons_self
    have hcontinued : r.continuedBy
        (s.header (rest.isEmpty && marker) (f.fuHeader nal false rest.isEmpty ++ piece))
        type nalHeader = true := by
      rw [hr]
      simp [continuedBy, RtpStream.header]
    have hpush := reassemblerPush_continue (hparse rfl hdata) hcontinued
      (by omega : r.nalLen + piece.length ≤ buffer.length)
    cases rest with
    | nil =>
      refine ⟨blit buffer r.nalLen piece, hblit, ?_⟩
      rw [fragments, headers, feed, hpush, flatten_cons,
        flatten_nil, append_nil]
      rfl
    | cons piece' rest =>
      have hr' : { r with
            nalLen := r.nalLen + piece.length
            nextSequenceNumber := s.sequenceNumber + 1 } =
          (⟨s.ssrc, s.timestamp, s.sequenceNumber + 1, type, nalHeader,
            r.nalLen + piece.length, true⟩ : NalReassembler) := by
        rw [hr]
      obtain ⟨buffer', hlen, hfeed⟩ := ih
        (r := { r with
            nalLen := r.nalLen + piece.length
            nextSequenceNumber := s.sequenceNumber + 1 })
        (s := s.sent (f.fuHeader nal false false ++ piece))
        (cons_ne_nil _ _) (fun q hq => hpieces q (mem_cons_of_mem _ hq))
        hr' (by rw [hblit]; dsimp only; omega)
      refine ⟨buffer', hlen.trans hblit, ?_⟩
      rw [fragments, headers, feed, hpush, flatten_cons]
      dsimp only [isEmpty_cons]
      rw [if_neg Bool.false_ne_true]
      dsimp only [RtpStream.header]
      rw [hfeed]
      rw [take_blit (by omega), append_assoc]
      rfl

/-- **The packets of a NAL unit yield it with the last of them.** -/
theorem feed_payloads {s : RtpStream} {w : NalWrite} (hf : f.Lawful) (h : w.Accepted f)
    (hbuf : w.nal.length ≤ buffer.length) :
    ∃ buffer', buffer'.length = buffer.length ∧
      feed f .zero buffer (s.headers w.marker (f.payloads w.nal w.maxPayload)) = ((.zero, buffer'),
          replicate ((f.payloads w.nal w.maxPayload).length - 1) .incomplete ++
            [.ok w.nal]) := by
  obtain ⟨hacc, hpos, hmax⟩ := h
  rw [payloads]
  split_ifs with hfits
  · refine ⟨buffer, rfl, ?_⟩
    have hparse : f.payloadParse (s.header (true && w.marker) w.nal).payload =
        some (.single w.nal) :=
      hf.parse_nal hacc
    rw [headers, headers, feed, reassemblerPush_single hparse rfl]
    rfl
  · have hlong : w.maxPayload < w.nal.length := Nat.lt_of_not_le hfits
    have hbig := hmax hlong
    have hhs := hf.accepts_length hacc
    have hfu : f.fuHeaderSize = f.headerSize + 1 := rfl
    obtain ⟨n, hcount, hall, hlast⟩ := pieces_bounds hf ⟨hacc, hpos, hmax⟩ hlong
    have hflatten := Cut.flatten_cut hall
    have hmem : ∀ piece ∈ f.pieces w.nal w.maxPayload, piece ≠ [] := by
      intro piece hpiece
      rw [pieces, hcount] at hpiece
      exact ne_nil_of_length_pos (Cut.mem_cut hlast (by omega) hpiece).1
    have hlen : (f.pieces w.nal w.maxPayload).length = n + 1 := by
      rw [pieces, Cut.length_cut, hcount]
    have hdata : (f.pieces w.nal w.maxPayload).flatten = w.nal.drop f.headerSize := by
      rw [pieces, hcount]
      exact hflatten
    have htwo : 1 ≤ n := by
      rw [length_drop] at hall
      rcases Nat.eq_zero_or_pos n with rfl | hn
      · rw [Nat.zero_add, Nat.mul_one] at hall
        omega
      · exact hn
    obtain ⟨type, hparse⟩ := hf.parse_fragment hacc
    cases hpieces : f.pieces w.nal w.maxPayload with
    | nil =>
      rw [hpieces] at hlen
      cases hlen
    | cons piece rest =>
      rw [hpieces] at hmem hlen hdata
      rw [flatten_cons] at hdata
      have hrest : rest.isEmpty = false := by
        cases rest with
        | nil =>
          rw [length_singleton] at hlen
          omega
        | cons piece' rest => rfl
      have hhdr : (w.nal.take f.headerSize).length = f.headerSize := by
        rw [length_take]
        omega
      have hsum : piece.length + rest.flatten.length = w.nal.length - f.headerSize := by
        rw [← length_append, hdata, length_drop]
      have hfirst : f.payloadParse
          (s.header (false && w.marker) (f.fuHeader w.nal true false ++ piece)).payload =
            some (.fragment true false type (w.nal.take f.headerSize) piece) :=
        hparse rfl (hmem piece mem_cons_self)
      have hroom : (w.nal.take f.headerSize).length + piece.length ≤ buffer.length := by omega
      have hpush := reassemblerPush_start (r := .zero) hfirst rfl hroom
      have hblit : (blit (blit buffer 0 (w.nal.take f.headerSize))
          (w.nal.take f.headerSize).length piece).length = buffer.length := by
        rw [length_blit (by rw [length_blit (by omega)]; omega),
          length_blit (by omega)]
      obtain ⟨buffer', hlen', hfeed⟩ := feed_fragments w.marker
        (s := s.sent (f.fuHeader w.nal true false ++ piece))
        (r := .begun (s.header (false && w.marker) (f.fuHeader w.nal true false ++ piece)) type
          (w.nal.take f.headerSize) piece)
        hparse (isEmpty_eq_false_iff.mp hrest)
        (fun q hq => hmem q (mem_cons_of_mem _ hq)) rfl
        (by
          rw [hblit]
          dsimp only [begun]
          omega)
      refine ⟨buffer', hlen'.trans hblit, ?_⟩
      have hnal : (w.nal.take f.headerSize ++ piece) ++ rest.flatten = w.nal := by
        rw [append_assoc, hdata, take_append_drop]
      rw [fragments, headers, hrest, feed, hpush]
      rw [hfeed]
      dsimp only [begun]
      rw [take_begun hroom, hnal, length_cons, f.length_fragments]
      have hcons : rest.length + 1 - 1 = (rest.length - 1) + 1 := by
        rw [length_cons] at hlen
        omega
      rw [hcons, replicate_succ, cons_append]

end Whole

variable {w : NalWrite}

/-- A header of which the payload arrives in part. -/
structure CutPayload (payload : List UInt8 × Bool) (header : RtpHeader) : Prop where
  part : ∃ k, header.payload = payload.1.take k
  short : packetLenMax < rtpHeaderSize + payload.1.length →
    header.payload.length + 4294967296 ≤ payload.1.length

theorem CutPayload.length_le {payload : List UInt8 × Bool} {header : RtpHeader}
    (h : CutPayload payload header) : header.payload.length ≤ payload.1.length := by
  obtain ⟨k, hk⟩ := h.part
  rw [hk]
  exact length_take_le' k _

theorem reassemblerPush_last
    {r : NalReassembler} {header : RtpHeader} {buffer nal : List UInt8} {k : ℕ} (data : List UInt8)
    (hf : f.Lawful) (hacc : f.accepts nal = true)
    (hload : header.payload = nal.take k ∨
      header.payload = (f.fuHeader nal false true ++ data).take k) :
    (reassemblerPush f r header buffer).2.2 ≠ .incomplete := by
  have hparse : ∀ {payload}, f.payloadParse header.payload = some payload →
      payload = .single (nal.take k) ∨
        ∃ type nalHeader rest, payload = .fragment false true type nalHeader rest := by
    intro payload hparse
    rcases hload with hload | hload
    · rw [hload] at hparse
      exact .inl (hf.parse_nal_cut hacc hparse)
    · rw [hload] at hparse
      exact .inr (hf.parse_cut hacc hparse)
  intro hres
  have hpushed := reassemblerPush_pushed f r header buffer
  generalize reassemblerPush f r header buffer = out at hres hpushed
  cases hpushed with
  | error hr hbuf | single hsingle hstarted | last hlast hcontinued hfits => cases hres
  | start hstart hstarted hfits | middle hstart hcontinued hfits =>
    rcases hparse hstart with h | ⟨_, _, _, h⟩ <;> cases h

theorem payloads_last {payload : List UInt8 × Bool} (hf : f.Lawful) (h : w.Accepted f)
    (hmem : payload ∈ f.payloads w.nal w.maxPayload) (hlast : payload.2 = true) :
    payload.1 = w.nal ∨ ∃ data, payload.1 = f.fuHeader w.nal false true ++ data := by
  have hfragments : ∀ (pieces : List (List UInt8)), payload ∈ f.fragments w.nal false pieces →
      ∃ data, payload.1 = f.fuHeader w.nal false true ++ data := by
    intro pieces
    induction pieces with
    | nil =>
      intro hload
      cases hload
    | cons piece rest ih =>
      intro hload
      rcases mem_cons.mp hload with rfl | hrest
      · dsimp only at hlast
        rw [hlast]
        exact ⟨piece, rfl⟩
      · exact ih hrest
  rw [payloads] at hmem
  split_ifs at hmem with hfits
  · rw [mem_singleton.mp hmem]
    exact .inl rfl
  · have hlong : w.maxPayload < w.nal.length := Nat.lt_of_not_le hfits
    obtain ⟨n, hcount, hall, -⟩ := pieces_bounds hf h hlong
    have hbig := h.2.2 hlong
    have hfu : f.fuHeaderSize = f.headerSize + 1 := rfl
    rw [pieces, hcount] at hmem
    rcases mem_cons.mp hmem with rfl | hrest
    · have hone : n = 0 := by
        have hempty := isEmpty_iff_length_eq_zero.mp hlast
        rwa [Cut.length_cut] at hempty
      rw [hone, length_drop, Nat.zero_add, Nat.mul_one] at hall
      omega
    · exact .inr (hfragments _ hrest)

theorem feed_cut {headers : List RtpHeader} (r : NalReassembler) (buffer : List UInt8)
    (hf : f.Lawful) (h : w.Accepted f)
    (hcut : List.Forall₂ CutPayload (f.payloads w.nal w.maxPayload) headers) :
    ∃ results result, (feed f r buffer headers).2 = results ++ [result] ∧ result ≠ .incomplete := by
  have hlen := hcut.length_eq
  have hpos := payloads_length_pos hf h
  have hne : headers ≠ [] := ne_nil_of_length_pos (hlen ▸ hpos)
  have hload : (f.payloads w.nal w.maxPayload)[headers.length - 1]? =
      some ((f.payloads w.nal w.maxPayload).get ⟨headers.length - 1, by omega⟩) :=
    getElem?_eq_getElem _
  obtain ⟨k, hk⟩ := ((forall₂_iff_get.mp hcut).2 (headers.length - 1) (by omega)
    (by omega)).part
  have hmarked := payloads_marked f w.nal w.maxPayload hload
  rw [decide_eq_true (by omega)] at hmarked
  have hlast : headers.get ⟨headers.length - 1, by omega⟩ = headers.getLast hne :=
    (getLast_eq_getElem hne).symm
  have hfinal : ∀ r buffer,
      (reassemblerPush f r (headers.getLast hne) buffer).2.2 ≠ .incomplete := by
    intro r buffer
    rw [hlast] at hk
    rcases payloads_last hf h (mem_of_getElem? hload) hmarked with hnal | ⟨data, hdata⟩
    · rw [hnal] at hk
      exact reassemblerPush_last [] hf h.1 (.inl hk)
    · rw [hdata] at hk
      exact reassemblerPush_last data hf h.1 (.inr hk)
  refine ⟨(feed f r buffer headers.dropLast).2, _, ?_,
    hfinal (feed f r buffer headers.dropLast).1.1 (feed f r buffer headers.dropLast).1.2⟩
  have hsplit := feed_append f r buffer headers.dropLast [headers.getLast hne]
  rw [dropLast_append_getLast hne] at hsplit
  rw [hsplit]
  rfl

theorem cut_fragments_lt {nal xs : List UInt8} {fuStart : Bool} {m n : ℕ} {headers : List RtpHeader}
    (hf : f.Lawful) (hbig : packetLenMax < rtpHeaderSize + (f.fuHeaderSize + m))
    (hall : xs.length ≤ m * (n + 1)) (hlast : m * n < xs.length)
    (hcut : List.Forall₂ CutPayload (f.fragments nal fuStart (Cut.cut m (n + 1) xs)) headers) :
    (headers.map (fun header => header.payload.length)).sum + n * 4294967290 ≤
      xs.length + 3 := by
  have hle := hf.header_le
  have hfu : f.fuHeaderSize = f.headerSize + 1 := rfl
  induction n generalizing xs fuStart headers with
  | zero =>
    rw [Nat.zero_add, Nat.mul_one] at hall
    cases hcut with
    | cons hfirst hrest =>
      cases hrest
      have hlen := hfirst.length_le
      rw [length_append, hf.length_fuHeader, length_take] at hlen
      rw [map_singleton, sum_singleton]
      omega
  | succ n ih =>
    have hmul : m * (n + 1) = m * n + m := Nat.mul_succ _ _
    have hmul' : m * (n + 1 + 1) = m * (n + 1) + m := Nat.mul_succ _ _
    have hdrop : (xs.drop m).length = xs.length - m := length_drop
    have htake : (xs.take m).length = m := by
      have := Nat.zero_le (m * n)
      rw [length_take]
      omega
    cases hcut with
    | cons hfirst hrest =>
      have hlen := hfirst.short
      rw [length_append, hf.length_fuHeader, htake] at hlen
      have hrest := ih (by omega) (by omega) hrest
      have := hlen hbig
      rw [map_cons, sum_cons]
      omega

/-- **Packets that lost their ends do not hold the NAL unit.** -/
theorem cut_payloads_lt {headers : List RtpHeader} (hf : f.Lawful) (h : w.Accepted f)
    (hbig : packetLenMax < rtpHeaderSize + min w.nal.length w.maxPayload)
    (hcut : List.Forall₂ CutPayload (f.payloads w.nal w.maxPayload) headers) :
    (headers.map (fun header => header.payload.length)).sum < w.nal.length := by
  have hmax : packetLenMax = 2147483647 := rfl
  have hsize : rtpHeaderSize = 12 := rfl
  rw [payloads] at hcut
  split_ifs at hcut with hfits
  · cases hcut with
    | cons hfirst hrest =>
      cases hrest
      have hshort := hfirst.short (by dsimp only; omega)
      dsimp only at hshort
      rw [map_singleton, sum_singleton]
      omega
  · have hlong : w.maxPayload < w.nal.length := Nat.lt_of_not_le hfits
    obtain ⟨n, hcount, hall, hlast⟩ := pieces_bounds hf h hlong
    have hmin := h.2.2 hlong
    have hfu : f.fuHeaderSize = f.headerSize + 1 := rfl
    rw [pieces, hcount] at hcut
    have hsum := cut_fragments_lt hf (by omega) hall hlast hcut
    rw [length_drop] at hall hlast hsum
    have htwo : n ≠ 0 := by
      rintro rfl
      rw [Nat.zero_add, Nat.mul_one] at hall
      omega
    omega

end TurboMedia.Rtsp
