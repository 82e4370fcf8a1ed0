import TurboMedia.Rtsp.NalFormat

/-!
# Laws of the payload formats

What the packetizers write is read back, for H.264 and for H.265.

* `VideoFormat.Lawful.parse_nal`: a NAL unit that a packetizer accepts is read as itself.
* `VideoFormat.Lawful.parse_fragment`: a fragment is read back with its bits and its data, and
  the header that is rebuilt from it is the header of the NAL unit.
* `VideoFormat.Lawful.parse_cut`: a fragment that lost its end is not read as anything else.
* `VideoCodec.lawful`: the two formats satisfy the laws.

The bit fields are checked on all values of a byte.
-/

namespace TurboMedia.Rtsp

open List Option

open Bytes

/-- The laws that the proofs about packetizers and reassemblers use. -/
structure VideoFormat.Lawful (f : VideoFormat) : Prop where
  header_pos : 0 < f.headerSize
  header_le : f.headerSize ≤ 2
  length_fuHeader : ∀ nal fuStart fuEnd,
    (f.fuHeader nal fuStart fuEnd).length = f.fuHeaderSize
  accepts_length : ∀ {nal}, f.accepts nal = true → f.headerSize ≤ nal.length
  parse_nal : ∀ {nal}, f.accepts nal = true → f.payloadParse nal = some (.single nal)
  parse_nal_cut : ∀ {nal k payload}, f.accepts nal = true →
    f.payloadParse (nal.take k) = some payload → payload = .single (nal.take k)
  parse_fragment : ∀ {nal}, f.accepts nal = true → ∃ type, ∀ {fuStart fuEnd data},
    (fuStart && fuEnd) = false → data ≠ [] → f.payloadParse (f.fuHeader nal fuStart fuEnd ++ data) =
        some (.fragment fuStart fuEnd type (nal.take f.headerSize) data)
  parse_cut : ∀ {nal fuStart fuEnd data k payload}, f.accepts nal = true →
    f.payloadParse ((f.fuHeader nal fuStart fuEnd ++ data).take k) = some payload →
      ∃ type header rest, payload = .fragment fuStart fuEnd type header rest
  parse_single : ∀ {payload nal}, f.payloadParse payload = some (.single nal) → nal = payload
  parse_length : ∀ {payload fuStart fuEnd type header data},
    f.payloadParse payload = some (.fragment fuStart fuEnd type header data) →
      header.length + data.length ≤ payload.length

section H264

variable {nal data : List UInt8} {fuStart fuEnd : Bool}

theorem h264_bits :
    ∀ (byte : Fin 256) (fuStart fuEnd : Bool),
      (UInt8.ofNat byte.val >>> 7 = 0 → ((UInt8.ofNat byte.val &&& 0xe0) ||| 28) >>> 7 = 0) ∧
      h264NalType ((UInt8.ofNat byte.val &&& 0xe0) ||| 28) = 28 ∧
      h264NalType (h264NalType (UInt8.ofNat byte.val) ||| fuBits fuStart fuEnd) =
        h264NalType (UInt8.ofNat byte.val) ∧
      decide ((h264NalType (UInt8.ofNat byte.val) ||| fuBits fuStart fuEnd) >>> 7 &&& 0x01 ≠ 0) =
        fuStart ∧
      decide ((h264NalType (UInt8.ofNat byte.val) ||| fuBits fuStart fuEnd) >>> 6 &&& 0x01 ≠ 0) =
        fuEnd ∧ (h264NalType (UInt8.ofNat byte.val) ||| fuBits fuStart fuEnd) >>> 5 &&& 0x01 = 0 ∧
      (((UInt8.ofNat byte.val &&& 0xe0) ||| 28) &&& 0xe0) |||
        h264NalType (UInt8.ofNat byte.val) = UInt8.ofNat byte.val := by
  decide +kernel

theorem h264_accepts_iff :
    h264Format.accepts nal = true ↔ nal ≠ [] ∧ u8At nal 0 >>> 7 = 0 ∧
        h264IsSingleNalType (h264NalType (u8At nal 0)) = true := by
  rw [h264Format]
  rw [Bool.and_eq_true, Bool.and_eq_true, decide_eq_true_iff, decide_eq_true_iff, and_assoc]

theorem h264_parse_fuHeader (h : h264Format.accepts nal = true) (data : List UInt8) :
    h264PayloadParse (h264Format.fuHeader nal fuStart fuEnd ++ data) =
      if (fuStart && fuEnd) = true then none
      else some (.fragment fuStart fuEnd (h264NalType (u8At nal 0)) (nal.take 1) data) := by
  obtain ⟨hne, hforbidden, hsingle⟩ := h264_accepts_iff.mp h
  obtain ⟨hbit, htype, hfuType, hstart, hend, hrsv, hhdr⟩ :=
    h264_bits ⟨_, (u8At nal 0).toNat_lt⟩ fuStart fuEnd
  rw [UInt8.ofNat_toNat] at hbit htype hfuType hstart hend hrsv hhdr
  have htake : nal.take 1 = [u8At nal 0] := by
    cases nal with
    | nil => exact absurd rfl hne
    | cons b rest => rfl
  have hbyte0 : u8At (h264Format.fuHeader nal fuStart fuEnd ++ data) 0 =
      (u8At nal 0 &&& 0xe0) ||| 28 := rfl
  have hbyte1 : u8At (h264Format.fuHeader nal fuStart fuEnd ++ data) 1 =
      h264NalType (u8At nal 0) ||| fuBits fuStart fuEnd := rfl
  have hdrop : (h264Format.fuHeader nal fuStart fuEnd ++ data).drop 2 = data := rfl
  have hlen : ¬ (h264Format.fuHeader nal fuStart fuEnd ++ data).length < 2 := by
    rw [length_append]
    exact Nat.not_lt.mpr (Nat.le_add_right 2 _)
  have hcons : h264Format.fuHeader nal fuStart fuEnd ++ data ≠ [] := cons_ne_nil _ _
  have hfu : h264IsSingleNalType 28 = false := by decide
  rw [h264PayloadParse, hbyte0, hbyte1, hdrop, htype, hbit hforbidden, if_neg hcons]
  generalize h264NalType (u8At nal 0) ||| fuBits fuStart fuEnd = fu at hfuType hstart hend hrsv
  subst hstart hend
  simp only [hfu, hlen, hfuType, hrsv, hsingle, hhdr, htake, ne_eq, not_true_eq_false,
    if_false, if_true, Bool.false_eq_true, false_or, or_false, Bool.true_eq_false,
    Bool.and_eq_true, decide_eq_true_eq]
  rw [if_neg (by decide)]

theorem u8At_take {nal : List UInt8} {k i : ℕ} (h : i < k) : u8At (nal.take k) i = u8At nal i := by
  unfold u8At
  rw [getD_eq_getElem?_getD, getD_eq_getElem?_getD, getElem?_take_of_lt h]

theorem h264PayloadParse_cases {payload : List UInt8} {parsed : NalPayload}
    (h : h264PayloadParse payload = some parsed) :
    h264IsSingleNalType (h264NalType (u8At payload 0)) = true ∧ parsed = .single payload ∨
      2 ≤ payload.length ∧ parsed = .aggregation ∨ 2 ≤ payload.length ∧ ∃ fuStart fuEnd type header,
        parsed = .fragment fuStart fuEnd type [header] (payload.drop 2) := by
  unfold h264PayloadParse at h
  dsimp only at h
  split_ifs at h with hnil hbit hsingle haggregation hlen hfrag hlen' hfields
  · exact .inl ⟨hsingle, (some.inj h).symm⟩
  · exact .inr (.inl ⟨by omega, (some.inj h).symm⟩)
  · exact .inr (.inr ⟨by omega, _, _, _, _, (some.inj h).symm⟩)

theorem h264Format_parse :
    h264Format.payloadParse = h264PayloadParse :=
  rfl

theorem h264_lawful : h264Format.Lawful where
  header_pos := by decide
  header_le := by decide
  length_fuHeader := by
    intro nal fuStart fuEnd
    rfl
  accepts_length := by
    intro nal h
    exact length_pos_of_ne_nil (h264_accepts_iff.mp h).1
  parse_nal := by
    intro nal h
    obtain ⟨hne, hbit, hsingle⟩ := h264_accepts_iff.mp h
    rw [h264Format_parse, h264PayloadParse, if_neg hne, if_neg (not_not.mpr hbit), if_pos hsingle]
  parse_nal_cut := by
    intro nal k payload h hparse
    obtain ⟨hne, hbit, hsingle⟩ := h264_accepts_iff.mp h
    cases k with
    | zero => cases hparse
    | succ k =>
      have hcut : nal.take (k + 1) ≠ [] := by
        rw [ne_eq, take_eq_nil_iff, not_or]
        exact ⟨Nat.succ_ne_zero k, hne⟩
      rw [h264Format_parse, h264PayloadParse, if_neg hcut, u8At_take (Nat.succ_pos k),
        if_neg (not_not.mpr hbit), if_pos hsingle] at hparse
      exact (some.inj hparse).symm
  parse_fragment := by
    intro nal h
    refine ⟨h264NalType (u8At nal 0), ?_⟩
    intro fuStart fuEnd data hbits hdata
    rw [h264Format_parse, h264_parse_fuHeader h, hbits]
    rfl
  parse_cut := by
    intro nal fuStart fuEnd data k payload h hparse
    rw [h264Format_parse] at hparse
    obtain _ | _ | k := k
    · cases hparse
    · obtain ⟨_, htype, _⟩ := h264_bits ⟨_, (u8At nal 0).toNat_lt⟩ fuStart fuEnd
      rw [UInt8.ofNat_toNat] at htype
      rcases h264PayloadParse_cases hparse with ⟨hsingle, _⟩ | ⟨hlen, _⟩ | ⟨hlen, _⟩
      · have hbyte : u8At ((h264Format.fuHeader nal fuStart fuEnd ++ data).take 1) 0 =
            (u8At nal 0 &&& 0xe0) ||| 28 := rfl
        rw [hbyte, htype] at hsingle
        exact absurd hsingle (by decide)
      · exact absurd (hlen.trans (length_take_le 1 _)) (by decide)
      · exact absurd (hlen.trans (length_take_le 1 _)) (by decide)
    · have hcut : (h264Format.fuHeader nal fuStart fuEnd ++ data).take (k + 2) =
          h264Format.fuHeader nal fuStart fuEnd ++ data.take k := rfl
      rw [hcut] at hparse
      rw [h264_parse_fuHeader h] at hparse
      split_ifs at hparse
      exact ⟨_, _, _, (some.inj hparse).symm⟩
  parse_single := by
    intro payload nal h
    rcases h264PayloadParse_cases h with
      ⟨_, hparsed⟩ | ⟨_, hparsed⟩ | ⟨_, _, _, _, _, hparsed⟩
    · cases hparsed
      rfl
    · cases hparsed
    · cases hparsed
  parse_length := by
    intro payload fuStart fuEnd type header data h
    rcases h264PayloadParse_cases h with
      ⟨_, hparsed⟩ | ⟨_, hparsed⟩ | ⟨_, _, _, _, _, hparsed⟩
    · cases hparsed
    · cases hparsed
    · cases hparsed
      rw [length_drop, length_singleton]
      omega

end H264

section H265

variable {nal data : List UInt8} {fuStart fuEnd : Bool}

theorem h265_bits :
    ∀ (byte : Fin 256) (fuStart fuEnd : Bool), (UInt8.ofNat byte.val >>> 7 = 0 →
        ((UInt8.ofNat byte.val &&& 0x81) ||| (49 : UInt8) <<< (1 : UInt8)) >>> 7 = 0) ∧
      h265NalType ((UInt8.ofNat byte.val &&& 0x81) ||| (49 : UInt8) <<< (1 : UInt8)) = 49 ∧
      (h265NalType (UInt8.ofNat byte.val) ||| fuBits fuStart fuEnd) &&& 0x3f =
        h265NalType (UInt8.ofNat byte.val) ∧
      decide ((h265NalType (UInt8.ofNat byte.val) ||| fuBits fuStart fuEnd) >>> 7 &&& 0x01 ≠ 0) =
        fuStart ∧
      decide ((h265NalType (UInt8.ofNat byte.val) ||| fuBits fuStart fuEnd) >>> 6 &&& 0x01 ≠ 0) =
        fuEnd ∧ (((UInt8.ofNat byte.val &&& 0x81) ||| (49 : UInt8) <<< (1 : UInt8)) &&& 0x81) |||
        h265NalType (UInt8.ofNat byte.val) <<< (1 : UInt8) = UInt8.ofNat byte.val := by
  decide +kernel

theorem h265Format_parse :
    h265Format.payloadParse = h265PayloadParse :=
  rfl

theorem h265HeaderValid_iff :
    h265HeaderValid nal = true ↔ u8At nal 0 >>> 7 = 0 ∧ u8At nal 1 &&& 0x07 ≠ 0 := by
  rw [h265HeaderValid, Bool.and_eq_true, decide_eq_true_iff, decide_eq_true_iff]

theorem h265_accepts_iff :
    h265Format.accepts nal = true ↔ 2 ≤ nal.length ∧ h265HeaderValid nal = true ∧
        h265IsSingleNalType (h265NalType (u8At nal 0)) = true := by
  rw [h265Format]
  rw [Bool.and_eq_true, Bool.and_eq_true, decide_eq_true_iff, and_assoc]

theorem h265_parse_fuHeader (h : h265Format.accepts nal = true) (data : List UInt8) :
    h265PayloadParse (h265Format.fuHeader nal fuStart fuEnd ++ data) =
      if (fuStart && fuEnd) = true ∨ data = [] then none
      else some (.fragment fuStart fuEnd (h265NalType (u8At nal 0)) (nal.take 2) data) := by
  obtain ⟨hnal, hvalid, hsingle⟩ := h265_accepts_iff.mp h
  obtain ⟨hforbidden, htid⟩ := h265HeaderValid_iff.mp hvalid
  obtain ⟨hbit, htype, hfuType, hstart, hend, hhdr⟩ :=
    h265_bits ⟨_, (u8At nal 0).toNat_lt⟩ fuStart fuEnd
  rw [UInt8.ofNat_toNat] at hbit htype hfuType hstart hend hhdr
  have htake : nal.take 2 = [u8At nal 0, u8At nal 1] := by
    obtain _ | ⟨b, _ | ⟨c, rest⟩⟩ := nal
    · cases hnal
    · exact absurd hnal (Nat.lt_irrefl 1)
    · rfl
  have hbyte0 : u8At (h265Format.fuHeader nal fuStart fuEnd ++ data) 0 =
      (u8At nal 0 &&& 0x81) ||| (49 : UInt8) <<< (1 : UInt8) := rfl
  have hbyte1 : u8At (h265Format.fuHeader nal fuStart fuEnd ++ data) 1 = u8At nal 1 := rfl
  have hbyte2 : u8At (h265Format.fuHeader nal fuStart fuEnd ++ data) 2 =
      h265NalType (u8At nal 0) ||| fuBits fuStart fuEnd := rfl
  have hdrop : (h265Format.fuHeader nal fuStart fuEnd ++ data).drop 3 = data := rfl
  have hlen : (h265Format.fuHeader nal fuStart fuEnd ++ data).length = data.length + 3 := rfl
  have hfu : h265IsSingleNalType 49 = false := by decide
  have hfuValid : h265HeaderValid (h265Format.fuHeader nal fuStart fuEnd ++ data) = true := by
    rw [h265HeaderValid_iff, hbyte0, hbyte1]
    exact ⟨hbit hforbidden, htid⟩
  have hempty : data.length + 3 < 4 ↔ data = [] := by
    rw [← length_eq_zero_iff]
    omega
  have hnone : data.length + 3 - 3 = 0 ↔ data = [] := by
    rw [← length_eq_zero_iff]
    omega
  rw [h265PayloadParse, hbyte0, hbyte1, hbyte2, hdrop, htype, hfuValid, hlen]
  generalize h265NalType (u8At nal 0) ||| fuBits fuStart fuEnd = fu at hfuType hstart hend
  subst hstart hend
  simp only [hfu, hfuType, hsingle, hhdr, htake, hempty, hnone, ne_eq, if_false, if_true,
    Bool.false_eq_true, false_or, Bool.true_eq_false, Bool.and_eq_true, decide_eq_true_eq]
  rw [if_neg (by omega), if_neg (by decide)]
  by_cases hdata : data = []
  · rw [if_pos hdata, if_pos (.inr hdata)]
  · rw [if_neg hdata]

theorem h265PayloadParse_cases {payload : List UInt8} {parsed : NalPayload}
    (h : h265PayloadParse payload = some parsed) :
    2 ≤ payload.length ∧ h265IsSingleNalType (h265NalType (u8At payload 0)) = true ∧
        parsed = .single payload ∨ 4 ≤ payload.length ∧ parsed = .aggregation ∨
      4 ≤ payload.length ∧ ∃ fuStart fuEnd type header0 header1,
        parsed = .fragment fuStart fuEnd type [header0, header1] (payload.drop 3) := by
  unfold h265PayloadParse at h
  dsimp only at h
  split_ifs at h with hshort hbit hsingle haggregation hlen hfrag hlen' hfields
  · exact .inl ⟨by omega, hsingle, (some.inj h).symm⟩
  · exact .inr (.inl ⟨by omega, (some.inj h).symm⟩)
  · exact .inr (.inr ⟨by omega, _, _, _, _, _, (some.inj h).symm⟩)

theorem h265_lawful : h265Format.Lawful where
  header_pos := by decide
  header_le := by decide
  length_fuHeader := by
    intro nal fuStart fuEnd
    rfl
  accepts_length := by
    intro nal h
    exact (h265_accepts_iff.mp h).1
  parse_nal := by
    intro nal h
    obtain ⟨hlen, hvalid, hsingle⟩ := h265_accepts_iff.mp h
    rw [h265Format_parse, h265PayloadParse, if_neg (Nat.not_lt.mpr hlen), hvalid,
      if_neg Bool.true_eq_false.mp, if_pos hsingle]
  parse_nal_cut := by
    intro nal k payload h hparse
    obtain ⟨hlen, hvalid, hsingle⟩ := h265_accepts_iff.mp h
    rw [h265Format_parse] at hparse
    by_cases hk : k < 2
    · rw [h265PayloadParse, if_pos ((length_take_le k nal).trans_lt hk)] at hparse
      cases hparse
    · have hcut : ¬ (nal.take k).length < 2 := by
        rw [length_take]
        omega
      have hvalid' : h265HeaderValid (nal.take k) = true := by
        rw [h265HeaderValid_iff, u8At_take (by omega), u8At_take (by omega)]
        exact h265HeaderValid_iff.mp hvalid
      rw [h265PayloadParse, if_neg hcut, hvalid', if_neg Bool.true_eq_false.mp,
        u8At_take (by omega), if_pos hsingle] at hparse
      exact (some.inj hparse).symm
  parse_fragment := by
    intro nal h
    refine ⟨h265NalType (u8At nal 0), ?_⟩
    intro fuStart fuEnd data hbits hdata
    rw [h265Format_parse, h265_parse_fuHeader h, hbits, if_neg (by simp [hdata])]
    rfl
  parse_cut := by
    intro nal fuStart fuEnd data k payload h hparse
    rw [h265Format_parse] at hparse
    by_cases hk : 3 ≤ k
    · obtain ⟨m, rfl⟩ := Nat.exists_eq_add_of_le' hk
      have hcut : (h265Format.fuHeader nal fuStart fuEnd ++ data).take (m + 3) =
          h265Format.fuHeader nal fuStart fuEnd ++ data.take m := rfl
      rw [hcut, h265_parse_fuHeader h] at hparse
      split_ifs at hparse
      exact ⟨_, _, _, (some.inj hparse).symm⟩
    · have hlen : ((h265Format.fuHeader nal fuStart fuEnd ++ data).take k).length ≤ 2 :=
        (length_take_le k _).trans (by omega)
      rcases h265PayloadParse_cases hparse with ⟨hlen', hsingle, _⟩ | ⟨hlen', _⟩ | ⟨hlen', _⟩
      · obtain rfl : k = 2 := by
          have := hlen'.trans (length_take_le k _)
          omega
        obtain ⟨_, htype, _⟩ := h265_bits ⟨_, (u8At nal 0).toNat_lt⟩ fuStart fuEnd
        rw [UInt8.ofNat_toNat] at htype
        have hbyte : u8At ((h265Format.fuHeader nal fuStart fuEnd ++ data).take 2) 0 =
            (u8At nal 0 &&& 0x81) ||| (49 : UInt8) <<< (1 : UInt8) := rfl
        rw [hbyte, htype] at hsingle
        exact absurd hsingle (by decide)
      · omega
      · omega
  parse_single := by
    intro payload nal h
    rcases h265PayloadParse_cases h with
      ⟨_, _, hparsed⟩ | ⟨_, hparsed⟩ | ⟨_, _, _, _, _, _, hparsed⟩
    · cases hparsed
      rfl
    · cases hparsed
    · cases hparsed
  parse_length := by
    intro payload fuStart fuEnd type header data h
    rcases h265PayloadParse_cases h with
      ⟨_, _, hparsed⟩ | ⟨_, hparsed⟩ | ⟨_, _, _, _, _, _, hparsed⟩
    · cases hparsed
    · cases hparsed
    · cases hparsed
      rw [length_drop, length_cons, length_singleton]
      omega

end H265

/-- **The two formats satisfy the laws.** -/
theorem VideoCodec.lawful (codec : VideoCodec) : codec.format.Lawful := by
  cases codec with
  | h264 => exact h264_lawful
  | h265 => exact h265_lawful

end TurboMedia.Rtsp
