import TurboMedia.DataChannel.Channels

/-!
# What a channel means on both sides

The channel type and the parameter of an `OPEN`, the two limits of a configuration and the
policy that SCTP is asked for are four spellings of one notion.

**Input.**  Any label and configuration that a channel can be created with, and any byte
string that a peer takes for an `OPEN`.
-/

namespace TurboMedia.DataChannel

open List Peer Option ChannelConfig

open Bytes

section Limits

variable {x : Int32} {parameter : UInt32}

theorem int32_eq_zero (hneg : ¬ x < 0) (hpos : ¬ 0 < x) : x = 0 := by
  rw [Int32.lt_iff_toInt_lt] at hneg hpos
  apply Int32.toInt_inj.mp
  omega

theorem toUInt32_le_intMax (h : 0 < x) : ¬ intMax < x.toUInt32 := by
  have hle : x.toUInt32.toNat = x.toNatClampNeg :=
    Int32.toNat_toUInt32_of_le (Int32.le_of_lt h)
  have hbound : x.toInt < 2 ^ 31 := Int32.toInt_lt x
  rw [UInt32.lt_iff_toNat_lt, hle, Int32.toNatClampNeg]
  change ¬ 2147483647 < x.toInt.toNat
  omega

/-- The conversion to `int` of a parameter that fits. -/
theorem toInt_toInt32 (h : ¬ intMax < parameter) : parameter.toInt32.toInt = parameter.toNat := by
  have hle : parameter.toNat ≤ 2147483647 := by
    exact Nat.le_of_not_lt h
  change BitVec.toInt parameter.toBitVec = _
  rw [BitVec.toInt_eq_toNat_of_lt (by change 2 * parameter.toNat < 2 ^ 32; omega)]
  rfl

/-- A parameter that fits an `int` is a limit unless it is zero. -/
theorem toInt32_pos_iff (h : ¬ intMax < parameter) : 0 < parameter.toInt32 ↔ parameter ≠ 0 := by
  rw [Int32.lt_iff_toInt_lt, toInt_toInt32 h, ne_eq, ← UInt32.toNat_inj]
  change (0 : ℤ) < _ ↔ ¬ _ = 0
  omega

theorem toInt32_not_neg (h : ¬ intMax < parameter) : ¬ parameter.toInt32 < 0 := by
  rw [Int32.lt_iff_toInt_lt, toInt_toInt32 h]
  change ¬ (_ : ℤ) < 0
  omega

end Limits

def channelTypes : List UInt8 :=
  [0x00, 0x01, 0x02, 0x80, 0x81, 0x82]

theorem mem_channelTypes (channelType : UInt8)
    (hboth : reliabilityBits channelType ≠ channelRexmit ||| channelTimed)
    (hother : channelType &&& ~~~(channelUnordered ||| channelRexmit ||| channelTimed) = 0) :
    channelType ∈ channelTypes := by
  have hall : ∀ v : BitVec 8, reliabilityBits (UInt8.ofBitVec v) ≠ channelRexmit ||| channelTimed →
      UInt8.ofBitVec v &&& ~~~(channelUnordered ||| channelRexmit ||| channelTimed) = 0 →
      UInt8.ofBitVec v ∈ channelTypes := by
    decide
  exact hall channelType.toBitVec hboth hother

/-- The byte that the ordering of a configuration contributes to the channel type. -/
def orderingByte (ordered : Bool) : UInt8 :=
  if ordered then 0 else channelUnordered

theorem orderingByte_or {channelType : UInt8} (h : channelType ∈ channelTypes) :
    orderingByte (channelType &&& channelUnordered == 0) ||| reliabilityBits channelType =
      channelType := by
  have hall : ∀ channelType ∈ channelTypes,
      orderingByte (channelType &&& channelUnordered == 0) ||| reliabilityBits channelType =
        channelType := by
    decide +kernel
  exact hall channelType h

/-- What `openConfig` can return. -/
theorem openConfig_some {channelType : UInt8} {parameter : UInt32} {config : ChannelConfig}
    (h : openConfig channelType parameter = some config) :
    channelType ∈ channelTypes ∧
      (reliabilityBits channelType = channelRexmit ∧ ¬ intMax < parameter ∧
          config = ⟨channelType &&& channelUnordered == 0, parameter.toInt32, 0⟩ ∨
        reliabilityBits channelType = channelTimed ∧ ¬ intMax < parameter ∧
          config = ⟨channelType &&& channelUnordered == 0, 0, parameter.toInt32⟩ ∨
        reliabilityBits channelType = 0 ∧
          config = ⟨channelType &&& channelUnordered == 0, 0, 0⟩) := by
  rw [openConfig] at h
  split at h
  · exact absurd h (by simp)
  next hknown =>
    push Not at hknown
    have htype := mem_channelTypes channelType hknown.1 hknown.2
    refine ⟨htype, ?_⟩
    split at h
    next hbits =>
      split at h
      · exact absurd h (by simp)
      next hfits => exact .inl ⟨hbits, hfits, (some.inj h).symm⟩
    next hrexmit =>
      split at h
      next hbits =>
        split at h
        · exact absurd h (by simp)
        next hfits => exact .inr (.inl ⟨hbits, hfits, (some.inj h).symm⟩)
      next htimed =>
        refine .inr (.inr ⟨?_, (some.inj h).symm⟩)
        have hall : ∀ channelType ∈ channelTypes, reliabilityBits channelType ≠ channelRexmit →
            reliabilityBits channelType ≠ channelTimed →
            reliabilityBits channelType = 0 := by
          decide +kernel
        exact hall channelType htype hrexmit htimed

/-- What the type and the parameter of an `OPEN` denote. -/
def denotedPolicy (channelType : UInt8) (parameter : UInt32) : ReliabilityPolicy :=
  if reliabilityBits channelType = channelRexmit then .retransmissions parameter
  else if reliabilityBits channelType = channelTimed then .lifetime parameter
  else .reliable

section Encoding

variable {config : ChannelConfig}

theorem isValid_iff :
    config.isValid = true ↔ ¬ config.maxRetransmits < 0 ∧ ¬ config.maxLifetimeMs < 0 ∧
        (0 < config.maxRetransmits → ¬ 0 < config.maxLifetimeMs) := by
  rw [isValid]
  simp only [Bool.not_eq_true', Bool.or_eq_false_iff, Bool.and_eq_false_iff,
    decide_eq_false_iff_not]
  tauto

/-- What `dcep_send_open` writes for a valid configuration. -/
theorem openParameters_cases (h : config.isValid = true) :
    (0 < config.maxRetransmits ∧ config.maxLifetimeMs = 0 ∧
        openParameters config = some (orderingByte config.ordered ||| channelRexmit,
          config.maxRetransmits.toUInt32)) ∨ (config.maxRetransmits = 0 ∧ 0 < config.maxLifetimeMs ∧
        openParameters config = some (orderingByte config.ordered ||| channelTimed,
          config.maxLifetimeMs.toUInt32)) ∨ (config.maxRetransmits = 0 ∧ config.maxLifetimeMs = 0 ∧
        openParameters config = some (orderingByte config.ordered, 0)) := by
  obtain ⟨hretransmits, hlifetime, hone⟩ := isValid_iff.mp h
  by_cases hr : 0 < config.maxRetransmits
  · refine .inl ⟨hr, int32_eq_zero hlifetime (hone hr), ?_⟩
    simp [openParameters, h, hr, orderingByte]
  · have hr0 := int32_eq_zero hretransmits hr
    by_cases hl : 0 < config.maxLifetimeMs
    · refine .inr (.inl ⟨hr0, hl, ?_⟩)
      simp [openParameters, h, hr, hl, orderingByte]
    · refine .inr (.inr ⟨hr0, int32_eq_zero hlifetime hl, ?_⟩)
      simp [openParameters, h, hr, hl, orderingByte]

theorem openConfig_rexmit (ordered : Bool) {parameter : UInt32} (h : ¬ intMax < parameter) :
    openConfig (orderingByte ordered ||| channelRexmit) parameter =
      some ⟨ordered, parameter.toInt32, 0⟩ := by
  cases ordered <;> exact if_neg h

theorem openConfig_timed (ordered : Bool) {parameter : UInt32} (h : ¬ intMax < parameter) :
    openConfig (orderingByte ordered ||| channelTimed) parameter =
      some ⟨ordered, 0, parameter.toInt32⟩ := by
  cases ordered <;> exact if_neg h

theorem openConfig_reliable (ordered : Bool) (parameter : UInt32) :
    openConfig (orderingByte ordered) parameter = some ⟨ordered, 0, 0⟩ := by
  cases ordered <;> rfl

/-- What `dcep_send_open` writes for a configuration stands for that configuration. -/
theorem openConfig_openParameters (h : config.isValid = true) :
    ∃ channelType parameter, openParameters config = some (channelType, parameter) ∧
      openConfig channelType parameter = some config := by
  rcases config with ⟨ordered, retransmits, lifetime⟩
  rcases openParameters_cases h with
    ⟨hpos, rfl, heq⟩ | ⟨rfl, hpos, heq⟩ | ⟨rfl, rfl, heq⟩
  · exact ⟨_, _, heq, openConfig_rexmit ordered (toUInt32_le_intMax hpos)⟩
  · exact ⟨_, _, heq, openConfig_timed ordered (toUInt32_le_intMax hpos)⟩
  · exact ⟨_, _, heq, openConfig_reliable ordered 0⟩

theorem reliabilityBits_orderingByte (ordered : Bool) :
    reliabilityBits (orderingByte ordered) = 0 := by
  cases ordered <;> rfl

/-- A type and a parameter are written back as they were read, and SCTP is asked for what they
denote, when the parameter is zero for the types without a limit and for no others. -/
theorem reencode_iff {channelType : UInt8} {parameter : UInt32}
    (h : openConfig channelType parameter = some config) :
    (openParameters config = some (channelType, parameter) ∧
        config.sendPolicy = some (denotedPolicy channelType parameter)) ↔
      (parameter = 0 ↔ reliabilityBits channelType = 0) := by
  obtain ⟨htype, hcases⟩ := openConfig_some h
  have hbyte := orderingByte_or htype
  generalize (channelType &&& channelUnordered == 0) = ordered at hbyte hcases
  have hreliable : openParameters ⟨ordered, 0, 0⟩ = some (channelType, parameter) →
      reliabilityBits channelType = 0 := by
    intro heq
    have hwritten : orderingByte ordered = channelType :=
      congrArg Prod.fst (some.inj heq)
    rw [← hwritten, reliabilityBits_orderingByte]
  have hzero : ¬ (0 : Int32) < 0 := by decide
  rcases hcases with ⟨hbits, hfits, rfl⟩ | ⟨hbits, hfits, rfl⟩ | ⟨hbits, rfl⟩
  · rw [hbits] at hbyte hreliable ⊢
    by_cases hparameter : parameter = 0
    · subst hparameter
      exact iff_of_false (fun hboth => absurd (hreliable hboth.1) (by decide)) (by decide)
    · have hlimit := (toInt32_pos_iff hfits).mpr hparameter
      have hvalid : isValid ⟨ordered, parameter.toInt32, 0⟩ = true :=
        isValid_iff.mpr ⟨toInt32_not_neg hfits, hzero, fun _ => hzero⟩
      refine iff_of_true ⟨?_, ?_⟩ (iff_of_false hparameter (by decide))
      · rw [openParameters, if_neg (by simp [hvalid]), if_pos hlimit]
        exact congrArg some (Prod.ext hbyte rfl)
      · rw [sendPolicy, if_neg (by simp [hvalid]), if_pos hlimit, denotedPolicy,
          if_pos hbits]
        rfl
  · rw [hbits] at hbyte hreliable ⊢
    by_cases hparameter : parameter = 0
    · subst hparameter
      exact iff_of_false (fun hboth => absurd (hreliable hboth.1) (by decide)) (by decide)
    · have hlimit := (toInt32_pos_iff hfits).mpr hparameter
      have hvalid : isValid ⟨ordered, 0, parameter.toInt32⟩ = true :=
        isValid_iff.mpr ⟨hzero, toInt32_not_neg hfits, fun h => absurd h hzero⟩
      refine iff_of_true ⟨?_, ?_⟩ (iff_of_false hparameter (by decide))
      · rw [openParameters, if_neg (by simp [hvalid]), if_neg hzero, if_pos hlimit]
        exact congrArg some (Prod.ext hbyte rfl)
      · rw [sendPolicy, if_neg (by simp [hvalid]), if_neg hzero, if_pos hlimit,
          denotedPolicy, if_neg (by rw [hbits]; decide), if_pos hbits]
        rfl
  · have hor : orderingByte ordered = channelType := by
      rw [hbits] at hbyte
      rw [← hbyte]
      cases ordered <;> rfl
    have hwritten : openParameters ⟨ordered, 0, 0⟩ = some (channelType, 0) :=
      congrArg (fun byte => some (byte, (0 : UInt32))) hor
    have hpolicy : sendPolicy ⟨ordered, 0, 0⟩ =
        some (denotedPolicy channelType parameter) := by
      rw [denotedPolicy, hbits]
      rfl
    rw [hwritten, hpolicy, hbits]
    simp [eq_comm]

end Encoding

section Packets

variable {request : OpenRequest} {packet : List UInt8}

theorem openPacket_isSome_iff (hvalid : request.config.isValid = true) :
    (openPacket request).isSome = true ↔ request.label.length + request.protocol.length ≤ 500 := by
  obtain ⟨channelType, parameter, hwritten, -⟩ := openConfig_openParameters hvalid
  rw [openPacket, hwritten]
  split
  next hlong =>
    have hover : 512 < 12 + request.label.length + request.protocol.length := hlong
    simp only [isSome_none, Bool.false_eq_true, false_iff]
    omega
  next hshort =>
    have hfits : ¬ 512 < 12 + request.label.length + request.protocol.length := hshort
    simp only [map_some, isSome_some, true_iff]
    omega

/-- A request as `dc_channel_create_owner_impl` accepts it. -/
def OpenRequest.Accepted (request : OpenRequest) : Prop :=
  request.label.length ≤ 256 ∧ request.protocol.length ≤ 256 ∧
    dcepTextValid request.label = true ∧ dcepTextValid request.protocol = true ∧
    request.config.isValid = true

theorem createRequest_accepted {label : List UInt8} {config : Option (ChannelConfig × List UInt8)}
    (h : createRequest label config = some request) : request.Accepted := by
  unfold createRequest at h
  dsimp only at h
  split at h
  · exact absurd h (by simp)
  next hfits =>
    push Not at hfits
    obtain ⟨hlabel, hprot, hlabelText, hprotocolText⟩ := hfits
    simp only [ne_eq, Bool.not_eq_false] at hlabelText hprotocolText
    split at h
    · cases h
      exact ⟨hlabel, hprot, hlabelText, hprotocolText, rfl⟩
    next config protocol =>
      split at h
      next hvalid =>
        cases h
        exact ⟨hlabel, hprot, hlabelText, hprotocolText, hvalid⟩
      next hinv => exact absurd h (by simp)

/-- The packet of a request is taken for an `OPEN` with the same request, on a stream of the
parity that the receiver expects. -/
theorem readDcep_openPacket (hacc : request.Accepted)
    (hpkt : openPacket request = some packet) {isDtlsServer : Bool} {streamId : UInt16}
    (hparity : decide (streamId &&& 1 = 0) = isDtlsServer) :
    readDcep isDtlsServer streamId packet = .opening request := by
  obtain ⟨hlabel, hprot, hlabelText, hprotocolText, hvalid⟩ := hacc
  obtain ⟨channelType, parameter, hwritten, hcfg⟩ := openConfig_openParameters hvalid
  rw [openPacket, hwritten] at hpkt
  split at hpkt
  · exact absurd hpkt (by simp)
  next hshort =>
    rw [map_some, some.injEq] at hpkt
    let head : List UInt8 := [dataChannelOpen, channelType, 0, 0]
    have hshape : packet = head ++ (writeU32 parameter ++
        (writeU16 (UInt16.ofNat request.label.length) ++
          (writeU16 (UInt16.ofNat request.protocol.length) ++
            (request.label ++ request.protocol)))) := by
      rw [← hpkt]
      simp [head]
    have hlabelNat : (UInt16.ofNat request.label.length).toNat = request.label.length := by
      rw [UInt16.toNat_ofNat']
      exact Nat.mod_eq_of_lt (by omega)
    have hprotocolNat :
        (UInt16.ofNat request.protocol.length).toNat = request.protocol.length := by
      rw [UInt16.toNat_ofNat']
      exact Nat.mod_eq_of_lt (by omega)
    have htype : u8At packet 1 = channelType := by
      rw [hshape]
      rfl
    have hparameter : readU32 packet 4 = parameter := by
      rw [hshape]
      exact (readU32_append_right head _ 0).trans (readU32_write parameter _)
    have hlabelLen : readU16 packet 8 = UInt16.ofNat request.label.length := by
      rw [hshape, ← append_assoc]
      exact (readU16_append_right (head ++ writeU32 parameter) _ 0).trans (readU16_write _ _)
    have hprotocolLen : readU16 packet 10 = UInt16.ofNat request.protocol.length := by
      rw [hshape, ← append_assoc, ← append_assoc]
      exact (readU16_append_right (head ++ writeU32 parameter ++
        writeU16 (UInt16.ofNat request.label.length)) _ 0).trans (readU16_write _ _)
    have hlen : packet.length = 12 + request.label.length + request.protocol.length := by
      rw [hshape]
      simp [head]
      omega
    have hdrop : packet.drop dcepHeaderLength = request.label ++ request.protocol := by
      rw [hshape]
      rfl
    have hdropLabel :
        packet.drop (dcepHeaderLength + request.label.length) = request.protocol := by
      rw [← drop_drop, hdrop, drop_left]
    have hread : readOpen isDtlsServer streamId packet = some request := by
      simp only [readOpen, hlabelLen, hprotocolLen, hlabelNat, hprotocolNat, hdrop, hdropLabel,
        take_left, take_length, htype, hparameter, hcfg]
      rw [if_neg, if_neg, if_neg]
      · rfl
      · simp [hparity]
      · simp [hlabelText, hprotocolText]
      · simp only [maxLabelLen, maxProtocolLen, hlen, dcepHeaderLength]
        omega
    have hcons : packet = dataChannelOpen :: packet.tail := by
      rw [hshape]
      rfl
    rw [readDcep.eq_def, hcons]
    dsimp only
    rw [← hcons, if_pos ⟨rfl, by rw [hlen]; simp only [dcepHeaderLength]; omega⟩, hread]

end Packets

variable {p q : Peer} {id : UInt16} {request : OpenRequest}

/-- The peer takes a new channel on a stream. -/
def Peer.Admits (q : Peer) (id : UInt16) : Prop :=
  q.destroying = false ∧ q.hasSocket = true ∧ id ∉ q.channelIds ∧ q.getChannel id = none

theorem createChannel_some
    {label : List UInt8} {config : Option (ChannelConfig × List UInt8)} {memory : Bool}
    {c : Channel} (h : (p.createChannel label config memory).channel? p.records.length = some c) :
    createRequest label config = some c.request ∧ p.allocChannelId = some c.id := by
  have hnone : p.channel? p.records.length = none := by
    rw [channel?, getElem?_eq_none (Nat.le_refl _)]
    rfl
  rw [createChannel] at h
  split at h
  · exact absurd (hnone.symm.trans h) (by simp)
  · split at h
    next request id hreq halloc =>
      split at h
      · change (p.records ++ [some (Channel.blank id request 0)])[p.records.length]?.join =
          some c at h
        rw [channel?_append, if_pos rfl, some.injEq] at h
        subst h
        exact ⟨hreq, halloc⟩
      · exact absurd (hnone.symm.trans h) (by simp)
    · exact absurd (hnone.symm.trans h) (by simp)

/-- An accepted `OPEN` whose `ACK` is taken makes a channel with its request. -/
theorem handleOpen_channel (h : q.Admits id) :
    ∃ c, (q.handleOpen id request true true).channel? q.records.length = some c ∧
      c.id = id ∧ c.request = request ∧ c.isOpen = true := by
  obtain ⟨hdestroying, hsocket, hfree, hnone⟩ := h
  let c : Channel := .blank id request 1
  have hrsv : (q.reserve id request).channel? q.records.length = some c :=
    (channel?_append q.records (some c) q.records.length).trans (if_pos rfl)
  have hlt : q.records.length < (q.reserve id request).records.length :=
    channel?_lt hrsv
  rw [handleOpen, if_neg (by simp [hdestroying, hfree, hnone]), if_pos (by simp [hsocket]),
    commitOpen, hrsv]
  dsimp only
  rw [if_pos ⟨rfl, hdestroying⟩]
  let opened : Peer :=
    (((q.reserve id request).note [.ackAccepted q.records.length]).setChannel q.records.length
      { c with isOpen := true }).note [.opens q.records.length]
  have hopened : opened.channel? q.records.length = some { c with isOpen := true } := by
    exact (channel?_setChannel (p := (q.reserve id request).note _) hlt).trans (if_pos rfl)
  split
  · exact ⟨_, hopened, rfl, rfl, rfl⟩
  · change ∃ c, (opened.afterOnChannel q.records.length).channel? _ = some c ∧ _
    have hrel : opened.afterOnChannel q.records.length =
        opened.release q.records.length := by
      rw [afterOnChannel, hopened]
      simp [c, Channel.blank, callOnOpen]
    rw [hrel, release_open hopened rfl]
    exact ⟨_, (channel?_setChannel (channel?_lt hopened)).trans (if_pos rfl), rfl, rfl, rfl⟩

/-- **The meaning of a channel.**  A channel that was created is announced, and comes out the
same at a peer of the other role that takes it, when its label and protocol have at most 500
bytes together.  An `OPEN` that was accepted is written back with its type and parameter, and
its policy is the one it denotes, when its parameter is zero for the types without a limit and
for no others. -/
theorem dcep_meaning_iff (p q : Peer) :
    (∀ (label : List UInt8) (config : Option (ChannelConfig × List UInt8)) (memory : Bool)
      (c : Channel),
      (p.createChannel label config memory).channel? p.records.length = some c →
      q.isDtlsServer = !p.isDtlsServer → q.Admits c.id →
      ((∃ packet, openPacket c.request = some packet ∧
          ∃ c', (q.handleDcep c.id packet true true).channel? q.records.length = some c' ∧
            c'.id = c.id ∧ c'.request = c.request) ↔
        c.request.label.length + c.request.protocol.length ≤ 500)) ∧
      ∀ (isDtlsServer : Bool) (streamId : UInt16) (data : List UInt8) (request : OpenRequest),
        readDcep isDtlsServer streamId data = .opening request →
        ((openParameters request.config = some (u8At data 1, readU32 data 4) ∧
            request.config.sendPolicy = some (denotedPolicy (u8At data 1) (readU32 data 4))) ↔
          (readU32 data 4 = 0 ↔ reliabilityBits (u8At data 1) = 0)) := by
  constructor
  · intro label config memory c hcreated hrole hadmits
    obtain ⟨hrequest, halloc⟩ := createChannel_some hcreated
    have haccepted := createRequest_accepted hrequest
    have hroom := openPacket_isSome_iff haccepted.2.2.2.2
    constructor
    · rintro ⟨packet, hpacket, -⟩
      exact hroom.mp (by rw [hpacket]; rfl)
    · intro hshort
      obtain ⟨packet, hpacket⟩ := isSome_iff_exists.mp (hroom.mpr hshort)
      have hparity := allocChannelId_parity halloc
      rw [← hrole] at hparity
      have hread := readDcep_openPacket haccepted hpacket hparity
      obtain ⟨c', hc', hid, hsame, -⟩ := handleOpen_channel hadmits
      refine ⟨packet, hpacket, c', ?_, hid, hsame⟩
      rw [handleDcep, hread]
      exact hc'
  · intro isDtlsServer streamId data request hread
    apply reencode_iff
    exact (readDcep_opening hread).2

theorem dcep_meaning_default :
    ∃ packet c', openPacket ⟨[0x61], [], defaultChannelConfig⟩ = some packet ∧
      ((Peer.create true false).handleDcep 0 packet true true).channel? 0 = some c' ∧
      c'.request = ⟨[0x61], [], defaultChannelConfig⟩ := by
  obtain ⟨packet, hpacket, c', hc', -, hsame⟩ :=
    ((dcep_meaning_iff (.create false false) (.create true false)).1 [0x61] none true
      (.blank 0 ⟨[0x61], [], defaultChannelConfig⟩ 0) rfl rfl
      ⟨rfl, rfl, by decide, rfl⟩).mpr (by decide)
  exact ⟨packet, c', hpacket, hc', hsame⟩

/-- A channel whose label and protocol have the greatest lengths is created and cannot be
announced; an `OPEN` with no retransmissions makes a channel with unlimited ones. -/
theorem dcep_meaning_lost :
    (∃ c, ((Peer.create false false).createChannel (replicate 256 0x61)
        (some (defaultChannelConfig, replicate 256 0x61)) true).channel? 0 = some c ∧
      openPacket c.request = none) ∧
      ∃ request, readDcep false 1 [0x03, 0x01, 0, 0, 0, 0, 0, 0, 0, 0, 0, 0] = .opening request ∧
        openParameters request.config = some (0, 0) ∧
        request.config.sendPolicy = some .reliable := by
  have htext : ∀ n, dcepTextValid (replicate n 0x61) = true := by
    intro n
    induction n with
    | zero => rfl
    | succ n ih =>
      rw [replicate_succ, dcepTextValid.eq_def]
      exact (if_pos (by decide : (0x61 : UInt8) ≤ 0x7f)).trans ih
  have hrequest : createRequest (replicate 256 0x61)
      (some (defaultChannelConfig, replicate 256 0x61)) =
        some ⟨replicate 256 0x61, replicate 256 0x61, defaultChannelConfig⟩ := by
    simp only [createRequest, map_some, getD_some, htext, length_replicate]
    rfl
  refine ⟨⟨.blank 0 ⟨replicate 256 0x61, replicate 256 0x61, defaultChannelConfig⟩ 0,
    ?_, ?_⟩, ⟨[], [], true, 0, 0⟩, rfl, rfl, rfl⟩
  · rw [createChannel, if_neg (by decide), hrequest]
    rfl
  · simp only [openPacket, Channel.blank, length_replicate]
    rfl

end TurboMedia.DataChannel
