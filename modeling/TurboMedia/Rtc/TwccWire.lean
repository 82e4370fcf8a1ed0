import TurboMedia.Rtc.RtcpCompound
import TurboMedia.Rtc.TwccChunks

/-!
# Transport feedback on the wire

Model of `rtcp_compound_add_twcc` and `rtcp_parse_twcc`: the header, the status
chunks, the receive deltas in ticks of 250 microseconds, and padding to a
multiple of four bytes.

The encoder takes each delta from the exact time of the packet before and rounds
it; the decoder adds the rounded deltas.  Rounding errors therefore add up along
the list, and this module settles when a message survives the round trip.
-/

namespace TurboMedia.Twcc

open List Bytes
open Option hiding or_self

open Bytes (u8At join16 readU16 readU32 writeU16 writeU32)
open Rtcp (Compound)

/-- `RTCP_RTPFB_TWCC`. -/
def fmtTwcc : UInt8 := 15

/-- `(int64_t)` of an unsigned time. -/
def toInt64 (time : UInt64) : ℤ :=
  Int.bmod time.toNat (2 ^ 64)

/-- `(int16_t)` of a word. -/
def toInt16 (word : UInt16) : ℤ :=
  Int.bmod word.toNat (2 ^ 16)

/-- `div_round_nearest_i64`. -/
def divRoundNearest (value divisor : ℤ) : ℤ :=
  if value ≥ 0 then (value + divisor / 2) / divisor
  else -((-value + divisor / 2) / divisor)

def deltaSymbol (scaledDelta : ℤ) : Option Symbol :=
  if scaledDelta ≥ 0 ∧ scaledDelta ≤ 255 then some .smallDelta
  else if scaledDelta ≥ -32768 ∧ scaledDelta ≤ 32767 then some .largeDelta
  else none

/-- The first loop: symbol and delta of every packet, or an error when a delta
is out of range. -/
def encodeDeltas : UInt64 → List PacketStatus → Option (List (Symbol × ℤ))
  | _, [] => some []
  | prevRecvTimeUs, packet :: packets =>
    if packet.received then do
      let deltaUs := toInt64 packet.arrivalTimeUs - toInt64 prevRecvTimeUs
      let scaledDelta := divRoundNearest deltaUs deltaScaleUs
      let symbol ← deltaSymbol scaledDelta
      let more ← encodeDeltas packet.arrivalTimeUs packets
      some ((symbol, scaledDelta) :: more)
    else do
      let more ← encodeDeltas prevRecvTimeUs packets
      some ((.notReceived, 0) :: more)

def deltaBytes : Symbol × ℤ → List UInt8
  | (.smallDelta, delta) => [UInt8.ofInt delta]
  | (.largeDelta, delta) => writeU16 (UInt16.ofInt delta)
  | _ => []

def referenceTimeUs (referenceTime : UInt32) : UInt64 :=
  referenceTime.toUInt64 * UInt64.ofNat refTimeScaleUs

def header (twcc : Feedback) (paddedSize : ℕ) : List UInt8 :=
  [0x80 ||| fmtTwcc, Rtcp.rtpfb] ++
    writeU16 (UInt16.ofNat (paddedSize / 4 - 1)) ++
    writeU32 twcc.senderSsrc ++
    writeU32 twcc.mediaSsrc ++
    writeU16 twcc.baseSeq ++
    writeU16 (UInt16.ofNat twcc.packets.length) ++
    [((twcc.referenceTime >>> 16) &&& 0xFF).toUInt8, ((twcc.referenceTime >>> 8) &&& 0xFF).toUInt8,
      (twcc.referenceTime &&& 0xFF).toUInt8,
      twcc.fbPktCount]

/-- `(total_size + 3) & ~3`. -/
def paddedSize (totalSize : ℕ) : ℕ :=
  (totalSize + 3) / 4 * 4

def encodeTwcc (twcc : Feedback) : Option (List UInt8) := do
  let deltas ← encodeDeltas (referenceTimeUs twcc.referenceTime) twcc.packets
  let chunks ← buildStatusChunks twcc.packets.length (deltas.map Prod.fst)
  if chunks.length = 0 then none
  else
    let body := chunkBytes chunks ++ deltas.flatMap deltaBytes
    let totalSize := 20 + body.length
    some (header twcc (paddedSize totalSize) ++ body ++
      replicate (paddedSize totalSize - totalSize) 0)

/-- `rtcp_compound_add_twcc`; an error leaves the compound packet as it was. -/
def addTwcc (compound : Compound) (twcc : Feedback) : Option Compound :=
  if twcc.packets.length = 0 then none
  else if compound.remaining < 20 then none
  else if twcc.packets.length > maxPackets then none
  else do
    let packet ← encodeTwcc twcc
    compound.write packet

/-- Time after one more delta, unless it is negative. -/
def addDelta (prevRecvTimeUs : UInt64) (delta : ℤ) : Option UInt64 :=
  let arrivalTimeUs := toInt64 prevRecvTimeUs + delta * deltaScaleUs
  if arrivalTimeUs < 0 then none else some (UInt64.ofNat arrivalTimeUs.toNat)

/-- The delta of a received packet, and the bytes after it. -/
def takeDelta : Symbol → List UInt8 → Option (ℤ × List UInt8)
  | .smallDelta, byte :: bytes => some (byte.toNat, bytes)
  | .smallDelta, [] => none
  | _, hi :: lo :: bytes => some (toInt16 (join16 hi lo), bytes)
  | _, _ => none

/-- The delta loop: the arrival time of every symbol. -/
def parseDeltas : List Symbol → UInt64 → List UInt8 → Option (List UInt64)
  | [], _, _ => some []
  | symbol :: symbols, prevRecvTimeUs, bytes =>
    if symbol = .notReceived then do
      let more ← parseDeltas symbols prevRecvTimeUs bytes
      some (0 :: more)
    else do
      let (delta, bytes) ← takeDelta symbol bytes
      let arrivalTimeUs ← addDelta prevRecvTimeUs delta
      let more ← parseDeltas symbols arrivalTimeUs bytes
      some (arrivalTimeUs :: more)

/-- The entries for the symbols and times, from a sequence number on. -/
def packetStatuses : UInt16 → List Symbol → List UInt64 → List PacketStatus
  | seq, symbol :: symbols, time :: times =>
    ⟨seq, symbol ≠ .notReceived, time⟩ :: packetStatuses (seq + 1) symbols times
  | _, _, _ => []

/-- `rtcp_parse_twcc`. -/
def parseTwcc (buffer : List UInt8) : Option Feedback :=
  if buffer.length < 20 then none
  else if (u8At buffer 0 >>> 6) &&& 0x03 ≠ 2 ∨ u8At buffer 0 &&& 0x1F ≠ fmtTwcc ∨
      u8At buffer 1 ≠ Rtcp.rtpfb then
    none
  else
    let packetLen := ((readU16 buffer 2).toNat + 1) * 4
    if packetLen < 20 ∨ packetLen > buffer.length then none
    else
      let packetCount := readU16 buffer 14
      if packetCount.toNat > maxPackets then none
      else do
        let referenceTime := (u8At buffer 16).toUInt32 <<< 16 |||
          (u8At buffer 17).toUInt32 <<< 8 ||| (u8At buffer 18).toUInt32
        let baseSeq := readU16 buffer 12
        let (symbols, rest) ←
          parseChunks ((buffer.take packetLen).drop 20) packetCount.toNat
        let times ← parseDeltas symbols (referenceTimeUs (referenceTime &&& 0x00FFFFFF)) rest
        some
          { senderSsrc := readU32 buffer 4
            mediaSsrc := readU32 buffer 8
            baseSeq := baseSeq
            packetCount := packetCount
            referenceTime := referenceTime
            fbPktCount := u8At buffer 19
            packets := packetStatuses baseSeq symbols times }

/-- The packet keeps its number and flag, and when it was received its time
relative to the reference time is off by at most half a tick. -/
def SamePacket (twcc parsed : Feedback) (packet packet' : PacketStatus) : Prop :=
  packet'.seq = packet.seq ∧
  packet'.received = packet.received ∧
  (packet.received = true →
    |((packet'.arrivalTimeUs.toNat : ℤ) - parsed.referenceTime.toNat * refTimeScaleUs) -
      ((packet.arrivalTimeUs.toNat : ℤ) - twcc.referenceTime.toNat * refTimeScaleUs)| ≤ 125)

/-- The bytes are parsed back to the message they were made from. -/
structure ParsesBack (twcc parsed : Feedback) (bytes : List UInt8) : Prop where
  accepted : parseTwcc bytes = some parsed
  senderSsrc : parsed.senderSsrc = twcc.senderSsrc
  mediaSsrc : parsed.mediaSsrc = twcc.mediaSsrc
  baseSeq : parsed.baseSeq = twcc.baseSeq
  packetCount : parsed.packetCount.toNat = twcc.packets.length
  fbPktCount : parsed.fbPktCount = twcc.fbPktCount
  referenceTime : parsed.referenceTime.toNat = twcc.referenceTime.toNat % 2 ^ 24
  packets : List.Forall₂ (SamePacket twcc parsed) twcc.packets parsed.packets

/-- The message survives the round trip, and its length field counts its words. -/
def RoundTrips (twcc : Feedback) (bytes : List UInt8) : Prop :=
  (∃ parsed, ParsesBack twcc parsed bytes) ∧
  bytes.length % 4 = 0 ∧
  bytes.length = 4 * ((readU16 bytes 2).toNat + 1)

def roundingError (deltaUs : ℤ) : ℤ :=
  divRoundNearest deltaUs deltaScaleUs * deltaScaleUs - deltaUs

/-- The received packets, each with the sum of the rounding errors up to it; the
first argument is the time before and the second the sum before. -/
def withErrors : ℤ → ℤ → List PacketStatus → List (PacketStatus × ℤ)
  | _, _, [] => []
  | prevUs, error, packet :: packets =>
    if packet.received then
      let arrivalUs := toInt64 packet.arrivalTimeUs
      let error := error + roundingError (arrivalUs - prevUs)
      (packet, error) :: withErrors arrivalUs error packets
    else withErrors prevUs error packets

/-- Begin of the period of 2^24 reference ticks that a reference time lies in. -/
def epochUs (referenceTime : UInt32) : ℤ :=
  (referenceTime.toNat / 2 ^ 24 * 2 ^ 24 * refTimeScaleUs : ℕ)

/-- Along the message the rounding errors of the deltas sum up to at most half a
tick, and no packet comes before the begin of the reference period. -/
def Representable (twcc : Feedback) : Prop :=
  ∀ entry ∈ withErrors (toInt64 (referenceTimeUs twcc.referenceTime)) 0 twcc.packets,
    entry.1.arrivalTimeUs.toNat < 2 ^ 63 ∧
    |entry.2| ≤ 125 ∧
    epochUs twcc.referenceTime ≤ toInt64 entry.1.arrivalTimeUs + entry.2

def ValidDelta : Symbol × ℤ → Prop
  | (.notReceived, _) => True
  | (.smallDelta, delta) => 0 ≤ delta ∧ delta ≤ 255
  | (.largeDelta, delta) => -32768 ≤ delta ∧ delta ≤ 32767
  | (.reserved, _) => False

theorem deltaSymbol_spec {scaledDelta : ℤ} {symbol : Symbol}
    (h : deltaSymbol scaledDelta = some symbol) :
    ValidDelta (symbol, scaledDelta) ∧ symbol ≠ .notReceived ∧
      -32768 ≤ scaledDelta ∧ scaledDelta ≤ 32767 := by
  unfold deltaSymbol at h
  split_ifs at h with hsmall hlarge
  · obtain rfl := some.inj h
    exact ⟨hsmall, by decide, by omega, by omega⟩
  · obtain rfl := some.inj h
    exact ⟨hlarge, by decide, hlarge.1, hlarge.2⟩

variable {prev : UInt64} {packets : List PacketStatus} {deltas : List (Symbol × ℤ)}

theorem encodeDeltas_cons {packet : PacketStatus}
    (h : encodeDeltas prev (packet :: packets) = some deltas) :
    (packet.received = false ∧
      ∃ more, encodeDeltas prev packets = some more ∧ deltas = (.notReceived, 0) :: more) ∨
    (packet.received = true ∧ ∃ symbol more, deltaSymbol (divRoundNearest
          (toInt64 packet.arrivalTimeUs - toInt64 prev) deltaScaleUs) = some symbol ∧
        encodeDeltas packet.arrivalTimeUs packets = some more ∧ deltas = (symbol, divRoundNearest
          (toInt64 packet.arrivalTimeUs - toInt64 prev) deltaScaleUs) :: more) := by
  rw [encodeDeltas] at h
  split_ifs at h with hrecv
  · right
    simp only [bind_eq_bind, bind_eq_some_iff, some.injEq] at h
    obtain ⟨symbol, hsymbol, more, hmore, rfl⟩ := h
    exact ⟨hrecv, symbol, more, hsymbol, hmore, rfl⟩
  · left
    simp only [bind_eq_bind, bind_eq_some_iff, some.injEq] at h
    obtain ⟨more, hmore, rfl⟩ := h
    exact ⟨by simpa using hrecv, more, hmore, rfl⟩

theorem encodeDeltas_spec (h : encodeDeltas prev packets = some deltas) :
    (∀ entry ∈ deltas, ValidDelta entry) ∧
      List.Forall₂ (fun packet symbol => decide (symbol ≠ Symbol.notReceived) = packet.received)
        packets (deltas.map Prod.fst) := by
  induction packets generalizing prev deltas with
  | nil =>
    rw [encodeDeltas, some.injEq] at h
    subst h
    exact ⟨by simp, .nil⟩
  | cons packet packets ih =>
    rcases encodeDeltas_cons h with ⟨hmissing, more, hmore, rfl⟩ |
      ⟨hrecv, symbol, more, hsymbol, hmore, rfl⟩
    · obtain ⟨hvalid, hflags⟩ := ih hmore
      refine ⟨?_, .cons (by simp [hmissing]) hflags⟩
      intro entry hmem
      rcases mem_cons.mp hmem with rfl | hmem
      · trivial
      · exact hvalid entry hmem
    · obtain ⟨hvalid, hflags⟩ := ih hmore
      obtain ⟨hrange, hne, _⟩ := deltaSymbol_spec hsymbol
      refine ⟨?_, .cons (by simp [hrecv, hne]) hflags⟩
      intro entry hmem
      rcases mem_cons.mp hmem with rfl | hmem
      · exact hrange
      · exact hvalid entry hmem

/-- The delta loop on symbols and deltas in place of bytes. -/
def addDeltas : UInt64 → List (Symbol × ℤ) → Option (List UInt64)
  | _, [] => some []
  | prevRecvTimeUs, (symbol, delta) :: deltas =>
    if symbol = .notReceived then do
      let more ← addDeltas prevRecvTimeUs deltas
      some (0 :: more)
    else do
      let arrivalTimeUs ← addDelta prevRecvTimeUs delta
      let more ← addDeltas arrivalTimeUs deltas
      some (arrivalTimeUs :: more)

variable {delta : ℤ}

theorem byte_of_delta (hlow : 0 ≤ delta) (hhigh : delta ≤ 255) :
    ((UInt8.ofInt delta).toNat : ℤ) = delta := by
  rw [UInt8.ofInt, UInt8.toNat_ofNat']
  omega

theorem word_of_delta (hlow : -32768 ≤ delta) (hhigh : delta ≤ 32767) :
    toInt16 (UInt16.ofInt delta) = delta := by
  have hword : ((UInt16.ofInt delta).toNat : ℤ) = delta % (2 ^ 16 : ℕ) := by
    rw [UInt16.ofInt, UInt16.toNat_ofNat']
    omega
  have hbmod := Int.emod_bmod delta (2 ^ 16)
  rw [← hword] at hbmod
  refine hbmod.trans (Int.bmod_eq_of_le ?_ ?_)
  · omega
  · omega

theorem takeDelta_bytes {symbol : Symbol} (hvalid : ValidDelta (symbol, delta))
    (hne : symbol ≠ .notReceived) (rest : List UInt8) :
    takeDelta symbol (deltaBytes (symbol, delta) ++ rest) = some (delta, rest) := by
  cases symbol with
  | notReceived => exact absurd rfl hne
  | smallDelta =>
    change some (((UInt8.ofInt delta).toNat : ℤ), rest) = some (delta, rest)
    rw [byte_of_delta hvalid.1 hvalid.2]
  | largeDelta =>
    change some (toInt16 (join16 (UInt16.ofInt delta >>> 8).toUInt8
      (UInt16.ofInt delta &&& 0xFF).toUInt8), rest) = some (delta, rest)
    rw [join16_split, word_of_delta hvalid.1 hvalid.2]
  | reserved => exact absurd hvalid id

theorem parseDeltas_bytes (hvalid : ∀ entry ∈ deltas, ValidDelta entry)
    (prev : UInt64) (rest : List UInt8) :
    parseDeltas (deltas.map Prod.fst) prev (deltas.flatMap deltaBytes ++ rest) =
      addDeltas prev deltas := by
  induction deltas generalizing prev with
  | nil => simp only [map_nil, parseDeltas, addDeltas]
  | cons entry deltas ih =>
    obtain ⟨symbol, delta⟩ := entry
    have htail := fun prev => ih (fun entry hmem => hvalid entry (by simp [hmem])) prev
    rw [map_cons, flatMap_cons, append_assoc, parseDeltas, addDeltas]
    by_cases hne : symbol = .notReceived
    · subst hne
      have hempty : deltaBytes (.notReceived, delta) = [] := rfl
      rw [if_pos rfl, if_pos rfl, hempty, nil_append, htail]
    · rw [if_neg hne, if_neg hne, takeDelta_bytes (hvalid (symbol, delta) (by simp)) hne,
        bind_eq_bind, bind_some]
      dsimp only
      cases addDelta prev delta with
      | none => rw [bind_eq_bind, bind_none, bind_eq_bind, bind_none]
      | some time =>
        rw [bind_eq_bind, bind_some, htail, bind_eq_bind, bind_some]

variable {time : UInt64}

theorem toInt64_small (h : time.toNat < 2 ^ 63) : toInt64 time = time.toNat := by
  apply Int.bmod_eq_of_le
  · omega
  · omega

theorem toInt64_large (h : 2 ^ 63 ≤ time.toNat) :
    toInt64 time = (time.toNat : ℤ) - (2 ^ 64 : ℕ) := by
  have hlt := time.toNat_lt
  refine (Int.sub_bmod_right _ _).symm.trans (Int.bmod_eq_of_le ?_ ?_)
  · omega
  · omega

theorem addDelta_spec (hprev : prev.toNat < 2 ^ 62) (hhigh : delta ≤ 32767) :
    (addDelta prev delta = none ∧ (prev.toNat : ℤ) + delta * deltaScaleUs < 0) ∨
    (∃ time, addDelta prev delta = some time ∧
      (time.toNat : ℤ) = prev.toNat + delta * deltaScaleUs) := by
  unfold addDelta deltaScaleUs
  rw [toInt64_small (by omega)]
  dsimp only
  split_ifs with hneg
  · exact Or.inl ⟨rfl, hneg⟩
  · refine Or.inr ⟨_, rfl, ?_⟩
    rw [UInt64.toNat_ofNat']
    omega

variable {error epoch : ℤ}

/-- One delta moves the decoded time to the time of the packet, up to the sum of
the rounding errors and the begin of the reference period. -/
theorem addDelta_step {prev' : UInt64} {arrivalUs prevUs rounding scaledDelta : ℤ} {n step : ℕ}
    (hprev : (prev'.toNat : ℤ) = prevUs + error - epoch)
    (hscaled : scaledDelta * deltaScaleUs = arrivalUs - prevUs + rounding)
    (hhigh : scaledDelta ≤ 32767) (hstep : 32767 * deltaScaleUs ≤ step)
    (hbound : prev'.toNat + (n * step + step) < 2 ^ 62) :
    (addDelta prev' scaledDelta = none ∧ arrivalUs + (error + rounding) < epoch) ∨
    (∃ time, addDelta prev' scaledDelta = some time ∧
      (time.toNat : ℤ) = arrivalUs + (error + rounding) - epoch ∧
      time.toNat + n * step < 2 ^ 62) := by
  have hmul := mul_le_mul_of_nonneg_right hhigh (Int.natCast_nonneg deltaScaleUs)
  have hprev' : prev'.toNat < 2 ^ 62 := by omega
  have hadd := addDelta_spec hprev' hhigh
  rw [hscaled] at hadd hmul
  rcases hadd with ⟨hnone, hneg⟩ | ⟨time, hsome, htime⟩
  · exact Or.inl ⟨hnone, by omega⟩
  · exact Or.inr ⟨time, hsome, by omega, by omega⟩

/-- Arrival times that are off by at most half a tick. -/
def CloseTime (baseUs referenceUs : ℤ) (packet : PacketStatus) (time : UInt64) : Prop :=
  packet.received = true →
    |((time.toNat : ℤ) - baseUs) - ((packet.arrivalTimeUs.toNat : ℤ) - referenceUs)| ≤ 125

/-- One time is close exactly if the sum of the errors is small and the packet is
not dated by a wrapped clock. -/
theorem closeTime_iff {baseUs referenceUs : ℤ} {packet : PacketStatus}
    (hrecv : packet.received = true) (hbase : baseUs + epoch = referenceUs)
    (hepoch : epoch < 2 ^ 60)
    (htime : (time.toNat : ℤ) = toInt64 packet.arrivalTimeUs + error - epoch)
    (hbound : time.toNat < 2 ^ 62) :
    CloseTime baseUs referenceUs packet time ↔
      packet.arrivalTimeUs.toNat < 2 ^ 63 ∧ |error| ≤ 125 := by
  rw [CloseTime, forall_prop_of_true hrecv]
  rcases Nat.lt_or_ge packet.arrivalTimeUs.toNat (2 ^ 63) with hsmall | hlarge
  · have herr : ((time.toNat : ℤ) - baseUs) -
        ((packet.arrivalTimeUs.toNat : ℤ) - referenceUs) = error := by
      rw [toInt64_small hsmall] at htime
      omega
    rw [herr]
    exact ⟨fun h => ⟨hsmall, h⟩, fun h => h.2⟩
  · rw [toInt64_large hlarge] at htime
    constructor
    · intro hclose
      rw [abs_le] at hclose
      omega
    · rintro ⟨hsmall, _⟩
      omega

/-- The decoded times are close exactly if the sums of the errors stay small. -/
theorem addDeltas_close_iff {prev' : UInt64}
    {baseUs referenceUs : ℤ} (h : encodeDeltas prev packets = some deltas)
    (hbase : baseUs + epoch = referenceUs) (hepoch : epoch < 2 ^ 60)
    (hprev : (prev'.toNat : ℤ) = toInt64 prev + error - epoch) {step : ℕ}
    (hstep : 32767 * deltaScaleUs ≤ step) (hbound : prev'.toNat + packets.length * step < 2 ^ 62) :
    (∃ times, addDeltas prev' deltas = some times ∧
      List.Forall₂ (CloseTime baseUs referenceUs) packets times) ↔
    ∀ entry ∈ withErrors (toInt64 prev) error packets,
      entry.1.arrivalTimeUs.toNat < 2 ^ 63 ∧ |entry.2| ≤ 125 ∧
        epoch ≤ toInt64 entry.1.arrivalTimeUs + entry.2 := by
  induction packets generalizing prev prev' deltas error with
  | nil =>
    rw [encodeDeltas, some.injEq] at h
    subst h
    simp [addDeltas, withErrors]
  | cons packet packets ih =>
    rw [length_cons, Nat.succ_mul] at hbound
    rcases encodeDeltas_cons h with ⟨hmissing, more, hmore, rfl⟩ |
      ⟨hrecv, symbol, more, hsymbol, hmore, rfl⟩
    · have hbound' : prev'.toNat + packets.length * step < 2 ^ 62 := by omega
      have htail := ih hmore hprev hbound'
      rw [withErrors, if_neg (by simp [hmissing]), ← htail, addDeltas, if_pos rfl]
      simp only [bind_eq_bind, bind_eq_some_iff, some.injEq]
      constructor
      · rintro ⟨_, ⟨times, htimes, rfl⟩, hclose⟩
        exact ⟨times, htimes, (forall₂_cons.mp hclose).2⟩
      · rintro ⟨times, htimes, hclose⟩
        refine ⟨_, ⟨times, htimes, rfl⟩, .cons ?_ hclose⟩
        intro hrecv
        simp [hmissing] at hrecv
    · obtain ⟨_, hne, _, hhigh⟩ := deltaSymbol_spec hsymbol
      have herr : divRoundNearest
          (toInt64 packet.arrivalTimeUs - toInt64 prev) deltaScaleUs * deltaScaleUs =
            toInt64 packet.arrivalTimeUs - toInt64 prev +
              roundingError (toInt64 packet.arrivalTimeUs - toInt64 prev) := by
        rw [roundingError, add_sub_cancel]
      rw [withErrors, if_pos hrecv, addDeltas, if_neg hne]
      simp only [bind_eq_bind, bind_eq_some_iff, some.injEq, forall_mem_cons]
      rcases addDelta_step hprev herr hhigh hstep hbound with
        ⟨hnone, hneg⟩ | ⟨time, hsome, htime, hbound'⟩
      · rw [hnone]
        constructor
        · rintro ⟨_, ⟨_, ⟨⟩, _⟩, _⟩
        · rintro ⟨⟨_, _, hlow⟩, _⟩
          exact absurd hlow (not_le.mpr hneg)
      · have hlow : epoch ≤ toInt64 packet.arrivalTimeUs +
            (error + roundingError (toInt64 packet.arrivalTimeUs - toInt64 prev)) := by
          rw [← sub_nonneg, ← htime]
          exact Int.natCast_nonneg _
        have hhead := closeTime_iff hrecv hbase hepoch htime
          (lt_of_le_of_lt (Nat.le_add_right _ _) hbound')
        have htail := ih hmore htime hbound'
        rw [hsome, ← htail]
        constructor
        · rintro ⟨_, ⟨_, heq, times, htimes, rfl⟩, hclose⟩
          obtain rfl := some.inj heq
          obtain ⟨hfirst, hrest⟩ := forall₂_cons.mp hclose
          obtain ⟨hdate, hsmall⟩ := hhead.mp hfirst
          exact ⟨⟨hdate, hsmall, hlow⟩, times, htimes, hrest⟩
        · rintro ⟨⟨hdate, hsmall, _⟩, times, htimes, hrest⟩
          exact ⟨_, ⟨time, rfl, times, htimes, rfl⟩, .cons (hhead.mpr ⟨hdate, hsmall⟩) hrest⟩

variable {twcc : Feedback} {bytes : List UInt8}

theorem header_length (twcc : Feedback) (size : ℕ) : (header twcc size).length = 20 := by
  rfl

theorem encodeTwcc_parts (h : encodeTwcc twcc = some bytes) :
    ∃ deltas chunks body,
      encodeDeltas (referenceTimeUs twcc.referenceTime) twcc.packets = some deltas ∧
      buildStatusChunks twcc.packets.length (deltas.map Prod.fst) = some chunks ∧
      body = chunkBytes chunks ++ deltas.flatMap deltaBytes ∧
      bytes = header twcc (paddedSize (20 + body.length)) ++ body ++
        replicate (paddedSize (20 + body.length) - (20 + body.length)) 0 := by
  unfold encodeTwcc at h
  simp only [bind_eq_bind, bind_eq_some_iff] at h
  obtain ⟨deltas, hdeltas, chunks, hchunks, h⟩ := h
  split_ifs at h with hempty
  exact ⟨deltas, chunks, _, hdeltas, hchunks, rfl, (some.inj h).symm⟩

theorem deltaBytes_length (entry : Symbol × ℤ) : (deltaBytes entry).length ≤ 2 := by
  obtain ⟨symbol, delta⟩ := entry
  cases symbol with
  | notReceived | reserved => exact Nat.zero_le 2
  | smallDelta => exact Nat.le_succ 1
  | largeDelta => exact le_rfl

theorem flatMap_deltaBytes_length (deltas : List (Symbol × ℤ)) :
    (deltas.flatMap deltaBytes).length ≤ deltas.length * 2 := by
  induction deltas with
  | nil => exact le_rfl
  | cons entry deltas ih =>
    have hent := deltaBytes_length entry
    rw [flatMap_cons, length_append, length_cons]
    omega

theorem referenceTime_bytes (time : UInt32) :
    ((time >>> 16) &&& 0xFF).toUInt8.toUInt32 <<< 16 |||
        ((time >>> 8) &&& 0xFF).toUInt8.toUInt32 <<< 8 ||| (time &&& 0xFF).toUInt8.toUInt32 =
      time &&& 0x00FFFFFF := by
  have hmask : ∀ word : UInt32, (word &&& 0xFF).toUInt8.toNat = word.toNat % 2 ^ 8 := by
    intro word
    rw [UInt32.toNat_toUInt8, UInt32.toNat_and]
    change (word.toNat &&& (2 ^ 8 - 1)) % 2 ^ 8 = _
    rw [Nat.and_two_pow_sub_one_eq_mod, Nat.mod_mod]
  have hjoin : ∀ a b c : UInt8, a.toUInt32 <<< 16 ||| b.toUInt32 <<< 8 ||| c.toUInt32 =
      join32 0 a b c := by
    intro a b c
    simp [join32]
  apply UInt32.toNat_inj.mp
  rw [hjoin, join32_toNat, hmask, hmask, hmask, UInt32.toNat_shiftRight,
    UInt32.toNat_shiftRight, UInt32.toNat_and]
  change 0 * 2 ^ 24 + time.toNat >>> 16 % 2 ^ 8 * 2 ^ 16 + time.toNat >>> 8 % 2 ^ 8 * 2 ^ 8 +
    time.toNat % 2 ^ 8 = time.toNat &&& (2 ^ 24 - 1)
  rw [Nat.and_two_pow_sub_one_eq_mod, Nat.shiftRight_eq_div_pow, Nat.shiftRight_eq_div_pow]
  omega

/-- What the parser reads from the first 20 bytes of a message. -/
structure HeaderFields (twcc : Feedback) (size : ℕ) (bytes : List UInt8) : Prop where
  type : (u8At bytes 0 >>> 6) &&& 0x03 = 2 ∧ u8At bytes 0 &&& 0x1F = fmtTwcc ∧
    u8At bytes 1 = Rtcp.rtpfb
  length : readU16 bytes 2 = UInt16.ofNat (size / 4 - 1)
  senderSsrc : readU32 bytes 4 = twcc.senderSsrc
  mediaSsrc : readU32 bytes 8 = twcc.mediaSsrc
  baseSeq : readU16 bytes 12 = twcc.baseSeq
  packetCount : readU16 bytes 14 = UInt16.ofNat twcc.packets.length
  referenceTime : (u8At bytes 16).toUInt32 <<< 16 ||| (u8At bytes 17).toUInt32 <<< 8 |||
    (u8At bytes 18).toUInt32 = twcc.referenceTime &&& 0x00FFFFFF
  fbPktCount : u8At bytes 19 = twcc.fbPktCount

theorem header_fields (twcc : Feedback) (size : ℕ) (rest : List UInt8) :
    HeaderFields twcc size (header twcc size ++ rest) where
  type := by
    have hfirst : u8At (header twcc size ++ rest) 0 = 0x80 ||| fmtTwcc := rfl
    rw [hfirst]
    exact ⟨by decide, by decide, rfl⟩
  length := join16_split _
  senderSsrc := join32_split _
  mediaSsrc := join32_split _
  baseSeq := join16_split _
  packetCount := join16_split _
  referenceTime := referenceTime_bytes twcc.referenceTime
  fbPktCount := rfl

theorem encoded_size {body : List UInt8} (hbody : body.length ≤ 32768)
    (h : bytes = header twcc (paddedSize (20 + body.length)) ++ body ++
      replicate (paddedSize (20 + body.length) - (20 + body.length)) 0) :
    bytes.length % 4 = 0 ∧ 20 ≤ bytes.length ∧
      bytes.length = 4 * ((readU16 bytes 2).toNat + 1) := by
  have hlen : bytes.length = paddedSize (20 + body.length) := by
    rw [h, length_append, length_append, header_length, length_replicate, paddedSize]
    omega
  have hfield : readU16 bytes 2 = UInt16.ofNat (paddedSize (20 + body.length) / 4 - 1) := by
    rw [h, append_assoc]
    exact (header_fields twcc _ _).length
  rw [hfield, UInt16.toNat_ofNat', hlen, paddedSize]
  omega

/-- What the parser makes of an encoded message and the times it computes. -/
def readBack (twcc : Feedback) (deltas : List (Symbol × ℤ)) (times : List UInt64) : Feedback :=
  { senderSsrc := twcc.senderSsrc
    mediaSsrc := twcc.mediaSsrc
    baseSeq := twcc.baseSeq
    packetCount := UInt16.ofNat twcc.packets.length
    referenceTime := twcc.referenceTime &&& 0x00FFFFFF
    fbPktCount := twcc.fbPktCount
    packets := packetStatuses twcc.baseSeq (deltas.map Prod.fst) times }

theorem parseTwcc_encoded
    {deltas : List (Symbol × ℤ)} {chunks : List (BitVec 16)} {body : List UInt8}
    (hcount : twcc.packets.length ≤ maxPackets)
    (hdeltas : encodeDeltas (referenceTimeUs twcc.referenceTime) twcc.packets = some deltas)
    (hchunks : buildStatusChunks twcc.packets.length (deltas.map Prod.fst) = some chunks)
    (hbody : body = chunkBytes chunks ++ deltas.flatMap deltaBytes)
    (hbytes : bytes = header twcc (paddedSize (20 + body.length)) ++ body ++
      replicate (paddedSize (20 + body.length) - (20 + body.length)) 0)
    (hsize : 20 ≤ bytes.length ∧ bytes.length = 4 * ((readU16 bytes 2).toNat + 1)) :
    parseTwcc bytes = (addDeltas (referenceTimeUs (twcc.referenceTime &&& 0x00FFFFFF)) deltas).map
        (readBack twcc deltas) := by
  obtain ⟨hvalid, hflags⟩ := encodeDeltas_spec hdeltas
  have hlen : (deltas.map Prod.fst).length = twcc.packets.length := hflags.length_eq.symm
  have hrsv : Symbol.reserved ∉ deltas.map Prod.fst := by
    intro hmem
    obtain ⟨⟨symbol, delta⟩, hent, rfl⟩ := mem_map.mp hmem
    exact hvalid _ hent
  have hhdr : HeaderFields twcc (paddedSize (20 + body.length)) bytes := by
    rw [hbytes, append_assoc]
    exact header_fields twcc _ _
  have hcountNat : (readU16 bytes 14).toNat = twcc.packets.length := by
    rw [maxPackets] at hcount
    rw [hhdr.packetCount, UInt16.toNat_ofNat', Nat.mod_eq_of_lt (by omega)]
  have hload : (bytes.take (((readU16 bytes 2).toNat + 1) * 4)).drop 20 =
      chunkBytes chunks ++ (deltas.flatMap deltaBytes ++
        replicate (paddedSize (20 + body.length) - (20 + body.length)) 0) := by
    rw [take_of_length_le (by omega), hbytes, append_assoc,
      drop_left' (header_length twcc _), hbody, append_assoc]
  have hparsed := parseChunks_build hrsv hchunks (deltas.flatMap deltaBytes ++
    replicate (paddedSize (20 + body.length) - (20 + body.length)) 0)
  rw [hlen] at hparsed
  have hmasked : twcc.referenceTime &&& 0x00FFFFFF &&& 0x00FFFFFF =
      twcc.referenceTime &&& 0x00FFFFFF := by
    rw [UInt32.and_assoc, UInt32.and_self]
  rw [parseTwcc, if_neg (by omega), if_neg (by simp only [hhdr.type, ne_eq, not_true, or_self,
    not_false_eq_true])]
  dsimp only
  rw [if_neg (by omega), hcountNat, if_neg (not_lt.mpr hcount), hload, hparsed,
    hhdr.referenceTime, hmasked, hhdr.baseSeq, hhdr.senderSsrc, hhdr.mediaSsrc,
    hhdr.fbPktCount, hhdr.packetCount, bind_eq_bind, bind_some]
  rw [parseDeltas_bytes hvalid]
  cases addDeltas (referenceTimeUs (twcc.referenceTime &&& 0x00FFFFFF)) deltas with
  | none => rfl
  | some times => rfl

theorem addDeltas_length {prev : UInt64} {deltas : List (Symbol × ℤ)} {times : List UInt64}
    (h : addDeltas prev deltas = some times) : times.length = deltas.length := by
  induction deltas generalizing prev times with
  | nil =>
    rw [addDeltas, some.injEq] at h
    rw [← h]
    rfl
  | cons entry deltas ih =>
    obtain ⟨symbol, delta⟩ := entry
    rw [addDeltas] at h
    split_ifs at h
    · simp only [bind_eq_bind, bind_eq_some_iff, some.injEq] at h
      obtain ⟨more, hmore, rfl⟩ := h
      rw [length_cons, ih hmore, length_cons]
    · simp only [bind_eq_bind, bind_eq_some_iff, some.injEq] at h
      obtain ⟨time, _, more, hmore, rfl⟩ := h
      rw [length_cons, ih hmore, length_cons]

/-- Numbers and flags are always read back; the packets are the same exactly if
their times are close. -/
theorem samePackets_iff
    (twcc parsed : Feedback) {packets : List PacketStatus} {symbols : List Symbol}
    {times : List UInt64} {seq : UInt16}
    (hseq : ∀ (i : ℕ) (packet : PacketStatus), packets[i]? = some packet →
      packet.seq = seq + UInt16.ofNat i)
    (hflags : List.Forall₂
      (fun packet symbol => decide (symbol ≠ Symbol.notReceived) = packet.received)
      packets symbols) (hlen : times.length = packets.length) :
    List.Forall₂ (SamePacket twcc parsed) packets (packetStatuses seq symbols times) ↔
      List.Forall₂ (CloseTime (parsed.referenceTime.toNat * refTimeScaleUs)
        (twcc.referenceTime.toNat * refTimeScaleUs)) packets times := by
  induction hflags generalizing times seq with
  | nil =>
    obtain rfl := eq_nil_of_length_eq_zero hlen
    rw [packetStatuses]
    · exact ⟨fun _ => .nil, fun _ => .nil⟩
    · intro _ _ _ _ h
      cases h
  | @cons packet symbol packets symbols hflag _ ih =>
    cases times with
    | nil => simp at hlen
    | cons time times =>
      have hfirst : packet.seq = seq := by
        have := hseq 0 packet rfl
        simpa using this
      have htail : ∀ (i : ℕ) (packet : PacketStatus), packets[i]? = some packet →
          packet.seq = seq + 1 + UInt16.ofNat i := by
        intro i packet' hi
        rw [hseq (i + 1) packet' hi, UInt16.ofNat_add, UInt16.ofNat_one]
        grind
      rw [packetStatuses, forall₂_cons, forall₂_cons, ih htail (by simpa using hlen)]
      apply and_congr_left
      intro _
      constructor
      · intro hsame
        exact hsame.2.2
      · intro hclose
        exact ⟨hfirst.symm, hflag, hclose⟩

theorem referenceTimeUs_toNat (time : UInt32) :
    (referenceTimeUs time).toNat = time.toNat * refTimeScaleUs := by
  have hlt := time.toNat_lt
  rw [referenceTimeUs, UInt64.toNat_mul, UInt32.toNat_toUInt64, UInt64.toNat_ofNat']
  unfold refTimeScaleUs
  omega

theorem masked_toNat (time : UInt32) : (time &&& 0x00FFFFFF).toNat = time.toNat % 2 ^ 24 := by
  rw [UInt32.toNat_and]
  exact Nat.and_two_pow_sub_one_eq_mod time.toNat 24

/-- The times that are computed from an encoded message are close exactly if the
message is representable. -/
theorem close_iff_representable {deltas : List (Symbol × ℤ)} (hcount : twcc.packets.length ≤ 8192)
    (hdeltas : encodeDeltas (referenceTimeUs twcc.referenceTime) twcc.packets = some deltas) :
    (∃ times, addDeltas (referenceTimeUs (twcc.referenceTime &&& 0x00FFFFFF)) deltas = some times ∧
      List.Forall₂ (CloseTime ((twcc.referenceTime &&& 0x00FFFFFF).toNat * refTimeScaleUs)
        (twcc.referenceTime.toNat * refTimeScaleUs)) twcc.packets times) ↔ Representable twcc := by
  have hlt := twcc.referenceTime.toNat_lt
  have hmasked := masked_toNat twcc.referenceTime
  have hprevNat := referenceTimeUs_toNat twcc.referenceTime
  have hprevNat' := referenceTimeUs_toNat (twcc.referenceTime &&& 0x00FFFFFF)
  rw [hmasked] at hprevNat' ⊢
  have hbase : ((twcc.referenceTime.toNat % 2 ^ 24 : ℕ) : ℤ) * refTimeScaleUs +
      epochUs twcc.referenceTime = twcc.referenceTime.toNat * refTimeScaleUs := by
    unfold epochUs refTimeScaleUs
    omega
  have hepoch : epochUs twcc.referenceTime < 2 ^ 60 := by
    unfold epochUs refTimeScaleUs
    omega
  have hprev : ((referenceTimeUs (twcc.referenceTime &&& 0x00FFFFFF)).toNat : ℤ) =
      toInt64 (referenceTimeUs twcc.referenceTime) + 0 - epochUs twcc.referenceTime := by
    have hsmall : (referenceTimeUs twcc.referenceTime).toNat < 2 ^ 63 := by
      rw [hprevNat, refTimeScaleUs]
      omega
    rw [toInt64_small hsmall, hprevNat, hprevNat', Nat.cast_mul, Nat.cast_mul, ← hbase]
    ring
  have hbound : (referenceTimeUs (twcc.referenceTime &&& 0x00FFFFFF)).toNat +
      twcc.packets.length * (32767 * deltaScaleUs) < 2 ^ 62 := by
    have hmul := Nat.mul_le_mul_right (32767 * deltaScaleUs) hcount
    have htotal : 8192 * (32767 * deltaScaleUs) = 67106816000 := by decide
    rw [htotal] at hmul
    rw [hprevNat', refTimeScaleUs]
    omega
  exact addDeltas_close_iff hdeltas hbase hepoch hprev le_rfl hbound

/--
**Wire round trip.**

A feedback with consecutive sequence numbers that was written is parsed back,
with every arrival time off by at most half a tick, if and only if along the
message the rounding errors of the deltas sum up to at most half a tick and no
packet comes before the begin of the period of its reference time.
-/
theorem roundTrips_iff_representable (compound compound' : Compound) (twcc : Feedback)
    (hseq : ∀ (i : ℕ) (packet : PacketStatus), twcc.packets[i]? = some packet →
      packet.seq = twcc.baseSeq + UInt16.ofNat i) (hadd : addTwcc compound twcc = some compound') :
    RoundTrips twcc (compound'.writtenSince compound) ↔ Representable twcc := by
  unfold addTwcc at hadd
  split_ifs at hadd with hempty hroom hcount
  obtain ⟨bytes, hencode, hwrite⟩ := bind_eq_some_iff.mp hadd
  rw [(Compound.write_spec hwrite).1]
  obtain ⟨deltas, chunks, body, hdeltas, hchunks, hbody, hbytes⟩ := encodeTwcc_parts hencode
  have hcount' : twcc.packets.length ≤ 8192 := not_lt.mp hcount
  obtain ⟨_, hflags⟩ := encodeDeltas_spec hdeltas
  have hdeltasLength : deltas.length = twcc.packets.length := by
    rw [hflags.length_eq, length_map]
  have hbodyLength : body.length ≤ 32768 := by
    have hchunkLength := buildStatusChunks_length hchunks
    have hdeltaLength := flatMap_deltaBytes_length deltas
    rw [hbody, length_append, chunkBytes_length]
    omega
  obtain ⟨hmultiple, hminimum, hfield⟩ := encoded_size hbodyLength hbytes
  have hparse := parseTwcc_encoded hcount' hdeltas hchunks hbody hbytes ⟨hminimum, hfield⟩
  have htimes : ∀ times,
      addDeltas (referenceTimeUs (twcc.referenceTime &&& 0x00FFFFFF)) deltas = some times →
      times.length = twcc.packets.length := by
    intro times h
    rw [addDeltas_length h, hdeltasLength]
  rw [← close_iff_representable hcount' hdeltas]
  constructor
  · rintro ⟨⟨parsed, hparsed⟩, _⟩
    have haccepted := hparsed.accepted
    rw [hparse, map_eq_some_iff] at haccepted
    obtain ⟨times, h, rfl⟩ := haccepted
    have hsame := samePackets_iff twcc (readBack twcc deltas times) hseq hflags (htimes times h)
    exact ⟨times, h, hsame.mp hparsed.packets⟩
  · rintro ⟨times, h, hclose⟩
    have hsame := samePackets_iff twcc (readBack twcc deltas times) hseq hflags (htimes times h)
    refine ⟨⟨readBack twcc deltas times, ?_⟩, hmultiple, hfield⟩
    refine ⟨?_, rfl, rfl, rfl, ?_, rfl, masked_toNat twcc.referenceTime, ?_⟩
    · rw [hparse, h, map_some]
    · rw [readBack, UInt16.toNat_ofNat', Nat.mod_eq_of_lt (by omega)]
    · exact hsame.mpr hclose

/-- A feedback about packets from 1000 on; a packet without a time is missing. -/
def feedbackOf (referenceTime : UInt32) (times : List (Option UInt64)) : Feedback :=
  { senderSsrc := 0x11111111
    mediaSsrc := 0x22222222
    baseSeq := 1000
    packetCount := UInt16.ofNat times.length
    referenceTime := referenceTime
    fbPktCount := 7
    packets := times.mapIdx
      (fun i time => ⟨1000 + UInt16.ofNat i, time.isSome, time.getD 0⟩) }

theorem feedbackOf_consecutive
    (referenceTime : UInt32) (times : List (Option UInt64)) (i : ℕ) (packet : PacketStatus)
    (h : (feedbackOf referenceTime times).packets[i]? = some packet) :
    packet.seq = (feedbackOf referenceTime times).baseSeq + UInt16.ofNat i := by
  rw [feedbackOf, getElem?_mapIdx, map_eq_some_iff] at h
  obtain ⟨time, _, rfl⟩ := h
  rfl

def emptyCompound : Compound :=
  Compound.init (replicate 64 0)

theorem roundTrips_iff_representable_reordered :
    ∃ compound', addTwcc emptyCompound
        (feedbackOf 16777217 [some 1073741890500, none, some 1073741890400]) = some compound' ∧
      RoundTrips (feedbackOf 16777217 [some 1073741890500, none, some 1073741890400])
        (compound'.writtenSince emptyCompound) := by
  obtain ⟨compound', hadd⟩ : ∃ compound', addTwcc emptyCompound
      (feedbackOf 16777217 [some 1073741890500, none, some 1073741890400]) = some compound' := by
    apply isSome_iff_exists.mp
    decide +kernel
  refine ⟨compound', hadd, (roundTrips_iff_representable emptyCompound compound' _
    (feedbackOf_consecutive _ _) hadd).mpr ?_⟩
  unfold Representable
  decide +kernel

/-- Two gaps of 100 microseconds are rounded to nothing each. -/
theorem rounding_adds_up :
    ¬∀ (compound compound' : Compound) (twcc : Feedback),
      (∀ (i : ℕ) (packet : PacketStatus), twcc.packets[i]? = some packet →
        packet.seq = twcc.baseSeq + UInt16.ofNat i) → addTwcc compound twcc = some compound' →
      RoundTrips twcc (compound'.writtenSince compound) := by
  intro hall
  have hparse : (addTwcc emptyCompound (feedbackOf 0 [some 100, some 200])).map
      (fun compound' => parseTwcc (compound'.writtenSince emptyCompound)) =
        some (some (feedbackOf 0 [some 0, some 0])) := by
    decide +kernel
  obtain ⟨compound', hadd, hparse⟩ := map_eq_some_iff.mp hparse
  obtain ⟨⟨parsed, hparsed⟩, _⟩ := hall emptyCompound compound'
    (feedbackOf 0 [some 100, some 200]) (feedbackOf_consecutive _ _) hadd
  have haccepted := hparsed.accepted
  rw [hparse, some.injEq] at haccepted
  have hpackets := hparsed.packets
  rw [← haccepted] at hpackets
  obtain ⟨_, hpackets⟩ := forall₂_cons.mp hpackets
  obtain ⟨hsecond, _⟩ := forall₂_cons.mp hpackets
  exact absurd (hsecond.2.2 rfl) (by decide +kernel)

end TurboMedia.Twcc
