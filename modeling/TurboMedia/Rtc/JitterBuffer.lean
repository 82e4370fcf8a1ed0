import TurboMedia.Lib.Machine
import TurboMedia.Lib.Serial
import TurboMedia.Rtc.RtpPacket

/-!
# Jitter buffer

Model of `jitter_buffer.c`: `JITTER_BUFFER_SIZE` = 256 slots indexed by the low
byte of the sequence number, and the next sequence number to hand out.  A slot is `none` when its
`valid` flag is clear; the other fields of such a slot are never read.

A `put` stores packets up to 128 behind and up to 127 ahead of the next
sequence number; a `get` hands out what is in the slot of the next sequence
number, or counts it lost when one of the 63 following slots is filled.
-/

namespace TurboMedia.JitterBuffer

open RtpPacket (Packet)

/-- The content of a valid `jitter_slot_t`. -/
structure Slot where
  data : List UInt8
  sequence : UInt16
  timestamp : UInt32
  arrivalTime : UInt64
  marker : Bool
deriving DecidableEq

/-- `jitter_buffer_t`. -/
structure Buffer where
  slots : Fin 256 → Option Slot
  slotSize : ℕ
  nextSeqOut : UInt16
  initialized : Bool
  targetDelayMs : UInt32
  packetsIn : UInt64
  packetsOut : UInt64
  packetsLost : UInt64
  packetsLate : UInt64
  packetsDuplicate : UInt64

/-- `jitter_buffer_create`, when memory is available. -/
def create (targetDelayMs : UInt32) (slotSize : ℕ) : Buffer :=
  { slots := fun _ => none
    slotSize := slotSize
    nextSeqOut := 0
    initialized := false
    targetDelayMs := targetDelayMs
    packetsIn := 0
    packetsOut := 0
    packetsLost := 0
    packetsLate := 0
    packetsDuplicate := 0 }

/-- `seq_diff`. -/
def seqDiff (s1 s2 : UInt16) : ℤ :=
  Serial.diff s1 s2

/-- Index `n & JITTER_BUFFER_MASK`. -/
def slotIndex (n : ℕ) : Fin 256 :=
  ⟨n % 256, Nat.mod_lt _ (by decide)⟩

/-- Return values of `jitter_buffer_put`: 0, 1, and -1 for three reasons. -/
inductive PutResult where
  | stored
  | duplicate
  | tooLate
  | tooFarAhead
  | tooLarge
deriving DecidableEq

def slotOf (pkt : Packet) (nowMs : UInt64) : Slot :=
  { data := pkt.payload
    sequence := pkt.header.sequence
    timestamp := pkt.header.timestamp
    arrivalTime := nowMs
    marker := pkt.header.marker }

/-- The first packet decides where the output starts. -/
def start (jb : Buffer) (seq : UInt16) : Buffer :=
  if jb.initialized then jb else { jb with nextSeqOut := seq, initialized := true }

/-- `jitter_buffer_put`. -/
def put (jb : Buffer) (pkt : Packet) (nowMs : UInt64) : Buffer × PutResult :=
  let seq := pkt.header.sequence
  let jb := start jb seq
  let diff := seqDiff seq jb.nextSeqOut
  if diff < -128 then ({ jb with packetsLate := jb.packetsLate + 1 }, .tooLate)
  else if diff ≥ 128 then ({ jb with packetsLate := jb.packetsLate + 1 }, .tooFarAhead)
  else
    let index := slotIndex seq.toNat
    if (jb.slots index).any (fun slot => slot.sequence == seq) then
      ({ jb with packetsDuplicate := jb.packetsDuplicate + 1 }, .duplicate)
    else if pkt.payload.length > jb.slotSize then (jb, .tooLarge)
    else
      ({ jb with
          slots := Function.update jb.slots index (some (slotOf pkt nowMs))
          packetsIn := jb.packetsIn + 1 },
        .stored)

/-- What `jitter_buffer_get_ex` hands out. -/
structure Output where
  data : List UInt8
  timestamp : UInt32
  marker : Bool
deriving DecidableEq

/-- Return values of `jitter_buffer_get_ex`: 0, 1 with the output, and -1 for
two reasons. -/
inductive GetResult where
  | notReady
  | packet (out : Output)
  | lost
  | tooSmall
deriving DecidableEq

variable (jb : Buffer)

/-- Slot of the sequence number `i` after the next one. -/
def ahead (i : ℕ) : Option Slot :=
  jb.slots (slotIndex (jb.nextSeqOut.toNat + i))

/-- The look-ahead loop: one of the next 63 slots is valid. -/
def haveFuture : Bool :=
  (List.range' 1 63).any (fun i => (ahead jb i).isSome)

/-- The buffer after the next packet was counted lost. -/
def lostBuffer : Buffer :=
  { jb with
    packetsLost := jb.packetsLost + 1
    nextSeqOut := jb.nextSeqOut + 1 }

/-- The buffer after the next packet was handed out. -/
def servedBuffer : Buffer :=
  { jb with
    slots := Function.update jb.slots (slotIndex jb.nextSeqOut.toNat) none
    nextSeqOut := jb.nextSeqOut + 1
    packetsOut := jb.packetsOut + 1 }

/-- `jitter_buffer_get_ex`. -/
def getEx (maxLen : ℕ) (nowMs : UInt64) : Buffer × GetResult :=
  if !jb.initialized then (jb, .notReady)
  else
    match ahead jb 0 with
    | none =>
      if haveFuture jb then (lostBuffer jb, .lost)
      else (jb, .notReady)
    | some slot =>
      if nowMs - slot.arrivalTime < jb.targetDelayMs.toUInt64 then (jb, .notReady)
      else if slot.data.length > maxLen then (jb, .tooSmall)
      else (servedBuffer jb, .packet ⟨slot.data, slot.timestamp, slot.marker⟩)

inductive Op where
  | put (pkt : Packet) (nowMs : UInt64)
  | get (maxLen : ℕ) (nowMs : UInt64)

inductive Answer where
  | put (result : PutResult)
  | get (result : GetResult)
deriving DecidableEq

/-- The calls on a jitter buffer, without `jitter_buffer_reset`. -/
def machine : Machine Buffer Op Answer where
  step jb
    | .put pkt nowMs => Prod.map id .put (put jb pkt nowMs)
    | .get maxLen nowMs => Prod.map id .get (getEx jb maxLen nowMs)

/-- The packet may be stored without going back behind the output. -/
def InWindow (jb : Buffer) (seq : UInt16) : Prop :=
  -128 ≤ seqDiff seq jb.nextSeqOut ∧ seqDiff seq jb.nextSeqOut < 128

/-- What a `put` can do after the buffer was started. -/
inductive PutOutcome (jb : Buffer) (pkt : Packet) (nowMs : UInt64) :
    Buffer × PutResult → Prop
  | kept {jb' : Buffer} {result : PutResult} :
      jb'.slots = jb.slots →
      jb'.nextSeqOut = jb.nextSeqOut →
      jb'.initialized = jb.initialized →
      jb'.slotSize = jb.slotSize →
      jb'.targetDelayMs = jb.targetDelayMs →
      result ≠ .stored →
      PutOutcome jb pkt nowMs (jb', result)
  | stored :
      InWindow jb pkt.header.sequence →
      pkt.payload.length ≤ jb.slotSize →
      PutOutcome jb pkt nowMs
        ({ jb with
            slots := Function.update jb.slots (slotIndex pkt.header.sequence.toNat)
              (some (slotOf pkt nowMs))
            packetsIn := jb.packetsIn + 1 },
          .stored)

theorem put_outcome (jb : Buffer) (pkt : Packet) (nowMs : UInt64) :
    PutOutcome (start jb pkt.header.sequence) pkt nowMs (put jb pkt nowMs) := by
  unfold put
  dsimp only
  split_ifs with hlate hfar hdup hlarge
  · exact .kept rfl rfl rfl rfl rfl (by decide)
  · exact .kept rfl rfl rfl rfl rfl (by decide)
  · exact .kept rfl rfl rfl rfl rfl (by decide)
  · exact .kept rfl rfl rfl rfl rfl (by decide)
  · exact .stored ⟨not_lt.mp hlate, not_le.mp hfar⟩ (not_lt.mp hlarge)

/-- What a `get` can do. -/
inductive GetOutcome (jb : Buffer) (maxLen : ℕ) (nowMs : UInt64) :
    Buffer × GetResult → Prop
  | waiting {result : GetResult} :
      (result = .notReady ∨ result = .tooSmall) →
      GetOutcome jb maxLen nowMs (jb, result)
  | lost {i : ℕ} :
      jb.initialized = true →
      ahead jb 0 = none →
      1 ≤ i →
      i ≤ 63 →
      (ahead jb i).isSome = true →
      GetOutcome jb maxLen nowMs (lostBuffer jb, .lost)
  | packet {slot : Slot} :
      jb.initialized = true →
      ahead jb 0 = some slot →
      GetOutcome jb maxLen nowMs (servedBuffer jb, .packet ⟨slot.data, slot.timestamp, slot.marker⟩)

theorem haveFuture_iff (jb : Buffer) :
    haveFuture jb = true ↔ ∃ i, 1 ≤ i ∧ i ≤ 63 ∧ (ahead jb i).isSome = true := by
  simp only [haveFuture, List.any_eq_true, List.mem_range'_1]
  constructor
  · rintro ⟨i, ⟨hlow, hhigh⟩, hi⟩
    exact ⟨i, hlow, by omega, hi⟩
  · rintro ⟨i, hlow, hhigh, hi⟩
    exact ⟨i, ⟨hlow, by omega⟩, hi⟩

theorem getEx_outcome (jb : Buffer) (maxLen : ℕ) (nowMs : UInt64) :
    GetOutcome jb maxLen nowMs (getEx jb maxLen nowMs) := by
  unfold getEx
  by_cases hinit : jb.initialized = true
  · rw [if_neg (by simp [hinit])]
    cases hslot : ahead jb 0 with
    | none =>
      split_ifs with hfuture
      · obtain ⟨i, hlow, hhigh, hi⟩ := (haveFuture_iff jb).mp hfuture
        exact .lost hinit hslot hlow hhigh hi
      · exact .waiting (Or.inl rfl)
    | some slot =>
      dsimp only
      split_ifs with hdelay hsmall
      · exact .waiting (Or.inl rfl)
      · exact .waiting (Or.inr rfl)
      · exact .packet hinit hslot
  · rw [if_pos (by simpa using hinit)]
    exact .waiting (Or.inl rfl)

end TurboMedia.JitterBuffer
