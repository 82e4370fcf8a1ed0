import TurboMedia.Lib.Machine
import TurboMedia.Lib.Serial

/-!
# Transport-wide congestion control: the receiver

Model of the receiver side of `twcc.c`.  Arrivals are kept in a list that is
sorted by insertion under the serial order; a feedback message lists every
sequence number from the first of the list on, filling the holes.

`expected_seq` of the receiver is never read and is left out.
-/

namespace TurboMedia.Twcc

/-- `RTCP_TWCC_MAX_PACKETS`. -/
def maxPackets : ℕ := 8192

/-- `TWCC_DELTA_SCALE_US`. -/
def deltaScaleUs : ℕ := 250

/-- `TWCC_REF_TIME_SCALE_US`. -/
def refTimeScaleUs : ℕ := 64000

/-- `TWCC_FEEDBACK_INTERVAL_MS`. -/
def feedbackIntervalMs : ℕ := 100

/-- `twcc_packet_status_t`. -/
structure PacketStatus where
  seq : UInt16
  received : Bool
  arrivalTimeUs : UInt64
deriving DecidableEq

/-- `rtcp_twcc_t`; `num_packets` is the number of entries. -/
structure Feedback where
  senderSsrc : UInt32
  mediaSsrc : UInt32
  baseSeq : UInt16
  packetCount : UInt16
  referenceTime : UInt32
  fbPktCount : UInt8
  packets : List PacketStatus
deriving DecidableEq

/-- `twcc_recv_record_t`. -/
structure Record where
  twccSeq : UInt16
  arrivalTimeUs : UInt64
deriving DecidableEq

/-- `twcc_receiver_t`; `packet_count` is the number of records. -/
structure Receiver where
  ssrc : UInt32
  packets : List Record
  lastFeedbackTimeUs : UInt64
  fbPktCount : UInt8

/-- `twcc_receiver_create` at time `nowUs`. -/
def create (ssrc : UInt32) (nowUs : UInt64) : Receiver :=
  { ssrc := ssrc
    packets := []
    lastFeedbackTimeUs := nowUs
    fbPktCount := 0 }

/-- `seq_newer`. -/
def seqNewer (s1 s2 : UInt16) : Bool :=
  0 < Serial.diff s1 s2

/-- The loop that looks for the place of a sequence number, from the last record
to the first.  The records are given from the last to the first. -/
def insertPos (twccSeq : UInt16) : List Record → ℕ
  | [] => 0
  | record :: before =>
    if seqNewer twccSeq record.twccSeq then before.length + 1
    else insertPos twccSeq before

/-- Out of order: insert at the right place while there is room. -/
def insertRecord (packets : List Record) (record : Record) : List Record :=
  let pos := insertPos record.twccSeq packets.reverse
  if packets.length < maxPackets then packets.take pos ++ record :: packets.drop pos
  else packets

def appendRecord (packets : List Record) (record : Record) : List Record :=
  if packets.length < maxPackets then packets ++ [record] else packets

def storeRecord (packets : List Record) (record : Record) : List Record :=
  match packets.getLast? with
  | some last =>
    if !seqNewer record.twccSeq last.twccSeq then insertRecord packets record
    else appendRecord packets record
  | none => appendRecord packets record

/-- `twcc_receiver_register_packet`. -/
def registerPacket (receiver : Receiver) (record : Record) : Receiver :=
  { receiver with packets := storeRecord receiver.packets record }

/-- Fill with entries "not received" up to `twccSeq`, while there is room. -/
def fillGap (twccSeq : UInt16) : ℕ → UInt16 → List PacketStatus
  | 0, _ => []
  | room + 1, expectedSeq =>
    if expectedSeq = twccSeq then []
    else ⟨expectedSeq, false, 0⟩ :: fillGap twccSeq room (expectedSeq + 1)

def receivedStatus (record : Record) : PacketStatus :=
  ⟨record.twccSeq, true, record.arrivalTimeUs⟩

/-- The loop over the records; `room` is the number of entries that are left. -/
def copyStatuses : List Record → ℕ → UInt16 → List PacketStatus
  | [], _, _ => []
  | record :: records, room, expectedSeq =>
    let gap := fillGap record.twccSeq room expectedSeq
    if room - gap.length = 0 then gap
    else
      gap ++ receivedStatus record ::
        copyStatuses records (room - gap.length - 1) (expectedSeq + UInt16.ofNat gap.length + 1)

/-- `twcc_receiver_generate_feedback` at time `nowUs`: the feedback when the
source returns 1, nothing when it returns 0. -/
def generateFeedback (receiver : Receiver) (nowUs : UInt64) :
    Receiver × Option Feedback :=
  if receiver.packets.length < 10 ∧
      nowUs - receiver.lastFeedbackTimeUs < UInt64.ofNat (feedbackIntervalMs * 1000) then
    (receiver, none)
  else
    match receiver.packets with
    | [] => (receiver, none)
    | first :: rest =>
      let packets := copyStatuses (first :: rest) maxPackets first.twccSeq
      ({ receiver with
          packets := []
          lastFeedbackTimeUs := nowUs
          fbPktCount := receiver.fbPktCount + 1 },
        some
          { senderSsrc := receiver.ssrc
            mediaSsrc := 0
            baseSeq := first.twccSeq
            packetCount := UInt16.ofNat packets.length
            referenceTime :=
              (first.arrivalTimeUs / UInt64.ofNat refTimeScaleUs).toUInt32
            fbPktCount := receiver.fbPktCount
            packets := packets })

inductive Op where
  | register (record : Record)
  | generate (nowUs : UInt64)

/-- The calls on a receiver; the answer is the feedback, if there is one. -/
def machine : Machine Receiver Op (Option Feedback) where
  step receiver
    | .register record => (registerPacket receiver record, none)
    | .generate nowUs => generateFeedback receiver nowUs

end TurboMedia.Twcc
