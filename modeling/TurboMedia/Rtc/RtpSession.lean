import TurboMedia.Lib.Machine
import TurboMedia.Lib.Serial
import TurboMedia.Rtc.RtpPacket

/-!
# RTP session: the receiver

Model of the receiver side of `rtp_session.c`: sequence tracking, the jitter estimate and the
report block.  Clock readings are inputs, and counters are words.
-/

namespace TurboMedia.RtpSession

open RtpSession

open RtpPacket (Header)

/-- `RTP_SEQ_MOD`. -/
def rtpSeqMod : UInt32 := 65536

/-- The receiver state of an `rtp_session_t`. -/
structure Session where
  clockRate : UInt32
  remoteSsrc : UInt32
  receivedFirst : Bool
  maxSeq : UInt16
  cycles : UInt32
  baseSeq : UInt32
  packetsRecv : UInt64
  packetsLost : UInt64
  jitter : UInt32
  lastTransit : UInt32
  lastSrNtp : UInt32
  lastSrTimeMs : UInt64

/-- `rtp_session_create`. -/
def create (clockRate : UInt32) : Session :=
  ⟨clockRate, 0, false, 0, 0, 0, 0, 0, 0, 0, 0, 0⟩

/-- `rtp_seq_newer`. -/
def rtpSeqNewer (s1 s2 : UInt16) : Bool :=
  0 < Serial.diff s1 s2

def transit (session : Session) (pkt : Header) (timeMs : UInt64) : UInt32 :=
  (timeMs * session.clockRate.toUInt64 / 1000).toUInt32 - pkt.timestamp

/-- The absolute value of a difference that is read as `int`. -/
def absInt (d : UInt32) : UInt32 :=
  if 0x80000000 ≤ d then 0 - d else d

/-- `|D|` of a packet. -/
def absDiff (session : Session) (pkt : Header) (timeMs : UInt64) : UInt32 :=
  absInt (transit session pkt timeMs - session.lastTransit)

/-- `rtp_session_recv`. -/
def recv (session : Session) (pkt : Header) (timeMs : UInt64) : Session × ℤ :=
  if !session.receivedFirst then
    ({ session with
       receivedFirst := true
       remoteSsrc := pkt.ssrc
       baseSeq := pkt.sequence.toUInt32
       maxSeq := pkt.sequence
       cycles := 0
       packetsRecv := 1
       packetsLost := 0
       jitter := 0
       lastTransit := 0 }, 0)
  else if pkt.ssrc ≠ session.remoteSsrc then (session, -1)
  else
    let newer := rtpSeqNewer pkt.sequence session.maxSeq
    let d := absDiff session pkt timeMs
    ({ session with
       cycles :=
         if newer ∧ pkt.sequence < session.maxSeq then session.cycles + rtpSeqMod
         else session.cycles
       maxSeq := if newer then pkt.sequence else session.maxSeq
       jitter :=
         if session.lastTransit ≠ 0 then session.jitter + (d - session.jitter) / 16
         else session.jitter
       lastTransit := transit session pkt timeMs
       packetsRecv := session.packetsRecv + 1 }, 0)

/-- `rtcp_rr_block_t`. -/
structure RrBlock where
  ssrc : UInt32
  fractionLost : UInt8
  cumulativeLost : ℕ
  extendedSeq : UInt32
  jitter : UInt32
  lsr : UInt32
  dlsr : UInt32

variable (session : Session)

/-- What is expected up to the highest sequence number. -/
def expected : UInt32 :=
  session.cycles + session.maxSeq.toUInt32 - session.baseSeq + 1

/-- What is lost; the count of packets is read as signed. -/
def lost : ℕ :=
  min ((expected session).toNat - session.packetsRecv.toInt64.toInt).toNat 0x7FFFFF

/-- The loss fraction before it is put into a byte. -/
def fraction : ℕ :=
  if 0 < (expected session).toNat ∧ 0 < lost session then
    lost session * 256 / (expected session).toNat
  else 0

/-- `rtp_session_build_rr_block`. -/
def buildRrBlock (ssrc : UInt32) (nowMs : UInt64) : RrBlock :=
  { ssrc := if ssrc ≠ 0 then ssrc else session.remoteSsrc
    fractionLost := UInt8.ofNat (fraction session)
    cumulativeLost := lost session
    extendedSeq := session.cycles + session.maxSeq.toUInt32
    jitter := session.jitter
    lsr := session.lastSrNtp
    dlsr :=
      if 0 < session.lastSrTimeMs then ((nowMs - session.lastSrTimeMs) * 65536 / 1000).toUInt32
      else 0 }

/-- The session with the packets that come in. -/
def machine : Machine Session (Header × UInt64) ℤ where
  step := fun session arrival => recv session arrival.1 arrival.2

section Jitter

variable {session : Session} {pkt : Header} {timeMs : UInt64}

/-- The estimate stays between the old one and the difference. -/
def JitterBetween (old d new : ℕ) : Prop :=
  min old d ≤ new ∧ new ≤ max old d

/-- There is nothing to compare with, or the estimate has not to go down, or it has to go down
by so much that the word wraps around to where it was. -/
def settles (session : Session) (pkt : Header) (timeMs : UInt64) : Prop :=
  if session.receivedFirst = false then session.jitter = 0 ∨ absDiff session pkt timeMs = 0
  else
    session.lastTransit = 0 ∨ session.jitter ≤ absDiff session pkt timeMs ∨
      2 ^ 32 - 16 < session.jitter.toNat - (absDiff session pkt timeMs).toNat

theorem jitterStep_between_iff (j d : UInt32) :
    JitterBetween j.toNat d.toNat (j + (d - j) / 16).toNat ↔
      j ≤ d ∨ 2 ^ 32 - 16 < j.toNat - d.toNat := by
  have hj := j.toNat_lt
  have hd := d.toNat_lt
  have hstep : (j + (d - j) / 16).toNat =
      (j.toNat + (2 ^ 32 - j.toNat + d.toNat) % 2 ^ 32 / 16) % 2 ^ 32 := by
    rw [UInt32.toNat_add, UInt32.toNat_div, UInt32.toNat_sub]
    rfl
  rw [JitterBetween, hstep, UInt32.le_iff_toNat_le]
  generalize j.toNat = a at hj ⊢
  generalize d.toNat = b at hd ⊢
  rcases Nat.lt_or_ge b a with hdown | hup
  · have hdiff : (2 ^ 32 - a + b) % 2 ^ 32 = 2 ^ 32 - a + b := Nat.mod_eq_of_lt (by omega)
    rw [hdiff]
    -- the word wraps around, and lands below `b`, unless the step is 0
    rcases Nat.lt_or_ge (a + (2 ^ 32 - a + b) / 16) (2 ^ 32) with hfits | hwraps
    · rw [Nat.mod_eq_of_lt hfits]
      omega
    · rw [Nat.mod_eq_sub_mod hwraps, Nat.mod_eq_of_lt (by omega)]
      omega
  · have hdiff : (2 ^ 32 - a + b) % 2 ^ 32 = b - a := by omega
    rw [hdiff, Nat.mod_eq_of_lt (by omega)]
    omega

theorem recv_accepted (hacc : (recv session pkt timeMs).2 = 0) :
    session.receivedFirst = false ∨ pkt.ssrc = session.remoteSsrc := by
  by_contra hnot
  rw [not_or, Bool.not_eq_false] at hnot
  rw [recv, hnot.1, if_neg (by decide), if_pos hnot.2] at hacc
  cases hacc

theorem recv_refused (href : (recv session pkt timeMs).2 ≠ 0) :
    (recv session pkt timeMs).1 = session := by
  unfold recv at href ⊢
  by_cases hfirst : (!session.receivedFirst) = true
  · rw [if_pos hfirst] at href
    exact absurd rfl href
  · rw [if_neg hfirst] at href ⊢
    by_cases hssrc : pkt.ssrc ≠ session.remoteSsrc
    · rw [if_pos hssrc]
    · rw [if_neg hssrc] at href
      exact absurd rfl href

theorem recv_jitter (hacc : (recv session pkt timeMs).2 = 0) :
    (recv session pkt timeMs).1.jitter =
      if session.receivedFirst = false then 0
      else if session.lastTransit = 0 then session.jitter
      else session.jitter + (absDiff session pkt timeMs - session.jitter) / 16 := by
  rcases recv_accepted hacc with hfirst | hssrc
  · simp [recv, hfirst]
  · unfold recv
    cases hfirst : session.receivedFirst with
    | false => rfl
    | true =>
      rw [if_neg (by decide), if_neg (not_not.mpr hssrc)]
      split_ifs <;> simp_all

theorem recv_between_iff (hacc : (recv session pkt timeMs).2 = 0) :
    JitterBetween session.jitter.toNat (absDiff session pkt timeMs).toNat
        (recv session pkt timeMs).1.jitter.toNat ↔ settles session pkt timeMs := by
  rw [recv_jitter hacc, settles]
  split_ifs with hfirst htransit
  · rw [JitterBetween, ← UInt32.toNat_inj, ← UInt32.toNat_inj]
    change min _ _ ≤ 0 ∧ 0 ≤ _ ↔ _ = 0 ∨ _ = 0
    omega
  · simp [htransit, JitterBetween]
  · rw [jitterStep_between_iff]
    simp [htransit]

/-- The largest `|D|` of the packets of a run that are compared with a transit time. -/
def largestDiff : Session → List (Header × UInt64) → ℕ
  | _, [] => 0
  | session, arrival :: rest =>
    max (if (recv session arrival.1 arrival.2).2 = 0 ∧ session.receivedFirst = true ∧
          session.lastTransit ≠ 0 then
        (absDiff session arrival.1 arrival.2).toNat
      else 0)
      (largestDiff (machine.next session arrival) rest)

/-- Every packet of a run that is accepted settles. -/
def Settling (session : Session) (arrival : Header × UInt64) : Prop :=
  (recv session arrival.1 arrival.2).2 = 0 → settles session arrival.1 arrival.2

theorem next_jitter_le {arrival : Header × UInt64} (hsettles : Settling session arrival) :
    (machine.next session arrival).jitter.toNat ≤
      max session.jitter.toNat (largestDiff session [arrival]) := by
  change (recv session arrival.1 arrival.2).1.jitter.toNat ≤ _
  by_cases hacc : (recv session arrival.1 arrival.2).2 = 0
  · have hbetween := (recv_between_iff hacc).mpr (hsettles hacc)
    have hjitter := recv_jitter hacc
    simp only [largestDiff, hacc, true_and]
    split_ifs at hjitter with hfirst htransit
    · rw [hjitter]
      exact Nat.zero_le _
    · rw [hjitter]
      exact le_max_left _ _
    · have hboth : session.receivedFirst = true ∧ session.lastTransit ≠ 0 :=
        ⟨Bool.not_eq_false _ ▸ hfirst, htransit⟩
      rw [if_pos hboth]
      have hle := hbetween.2
      omega
  · rw [recv_refused hacc]
    exact le_max_left _ _

theorem run_jitter_le {arrivals : List (Header × UInt64)}
    (hsettles : machine.Along Settling session arrivals) :
    (machine.run session arrivals).jitter.toNat ≤
      max session.jitter.toNat (largestDiff session arrivals) := by
  induction arrivals generalizing session with
  | nil => exact le_max_left _ _
  | cons arrival rest ih =>
    have hnext := next_jitter_le hsettles.1
    have hrest := ih hsettles.2
    rw [Machine.run_cons]
    simp only [largestDiff] at hnext ⊢
    omega

/-- The estimate lies between the old one and `|D|` exactly where the packet settles, and in a
run of such packets it never exceeds the largest `|D|`. -/
theorem jitter_between_iff (session : Session) (pkt : Header) (timeMs : UInt64) :
    ((recv session pkt timeMs).2 = 0 → (absDiff session pkt timeMs).toNat < 2 ^ 31 →
      (JitterBetween session.jitter.toNat (absDiff session pkt timeMs).toNat
          (recv session pkt timeMs).1.jitter.toNat ↔ settles session pkt timeMs)) ∧
    ∀ (clockRate : UInt32) (arrivals : List (Header × UInt64)),
      machine.Along Settling (create clockRate) arrivals →
      (machine.run (create clockRate) arrivals).jitter.toNat ≤
        largestDiff (create clockRate) arrivals := by
  refine ⟨fun haccepted _ => recv_between_iff haccepted, fun clockRate arrivals hsettles => ?_⟩
  have hrun := run_jitter_le hsettles
  rwa [show (create clockRate).jitter.toNat = 0 from rfl, Nat.zero_max] at hrun

/-- A packet that carries nothing but its numbers. -/
def bareHeader (sequence : UInt16) (timestamp ssrc : UInt32) : Header :=
  ⟨RtpPacket.rtpVersion, false, false, false, ⟨0, by decide⟩, sequence, timestamp, ssrc⟩

def shaken : Session :=
  { create 1000 with receivedFirst := true, jitter := 100, lastTransit := 5 }

/-- The third packet takes 32 units longer than the second. -/
def delayed : List (Header × UInt64) :=
  [(bareHeader 1 4 0, 9), (bareHeader 2 5 0, 10), (bareHeader 3 6 0, 43)]

theorem jitter_between_iff_steady :
    (¬ JitterBetween 100 0 (recv shaken (bareHeader 1 5 0) 10).1.jitter.toNat ∧
      ¬ settles shaken (bareHeader 1 5 0) 10) ∧
    (machine.run (create 1000) delayed).jitter = 2 ∧
      (machine.run (create 1000) delayed).jitter.toNat ≤ largestDiff (create 1000) delayed := by
  have hiff := (jitter_between_iff shaken (bareHeader 1 5 0) 10).1 (by decide) (by decide)
  have hnot : ¬ JitterBetween 100 0 (recv shaken (bareHeader 1 5 0) 10).1.jitter.toNat :=
    fun h => absurd h.2 (by decide)
  refine ⟨⟨hnot, fun hsettles => hnot (hiff.mpr hsettles)⟩, by decide, ?_⟩
  refine (jitter_between_iff shaken (bareHeader 1 5 0) 10).2 1000 delayed ⟨?_, ?_, ?_, trivial⟩
  · exact fun _ => .inl rfl
  · exact fun _ => .inl rfl
  · exact fun _ => .inr (.inl (by decide))

/-- The transit time does not change, and the estimate jumps up. -/
theorem jitter_jumps :
    (recv shaken (bareHeader 1 5 0) 10).2 = 0 ∧ absDiff shaken (bareHeader 1 5 0) 10 = 0 ∧
      (recv shaken (bareHeader 1 5 0) 10).1.jitter = 268435549 ∧
      ¬ JitterBetween shaken.jitter.toNat 0 (recv shaken (bareHeader 1 5 0) 10).1.jitter.toNat :=
  ⟨by decide, by decide, by decide, fun h => absurd h.2 (by decide)⟩

end Jitter

/-- A packet with its true sequence number. -/
structure Arrival where
  number : ℕ
  pkt : Header
  timeMs : UInt64

/-- The true numbers are never below the first one, and within 32767 of the highest so far. -/
def InStep (ssrc : UInt32) (first : ℕ) : ℕ → List Arrival → Prop
  | _, [] => True
  | highest, a :: rest =>
    a.pkt.sequence = UInt16.ofNat a.number ∧ a.pkt.ssrc = ssrc ∧ first ≤ a.number ∧
      a.number ≤ highest + 32767 ∧ highest ≤ a.number + 32767 ∧
      InStep ssrc first (max highest a.number) rest

def Feed : List Arrival → Prop
  | [] => True
  | a :: rest => a.pkt.sequence = UInt16.ofNat a.number ∧
      InStep a.pkt.ssrc a.number a.number rest

def highestOf : ℕ → List Arrival → ℕ
  | highest, [] => highest
  | highest, a :: rest => highestOf (max highest a.number) rest

def after (session : Session) (arrivals : List Arrival) : Session :=
  machine.run session (arrivals.map (fun a => (a.pkt, a.timeMs)))

/-- The session has followed the true numbers, up to the wrap of its words. -/
structure Follows (ssrc : UInt32) (first highest count : ℕ) (session : Session) : Prop where
  received : session.receivedFirst = true
  ssrc : session.remoteSsrc = ssrc
  base : session.baseSeq.toNat = first % 65536
  maxSeq : session.maxSeq.toNat = highest % 65536
  cycles : session.cycles.toNat = (highest / 65536 - first / 65536) * 65536 % 2 ^ 32
  le : first ≤ highest
  packets : session.packetsRecv = UInt64.ofNat count
  pos : 0 < count

variable {session : Session} {ssrc : UInt32} {first highest count : ℕ}

theorem follows_first (clockRate : UInt32) {a : Arrival}
    (hsequence : a.pkt.sequence = UInt16.ofNat a.number) :
    Follows a.pkt.ssrc a.number a.number 1 (machine.next (create clockRate) (a.pkt, a.timeMs)) where
  received := rfl
  ssrc := rfl
  base := by
    change a.pkt.sequence.toUInt32.toNat = _
    rw [hsequence, UInt16.toNat_toUInt32, UInt16.toNat_ofNat']
  maxSeq := by
    change a.pkt.sequence.toNat = _
    rw [hsequence, UInt16.toNat_ofNat']
  cycles := by
    rw [Nat.sub_self]
    rfl
  le := le_rfl
  packets := rfl
  pos := Nat.one_pos

variable (h : Follows ssrc first highest count session)
include h

theorem Follows.next {a : Arrival}
    (hsequence : a.pkt.sequence = UInt16.ofNat a.number) (hssrc : a.pkt.ssrc = ssrc)
    (hahead : a.number ≤ highest + 32767) (hbehind : highest ≤ a.number + 32767) :
    Follows ssrc first (max highest a.number) (count + 1)
      (machine.next session (a.pkt, a.timeMs)) := by
  have hle := h.le
  have hmax := h.maxSeq
  have hcycles := h.cycles
  have hseq : a.pkt.sequence.toNat = a.number % 65536 := by
    rw [hsequence, UInt16.toNat_ofNat']
  have hdiff : Serial.diff a.pkt.sequence session.maxSeq = (a.number : ℤ) - highest :=
    Serial.diff_unique (by omega) (by omega) (by rw [hmax, hseq]; omega)
  have hnewer : rtpSeqNewer a.pkt.sequence session.maxSeq = true ↔ highest < a.number := by
    rw [rtpSeqNewer, hdiff, decide_eq_true_eq]
    omega
  change Follows _ _ _ _ (recv session a.pkt a.timeMs).1
  rw [recv, h.received, if_neg (by decide), if_neg (not_not.mpr (hssrc.trans h.ssrc.symm))]
  constructor
  case received => rfl
  case ssrc => exact h.ssrc
  case base => exact h.base
  case le => exact hle.trans (le_max_left _ _)
  case packets =>
    rw [UInt64.ofNat_add, ← h.packets]
    rfl
  case pos => exact Nat.succ_pos count
  case maxSeq =>
    dsimp only
    by_cases hlater : highest < a.number
    · rw [if_pos (hnewer.mpr hlater), hseq, max_eq_right hlater.le]
    · rw [if_neg (fun hn => hlater (hnewer.mp hn)), hmax, max_eq_left (by omega)]
  case cycles =>
    dsimp only
    have hwrap : a.pkt.sequence < session.maxSeq ↔ a.number % 65536 < highest % 65536 := by
      rw [UInt16.lt_iff_toNat_lt, hmax, hseq]
    by_cases hlater : highest < a.number
    · rw [max_eq_right hlater.le]
      by_cases hless : a.number % 65536 < highest % 65536
      · rw [if_pos ⟨hnewer.mpr hlater, hwrap.mpr hless⟩, UInt32.toNat_add, hcycles,
          show rtpSeqMod.toNat = 65536 from rfl]
        omega
      · rw [if_neg (fun hand => hless (hwrap.mp hand.2)), hcycles]
        omega
    · rw [if_neg (fun hand => hlater (hnewer.mp hand.1)), hcycles, max_eq_left (by omega)]

theorem follows_run {arrivals : List Arrival} (hstep : InStep ssrc first highest arrivals) :
    Follows ssrc first (highestOf highest arrivals) (count + arrivals.length)
      (after session arrivals) := by
  induction arrivals generalizing session highest count with
  | nil => exact h
  | cons a rest ih =>
    obtain ⟨hsequence, hssrc, -, hahead, hbehind, hrest⟩ := hstep
    have hnext := ih (h.next hsequence hssrc hahead hbehind) hrest
    rwa [Nat.add_assoc, Nat.add_comm 1] at hnext

theorem Follows.extended :
    (session.cycles + session.maxSeq.toUInt32 - session.baseSeq).toNat =
      (highest - first) % 2 ^ 32 := by
  have hle := h.le
  rw [UInt32.toNat_sub, UInt32.toNat_add, UInt16.toNat_toUInt32, h.cycles, h.maxSeq, h.base]
  omega

theorem Follows.expected :
    (expected session).toNat = (highest - first + 1) % 2 ^ 32 := by
  rw [RtpSession.expected, UInt32.toNat_add, h.extended]
  exact Nat.mod_add_mod _ _ _

omit h

/-- The report counts what is missing between the first and the highest number. -/
structure CountsLoss (first highest count : ℕ) (session : Session) (block : RrBlock) : Prop where
  extended : (session.cycles + session.maxSeq.toUInt32 - session.baseSeq).toNat = highest - first
  lost : block.cumulativeLost = min (highest - first + 1 - count) 0x7FFFFF
  fraction : block.fractionLost.toNat = fraction session

/-- A count of packets as a report reads it. -/
def signedCount (count : ℕ) : ℤ :=
  (UInt64.ofNat count).toInt64.toInt

theorem signedCount_of_lt (h : count < 2 ^ 63) : signedCount count = count := by
  change (UInt64.ofNat count).toBitVec.toInt = count
  have hword : (UInt64.ofNat count).toNat = count :=
    UInt64.toNat_ofNat_of_lt' (h.trans (by decide))
  rw [BitVec.toInt_eq_toNat_of_lt]
  · exact congrArg Nat.cast hword
  · change 2 * (UInt64.ofNat count).toNat < 2 ^ 64
    omega

/-- The words do not wrap: the numbers span less than 2^32; all of 2^32 numbers are missed by
no report when as many packets came; and a count from 2^63 on is not read as too few. -/
def Countable (span count : ℕ) : Prop :=
  span < 2 ^ 32 ∧ (span + 1 = 2 ^ 32 → 2 ^ 32 ≤ count) ∧
    (2 ^ 63 ≤ count → ((span + 1) % 2 ^ 32 : ℕ) ≤ signedCount count)

theorem countsLoss_iff (h : Follows ssrc first highest count session)
    (blockSsrc : UInt32) (nowMs : UInt64) :
    CountsLoss first highest count session (buildRrBlock session blockSsrc nowMs) ↔
      Countable (highest - first) count := by
  have hexp := h.expected
  have hpos := h.pos
  have hlost : lost session =
      min (((highest - first + 1) % 2 ^ 32 : ℕ) - signedCount count).toNat 0x7FFFFF := by
    rw [lost, hexp, h.packets]
    rfl
  have hsmall : count < 2 ^ 63 → signedCount count = count := signedCount_of_lt
  constructor
  · rintro ⟨hext, heq, -⟩
    rw [h.extended] at hext
    change lost session = _ at heq
    rw [hlost] at heq
    refine ⟨by omega, fun hfull => ?_, fun hmany => ?_⟩
    · by_contra hfew
      rw [hfull, hsmall (by omega)] at heq
      omega
    · omega
  · rintro ⟨hlt, hfull, hmany⟩
    refine ⟨by rw [h.extended, Nat.mod_eq_of_lt hlt], ?_, ?_⟩
    · change lost session = _
      rw [hlost]
      omega
    · change (UInt8.ofNat (fraction session)).toNat = _
      rw [UInt8.toNat_ofNat', Nat.mod_eq_of_lt]
      unfold fraction
      split_ifs with hboth
      · rw [Nat.div_lt_iff_lt_mul hboth.1, Nat.mul_comm, Nat.mul_lt_mul_left (by decide)]
        omega
      · decide

theorem lost_create (clockRate : UInt32) : lost (create clockRate) = 1 := by
  have hexp : expected (create clockRate) = 1 := by
    change (0 + (0 : UInt16).toUInt32 - 0 + 1 : UInt32) = 1
    decide
  rw [lost, hexp]
  rfl

def ReportsLoss (arrivals : List Arrival) (session : Session) (block : RrBlock) : Prop :=
  match arrivals with
  | [] => block.cumulativeLost = 0
  | a :: rest =>
    CountsLoss a.number (highestOf a.number rest) (rest.length + 1) session block

/-- A packet was received, and the words do not wrap. -/
def reportable : List Arrival → Prop
  | [] => False
  | a :: rest => Countable (highestOf a.number rest - a.number) (rest.length + 1)

theorem reports_loss_iff (clockRate blockSsrc : UInt32) (nowMs : UInt64) (arrivals : List Arrival)
    (hfeed : Feed arrivals) :
    ReportsLoss arrivals (after (create clockRate) arrivals)
        (buildRrBlock (after (create clockRate) arrivals) blockSsrc nowMs) ↔
      reportable arrivals := by
  cases arrivals with
  | nil =>
    refine ⟨fun hnone => ?_, False.elim⟩
    rw [ReportsLoss, buildRrBlock, after, List.map_nil, Machine.run_nil, lost_create] at hnone
    cases hnone
  | cons a rest =>
    have hfollows := follows_run (follows_first clockRate hfeed.1) hfeed.2
    rw [Nat.add_comm 1] at hfollows
    exact countsLoss_iff hfollows blockSsrc nowMs

/-- Two packets, with one missing between them where the numbers wrap. -/
def aroundWrap : List Arrival :=
  [⟨65535, bareHeader 65535 0 7, 1⟩, ⟨65537, bareHeader 1 0 7, 2⟩]

theorem reports_loss_iff_wrapped :
    ReportsLoss aroundWrap (after (create 1000) aroundWrap)
      (buildRrBlock (after (create 1000) aroundWrap) 0 3) := by
  refine (reports_loss_iff 1000 0 3 aroundWrap ?_).mpr ?_
  · exact ⟨rfl, rfl, rfl, by decide, by decide, by decide, trivial⟩
  · exact ⟨by decide, fun h => absurd h (by decide), fun h => absurd h (by decide)⟩

/-- A session that has received nothing reports one packet as lost. -/
theorem nothing_received_reports_loss :
    ¬ ReportsLoss [] (after (create 90000) []) (buildRrBlock (after (create 90000) []) 0 1) ∧
      (buildRrBlock (create 90000) 0 1).cumulativeLost = 1 :=
  ⟨fun h => absurd (show (1 : ℕ) = 0 from h) (by decide), rfl⟩

end TurboMedia.RtpSession
