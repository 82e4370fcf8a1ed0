import TurboMedia.Lib.Bytes
import Mathlib.Data.List.Sort

/-!
# NACK feedback on the wire

Model of `nack_build_rtcp` and `nack_parse_rtcp`: sequence numbers are grouped into blocks of one
number (PID) and a mask of the 16 numbers behind it (BLP).  Sizes are computed in one loop and
blocks are written in another.

**Result.**  `nack_round_trip`, by induction on the blocks; `collectBlp_spec` says what the mask
of one block stands for.
-/

namespace TurboMedia.NackRtcp

open List

open Bytes

/-- `seq_diff` of `nack.c`. -/
def seqDiff (a b : UInt16) : ℤ :=
  let diff : ℤ := a.toNat - b.toNat
  if diff > 32768 then diff - 65536 else if diff < -32768 then diff + 65536 else diff

/-- The check that a number goes into the block of another one. -/
def near (pid s : UInt16) : Bool :=
  0 < seqDiff s pid && seqDiff s pid ≤ 16

def skipNear (pid : UInt16) : ℕ → List UInt16 → List UInt16
  | room + 1, s :: rest => if near pid s then skipNear pid room rest else s :: rest
  | _, rest => rest

/-- The counting pass; the fuel is the number of sequence numbers. -/
def countBlocks : ℕ → List UInt16 → ℕ
  | fuel + 1, pid :: rest => countBlocks fuel (skipNear pid 16 rest) + 1
  | _, _ => 0

def collectBlp (pid : UInt16) : ℕ → UInt16 → List UInt16 → UInt16 × List UInt16
  | room + 1, blp, s :: rest =>
    if near pid s then
      collectBlp pid room (blp ||| UInt16.ofNat (1 <<< (seqDiff s pid - 1).toNat)) rest
    else (blp, s :: rest)
  | _, blp, rest => (blp, rest)

def writeBlocks : ℕ → List UInt16 → List UInt8
  | fuel + 1, pid :: rest =>
    let block := collectBlp pid 16 0 rest
    writeU16 pid ++ writeU16 block.1 ++ writeBlocks fuel block.2
  | _, _ => []

/-- `INT_MAX`. -/
def intMax : ℕ := 2 ^ 31 - 1

/-- `nack_build_rtcp`: the size and the bytes that are written.  A size that is no `int` is
undefined behaviour, and counts as a failure. -/
def nackBuildRtcp (senderSsrc mediaSsrc : UInt32) (seqNums : List UInt16) (len : ℕ) :
    Option (ℕ × List UInt8) :=
  let packetLen := 12 + countBlocks seqNums.length seqNums * 4
  if seqNums = [] ∨ packetLen > intMax ∨ len < packetLen then none
  else
    some (packetLen,
      [0x80 ||| 1, 205] ++ writeU16 (UInt16.ofNat (packetLen / 4 - 1)) ++ writeU32 senderSsrc ++
        writeU32 mediaSsrc ++ writeBlocks seqNums.length seqNums)

def addBits (pid blp : UInt16) (maxCount : ℤ) : List ℕ → List UInt16 → List UInt16
  | [], out => out
  | i :: rest, out =>
    if out.length < maxCount then
      addBits pid blp maxCount rest
        (if blp.toNat.testBit i then out ++ [pid + UInt16.ofNat i + 1] else out)
    else out

def parseBlocks (maxCount : ℤ) : List UInt8 → List UInt16 → List UInt16
  | a :: b :: c :: d :: rest, out =>
    if out.length < maxCount then
      parseBlocks maxCount rest
        (addBits (join16 a b) (join16 c d) maxCount (List.range 16) (out ++ [join16 a b]))
    else out
  | _, out => out

/-- `nack_parse_rtcp`. -/
def nackParseRtcp (buffer : List UInt8) (maxCount : ℤ) :
    Option (UInt32 × UInt32 × List UInt16) :=
  if buffer.length < 12 then none
  else if u8At buffer 0 &&& 0xC0 ≠ 0x80 ∨ u8At buffer 1 ≠ 205 ∨ u8At buffer 0 &&& 0x1F ≠ 1 then none
  else some (readU32 buffer 4, readU32 buffer 8, parseBlocks maxCount (buffer.drop 12) [])

section Blocks

variable {pid s : UInt16}

theorem seqDiff_eq_succ_iff {i : ℕ} (hi : i < 16) :
    seqDiff s pid = i + 1 ↔ s = pid + UInt16.ofNat i + 1 := by
  have hs := s.toNat_lt
  have hpid := pid.toNat_lt
  have hadd : (pid + UInt16.ofNat i + 1).toNat = (pid.toNat + i + 1) % 65536 := by
    have hval : (UInt16.ofNat i).toNat = i := UInt16.toNat_ofNat_of_lt (hi.trans (by decide))
    rw [UInt16.toNat_add, UInt16.toNat_add, hval]
    change ((pid.toNat + i) % 65536 + 1) % 65536 = _
    omega
  rw [← UInt16.toNat_inj, hadd, seqDiff]
  split_ifs <;> omega

theorem near_iff : near pid s = true ↔ ∃ i < 16, seqDiff s pid = (i : ℕ) + 1 := by
  rw [near, Bool.and_eq_true, decide_eq_true_eq, decide_eq_true_eq]
  constructor
  · rintro ⟨hpos, hle⟩
    exact ⟨(seqDiff s pid - 1).toNat, by omega, by omega⟩
  · rintro ⟨i, hi, heq⟩
    omega

theorem collectBlp_skipNear (room : ℕ) (blp : UInt16) (rest : List UInt16) :
    (collectBlp pid room blp rest).2 = skipNear pid room rest := by
  induction room generalizing blp rest with
  | zero => rfl
  | succ room ih =>
    cases rest with
    | nil => rfl
    | cons s rest =>
      rw [collectBlp, skipNear]
      split_ifs
      · exact ih _ rest
      · rfl

theorem testBit_or_bit (blp : UInt16) {i j : ℕ} (hi : i < 16) :
    (blp ||| UInt16.ofNat (1 <<< i)).toNat.testBit j = true ↔
      blp.toNat.testBit j = true ∨ j = i := by
  have hpow : (UInt16.ofNat (2 ^ i)).toNat = 2 ^ i :=
    UInt16.toNat_ofNat_of_lt (Nat.pow_lt_pow_right (by decide) hi)
  rw [UInt16.toNat_or, Nat.testBit_or, Bool.or_eq_true, Nat.shiftLeft_eq, Nat.one_mul, hpow,
    Nat.testBit_two_pow, decide_eq_true_eq, eq_comm (a := i)]

/-- A block takes numbers off the list, and its mask has the bits of these. -/
theorem collectBlp_spec (room : ℕ) (blp : UInt16) (rest : List UInt16) :
    ∃ run, rest = run ++ (collectBlp pid room blp rest).2 ∧ (∀ s ∈ run, near pid s = true) ∧
      ∀ j < 16, (collectBlp pid room blp rest).1.toNat.testBit j = true ↔
        blp.toNat.testBit j = true ∨ ∃ s ∈ run, seqDiff s pid = (j : ℕ) + 1 := by
  induction room generalizing blp rest with
  | zero => exact ⟨[], rfl, by simp, by simp [collectBlp]⟩
  | succ room ih =>
    cases rest with
    | nil => exact ⟨[], rfl, by simp, by simp [collectBlp]⟩
    | cons s rest =>
      rw [collectBlp]
      split
      next hnear =>
        obtain ⟨run, hrest, hrun, hbits⟩ :=
          ih (blp ||| UInt16.ofNat (1 <<< (seqDiff s pid - 1).toNat)) rest
        obtain ⟨i, hi, hdiff⟩ := near_iff.mp hnear
        refine ⟨s :: run, congrArg (List.cons s) hrest, ?_, fun j hj => ?_⟩
        · exact forall_mem_cons.mpr ⟨hnear, hrun⟩
        · have hidx : (seqDiff s pid - 1).toNat = i := by omega
          rw [hbits j hj, hidx, testBit_or_bit blp hi, exists_mem_cons_iff, hdiff, or_assoc]
          refine or_congr_right (or_congr_left ?_)
          omega
      · exact ⟨[], rfl, by simp, by simp⟩

def expand (pid blp : UInt16) : List UInt16 :=
  pid :: ((List.range 16).filter (fun i => blp.toNat.testBit i)).map
    (fun i => pid + UInt16.ofNat i + 1)

theorem length_expand_le (pid blp : UInt16) : (expand pid blp).length ≤ 17 := by
  rw [expand, length_cons, length_map]
  have hle := length_filter_le (fun i => blp.toNat.testBit i) (List.range 16)
  rw [length_range] at hle
  omega

theorem addBits_eq (pid blp : UInt16) {maxCount : ℤ} {is : List ℕ} {out : List UInt16}
    (hroom : ((out.length + is.length : ℕ) : ℤ) ≤ maxCount) :
    addBits pid blp maxCount is out =
      out ++ (is.filter (fun i => blp.toNat.testBit i)).map
        (fun i => pid + UInt16.ofNat i + 1) := by
  induction is generalizing out with
  | nil => exact (append_nil out).symm
  | cons i rest ih =>
    rw [length_cons] at hroom
    rw [addBits, if_pos (by omega), filter_cons]
    split_ifs with hbit
    · rw [ih (by rw [length_append, length_singleton]; omega), map_cons,
        append_assoc]
      rfl
    · exact ih (by omega)

theorem parseBlocks_cons (pid blp : UInt16) {maxCount : ℤ} {out : List UInt16} (rest : List UInt8)
    (hroom : ((out.length + 17 : ℕ) : ℤ) ≤ maxCount) :
    parseBlocks maxCount (writeU16 pid ++ writeU16 blp ++ rest) out =
      parseBlocks maxCount rest (out ++ expand pid blp) := by
  rw [writeU16, writeU16, append_assoc, cons_append, cons_append, nil_append,
    cons_append, cons_append, nil_append, parseBlocks, if_pos (by omega),
    join16_split, join16_split, addBits_eq, append_assoc]
  · rfl
  · rw [length_append, length_singleton, length_range]
    omega

theorem mem_expand {blp : UInt16} {run : List UInt16} (hnear : ∀ s ∈ run, near pid s = true)
    (hbits : ∀ j < 16, blp.toNat.testBit j = true ↔ ∃ s ∈ run, seqDiff s pid = (j : ℕ) + 1)
    (s : UInt16) : s ∈ expand pid blp ↔ s ∈ pid :: run := by
  rw [expand, mem_cons, mem_cons, mem_map]
  refine or_congr_right ?_
  constructor
  · rintro ⟨i, hi, rfl⟩
    rw [mem_filter, mem_range] at hi
    obtain ⟨s, hs, hdiff⟩ := (hbits i hi.1).mp hi.2
    rwa [← (seqDiff_eq_succ_iff hi.1).mp hdiff]
  · intro hs
    obtain ⟨i, hi, hdiff⟩ := near_iff.mp (hnear s hs)
    refine ⟨i, ?_, ((seqDiff_eq_succ_iff hi).mp hdiff).symm⟩
    rw [mem_filter, mem_range]
    exact ⟨hi, (hbits i hi).mpr ⟨s, hs, hdiff⟩⟩

/-- Each number is newer than the one before it. -/
def Increasing (seqNums : List UInt16) : Prop :=
  seqNums.IsChain (fun a b => 0 < seqDiff b a)

theorem offset_lt {a b : UInt16} (ha : near pid a = true) (hb : near pid b = true)
    (hab : 0 < seqDiff b a) : seqDiff a pid < seqDiff b pid := by
  have ha' := a.toNat_lt
  have hb' := b.toNat_lt
  have hpid := pid.toNat_lt
  simp only [near, Bool.and_eq_true, decide_eq_true_eq] at ha hb
  unfold seqDiff at *
  dsimp only at *
  split_ifs at * <;> omega

theorem pairwise_offset {run : List UInt16} (hnear : ∀ s ∈ run, near pid s = true)
    (hrun : Increasing run) : (run.map (fun s => (seqDiff s pid - 1).toNat)).Pairwise (· < ·) := by
  rw [← isChain_iff_pairwise, isChain_map]
  induction run with
  | nil => exact .nil
  | cons a rest ih =>
    obtain ⟨ha, hrest⟩ := forall_mem_cons.mp hnear
    cases rest with
    | nil => exact .singleton a
    | cons b rest =>
      obtain ⟨hab, hchain⟩ := isChain_cons_cons.mp hrun
      refine isChain_cons_cons.mpr ⟨?_, ih hrest hchain⟩
      have hlt := offset_lt ha (hrest b mem_cons_self) hab
      obtain ⟨i, -, hi⟩ := near_iff.mp ha
      omega

theorem expand_eq {blp : UInt16} {run : List UInt16} (hnear : ∀ s ∈ run, near pid s = true)
    (hbits : ∀ j < 16, blp.toNat.testBit j = true ↔ ∃ s ∈ run, seqDiff s pid = (j : ℕ) + 1)
    (hrun : Increasing run) : expand pid blp = pid :: run := by
  have hsame : (List.range 16).filter (fun i => blp.toNat.testBit i) =
      run.map (fun s => (seqDiff s pid - 1).toNat) := by
    refine List.Pairwise.eq_of_mem_iff (pairwise_lt_range.sublist filter_sublist)
      (pairwise_offset hnear hrun) (fun i => ?_)
    rw [mem_filter, mem_range, mem_map]
    constructor
    · rintro ⟨hi, hbit⟩
      obtain ⟨s, hs, hdiff⟩ := (hbits i hi).mp hbit
      exact ⟨s, hs, by omega⟩
    · rintro ⟨s, hs, rfl⟩
      obtain ⟨i, hi, hdiff⟩ := near_iff.mp (hnear s hs)
      rw [hdiff, add_sub_cancel_right, Int.toNat_natCast]
      exact ⟨hi, (hbits i hi).mpr ⟨s, hs, hdiff⟩⟩
  rw [expand, hsame, map_map]
  congr 1
  refine (map_congr_left (fun s hs => ?_)).trans (map_id run)
  obtain ⟨i, hi, hdiff⟩ := near_iff.mp (hnear s hs)
  rw [Function.comp_apply, hdiff, add_sub_cancel_right, Int.toNat_natCast]
  exact ((seqDiff_eq_succ_iff hi).mp hdiff).symm

end Blocks

def readBack : ℕ → List UInt16 → List UInt16
  | fuel + 1, pid :: rest =>
    let block := collectBlp pid 16 0 rest
    expand pid block.1 ++ readBack fuel block.2
  | _, _ => []

theorem length_writeBlocks (fuel : ℕ) (seqNums : List UInt16) :
    (writeBlocks fuel seqNums).length = countBlocks fuel seqNums * 4 := by
  induction fuel generalizing seqNums with
  | zero => cases seqNums <;> rfl
  | succ fuel ih =>
    cases seqNums with
    | nil => rfl
    | cons pid rest =>
      rw [writeBlocks, countBlocks, length_append, length_append, length_writeU16,
        length_writeU16, ih, collectBlp_skipNear]
      omega

theorem parseBlocks_writeBlocks
    {fuel : ℕ} {seqNums : List UInt16} {maxCount : ℤ} {out : List UInt16}
    (hroom : ((out.length + 17 * countBlocks fuel seqNums : ℕ) : ℤ) ≤ maxCount) :
    parseBlocks maxCount (writeBlocks fuel seqNums) out = out ++ readBack fuel seqNums := by
  induction fuel generalizing seqNums out with
  | zero => cases seqNums <;> exact (append_nil out).symm
  | succ fuel ih =>
    cases seqNums with
    | nil => exact (append_nil out).symm
    | cons pid rest =>
      rw [countBlocks] at hroom
      rw [writeBlocks, readBack]
      have hlen := length_expand_le pid (collectBlp pid 16 0 rest).1
      rw [parseBlocks_cons _ _ _ (by omega), ih, append_assoc]
      rw [length_append, collectBlp_skipNear]
      omega

/-- The numbers that are read are those that were given, in order where these increase. -/
theorem readBack_spec {fuel : ℕ} {seqNums : List UInt16} (hfuel : seqNums.length ≤ fuel) :
    (∀ s, s ∈ readBack fuel seqNums ↔ s ∈ seqNums) ∧
      (Increasing seqNums → readBack fuel seqNums = seqNums) := by
  induction fuel generalizing seqNums with
  | zero =>
    obtain rfl := eq_nil_of_length_eq_zero (Nat.le_zero.mp hfuel)
    exact ⟨fun s => Iff.rfl, fun _ => rfl⟩
  | succ fuel ih =>
    cases seqNums with
    | nil => exact ⟨fun s => Iff.rfl, fun _ => rfl⟩
    | cons pid rest =>
      rw [readBack]
      obtain ⟨run, hrest, hnear, hbits⟩ := collectBlp_spec 16 0 rest
      have hbits' : ∀ j < 16, (collectBlp pid 16 0 rest).1.toNat.testBit j = true ↔
          ∃ s ∈ run, seqDiff s pid = (j : ℕ) + 1 := fun j hj => by
        rw [hbits j hj]
        simp
      generalize collectBlp pid 16 0 rest = block at hrest hbits'
      subst hrest
      rw [length_cons, length_append] at hfuel
      obtain ⟨hmem, hsorted⟩ := @ih block.2 (by omega)
      constructor
      · intro s
        rw [mem_append, mem_expand hnear hbits', hmem, ← mem_append, cons_append]
      · intro hincreasing
        have hparts : Increasing ((pid :: run) ++ block.2) := hincreasing
        rw [Increasing, isChain_append] at hparts
        rw [expand_eq hnear hbits' hparts.1.tail, hsorted hparts.2.1, cons_append]

/-- What is built has the size that was counted, and is read back. -/
theorem nack_round_trip {senderSsrc mediaSsrc : UInt32} {seqNums : List UInt16} {len packetLen : ℕ}
    {bytes : List UInt8}
    (hbuild : nackBuildRtcp senderSsrc mediaSsrc seqNums len = some (packetLen, bytes)) :
    packetLen = bytes.length ∧
      ∀ maxCount : ℤ, 17 * (countBlocks seqNums.length seqNums : ℤ) ≤ maxCount →
        ∃ out, nackParseRtcp bytes maxCount = some (senderSsrc, mediaSsrc, out) ∧
          (∀ s, s ∈ out ↔ s ∈ seqNums) ∧ (Increasing seqNums → out = seqNums) := by
  unfold nackBuildRtcp at hbuild
  dsimp only at hbuild
  split_ifs at hbuild
  obtain ⟨rfl, rfl⟩ := Prod.mk.inj (Option.some.inj hbuild)
  constructor
  · simp only [length_append, length_writeU16, length_writeU32, length_writeBlocks,
      length_cons, length_nil]
  · intro maxCount hroom
    obtain ⟨hmem, hsorted⟩ := readBack_spec (le_refl seqNums.length)
    refine ⟨readBack seqNums.length seqNums, ?_, hmem, hsorted⟩
    have hparse := @parseBlocks_writeBlocks seqNums.length seqNums maxCount []
      (by rw [length_nil]; omega)
    rw [nil_append] at hparse
    generalize UInt16.ofNat ((12 + countBlocks seqNums.length seqNums * 4) / 4 - 1) = words
    rw [nackParseRtcp, if_neg, if_neg, ← hparse]
    · refine congrArg some (Prod.ext ?_ (Prod.ext ?_ rfl))
      · exact join32_split senderSsrc
      · exact join32_split mediaSsrc
    · rw [not_or, not_or]
      exact ⟨not_not.mpr (show (0x80 ||| 1 : UInt8) &&& 0xC0 = 0x80 by decide), not_not.mpr rfl,
        not_not.mpr (show (0x80 ||| 1 : UInt8) &&& 0x1F = 1 by decide)⟩
    · simp only [length_append, length_writeU16, length_writeU32, length_cons,
        length_nil]
      omega

theorem nack_round_trip_wrapped :
    ∃ out, nackParseRtcp
        ([0x81, 205, 0, 3, 0, 0, 0, 1, 0, 0, 0, 2, 255, 255, 0, 1] : List UInt8) 17 =
      some (1, 2, out) ∧ (∀ s, s ∈ out ↔ s ∈ [(65535 : UInt16), 0]) := by
  obtain ⟨-, hparse⟩ := @nack_round_trip 1 2 [65535, 0] 16 16
    [0x81, 205, 0, 3, 0, 0, 0, 1, 0, 0, 0, 2, 255, 255, 0, 1] (by decide)
  obtain ⟨out, hout, hmem, -⟩ := hparse 17 (by decide)
  exact ⟨out, hout, hmem⟩

end TurboMedia.NackRtcp
