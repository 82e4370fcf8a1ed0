import Mathlib.Data.List.TakeWhile
import TurboMedia.Lib.BitFields
import TurboMedia.Lib.Bytes
import TurboMedia.Rtc.Twcc

/-!
# Status chunks of transport feedback

Model of `twcc_build_status_chunks` and of the chunk loop of `rtcp_parse_twcc`.
A chunk is a run of one symbol, a vector of 14 one-bit symbols, or a vector of
7 two-bit symbols.

The encoder takes the symbols that are left and a bound on the chunks, the
decoder the bytes that are left and the number of symbols still to be read.  The
decoder reads back what the encoder wrote, whatever bytes follow.
-/

namespace TurboMedia.Twcc

open List BitFields

open BitFields (pack field)
open Bytes (join16 writeU16)

/-- `twcc_symbol_t`. -/
inductive Symbol where
  | notReceived
  | smallDelta
  | largeDelta
  | reserved
deriving DecidableEq

namespace Symbol

def code : Symbol → ℕ
  | notReceived => 0
  | smallDelta => 1
  | largeDelta => 2
  | reserved => 3

def ofCode : ℕ → Symbol
  | 0 => notReceived
  | 1 => smallDelta
  | 2 => largeDelta
  | _ => reserved

def bit (symbol : Symbol) : ℕ :=
  if symbol = smallDelta then 1 else 0

def ofBit (bit : ℕ) : Symbol :=
  if bit ≠ 0 then smallDelta else notReceived

theorem ofCode_code (symbol : Symbol) : ofCode symbol.code = symbol := by
  cases symbol with
  | notReceived | smallDelta | largeDelta | reserved => rfl

theorem code_lt (symbol : Symbol) : symbol.code < 2 ^ 2 := by
  cases symbol with
  | notReceived | smallDelta | largeDelta | reserved => decide

theorem bit_lt (symbol : Symbol) : symbol.bit < 2 ^ 1 := by
  unfold bit
  split_ifs <;> decide

end Symbol

/-- `twcc_can_use_one_bit_vector`. -/
def canUseOneBitVector (symbols : List Symbol) : Bool :=
  symbols.all (fun symbol => symbol = .notReceived ∨ symbol = .smallDelta)

/-- Length of the run at the head of the symbols, at most 0x1FFF. -/
def runLen (symbols : List Symbol) : ℕ :=
  match symbols with
  | [] => 0
  | first :: _ => ((symbols.take 0x1FFF).takeWhile (· = first)).length

def runChunk (symbol : Symbol) (len : ℕ) : BitVec 16 :=
  BitVec.ofNat 16 symbol.code <<< 13 ||| BitVec.ofNat 16 len

def oneBitChunk (symbols : List Symbol) : BitVec 16 :=
  pack 1 13 0x8000#16 (symbols.map Symbol.bit)

def twoBitChunk (symbols : List Symbol) : BitVec 16 :=
  pack 2 12 0xC000#16 (symbols.map Symbol.code)

/-- `twcc_build_status_chunks`; the first argument is the number of chunks that
are left, and no chunk left is an error. -/
def buildStatusChunks : ℕ → List Symbol → Option (List (BitVec 16))
  | _, [] => some []
  | 0, _ :: _ => none
  | maxChunks + 1, first :: rest =>
    let symbols := first :: rest
    if runLen symbols ≥ 7 then
      (buildStatusChunks maxChunks (symbols.drop (runLen symbols))).map
        (runChunk first (runLen symbols) :: ·)
    else if canUseOneBitVector (symbols.take 14) then
      (buildStatusChunks maxChunks (symbols.drop 14)).map (oneBitChunk (symbols.take 14) :: ·)
    else
      (buildStatusChunks maxChunks (symbols.drop 7)).map (twoBitChunk (symbols.take 7) :: ·)

def chunkBytes (chunks : List (BitVec 16)) : List UInt8 :=
  chunks.flatMap (fun chunk => writeU16 ⟨chunk⟩)

/-- The symbols of one chunk, when `remaining` symbols are still to be read. -/
def decodeChunk (chunk : BitVec 16) (remaining : ℕ) : Option (List Symbol) :=
  if chunk &&& 0x8000#16 = 0#16 then
    let symbol := Symbol.ofCode (field 2 chunk 13)
    let len := field 13 chunk 0
    if symbol = .reserved ∨ len = 0 then none
    else if len > remaining then none
    else some (replicate len symbol)
  else
    let symbols :=
      if chunk &&& 0x4000#16 ≠ 0#16 then
        (List.range (min 7 remaining)).map (fun i => Symbol.ofCode (field 2 chunk (12 - 2 * i)))
      else (List.range (min 14 remaining)).map (fun i => Symbol.ofBit (field 1 chunk (13 - 1 * i)))
    if .reserved ∈ symbols then none
    else some symbols

/-- The chunk loop: the symbols, and the bytes after the last chunk. -/
def parseChunks : List UInt8 → ℕ → Option (List Symbol × List UInt8)
  | bytes, 0 => some ([], bytes)
  | hi :: lo :: bytes, remaining + 1 => do
      let symbols ← decodeChunk (join16 hi lo).toBitVec (remaining + 1)
      let (more, rest) ← parseChunks bytes (remaining + 1 - symbols.length)
      some (symbols ++ more, rest)
  | _, _ + 1 => none

theorem parseChunks_zero (bytes : List UInt8) : parseChunks bytes 0 = some ([], bytes) := by
  rw [parseChunks]

theorem and_twoPow_eq_zero (chunk : BitVec 16) {k : ℕ} (hk : k < 16) :
    chunk &&& BitVec.twoPow 16 k = 0#16 ↔ chunk.getLsbD k = false := by
  constructor
  · intro h
    have hbit := congrArg (fun word : BitVec 16 => word.getLsbD k) h
    simpa [hk] using hbit
  · intro h
    apply BitVec.eq_of_getLsbD_eq
    intro i hi
    rw [BitVec.getLsbD_and, BitVec.getLsbD_twoPow]
    by_cases hik : k = i
    · subst hik
      simp [h]
    · simp [hik]

variable {remaining : ℕ}

theorem decodeChunk_run {symbol : Symbol} {len : ℕ} (hsymbol : symbol ≠ .reserved)
    (hpos : 0 < len) (hlen : len ≤ 0x1FFF) (hrem : len ≤ remaining) :
    decodeChunk (runChunk symbol len) remaining = some (replicate len symbol) := by
  have hcode : symbol.code ≤ 2 := by
    cases symbol with
    | notReceived | smallDelta | largeDelta => decide
    | reserved => exact absurd rfl hsymbol
  have hvalue : (runChunk symbol len).toNat = symbol.code * 2 ^ 13 + len := by
    rw [runChunk, BitVec.toNat_or, BitVec.toNat_shiftLeft, BitVec.toNat_ofNat, BitVec.toNat_ofNat,
      Nat.shiftLeft_eq, Nat.mod_eq_of_lt (show symbol.code < 2 ^ 16 by omega),
      Nat.mod_eq_of_lt (show symbol.code * 2 ^ 13 < 2 ^ 16 by omega),
      Nat.mod_eq_of_lt (show len < 2 ^ 16 by omega), Bytes.or_eq_add (by omega)]
  have hrun : runChunk symbol len &&& 0x8000#16 = 0#16 := by
    apply (and_twoPow_eq_zero (runChunk symbol len) (k := 15) (by decide)).mpr
    rw [BitVec.getLsbD, hvalue]
    apply Nat.testBit_lt_two_pow
    omega
  have hsym : field 2 (runChunk symbol len) 13 = symbol.code := by
    rw [field_eq _ _ (by decide), hvalue]
    omega
  have hfield : field 13 (runChunk symbol len) 0 = len := by
    rw [field_eq _ _ (by decide), hvalue]
    omega
  rw [decodeChunk, if_pos hrun]
  rw [hsym, hfield, Symbol.ofCode_code, if_neg (by simp [hsymbol, hpos.ne']), if_neg (by omega)]

theorem vector_tag {b : ℕ} (top : ℕ) (tag : BitVec 16) {vs : List ℕ} (hvs : ∀ v ∈ vs, v < 2 ^ b)
    (htop : top + b = 14) {k : ℕ} (hk : k < 16) (hlow : 14 ≤ k) :
    pack b top tag vs &&& BitVec.twoPow 16 k = 0#16 ↔ tag.getLsbD k = false := by
  rw [and_twoPow_eq_zero _ hk, pack_high vs top tag hvs hk (by omega)]

variable {symbols : List Symbol}

theorem vector_read {b : ℕ} (top : ℕ) (tag : BitVec 16) {f : Symbol → ℕ} (g : ℕ → Symbol)
    (hf : ∀ v ∈ symbols.map f, v < 2 ^ b) (hg : ∀ symbol ∈ symbols, g (f symbol) = symbol)
    (htop : top + b = 14) (htag : ∀ k, k < 14 → tag.getLsbD k = false)
    (hroom : b * symbols.length ≤ 14) :
    (List.range symbols.length).map
      (fun i => g (field b (pack b top tag (symbols.map f)) (top - b * i))) = symbols := by
  have hfields := field_pack (symbols.map f) top tag hf
    (fun k hk => htag k (by omega)) (by omega) (by rw [length_map]; omega)
  rw [length_map] at hfields
  have hdecoded := congrArg (List.map g) hfields
  rw [map_map, map_map] at hdecoded
  refine hdecoded.trans ?_
  conv_rhs => rw [← map_id symbols]
  exact map_congr_left hg

theorem decodeChunk_oneBit
    (hsymbols : canUseOneBitVector symbols = true) (hlength : symbols.length = min 14 remaining) :
    decodeChunk (oneBitChunk symbols) remaining = some symbols := by
  have hbits : ∀ v ∈ symbols.map Symbol.bit, v < 2 ^ 1 := by
    intro v hv
    obtain ⟨symbol, _, rfl⟩ := mem_map.mp hv
    exact symbol.bit_lt
  have hmem : ∀ symbol ∈ symbols, symbol = .notReceived ∨ symbol = .smallDelta := by
    intro symbol hsymbol
    simpa using all_eq_true.mp hsymbols symbol hsymbol
  have hvector : ¬oneBitChunk symbols &&& 0x8000#16 = 0#16 := by
    rw [oneBitChunk]
    intro hzero
    have := (vector_tag 13 0x8000#16 hbits rfl (k := 15) (by decide) (by decide)).mp hzero
    simp at this
  have hone : oneBitChunk symbols &&& 0x4000#16 = 0#16 := by
    rw [oneBitChunk]
    exact (vector_tag 13 0x8000#16 hbits rfl (k := 14) (by decide) (by decide)).mpr
      (by decide)
  have hread : (List.range (min 14 remaining)).map
      (fun i => Symbol.ofBit (field 1 (oneBitChunk symbols) (13 - 1 * i))) = symbols := by
    rw [← hlength, oneBitChunk]
    refine vector_read 13 0x8000#16 Symbol.ofBit hbits ?_ rfl (by decide) (by omega)
    intro symbol hsymbol
    rcases hmem symbol hsymbol with rfl | rfl <;> rfl
  rw [decodeChunk, if_neg hvector]
  rw [if_neg (not_not.mpr hone), hread, if_neg]
  intro hrsv
  rcases hmem _ hrsv with h | h <;> cases h

theorem decodeChunk_twoBit (hsymbols : .reserved ∉ symbols)
    (hlength : symbols.length = min 7 remaining) :
    decodeChunk (twoBitChunk symbols) remaining = some symbols := by
  have hcodes : ∀ v ∈ symbols.map Symbol.code, v < 2 ^ 2 := by
    intro v hv
    obtain ⟨symbol, _, rfl⟩ := mem_map.mp hv
    exact symbol.code_lt
  have htag : ∀ k, 14 ≤ k → k < 16 → ¬twoBitChunk symbols &&& BitVec.twoPow 16 k = 0#16 := by
    intro k hlow hk hzero
    have hbit := (vector_tag 12 0xC000#16 hcodes rfl hk hlow).mp hzero
    have hcases : k = 14 ∨ k = 15 := by omega
    rcases hcases with rfl | rfl <;> simp at hbit
  have hread : (List.range (min 7 remaining)).map
      (fun i => Symbol.ofCode (field 2 (twoBitChunk symbols) (12 - 2 * i))) = symbols := by
    rw [← hlength, twoBitChunk]
    exact vector_read 12 0xC000#16 Symbol.ofCode hcodes (fun symbol _ => symbol.ofCode_code) rfl
      (by decide) (by omega)
  have hvector : ¬twoBitChunk symbols &&& 0x8000#16 = 0#16 := htag 15 (by decide) (by decide)
  have htwo : twoBitChunk symbols &&& 0x4000#16 ≠ 0#16 := htag 14 (by decide) (by decide)
  rw [decodeChunk, if_neg hvector]
  rw [if_pos htwo, hread, if_neg hsymbols]

theorem runLen_spec (first : Symbol) (rest : List Symbol) :
    runLen (first :: rest) ≤ 0x1FFF ∧ runLen (first :: rest) ≤ (first :: rest).length ∧
      (first :: rest).take (runLen (first :: rest)) =
        replicate (runLen (first :: rest)) first := by
  have hrun := takeWhile_prefix (l := (first :: rest).take 0x1FFF) (· = first)
  have hprefix := hrun.trans <| take_prefix 0x1FFF (first :: rest)
  refine ⟨?_, hprefix.length_le, ?_⟩
  · exact hrun.length_le.trans (length_take_le _ _)
  · rw [runLen, ← prefix_iff_eq_take.mp hprefix]
    apply eq_replicate_of_mem
    intro symbol hsymbol
    simpa using mem_takeWhile_imp hsymbol

theorem parseChunks_chunk {chunk : BitVec 16} {more : List Symbol} {bytes rest : List UInt8}
    (hne : symbols ≠ []) (hdec : decodeChunk chunk (symbols ++ more).length = some symbols)
    (hmore : parseChunks bytes more.length = some (more, rest)) :
    parseChunks (writeU16 ⟨chunk⟩ ++ bytes) (symbols ++ more).length =
      some (symbols ++ more, rest) := by
  obtain ⟨n, hn⟩ : ∃ n, (symbols ++ more).length = n + 1 := by
    apply Nat.exists_eq_succ_of_ne_zero
    simp [hne]
  have hleft : n + 1 - symbols.length = more.length := by
    rw [← hn, length_append]
    omega
  have hword : (join16 ((⟨chunk⟩ : UInt16) >>> 8).toUInt8
      ((⟨chunk⟩ : UInt16) &&& 0xFF).toUInt8).toBitVec = chunk := by
    rw [Bytes.join16_split]
  rw [hn] at hdec ⊢
  simp only [writeU16, cons_append, nil_append, parseChunks, hword, hdec,
    Option.bind_eq_bind, Option.bind_some, hleft, hmore]

/-- The loop reads back the symbols of the chunks, and stops after them. -/
theorem parseChunks_build {maxChunks : ℕ} {chunks : List (BitVec 16)}
    (hsymbols : .reserved ∉ symbols) (h : buildStatusChunks maxChunks symbols = some chunks)
    (rest : List UInt8) :
    parseChunks (chunkBytes chunks ++ rest) symbols.length = some (symbols, rest) := by
  induction maxChunks generalizing symbols chunks with
  | zero =>
    cases symbols with
    | nil =>
      simp only [buildStatusChunks, Option.some.injEq] at h
      subst h
      exact parseChunks_zero rest
    | cons first tail => simp [buildStatusChunks] at h
  | succ maxChunks ih =>
    cases symbols with
    | nil =>
      simp only [buildStatusChunks, Option.some.injEq] at h
      subst h
      exact parseChunks_zero rest
    | cons first tail =>
      obtain ⟨hmax, hlen, hrun⟩ := runLen_spec first tail
      -- A chunk of the first `n` symbols, followed by the chunks of the others.
      have hstep : ∀ (n : ℕ) (chunk : BitVec 16) (more : List (BitVec 16)), 0 < n →
          buildStatusChunks maxChunks ((first :: tail).drop n) = some more →
          decodeChunk chunk (first :: tail).length = some ((first :: tail).take n) →
          parseChunks (chunkBytes (chunk :: more) ++ rest) (first :: tail).length =
            some (first :: tail, rest) := by
        intro n chunk more hn hmore hdec
        have hparse := ih (fun hmem => hsymbols (mem_of_mem_drop hmem)) hmore
        rw [← take_append_drop n (first :: tail)] at hdec ⊢
        rw [take_append_drop] at hdec
        have hne : (first :: tail).take n ≠ [] := by
          simp
          omega
        rw [chunkBytes, flatMap_cons, append_assoc]
        apply parseChunks_chunk hne
        · rw [take_append_drop]
          exact hdec
        · exact hparse
      rw [buildStatusChunks] at h
      split_ifs at h with hseven hone
      · obtain ⟨more, hmore, rfl⟩ := Option.map_eq_some_iff.mp h
        refine hstep _ _ more (by omega) hmore ?_
        rw [hrun]
        apply decodeChunk_run
        · intro hrsv
          exact hsymbols (by simp [hrsv])
        · omega
        · exact hmax
        · exact hlen
      · obtain ⟨more, hmore, rfl⟩ := Option.map_eq_some_iff.mp h
        refine hstep 14 _ more (by decide) hmore ?_
        exact decodeChunk_oneBit hone (length_take)
      · obtain ⟨more, hmore, rfl⟩ := Option.map_eq_some_iff.mp h
        refine hstep 7 _ more (by decide) hmore ?_
        exact decodeChunk_twoBit (fun hmem => hsymbols (mem_of_mem_take hmem))
          (length_take)

theorem buildStatusChunks_length {maxChunks : ℕ} {chunks : List (BitVec 16)}
    (h : buildStatusChunks maxChunks symbols = some chunks) : chunks.length ≤ maxChunks := by
  induction maxChunks generalizing symbols chunks with
  | zero =>
    cases symbols with
    | nil =>
      simp only [buildStatusChunks, Option.some.injEq] at h
      simp [← h]
    | cons first tail => simp [buildStatusChunks] at h
  | succ maxChunks ih =>
    cases symbols with
    | nil =>
      simp only [buildStatusChunks, Option.some.injEq] at h
      simp [← h]
    | cons first tail =>
      rw [buildStatusChunks] at h
      split_ifs at h
      all_goals
        obtain ⟨more, hmore, rfl⟩ := Option.map_eq_some_iff.mp h
        have := ih hmore
        rw [length_cons]
        omega

theorem buildStatusChunks_isSome {maxChunks : ℕ} (hroom : symbols.length ≤ maxChunks) :
    ∃ chunks, buildStatusChunks maxChunks symbols = some chunks := by
  induction maxChunks generalizing symbols with
  | zero =>
    rw [length_eq_zero_iff.mp (Nat.le_zero.mp hroom)]
    exact ⟨[], rfl⟩
  | succ maxChunks ih =>
    cases symbols with
    | nil => exact ⟨[], rfl⟩
    | cons first tail =>
      have hrest : ∀ n, 0 < n → ∃ more,
          buildStatusChunks maxChunks ((first :: tail).drop n) = some more := by
        intro n hn
        apply ih
        rw [length_drop]
        omega
      rw [buildStatusChunks]
      split_ifs with hseven hone
      · obtain ⟨more, hmore⟩ := hrest _ (lt_of_lt_of_le (by decide) hseven)
        exact ⟨_, by rw [hmore]; rfl⟩
      · obtain ⟨more, hmore⟩ := hrest 14 (by decide)
        exact ⟨_, by rw [hmore]; rfl⟩
      · obtain ⟨more, hmore⟩ := hrest 7 (by decide)
        exact ⟨_, by rw [hmore]; rfl⟩

/-- One chunk for each symbol is room enough, and the loop reads the symbols back out of the
chunks, all of them. -/
theorem statusChunks_round_trip (hne : symbols ≠ []) (hsymbols : .reserved ∉ symbols) :
    ∃ chunks, buildStatusChunks symbols.length symbols = some chunks ∧ chunks ≠ [] ∧
      parseChunks (chunkBytes chunks) symbols.length = some (symbols, []) := by
  obtain ⟨chunks, hchunks⟩ := buildStatusChunks_isSome (le_refl symbols.length)
  have hparse := parseChunks_build hsymbols hchunks []
  rw [append_nil] at hparse
  refine ⟨chunks, hchunks, ?_, hparse⟩
  rintro rfl
  cases symbols with
  | nil => exact hne rfl
  | cons first tail => simp [chunkBytes, parseChunks] at hparse

theorem statusChunks_round_trip_pair :
    ∃ chunks, buildStatusChunks 2 [.largeDelta, .smallDelta] = some chunks ∧ chunks ≠ [] ∧
      parseChunks (chunkBytes chunks) 2 = some ([.largeDelta, .smallDelta], []) :=
  @statusChunks_round_trip [.largeDelta, .smallDelta] (by decide) (by decide)

theorem chunkBytes_length (chunks : List (BitVec 16)) :
    (chunkBytes chunks).length = chunks.length * 2 := by
  induction chunks with
  | nil => rfl
  | cons chunk chunks ih =>
    rw [chunkBytes] at ih
    rw [chunkBytes, flatMap_cons, length_append, Bytes.length_writeU16, ih, length_cons]
    omega

end TurboMedia.Twcc
