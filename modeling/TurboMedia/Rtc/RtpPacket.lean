import TurboMedia.Lib.Bytes

/-!
# RTP packets

Model of `rtp_packet.c`: packets per RFC 3550 with one-byte header extensions
per RFC 8285.  Bit fields of the header have the width of the source's bit
fields.  The CSRC array and the extension array are the lists of their used
entries, so their counts are lengths; the data of an extension are its first
`length` bytes.  Buffers are byte lists, and the output buffer of `serialize`
is separate from the payload it copies.

The main result says exactly when a serialized packet parses back to itself:
the serializer copies the padding flag without writing padding bytes, so a
nonempty payload that does not end in a zero byte is cut.
-/

namespace TurboMedia.RtpPacket

open List Option

open Bytes

/-- `RTP_VERSION`. -/
def rtpVersion : Fin 4 := 2

/-- `RTP_HEADER_SIZE`. -/
def rtpHeaderSize : ℕ := 12

/-- `RTP_MAX_CSRC`. -/
def rtpMaxCsrc : ℕ := 15

def maxExtensions : ℕ := 8

/-- `rtp_header_t`, without the CSRC count. -/
structure Header where
  version : Fin 4
  padding : Bool
  extension : Bool
  marker : Bool
  payloadType : Fin 128
  sequence : UInt16
  timestamp : UInt32
  ssrc : UInt32

/-- `rtp_extension_t`; the length is the number of data bytes. -/
structure Extension where
  id : UInt8
  data : List UInt8
deriving DecidableEq

/-- `rtp_packet_t`. -/
structure Packet where
  header : Header
  csrc : List UInt32
  extensions : List Extension
  payload : List UInt8

/-- The loop over a one-byte extension block.  `fuel` bounds the number of
iterations, each of which consumes a byte; identifier 0 is padding, 15 ends the
block, and entries beyond the eighth are skipped. -/
def parseExtensions : ℕ → List UInt8 → List Extension → Option (List Extension)
  | _, [], out => some out
  | 0, _ :: _, out => some out
  | fuel + 1, byte :: rest, out =>
    let id := byte >>> 4
    let len := ((byte &&& 0x0F) + 1).toNat
    if id == 0 then parseExtensions fuel rest out
    else if id == 15 then some out
    else if rest.length < len then none
    else
      parseExtensions fuel (rest.drop len)
        (if out.length < maxExtensions then out ++ [⟨id, rest.take len⟩] else out)

variable (buffer : List UInt8)

/-- Extension block at an offset: its entries and its size in bytes. -/
def parseExtensionBlock (headerSize : ℕ) :
    Option (List Extension × ℕ) :=
  if buffer.length < headerSize + 4 then none
  else
    let extProfile := readU16 buffer headerSize
    let extLen := readU16 buffer (headerSize + 2)
    let extSize := 4 + extLen.toNat * 4
    if buffer.length < headerSize + extSize then none
    else if extProfile == 0xBEDE then
      let block := (buffer.drop (headerSize + 4)).take (extLen.toNat * 4)
      (parseExtensions block.length block []).map (fun out => (out, extSize))
    else some ([], extSize)

def parseCsrc (count : ℕ) : List UInt32 :=
  (List.range (min count rtpMaxCsrc)).map (fun i => readU32 buffer (rtpHeaderSize + i * 4))

/-- Payload length after the padding was taken off. -/
def stripPadding (padding : Bool) (payloadLen : ℕ) : Option ℕ :=
  if padding && decide (payloadLen > 0) then
    let padLen := (u8At buffer (buffer.length - 1)).toNat
    if padLen > payloadLen then none else some (payloadLen - padLen)
  else some payloadLen

def parseHeader : Header :=
  let byte0 := u8At buffer 0
  let byte1 := u8At buffer 1
  { version := Fin.ofNat 4 ((byte0 >>> 6) &&& 0x03).toNat
    padding := ((byte0 >>> 5) &&& 0x01) == 1
    extension := ((byte0 >>> 4) &&& 0x01) == 1
    marker := ((byte1 >>> 7) &&& 0x01) == 1
    payloadType := Fin.ofNat 128 (byte1 &&& 0x7F).toNat
    sequence := readU16 buffer 2
    timestamp := readU32 buffer 4
    ssrc := readU32 buffer 8 }

/-- `rtp_packet_parse`; `none` is the return value -1. -/
def parse : Option Packet :=
  if buffer.length < rtpHeaderSize then none
  else
    let header := parseHeader buffer
    let csrcCount := (u8At buffer 0 &&& 0x0F).toNat
    if header.version != rtpVersion then none
    else if csrcCount > 0 && decide (buffer.length < rtpHeaderSize + csrcCount * 4) then none
    else
      let headerSize := rtpHeaderSize + csrcCount * 4
      let block :=
        if header.extension then parseExtensionBlock buffer headerSize else some ([], 0)
      match block with
      | none => none
      | some (extensions, extSize) =>
        let headerSize := headerSize + extSize
        (stripPadding buffer header.padding (buffer.length - headerSize)).map (fun payloadLen =>
            { header := header
              csrc := parseCsrc buffer csrcCount
              extensions := extensions
              payload := (buffer.drop headerSize).take payloadLen })

/-- Check of one extension in `rtp_packet_serialize` and `add_extension`. -/
def extensionValid (id : UInt8) (length : ℕ) : Bool :=
  !(id == 0 || decide (id > 14) || length == 0 || decide (length > 16))

def writeExtension (ext : Extension) : List UInt8 :=
  ((ext.id <<< 4) ||| ((UInt8.ofNat ext.data.length - 1) &&& 0x0F)) :: ext.data

/-- Size of the extension entries, without padding. -/
def extPayloadSize (extensions : List Extension) : ℕ :=
  (extensions.map (fun ext => 1 + ext.data.length)).sum

/-- Extension block with its four-byte header and its padding. -/
def writeExtensionBlock (extensions : List Extension) : List UInt8 :=
  let size := extPayloadSize extensions
  let padding := (4 - size % 4) % 4
  writeU16 0xBEDE ++ writeU16 (UInt16.ofNat ((size + padding) / 4)) ++
    extensions.flatMap writeExtension ++ replicate padding 0

def headerByte0 (version : Fin 4) (padding extension : Bool) (csrcCount : ℕ) : UInt8 :=
  (UInt8.ofNat version.val <<< 6) ||| (padding.toUInt8 <<< 5) |||
    (extension.toUInt8 <<< 4) ||| (UInt8.ofNat csrcCount &&& 0x0F)

def headerByte1 (marker : Bool) (payloadType : Fin 128) : UInt8 :=
  (marker.toUInt8 <<< 7) ||| (UInt8.ofNat payloadType.val &&& 0x7F)

def writeHeader (pkt : Packet) : List UInt8 :=
  headerByte0 pkt.header.version pkt.header.padding (!pkt.extensions.isEmpty) pkt.csrc.length ::
    headerByte1 pkt.header.marker pkt.header.payloadType ::
      (writeU16 pkt.header.sequence ++ writeU32 pkt.header.timestamp ++ writeU32 pkt.header.ssrc)

/-- `rtp_packet_serialize`: the bytes written, whose number is the return
value; `none` is the return value -1. -/
def serialize (pkt : Packet) (bufferLen : ℕ) : Option (List UInt8) :=
  if !pkt.extensions.all (fun ext => extensionValid ext.id ext.data.length) then none
  else
    let bytes :=
      writeHeader pkt ++ pkt.csrc.flatMap writeU32 ++
        (if pkt.extensions.isEmpty then [] else writeExtensionBlock pkt.extensions) ++
        pkt.payload
    if bufferLen < bytes.length then none else some bytes

/-- `rtp_packet_get_extension`. -/
def getExtension (pkt : Packet) (id : UInt8) : Option (List UInt8) :=
  if id == 0 then none
  else (pkt.extensions.find? (fun ext => ext.id == id)).map Extension.data

theorem headerByte0_fields :
    ∀ (version : Fin 4) (padding extension : Bool) (count : Fin 16),
      Fin.ofNat 4 ((headerByte0 version padding extension count.val >>> 6) &&& 0x03).toNat =
          version ∧
        (((headerByte0 version padding extension count.val >>> 5) &&& 0x01) == 1) = padding ∧
        (((headerByte0 version padding extension count.val >>> 4) &&& 0x01) == 1) = extension ∧
        (headerByte0 version padding extension count.val &&& 0x0F).toNat = count.val := by
  decide +kernel

theorem headerByte1_fields :
    ∀ (marker : Bool) (payloadType : Fin 128),
      (((headerByte1 marker payloadType >>> 7) &&& 0x01) == 1) = marker ∧
        Fin.ofNat 128 (headerByte1 marker payloadType &&& 0x7F).toNat = payloadType := by
  decide +kernel

theorem length_writeHeader (pkt : Packet) : (writeHeader pkt).length = rtpHeaderSize := by
  rfl

/-- The header is read back, except that the extension flag says whether
extensions were written. -/
theorem parseHeader_write (pkt : Packet) (rest : List UInt8)
    (hcsrc : pkt.csrc.length ≤ rtpMaxCsrc) :
    parseHeader (writeHeader pkt ++ rest) =
        { pkt.header with extension := !pkt.extensions.isEmpty } ∧
      (u8At (writeHeader pkt ++ rest) 0 &&& 0x0F).toNat = pkt.csrc.length := by
  obtain ⟨hver, hpadding, hextension, hcount⟩ :=
    headerByte0_fields pkt.header.version pkt.header.padding (!pkt.extensions.isEmpty)
      ⟨pkt.csrc.length, Nat.lt_succ_of_le hcsrc⟩
  obtain ⟨hmarker, hpt⟩ := headerByte1_fields pkt.header.marker pkt.header.payloadType
  have hseq : readU16 (writeHeader pkt ++ rest) 2 = pkt.header.sequence :=
    join16_split pkt.header.sequence
  have hts : readU32 (writeHeader pkt ++ rest) 4 = pkt.header.timestamp :=
    join32_split pkt.header.timestamp
  have hssrc : readU32 (writeHeader pkt ++ rest) 8 = pkt.header.ssrc :=
    join32_split pkt.header.ssrc
  have hbyte0 : u8At (writeHeader pkt ++ rest) 0 =
      headerByte0 pkt.header.version pkt.header.padding (!pkt.extensions.isEmpty)
        pkt.csrc.length := rfl
  have hbyte1 : u8At (writeHeader pkt ++ rest) 1 =
      headerByte1 pkt.header.marker pkt.header.payloadType := rfl
  constructor
  · unfold parseHeader
    simp only [hbyte0, hbyte1, hseq, hts, hssrc, hver, hpadding, hextension, hmarker, hpt]
  · rw [hbyte0]
    exact hcount

theorem parseCsrc_write {header : List UInt8} (hlen : header.length = rtpHeaderSize)
    {csrc : List UInt32} (hcsrc : csrc.length ≤ rtpMaxCsrc) (rest : List UInt8) :
    parseCsrc (header ++ (csrc.flatMap writeU32 ++ rest)) csrc.length = csrc := by
  unfold parseCsrc
  rw [min_eq_left hcsrc, ← hlen]
  simp only [readU32_append_right]
  exact map_readU32_flatMap csrc rest

theorem entryByte_fields :
    ∀ (id : Fin 15) (len : Fin 16),
      ((UInt8.ofNat id.val <<< 4) ||| ((UInt8.ofNat (len.val + 1) - 1) &&& 0x0F)) >>> 4 =
          UInt8.ofNat id.val ∧
        ((((UInt8.ofNat id.val <<< 4) ||| ((UInt8.ofNat (len.val + 1) - 1) &&& 0x0F)) &&&
          0x0F) + 1).toNat = len.val + 1 := by
  decide +kernel

theorem entryByte_bounds (byte : UInt8) :
    (byte >>> 4 ≠ 15 → byte >>> 4 ≤ 14) ∧
      0 < ((byte &&& 0x0F) + 1).toNat ∧ ((byte &&& 0x0F) + 1).toNat ≤ 16 := by
  have hall : ∀ n : Fin 256, (UInt8.ofNat n.val >>> 4 ≠ 15 → UInt8.ofNat n.val >>> 4 ≤ 14) ∧
        0 < ((UInt8.ofNat n.val &&& 0x0F) + 1).toNat ∧
        ((UInt8.ofNat n.val &&& 0x0F) + 1).toNat ≤ 16 := by
    decide +kernel
  have h := hall ⟨byte.toNat, byte.toNat_lt⟩
  simpa only [UInt8.ofNat_toNat] using h

theorem extensionValid_iff (id : UInt8) (length : ℕ) :
    extensionValid id length = true ↔ id ≠ 0 ∧ id ≤ 14 ∧ 0 < length ∧ length ≤ 16 := by
  simp [extensionValid, and_assoc, Nat.pos_iff_ne_zero]

theorem writeExtension_byte {ext : Extension} (h : extensionValid ext.id ext.data.length = true) :
    ((ext.id <<< 4) ||| ((UInt8.ofNat ext.data.length - 1) &&& 0x0F)) >>> 4 = ext.id ∧
      ((((ext.id <<< 4) ||| ((UInt8.ofNat ext.data.length - 1) &&& 0x0F)) &&& 0x0F) + 1).toNat =
        ext.data.length := by
  obtain ⟨_, hid, hpos, hlen⟩ := (extensionValid_iff _ _).mp h
  have hidNat : ext.id.toNat < 15 := by
    have := UInt8.le_iff_toNat_le.mp hid
    simp only [UInt8.toNat_ofNat] at this
    omega
  have hfields := entryByte_fields ⟨ext.id.toNat, hidNat⟩ ⟨ext.data.length - 1, by omega⟩
  have hsucc : ext.data.length - 1 + 1 = ext.data.length := by omega
  simpa only [hsucc, UInt8.ofNat_toNat] using hfields

theorem parseExtensions_zeros {fuel count : ℕ} (h : count ≤ fuel) (out : List Extension) :
    parseExtensions fuel (replicate count 0) out = some out := by
  induction count generalizing fuel with
  | zero => cases fuel <;> rfl
  | succ count ih =>
    cases fuel with
    | zero => omega
    | succ fuel =>
      rw [replicate_succ]
      exact ih (by omega)

theorem parseExtensions_entries {extensions : List Extension}
    (hvalid : ∀ ext ∈ extensions, extensionValid ext.id ext.data.length = true)
    {fuel : ℕ} {out : List Extension} (hroom : out.length + extensions.length ≤ maxExtensions)
    (tail : List UInt8) (hfuel : (extensions.flatMap writeExtension ++ tail).length ≤ fuel) :
    ∃ fuel', tail.length ≤ fuel' ∧
      parseExtensions fuel (extensions.flatMap writeExtension ++ tail) out =
        parseExtensions fuel' tail (out ++ extensions) := by
  induction extensions generalizing fuel out with
  | nil => exact ⟨fuel, by simpa using hfuel, by simp⟩
  | cons ext rest ih =>
    have hext := hvalid ext (by simp)
    obtain ⟨hbyteId, hbyteLen⟩ := writeExtension_byte hext
    obtain ⟨hid0, hid14, _, _⟩ := (extensionValid_iff _ _).mp hext
    simp only [length_cons] at hroom
    cases fuel with
    | zero => simp [writeExtension] at hfuel
    | succ fuel =>
      simp only [flatMap_cons, writeExtension, cons_append, append_assoc,
        length_cons, length_append] at hfuel
      obtain ⟨fuel', hfuel', hparse⟩ :=
        @ih (fun e he => hvalid e (by simp [he])) fuel (out ++ [ext])
          (by simp only [length_append, length_singleton]; omega)
          (by rw [length_append]; omega)
      refine ⟨fuel', hfuel', ?_⟩
      have hne15 : ext.id ≠ 15 := by
        rintro heq
        rw [heq] at hid14
        exact absurd hid14 (by decide)
      simp only [flatMap_cons, writeExtension, cons_append, append_assoc,
        parseExtensions, hbyteId, hbyteLen]
      rw [if_neg (by simpa using hid0), if_neg (by simpa using hne15),
        if_neg (by simp), if_pos (by omega)]
      simpa using hparse

theorem length_flatMap_writeExtension (extensions : List Extension) :
    (extensions.flatMap writeExtension).length = extPayloadSize extensions := by
  simp only [length_flatMap, extPayloadSize, writeExtension, length_cons]
  congr 1
  apply map_congr_left
  intro ext _
  omega

theorem extPayloadSize_le {extensions : List Extension}
    (hvalid : ∀ ext ∈ extensions, extensionValid ext.id ext.data.length = true) :
    extPayloadSize extensions ≤ extensions.length * 17 := by
  unfold extPayloadSize
  have hsum := sum_le_card_nsmul (extensions.map (fun ext => 1 + ext.data.length)) 17 (by
    intro n hn
    obtain ⟨ext, hext, rfl⟩ := mem_map.mp hn
    obtain ⟨_, _, _, hlen⟩ := (extensionValid_iff _ _).mp (hvalid ext hext)
    omega)
  simpa using hsum

theorem parseExtensionBlock_write {extensions : List Extension}
    (hvalid : ∀ ext ∈ extensions, extensionValid ext.id ext.data.length = true)
    (hcount : extensions.length ≤ maxExtensions) (front payload : List UInt8) :
    parseExtensionBlock (front ++ (writeExtensionBlock extensions ++ payload)) front.length =
      some (extensions, (writeExtensionBlock extensions).length) := by
  have hsize := extPayloadSize_le hvalid
  have hentries := length_flatMap_writeExtension extensions
  simp only [maxExtensions] at hcount
  generalize hS : extPayloadSize extensions = size at hsize hentries
  have hlenField : (UInt16.ofNat ((size + (4 - size % 4) % 4) / 4)).toNat * 4 =
      size + (4 - size % 4) % 4 := by
    have hlt : (size + (4 - size % 4) % 4) / 4 < UInt16.size := by
      change _ < 65536
      omega
    rw [UInt16.toNat_ofNat_of_lt' hlt]
    omega
  have hblock : writeExtensionBlock extensions =
      writeU16 0xBEDE ++ (writeU16 (UInt16.ofNat ((size + (4 - size % 4) % 4) / 4)) ++
        (extensions.flatMap writeExtension ++ replicate ((4 - size % 4) % 4) 0)) := by
    simp [writeExtensionBlock, hS]
  have hlength : (writeExtensionBlock extensions).length = 4 + (size + (4 - size % 4) % 4) := by
    rw [hblock]
    simp only [length_append, length_writeU16, hentries, length_replicate]
    omega
  have hprofile : readU16 (front ++ (writeExtensionBlock extensions ++ payload)) front.length =
      0xBEDE := by
    have hread := readU16_append_right front (writeExtensionBlock extensions ++ payload) 0
    rw [Nat.add_zero] at hread
    rw [hread, hblock, append_assoc]
    exact readU16_write _ _
  have hwords : readU16 (front ++ (writeExtensionBlock extensions ++ payload))
      (front.length + 2) = UInt16.ofNat ((size + (4 - size % 4) % 4) / 4) := by
    rw [readU16_append_right, hblock, append_assoc]
    change readU16 (writeU16 0xBEDE ++ _) ((writeU16 0xBEDE).length + 0) = _
    rw [readU16_append_right, append_assoc]
    exact readU16_write _ _
  have hregion : ((front ++ (writeExtensionBlock extensions ++ payload)).drop
      (front.length + 4)).take (size + (4 - size % 4) % 4) =
        extensions.flatMap writeExtension ++ replicate ((4 - size % 4) % 4) 0 := by
    rw [← drop_drop, drop_left, hblock]
    apply take_left'
    simp [hentries]
  unfold parseExtensionBlock
  rw [if_neg (by simp only [length_append, hlength]; omega)]
  simp only [hprofile, hwords, hlenField]
  rw [if_neg (by simp only [length_append, hlength]; omega), if_pos (by decide), hregion]
  have hroom : ([] : List Extension).length + extensions.length ≤ maxExtensions := by
    simpa [maxExtensions] using hcount
  obtain ⟨fuel, hfuel, hparse⟩ := parseExtensions_entries hvalid hroom
    (replicate ((4 - size % 4) % 4) 0) le_rfl
  rw [hparse, parseExtensions_zeros (by simpa using hfuel), hlength]
  rfl

/-- The fields that a receiver reads. -/
structure SameFields (p q : Packet) : Prop where
  marker : q.header.marker = p.header.marker
  payloadType : q.header.payloadType = p.header.payloadType
  sequence : q.header.sequence = p.header.sequence
  timestamp : q.header.timestamp = p.header.timestamp
  ssrc : q.header.ssrc = p.header.ssrc
  csrc : q.csrc = p.csrc
  extensions : q.extensions = p.extensions
  payload : q.payload = p.payload

/-- The bytes parse to a packet with the same fields. -/
def ParsesTo (bytes : List UInt8) (p : Packet) : Prop :=
  ∃ q, parse bytes = some q ∧ SameFields p q

/-- No padding is announced, or the byte read as its length is absent or zero. -/
def PaddingSafe (p : Packet) : Prop :=
  p.header.padding = false ∨ p.payload = [] ∨ p.payload.getLast? = some 0

/-- Limits of the arrays, and the version. -/
structure WellFormed (p : Packet) : Prop where
  version : p.header.version = rtpVersion
  csrc_le : p.csrc.length ≤ rtpMaxCsrc
  extensions_le : p.extensions.length ≤ maxExtensions

theorem serialize_some {p : Packet} {bufferLen : ℕ} {bytes : List UInt8}
    (h : serialize p bufferLen = some bytes) :
    (∀ ext ∈ p.extensions, extensionValid ext.id ext.data.length = true) ∧
      bytes = writeHeader p ++ (p.csrc.flatMap writeU32 ++
        ((if p.extensions.isEmpty then [] else writeExtensionBlock p.extensions) ++
          p.payload)) := by
  unfold serialize at h
  generalize (if p.extensions.isEmpty then [] else writeExtensionBlock p.extensions) =
    block at h ⊢
  dsimp only at h
  split_ifs at h with hinv hroom
  have hall : p.extensions.all (fun ext => extensionValid ext.id ext.data.length) = true := by
    simpa using hinv
  refine ⟨all_eq_true.mp hall, ?_⟩
  rw [← some.inj h, append_assoc, append_assoc]

/-- Parsing what was serialized: everything is read back, and the payload is
what `stripPadding` leaves of it. -/
theorem parse_serialized {p : Packet} (hp : WellFormed p)
    (hvalid : ∀ ext ∈ p.extensions, extensionValid ext.id ext.data.length = true)
    {bytes : List UInt8}
    (hbytes : bytes = writeHeader p ++ (p.csrc.flatMap writeU32 ++
      ((if p.extensions.isEmpty then [] else writeExtensionBlock p.extensions) ++
        p.payload))) :
    parse bytes = (stripPadding bytes p.header.padding p.payload.length).map (fun payloadLen =>
        { header := { p.header with extension := !p.extensions.isEmpty }
          csrc := p.csrc
          extensions := p.extensions
          payload := p.payload.take payloadLen }) := by
  have hhead := length_writeHeader p
  have hcsrcLen := length_flatMap_writeU32 p.csrc
  obtain ⟨hhdr, hcount⟩ := parseHeader_write p (p.csrc.flatMap writeU32 ++
    ((if p.extensions.isEmpty then [] else writeExtensionBlock p.extensions) ++ p.payload))
    hp.csrc_le
  rw [← hbytes] at hhdr hcount
  have hcsrc : parseCsrc bytes p.csrc.length = p.csrc := by
    rw [hbytes]
    exact parseCsrc_write hhead hp.csrc_le _
  generalize hblock : (if p.extensions.isEmpty then [] else writeExtensionBlock p.extensions) =
    block at hbytes
  have hlength : bytes.length =
      rtpHeaderSize + p.csrc.length * 4 + block.length + p.payload.length := by
    rw [hbytes]
    simp only [length_append, hhead, hcsrcLen]
    omega
  have hfront : (writeHeader p ++ p.csrc.flatMap writeU32).length =
      rtpHeaderSize + p.csrc.length * 4 := by
    rw [length_append, hhead, hcsrcLen]
  have hext : (if (!p.extensions.isEmpty) = true then
        parseExtensionBlock bytes (rtpHeaderSize + p.csrc.length * 4)
      else some ([], 0)) = some (p.extensions, block.length) := by
    cases hempty : p.extensions with
    | nil =>
      rw [hempty] at hblock
      rw [← hblock]
      rfl
    | cons ext rest =>
      rw [hempty] at hblock
      have hsame : block = writeExtensionBlock p.extensions := by
        rw [← hblock, hempty]
        rfl
      have hparse := parseExtensionBlock_write hvalid hp.extensions_le
        (writeHeader p ++ p.csrc.flatMap writeU32) p.payload
      rw [← hsame, hfront, append_assoc, ← hbytes, hempty] at hparse
      exact hparse
  have hload : bytes.drop (rtpHeaderSize + p.csrc.length * 4 + block.length) =
      p.payload := by
    have hfull : (writeHeader p ++ p.csrc.flatMap writeU32 ++ block).length =
        rtpHeaderSize + p.csrc.length * 4 + block.length := by
      rw [length_append, hfront]
    rw [← hfull, hbytes, ← append_assoc, ← append_assoc]
    exact drop_left
  have hrest : bytes.length - (rtpHeaderSize + p.csrc.length * 4 + block.length) =
      p.payload.length := by
    omega
  unfold parse
  rw [if_neg (by omega)]
  simp only [hhdr, hcount, hp.version, hcsrc]
  rw [if_neg (by simp), if_neg (by simp; omega), hext]
  simp [hrest, hload]

/-- A well-formed packet with valid extensions parses back to its fields if and
only if its padding is safe. -/
theorem parsesTo_iff {p : Packet} (hp : WellFormed p)
    (hvalid : ∀ ext ∈ p.extensions, extensionValid ext.id ext.data.length = true)
    {bytes : List UInt8}
    (hbytes : bytes = writeHeader p ++ (p.csrc.flatMap writeU32 ++
      ((if p.extensions.isEmpty then [] else writeExtensionBlock p.extensions) ++
        p.payload))) : ParsesTo bytes p ↔ PaddingSafe p := by
  have hparse := parse_serialized hp hvalid hbytes
  have hsame : ParsesTo bytes p ↔
      stripPadding bytes p.header.padding p.payload.length = some p.payload.length := by
    constructor
    · rintro ⟨q, hq, hfields⟩
      rw [hparse] at hq
      obtain ⟨payloadLen, hstrip, rfl⟩ := map_eq_some_iff.mp hq
      have hlen := congrArg List.length hfields.payload
      simp only [length_take] at hlen
      have hle : payloadLen ≤ p.payload.length := by
        unfold stripPadding at hstrip
        dsimp only at hstrip
        split_ifs at hstrip
        · have := some.inj hstrip
          omega
        · exact (some.inj hstrip).ge
      rw [hstrip]
      congr 1
      omega
    · intro hstrip
      rw [hstrip] at hparse
      exact ⟨_, hparse, rfl, rfl, rfl, rfl, rfl, rfl, rfl, take_length⟩
  rw [hsame]
  by_cases hload : p.payload = []
  · simp [stripPadding, PaddingSafe, hload]
  have hlast : u8At bytes (bytes.length - 1) = p.payload.getLast hload := by
    rw [hbytes, ← append_assoc, ← append_assoc]
    exact u8At_last _ hload
  have hpos : 0 < p.payload.length := length_pos_of_ne_nil hload
  cases hpadding : p.header.padding with
  | false => simp [stripPadding, PaddingSafe, hpadding]
  | true =>
    have hzero : p.payload.getLast? = some 0 ↔ (p.payload.getLast hload).toNat = 0 := by
      rw [getLast?_eq_some_getLast hload, some.injEq]
      exact UInt8.toNat_inj.symm
    simp only [stripPadding, PaddingSafe, hpadding, hload, hlast, hzero, Bool.true_and,
      gt_iff_lt, hpos, decide_true, if_true, Bool.true_eq_false, false_or]
    split_ifs with hbig
    · simp only [false_iff]
      omega
    · rw [some.injEq]
      omega

theorem parseExtensions_valid {fuel : ℕ} {region : List UInt8} {out result : List Extension}
    (h : parseExtensions fuel region out = some result) (hlen : out.length ≤ maxExtensions)
    (hvalid : ∀ ext ∈ out, extensionValid ext.id ext.data.length = true) :
    result.length ≤ maxExtensions ∧
      ∀ ext ∈ result, extensionValid ext.id ext.data.length = true := by
  induction fuel generalizing region out with
  | zero =>
    cases region with
    | nil | cons byte rest =>
      obtain rfl := some.inj h
      exact ⟨hlen, hvalid⟩
  | succ fuel ih =>
    cases region with
    | nil =>
      obtain rfl := some.inj h
      exact ⟨hlen, hvalid⟩
    | cons byte rest =>
      rw [parseExtensions] at h
      split_ifs at h with hzero hend hshort hroom
      · exact ih h hlen hvalid
      · obtain rfl := some.inj h
        exact ⟨hlen, hvalid⟩
      · refine ih h (by rw [length_append, length_singleton]; omega) ?_
        intro ext hext
        rw [mem_append, mem_singleton] at hext
        rcases hext with hext | rfl
        · exact hvalid ext hext
        · rw [extensionValid_iff, length_take,
            min_eq_left (Nat.le_of_not_lt hshort)]
          obtain ⟨hid, hlow, hhigh⟩ := entryByte_bounds byte
          exact ⟨by simpa using hzero, hid (by simpa using hend), hlow, hhigh⟩
      · exact ih h hlen hvalid

theorem parseExtensionBlock_valid
    {buffer : List UInt8} {headerSize size : ℕ} {extensions : List Extension}
    (h : parseExtensionBlock buffer headerSize = some (extensions, size)) :
    extensions.length ≤ maxExtensions ∧
      ∀ ext ∈ extensions, extensionValid ext.id ext.data.length = true := by
  unfold parseExtensionBlock at h
  dsimp only at h
  split_ifs at h with hshort hlong hprofile
  · obtain ⟨out, hout, heq⟩ := map_eq_some_iff.mp h
    obtain ⟨rfl, _⟩ := Prod.mk.inj heq
    exact parseExtensions_valid hout (by simp) (by simp)
  · obtain ⟨rfl, _⟩ := Prod.mk.inj (some.inj h)
    exact ⟨by simp, by simp⟩

/-- Whatever `parse` accepts can be serialized again. -/
theorem parse_wellFormed {input : List UInt8} {p : Packet} (h : parse input = some p) :
    WellFormed p ∧ ∀ ext ∈ p.extensions, extensionValid ext.id ext.data.length = true := by
  unfold parse at h
  dsimp only at h
  split at h
  · exact absurd h (by simp)
  split at h
  · exact absurd h (by simp)
  next hver =>
    split at h
    · exact absurd h (by simp)
    split at h
    · exact absurd h (by simp)
    next extensions extSize hblock =>
      obtain ⟨payloadLen, _, rfl⟩ := map_eq_some_iff.mp h
      have hext : extensions.length ≤ maxExtensions ∧
          ∀ ext ∈ extensions, extensionValid ext.id ext.data.length = true := by
        split_ifs at hblock
        · exact parseExtensionBlock_valid hblock
        · obtain ⟨rfl, _⟩ := Prod.mk.inj (some.inj hblock)
          exact ⟨by simp, by simp⟩
      refine ⟨⟨by simpa using hver, ?_, hext.1⟩, hext.2⟩
      simp [parseCsrc]

/-- **RTP codec round trip.**  Serializing a well-formed packet and parsing the
bytes gives the same fields if and only if the padding is safe; the same holds
for the packet that `parse` makes of any bytes it accepts, which always can be
serialized. -/
theorem serialize_parse_iff_paddingSafe (p : Packet) :
    (∀ bufferLen bytes, WellFormed p → serialize p bufferLen = some bytes →
      (ParsesTo bytes p ↔ PaddingSafe p)) ∧
    ∀ input, parse input = some p → ∃ bytes, ∀ bufferLen, bytes.length ≤ bufferLen →
        serialize p bufferLen = some bytes ∧ (ParsesTo bytes p ↔ PaddingSafe p) := by
  constructor
  · intro bufferLen bytes hp hser
    obtain ⟨hvalid, hbytes⟩ := serialize_some hser
    exact parsesTo_iff hp hvalid hbytes
  · intro input hparse
    obtain ⟨hp, hvalid⟩ := parse_wellFormed hparse
    refine ⟨_, fun bufferLen hroom => ⟨?_, parsesTo_iff hp hvalid rfl⟩⟩
    have hall : p.extensions.all (fun ext => extensionValid ext.id ext.data.length) = true :=
      all_eq_true.mpr hvalid
    unfold serialize
    rw [if_neg (by simp [hall])]
    simp only [append_assoc]
    rw [if_neg (by simpa [append_assoc] using hroom)]

/-- A packet with one byte of padding behind the payload 9, 1. -/
def paddedBytes : List UInt8 :=
  [0xA0, 0x60, 0, 1, 0, 0, 0, 2, 0, 0, 0, 3, 9, 1, 1]

/-- The parsed packet keeps the padding flag and loses the padding byte, so its
own last payload byte is taken for padding. -/
theorem serialize_parse_drops_payload :
    ∃ p bytes q, parse paddedBytes = some p ∧ WellFormed p ∧ p.payload = [9, 1] ∧
      serialize p 64 = some bytes ∧ parse bytes = some q ∧ q.payload = [9] := by
  refine ⟨_, _, _, rfl, ⟨rfl, by decide, by decide⟩, by decide, rfl, rfl, by decide⟩

/-- With a zero byte at the end the same packet survives. -/
theorem serialize_parse_iff_paddingSafe_zeroEnd :
    ∃ p bytes, parse [0xA0, 0x60, 0, 1, 0, 0, 0, 2, 0, 0, 0, 3, 9, 0, 1] = some p ∧
      p.header.padding = true ∧ serialize p 64 = some bytes ∧ ParsesTo bytes p := by
  refine ⟨_, _, rfl, rfl, rfl, ?_⟩
  refine ((serialize_parse_iff_paddingSafe _).1 64 _ ⟨rfl, by decide, by decide⟩ rfl).mpr ?_
  exact Or.inr (Or.inr (by decide))

end TurboMedia.RtpPacket
