import TurboMedia.Rtsp.Message

/-!
# Session descriptions

Model of `turbo_rtsp_sdp_parse` in `parser/turbo_rtsp_sdp.c`: the media of a description, with
the attributes that the server reads, and every reason for which a description is refused.

A range of the text that is copied into an array of characters is read up to its first zero
byte.
-/

namespace TurboMedia.Rtsp

/-- `TURBO_RTSP_SDP_MAX_MEDIA`, `TURBO_RTSP_SDP_MAX_TOKEN`, `TURBO_RTSP_SDP_MAX_CONTROL`,
`TURBO_RTSP_SDP_MAX_FMTP` and `INT_MAX`. -/
def sdpMaxMedia : ℕ := 8
def sdpMaxToken : ℕ := 128
def sdpMaxControl : ℕ := 512
def sdpMaxFmtp : ℕ := 512
def sdpIntMax : ℕ := 2 ^ 31 - 1

/-- `turbo_rtsp_sdp_trim_line`. -/
def sdpTrim (b : List UInt8) : List UInt8 :=
  (((b.dropWhile isBlank).reverse).dropWhile (fun c => isBlank c || c == cr || c == lf)).reverse

/-- `turbo_rtsp_sdp_copy_range`. -/
def sdpCopy (size : ℕ) (range : List UInt8) : Option (List UInt8) :=
  if range.length ≥ size then none else some (range.takeWhile (fun c => c != 0))

/-- `turbo_rtsp_sdp_parse_int_range`. -/
def sdpInt (least most : ℕ) (digits : List UInt8) : Option ℕ :=
  (decimal most digits).bind (fun value => if value < least then none else some value)

/-- `turbo_rtsp_sdp_token`: the token, and what is behind it. -/
def sdpToken (size : ℕ) (b : List UInt8) : Option (List UInt8 × List UInt8) :=
  let b := b.dropWhile isBlank
  if b = [] then none
  else
    (sdpCopy size (b.takeWhile (fun c => !isBlank c))).map
      (fun token => (token, b.dropWhile (fun c => !isBlank c)))

/-- `turbo_rtsp_sdp_media_desc_t`. -/
structure SdpMedia where
  media : List UInt8
  payloadType : ℤ
  encodingName : List UInt8
  clockRate : ℤ
  control : List UInt8

/-- `turbo_rtsp_sdp_static_payload_profiles`. -/
def staticPayloadProfiles : List (ℕ × String × ℤ) :=
  [(0, "PCMU", 8000), (3, "GSM", 8000), (4, "G723", 8000), (5, "DVI4", 8000), (6, "DVI4", 16000),
    (7, "LPC", 8000), (8, "PCMA", 8000), (9, "G722", 8000), (10, "L16", 44100),
    (11, "L16", 44100), (12, "QCELP", 8000), (13, "CN", 8000), (14, "MPA", 90000),
    (15, "G728", 8000), (16, "DVI4", 11025), (17, "DVI4", 22050), (18, "G729", 8000),
    (25, "CelB", 90000), (26, "JPEG", 90000), (28, "nv", 90000), (31, "H261", 90000),
    (32, "MPV", 90000), (33, "MP2T", 90000), (34, "H263", 90000)]

/-- `turbo_rtsp_sdp_proto_is_rtp_avp`. -/
def protoIsRtpAvp (proto : List UInt8) : Bool :=
  ["RTP/AVP", "RTP/AVP/UDP", "RTP/AVP/TCP"].any (fun name => caseEq proto (text name))

/-- `turbo_rtsp_sdp_apply_static_payload_profile`. -/
def applyStaticPayloadProfile (proto : List UInt8) (payloadType : ℕ) (media : SdpMedia) :
    SdpMedia :=
  if protoIsRtpAvp proto then
    match staticPayloadProfiles.find? (fun profile => profile.1 == payloadType) with
    | none => media
    | some profile => { media with encodingName := text profile.2.1, clockRate := profile.2.2 }
  else media

/-- `turbo_rtsp_sdp_parse_media_line`. -/
def sdpMediaLine (value : List UInt8) : Option SdpMedia :=
  (sdpToken sdpMaxToken value).bind fun (media, rest) =>
  (sdpToken 16 rest).bind fun (port, rest) =>
  (sdpToken sdpMaxToken rest).bind fun (proto, rest) =>
  (sdpToken 16 rest).bind fun (payload, _) =>
  (sdpInt 0 65535 port).bind fun _ =>
  (sdpInt 0 127 payload).map fun payloadType =>
    applyStaticPayloadProfile proto payloadType ⟨media, payloadType, [], 0, []⟩

/-- The number in front of an attribute, and what is behind the blank. -/
def sdpPayload (value : List UInt8) : Option (ℕ × List UInt8) :=
  let isSpace (c : UInt8) : Bool := c == 32
  if value.any isSpace then
    ((sdpCopy 16 (value.takeWhile (fun c => !isSpace c))).bind (sdpInt 0 127)).map
      (fun payloadType => (payloadType, (value.dropWhile (fun c => !isSpace c)).drop 1))
  else none

def slash : UInt8 := 47

/-- `turbo_rtsp_sdp_parse_rtpmap`. -/
def sdpRtpmap (value : List UInt8) (media : SdpMedia) : Option SdpMedia :=
  (sdpPayload value).bind fun (payloadType, rest) =>
    if (payloadType : ℤ) ≠ media.payloadType then some media
    else
      let encoding := rest.takeWhile (fun c => c != slash)
      let behind := rest.dropWhile (fun c => c != slash)
      let rate := (behind.drop 1).takeWhile (fun c => c != slash)
      let parameters := (behind.drop 1).dropWhile (fun c => c != slash)
      if behind = [] ∨ encoding = [] ∨ rate = [] ∨ parameters.length = 1 then none
      else
        (sdpCopy sdpMaxToken encoding).bind fun encodingName =>
        ((sdpCopy 16 rate).bind (sdpInt 1 sdpIntMax)).bind fun clockRate =>
        if parameters ≠ [] ∧ ((sdpCopy 16 (parameters.drop 1)).bind (sdpInt 1 sdpIntMax)) =
            none then
          none
        else some { media with encodingName := encodingName, clockRate := clockRate }

/-- `turbo_rtsp_sdp_parse_fmtp`; the server does not read the parameters. -/
def sdpFmtp (value : List UInt8) (media : SdpMedia) : Option SdpMedia :=
  (sdpPayload value).bind fun (payloadType, rest) =>
    if (payloadType : ℤ) ≠ media.payloadType then some media
    else if sdpTrim rest = [] then none
    else (sdpCopy sdpMaxFmtp (sdpTrim rest)).map (fun _ => media)

/-- The value of an attribute with the name, where it has one. -/
def sdpAttribute (name : String) (value : List UInt8) : Option (List UInt8) :=
  if (text name).length < value.length ∧ (text name).isPrefixOf value then
    some (value.drop (text name).length)
  else none

/-- A line `a=` of a session or of its last media. -/
def sdpAttributeLine (value : List UInt8) (media : List SdpMedia) : Option (List SdpMedia) :=
  match sdpAttribute "control:" value, sdpAttribute "range:" value,
    sdpAttribute "rtpmap:" value, sdpAttribute "fmtp:" value, media.getLast? with
  | some control, _, _, _, none => (sdpCopy sdpMaxControl control).map (fun _ => media)
  | some control, _, _, _, some current =>
    (sdpCopy sdpMaxControl control).map
      (fun control => media.dropLast ++ [{ current with control := control }])
  | none, some range, _, _, _ => (sdpCopy sdpMaxToken range).map (fun _ => media)
  | none, none, some rtpmap, _, some current =>
    (sdpRtpmap rtpmap current).map (fun current => media.dropLast ++ [current])
  | none, none, none, some fmtp, some current =>
    (sdpFmtp fmtp current).map (fun current => media.dropLast ++ [current])
  | _, _, _, _, _ => some media

/-- One line of a description, with the media so far. -/
def sdpLine (line : List UInt8) (media : List SdpMedia) : Option (List SdpMedia) :=
  match sdpTrim line with
  | kind :: equals :: rest =>
    if equals ≠ 61 then some media
    else
      let value := sdpTrim rest
      match Char.ofNat kind.toNat with
      | 's' => (sdpCopy sdpMaxToken value).map (fun _ => media)
      | 'c' =>
        let address := (value.reverse.takeWhile (fun c => !isBlank c)).reverse
        if address = [] then some media
        else (sdpCopy sdpMaxToken address).map (fun _ => media)
      | 'm' =>
        if media.length ≥ sdpMaxMedia then none
        else (sdpMediaLine value).map (fun current => media ++ [current])
      | 'a' => sdpAttributeLine value media
      | _ => some media
  | _ => some media

/-- The lines of a description, from the first on. -/
def sdpLines : List (List UInt8) → List SdpMedia → Option (List SdpMedia)
  | [], media => some media
  | line :: rest, media => (sdpLine line media).bind (sdpLines rest)

/-- `turbo_rtsp_sdp_parse`: the media of a description. -/
def sdpParse (sdp : List UInt8) : Option (List SdpMedia) :=
  sdpLines (sdp.splitOn lf) []

end TurboMedia.Rtsp
