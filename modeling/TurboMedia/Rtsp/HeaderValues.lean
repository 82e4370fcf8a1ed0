import TurboMedia.Rtsp.Message

/-!
# Values of single headers

Model of the functions of `turbo_rtsp_parser.c` that read the value of a `Session`, a
`Transport` or a `Range` header into the request.  A pair of pointers is the bytes between
them, and a cursor that is moved is the bytes from it on.

What a parameter of a transport does to the specification does not depend on what is in it
already, so each parameter is read as an update.
-/

namespace TurboMedia.Rtsp

/-- `turbo_rtsp_param_end`: the bytes up to the end of a parameter, and those from there on. -/
def splitParam (b : List UInt8) : List UInt8 × List UInt8 :=
  b.span (fun c => c != semicolon && c != comma && c != cr && c != lf)

/-- `turbo_rtsp_range_starts_with_case` and `turbo_rtsp_token_starts_with_case`. -/
def startsWithCase (b : List UInt8) (start : String) : Bool :=
  decide (b.length ≥ (text start).length) && caseEq (b.take (text start).length) (text start)

/-- The value of a parameter with this name, which is not empty. -/
def paramValue (param : List UInt8) (name : String) : Option (List UInt8) :=
  if param.length > (text name).length ∧ startsWithCase param name = true then
    some (param.drop (text name).length)
  else none

/-- The loop of `turbo_rtsp_parse_u32_value`. -/
def u32From : ℕ → List UInt8 → Option ℕ
  | parsed, [] => some parsed
  | parsed, b :: bs =>
    if isDigit b = false then none
    else
      let next := parsed * 10 + (b.toNat - 48)
      if next > 2 ^ 32 - 1 then none else u32From next bs

variable (b : List UInt8)

/-- `turbo_rtsp_parse_u32_value`. -/
def u32Value : Option ℕ :=
  if b = [] then none else u32From 0 b

/-- `turbo_rtsp_parse_int_value`. -/
def intValue : Option ℤ :=
  (u32Value b).bind (fun parsed => if parsed > 2 ^ 31 - 1 then none else some (parsed : ℤ))

/-- The bytes before a dash, and those behind it. -/
def splitDash : List UInt8 × Option (List UInt8) :=
  ((b.span (· != 45)).1,
    match (b.span (· != 45)).2 with
    | [] => none
    | _ :: rest => some rest)

/-- `turbo_rtsp_parse_uint16_pair_or_single`. -/
def uint16PairOrSingle : Option (ℤ × ℤ) :=
  if b = [] then none
  else
    (u32Value (splitDash b).1).bind (fun a =>
      if a > 65535 then none
      else
        match (splitDash b).2 with
        | none => some (((a / 2 * 2 : ℕ) : ℤ), ((a / 2 * 2 + 1 : ℕ) : ℤ))
        | some rest => (u32Value rest).bind (fun c =>
          if c > 65535 then none else some ((a : ℤ), (c : ℤ))))

/-- `turbo_rtsp_parse_channel_pair_or_single`. -/
def channelPairOrSingle : Option (ℤ × ℤ) :=
  if b = [] then none
  else
    (u32Value (splitDash b).1).bind (fun a =>
      if a > 255 then none
      else
        match (splitDash b).2 with
        | none => if a + 1 ≤ 255 then some ((a : ℤ), ((a + 1 : ℕ) : ℤ)) else none
        | some rest => (u32Value rest).bind (fun c =>
          if c > 255 then none else some ((a : ℤ), (c : ℤ))))

def hexDigit (b : UInt8) : Option ℕ :=
  if isDigit b then some (b.toNat - 48)
  else if 97 ≤ b ∧ b ≤ 102 then some (b.toNat - 97 + 10)
  else if 65 ≤ b ∧ b ≤ 70 then some (b.toNat - 65 + 10)
  else none

/-- The loop of `turbo_rtsp_parse_hex_u32`; the shift drops the bits above the word. -/
def hexFrom : ℕ → List UInt8 → Option ℕ
  | parsed, [] => some parsed
  | parsed, b :: bs => (hexDigit b).bind (fun digit => hexFrom (parsed * 16 % 2 ^ 32 + digit) bs)

/-- `turbo_rtsp_parse_hex_u32`. -/
def hexU32 (b : List UInt8) : Option ℕ :=
  if b = [] then none else hexFrom 0 b

/-- `turbo_rtsp_parse_mode`. -/
def parseMode (b : List UInt8) : Option TransportMode :=
  let unquoted :=
    if b.head? = some 34 ∧ b.length > 1 ∧ b.getLast? = some 34 then b.tail.dropLast else b
  if b = [] then none
  else if caseEq unquoted (text "PLAY") then some .play
  else if caseEq unquoted (text "RECORD") then some .record
  else none

/-- The loop of `turbo_rtsp_apply_session`: the last timeout that is given. -/
def sessionTimeout : ℕ → Option ℤ → List UInt8 → Option (Option ℤ)
  | 0, timeout, _ => some timeout
  | fuel + 1, timeout, b =>
    if b = [] then some timeout
    else
      let param := if b.head? = some semicolon then b.tail else b
      let next := match paramValue (splitParam param).1 "timeout=" with
        | none => some timeout
        | some value => (intValue value).map some
      next.bind (fun timeout =>
        if (splitParam param).2 = [] then some timeout
        else sessionTimeout fuel timeout (splitParam param).2.tail)

/-- `turbo_rtsp_apply_session`. -/
def applySession (r : RtspRequest) (token : List UInt8) : Option RtspRequest :=
  (copyInto maxHeaderValueLen (splitParam token).1).bind (fun id =>
    (sessionTimeout (token.length + 1) none (splitParam token).2).map (fun timeout =>
      { r with
        sessionId := id
        session := { r.session with
          id := id
          timeoutSeconds := timeout.getD r.session.timeoutSeconds
          hasTimeout := timeout.isSome || r.session.hasTimeout } }))

/-- `turbo_rtsp_parse_transport_profile`: the kind, and the parameters behind it. -/
def transportProfile (b : List UInt8) : Option (TransportKind × List UInt8) :=
  let params :=
    if (splitParam b).2.head? = some semicolon then (splitParam b).2.tail else (splitParam b).2
  if b = [] then none
  else if caseEq (splitParam b).1 (text "RTP/AVP") ∨
      caseEq (splitParam b).1 (text "RTP/AVP/UDP") then
    some (.rtpAvpUdp, params)
  else if caseEq (splitParam b).1 (text "RTP/AVP/TCP") then some (.rtpAvpTcp, params)
  else none

/-- One parameter in the loop of `turbo_rtsp_apply_transport`. -/
def transportParam (param : List UInt8) : Option (TransportSpec → TransportSpec) :=
  if param.length = 7 ∧ caseEq param (text "unicast") then
    some (fun s => { s with delivery := .unicast })
  else if param.length = 9 ∧ caseEq param (text "multicast") then
    some (fun s => { s with delivery := .multicast })
  else
    match paramValue param "client_port=" with
    | some value => (uint16PairOrSingle value).map (fun p s =>
      { s with clientRtpPort := p.1, clientRtcpPort := p.2 })
    | none =>
    match paramValue param "server_port=" with
    | some value => (uint16PairOrSingle value).map (fun p s =>
      { s with serverRtpPort := p.1, serverRtcpPort := p.2 })
    | none =>
    match paramValue param "port=" with
    | some value => (uint16PairOrSingle value).map (fun p s =>
      { s with multicastRtpPort := p.1, multicastRtcpPort := p.2 })
    | none =>
    match paramValue param "interleaved=" with
    | some value => (channelPairOrSingle value).map (fun p s =>
      { s with interleavedRtpChannel := p.1, interleavedRtcpChannel := p.2 })
    | none =>
    match paramValue param "destination=" with
    | some value => (copyInto maxHeaderValueLen value).map (fun v s => { s with destination := v })
    | none =>
    match paramValue param "source=" with
    | some value => (copyInto maxHeaderValueLen value).map (fun v s => { s with source := v })
    | none =>
    match paramValue param "ttl=" with
    | some value => (intValue value).map (fun v s => { s with ttl := v })
    | none =>
    match paramValue param "layers=" with
    | some value => (intValue value).map (fun v s => { s with layers := v })
    | none =>
    match paramValue param "ssrc=" with
    | some value => (hexU32 value).map (fun v s => { s with ssrc := v, hasSsrc := true })
    | none =>
    match paramValue param "mode=" with
    | some value => (parseMode value).map (fun v s => { s with mode := v })
    | none =>
      if param.length = 6 ∧ caseEq param (text "append") then
        some (fun s => { s with append := true })
      else some id

/-- The loop of `turbo_rtsp_apply_transport`: what the parameters do one after the other. -/
def transportParams : ℕ → List UInt8 → Option (TransportSpec → TransportSpec)
  | 0, _ => some id
  | fuel + 1, b =>
    if b = [] then some id
    else
      (transportParam (splitParam b).1).bind (fun update =>
        if (splitParam b).2 = [] ∨ (splitParam b).2.head? = some comma then some update
        else (transportParams fuel (splitParam b).2.tail).map (fun rest => rest ∘ update))

/-- `turbo_rtsp_apply_transport`. -/
def applyTransport (r : RtspRequest) (token : List UInt8) : Option RtspRequest :=
  (copyInto maxHeaderValueLen token).bind (fun value =>
    (transportProfile token).bind (fun profile =>
      (transportParams (token.length + 1) profile.2).map (fun update =>
        let spec := update { r.transportSpec.unset with kind := profile.1, delivery := .unicast }
        { r with
          transport := value
          transportKind := profile.1
          transportSpec := spec
          clientRtpPort := spec.clientRtpPort
          clientRtcpPort := spec.clientRtcpPort
          interleavedRtpChannel := spec.interleavedRtpChannel
          interleavedRtcpChannel := spec.interleavedRtcpChannel })))

def int64Max : ℕ := 2 ^ 63 - 1

def int64 (n : ℤ) : ℤ :=
  Int.bmod n (2 ^ 64)

/-- The loop of `turbo_rtsp_parse_range_digits`: how many digits, their value, and what comes
behind them; with no bound on the digits for `maxDigits = 0`. -/
def rangeDigitsFrom (maxDigits maxValue : ℕ) : ℕ → ℕ → List UInt8 → Option (ℕ × ℕ × List UInt8)
  | digits, parsed, [] => some (digits, parsed, [])
  | digits, parsed, b :: bs =>
    if isDigit b ∧ (maxDigits = 0 ∨ digits < maxDigits) then
      let digit := b.toNat - 48
      if parsed > (maxValue - digit) / 10 then none
      else rangeDigitsFrom maxDigits maxValue (digits + 1) (parsed * 10 + digit) bs
    else some (digits, parsed, b :: bs)

/-- `turbo_rtsp_parse_range_digits`. -/
def rangeDigits (minDigits maxDigits maxValue : ℕ) (b : List UInt8) : Option (ℕ × List UInt8) :=
  (rangeDigitsFrom maxDigits maxValue 0 0 b).bind (fun read =>
    if read.1 < minDigits then none else some read.2)

/-- `turbo_rtsp_parse_range_fraction_ms`: three digits count. -/
def rangeFractionMs (b : List UInt8) : ℕ × List UInt8 :=
  let digits := ((b.span isDigit).1.take 3).map (fun c => c.toNat - 48)
  (digits.foldl (fun parsed digit => parsed * 10 + digit) 0 * 10 ^ (3 - digits.length),
    (b.span isDigit).2)

/-- The fraction behind a point, where there is one. -/
def optionalFraction (b : List UInt8) : ℕ × List UInt8 :=
  if b.head? = some 46 then rangeFractionMs b.tail else (0, b)

/-- The bytes behind this one, which must come first. -/
def expectByte (c : UInt8) (b : List UInt8) : Option (List UInt8) :=
  if b.head? = some c then some b.tail else none

/-- `turbo_rtsp_parse_npt_time`: milliseconds, or the present. -/
def nptTime (b : List UInt8) : Option (ℤ × Bool) :=
  if b = [] then none
  else if b.length = 3 ∧ caseEq b (text "now") then some (0, true)
  else
    (rangeDigits 1 0 int64Max b).bind (fun first =>
      let seconds : Option (ℕ × List UInt8) :=
        if first.2.head? = some colonByte then
          (rangeDigits 1 2 59 first.2.tail).bind (fun minutes =>
            (expectByte colonByte minutes.2).bind (fun rest =>
              (rangeDigits 1 2 59 rest).bind (fun nptSeconds =>
                if first.1 > int64Max / 3600 ∨
                    first.1 * 3600 > int64Max - minutes.1 * 60 - nptSeconds.1 then
                  none
                else some (first.1 * 3600 + minutes.1 * 60 + nptSeconds.1, nptSeconds.2))))
        else some first
      seconds.bind (fun seconds =>
        let fraction := optionalFraction seconds.2
        if fraction.2 ≠ [] ∨ seconds.1 > (int64Max - fraction.1) / 1000 then none
        else some (((seconds.1 * 1000 + fraction.1 : ℕ) : ℤ), false)))

/-- The part of a time of the day behind a separator, where there is one. -/
def optionalPart (separator : UInt8) (maxValue : ℕ) (b : List UInt8) :
    Option (ℕ × List UInt8) :=
  if b.head? = some separator then rangeDigits 1 2 maxValue b.tail else some (0, b)

/-- `turbo_rtsp_parse_smpte_time`. -/
def smpteTime (frameRate : ℕ) (b : List UInt8) : Option ℤ :=
  if b = [] ∨ frameRate = 0 then none
  else
    (rangeDigits 1 0 int64Max b).bind (fun hours =>
      (expectByte colonByte hours.2).bind (fun rest =>
        (rangeDigits 1 2 59 rest).bind (fun minutes =>
          (expectByte colonByte minutes.2).bind (fun rest =>
            (rangeDigits 1 2 59 rest).bind (fun seconds =>
              (optionalPart colonByte (frameRate - 1) seconds.2).bind (fun frames =>
                (optionalPart 46 99 frames.2).bind (fun subframes =>
                  if subframes.2 ≠ [] ∨ hours.1 > int64Max / 3600 ∨
                      hours.1 * 3600 > int64Max - minutes.1 * 60 - seconds.1 then
                    none
                  else
                    some (int64 (((hours.1 * 3600 + minutes.1 * 60 + seconds.1) * 1000 +
                      frames.1 * 1000 / frameRate : ℕ) : ℤ)))))))))

/-- `turbo_rtsp_is_leap_year`. -/
def isLeapYear (year : ℕ) : Bool :=
  decide (year % 4 = 0 ∧ year % 100 ≠ 0) || decide (year % 400 = 0)

/-- `turbo_rtsp_days_in_month`. -/
def daysInMonth (year month : ℕ) : ℕ :=
  if month < 1 ∨ month > 12 then 0
  else if month = 2 ∧ isLeapYear year = true then 29
  else [31, 28, 31, 30, 31, 30, 31, 31, 30, 31, 30, 31].getD (month - 1) 0

/-- `turbo_rtsp_days_from_civil`. -/
def daysFromCivil (year month day : ℤ) : ℤ :=
  let y := if month ≤ 2 then year - 1 else year
  let era := (if y ≥ 0 then y else y - 399).tdiv 400
  let yoe := y - era * 400
  let doy := (153 * (month + if month > 2 then -3 else 9) + 2).tdiv 5 + day - 1
  let doe := yoe * 365 + yoe / 4 - yoe / 100 + doy
  era * 146097 + doe - 719468

/-- `turbo_rtsp_parse_clock_time`. -/
def clockTime (b : List UInt8) : Option ℤ :=
  if b = [] then none
  else
    (rangeDigits 4 4 9999 b).bind (fun year =>
      (rangeDigits 2 2 12 year.2).bind (fun month =>
        (rangeDigits 2 2 31 month.2).bind (fun day =>
          (if day.2.head? = some 84 ∨ day.2.head? = some 116 then some day.2.tail
            else none).bind (fun rest =>
            (rangeDigits 2 2 23 rest).bind (fun hour =>
              (rangeDigits 2 2 59 hour.2).bind (fun minute =>
                (if (minute.2.head?.map isDigit).getD false then rangeDigits 2 2 60 minute.2
                  else some (0, minute.2)).bind (fun second =>
                  let fraction := optionalFraction second.2
                  let rest :=
                    if fraction.2.head? = some 90 ∨ fraction.2.head? = some 122 then fraction.2.tail
                    else fraction.2
                  let days := daysFromCivil year.1 month.1 day.1
                  if rest ≠ [] ∨ day.1 < 1 ∨ day.1 > daysInMonth year.1 month.1 then none
                  else if days > (int64Max : ℤ) / 86400000 ∨
                      days < (-(int64Max : ℤ) - 1).tdiv 86400000 then
                    none
                  else
                    some (days * 86400000 + hour.1 * 3600000 + minute.1 * 60000 +
                      second.1 * 1000 + fraction.1))))))))

/-- `turbo_rtsp_parse_range_parameter_time`. -/
def rangeParameterTime : ℕ → RangeHeader → List UInt8 → Option RangeHeader
  | 0, range, _ => some range
  | fuel + 1, range, b =>
    if b.head? ≠ some semicolon then some range
    else
      let param := splitParam b.tail
      let next := match (param.1.span (· != 61)).2 with
        | [] => some range
        | _ :: value =>
          if caseEq (param.1.span (· != 61)).1 (text "time") then
            (clockTime value).map (fun ms => { range with timeMs := ms, hasTime := true })
          else some range
      next.bind (fun range => rangeParameterTime fuel range param.2)

def rangeTime (type : RangeType) (frameRate : ℕ) (b : List UInt8) : Option (ℤ × Bool) :=
  match type with
  | .npt => nptTime b
  | .clock => (clockTime b).map (fun ms => (ms, false))
  | _ => (smpteTime frameRate b).map (fun ms => (ms, false))

/-- `turbo_rtsp_parse_range_values`. -/
def rangeValues (type : RangeType) (frameRate : ℕ) (range : RangeHeader) (b : List UInt8) :
    Option RangeHeader :=
  match (splitDash b).2 with
  | none => none
  | some after =>
    let started : Option RangeHeader :=
      if (splitDash b).1 ≠ [] then
        (rangeTime type frameRate (splitDash b).1).map (fun t =>
          { range with type := type, startMs := t.1, startIsNow := t.2, hasStart := true })
      else if type ≠ .npt then none
      else some { range with type := type }
    started.bind (fun range =>
      if after = [] then some range
      else
        (rangeTime type frameRate after).bind (fun t =>
          if t.2 then none else some { range with endMs := t.1, hasEnd := true }))

/-- The units that are known, with their frame rates. -/
def rangeUnits : List (String × RangeType × ℕ) :=
  [("npt=", .npt, 0), ("clock=", .clock, 0), ("smpte-30-drop=", .smpte30Drop, 30),
    ("smpte-25=", .smpte25, 25), ("smpte=", .smpte, 30)]

def parseRange (token : List UInt8) : Option RangeHeader :=
  (copyInto maxHeaderValueLen token).bind (fun value =>
    let trimmed := ((token.dropWhile isSpace).reverse.dropWhile isSpace).reverse
    let item := (trimmed.span (· != comma)).1
    let range := (item.span (· != semicolon)).1
    let parsed : RangeHeader := { RangeHeader.zero with value := value }
    match rangeUnits.find? (fun unit => startsWithCase range unit.1) with
    | none => some parsed
    | some unit =>
      (rangeValues unit.2.1 unit.2.2 parsed (range.drop (text unit.1).length)).bind
        (fun parsed => rangeParameterTime (item.length + 1) parsed
          (item.span (· != semicolon)).2))

/-- `turbo_rtsp_apply_range`. -/
def applyRange (r : RtspRequest) (token : List UInt8) : Option RtspRequest :=
  (parseRange token).map (fun range => { r with range := range.value, rangeSpec := range })

end TurboMedia.Rtsp
