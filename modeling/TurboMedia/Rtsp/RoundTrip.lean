import TurboMedia.Rtsp.Formatted
import TurboMedia.Rtsp.PrefixStable

/-!
# What is formatted is parsed

**Input.**  A request or a response whose strings are plain, and a buffer.

**Method.**  What was formatted is read line by line; every header is accepted, and the only
length is that of the body.
-/

namespace TurboMedia.Rtsp

open List Option Framing BoundedWriter

section Blocks

variable {head body : List UInt8} {lines : List Line}

theorem findMark_message (hcr : cr ∉ head) (hok : ∀ line ∈ lines, Line.Ok line)
    (body : List UInt8) :
    ∃ i, findMark blankLine (head ++ (crlf ++ (blockOf lines ++ body))) = some i ∧
      (head ++ (crlf ++ (blockOf lines ++ body))).take (i + blankLine.length) =
        head ++ (crlf ++ blockOf lines) ∧
      (head ++ (crlf ++ (blockOf lines ++ body))).drop (i + blankLine.length) = body := by
  obtain ⟨i, hi, hlen⟩ := findMark_blockOf hok body
  have hfind : findMark blankLine (head ++ (crlf ++ (blockOf lines ++ body))) =
      (findMark blankLine (crlf ++ (blockOf lines ++ body))).map (head.length + ·) :=
    findMark_skip hcr
  rw [hi, map_some] at hfind
  have hbytes : head ++ (crlf ++ (blockOf lines ++ body)) =
      (head ++ (crlf ++ blockOf lines)) ++ body := by
    simp
  have hstop : head.length + i + blankLine.length = (head ++ (crlf ++ blockOf lines)).length := by
    rw [length_append, length_append, ← hlen]
    have htwo : crlf.length = 2 := rfl
    have hfour : blankLine.length = 4 := rfl
    omega
  refine ⟨_, hfind, ?_, ?_⟩
  · rw [hbytes, hstop, take_left]
  · rw [hbytes, hstop, drop_left]

theorem delimited_block {α γ : Type} {read : List UInt8 → Option (ℕ × γ)} {value : γ}
    (make : γ → List UInt8 → α) (hcr : cr ∉ head) (hok : ∀ line ∈ lines, Line.Ok line)
    (hread : read (head ++ (crlf ++ blockOf lines)) = some (body.length, value)) :
    delimited blankLine read make (head ++ (crlf ++ (blockOf lines ++ body))) =
      .ok (head ++ (crlf ++ (blockOf lines ++ body))).length (make value body) := by
  obtain ⟨i, hfind, htake, hdrop⟩ := findMark_message hcr hok body
  have hsum : i + blankLine.length + body.length =
      (head ++ (crlf ++ (blockOf lines ++ body))).length := by
    have hcut := (findMark_cut hfind).2
    have hlen := congrArg List.length hdrop
    rw [length_drop] at hlen
    omega
  refine delimited_eq_ok.mpr ⟨i, body.length, value, hfind, ?_, hsum.le, hsum.symm, ?_⟩
  · rw [htake, hread]
  · rw [hdrop, take_length]

theorem delimited_refused
    {α γ : Type} {read : List UInt8 → Option (ℕ × γ)} {make : γ → List UInt8 → α} (hcr : cr ∉ head)
    (hok : ∀ line ∈ lines, Line.Ok line) (hread : read (head ++ (crlf ++ blockOf lines)) = none) :
    delimited blankLine read make (head ++ (crlf ++ (blockOf lines ++ body))) = .error := by
  obtain ⟨i, hfind, htake, _⟩ := findMark_message hcr hok body
  rw [delimited, hfind]
  dsimp only
  rw [htake, hread]

end Blocks

section Actions

variable {ctx ctx' : ParseCtx} {header : HeaderView} {headers : List HeaderView}

/-- Nothing but the headers and what they say of the session is new. -/
structure Follows (ctx ctx' : ParseCtx) (added : List HeaderView) : Prop where
  headers : ctx'.headers = ctx.headers ++ added
  contentLength : ctx'.contentLength = ctx.contentLength
  method : ctx'.request.method = ctx.request.method
  uri : ctx'.request.uri = ctx.request.uri
  cseq : ctx'.request.cseq = ctx.request.cseq

/-- A header that is accepted wherever there is room for it. -/
def Quiet (header : HeaderView) : Prop :=
  ∀ ctx : ParseCtx, ctx.headers.length < maxMessageHeaders →
    ∃ ctx', headerAction ctx (headerToken header.name) header.name header.value = some ctx' ∧
      Follows ctx ctx' [header]

theorem addHeader_room (h : ctx.headers.length < maxMessageHeaders) (name value : List UInt8) :
    addHeader ctx name value = some { ctx with headers := ctx.headers ++ [⟨name, value⟩] } := by
  rw [addHeader, if_neg (not_le.mpr h)]

theorem applySession_some {token : List UInt8}
    (h : (applySession RtspRequest.initial token).isSome = true) (r : RtspRequest) :
    ∃ r', applySession r token = some r' ∧ r'.method = r.method ∧ r'.uri = r.uri ∧
      r'.cseq = r.cseq := by
  obtain ⟨r₀, hr₀⟩ := isSome_iff_exists.mp h
  obtain ⟨id, hid, hrest⟩ := bind_eq_some_iff.mp hr₀
  obtain ⟨timeout, htimeout, _⟩ := map_eq_some_iff.mp hrest
  rw [applySession, hid, bind_some, htimeout, map_some]
  exact ⟨_, rfl, rfl, rfl, rfl⟩

theorem applyTransport_some {token : List UInt8}
    (h : (applyTransport RtspRequest.initial token).isSome = true) (r : RtspRequest) :
    ∃ r', applyTransport r token = some r' ∧ r'.method = r.method ∧ r'.uri = r.uri ∧
      r'.cseq = r.cseq := by
  obtain ⟨r₀, hr₀⟩ := isSome_iff_exists.mp h
  obtain ⟨value, hvalue, hrest⟩ := bind_eq_some_iff.mp hr₀
  obtain ⟨profile, hprofile, hrest⟩ := bind_eq_some_iff.mp hrest
  obtain ⟨update, hupdate, _⟩ := map_eq_some_iff.mp hrest
  rw [applyTransport, hvalue, bind_some, hprofile, bind_some, hupdate, map_some]
  exact ⟨_, rfl, rfl, rfl, rfl⟩

theorem applyRange_some {token : List UInt8}
    (h : (applyRange RtspRequest.initial token).isSome = true) (r : RtspRequest) :
    ∃ r', applyRange r token = some r' ∧ r'.method = r.method ∧ r'.uri = r.uri ∧
      r'.cseq = r.cseq := by
  obtain ⟨r₀, hr₀⟩ := isSome_iff_exists.mp h
  obtain ⟨range, hrange, _⟩ := map_eq_some_iff.mp hr₀
  rw [applyRange, hrange, map_some]
  exact ⟨_, rfl, rfl, rfl, rfl⟩

theorem quiet_of_update {f : RtspRequest → Option RtspRequest}
    (haction : ∀ ctx : ParseCtx,
      headerAction ctx (headerToken header.name) header.name header.value =
        (addHeader ctx header.name header.value).bind (fun ctx =>
          (f ctx.request).map (fun r => { ctx with request := r })))
    (hf : ∀ r, ∃ r', f r = some r' ∧ r'.method = r.method ∧ r'.uri = r.uri ∧ r'.cseq = r.cseq) :
    Quiet header := by
  intro ctx hroom
  obtain ⟨r', hr', hmethod, huri, hcseq⟩ := hf ctx.request
  rw [haction, addHeader_room hroom, bind_some, hr', map_some]
  exact ⟨_, rfl, rfl, rfl, hmethod, huri, hcseq⟩

theorem quiet_session {value : List UInt8}
    (h : (applySession RtspRequest.initial value).isSome = true) :
    Quiet ⟨text "Session", value⟩ := by
  have htoken : headerToken (text "Session") = .session := by decide
  refine quiet_of_update (fun ctx => ?_) (applySession_some h)
  rw [htoken]
  rfl

theorem quiet_transport {value : List UInt8}
    (h : (applyTransport RtspRequest.initial value).isSome = true) :
    Quiet ⟨text "Transport", value⟩ := by
  have htoken : headerToken (text "Transport") = .transport := by decide
  refine quiet_of_update (fun ctx => ?_) (applyTransport_some h)
  rw [htoken]
  rfl

theorem quiet_range {value : List UInt8}
    (h : (applyRange RtspRequest.initial value).isSome = true) : Quiet ⟨text "Range", value⟩ := by
  have htoken : headerToken (text "Range") = .token := by decide
  have hrange : ∀ r, applyHeader r (text "Range") value = applyRange r value := fun r => if_pos rfl
  refine quiet_of_update (f := fun r => applyHeader r (text "Range") value) (fun ctx => ?_)
    (fun r => ?_)
  · rw [htoken]
    rfl
  · rw [hrange]
    exact applyRange_some h r

theorem quiet_other {name : List UInt8} (htoken : headerToken name = .token)
    (hrange : caseEq name (text "Range") = false) (value : List UInt8) : Quiet ⟨name, value⟩ := by
  refine quiet_of_update (f := fun r => applyHeader r name value) (fun ctx => ?_)
    (fun r => ⟨r, ?_, rfl, rfl, rfl⟩)
  · rw [htoken]
    rfl
  · rw [applyHeader, if_neg (by rw [hrange]; simp)]

theorem applyLines_quiet (hplain : ∀ header ∈ headers, header.Plain)
    (hquiet : ∀ header ∈ headers, Quiet header)
    (hroom : ctx.headers.length + headers.length ≤ maxMessageHeaders) (rest : List Line) :
    ∃ ctx', applyLines ctx (headers.map headerLine ++ rest) = applyLines ctx' rest ∧
      Follows ctx ctx' headers := by
  induction headers generalizing ctx with
  | nil => exact ⟨ctx, rfl, (append_nil _).symm, rfl, rfl, rfl, rfl⟩
  | cons header headers ih =>
    obtain ⟨hhdr, hheaders⟩ := forall_mem_cons.mp hplain
    obtain ⟨hfirst, hrest⟩ := forall_mem_cons.mp hquiet
    rw [length_cons] at hroom
    obtain ⟨ctx₁, haction, hfol⟩ := hfirst ctx (by omega)
    have hroom₁ : ctx₁.headers.length + headers.length ≤ maxMessageHeaders := by
      rw [hfol.headers, length_append, length_singleton]
      omega
    obtain ⟨ctx₂, happly, hlast⟩ := ih hheaders hrest hroom₁
    refine ⟨ctx₂, ?_, ?_, ?_, ?_, ?_, ?_⟩
    · rw [map_cons, cons_append, applyLines, headerLine_value hhdr]
      rw [show (headerLine header).name = header.name from rfl, haction, bind_some, happly]
    · rw [hlast.headers, hfol.headers, append_assoc]
      rfl
    · rw [hlast.contentLength, hfol.contentLength]
    · rw [hlast.method, hfol.method]
    · rw [hlast.uri, hfol.uri]
    · rw [hlast.cseq, hfol.cseq]

theorem headerAction_cseq (cseq : UInt32) (h : ctx.headers.length < maxMessageHeaders) :
    ∃ ctx', headerAction ctx (headerToken (text "CSeq")) (text "CSeq") (decimalText cseq.toNat) =
        some ctx' ∧
      ctx'.headers = ctx.headers ++ [cseqHeader cseq] ∧ ctx'.contentLength = ctx.contentLength ∧
      ctx'.request = { ctx.request with cseq := cseq.toNat } := by
  have htoken : headerToken (text "CSeq") = .cseq := by decide
  have hnumber : tokenToU32 (decimalText cseq.toNat) = some cseq.toNat :=
    decimal_decimalText (Nat.le_sub_one_of_lt cseq.toNat_lt)
  rw [htoken, headerAction, addHeader_room h, bind_some]
  rw [hnumber]
  exact ⟨_, rfl, rfl, rfl, rfl⟩

theorem headerAction_lengthHeader {body : Option Body} (hbody : bodyLen body < 2 ^ 64)
    (hnone : ctx.contentLength = none) (h : ctx.headers.length < maxMessageHeaders) :
    ∃ ctx', headerAction ctx (headerToken (text "Content-Length")) (text "Content-Length")
        (decimalText (bodyLen body)) = some ctx' ∧
      ctx'.headers = ctx.headers ++ [lengthHeader body] ∧
      ctx'.contentLength = some (bodyLen body) ∧ ctx'.request = ctx.request := by
  have htoken : headerToken (text "Content-Length") = .contentLength := by decide
  have hnumber : tokenToSize (decimalText (bodyLen body)) = some (bodyLen body) :=
    decimal_decimalText (Nat.le_sub_one_of_lt hbody)
  rw [htoken, headerAction, addHeader_room h, bind_some]
  rw [hnumber, bind_some, hnone]
  exact ⟨_, rfl, rfl, rfl, rfl⟩

end Actions

section Requests

/-- The headers between the first and the last. -/
def requestMiddle (request : RequestMessage) : List HeaderView :=
  optionalHeader "User-Agent" (nonEmpty request.userAgent) ++
  optionalHeader "Session" (nonEmpty request.sessionId) ++
  optionalHeader "Transport" (nonEmpty request.transport) ++
  optionalHeader "Range" (nonEmpty request.range) ++
  optionalHeader "Content-Type" (nonEmpty request.contentType) ++
  extraHeaders request.headers

/-- The headers of a request, in the order in which they are written. -/
def requestHeaders (request : RequestMessage) : List HeaderView :=
  cseqHeader request.cseq :: (requestMiddle request ++ [lengthHeader request.body])

def requestText (request : RequestMessage) : List UInt8 :=
  cellsOf (requestPieces ((methodName request.method).getD [])
    (request.uri.getD []) request)

/-- The strings of a request have no line ends and no blanks around them, its address has no
blank at all, and the names of its extra headers are tokens. -/
structure RequestMessage.Plain (request : RequestMessage) : Prop where
  uri : ∀ uri ∈ request.uri, PlainText uri ∧ uri ≠ [] ∧ ∀ b ∈ uri, isBlank b = false
  userAgent : ∀ value ∈ request.userAgent, PlainText value
  sessionId : ∀ value ∈ request.sessionId, PlainText value
  transport : ∀ value ∈ request.transport, PlainText value
  range : ∀ value ∈ request.range, PlainText value
  contentType : ∀ value ∈ request.contentType, PlainText value
  names : ∀ header ∈ request.headers, ∀ name ∈ header.name,
    name ≠ [] ∧ ∀ b ∈ name, isHeaderChar b = true
  values : ∀ header ∈ request.headers, ∀ value ∈ header.value, PlainText value

/-- The parser has room for the headers and accepts the values that it looks at. -/
structure RequestMessage.Readable (request : RequestMessage) : Prop where
  lines : (requestHeaders request).length ≤ maxMessageHeaders
  sessionId : ∀ value ∈ nonEmpty request.sessionId,
    (applySession RtspRequest.initial value).isSome = true
  transport : ∀ value ∈ nonEmpty request.transport,
    (applyTransport RtspRequest.initial value).isSome = true
  range : ∀ value ∈ nonEmpty request.range,
    (applyRange RtspRequest.initial value).isSome = true

/-- What is formatted is parsed to the same request. -/
def RequestReturns (request : RequestMessage) : Prop :=
  ∀ memory bufferSize, (formatRequest memory bufferSize request).2 ≠ -1 →
    ∃ n message, (formatRequest memory bufferSize request).2 = (n : ℕ) ∧
      parseMessage (load (formatRequest memory bufferSize request).1 n) =
        .ok n message ∧
      message.request.method = request.method ∧ request.uri = some message.request.uri ∧
      message.request.cseq = request.cseq.toNat ∧
      message.headers = requestHeaders request ∧ message.body = bodyBytes request.body

variable {request : RequestMessage}

theorem nonEmpty_mem {value : List UInt8} {given : Option (List UInt8)}
    (h : value ∈ nonEmpty given) : value ∈ given := by
  rw [nonEmpty, mem_def, filter_eq_some_iff] at h
  exact h.1

theorem optionalHeader_forall {P : HeaderView → Prop} {name : String} {given : Option (List UInt8)}
    (h : ∀ value ∈ given, P ⟨text name, value⟩) :
    ∀ header ∈ optionalHeader name given, P header := by
  intro header hin
  obtain ⟨value, hvalue, rfl⟩ := mem_map.mp hin
  exact h value (mem_toList.mp hvalue)

theorem nonEmpty_plain {given : Option (List UInt8)} (h : ∀ value ∈ given, PlainText value) :
    ∀ value ∈ nonEmpty given, PlainText value :=
  fun value hin => h value (nonEmpty_mem hin)

theorem optional_plain {name : String} {given : Option (List UInt8)}
    (hname : text name ≠ [] ∧ (text name).all isHeaderChar = true)
    (hgiven : ∀ value ∈ given, PlainText value) :
    ∀ header ∈ optionalHeader name given, header.Plain :=
  optionalHeader_forall
    (fun value hin => plain_of_name (name_of_all hname.1 hname.2) (hgiven value hin))

theorem extraHeaders_forall {P : HeaderView → Prop} {headers : List RtspHeader}
    (h : ∀ header ∈ headers, ∀ name ∈ header.name, ∀ value ∈ header.value, P ⟨name, value⟩) :
    ∀ view ∈ extraHeaders headers, P view := by
  intro view hin
  obtain ⟨header, hhdr, hview⟩ := mem_filterMap.mp hin
  obtain ⟨name, hname, hrest⟩ := bind_eq_some_iff.mp hview
  obtain ⟨value, hvalue, rfl⟩ := map_eq_some_iff.mp hrest
  exact h header hhdr name hname value hvalue

theorem cellsOf_requestPieces {name uri : List UInt8}
    (h : ∀ piece ∈ requestPieces name uri request, piece ≠ .refused) :
    cellsOf (requestPieces name uri request) = requestHead name uri ++
          (crlf ++ (blockOf ((requestHeaders request).map headerLine) ++ bodyBytes request.body)) ∧
      ∀ view ∈ extraHeaders request.headers, isManagedRequestHeader view.name = false := by
  have hextras : ∀ piece ∈ extraPieces isManagedRequestHeader request.headers,
      piece ≠ .refused := by
    intro piece hin
    refine h piece (mem_cons_of_mem _ ?_)
    exact mem_append_left _ (mem_append_right _ hin)
  obtain ⟨hpieces, hnames⟩ := extraPieces_eq hextras
  refine ⟨?_, hnames⟩
  have hmiddle : requestPieces name uri request =
      .format (name ++ text " " ++ uri ++ text " RTSP/1.0" ++ crlf ++ text "CSeq: " ++
        decimalText request.cseq.toNat ++ crlf) ::
        ((requestMiddle request).map headerPiece ++ lastPieces request.body) := by
    rw [requestPieces, hpieces, requestMiddle]
    simp
  have hfirst : name ++ text " " ++ uri ++ text " RTSP/1.0" ++ crlf ++ text "CSeq: " ++
      decimalText request.cseq.toNat ++ crlf =
      requestHead name uri ++ (crlf ++ ((headerLine (cseqHeader request.cseq)).bytes ++ crlf)) := by
    have hspace : text " " = [32] := by decide
    have hver : text " RTSP/1.0" = 32 :: text "RTSP/1.0" := by decide
    have hcseq : text "CSeq: " = text "CSeq" ++ [colonByte, 32] := by decide
    rw [hspace, hver, hcseq, requestHead, Line.bytes, headerLine, cseqHeader]
    simp
  rw [hmiddle, hfirst, cellsOf_message]
  rfl

theorem requestHeaders_plain (h : request.Plain) :
    ∀ header ∈ requestHeaders request, header.Plain := by
  have hextra : ∀ header ∈ extraHeaders request.headers, header.Plain :=
    extraHeaders_forall (fun header hin name hname value hvalue =>
      plain_of_name (h.names header hin name hname) (h.values header hin value hvalue))
  refine forall_mem_cons.mpr ⟨cseqHeader_plain _, ?_⟩
  refine forall_mem_append.mpr ⟨?_, forall_mem_singleton.mpr (lengthHeader_plain _)⟩
  simp only [requestMiddle, forall_mem_append]
  have hgiven := @nonEmpty_plain
  exact ⟨⟨⟨⟨⟨optional_plain (by decide) (hgiven h.userAgent),
    optional_plain (by decide) (hgiven h.sessionId)⟩,
    optional_plain (by decide) (hgiven h.transport)⟩,
    optional_plain (by decide) (hgiven h.range)⟩,
    optional_plain (by decide) (hgiven h.contentType)⟩, hextra⟩

theorem requestMiddle_quiet (h : request.Readable)
    (hnames : ∀ view ∈ extraHeaders request.headers, isManagedRequestHeader view.name = false) :
    ∀ header ∈ requestMiddle request, Quiet header := by
  have hextra : ∀ view ∈ extraHeaders request.headers, Quiet view := by
    intro view hin
    have hmanaged := hnames view hin
    simp only [isManagedRequestHeader, any_cons, any_nil, Bool.or_eq_false_iff] at hmanaged
    obtain ⟨hcseq, _, hsess, htransport, hrange, _, hlen, _⟩ := hmanaged
    refine quiet_other ?_ hrange view.value
    rw [headerToken, hcseq, hsess, htransport, hlen]
    rfl
  simp only [requestMiddle, forall_mem_append]
  refine ⟨⟨⟨⟨⟨?_, ?_⟩, ?_⟩, ?_⟩, ?_⟩, hextra⟩
  · exact optionalHeader_forall (fun value _ => quiet_other (by decide) (by decide) value)
  · exact optionalHeader_forall (fun value hin => quiet_session (h.sessionId value hin))
  · exact optionalHeader_forall (fun value hin => quiet_transport (h.transport value hin))
  · exact optionalHeader_forall (fun value hin => quiet_range (h.range value hin))
  · exact optionalHeader_forall (fun value _ => quiet_other (by decide) (by decide) value)

theorem applyLines_request (ctx : ParseCtx) (hplain : request.Plain) (hread : request.Readable)
    (hnames : ∀ view ∈ extraHeaders request.headers, isManagedRequestHeader view.name = false)
    (hempty : ctx.headers = []) (hnone : ctx.contentLength = none) :
    ∃ ctx', applyLines ctx ((requestHeaders request).map headerLine) = some ctx' ∧
      ctx'.headers = requestHeaders request ∧ ctx'.contentLength = some (bodyLen request.body) ∧
      ctx'.request.method = ctx.request.method ∧ ctx'.request.uri = ctx.request.uri ∧
      ctx'.request.cseq = request.cseq.toNat := by
  have hall := requestHeaders_plain hplain
  have hlines := hread.lines
  rw [requestHeaders] at hall hlines
  obtain ⟨hfirst, hrest⟩ := forall_mem_cons.mp hall
  obtain ⟨hmiddle, hlast⟩ := forall_mem_append.mp hrest
  rw [forall_mem_singleton] at hlast
  rw [length_cons, length_append, length_singleton] at hlines
  have hroom : ctx.headers.length < maxMessageHeaders := by
    rw [hempty, length_nil]
    omega
  obtain ⟨ctx₁, hcseq, hheaders₁, hlength₁, hrequest₁⟩ := headerAction_cseq request.cseq hroom
  have hroom₁ : ctx₁.headers.length + (requestMiddle request).length ≤ maxMessageHeaders := by
    rw [hheaders₁, hempty, nil_append, length_singleton]
    omega
  obtain ⟨ctx₂, happly, hfol⟩ := applyLines_quiet hmiddle (requestMiddle_quiet hread hnames)
    hroom₁ [headerLine (lengthHeader request.body)]
  have hheaders₂ : ctx₂.headers = cseqHeader request.cseq :: requestMiddle request := by
    rw [hfol.headers, hheaders₁, hempty]
    rfl
  have hroom₂ : ctx₂.headers.length < maxMessageHeaders := by
    rw [hheaders₂, length_cons]
    omega
  have hnone₂ : ctx₂.contentLength = none := by
    rw [hfol.contentLength, hlength₁, hnone]
  obtain ⟨ctx₃, hlen, hheaders₃, hlength₃, hrequest₃⟩ :=
    headerAction_lengthHeader (bodyLen_lt request.body) hnone₂ hroom₂
  refine ⟨ctx₃, ?_, ?_, hlength₃, ?_, ?_, ?_⟩
  · rw [requestHeaders, map_cons, map_append, applyLines, headerLine_value hfirst,
      show (headerLine (cseqHeader request.cseq)).name = text "CSeq" from rfl,
      show (cseqHeader request.cseq).value = decimalText request.cseq.toNat from rfl, hcseq,
      bind_some, map_singleton, happly, applyLines, headerLine_value hlast,
      show (headerLine (lengthHeader request.body)).name = text "Content-Length" from rfl,
      show (lengthHeader request.body).value = decimalText (bodyLen request.body) from rfl,
      hlen]
    rfl
  · rw [hheaders₃, hheaders₂, requestHeaders, cons_append]
  · rw [hrequest₃, hfol.method, hrequest₁]
  · rw [hrequest₃, hfol.uri, hrequest₁]
  · rw [hrequest₃, hfol.cseq, hrequest₁]

theorem formatRequest_eq {memory : ℕ → UInt8} {bufferSize : ℕ}
    (h : (formatRequest memory bufferSize request).2 ≠ -1) :
    ∃ name uri, methodName request.method = some name ∧ request.uri = some uri ∧
      formatRequest memory bufferSize request = returned (putAll 0 intMax
        ⟨store memory 0 [0], 0, bufferSize⟩ (requestPieces name uri request)) := by
  rw [formatRequest] at h ⊢
  cases huri : request.uri with
  | none =>
    rw [huri] at h
    exact absurd rfl h
  | some uri =>
    rw [huri] at h
    split_ifs at h ⊢ with hargs
    · exact absurd rfl h
    · cases hname : methodName request.method with
      | none =>
        rw [hname] at h
        exact absurd rfl h
      | some name => exact ⟨name, uri, rfl, rfl, rfl⟩

theorem cr_not_mem_requestHead {name uri : List UInt8} {method : RtspMethod}
    (hname : methodName method = some name) (huri : cr ∉ uri) : cr ∉ requestHead name uri := by
  have hmethod : cr ∉ name := not_mem_of_class (methodToken_name hname).2.2 (by decide)
  have hver : cr ∉ 32 :: text "RTSP/1.0" := by decide
  rw [requestHead]
  intro hin
  rcases mem_append.mp hin with hin | hin
  · exact hmethod hin
  · rcases mem_cons.mp hin with hin | hin
    · exact absurd hin (by decide)
    · rcases mem_append.mp hin with hin | hin
      · exact huri hin
      · exact hver hin

theorem isUriChar_plain {uri : List UInt8} (h : PlainText uri)
    (hblank : ∀ b ∈ uri, isBlank b = false) : ∀ b ∈ uri, isUriChar b = true := by
  intro b hb
  have hcr : b ≠ cr := fun heq => h.no_cr (heq ▸ hb)
  have hlf : b ≠ lf := fun heq => h.no_lf (heq ▸ hb)
  rw [isUriChar, hblank b hb, Bool.and_eq_true, Bool.and_eq_true, bne_iff_ne, bne_iff_ne]
  exact ⟨⟨rfl, hcr⟩, hlf⟩

theorem formatRequest_cells {memory : ℕ → UInt8} {bufferSize : ℕ}
    (hint : (requestText request).length ≤ intMax)
    (h : (formatRequest memory bufferSize request).2 ≠ -1) :
    ∃ name uri n, methodName request.method = some name ∧ request.uri = some uri ∧
      (formatRequest memory bufferSize request).2 = (n : ℕ) ∧
      load (formatRequest memory bufferSize request).1 n = requestHead name uri ++
          (crlf ++ (blockOf ((requestHeaders request).map headerLine) ++ bodyBytes request.body)) ∧
      (∀ view ∈ extraHeaders request.headers, isManagedRequestHeader view.name = false) := by
  obtain ⟨name, uri, hname, huri, hformat⟩ := formatRequest_eq h
  rw [requestText, hname, huri, getD_some, getD_some] at hint
  rw [hformat] at h ⊢
  obtain ⟨href, hret, hload⟩ := returned_ok hint h
  obtain ⟨hcells, hnames⟩ := cellsOf_requestPieces href
  exact ⟨name, uri, _, hname, huri, hret, hload.trans hcells, hnames⟩

theorem requestHeaders_lines (h : request.Plain) :
    ∀ line ∈ (requestHeaders request).map headerLine, Line.Ok line := by
  intro line hin
  obtain ⟨header, hhdr, rfl⟩ := mem_map.mp hin
  exact headerLine_ok (requestHeaders_plain h header hhdr)

theorem request_returns (hplain : request.Plain) (hread : request.Readable)
    (hshort : ∀ uri ∈ request.uri, uri.length < maxUriLen)
    (hint : (requestText request).length ≤ intMax) : RequestReturns request := by
  intro memory bufferSize hcode
  obtain ⟨name, uri, n, hname, huri, hn, hload, hnames⟩ := formatRequest_cells hint hcode
  obtain ⟨huriplain, hne, hblank⟩ := hplain.uri uri huri
  have hcopy : copyInto maxUriLen uri = some uri := if_neg (not_le.mpr (hshort uri huri))
  have hok := requestHeaders_lines hplain
  have hparsed := requestLine_head hname hne (isUriChar_plain huriplain hblank)
    (blockOf ((requestHeaders request).map headerLine))
  rw [hcopy, map_some] at hparsed
  obtain ⟨ctx, happly, hheaders, hlen, hmethod, huri', hcseq⟩ := applyLines_request
    { ParseCtx.initial with
      request := { RtspRequest.initial with method := request.method, uri := uri } }
    hplain hread hnames rfl rfl
  have hblock : (parseBlock (requestHead name uri ++
      (crlf ++ blockOf ((requestHeaders request).map headerLine)))).map
        (fun ctx => (ctx.contentLength.getD 0, ctx)) =
      some ((bodyBytes request.body).length, ctx) := by
    rw [parseBlock, hparsed, bind_some, headersEnd_of_lines hok, happly, map_some,
      hlen, bodyBytes_length]
    · rfl
    · have hlines := length_lt_blockOf ((requestHeaders request).map headerLine)
      rw [length_append, length_append]
      omega
  have hparse : parseMessage (load (formatRequest memory bufferSize request).1 n) =
      .ok n (messageOf ctx (bodyBytes request.body)) := by
    rw [hload, parseMessage_eq, delimited_block messageOf
      (cr_not_mem_requestHead hname huriplain.no_cr) hok hblock, ← hload,
      load_length]
  refine ⟨n, _, hn, hparse, hmethod, ?_, hcseq, hheaders, rfl⟩
  rw [huri]
  exact congrArg some huri'.symm

theorem request_long_uri {memory : ℕ → UInt8} {bufferSize : ℕ} (hplain : request.Plain)
    (hlong : ∀ uri ∈ request.uri, maxUriLen ≤ uri.length)
    (hint : (requestText request).length ≤ intMax)
    (hcode : (formatRequest memory bufferSize request).2 ≠ -1) :
    ∃ n : ℕ, (formatRequest memory bufferSize request).2 = n ∧
      parseMessage (load (formatRequest memory bufferSize request).1 n) = .error := by
  obtain ⟨name, uri, n, hname, huri, hn, hload, hnames⟩ := formatRequest_cells hint hcode
  obtain ⟨huriplain, hne, hblank⟩ := hplain.uri uri huri
  have hcopy : copyInto maxUriLen uri = none := if_pos (hlong uri huri)
  have hparsed := requestLine_head hname hne (isUriChar_plain huriplain hblank)
    (blockOf ((requestHeaders request).map headerLine))
  rw [hcopy, map_none] at hparsed
  refine ⟨n, hn, ?_⟩
  rw [hload, parseMessage_eq]
  refine delimited_refused (cr_not_mem_requestHead hname huriplain.no_cr)
    (requestHeaders_lines hplain) ?_
  rw [parseBlock, hparsed]
  rfl

end Requests

section Responses

/-- The headers between the first and the last. -/
def responseMiddle (serverName : Option (List UInt8)) (response : RtspResponse) :
    List HeaderView :=
  optionalHeader "Server" (nonEmpty serverName) ++
  optionalHeader "Public" response.publicMethods ++
  optionalHeader "Session" response.sessionId ++
  optionalHeader "Transport" response.transport ++
  optionalHeader "Range" response.range ++
  optionalHeader "RTP-Info" response.rtpInfo ++
  optionalHeader "Content-Type" response.contentType ++
  extraHeaders response.headers

/-- The headers of a response, in the order in which they are written. -/
def responseViews (cseq : UInt32) (serverName : Option (List UInt8)) (response : RtspResponse) :
    List HeaderView :=
  cseqHeader cseq :: (responseMiddle serverName response ++ [lengthHeader response.body])

/-- All that is to be written for a response. -/
def responseText (cseq : UInt32) (serverName : Option (List UInt8)) (response : RtspResponse) :
    List UInt8 :=
  cellsOf (responsePieces cseq serverName response)

/-- The strings of a response have no line ends and no blanks around them, its status has
three digits, and the names of its extra headers are tokens. -/
structure RtspResponse.Plain (response : RtspResponse) (serverName : Option (List UInt8)) :
    Prop where
  status : 100 ≤ response.status ∧ response.status ≤ 999
  reason : ∀ value ∈ response.reason, PlainText value
  serverName : ∀ value ∈ serverName, PlainText value
  publicMethods : ∀ value ∈ response.publicMethods, PlainText value
  sessionId : ∀ value ∈ response.sessionId, PlainText value
  transport : ∀ value ∈ response.transport, PlainText value
  range : ∀ value ∈ response.range, PlainText value
  rtpInfo : ∀ value ∈ response.rtpInfo, PlainText value
  contentType : ∀ value ∈ response.contentType, PlainText value
  names : ∀ header ∈ response.headers, ∀ name ∈ header.name,
    name ≠ [] ∧ ∀ b ∈ name, isHeaderChar b = true
  values : ∀ header ∈ response.headers, ∀ value ∈ header.value, PlainText value

/-- What is formatted is parsed to the same response. -/
def ResponseReturns (cseq : UInt32) (serverName : Option (List UInt8))
    (response : RtspResponse) : Prop :=
  ∀ memory bufferSize, (formatResponse memory bufferSize cseq serverName response).2 ≠ -1 →
    ∃ n : ℕ, (formatResponse memory bufferSize cseq serverName response).2 = n ∧
      parseResponse (load
          (formatResponse memory bufferSize cseq serverName response).1 n) =
        .ok n ⟨response.status.toNat, response.phrase, responseViews cseq serverName response,
          bodyBytes response.body⟩

variable {cseq : UInt32} {serverName : Option (List UInt8)} {response : RtspResponse}

def responseHead (response : RtspResponse) : List UInt8 :=
  text "RTSP/1.0 " ++ intText response.status ++ text " " ++ response.phrase

theorem cellsOf_responsePieces
    (h : ∀ piece ∈ responsePieces cseq serverName response, piece ≠ .refused) :
    cellsOf (responsePieces cseq serverName response) = responseHead response ++
          (crlf ++ (blockOf ((responseViews cseq serverName response).map headerLine) ++
            bodyBytes response.body)) ∧
      ∀ view ∈ extraHeaders response.headers, isManagedResponseHeader view.name = false := by
  have hextras : ∀ piece ∈ extraPieces isManagedResponseHeader response.headers,
      piece ≠ .refused := by
    intro piece hin
    refine h piece (mem_cons_of_mem _ ?_)
    exact mem_append_left _ (mem_append_right _ hin)
  obtain ⟨hpieces, hnames⟩ := extraPieces_eq hextras
  refine ⟨?_, hnames⟩
  have hmiddle : responsePieces cseq serverName response =
      .format (text "RTSP/1.0 " ++ intText response.status ++ text " " ++ response.phrase ++
        crlf ++ text "CSeq: " ++ decimalText cseq.toNat ++ crlf) ::
        ((responseMiddle serverName response).map headerPiece ++ lastPieces response.body) := by
    rw [responsePieces, hpieces, responseMiddle]
    simp
  have hfirst : text "RTSP/1.0 " ++ intText response.status ++ text " " ++ response.phrase ++
      crlf ++ text "CSeq: " ++ decimalText cseq.toNat ++ crlf =
      responseHead response ++ (crlf ++ ((headerLine (cseqHeader cseq)).bytes ++ crlf)) := by
    have hcseq : text "CSeq: " = text "CSeq" ++ [colonByte, 32] := by decide
    rw [hcseq, responseHead, Line.bytes, headerLine, cseqHeader]
    simp
  rw [hmiddle, hfirst, cellsOf_message]
  rfl

theorem responseViews_plain (cseq : UInt32) (h : response.Plain serverName) :
    ∀ header ∈ responseViews cseq serverName response, header.Plain := by
  have hextra : ∀ header ∈ extraHeaders response.headers, header.Plain :=
    extraHeaders_forall (fun header hin name hname value hvalue =>
      plain_of_name (h.names header hin name hname) (h.values header hin value hvalue))
  refine forall_mem_cons.mpr ⟨cseqHeader_plain _, ?_⟩
  refine forall_mem_append.mpr ⟨?_, forall_mem_singleton.mpr (lengthHeader_plain _)⟩
  simp only [responseMiddle, forall_mem_append]
  exact ⟨⟨⟨⟨⟨⟨⟨optional_plain (by decide) (nonEmpty_plain h.serverName),
    optional_plain (by decide) h.publicMethods⟩, optional_plain (by decide) h.sessionId⟩,
    optional_plain (by decide) h.transport⟩, optional_plain (by decide) h.range⟩,
    optional_plain (by decide) h.rtpInfo⟩, optional_plain (by decide) h.contentType⟩, hextra⟩

theorem responseMiddle_names
    (hnames : ∀ view ∈ extraHeaders response.headers, isManagedResponseHeader view.name = false) :
    ∀ header ∈ responseMiddle serverName response,
      caseEq header.name (text "Content-Length") = false := by
  have hoptional : ∀ (name : String) (given : Option (List UInt8)),
      caseEq (text name) (text "Content-Length") = false →
      ∀ header ∈ optionalHeader name given,
        caseEq header.name (text "Content-Length") = false :=
    fun name given hname => optionalHeader_forall (fun value _ => hname)
  have hextra : ∀ view ∈ extraHeaders response.headers,
      caseEq view.name (text "Content-Length") = false := by
    intro view hin
    have hmanaged := hnames view hin
    simp only [isManagedResponseHeader, any_cons, any_nil, Bool.or_eq_false_iff] at hmanaged
    obtain ⟨_, _, _, _, _, _, _, _, hlen, _⟩ := hmanaged
    exact hlen
  simp only [responseMiddle, forall_mem_append]
  exact ⟨⟨⟨⟨⟨⟨⟨hoptional _ _ (by decide), hoptional _ _ (by decide)⟩, hoptional _ _ (by decide)⟩,
    hoptional _ _ (by decide)⟩, hoptional _ _ (by decide)⟩, hoptional _ _ (by decide)⟩,
    hoptional _ _ (by decide)⟩, hextra⟩

theorem responseLines_plain {headers views : List HeaderView} {known : Option ℕ}
    (hplain : ∀ header ∈ headers, header.Plain)
    (hnames : ∀ header ∈ headers, caseEq header.name (text "Content-Length") = false)
    (hroom : views.length + headers.length ≤ maxMessageHeaders) (rest : List Line) :
    responseLines views known (headers.map headerLine ++ rest) =
      responseLines (views ++ headers) known rest := by
  induction headers generalizing views with
  | nil =>
    rw [append_nil]
    rfl
  | cons header headers ih =>
    obtain ⟨hhdr, hheaders⟩ := forall_mem_cons.mp hplain
    obtain ⟨hname, hrest⟩ := forall_mem_cons.mp hnames
    rw [length_cons] at hroom
    have hadd : responseAddHeader views header.name header.value = some (views ++ [header]) :=
      if_neg (by omega)
    have hlen : responseContentLength known header.name header.value = some known :=
      if_neg (by rw [hname]; simp)
    have hroom' : (views ++ [header]).length + headers.length ≤ maxMessageHeaders := by
      rw [length_append, length_singleton]
      omega
    rw [map_cons, cons_append, responseLines, headerLine_value hhdr,
      show (headerLine header).name ++ (headerLine header).blanks = header.name from
        append_nil _, hadd, bind_some, hlen, bind_some,
      ih hheaders hrest hroom', append_assoc]
    rfl

theorem responseLines_views (hplain : response.Plain serverName)
    (hnames : ∀ view ∈ extraHeaders response.headers, isManagedResponseHeader view.name = false)
    (hlines : (responseViews cseq serverName response).length ≤ maxMessageHeaders) :
    responseLines [] none ((responseViews cseq serverName response).map headerLine) =
      some (responseViews cseq serverName response, some (bodyLen response.body)) := by
  have hall := responseViews_plain cseq hplain
  rw [responseViews] at hall hlines
  have hviews : (responseViews cseq serverName response).map headerLine =
      (cseqHeader cseq :: responseMiddle serverName response).map headerLine ++
        [headerLine (lengthHeader response.body)] := by
    rw [responseViews, ← cons_append, map_append, map_singleton]
  rw [length_cons, length_append, length_singleton] at hlines
  rw [← cons_append, forall_mem_append, forall_mem_singleton] at hall
  have hnumber : tokenToSize (decimalText (bodyLen response.body)) = some (bodyLen response.body) :=
    decimal_decimalText (Nat.le_sub_one_of_lt (bodyLen_lt _))
  have hadd : responseAddHeader (cseqHeader cseq :: responseMiddle serverName response)
      (text "Content-Length") (decimalText (bodyLen response.body)) =
      some (responseViews cseq serverName response) := by
    rw [responseAddHeader, if_neg (by rw [length_cons]; omega)]
    rfl
  have hlen : responseContentLength none (text "Content-Length")
      (decimalText (bodyLen response.body)) = some (some (bodyLen response.body)) := by
    rw [responseContentLength, if_pos (by decide), hnumber]
    rfl
  have hcseq : caseEq (text "CSeq") (text "Content-Length") = false := by decide
  rw [hviews, responseLines_plain hall.1
    (forall_mem_cons.mpr ⟨hcseq, responseMiddle_names hnames⟩)
    (by rw [length_cons, length_nil]; omega), nil_append, responseLines,
    headerLine_value hall.2,
    show (headerLine (lengthHeader response.body)).name ++
      (headerLine (lengthHeader response.body)).blanks = text "Content-Length" from
      append_nil _,
    show (lengthHeader response.body).value = decimalText (bodyLen response.body) from rfl,
    hadd, bind_some, hlen, bind_some]
  rfl

theorem decimalText_three {n : ℕ} (hlow : 100 ≤ n) (hhigh : n ≤ 999) :
    decimalText n = [UInt8.ofNat (Nat.digitChar (n / 100)).toNat,
      UInt8.ofNat (Nat.digitChar (n / 10 % 10)).toNat,
      UInt8.ofNat (Nat.digitChar (n % 10)).toNat] := by
  rw [decimalText_of_le (by omega), decimalText_of_le (by omega), Nat.div_div_eq_div_mul,
    decimalText_of_lt (by omega)]
  rfl

theorem responseStatusLine_head (hstat : 100 ≤ response.status ∧ response.status ≤ 999) :
    responseStatusLine (responseHead response) = some (response.status.toNat, response.phrase) := by
  obtain ⟨n, hn⟩ : ∃ n : ℕ, response.status = n := ⟨response.status.toNat, by omega⟩
  have hlow : 100 ≤ n := by omega
  have hhigh : n ≤ 999 := by omega
  have htext : intText response.status = decimalText n := by
    rw [hn, intText, if_neg (by omega)]
    rfl
  obtain ⟨ha, hva⟩ := digitChar_byte (show n / 100 < 10 by omega)
  obtain ⟨hb, hvb⟩ := digitChar_byte (show n / 10 % 10 < 10 by omega)
  obtain ⟨hc, hvc⟩ := digitChar_byte (show n % 10 < 10 by omega)
  have hspace : text " " = [32] := by decide
  have hbytes : responseHead response = text "RTSP/1.0 " ++
      (UInt8.ofNat (Nat.digitChar (n / 100)).toNat ::
        UInt8.ofNat (Nat.digitChar (n / 10 % 10)).toNat ::
        UInt8.ofNat (Nat.digitChar (n % 10)).toNat :: 32 :: response.phrase) := by
    rw [responseHead, htext, decimalText_three hlow hhigh, hspace]
    simp
  have hnine : (text "RTSP/1.0 ").length = 9 := by decide
  have hlen : ¬(responseHead response).length < 13 := by
    rw [hbytes, length_append, hnine]
    simp only [length_cons]
    omega
  have htake : (responseHead response).take 9 = text "RTSP/1.0 " := by
    rw [hbytes, ← hnine, take_left]
  have hdrop : (responseHead response).drop 9 = UInt8.ofNat (Nat.digitChar (n / 100)).toNat ::
        UInt8.ofNat (Nat.digitChar (n / 10 % 10)).toNat ::
        UInt8.ofNat (Nat.digitChar (n % 10)).toNat :: 32 :: response.phrase := by
    rw [hbytes, ← hnine, drop_left]
  rw [responseStatusLine, if_neg (by rw [not_or]; exact ⟨hlen, not_not.mpr htake⟩), hdrop]
  dsimp only
  rw [ha, hb, hc, hva, hvb, hvc, if_neg (by simp), hn, Int.toNat_natCast]
  congr 2
  omega

theorem cr_not_mem_responseHead (h : response.Plain serverName) : cr ∉ responseHead response := by
  have hphrase : cr ∉ response.phrase := by
    rw [RtspResponse.phrase]
    cases hreason : response.reason with
    | none =>
      rw [getD_none, reasonPhrase.eq_def]
      split <;> decide
    | some reason => exact (h.reason reason hreason).no_cr
  have hstat : cr ∉ intText response.status := by
    have hlow := h.status.1
    rw [intText, if_neg (by omega), nil_append]
    exact (decimalText_plain _).no_cr
  have hver : cr ∉ text "RTSP/1.0 " := by decide
  have hspace : cr ∉ text " " := by decide
  rw [responseHead]
  simp only [mem_append, not_or]
  exact ⟨⟨⟨hver, hstat⟩, hspace⟩, hphrase⟩

theorem response_returns (hplain : response.Plain serverName)
    (hlines : (responseViews cseq serverName response).length ≤ maxMessageHeaders)
    (hint : (responseText cseq serverName response).length ≤ intMax) :
    ResponseReturns cseq serverName response := by
  intro memory bufferSize hcode
  have hformat : formatResponse memory bufferSize cseq serverName response =
      returned (putAll 0 intMax ⟨store memory 0 [0], 0, bufferSize⟩
        (responsePieces cseq serverName response)) := by
    rw [formatResponse] at hcode ⊢
    split_ifs at hcode ⊢ with hsize
    · exact absurd rfl hcode
    · rfl
  rw [hformat] at hcode ⊢
  obtain ⟨href, hret, hload⟩ := returned_ok hint hcode
  obtain ⟨hcells, hnames⟩ := cellsOf_responsePieces href
  have hok : ∀ line ∈ (responseViews cseq serverName response).map headerLine, Line.Ok line := by
    intro line hin
    obtain ⟨header, hhdr, rfl⟩ := mem_map.mp hin
    exact headerLine_ok (responseViews_plain cseq hplain header hhdr)
  have hcr := cr_not_mem_responseHead hplain
  have hread : (responseBlock (responseHead response ++
      (crlf ++ blockOf ((responseViews cseq serverName response).map headerLine)))).map
        (fun head => (head.2.2.2.getD 0, head)) =
      some ((bodyBytes response.body).length, (response.status.toNat, response.phrase,
        responseViews cseq serverName response, some (bodyLen response.body))) := by
    rw [responseBlock_of_lines hcr hok, responseStatusLine_head hplain.status, bind_some,
      responseLines_views hplain hnames hlines, bodyBytes_length]
    rfl
  refine ⟨_, hret, ?_⟩
  rw [hload, hcells, parseResponse_eq, delimited_block responseOf hcr hok hread]
  rfl

end Responses

/-- A call of the formatter writes nothing behind its buffer, and gives back -1 when the
request does not fit. -/
def RequestBounded (request : RequestMessage) : Prop :=
  ∀ memory bufferSize,
    (∀ k, bufferSize ≤ k → (formatRequest memory bufferSize request).1 k = memory k) ∧
      (bufferSize ≤ (requestText request).length → (formatRequest memory bufferSize request).2 = -1)

def ResponseBounded (cseq : UInt32) (serverName : Option (List UInt8))
    (response : RtspResponse) : Prop :=
  ∀ memory bufferSize, (∀ k, bufferSize ≤ k →
        (formatResponse memory bufferSize cseq serverName response).1 k = memory k) ∧
      (bufferSize ≤ (responseText cseq serverName response).length →
        (formatResponse memory bufferSize cseq serverName response).2 = -1)

theorem request_bounded (request : RequestMessage) : RequestBounded request := by
  intro memory bufferSize
  rw [requestText, formatRequest]
  cases huri : request.uri with
  | none => exact ⟨fun _ _ => rfl, fun _ => rfl⟩
  | some uri =>
    split_ifs with hargs
    · exact ⟨fun _ _ => rfl, fun _ => rfl⟩
    · rw [not_or] at hargs
      cases hname : methodName request.method with
      | none =>
        dsimp only
        refine ⟨fun k hk => store_of_le ?_, fun _ => rfl⟩
        rw [length_singleton]
        omega
      | some name => exact returned_bounded hargs.1

theorem response_bounded (cseq : UInt32) (serverName : Option (List UInt8))
    (response : RtspResponse) : ResponseBounded cseq serverName response := by
  intro memory bufferSize
  rw [responseText, formatResponse]
  split_ifs with hsize
  · exact ⟨fun _ _ => rfl, fun _ => rfl⟩
  · exact returned_bounded hsize

/-- **What is formatted is parsed.**  A request with an address that the parser has room for
and a response are parsed to what they were formatted from, and a message that does not fit is
refused without a byte behind the buffer. -/
theorem format_parse_round_trip :
    (∀ request : RequestMessage, request.Plain → request.Readable →
      (∀ uri ∈ request.uri, uri.length < maxUriLen) →
      (requestText request).length ≤ intMax → RequestReturns request) ∧
    (∀ (cseq : UInt32) (serverName : Option (List UInt8)) (response : RtspResponse),
      response.Plain serverName →
      (responseViews cseq serverName response).length ≤ maxMessageHeaders →
      (responseText cseq serverName response).length ≤ intMax →
      ResponseReturns cseq serverName response) ∧ (∀ request, RequestBounded request) ∧
    ∀ cseq serverName response, ResponseBounded cseq serverName response :=
  ⟨fun _ => request_returns, fun _ _ _ => response_returns, request_bounded, response_bounded⟩

/-- A request with a session, an extra header and a body. -/
def sampleRequest : RequestMessage :=
  ⟨.play, some (text "rtsp://h/s"), 7, none, some (text "12345"), none, none, none,
    [⟨some (text "X-Trace"), some (text "on air")⟩, ⟨none, some (text "unused")⟩],
    some ⟨text "a\r\n\r\nb", 6, by decide, by decide, by decide⟩⟩

/-- A response with a public header and no reason. -/
def sampleResponse : RtspResponse :=
  ⟨0, none, none, none, some (text "12345"), none, some (text ""), none, none, []⟩

theorem format_parse_round_trip_sample :
    RequestReturns sampleRequest ∧ (formatRequest (fun _ => 0) 256 sampleRequest).2 = 95 ∧
      ResponseReturns 7 (some (text "turbo")) sampleResponse ∧
      (formatResponse (fun _ => 0) 256 7 (some (text "turbo")) sampleResponse).2 = 88 := by
  have huri : ∀ uri ∈ sampleRequest.uri,
      PlainText uri ∧ uri ≠ [] ∧ ∀ b ∈ uri, isBlank b = false := by
    intro uri hin
    cases hin
    exact ⟨by decide, by decide, fun b hb => by
      simpa using (@List.all_eq_true _ (fun b => !isBlank b) _).mp (by decide) b hb⟩
  have hnames : ∀ header ∈ sampleRequest.headers, ∀ name ∈ header.name,
      name ≠ [] ∧ ∀ b ∈ name, isHeaderChar b = true := by
    refine List.forall_mem_cons.mpr ⟨fun name hin => ?_, List.forall_mem_singleton.mpr
      (fun name hin => by cases hin)⟩
    cases hin
    exact name_of_all (by decide) (by decide)
  have hplain : sampleRequest.Plain :=
    ⟨huri, by decide, by decide, by decide, by decide, by decide, hnames, by decide⟩
  have hread : sampleRequest.Readable :=
    ⟨by decide, by decide +kernel, by decide, by decide⟩
  have hresponse : sampleResponse.Plain (some (text "turbo")) :=
    ⟨by decide, by decide, by decide, by decide, by decide, by decide, by decide, by decide,
      by decide, fun header hin => absurd hin not_mem_nil, by decide⟩
  refine ⟨format_parse_round_trip.1 _ hplain hread (by decide) (by decide +kernel),
    by decide +kernel, format_parse_round_trip.2.1 _ _ _ hresponse (by decide) (by decide +kernel),
    by decide +kernel⟩

/-- A request whose address is longer than the parser has room for. -/
def longRequest : RequestMessage :=
  ⟨.options, some (replicate 512 97), 1, none, none, none, none, none, [], none⟩

theorem long_uri_not_parsed :
    ¬∀ request : RequestMessage, request.Plain → request.Readable → RequestReturns request := by
  intro h
  have huri : ∀ uri ∈ longRequest.uri,
      PlainText uri ∧ uri ≠ [] ∧ ∀ b ∈ uri, isBlank b = false := by
    intro uri hin
    cases hin
    exact ⟨by decide +kernel, by decide, fun b hb => by rw [eq_of_mem_replicate hb]; rfl⟩
  have hplain : longRequest.Plain :=
    ⟨huri, by decide, by decide, by decide, by decide, by decide,
      fun header hin => absurd hin not_mem_nil, by decide⟩
  have hread : longRequest.Readable := ⟨by decide, by decide, by decide, by decide⟩
  have hcode : (formatRequest (fun _ => 0) 1024 longRequest).2 ≠ -1 := by decide +kernel
  obtain ⟨n, hn, herror⟩ := request_long_uri hplain (by decide +kernel) (by decide +kernel) hcode
  obtain ⟨m, message, hm, hok, _⟩ := h longRequest hplain hread (fun _ => 0) 1024 hcode
  rw [hn, Nat.cast_inj] at hm
  rw [← hm, herror] at hok
  cases hok

end TurboMedia.Rtsp
