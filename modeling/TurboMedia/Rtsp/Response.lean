import TurboMedia.Rtsp.Request

/-!
# Parser of responses

Model of `turbo_rtsp_parse_response` and its loop over the lines of the header block.
-/

namespace TurboMedia.Rtsp

/-- `turbo_rtsp_parse_response_status_line`. -/
def responseStatusLine (line : List UInt8) : Option (ℕ × List UInt8) :=
  if line.length < 13 ∨ line.take 9 ≠ text "RTSP/1.0 " then none
  else
    match line.drop 9 with
    | a :: b :: c :: d :: reason =>
      if isDigit a = false ∨ isDigit b = false ∨ isDigit c = false ∨ d ≠ 32 then none
      else some ((a.toNat - 48) * 100 + (b.toNat - 48) * 10 + (c.toNat - 48), reason)
    | _ => none

/-- `turbo_rtsp_response_add_header`. -/
def responseAddHeader (headers : List HeaderView) (name value : List UInt8) :
    Option (List HeaderView) :=
  if headers.length ≥ maxMessageHeaders then none else some (headers ++ [⟨name, value⟩])

/-- The length that a header gives, where it gives one. -/
def responseContentLength (known : Option ℕ) (name value : List UInt8) : Option (Option ℕ) :=
  if caseEq name (text "Content-Length") then
    (tokenToSize value).bind (fun size => (addContentLength known size).map some)
  else some known

/-- The loop of `turbo_rtsp_parse_response_headers`. -/
def responseHeadersFrom :
    ℕ → List HeaderView → Option ℕ → List UInt8 → Option (List HeaderView × Option ℕ)
  | 0, _, _, _ => none
  | fuel + 1, headers, known, lines =>
    match Framing.findMark crlf lines with
    | none => none
    | some i =>
      if i = 0 then some (headers, known)
      else
        match ((lines.take i).span (· != colonByte)).2 with
        | [] => none
        | _ :: value =>
          let name := ((lines.take i).span (· != colonByte)).1
          if name = [] then none
          else
            (responseAddHeader headers name (trimOws value)).bind (fun headers =>
              (responseContentLength known name (trimOws value)).bind (fun known =>
                responseHeadersFrom fuel headers known (lines.drop (i + 2))))

/-- `turbo_rtsp_parse_response_headers`. -/
def responseHeaders (lines : List UInt8) : Option (List HeaderView × Option ℕ) :=
  responseHeadersFrom (lines.length + 1) [] none lines

/-- Status line and headers of a header block. -/
def responseBlock (block : List UInt8) :
    Option (ℕ × List UInt8 × List HeaderView × Option ℕ) :=
  (Framing.findMark crlf block).bind (fun i =>
    (responseStatusLine (block.take i)).bind (fun status =>
      (responseHeaders (block.drop (i + 2))).map (fun read =>
        (status.1, status.2, read.1, read.2))))

/-- `turbo_rtsp_parse_response`. -/
def parseResponse (buffer : List UInt8) : Framing.Outcome ResponseView :=
  match findHeaderEnd buffer with
  | none => .incomplete
  | some headerEnd =>
    match responseBlock (buffer.take headerEnd) with
    | none => .error
    | some (statusCode, reason, headers, known) =>
      if known.getD 0 > buffer.length - headerEnd then .incomplete
      else
        .ok (headerEnd + known.getD 0)
          ⟨statusCode, reason, headers, (buffer.drop headerEnd).take (known.getD 0)⟩

end TurboMedia.Rtsp
