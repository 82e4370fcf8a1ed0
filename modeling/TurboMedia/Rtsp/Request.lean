import TurboMedia.Lib.Framing
import TurboMedia.Rtsp.HeaderValues

/-!
# Parser of requests

Model of `rtsp_lexer.re`, `rtsp_grammar.y` and `turbo_rtsp_parse_message`.

The lexer is given the bytes from its cursor to the end of the header block, which ends in an
empty line, so that no rule reads behind it.  A rule takes the longest match, and of equal
matches the first.  The grammar asks for one token after the other; a token that it does not
expect, a failed action and a lexer that stops early are all errors, and an error is all that
is reported, so that the order in which they are found does not matter.
-/

namespace TurboMedia.Rtsp

/-- `turbo_rtsp_lexer_state_t`. -/
inductive LexState where
  | method
  | uri
  | version
  | requestCrlf
  | headerName
  | headerColon
  | headerValue
  | headerCrlf
deriving DecidableEq

/-- The tokens of the grammar; the keywords of the methods are one family. -/
inductive TokenId where
  | keyword (method : RtspMethod)
  | token
  | uri
  | version
  | cseq
  | session
  | transport
  | contentLength
  | colon
  | headerValue
  | crlf
  | endHeaders
deriving DecidableEq

/-- `turbo_rtsp_lexer_t`, from the cursor on. -/
structure Lexer where
  state : LexState
  input : List UInt8
deriving DecidableEq

/-- What `turbo_rtsp_lexer_next` answers: 0, -1, or a token. -/
inductive LexAnswer where
  | finished
  | failed
  | token (id : TokenId) (value : List UInt8) (next : Lexer)
deriving DecidableEq

/-- `[A-Za-z0-9_$.-]`. -/
def isMethodChar (b : UInt8) : Bool :=
  isAlpha b || isDigit b || (text "_$.-").contains b

/-- `[A-Za-z0-9!#$%&'*+.^_|~-]` and the back quote. -/
def isHeaderChar (b : UInt8) : Bool :=
  isAlpha b || isDigit b || (text "!#$%&'*+.^_|~-").contains b || b == 96

/-- `[^ \t\r\n]`. -/
def isUriChar (b : UInt8) : Bool :=
  !isBlank b && b != cr && b != lf

def keywords : List RtspMethod :=
  [.options, .describe, .setup, .play, .teardown, .pause, .announce, .record, .getParameter,
    .setParameter, .redirect]

def methodToken (name : List UInt8) : TokenId :=
  match keywords.find? (fun m => methodName m == some name) with
  | some m => .keyword m
  | none => .token

def headerToken (name : List UInt8) : TokenId :=
  if caseEq name (text "CSeq") then .cseq
  else if caseEq name (text "Session") then .session
  else if caseEq name (text "Transport") then .transport
  else if caseEq name (text "Content-Length") then .contentLength
  else .token

def lexRun (char : UInt8 → Bool) (id : List UInt8 → TokenId) (next : LexState)
    (input : List UInt8) : LexAnswer :=
  if (input.takeWhile char) = [] then .failed
  else .token (id (input.takeWhile char)) (input.takeWhile char) ⟨next, input.dropWhile char⟩

def lexText (fixed : List UInt8) (id : TokenId) (next : LexState) (input : List UInt8) :
    LexAnswer :=
  if fixed <+: input then .token id fixed ⟨next, input.drop fixed.length⟩
  else .failed

/-- The end of the input, where it comes right behind blanks. -/
def orFinished (input : List UInt8) (answer : LexAnswer) : LexAnswer :=
  if input = [] then .finished else answer

/-- The value of a header, up to the end of the line. -/
def lexValue (input : List UInt8) : LexAnswer :=
  match Framing.findMark crlf input with
  | none => .failed
  | some i => .token .headerValue (trimEnd (input.take i)) ⟨.headerCrlf, input.drop i⟩

/-- `turbo_rtsp_lexer_next`. -/
def lexerNext (lexer : Lexer) : LexAnswer :=
  orFinished lexer.input (match lexer.state with
    | .method => lexRun isMethodChar methodToken .uri lexer.input
    | .uri => orFinished (skipOws lexer.input)
        (lexRun isUriChar (fun _ => .uri) .version (skipOws lexer.input))
    | .version => orFinished (skipOws lexer.input)
        (lexText (text "RTSP/1.0") .version .requestCrlf (skipOws lexer.input))
    | .requestCrlf => lexText crlf .crlf .headerName lexer.input
    | .headerName =>
      if crlf <+: lexer.input then .token .endHeaders crlf ⟨.headerName, lexer.input.drop 2⟩
      else lexRun isHeaderChar headerToken .headerColon lexer.input
    | .headerColon => lexText [colonByte] .colon .headerValue (skipOws lexer.input)
    | .headerValue => lexValue (skipOws lexer.input)
    | .headerCrlf => lexText crlf .crlf .headerName lexer.input)

/-- The next token, which must be one of these. -/
def expect (want : TokenId → Bool) (lexer : Lexer) : Option (TokenId × List UInt8 × Lexer) :=
  match lexerNext lexer with
  | .token id value next => if want id then some (id, value, next) else none
  | _ => none

/-- `turbo_rtsp_parse_ctx_t`. -/
structure ParseCtx where
  request : RtspRequest
  headers : List HeaderView
  contentLength : Option ℕ

def ParseCtx.initial : ParseCtx :=
  ⟨RtspRequest.initial, [], none⟩

/-- `turbo_rtsp_parse_ctx_add_header`. -/
def addHeader (ctx : ParseCtx) (name value : List UInt8) : Option ParseCtx :=
  if ctx.headers.length ≥ maxMessageHeaders then none
  else some { ctx with headers := ctx.headers ++ [⟨name, value⟩] }

/-- `turbo_rtsp_apply_header`. -/
def applyHeader (r : RtspRequest) (name value : List UInt8) : Option RtspRequest :=
  if caseEq name (text "Range") then applyRange r value else some r

/-- A length that does not contradict an earlier one. -/
def addContentLength (known : Option ℕ) (size : ℕ) : Option ℕ :=
  match known with
  | none => some size
  | some earlier => if earlier ≠ size then none else some size

/-- The action of a rule `header ::= id COLON HEADER_VALUE CRLF`. -/
def headerAction (ctx : ParseCtx) (id : TokenId) (name value : List UInt8) : Option ParseCtx :=
  (addHeader ctx name value).bind (fun ctx =>
    match id with
    | .cseq => (tokenToU32 value).map (fun cseq =>
      { ctx with request := { ctx.request with cseq := cseq } })
    | .session => (applySession ctx.request value).map (fun r => { ctx with request := r })
    | .transport => (applyTransport ctx.request value).map (fun r => { ctx with request := r })
    | .contentLength => (tokenToSize value).bind (fun size =>
      (addContentLength ctx.contentLength size).map (fun size =>
        { ctx with contentLength := some size }))
    | _ => (applyHeader ctx.request name value).map (fun r => { ctx with request := r }))

/-- The tokens that begin a rule of `header`. -/
def isHeaderToken : TokenId → Bool
  | .cseq => true
  | .session => true
  | .transport => true
  | .contentLength => true
  | .token => true
  | _ => false

/-- The tokens of `method`, and the method they stand for. -/
def tokenMethod : TokenId → Option RtspMethod
  | .keyword m => some m
  | .token => some .unknown
  | _ => none

/-- `request_line ::= method URI VERSION CRLF`. -/
def requestLine (lexer : Lexer) : Option (RtspMethod × List UInt8 × Lexer) :=
  (expect (fun id => (tokenMethod id).isSome) lexer).bind (fun method =>
    (expect (· == .uri) method.2.2).bind (fun uri =>
      (expect (· == .version) uri.2.2).bind (fun version =>
        (expect (· == .crlf) version.2.2).bind (fun line =>
          (copyInto maxUriLen uri.2.1).map (fun copied =>
            ((tokenMethod method.1).getD .unknown, copied, line.2.2))))))

/-- `header ::= … COLON HEADER_VALUE CRLF`, with its action. -/
def header (ctx : ParseCtx) (lexer : Lexer) : Option (ParseCtx × Lexer) :=
  (expect isHeaderToken lexer).bind (fun name =>
    (expect (· == .colon) name.2.2).bind (fun colon =>
      (expect (· == .headerValue) colon.2.2).bind (fun value =>
        (expect (· == .crlf) value.2.2).bind (fun line =>
          (headerAction ctx name.1 name.2.1 value.2.1).map (fun ctx => (ctx, line.2.2))))))

/-- `headers END_HEADERS`, and the end of the input behind it. -/
def headersEnd : ℕ → ParseCtx → Lexer → Option ParseCtx
  | 0, _, _ => none
  | fuel + 1, ctx, lexer =>
    match expect (· == .endHeaders) lexer with
    | some last => if lexerNext last.2.2 = .finished then some ctx else none
    | none => (header ctx lexer).bind (fun read => headersEnd fuel read.1 read.2)

/-- `message ::= request_line headers END_HEADERS`, on the header block. -/
def parseBlock (block : List UInt8) : Option ParseCtx :=
  (requestLine ⟨.method, block⟩).bind (fun line =>
    headersEnd (block.length + 1)
      { ParseCtx.initial with
        request := { RtspRequest.initial with method := line.1, uri := line.2.1 } } line.2.2)

def blankLine : List UInt8 := crlf ++ crlf

/-- `turbo_rtsp_find_header_end`. -/
def findHeaderEnd (buffer : List UInt8) : Option ℕ :=
  (Framing.findMark blankLine buffer).map (· + 4)

/-- `turbo_rtsp_parse_message`. -/
def parseMessage (buffer : List UInt8) : Framing.Outcome RtspMessage :=
  match findHeaderEnd buffer with
  | none => .incomplete
  | some headerEnd =>
    match parseBlock (buffer.take headerEnd) with
    | none => .error
    | some ctx =>
      if ctx.contentLength.getD 0 > buffer.length - headerEnd then .incomplete
      else
        .ok (headerEnd + ctx.contentLength.getD 0) ⟨ctx.request, ctx.headers,
            (buffer.drop headerEnd).take (ctx.contentLength.getD 0)⟩

end TurboMedia.Rtsp
