import TurboMedia.Rtsp.HeaderLines
import TurboMedia.Rtsp.PrefixStable

/-!
# Where a body ends

**Input.**  A header block and what follows it, behind the first line of a request and behind
the first line of a response.

**Method.**  Both parsers go over the same lines (`headerLines`).  A request knows a length by
the name without the blanks before the colon, a response by the name with them, so that they
agree unless the only lengths are spelled with blanks (`LengthsSpelled`).
-/

namespace TurboMedia.Rtsp

open List Option

/-- The lines of a header block, up to the empty line. -/
def splitLines : ℕ → List UInt8 → List (List UInt8)
  | 0, _ => []
  | fuel + 1, b =>
    match Framing.findMark crlf b with
    | none => []
    | some i => if i = 0 then [] else b.take i :: splitLines fuel (b.drop (i + 2))

def headerLines (b : List UInt8) : List (List UInt8) :=
  splitLines b.length b

variable (line : List UInt8)

def lineName : List UInt8 :=
  (line.span (· != colonByte)).1

/-- The part behind the colon, without blanks around it. -/
def lineValue : List UInt8 :=
  trimOws (line.span (· != colonByte)).2.tail

/-- The line gives a length, with or without blanks before the colon. -/
def isLength : Bool :=
  caseEq (trimEnd (lineName line)) (text "Content-Length")

/-- The line gives a length, with no blank before the colon. -/
def isPlainLength : Bool :=
  caseEq (lineName line) (text "Content-Length")

/-- Where a length is spelled with blanks before the colon, it is zero, or there is one
without. -/
def LengthsSpelled (b : List UInt8) : Prop :=
  (∃ line ∈ headerLines b, isLength line = true ∧ isPlainLength line = false ∧
    tokenToSize (lineValue line) ≠ some 0) →
    ∃ line ∈ headerLines b, isPlainLength line = true

/-- What both parsers must agree on. -/
structure Alike (message : RtspMessage) (response : ResponseView) : Prop where
  values : message.headers.map HeaderView.value = response.headers.map HeaderView.value
  names : message.headers.map HeaderView.name =
    response.headers.map (fun header => trimEnd header.name)
  length : message.body.length = response.body.length

/-- Lengths that are given one after the other. -/
def settle : Option ℕ → List ℕ → Option (Option ℕ)
  | known, [] => some known
  | known, size :: sizes => (addContentLength known size).bind (fun v => settle (some v) sizes)

def sizes (p : List UInt8 → Bool) (lines : List (List UInt8)) : List ℕ :=
  lines.filterMap (fun line => if p line then tokenToSize (lineValue line) else none)

theorem addContentLength_eq_some {known : Option ℕ} {size v : ℕ}
    (h : addContentLength known size = some v) : v = size ∧ ∀ w, known = some w → w = size := by
  rw [addContentLength.eq_def] at h
  split at h
  · cases h
    exact ⟨rfl, fun w hw => by cases hw⟩
  · next earlier =>
      split_ifs at h with hne
      cases h
      refine ⟨rfl, fun w hw => ?_⟩
      cases hw
      exact not_not.mp hne

theorem settle_some {v : ℕ} {known' : Option ℕ} {list : List ℕ}
    (h : settle (some v) list = some known') : known' = some v ∧ ∀ s ∈ list, s = v := by
  induction list generalizing v with
  | nil =>
    cases h
    exact ⟨rfl, fun s hs => absurd hs not_mem_nil⟩
  | cons size rest ih =>
    obtain ⟨w, hadd, hrest⟩ := bind_eq_some_iff.mp h
    obtain ⟨rfl, hsame⟩ := addContentLength_eq_some hadd
    obtain rfl := hsame v rfl
    obtain ⟨hknown, hall⟩ := ih hrest
    exact ⟨hknown, forall_mem_cons.mpr ⟨rfl, hall⟩⟩

theorem settle_none {known' : Option ℕ} {list : List ℕ} (h : settle none list = some known') :
    (∀ s ∈ list, known' = some s) ∧ (list = [] → known' = none) := by
  cases list with
  | nil =>
    cases h
    exact ⟨fun s hs => absurd hs not_mem_nil, fun _ => rfl⟩
  | cons size rest =>
    obtain ⟨w, hadd, hrest⟩ := bind_eq_some_iff.mp h
    obtain ⟨rfl, _⟩ := addContentLength_eq_some hadd
    obtain ⟨rfl, hall⟩ := settle_some hrest
    refine ⟨?_, fun hin => absurd hin (cons_ne_nil _ _)⟩
    intro s hs
    rcases mem_cons.mp hs with rfl | hs
    · rfl
    · rw [hall s hs]

theorem sizes_cons_pos {p : List UInt8 → Bool} {line : List UInt8} {size : ℕ} (hp : p line = true)
    (hsize : tokenToSize (lineValue line) = some size) (lines : List (List UInt8)) :
    sizes p (line :: lines) = size :: sizes p lines := by
  rw [sizes, filterMap_cons, if_pos hp, hsize]
  rfl

theorem sizes_cons_neg {p : List UInt8 → Bool} {line : List UInt8} (hp : p line = false)
    (lines : List (List UInt8)) : sizes p (line :: lines) = sizes p lines := by
  rw [sizes, filterMap_cons, if_neg (by rw [hp]; simp)]
  rfl

section Both

variable {lines : List Line} {line : Line}

/-- The header that a request makes of a line, and the one that a response makes of it. -/
def Line.view (line : Line) : HeaderView :=
  ⟨line.name, line.value⟩

def Line.rawView (line : Line) : HeaderView :=
  ⟨line.name ++ line.blanks, line.value⟩

theorem lineName_bytes (h : line.Ok) : lineName line.bytes = line.name ++ line.blanks := by
  rw [lineName, span_line h]

theorem lineValue_bytes (h : line.Ok) : lineValue line.bytes = line.value := by
  rw [lineValue, span_line h]
  rfl

theorem isLength_bytes (h : line.Ok) :
    isLength line.bytes = caseEq line.name (text "Content-Length") := by
  rw [isLength, lineName_bytes h, trimEnd_name h]

theorem isPlainLength_bytes (h : line.Ok) :
    isPlainLength line.bytes = caseEq (line.name ++ line.blanks) (text "Content-Length") := by
  rw [isPlainLength, lineName_bytes h]

theorem lower_of_blank {b : UInt8} (h : isBlank b = true) : lower b = b := by
  rw [isBlank, Bool.or_eq_true, beq_iff_eq, beq_iff_eq] at h
  rcases h with rfl | rfl
  · rfl
  · rfl

theorem contentLength_no_blank : ∀ b ∈ (text "Content-Length").map lower, isBlank b = false := by
  have hall : ((text "Content-Length").map lower).all (fun b => !isBlank b) = true := by decide
  intro b hb
  simpa using all_eq_true.mp hall b hb

theorem isLength_of_plain (h : line.Ok) (hplain : isPlainLength line.bytes = true) :
    isLength line.bytes = true := by
  rw [isPlainLength_bytes h, caseEq, beq_iff_eq, map_append] at hplain
  rw [isLength_bytes h, caseEq, beq_iff_eq]
  cases hblanks : line.blanks with
  | nil =>
    rw [hblanks, map_nil, append_nil] at hplain
    exact hplain
  | cons b bs =>
    have hblank : isBlank b = true := h.blank b (by rw [hblanks]; exact mem_cons_self)
    have hin : b ∈ (text "Content-Length").map lower := by
      rw [← hplain, hblanks, map_cons, lower_of_blank hblank]
      exact mem_append_right _ mem_cons_self
    rw [contentLength_no_blank b hin] at hblank
    cases hblank

theorem headerAction_other {ctx ctx' : ParseCtx} {id : TokenId} {name value : List UInt8}
    (hid : id ≠ .contentLength) (h : headerAction ctx id name value = some ctx') :
    ctx'.headers = ctx.headers ++ [⟨name, value⟩] ∧ ctx'.contentLength = ctx.contentLength := by
  obtain ⟨ctx₁, hadd, haction⟩ := bind_eq_some_iff.mp h
  rw [addHeader] at hadd
  split_ifs at hadd
  cases hadd
  cases id with
  | contentLength => exact absurd rfl hid
  | _ =>
    obtain ⟨_, _, rfl⟩ := map_eq_some_iff.mp haction
    exact ⟨rfl, rfl⟩

theorem headerAction_length {ctx ctx' : ParseCtx} {name value : List UInt8}
    (h : headerAction ctx .contentLength name value = some ctx') :
    ctx'.headers = ctx.headers ++ [⟨name, value⟩] ∧
      ∃ size v, tokenToSize value = some size ∧ addContentLength ctx.contentLength size = some v ∧
        ctx'.contentLength = some v := by
  obtain ⟨ctx₁, hadd, haction⟩ := bind_eq_some_iff.mp h
  rw [addHeader] at hadd
  split_ifs at hadd
  cases hadd
  obtain ⟨size, hsize, hlen⟩ := bind_eq_some_iff.mp haction
  obtain ⟨v, hv, rfl⟩ := map_eq_some_iff.mp hlen
  exact ⟨rfl, size, v, hsize, hv, rfl⟩

theorem caseEq_trans_ne {a b c : List UInt8} (hab : caseEq a b = true) (hbc : caseEq b c = false) :
    caseEq a c = false := by
  rw [caseEq, beq_iff_eq] at hab
  rw [caseEq] at hbc ⊢
  rw [hab]
  exact hbc

theorem headerToken_contentLength (name : List UInt8) :
    headerToken name = .contentLength ↔ caseEq name (text "Content-Length") = true := by
  rw [headerToken]
  split_ifs with hcseq hsess htransport hlen
  · rw [caseEq_trans_ne hcseq (by decide)]
    simp
  · rw [caseEq_trans_ne hsess (by decide)]
    simp
  · rw [caseEq_trans_ne htransport (by decide)]
    simp
  · simp [hlen]
  · simp [hlen]

variable (hok : ∀ line ∈ lines, Line.Ok line)
include hok

theorem applyLines_eq_some {ctx ctx' : ParseCtx} (h : applyLines ctx lines = some ctx') :
    ctx'.headers = ctx.headers ++ lines.map Line.view ∧
      settle ctx.contentLength (sizes isLength (lines.map Line.bytes)) = some ctx'.contentLength ∧
      ∀ line ∈ lines.map Line.bytes, isLength line = true →
        ∃ size, tokenToSize (lineValue line) = some size := by
  induction lines generalizing ctx with
  | nil =>
    cases h
    exact ⟨(append_nil _).symm, rfl, fun line hin => absurd hin not_mem_nil⟩
  | cons line lines ih =>
    obtain ⟨hline, hlines⟩ := forall_mem_cons.mp hok
    obtain ⟨ctx₁, haction, happly⟩ := bind_eq_some_iff.mp h
    obtain ⟨hheaders, hsettle, hnumbers⟩ := ih hlines happly
    by_cases hid : headerToken line.name = .contentLength
    · rw [hid] at haction
      obtain ⟨hone, size, v, hsize, hadd, hv⟩ := headerAction_length haction
      rw [← lineValue_bytes hline] at hsize
      rw [headerToken_contentLength, ← isLength_bytes hline] at hid
      refine ⟨?_, ?_, forall_mem_cons.mpr ⟨fun _ => ⟨size, hsize⟩, hnumbers⟩⟩
      · rw [hheaders, hone, append_assoc]
        rfl
      · rw [map_cons, sizes_cons_pos hid hsize, settle, hadd, bind_some, ← hv]
        exact hsettle
    · obtain ⟨hone, hsame⟩ := headerAction_other hid haction
      rw [headerToken_contentLength, ← isLength_bytes hline, Bool.not_eq_true] at hid
      refine ⟨?_, ?_, forall_mem_cons.mpr ⟨fun hin => ?_, hnumbers⟩⟩
      · rw [hheaders, hone, append_assoc]
        rfl
      · rw [map_cons, sizes_cons_neg hid, ← hsame]
        exact hsettle
      · rw [hid] at hin
        cases hin

theorem responseLines_eq_some {headers headers' : List HeaderView} {known known' : Option ℕ}
    (h : responseLines headers known lines = some (headers', known')) :
    headers' = headers ++ lines.map Line.rawView ∧
      settle known (sizes isPlainLength (lines.map Line.bytes)) = some known' := by
  induction lines generalizing headers known with
  | nil =>
    cases h
    exact ⟨(append_nil _).symm, rfl⟩
  | cons line lines ih =>
    obtain ⟨hline, hlines⟩ := forall_mem_cons.mp hok
    obtain ⟨headers₁, hadd, h⟩ := bind_eq_some_iff.mp h
    obtain ⟨known₁, hknown, h⟩ := bind_eq_some_iff.mp h
    obtain ⟨hheaders, hsettle⟩ := ih hlines h
    have hall : headers' = headers ++ (line :: lines).map Line.rawView := by
      rw [responseAddHeader] at hadd
      split_ifs at hadd
      cases hadd
      rw [hheaders, append_assoc]
      rfl
    refine ⟨hall, ?_⟩
    rw [responseContentLength, ← isPlainLength_bytes hline, ← lineValue_bytes hline] at hknown
    split_ifs at hknown with hplain
    · obtain ⟨size, hsize, hlen⟩ := bind_eq_some_iff.mp hknown
      obtain ⟨v, hv, rfl⟩ := map_eq_some_iff.mp hlen
      rw [map_cons, sizes_cons_pos hplain hsize, settle, hv, bind_some]
      exact hsettle
    · cases hknown
      rw [map_cons, sizes_cons_neg (Bool.not_eq_true _ ▸ hplain)]
      exact hsettle

theorem splitLines_blockOf {fuel : ℕ} (hfuel : lines.length ≤ fuel) (tail : List UInt8) :
    splitLines fuel (blockOf lines ++ tail) = lines.map Line.bytes := by
  induction lines generalizing fuel with
  | nil =>
    cases fuel with
    | zero => rfl
    | succ fuel =>
      rw [splitLines, findMark_blockOf_nil]
      rfl
  | cons line lines ih =>
    obtain ⟨fuel, rfl⟩ : ∃ k, fuel = k + 1 :=
      ⟨fuel - 1, by rw [length_cons] at hfuel; omega⟩
    obtain ⟨hline, hlines⟩ := forall_mem_cons.mp hok
    rw [length_cons] at hfuel
    have hlen : line.bytes.length ≠ 0 := by
      simp [Line.bytes]
    rw [blockOf, append_assoc, append_assoc, splitLines, findMark_line hline]
    dsimp only
    rw [if_neg hlen, take_left, drop_line, ih hlines (by omega)]
    rfl

end Both

variable {rest : List UInt8} {n m : ℕ} {message : RtspMessage} {response : ResponseView}

theorem mem_sizes {p : List UInt8 → Bool} {lines : List (List UInt8)} {size : ℕ} :
    size ∈ sizes p lines ↔
      ∃ line ∈ lines, p line = true ∧ tokenToSize (lineValue line) = some size := by
  rw [sizes, mem_filterMap]
  constructor
  · rintro ⟨line, hin, hsize⟩
    split_ifs at hsize with hp
    exact ⟨line, hin, hp, hsize⟩
  · rintro ⟨line, hin, hp, hsize⟩
    exact ⟨line, hin, by rw [if_pos hp, hsize]⟩

theorem sizes_eq_nil {p : List UInt8 → Bool} {lines : List (List UInt8)}
    (h : ¬∃ line ∈ lines, p line = true) : sizes p lines = [] := by
  rw [eq_nil_iff_forall_not_mem]
  intro size hin
  obtain ⟨line, hline, hp, _⟩ := mem_sizes.mp hin
  exact h ⟨line, hline, hp⟩

/-- The lengths that both know are the same exactly where they are spelled so. -/
theorem lengths_alike {lines : List (List UInt8)} {known known' : Option ℕ}
    (hplain : ∀ line ∈ lines, isPlainLength line = true → isLength line = true)
    (hnumbers : ∀ line ∈ lines, isLength line = true →
      ∃ size, tokenToSize (lineValue line) = some size)
    (hall : settle none (sizes isLength lines) = some known)
    (hsome : settle none (sizes isPlainLength lines) = some known') :
    known.getD 0 = known'.getD 0 ↔
      ((∃ line ∈ lines, isLength line = true ∧ isPlainLength line = false ∧
          tokenToSize (lineValue line) ≠ some 0) → ∃ line ∈ lines, isPlainLength line = true) := by
  obtain ⟨hknown, hnone⟩ := settle_none hall
  obtain ⟨hknown', hnone'⟩ := settle_none hsome
  constructor
  · rintro hsame ⟨line, hin, hlen, _, hzero⟩
    obtain ⟨size, hsize⟩ := hnumbers line hin hlen
    have hfirst := hknown size (mem_sizes.mpr ⟨line, hin, hlen, hsize⟩)
    by_contra hnot
    rw [hfirst, hnone' (sizes_eq_nil hnot), getD_some, getD_none] at hsame
    rw [hsame] at hsize
    exact hzero hsize
  · intro hspelled
    by_cases hex : ∃ line ∈ lines, isPlainLength line = true
    · obtain ⟨line, hin, hp⟩ := hex
      have hlen := hplain line hin hp
      obtain ⟨size, hsize⟩ := hnumbers line hin hlen
      rw [hknown size (mem_sizes.mpr ⟨line, hin, hlen, hsize⟩),
        hknown' size (mem_sizes.mpr ⟨line, hin, hp, hsize⟩)]
    · rw [hnone' (sizes_eq_nil hex)]
      cases hlist : sizes isLength lines with
      | nil => rw [hnone hlist]
      | cons size sizes' =>
        have hmem : size ∈ sizes isLength lines := by
          rw [hlist]
          exact mem_cons_self
        obtain ⟨line, hin, hlen, hsize⟩ := mem_sizes.mp hmem
        have hblank : isPlainLength line = false :=
          Bool.not_eq_true _ ▸ fun hp => hex ⟨line, hin, hp⟩
        have hzero : size = 0 := by
          by_contra hne
          refine hex (hspelled ⟨line, hin, hlen, hblank, ?_⟩)
          rw [hsize]
          exact fun heq => hne (some.inj heq)
        rw [hknown size hmem, hzero]
        rfl

theorem lines_of_parseMessage
    (h : parseMessage (text "OPTIONS * RTSP/1.0" ++ (crlf ++ rest)) = .ok n message) :
    ∃ j lines ctx known, Framing.findMark blankLine (crlf ++ rest) = some j ∧
      (∀ line ∈ lines, Line.Ok line) ∧ rest.take (j + 2) = blockOf lines ∧
      applyLines ctx lines = some known ∧ ctx.headers = [] ∧ ctx.contentLength = none ∧
      message.headers = known.headers ∧ message.body.length = known.contentLength.getD 0 := by
  rw [parseMessage_eq] at h
  obtain ⟨i, size, known, hfind, hread, hle, _, rfl⟩ := Framing.delimited_eq_ok.mp h
  obtain ⟨j, hj, htake, _⟩ := findMark_head (by decide) hfind
  obtain ⟨known₁, hblock, hpair⟩ := map_eq_some_iff.mp hread
  cases hpair
  have hfour : blankLine.length = 4 := rfl
  rw [hfour] at hblock hle
  have hname : methodName .options = some (text "OPTIONS") := rfl
  have hhead : text "OPTIONS * RTSP/1.0" = requestHead (text "OPTIONS") (text "*") := by decide
  rw [htake, parseBlock, hhead, requestLine_head hname (by decide)
    (all_eq_true.mp (by decide))] at hblock
  obtain ⟨lines, hok, hlines, happly⟩ := lines_of_headersEnd hblock
  refine ⟨j, lines, _, known, hj, hok, hlines, happly, rfl, rfl, rfl, ?_⟩
  rw [messageOf, length_take, length_drop, hfour]
  exact min_eq_left (by omega)

theorem parseResponse_of_lines {j : ℕ} {lines : List Line}
    (h : parseResponse (text "RTSP/1.0 200 OK" ++ (crlf ++ rest)) = .ok m response)
    (hj : Framing.findMark blankLine (crlf ++ rest) = some j) (hok : ∀ line ∈ lines, Line.Ok line)
    (hlines : rest.take (j + 2) = blockOf lines) :
    ∃ known, responseLines [] none lines = some (response.headers, known) ∧
      response.body.length = known.getD 0 := by
  rw [parseResponse_eq] at h
  obtain ⟨i, size, head, hfind, hread, hle, _, rfl⟩ := Framing.delimited_eq_ok.mp h
  obtain ⟨j', hj', htake, _⟩ := findMark_head (by decide) hfind
  obtain ⟨head₁, hblock, hpair⟩ := map_eq_some_iff.mp hread
  cases hpair
  have hfour : blankLine.length = 4 := rfl
  rw [hfour] at hblock hle
  rw [hj, some.injEq] at hj'
  subst hj'
  rw [htake, hlines] at hblock
  rw [responseBlock_of_lines (by decide) hok] at hblock
  obtain ⟨status, _, hblock⟩ := bind_eq_some_iff.mp hblock
  obtain ⟨⟨headers, known⟩, hheaders, rfl⟩ := map_eq_some_iff.mp hblock
  refine ⟨known, hheaders, ?_⟩
  rw [responseOf, length_take, length_drop, hfour]
  exact min_eq_left (by omega)

/-- **Bodies end at the same place.**  Both parsers find the same headers behind their first
lines, and bodies of the same length exactly where no length is spelled with blanks before the
colon alone. -/
theorem bodies_delimited_alike
    (hrequest : parseMessage (text "OPTIONS * RTSP/1.0" ++ (crlf ++ rest)) = .ok n message)
    (hresponse : parseResponse (text "RTSP/1.0 200 OK" ++ (crlf ++ rest)) = .ok m response) :
    Alike message response ↔ LengthsSpelled rest := by
  obtain ⟨j, lines, ctx, known, hj, hok, hlines, happly, hnone, hnone', hheaders, hbody⟩ :=
    lines_of_parseMessage hrequest
  obtain ⟨known', hread, hbody'⟩ := parseResponse_of_lines hresponse hj hok hlines
  obtain ⟨hviews, hall, hnumbers⟩ := applyLines_eq_some hok happly
  obtain ⟨hraw, hsome⟩ := responseLines_eq_some hok hread
  have hrest : rest = blockOf lines ++ rest.drop (j + 2) := by
    rw [← hlines, take_append_drop]
  have hsplit : headerLines rest = lines.map Line.bytes := by
    rw [headerLines]
    conv_lhs => rw [hrest]
    refine splitLines_blockOf hok ?_ _
    have := length_lt_blockOf lines
    rw [length_append]
    omega
  have hplain : ∀ line ∈ lines.map Line.bytes, isPlainLength line = true →
      isLength line = true := by
    intro bytes hin
    obtain ⟨line, hline, rfl⟩ := List.mem_map.mp hin
    exact isLength_of_plain (hok line hline)
  rw [hnone'] at hall
  rw [hnone, nil_append] at hviews
  rw [nil_append] at hraw
  have hlength := lengths_alike hplain hnumbers hall hsome
  rw [← hsplit] at hlength
  have hvalues : message.headers.map HeaderView.value = response.headers.map HeaderView.value := by
    rw [hheaders, hviews, hraw, List.map_map, List.map_map]
    rfl
  have hnames : message.headers.map HeaderView.name =
      response.headers.map (fun header => trimEnd header.name) := by
    rw [hheaders, hviews, hraw, List.map_map, List.map_map]
    exact map_congr_left (fun line hline => (trimEnd_name (hok line hline)).symm)
  rw [LengthsSpelled, ← hlength, ← hbody, ← hbody']
  exact ⟨fun h => h.length, fun h => ⟨hvalues, hnames, h⟩⟩

/-- With a length and a body behind it. -/
theorem bodies_delimited_alike_plain :
    ∃ n message m response, parseMessage (text "OPTIONS * RTSP/1.0" ++
        (crlf ++ text "Content-Length: 2\r\n\r\nab")) = .ok n message ∧
      parseResponse (text "RTSP/1.0 200 OK" ++
        (crlf ++ text "Content-Length: 2\r\n\r\nab")) = .ok m response ∧
      (Alike message response ↔ LengthsSpelled (text "Content-Length: 2\r\n\r\nab")) := by
  have hrequest : parseMessage (text "OPTIONS * RTSP/1.0" ++
      (crlf ++ text "Content-Length: 2\r\n\r\nab")) =
      .ok 43 ⟨{ RtspRequest.initial with method := .options, uri := text "*" },
        [⟨text "Content-Length", text "2"⟩], text "ab"⟩ := by
    decide +kernel
  have hresponse : parseResponse (text "RTSP/1.0 200 OK" ++
      (crlf ++ text "Content-Length: 2\r\n\r\nab")) =
      .ok 40 ⟨200, text "OK", [⟨text "Content-Length", text "2"⟩], text "ab"⟩ := by
    decide +kernel
  exact ⟨_, _, _, _, hrequest, hresponse, bodies_delimited_alike hrequest hresponse⟩

/-- A length with a blank before the colon is none to a response. -/
theorem blank_length_not_alike :
    ¬∀ rest n message m response,
      parseMessage (text "OPTIONS * RTSP/1.0" ++ (crlf ++ rest)) = .ok n message →
      parseResponse (text "RTSP/1.0 200 OK" ++ (crlf ++ rest)) = .ok m response →
      Alike message response := by
  intro h
  have hrequest : parseMessage (text "OPTIONS * RTSP/1.0" ++
      (crlf ++ text "Content-Length : 5\r\n\r\nabcde")) =
      .ok 47 ⟨{ RtspRequest.initial with method := .options, uri := text "*" },
        [⟨text "Content-Length", text "5"⟩], text "abcde"⟩ := by
    decide +kernel
  have hresponse : parseResponse (text "RTSP/1.0 200 OK" ++
      (crlf ++ text "Content-Length : 5\r\n\r\nabcde")) =
      .ok 39 ⟨200, text "OK", [⟨text "Content-Length ", text "5"⟩], []⟩ := by
    decide +kernel
  have hlength := (h _ _ _ _ _ hrequest hresponse).length
  exact absurd hlength (by decide)

end TurboMedia.Rtsp
