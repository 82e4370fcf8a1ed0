import Mathlib.Data.List.TakeDrop
import Mathlib.Data.List.TakeWhile
import TurboMedia.Rtsp.Response

/-!
# Lines of a header block

What the lexer and the grammar make of one line, and what the loop of the other parser makes
of the same line: a name, blanks, a colon, and what comes behind it up to the end of the line.
-/

namespace TurboMedia.Rtsp

open List Option Framing

section Bytes

variable {p : UInt8 → Bool} {xs ys : List UInt8} {c : UInt8}

theorem takeWhile_append_stop (hxs : ∀ b ∈ xs, p b = true) (hc : p c = false) :
    (xs ++ c :: ys).takeWhile p = xs := by
  rw [takeWhile_append_of_pos hxs, takeWhile_cons_of_neg (by rw [hc]; simp),
    append_nil]

theorem dropWhile_append_stop (hxs : ∀ b ∈ xs, p b = true) (hc : p c = false) :
    (xs ++ c :: ys).dropWhile p = c :: ys := by
  rw [dropWhile_append_of_pos hxs, dropWhile_cons_of_neg (by rw [hc]; simp)]

theorem not_mem_of_class (hxs : ∀ b ∈ xs, p b = true) (hc : p c = false) : c ∉ xs := by
  intro hin
  rw [hxs c hin] at hc
  cases hc

theorem skipOws_append_crlf (after rest : List UInt8) :
    skipOws (after ++ (crlf ++ rest)) = skipOws after ++ (crlf ++ rest) := by
  induction after with
  | nil => rfl
  | cons b bs ih =>
    rw [skipOws, skipOws] at *
    rw [cons_append, dropWhile_cons, dropWhile_cons]
    split_ifs
    · exact ih
    · rfl

end Bytes

section Tokens

variable {name blanks after rest : List UInt8} {want : TokenId → Bool}

/-- A line of a header block as the lexer reads it. -/
structure Line where
  name : List UInt8
  blanks : List UInt8
  after : List UInt8

def Line.bytes (line : Line) : List UInt8 :=
  line.name ++ (line.blanks ++ colonByte :: line.after)

/-- The name is a run of header characters, and the line has no end inside. -/
structure Line.Ok (line : Line) : Prop where
  name_ne : line.name ≠ []
  name_chars : ∀ b ∈ line.name, isHeaderChar b = true
  blank : ∀ b ∈ line.blanks, isBlank b = true
  whole : ∀ rest, findMark crlf (line.after ++ (crlf ++ rest)) = some line.after.length

def Line.value (line : Line) : List UInt8 :=
  trimOws line.after

theorem expect_eq_some {lexer next : Lexer} {id : TokenId} {value : List UInt8} :
    expect want lexer = some (id, value, next) ↔
      lexerNext lexer = .token id value next ∧ want id = true := by
  rw [expect]
  cases lexerNext lexer with
  | finished => simp
  | failed => simp
  | token id' value' next' =>
    dsimp only
    split_ifs with hwant
    · constructor
      · intro h
        cases h
        exact ⟨rfl, hwant⟩
      · rintro ⟨h, _⟩
        cases h
        rfl
    · refine iff_of_false (by simp) ?_
      rintro ⟨h, hin⟩
      cases h
      exact hwant hin

theorem isHeaderToken_headerToken (name : List UInt8) :
    isHeaderToken (headerToken name) = true := by
  rw [headerToken]
  split_ifs <;> rfl

theorem not_blank_cr : isBlank cr = false := by decide

theorem not_headerChar_cr : isHeaderChar cr = false := by decide

theorem not_headerChar_colon : isHeaderChar colonByte = false := by decide

theorem not_blank_colon : isBlank colonByte = false := by decide

theorem not_headerChar_of_blank {b : UInt8} (h : isBlank b = true) : isHeaderChar b = false := by
  rw [isBlank, Bool.or_eq_true, beq_iff_eq, beq_iff_eq] at h
  rcases h with rfl | rfl <;> decide

theorem lexerNext_name {c : UInt8} (hne : name ≠ []) (hchars : ∀ b ∈ name, isHeaderChar b = true)
    (hc : isHeaderChar c = false) :
    lexerNext ⟨.headerName, name ++ c :: rest⟩ =
      .token (headerToken name) name ⟨.headerColon, c :: rest⟩ := by
  have hnot : ¬crlf <+: name ++ c :: rest := by
    intro hin
    obtain ⟨b, bs, rfl⟩ := exists_cons_of_ne_nil hne
    obtain ⟨rfl, _⟩ := cons_prefix_cons.mp hin
    exact absurd (hchars cr mem_cons_self) (by decide)
  rw [lexerNext, orFinished, if_neg (by simp)]
  dsimp only
  rw [if_neg hnot, lexRun, takeWhile_append_stop hchars hc, dropWhile_append_stop hchars hc,
    if_neg hne]

theorem lexerNext_colon (hblank : ∀ b ∈ blanks, isBlank b = true) :
    lexerNext ⟨.headerColon, blanks ++ colonByte :: rest⟩ =
      .token .colon [colonByte] ⟨.headerValue, rest⟩ := by
  rw [lexerNext, orFinished, if_neg (by simp)]
  dsimp only
  rw [skipOws, dropWhile_append_stop hblank not_blank_colon, lexText, if_pos]
  · rfl
  · exact ⟨rest, rfl⟩

theorem findMark_skipOws (h : findMark crlf (after ++ (crlf ++ rest)) = some after.length) :
    findMark crlf (skipOws after ++ (crlf ++ rest)) = some (skipOws after).length := by
  have hsplit : after = after.takeWhile isBlank ++ skipOws after :=
    (takeWhile_append_dropWhile).symm
  have hlen := congrArg List.length hsplit
  rw [length_append] at hlen
  have hcr : cr ∉ after.takeWhile isBlank :=
    not_mem_of_class (fun b hb => mem_takeWhile_imp hb) not_blank_cr
  rw [hsplit, append_assoc, ← hsplit] at h
  rw [crlf] at h ⊢
  rw [findMark_skip hcr, map_eq_some_iff] at h
  obtain ⟨i, hi, hsum⟩ := h
  rw [hi, some.injEq]
  omega

theorem lexerNext_value (h : findMark crlf (after ++ (crlf ++ rest)) = some after.length) :
    lexerNext ⟨.headerValue, after ++ (crlf ++ rest)⟩ =
      .token .headerValue (trimOws after) ⟨.headerCrlf, crlf ++ rest⟩ := by
  have hne : after ++ (crlf ++ rest) ≠ [] := by
    simp [crlf]
  rw [lexerNext, orFinished, if_neg hne]
  rw [skipOws_append_crlf, lexValue, findMark_skipOws h]
  dsimp only
  rw [take_left, drop_left]
  rfl

theorem lexerNext_crlf (rest : List UInt8) :
    lexerNext ⟨.headerCrlf, crlf ++ rest⟩ = .token .crlf crlf ⟨.headerName, rest⟩ := by
  rw [lexerNext, orFinished, if_neg (by simp [crlf])]
  dsimp only
  rw [lexText, if_pos (prefix_append _ _), drop_left]

theorem blanks_colon_head (hblank : ∀ b ∈ blanks, isBlank b = true) (rest : List UInt8) :
    ∃ c t, blanks ++ colonByte :: rest = c :: t ∧ isHeaderChar c = false := by
  cases blanks with
  | nil => exact ⟨_, _, rfl, not_headerChar_colon⟩
  | cons b bs => exact ⟨_, _, rfl, not_headerChar_of_blank (hblank b mem_cons_self)⟩

theorem header_of_line {line : Line} (h : line.Ok) (ctx : ParseCtx) (rest : List UInt8) :
    header ctx ⟨.headerName, line.bytes ++ (crlf ++ rest)⟩ =
      (headerAction ctx (headerToken line.name) line.name line.value).map
        (fun ctx => (ctx, ⟨.headerName, rest⟩)) := by
  obtain ⟨c, t, hhead, hc⟩ := blanks_colon_head h.blank (line.after ++ (crlf ++ rest))
  have hbytes : line.bytes ++ (crlf ++ rest) =
      line.name ++ (line.blanks ++ colonByte :: (line.after ++ (crlf ++ rest))) := by
    rw [Line.bytes]
    simp
  have hname : expect isHeaderToken ⟨.headerName, line.bytes ++ (crlf ++ rest)⟩ =
      some (headerToken line.name, line.name,
        ⟨.headerColon, line.blanks ++ colonByte :: (line.after ++ (crlf ++ rest))⟩) := by
    rw [expect_eq_some, hbytes, hhead]
    exact ⟨lexerNext_name h.name_ne h.name_chars hc, isHeaderToken_headerToken _⟩
  have hcolon : expect (· == .colon)
      ⟨.headerColon, line.blanks ++ colonByte :: (line.after ++ (crlf ++ rest))⟩ =
      some (.colon, [colonByte], ⟨.headerValue, line.after ++ (crlf ++ rest)⟩) :=
    expect_eq_some.mpr ⟨lexerNext_colon h.blank, rfl⟩
  have hvalue : expect (· == .headerValue) ⟨.headerValue, line.after ++ (crlf ++ rest)⟩ =
      some (.headerValue, line.value, ⟨.headerCrlf, crlf ++ rest⟩) :=
    expect_eq_some.mpr ⟨lexerNext_value (h.whole rest), rfl⟩
  have hcrlf : expect (· == .crlf) ⟨.headerCrlf, crlf ++ rest⟩ =
      some (.crlf, crlf, ⟨.headerName, rest⟩) :=
    expect_eq_some.mpr ⟨lexerNext_crlf rest, rfl⟩
  rw [header, hname, bind_some, hcolon, bind_some, hvalue, bind_some, hcrlf, bind_some]

end Tokens

section Inversion

variable {input value : List UInt8} {id : TokenId} {next : Lexer}

theorem orFinished_token {answer : LexAnswer} (h : orFinished input answer = .token id value next) :
    answer = .token id value next := by
  rw [orFinished] at h
  split_ifs at h
  exact h

theorem lexRun_token {char : UInt8 → Bool} {ids : List UInt8 → TokenId} {state : LexState}
    (h : lexRun char ids state input = .token id value next) :
    input.takeWhile char ≠ [] ∧ id = ids (input.takeWhile char) ∧ value = input.takeWhile char ∧
      next = ⟨state, input.dropWhile char⟩ := by
  rw [lexRun] at h
  split_ifs at h with hne
  cases h
  exact ⟨hne, rfl, rfl, rfl⟩

theorem lexText_token {fixed : List UInt8} {fixedId : TokenId} {state : LexState}
    (h : lexText fixed fixedId state input = .token id value next) :
    ∃ rest, input = fixed ++ rest ∧ next = ⟨state, rest⟩ := by
  rw [lexText] at h
  split_ifs at h with hprefix
  obtain ⟨rest, rfl⟩ := hprefix
  cases h
  exact ⟨rest, rfl, by rw [drop_left]⟩

theorem lexValue_token (h : lexValue input = .token id value next) :
    ∃ i, findMark crlf input = some i ∧ value = trimEnd (input.take i) ∧
      next = ⟨.headerCrlf, input.drop i⟩ := by
  rw [lexValue] at h
  split at h
  · cases h
  · next i hfind =>
      cases h
      exact ⟨i, hfind, rfl, rfl⟩

theorem lexName_token (h : lexerNext ⟨.headerName, input⟩ = .token id value next)
    (hid : isHeaderToken id = true) :
    input.takeWhile isHeaderChar ≠ [] ∧ id = headerToken (input.takeWhile isHeaderChar) ∧
      value = input.takeWhile isHeaderChar ∧
      next = ⟨.headerColon, input.dropWhile isHeaderChar⟩ := by
  have hname := orFinished_token h
  split_ifs at hname
  · cases hname
    cases hid
  · exact lexRun_token hname

theorem endHeaders_token (h : lexerNext ⟨.headerName, input⟩ = .token id value next)
    (hid : id = .endHeaders) : ∃ rest, input = crlf ++ rest ∧ next = ⟨.headerName, rest⟩ := by
  have hname := orFinished_token h
  split_ifs at hname with hcrlf
  · obtain ⟨rest, rfl⟩ := hcrlf
    cases hname
    exact ⟨rest, rfl, rfl⟩
  · obtain ⟨_, rfl, _, _⟩ := lexRun_token hname
    have hhdr := isHeaderToken_headerToken (input.takeWhile isHeaderChar)
    rw [hid] at hhdr
    cases hhdr

theorem lexerNext_finished (h : lexerNext ⟨.headerName, input⟩ = .finished) : input = [] := by
  by_contra hne
  rw [lexerNext, orFinished, if_neg hne] at h
  dsimp only at h
  split_ifs at h
  rw [lexRun] at h
  split_ifs at h

theorem dropWhile_take_dropWhile {p : UInt8 → Bool} (xs : List UInt8) (i : ℕ) :
    ((xs.dropWhile p).take i).dropWhile p = (xs.dropWhile p).take i := by
  induction xs with
  | nil => simp
  | cons x xs ih =>
    rw [dropWhile_cons]
    split_ifs with hx
    · exact ih
    · cases i with
      | zero => rfl
      | succ i => rw [take_succ_cons, dropWhile_cons_of_neg hx]

theorem findMark_first {i : ℕ} {first blanks : List UInt8}
    (h : findMark crlf input = some i) (hfirst : first = blanks ++ input.take i)
    (hblank : ∀ b ∈ blanks, isBlank b = true) (rest : List UInt8) :
    findMark crlf (first ++ (crlf ++ rest)) = some first.length := by
  obtain ⟨hcut, hle⟩ := findMark_cut h
  have hpart := findMark_take_of_le (by decide) h le_rfl
  have htake : input.take (i + crlf.length) = input.take i ++ crlf := by
    rw [take_add]
    obtain ⟨t, ht⟩ := hcut
    rw [← ht, take_left]
  rw [htake] at hpart
  have hmark := findMark_append hpart rest
  rw [append_assoc] at hmark
  have hlen : (input.take i).length = i := by
    rw [length_take]
    omega
  have hcr : cr ∉ blanks := not_mem_of_class hblank not_blank_cr
  rw [hfirst, append_assoc, length_append, hlen]
  rw [crlf] at hmark ⊢
  rw [findMark_skip hcr, hmark, map_some]

theorem line_of_header {ctx ctx' : ParseCtx}
    (h : header ctx ⟨.headerName, input⟩ = some (ctx', next)) :
    ∃ line rest, Line.Ok line ∧ input = line.bytes ++ (crlf ++ rest) ∧ next = ⟨.headerName, rest⟩ ∧
      headerAction ctx (headerToken line.name) line.name line.value = some ctx' := by
  obtain ⟨⟨id₁, name, next₁⟩, hname, h⟩ := bind_eq_some_iff.mp h
  obtain ⟨⟨id₂, _, next₂⟩, hcolon, h⟩ := bind_eq_some_iff.mp h
  obtain ⟨⟨id₃, value, next₃⟩, hvalue, h⟩ := bind_eq_some_iff.mp h
  obtain ⟨⟨id₄, _, next₄⟩, hcrlf, h⟩ := bind_eq_some_iff.mp h
  obtain ⟨ctx₁, haction, hpair⟩ := map_eq_some_iff.mp h
  obtain ⟨hname, hid⟩ := expect_eq_some.mp hname
  obtain ⟨hne, rfl, rfl, rfl⟩ := lexName_token hname hid
  obtain ⟨after₁, hskip, rfl⟩ := lexText_token (orFinished_token (expect_eq_some.mp hcolon).1)
  obtain ⟨i, hfind, rfl, rfl⟩ := lexValue_token (orFinished_token (expect_eq_some.mp hvalue).1)
  obtain ⟨rest, hrest, rfl⟩ := lexText_token (orFinished_token (expect_eq_some.mp hcrlf).1)
  cases hpair
  have hafter : (after₁.takeWhile isBlank ++ (skipOws after₁).take i) ++ (crlf ++ rest) =
      after₁ := by
    rw [append_assoc, ← hrest, take_append_drop]
    exact takeWhile_append_dropWhile
  have hblank : ∀ b ∈ after₁.takeWhile isBlank, isBlank b = true := fun b hb => mem_takeWhile_imp hb
  refine ⟨⟨input.takeWhile isHeaderChar, (input.dropWhile isHeaderChar).takeWhile isBlank,
    after₁.takeWhile isBlank ++ (skipOws after₁).take i⟩, rest,
    ⟨hne, fun b hb => mem_takeWhile_imp hb, fun b hb => mem_takeWhile_imp hb,
      findMark_first hfind rfl hblank⟩, ?_, rfl, ?_⟩
  · calc
      input = input.takeWhile isHeaderChar ++ input.dropWhile isHeaderChar :=
        takeWhile_append_dropWhile.symm
      _ = input.takeWhile isHeaderChar ++ ((input.dropWhile isHeaderChar).takeWhile isBlank ++
          ([colonByte] ++ after₁)) := by
        rw [← hskip, skipOws,
          takeWhile_append_dropWhile (p := isBlank) (l := input.dropWhile isHeaderChar)]
      _ = _ := by
        conv_lhs => rw [← hafter]
        simp [Line.bytes]
  · rw [Line.value, trimOws]
    dsimp only
    rw [skipOws, dropWhile_append_of_pos hblank, skipOws, dropWhile_take_dropWhile]
    exact haction

end Inversion

section Blocks

variable {lines : List Line} {line : Line} {fuel : ℕ}

/-- The block of these lines, with its empty line. -/
def blockOf : List Line → List UInt8
  | [] => crlf
  | line :: lines => line.bytes ++ (crlf ++ blockOf lines)

/-- The headers of these lines, in a request. -/
def applyLines : ParseCtx → List Line → Option ParseCtx
  | ctx, [] => some ctx
  | ctx, line :: lines =>
    (headerAction ctx (headerToken line.name) line.name line.value).bind
      (fun ctx => applyLines ctx lines)

/-- The headers of these lines, in a response. -/
def responseLines :
    List HeaderView → Option ℕ → List Line → Option (List HeaderView × Option ℕ)
  | headers, known, [] => some (headers, known)
  | headers, known, line :: lines =>
    (responseAddHeader headers (line.name ++ line.blanks) line.value).bind (fun headers =>
      (responseContentLength known (line.name ++ line.blanks) line.value).bind (fun known =>
        responseLines headers known lines))

theorem crlf_not_prefix_line (h : line.Ok) (rest : List UInt8) : ¬crlf <+: line.bytes ++ rest := by
  intro hin
  obtain ⟨b, bs, hname⟩ := exists_cons_of_ne_nil h.name_ne
  rw [Line.bytes, hname] at hin
  obtain ⟨rfl, _⟩ := cons_prefix_cons.mp hin
  have hcr := h.name_chars cr (by rw [hname]; exact mem_cons_self)
  cases hcr

theorem cr_not_mem_head (h : line.Ok) : cr ∉ line.name ++ (line.blanks ++ [colonByte]) := by
  intro hin
  rcases mem_append.mp hin with hin | hin
  · exact not_mem_of_class h.name_chars not_headerChar_cr hin
  · rcases mem_append.mp hin with hin | hin
    · exact not_mem_of_class h.blank not_blank_cr hin
    · exact absurd (mem_singleton.mp hin) (by decide)

theorem findMark_line (h : line.Ok) (rest : List UInt8) :
    findMark crlf (line.bytes ++ (crlf ++ rest)) = some line.bytes.length := by
  have hbytes : line.bytes = (line.name ++ (line.blanks ++ [colonByte])) ++ line.after := by
    simp [Line.bytes]
  have hwhole := h.whole rest
  rw [hbytes, append_assoc, length_append]
  rw [crlf] at hwhole ⊢
  rw [findMark_skip (cr_not_mem_head h), hwhole, map_some]

theorem expect_endHeaders_line (h : line.Ok) (rest : List UInt8) :
    expect (· == .endHeaders) ⟨.headerName, line.bytes ++ rest⟩ = none := by
  rw [eq_none_iff_forall_ne_some]
  rintro ⟨id, value, next⟩ hsome
  obtain ⟨hnext, hid⟩ := expect_eq_some.mp hsome
  have htoken := orFinished_token hnext
  rw [if_neg (crlf_not_prefix_line h rest)] at htoken
  obtain ⟨_, rfl, _, _⟩ := lexRun_token htoken
  have hhdr := isHeaderToken_headerToken ((line.bytes ++ rest).takeWhile isHeaderChar)
  rw [beq_iff_eq.mp hid] at hhdr
  cases hhdr

theorem headersEnd_of_lines (hok : ∀ line ∈ lines, Line.Ok line) (hfuel : lines.length < fuel)
    (ctx : ParseCtx) : headersEnd fuel ctx ⟨.headerName, blockOf lines⟩ = applyLines ctx lines := by
  induction lines generalizing fuel ctx with
  | nil =>
    obtain ⟨fuel, rfl⟩ : ∃ k, fuel = k + 1 := ⟨fuel - 1, by simp at hfuel; omega⟩
    rfl
  | cons line lines ih =>
    obtain ⟨fuel, rfl⟩ : ∃ k, fuel = k + 1 := ⟨fuel - 1, by omega⟩
    obtain ⟨hline, hlines⟩ := forall_mem_cons.mp hok
    rw [length_cons] at hfuel
    rw [headersEnd, blockOf, expect_endHeaders_line hline, applyLines]
    rw [header_of_line hline]
    cases headerAction ctx (headerToken line.name) line.name line.value with
    | none => rfl
    | some ctx₁ => exact ih hlines (by omega) ctx₁

theorem lines_of_headersEnd {ctx ctx' : ParseCtx} {input : List UInt8}
    (h : headersEnd fuel ctx ⟨.headerName, input⟩ = some ctx') :
    ∃ lines, (∀ line ∈ lines, Line.Ok line) ∧ input = blockOf lines ∧
      applyLines ctx lines = some ctx' := by
  induction fuel generalizing ctx input with
  | zero => cases h
  | succ fuel ih =>
    rw [headersEnd] at h
    split at h
    · next last hlast =>
        obtain ⟨id, value, next⟩ := last
        obtain ⟨hnext, hid⟩ := expect_eq_some.mp hlast
        split_ifs at h with hfinished
        cases h
        obtain ⟨rest, rfl, rfl⟩ := endHeaders_token hnext (beq_iff_eq.mp hid)
        refine ⟨[], fun line hin => absurd hin not_mem_nil, ?_, rfl⟩
        rw [lexerNext_finished hfinished, append_nil, blockOf]
    · obtain ⟨⟨ctx₁, next⟩, hhdr, hrest⟩ := bind_eq_some_iff.mp h
      obtain ⟨line, rest, hline, rfl, rfl, haction⟩ := line_of_header hhdr
      obtain ⟨lines, hlines, rfl, happly⟩ := ih hrest
      refine ⟨line :: lines, forall_mem_cons.mpr ⟨hline, hlines⟩, rfl, ?_⟩
      rw [applyLines, haction, bind_some, happly]

theorem span_line (h : line.Ok) :
    line.bytes.span (· != colonByte) = (line.name ++ line.blanks, colonByte :: line.after) := by
  have hchars : ∀ b ∈ line.name ++ line.blanks, (b != colonByte) = true := by
    intro b hb
    rw [bne_iff_ne]
    rintro rfl
    rcases mem_append.mp hb with hb | hb
    · exact not_mem_of_class h.name_chars not_headerChar_colon hb
    · exact not_mem_of_class h.blank not_blank_colon hb
  have hcolon : (colonByte != colonByte) = false := by decide
  rw [Line.bytes, ← append_assoc, span_eq_takeWhile_dropWhile,
    takeWhile_append_stop hchars hcolon, dropWhile_append_stop hchars hcolon]

theorem trimEnd_name (h : line.Ok) : trimEnd (line.name ++ line.blanks) = line.name := by
  have hblank : ∀ b ∈ line.blanks.reverse, isBlank b = true :=
    fun b hb => h.blank b (mem_reverse.mp hb)
  rw [trimEnd, reverse_append, dropWhile_append_of_pos hblank]
  cases hname : line.name.reverse with
  | nil => exact absurd (reverse_eq_nil_iff.mp hname) h.name_ne
  | cons b bs =>
    have hb : b ∈ line.name := mem_reverse.mp (by rw [hname]; exact mem_cons_self)
    have hnot : ¬isBlank b = true := by
      intro hblank
      have hchar := h.name_chars b hb
      rw [not_headerChar_of_blank hblank] at hchar
      cases hchar
    rw [dropWhile_cons_of_neg hnot, ← hname, reverse_reverse]

theorem drop_line (line : Line) (rest : List UInt8) :
    (line.bytes ++ (crlf ++ rest)).drop (line.bytes.length + 2) = rest := by
  rw [← drop_drop, drop_left]
  rfl

theorem findMark_blockOf_nil (tail : List UInt8) :
    findMark crlf (blockOf [] ++ tail) = some 0 := by
  rw [blockOf, crlf, cons_append, findMark, if_pos]
  exact ⟨tail, rfl⟩

theorem responseHeadersFrom_of_lines (hok : ∀ line ∈ lines, Line.Ok line)
    (hfuel : lines.length < fuel) (headers : List HeaderView) (known : Option ℕ) :
    responseHeadersFrom fuel headers known (blockOf lines) = responseLines headers known lines := by
  induction lines generalizing fuel headers known with
  | nil =>
    obtain ⟨fuel, rfl⟩ : ∃ k, fuel = k + 1 := ⟨fuel - 1, by simp at hfuel; omega⟩
    have hend := findMark_blockOf_nil []
    rfl
  | cons line lines ih =>
    obtain ⟨fuel, rfl⟩ : ∃ k, fuel = k + 1 := ⟨fuel - 1, by omega⟩
    obtain ⟨hline, hlines⟩ := forall_mem_cons.mp hok
    rw [length_cons] at hfuel
    have hname : line.name ++ line.blanks ≠ [] :=
      fun hnil => hline.name_ne (append_eq_nil_iff.mp hnil).1
    have hlen : line.bytes.length ≠ 0 := by
      simp [Line.bytes]
    rw [responseHeadersFrom, blockOf, findMark_line hline, responseLines]
    dsimp only
    rw [if_neg hlen, take_left, span_line hline, drop_line]
    dsimp only
    rw [if_neg hname, Line.value]
    congr 1
    funext headers'
    congr 1
    funext known'
    exact ih hlines (by omega) headers' known'

theorem length_lt_blockOf (lines : List Line) : lines.length < (blockOf lines).length := by
  induction lines with
  | nil => decide
  | cons line lines ih =>
    rw [blockOf, length_append, length_append, length_cons]
    have htwo : crlf.length = 2 := rfl
    omega

theorem findMark_after_crlf {rest : List UInt8} (h : ¬crlf <+: rest) :
    findMark blankLine (crlf ++ rest) =
      (findMark blankLine rest).map (· + 1 + 1) := by
  have hfirst : ¬blankLine <+: crlf ++ rest :=
    fun hin => h ((prefix_append_right_inj crlf).mp hin)
  have hsecond : ¬blankLine <+: lf :: rest :=
    fun hin => absurd (cons_prefix_cons.mp hin).1 (by decide)
  calc
    findMark blankLine (crlf ++ rest) =
        (findMark blankLine (lf :: rest)).map (· + 1) := if_neg hfirst
    _ = ((findMark blankLine rest).map (· + 1)).map (· + 1) := by
      rw [findMark, if_neg hsecond]
    _ = _ := by
      rw [Option.map_map]
      rfl

theorem findMark_blockOf (hok : ∀ line ∈ lines, Line.Ok line) (tail : List UInt8) :
    ∃ i, findMark blankLine (crlf ++ (blockOf lines ++ tail)) = some i ∧
      i + 2 = (blockOf lines).length := by
  induction lines with
  | nil =>
    refine ⟨0, ?_, rfl⟩
    rw [crlf, cons_append, findMark, if_pos]
    exact ⟨tail, rfl⟩
  | cons line lines ih =>
    obtain ⟨hline, hlines⟩ := forall_mem_cons.mp hok
    obtain ⟨i, hi, hlen⟩ := ih hlines
    have hbytes : blockOf (line :: lines) ++ tail =
        line.bytes ++ (crlf ++ (blockOf lines ++ tail)) := by
      rw [blockOf]
      simp
    have hrest := findMark_longer (findMark_line hline (blockOf lines ++ tail)) crlf
    rw [show crlf ++ crlf = blankLine from rfl, drop_left, hi, map_some] at hrest
    refine ⟨line.bytes.length + i + 1 + 1, ?_, ?_⟩
    · rw [hbytes, findMark_after_crlf (crlf_not_prefix_line hline _), hrest, map_some]
    · rw [blockOf, length_append, length_append, ← hlen]
      have htwo : crlf.length = 2 := rfl
      omega

end Blocks

variable {name uri head rest : List UInt8} {method : RtspMethod}

def requestHead (name uri : List UInt8) : List UInt8 :=
  name ++ 32 :: (uri ++ 32 :: text "RTSP/1.0")

theorem methodToken_name (h : methodName method = some name) :
    methodToken name = .keyword method ∧ name ≠ [] ∧ ∀ b ∈ name, isMethodChar b = true := by
  cases method <;> cases h <;> exact ⟨by decide, by decide, all_eq_true.mp (by decide)⟩

theorem lexerNext_method (hne : name ≠ []) (hchars : ∀ b ∈ name, isMethodChar b = true)
    (rest : List UInt8) :
    lexerNext ⟨.method, name ++ 32 :: rest⟩ =
      .token (methodToken name) name ⟨.uri, 32 :: rest⟩ := by
  have hspace : isMethodChar 32 = false := by decide
  rw [lexerNext, orFinished, if_neg (by simp)]
  rw [lexRun, takeWhile_append_stop hchars hspace, dropWhile_append_stop hchars hspace, if_neg hne]

theorem skipOws_space {b : UInt8} (hb : isBlank b = false) (rest : List UInt8) :
    skipOws (32 :: b :: rest) = b :: rest := by
  rw [skipOws, dropWhile_cons_of_pos (by decide),
    dropWhile_cons_of_neg (by rw [hb]; simp)]

theorem lexerNext_uri (hne : uri ≠ []) (hchars : ∀ b ∈ uri, isUriChar b = true)
    (rest : List UInt8) :
    lexerNext ⟨.uri, 32 :: (uri ++ 32 :: rest)⟩ = .token .uri uri ⟨.version, 32 :: rest⟩ := by
  have hspace : isUriChar 32 = false := by decide
  have hskip : skipOws (32 :: (uri ++ 32 :: rest)) = uri ++ 32 :: rest := by
    obtain ⟨b, bs, rfl⟩ := exists_cons_of_ne_nil hne
    have hb := hchars b mem_cons_self
    rw [isUriChar, Bool.and_eq_true, Bool.and_eq_true, Bool.not_eq_true'] at hb
    exact skipOws_space hb.1.1 _
  rw [lexerNext, orFinished, if_neg (by simp)]
  dsimp only
  rw [hskip, orFinished, if_neg (by simp), lexRun, takeWhile_append_stop hchars hspace,
    dropWhile_append_stop hchars hspace, if_neg hne]

theorem lexerNext_version (rest : List UInt8) :
    lexerNext ⟨.version, 32 :: (text "RTSP/1.0" ++ rest)⟩ =
      .token .version (text "RTSP/1.0") ⟨.requestCrlf, rest⟩ := by
  rw [lexerNext, orFinished, if_neg (by simp)]
  dsimp only
  have hskip : skipOws (32 :: (text "RTSP/1.0" ++ rest)) = text "RTSP/1.0" ++ rest :=
    skipOws_space (by decide) _
  rw [hskip, orFinished, if_neg (by simp [text]), lexText, if_pos (prefix_append _ _),
    drop_left]

theorem lexerNext_requestCrlf (rest : List UInt8) :
    lexerNext ⟨.requestCrlf, crlf ++ rest⟩ = .token .crlf crlf ⟨.headerName, rest⟩ := by
  rw [lexerNext, orFinished, if_neg (by simp [crlf])]
  dsimp only
  rw [lexText, if_pos (prefix_append _ _), drop_left]

theorem requestLine_head (hmethod : methodName method = some name) (hne : uri ≠ [])
    (hchars : ∀ b ∈ uri, isUriChar b = true) (rest : List UInt8) :
    requestLine ⟨.method, requestHead name uri ++ (crlf ++ rest)⟩ =
      (copyInto maxUriLen uri).map (fun copied => (method, copied, ⟨.headerName, rest⟩)) := by
  obtain ⟨htoken, hname, hnames⟩ := methodToken_name hmethod
  have hbytes : requestHead name uri ++ (crlf ++ rest) =
      name ++ 32 :: (uri ++ 32 :: (text "RTSP/1.0" ++ (crlf ++ rest))) := by
    rw [requestHead]
    simp
  have h₁ : expect (fun id => (tokenMethod id).isSome)
      ⟨.method, name ++ 32 :: (uri ++ 32 :: (text "RTSP/1.0" ++ (crlf ++ rest)))⟩ =
      some (.keyword method, name,
        ⟨.uri, 32 :: (uri ++ 32 :: (text "RTSP/1.0" ++ (crlf ++ rest)))⟩) := by
    rw [expect_eq_some, lexerNext_method hname hnames, htoken]
    exact ⟨rfl, rfl⟩
  have h₂ : expect (· == .uri) ⟨.uri, 32 :: (uri ++ 32 :: (text "RTSP/1.0" ++ (crlf ++ rest)))⟩ =
      some (.uri, uri, ⟨.version, 32 :: (text "RTSP/1.0" ++ (crlf ++ rest))⟩) :=
    expect_eq_some.mpr ⟨lexerNext_uri hne hchars _, rfl⟩
  have h₃ : expect (· == .version) ⟨.version, 32 :: (text "RTSP/1.0" ++ (crlf ++ rest))⟩ =
      some (.version, text "RTSP/1.0", ⟨.requestCrlf, crlf ++ rest⟩) :=
    expect_eq_some.mpr ⟨lexerNext_version _, rfl⟩
  have h₄ : expect (· == .crlf) ⟨.requestCrlf, crlf ++ rest⟩ =
      some (.crlf, crlf, ⟨.headerName, rest⟩) :=
    expect_eq_some.mpr ⟨lexerNext_requestCrlf _, rfl⟩
  rw [requestLine, hbytes, h₁, bind_some, h₂, bind_some, h₃, bind_some, h₄, bind_some]
  rfl

theorem findMark_head {i : ℕ} (hcr : cr ∉ head)
    (h : findMark blankLine (head ++ (crlf ++ rest)) = some i) :
    ∃ j, findMark blankLine (crlf ++ rest) = some j ∧
      (head ++ (crlf ++ rest)).take (i + 4) = head ++ (crlf ++ rest.take (j + 2)) ∧
      (head ++ (crlf ++ rest)).drop (i + 4) = rest.drop (j + 2) := by
  have hskip : findMark blankLine (head ++ (crlf ++ rest)) =
      (findMark blankLine (crlf ++ rest)).map (head.length + ·) :=
    findMark_skip hcr
  rw [h] at hskip
  obtain ⟨j, hj, rfl⟩ := map_eq_some_iff.mp hskip.symm
  refine ⟨j, hj, ?_, ?_⟩
  · rw [Nat.add_assoc, take_length_add_append]
    rfl
  · rw [Nat.add_assoc, drop_length_add_append]
    rfl

theorem responseBlock_of_lines {lines : List Line} (hcr : cr ∉ head)
    (hok : ∀ line ∈ lines, Line.Ok line) :
    responseBlock (head ++ (crlf ++ blockOf lines)) = (responseStatusLine head).bind (fun status =>
        (responseLines [] none lines).map (fun read => (status.1, status.2, read.1, read.2))) := by
  have hskip : findMark crlf (head ++ (crlf ++ blockOf lines)) =
      (findMark crlf (crlf ++ blockOf lines)).map (head.length + ·) :=
    findMark_skip hcr
  have hzero : findMark crlf (crlf ++ blockOf lines) = some 0 :=
    findMark_blockOf_nil (blockOf lines)
  have hdrop : (head ++ (crlf ++ blockOf lines)).drop (head.length + 2) = blockOf lines := by
    rw [drop_length_add_append]
    rfl
  rw [responseBlock, hskip, hzero, map_some, bind_some, Nat.add_zero, take_left,
    hdrop, responseHeaders, responseHeadersFrom_of_lines hok
      (lt_trans (length_lt_blockOf lines) (Nat.lt_succ_self _))]

end TurboMedia.Rtsp
