import TurboMedia.Rtsp.Format
import TurboMedia.Rtsp.HeaderLines

/-!
# What is formatted

What the formatters put is a first line, a block of header lines and a body, and what they give
back is how long that is.
-/

namespace TurboMedia.Rtsp

open List BoundedWriter

section Numbers

variable {n limit : ℕ}

theorem digitsFrom_append (limit parsed : ℕ) (xs ys : List UInt8) :
    digitsFrom limit parsed (xs ++ ys) =
      (digitsFrom limit parsed xs).bind (fun parsed => digitsFrom limit parsed ys) := by
  induction xs generalizing parsed with
  | nil => rfl
  | cons b bs ih =>
    rw [cons_append, digitsFrom, digitsFrom]
    dsimp only
    split_ifs
    · rfl
    · rfl
    · exact ih _

theorem digitChar_byte {d : ℕ} (h : d < 10) :
    isDigit (UInt8.ofNat (Nat.digitChar d).toNat) = true ∧
      (UInt8.ofNat (Nat.digitChar d).toNat).toNat - 48 = d := by
  interval_cases d <;> decide

theorem digitsFrom_digit {d : ℕ} (parsed : ℕ) (hd : d < 10) (h : parsed * 10 + d ≤ limit) :
    digitsFrom limit parsed [UInt8.ofNat (Nat.digitChar d).toNat] = some (parsed * 10 + d) := by
  obtain ⟨hdigit, hvalue⟩ := digitChar_byte hd
  rw [digitsFrom, hdigit, if_neg (by simp)]
  rw [hvalue, if_neg (by omega)]
  rfl

theorem decimalText_of_lt (h : n < 10) : decimalText n = [UInt8.ofNat (Nat.digitChar n).toNat] := by
  rw [decimalText, Nat.toDigits_of_lt_base h]
  rfl

theorem decimalText_of_le (h : 10 ≤ n) :
    decimalText n = decimalText (n / 10) ++ [UInt8.ofNat (Nat.digitChar (n % 10)).toNat] := by
  rw [decimalText, Nat.toDigits_of_base_le (by omega) h, map_append]
  rfl

theorem digitsFrom_decimalText (h : n ≤ limit) : digitsFrom limit 0 (decimalText n) = some n := by
  induction n using Nat.strong_induction_on with
  | _ n ih =>
    by_cases hn : n < 10
    · rw [decimalText_of_lt hn, digitsFrom_digit 0 hn (by omega), Nat.zero_mul, Nat.zero_add]
    · have hten : 10 ≤ n := not_lt.mp hn
      rw [decimalText_of_le hten, digitsFrom_append, ih (n / 10) (by omega) (by omega),
        Option.bind_some, digitsFrom_digit _ (by omega) (by omega), Nat.div_add_mod']

theorem decimalText_ne_nil (n : ℕ) : decimalText n ≠ [] := by
  rw [decimalText]
  exact fun h => Nat.toDigits_ne_nil (map_eq_nil_iff.mp h)

theorem decimal_decimalText (h : n ≤ limit) : decimal limit (decimalText n) = some n := by
  rw [decimal, if_neg (decimalText_ne_nil n), digitsFrom_decimalText h]

theorem decimalText_digits (n : ℕ) : ∀ b ∈ decimalText n, isDigit b = true := by
  induction n using Nat.strong_induction_on with
  | _ n ih =>
    by_cases hn : n < 10
    · rw [decimalText_of_lt hn]
      exact forall_mem_singleton.mpr (digitChar_byte hn).1
    · rw [decimalText_of_le (not_lt.mp hn)]
      refine forall_mem_append.mpr ⟨ih (n / 10) (by omega), ?_⟩
      exact forall_mem_singleton.mpr (digitChar_byte (by omega)).1

end Numbers

section Plain

variable {value : List UInt8} {header : HeaderView}

/-- A string without line ends, and without blanks at its ends. -/
structure PlainText (value : List UInt8) : Prop where
  no_cr : cr ∉ value
  no_lf : lf ∉ value
  no_zero : (0 : UInt8) ∉ value
  first : ∀ b, value.head? = some b → isBlank b = false
  last : ∀ b, value.getLast? = some b → isBlank b = false

theorem not_blank_iff {given : Option UInt8} :
    given.any isBlank = false ↔ ∀ b, given = some b → isBlank b = false := by
  cases given <;> simp

instance (value : List UInt8) : Decidable (PlainText value) :=
  decidable_of_iff (cr ∉ value ∧ lf ∉ value ∧ (0 : UInt8) ∉ value ∧
      value.head?.any isBlank = false ∧ value.getLast?.any isBlank = false)
    ⟨fun h => ⟨h.1, h.2.1, h.2.2.1, not_blank_iff.mp h.2.2.2.1, not_blank_iff.mp h.2.2.2.2⟩,
      fun h => ⟨h.no_cr, h.no_lf, h.no_zero, not_blank_iff.mpr h.first, not_blank_iff.mpr h.last⟩⟩

/-- The name of a header is a run of header characters, and its value is plain. -/
structure HeaderView.Plain (header : HeaderView) : Prop where
  name_ne : header.name ≠ []
  name_chars : ∀ b ∈ header.name, isHeaderChar b = true
  value : PlainText header.value

def headerLine (header : HeaderView) : Line :=
  ⟨header.name, [], 32 :: header.value⟩

theorem decimalText_plain (n : ℕ) : PlainText (decimalText n) := by
  have hnot : ∀ c, isDigit c = false → c ∉ decimalText n :=
    fun c hc => not_mem_of_class (decimalText_digits n) hc
  have hblank : ∀ b ∈ decimalText n, isBlank b = false := by
    intro b hb
    have hdigit := decimalText_digits n b hb
    cases h : isBlank b with
    | false => rfl
    | true =>
      rw [isBlank, Bool.or_eq_true, beq_iff_eq, beq_iff_eq] at h
      rcases h with rfl | rfl <;> exact absurd hdigit (by decide)
  exact ⟨hnot _ (by decide), hnot _ (by decide), hnot _ (by decide),
    fun b hb => hblank b (mem_of_mem_head? hb),
    fun b hb => hblank b (mem_of_mem_getLast? hb)⟩

theorem trimOws_plain (h : PlainText value) : trimOws (32 :: value) = value := by
  have hskip : skipOws (32 :: value) = value := by
    rw [skipOws, dropWhile_cons_of_pos (by decide)]
    cases hvalue : value with
    | nil => rfl
    | cons b bs =>
      have hb := h.first b (by rw [hvalue]; rfl)
      rw [dropWhile_cons_of_neg (by rw [hb]; simp)]
  rw [trimOws, hskip, trimEnd]
  cases hvalue : value.reverse with
  | nil =>
    rw [reverse_eq_nil_iff.mp hvalue]
    rfl
  | cons b bs =>
    have hb := h.last b (by rw [getLast?_eq_head?_reverse, hvalue]; rfl)
    rw [dropWhile_cons_of_neg (by rw [hb]; simp), ← hvalue, reverse_reverse]

theorem headerLine_value (h : header.Plain) : (headerLine header).value = header.value :=
  trimOws_plain h.value

theorem headerLine_ok (h : header.Plain) : (headerLine header).Ok := by
  refine ⟨h.name_ne, h.name_chars, fun b hb => absurd hb not_mem_nil, fun rest => ?_⟩
  have hcr : cr ∉ (headerLine header).after := by
    intro hin
    rcases mem_cons.mp hin with hin | hin
    · exact absurd hin (by decide)
    · exact h.value.no_cr hin
  have hskip : Framing.findMark crlf ((headerLine header).after ++ (crlf ++ rest)) =
      (Framing.findMark crlf (crlf ++ rest)).map ((headerLine header).after.length + ·) :=
    Framing.findMark_skip hcr
  have hzero : Framing.findMark crlf (crlf ++ rest) = some 0 := findMark_blockOf_nil rest
  rw [hskip, hzero, Option.map_some, Nat.add_zero]

theorem headerPiece_cells (header : HeaderView) :
    (headerPiece header).cells = (headerLine header).bytes ++ crlf := by
  have hcolon : text ": " = [colonByte, 32] := by decide
  rw [headerPiece, BoundedWriter.Piece.cells, hcolon, Line.bytes, headerLine]
  simp

theorem cellsOf_headers (headers : List HeaderView) (lines : List Line) :
    cellsOf (headers.map headerPiece) ++ blockOf lines =
      blockOf (headers.map headerLine ++ lines) := by
  induction headers with
  | nil => rfl
  | cons header headers ih =>
    rw [map_cons, map_cons, cons_append, blockOf, ← ih]
    rw [cellsOf, flatMap_cons, headerPiece_cells, cellsOf]
    simp

def cseqHeader (cseq : UInt32) : HeaderView :=
  ⟨text "CSeq", decimalText cseq.toNat⟩

def lengthHeader (body : Option Body) : HeaderView :=
  ⟨text "Content-Length", decimalText (bodyLen body)⟩

theorem plain_of_name {name value : List UInt8}
    (hname : name ≠ [] ∧ ∀ b ∈ name, isHeaderChar b = true) (hvalue : PlainText value) :
    HeaderView.Plain ⟨name, value⟩ :=
  ⟨hname.1, hname.2, hvalue⟩

theorem name_of_all {name : List UInt8} (hne : name ≠ []) (hall : name.all isHeaderChar = true) :
    name ≠ [] ∧ ∀ b ∈ name, isHeaderChar b = true :=
  ⟨hne, all_eq_true.mp hall⟩

theorem cseqHeader_plain (cseq : UInt32) : (cseqHeader cseq).Plain :=
  plain_of_name (name_of_all (by decide) (by decide)) (decimalText_plain _)

theorem lengthHeader_plain (body : Option Body) : (lengthHeader body).Plain :=
  plain_of_name (name_of_all (by decide) (by decide)) (decimalText_plain _)

end Plain

section Extras

variable {managed : List UInt8 → Bool} {headers : List RtspHeader}

def extraHeader (header : RtspHeader) : Option HeaderView :=
  header.name.bind (fun name => header.value.map (fun value => ⟨name, value⟩))

def extraHeaders (headers : List RtspHeader) : List HeaderView :=
  headers.filterMap extraHeader

theorem extraPiece_eq {header : RtspHeader}
    (h : ∀ piece ∈ extraPiece managed header, piece ≠ .refused) :
    extraPiece managed header = (extraHeader header).toList.map headerPiece ∧
      ∀ view ∈ extraHeader header, managed view.name = false := by
  rw [extraPiece] at h ⊢
  cases hname : header.name with
  | none =>
    rw [extraHeader, hname]
    exact ⟨rfl, fun view hin => by cases hin⟩
  | some name =>
    rw [hname] at h
    dsimp only at h ⊢
    rw [extraHeader, hname, Option.bind_some]
    split_ifs at h ⊢ with hmanaged
    · exact absurd rfl (h .refused mem_cons_self)
    · cases hvalue : header.value with
      | none => exact ⟨rfl, fun view hin => by cases hin⟩
      | some value =>
        refine ⟨rfl, fun view hin => ?_⟩
        cases hin
        exact Bool.not_eq_true _ ▸ hmanaged

/-- Extra headers that are not refused are all put, and none is managed. -/
theorem extraPieces_eq (h : ∀ piece ∈ extraPieces managed headers, piece ≠ .refused) :
    extraPieces managed headers = (extraHeaders headers).map headerPiece ∧
      ∀ view ∈ extraHeaders headers, managed view.name = false := by
  induction headers with
  | nil => exact ⟨rfl, fun view hin => absurd hin not_mem_nil⟩
  | cons header headers ih =>
    rw [extraPieces, flatMap_cons, forall_mem_append] at h
    obtain ⟨hpiece, hname⟩ := extraPiece_eq h.1
    obtain ⟨hpieces, hnames⟩ := ih h.2
    have hviews : extraHeaders (header :: headers) =
        (extraHeader header).toList ++ extraHeaders headers := by
      rw [extraHeaders, filterMap_cons]
      cases extraHeader header with
      | none | some view => rfl
    rw [hviews, map_append, ← hpiece, ← hpieces]
    refine ⟨rfl, forall_mem_append.mpr ⟨fun view hin => ?_, hnames⟩⟩
    exact hname view (Option.mem_toList.mp hin)

end Extras

variable {name uri head body : List UInt8} {method : RtspMethod} {lines : List Line}

theorem bodyLen_le (b : Body) : bodyLen (some b) ≤ b.data.length := by
  rw [bodyLen]
  split_ifs
  · exact b.fits
  · exact (takeWhile_sublist _).length_le

theorem bodyBytes_length (body : Option Body) : (bodyBytes body).length = bodyLen body := by
  cases body with
  | none => rfl
  | some b =>
    rw [bodyBytes, length_take]
    exact min_eq_left (bodyLen_le b)

theorem bodyLen_lt (body : Option Body) : bodyLen body < 2 ^ 64 := by
  cases body with
  | none => decide
  | some b => exact lt_of_le_of_lt (bodyLen_le b) b.sized

theorem cellsOf_lastPieces (body : Option Body) :
    cellsOf (lastPieces body) =
      blockOf [headerLine (lengthHeader body)] ++ bodyBytes body := by
  have hlen : text "Content-Length: " = text "Content-Length" ++ [colonByte, 32] := by decide
  have hbody : cellsOf
      (if bodyLen body > 0 then [.raw (bodyBytes body)] else []) = bodyBytes body := by
    split_ifs with hpos
    · simp [cellsOf, BoundedWriter.Piece.cells]
    · have hzero : (bodyBytes body).length = 0 := by
        rw [bodyBytes_length]
        omega
      rw [length_eq_zero_iff.mp hzero]
      rfl
  rw [lastPieces, cellsOf, flatMap_append]
  rw [cellsOf] at hbody
  rw [hbody, hlen]
  simp [BoundedWriter.Piece.cells, blockOf, headerLine, Line.bytes, lengthHeader]

theorem cellsOf_append (xs ys : List (BoundedWriter.Piece UInt8)) :
    cellsOf (xs ++ ys) = cellsOf xs ++ cellsOf ys :=
  flatMap_append

/-- What is put for a message: its first line, its headers and its body. -/
theorem cellsOf_message (cseq : UInt32) (middle : List HeaderView) (body : Option Body) :
    cellsOf
        (.format (head ++ (crlf ++ ((headerLine (cseqHeader cseq)).bytes ++ crlf))) ::
          (middle.map headerPiece ++ lastPieces body)) =
      head ++ (crlf ++ (blockOf ((cseqHeader cseq :: (middle ++ [lengthHeader body])).map
        headerLine) ++ bodyBytes body)) := by
  have hcons : ∀ (cells : List UInt8) (pieces : List (BoundedWriter.Piece UInt8)),
      cellsOf (.format cells :: pieces) = cells ++ cellsOf pieces :=
    fun _ _ => rfl
  rw [hcons, cellsOf_append, cellsOf_lastPieces, ← append_assoc (cellsOf _),
    cellsOf_headers, map_cons, map_append, blockOf]
  simp

theorem returned_ok
    {memory : ℕ → UInt8} {bufferSize : ℕ} {pieces : List (BoundedWriter.Piece UInt8)}
    (hint : (cellsOf pieces).length ≤ intMax)
    (h : (returned (putAll 0 intMax
      ⟨store memory 0 [0], 0, bufferSize⟩ pieces)).2 ≠ -1) :
    (∀ piece ∈ pieces, piece ≠ .refused) ∧ (returned (putAll 0 intMax
        ⟨store memory 0 [0], 0, bufferSize⟩ pieces)).2 =
          ((cellsOf pieces).length : ℕ) ∧
      load (returned (putAll 0 intMax
        ⟨store memory 0 [0], 0, bufferSize⟩ pieces)).1
          (cellsOf pieces).length = cellsOf pieces := by
  rw [returned] at h ⊢
  split_ifs at h ⊢ with hput
  · obtain ⟨href, hcursor, hload⟩ := putAll_load hput
    rw [Nat.zero_add] at hcursor
    rw [hcursor] at hload ⊢
    refine ⟨href, ?_, hload⟩
    rw [intMax] at hint
    rw [Int.bmod_def, Int.emod_eq_of_lt (by omega) (by push_cast; omega),
      if_pos (by push_cast; omega)]
  · exact absurd rfl h

theorem returned_bounded
    {memory : ℕ → UInt8} {bufferSize : ℕ} {pieces : List (BoundedWriter.Piece UInt8)}
    (hsize : bufferSize ≠ 0) :
    (∀ k, bufferSize ≤ k → (returned (putAll 0 intMax
        ⟨store memory 0 [0], 0, bufferSize⟩ pieces)).1 k = memory k) ∧
      (bufferSize ≤ (cellsOf pieces).length → (returned (putAll 0 intMax
        ⟨store memory 0 [0], 0, bufferSize⟩ pieces)).2 = -1) := by
  constructor
  · intro k hk
    have hframe : (putAll 0 intMax
        ⟨store memory 0 [0], 0, bufferSize⟩ pieces).1.memory k =
        store memory 0 [0] k :=
      putAll_frame (by dsimp only; omega)
    rw [returned]
    dsimp only
    rw [hframe]
    refine store_of_le ?_
    rw [length_singleton]
    omega
  · intro hlong
    rw [returned]
    rw [putAll_long (Nat.pos_of_ne_zero hsize) hlong]
    rfl

end TurboMedia.Rtsp
