import TurboMedia.Lib.Machine
import TurboMedia.Rtsp.PrefixStable
import TurboMedia.Rtsp.ServerInput

/-!
# Input in chunks

**Input.**  A server session with handlers that answer zero and a queue that admits
everything, and a stream of bytes that comes in chunks.

**Method.**  The messages and frames of a stream are those of a stable parser
(`parseUnit`), so that the bytes left behind them are all that has to be kept.  A call
dispatches what it finds in the bytes left and the new ones (`parsePending_spec`); as long as
nothing that was dispatched stays behind, the session has dispatched what the stream begins with
(`Serving`).
-/

namespace TurboMedia.Rtsp

open List Framing

open Framing (Outcome Stable Progress frames)

section Units

variable {b : List UInt8}

def parseUnit (b : List UInt8) : Outcome Received :=
  if b.head?.any (· == dollar) then (interleavedParse b).map .frame
  else (parseMessage b).map .message

theorem interleavedParse_eq_ok {n : ℕ} {frame : InterleavedFrame} :
    interleavedParse b = .ok n frame ↔
      ∃ channel high low rest, b = dollar :: channel :: high :: low :: rest ∧
        high.toNat * 256 + low.toNat ≤ rest.length ∧ n = 4 + (high.toNat * 256 + low.toNat) ∧
        frame = ⟨channel, rest.take (high.toNat * 256 + low.toNat)⟩ := by
  constructor
  · intro h
    rw [interleavedParse.eq_def] at h
    split at h
    · next mark channel high low rest =>
        dsimp only at h
        split_ifs at h with hmark hlen
        cases h
        rw [not_not] at hmark
        subst hmark
        simp only [length_cons, interleavedHeaderSize, not_lt] at hlen
        exact ⟨channel, high, low, rest, rfl, by omega, rfl, rfl⟩
    · cases h
  · rintro ⟨channel, high, low, rest, rfl, hlen, rfl, rfl⟩
    rw [interleavedParse, if_neg (by simp), if_neg]
    · rfl
    · simp only [length_cons, interleavedHeaderSize]
      omega

theorem interleavedParse_eq_error :
    interleavedParse b = .error ↔
      ∃ mark channel high low rest, b = mark :: channel :: high :: low :: rest ∧ mark ≠ dollar := by
  constructor
  · intro h
    rw [interleavedParse.eq_def] at h
    split at h
    · next mark channel high low rest =>
        dsimp only at h
        split_ifs at h with hmark
        exact ⟨mark, channel, high, low, rest, rfl, hmark⟩
    · cases h
  · rintro ⟨mark, channel, high, low, rest, rfl, hmark⟩
    rw [interleavedParse, if_pos hmark]

theorem interleavedParse_stable :
    Stable interleavedParse where
  fits := by
    intro b n frame h
    obtain ⟨channel, high, low, rest, rfl, hlen, rfl, _⟩ := interleavedParse_eq_ok.mp h
    simp only [length_cons]
    omega
  part := by
    intro b n frame m h hm
    obtain ⟨channel, high, low, rest, rfl, hlen, rfl, _⟩ := interleavedParse_eq_ok.mp h
    cases hpart : interleavedParse ((dollar :: channel :: high :: low :: rest).take m) with
    | incomplete => rfl
    | ok n' frame' =>
      obtain ⟨channel', high', low', rest', hb, hlen', _, _⟩ :=
        interleavedParse_eq_ok.mp hpart
      obtain ⟨t, ht⟩ := take_prefix m (dollar :: channel :: high :: low :: rest)
      have hcut := congrArg List.length hb
      rw [hb] at ht
      cases ht
      rw [length_take] at hcut
      simp only [length_cons] at hcut hlen
      omega
    | error =>
      obtain ⟨mark, channel', high', low', rest', hb, hmark⟩ :=
        interleavedParse_eq_error.mp hpart
      obtain ⟨t, ht⟩ := take_prefix m (dollar :: channel :: high :: low :: rest)
      rw [hb] at ht
      cases ht
      exact absurd rfl hmark
  longer := by
    intro b n frame h c
    obtain ⟨channel, high, low, rest, rfl, hlen, rfl, rfl⟩ := interleavedParse_eq_ok.mp h
    refine interleavedParse_eq_ok.mpr ⟨channel, high, low, rest ++ c, rfl, ?_, rfl, ?_⟩
    · rw [length_append]
      omega
    · rw [take_append_of_le_length hlen]
  failed := by
    intro b h c
    obtain ⟨mark, channel, high, low, rest, rfl, hmark⟩ := interleavedParse_eq_error.mp h
    exact interleavedParse_eq_error.mpr ⟨mark, channel, high, low, rest ++ c, rfl, hmark⟩

theorem parseMessage_nil : parseMessage [] = .incomplete := by
  decide

theorem parseUnit_stable : Stable parseUnit :=
  Stable.choose (interleavedParse_stable.map _) (parseMessage_stable.1.map _)
    (by rw [parseMessage_nil]; rfl)

theorem parseUnit_progress : Progress parseUnit := by
  intro b n received h
  rw [parseUnit] at h
  split_ifs at h
  · obtain ⟨frame, hframe, _⟩ := map_eq_ok.mp h
    obtain ⟨_, _, _, _, _, _, rfl, _⟩ := interleavedParse_eq_ok.mp hframe
    omega
  · obtain ⟨message, hmsg, _⟩ := map_eq_ok.mp h
    exact parseMessage_stable.2 b n message hmsg

theorem head_any_dollar : b.head?.any (· == dollar) = true ↔ b.head? = some dollar := by
  cases b with
  | nil => simp
  | cons x xs => simp

end Units

section Dispatch

variable {server : RtspServer} {s s' : ServerSession} {received : Received}
variable {calls : List Received} {us vs : List Received} {b : List UInt8} {n : ℕ}

/-- The handlers answer zero, and the send queue admits everything. -/
structure RtspServer.Obliging (server : RtspServer) : Prop where
  request : ∀ method handler, server.onRequest method = some handler →
    ∀ calls message response, (handler calls message response).1 = 0
  frame : ∀ handler, server.onInterleavedFrame = some handler → ∀ calls frame,
    handler calls frame = 0
  admits : ∀ sent data, server.admits sent data = true

def handled (server : RtspServer) : Received → Bool
  | .frame _ => server.onInterleavedFrame.isSome
  | .message message => (server.onRequest message.request.method).isSome

/-- The calls of the handlers, with this one. -/
def callsWith (server : RtspServer) (calls : List Received) (received : Received) :
    List Received :=
  if handled server received then calls ++ [received] else calls

/-- The response to a request, where the handler answers zero. -/
def responseFor (server : RtspServer) (calls : List Received) (message : RtspMessage) :
    RtspResponse :=
  match server.onRequest message.request.method with
  | none => initResponse server message.request
  | some handler => (handler calls message (initResponse server message.request)).2

def answers (server : RtspServer) (calls : List Received) : Received → Bool
  | .frame _ => true
  | .message message =>
    decide (0 ≤ (formatResponse (fun _ => 0) responseBufferSize
      (UInt32.ofNat message.request.cseq) (some server.serverName)
      (responseFor server calls message)).2)

/-- The calls for messages one after the other, up to a response that does not fit. -/
def served (server : RtspServer) : List Received → List Received → List Received × Bool
  | calls, [] => (calls, true)
  | calls, received :: us =>
    if answers server calls received then served server (callsWith server calls received) us
    else (callsWith server calls received, false)

theorem served_append (calls us vs : List Received) :
    served server calls (us ++ vs) =
      if (served server calls us).2 then served server (served server calls us).1 vs
      else served server calls us := by
  induction us generalizing calls with
  | nil => rfl
  | cons received us ih =>
    rw [cons_append, served, served]
    by_cases h : answers server calls received = true
    · rw [if_pos h, if_pos h]
      exact ih _
    · rw [if_neg h, if_neg h]
      rfl

theorem served_prefix (calls us : List Received) :
    (served server calls us).1 <+: calls ++ us.filter (handled server) := by
  induction us generalizing calls with
  | nil =>
    rw [filter_nil, append_nil]
    exact prefix_rfl
  | cons received us ih =>
    have hcalls : callsWith server calls received ++ us.filter (handled server) =
        calls ++ (received :: us).filter (handled server) := by
      rw [callsWith, filter_cons]
      split_ifs
      · rw [append_assoc]
        rfl
      · rfl
    rw [served]
    split_ifs
    · rw [← hcalls]
      exact ih _
    · rw [← hcalls]
      exact prefix_append _ _

/-- Nothing changed but the calls and the responses. -/
structure SameInput (s s' : ServerSession) : Prop where
  active : s'.active = s.active
  closeAfterFlush : s'.closeAfterFlush = s.closeAfterFlush
  pending : s'.pending = s.pending
  pendingCap : s'.pendingCap = s.pendingCap

theorem SameInput.refl (s : ServerSession) : SameInput s s :=
  ⟨rfl, rfl, rfl, rfl⟩

theorem writeResponse_spec (hserver : server.Obliging) (hact : s.active = true) (cseq : UInt32)
    (response : RtspResponse) :
    SameInput s (writeResponse server s cseq response).1 ∧
      (writeResponse server s cseq response).1.calls = s.calls ∧
      (writeResponse server s cseq response).2 =
        decide (0 ≤ (formatResponse (fun _ => 0) responseBufferSize cseq
          (some server.serverName) response).2) := by
  rw [writeResponse, hact, hserver.admits]
  by_cases h : (formatResponse (fun _ => 0) responseBufferSize cseq (some server.serverName)
      response).2 < 0
  · rw [if_pos (Or.inr (Or.inl h))]
    exact ⟨SameInput.refl s, rfl, (decide_eq_false (not_le.mpr h)).symm⟩
  · rw [if_neg (by simp [h])]
    exact ⟨⟨hact.symm, rfl, rfl, rfl⟩, rfl, (decide_eq_true (not_lt.mp h)).symm⟩

def dispatch (server : RtspServer) (s : ServerSession) : Received → ServerSession × Bool
  | .frame frame => dispatchFrame server s frame
  | .message message => dispatchMessage server s message

theorem dispatch_spec (hserver : server.Obliging) (hact : s.active = true) (received : Received) :
    SameInput s (dispatch server s received).1 ∧
      (dispatch server s received).1.calls = callsWith server s.calls received ∧
      (dispatch server s received).2 = answers server s.calls received := by
  cases received with
  | frame frame =>
    rw [dispatch, dispatchFrame, callsWith, handled]
    cases hhandler : server.onInterleavedFrame with
    | none => exact ⟨SameInput.refl s, rfl, rfl⟩
    | some handler =>
      refine ⟨⟨rfl, rfl, rfl, rfl⟩, rfl, ?_⟩
      exact decide_eq_true (hserver.frame handler hhandler s.calls frame)
  | message message =>
    rw [dispatch, dispatchMessage, callsWith, handled, answers, responseFor]
    cases hhandler : server.onRequest message.request.method with
    | none => exact writeResponse_spec hserver hact _ _
    | some handler =>
      dsimp only
      rw [if_neg (not_not.mpr (hserver.request _ handler hhandler s.calls message _))]
      obtain ⟨hsame, hcalls, hok⟩ := writeResponse_spec (s :=
        { s with calls := s.calls ++ [.message message] }) hserver hact
        (UInt32.ofNat message.request.cseq)
        (handler s.calls message (initResponse server message.request)).2
      exact ⟨⟨hsame.active, hsame.closeAfterFlush, hsame.pending, hsame.pendingCap⟩, hcalls, hok⟩

theorem parseOne_incomplete (h : parseUnit b = .incomplete) : parseOne server s b = (s, 1, 0) := by
  rw [parseUnit] at h
  rw [parseOne]
  split_ifs at h with hdollar
  · rw [if_pos (head_any_dollar.mp hdollar), map_eq_incomplete.mp h]
  · rw [if_neg (fun hin => hdollar (head_any_dollar.mpr hin)), map_eq_incomplete.mp h]

theorem parseOne_error (hserver : server.Obliging) (hact : s.active = true)
    (h : parseUnit b = .error) :
    ∃ s', parseOne server s b = (s', -1, 0) ∧ SameInput s s' ∧ s'.calls = s.calls := by
  rw [parseUnit] at h
  rw [parseOne]
  split_ifs at h with hdollar
  · rw [if_pos (head_any_dollar.mp hdollar), map_eq_error.mp h]
    exact ⟨s, rfl, SameInput.refl s, rfl⟩
  · rw [if_neg (fun hin => hdollar (head_any_dollar.mpr hin)), map_eq_error.mp h]
    obtain ⟨hsame, hcalls, _⟩ := writeResponse_spec hserver hact 0
      { RtspResponse.zero with
        statusCode := 400
        reason := some (text "Bad Request")
        contentType := some (text "text/plain")
        body := some malformedBody }
    exact ⟨_, rfl, hsame, hcalls⟩

theorem parseOne_ok (h : parseUnit b = .ok n received) :
    parseOne server s b = ((dispatch server s received).1,
      if (dispatch server s received).2 then 0 else -1, n) := by
  rw [parseUnit] at h
  rw [parseOne]
  split_ifs at h with hdollar
  · obtain ⟨frame, hframe, rfl⟩ := map_eq_ok.mp h
    rw [if_pos (head_any_dollar.mp hdollar), hframe]
    rfl
  · obtain ⟨message, hmsg, rfl⟩ := map_eq_ok.mp h
    rw [if_neg (fun hin => hdollar (head_any_dollar.mpr hin)), hmsg]
    rfl

end Dispatch

section Append

variable {server : RtspServer} {s : ServerSession} {fuel offset : ℕ}

/-- What a call leaves behind: it has consumed what it found, or nothing, and then the session
is to be closed. -/
structure Parsed (server : RtspServer) (s : ServerSession) (b : List UInt8)
    (result : ServerSession × ℤ) : Prop where
  active : result.1.active = true
  pendingCap : result.1.pendingCap = s.pendingCap
  calls : result.1.calls = (served server s.calls (frames parseUnit b).1).1
  rest : ((served server s.calls (frames parseUnit b).1).2 = true ∧
      parseUnit (frames parseUnit b).2 = .incomplete ∧ result.2 = 0 ∧
      result.1.pending = (frames parseUnit b).2) ∨
    (((served server s.calls (frames parseUnit b).1).2 = false ∨
        parseUnit (frames parseUnit b).2 = .error) ∧ result.2 = -1 ∧
      result.1.pending = s.pending ∧ result.1.closeAfterFlush = true)

theorem parseUnit_nil : parseUnit [] = .incomplete := by
  rw [parseUnit, if_neg (by simp), parseMessage_nil]
  rfl

theorem parsePending_spec (hserver : server.Obliging) (hact : s.active = true)
    (hoffset : offset ≤ s.pending.length) (hfuel : s.pending.length - offset < fuel) :
    Parsed server s (s.pending.drop offset) (parsePending server fuel s offset) := by
  induction fuel generalizing s offset with
  | zero => omega
  | succ fuel ih =>
    rw [parsePending]
    by_cases hmore : offset < s.pending.length
    · rw [if_pos hmore]
      cases hunit : parseUnit (s.pending.drop offset) with
      | incomplete =>
        have hfrs : frames parseUnit (s.pending.drop offset) = ([], s.pending.drop offset) :=
          frames_stuck (fun n received hok => by rw [hunit] at hok; cases hok)
        rw [parseOne_incomplete hunit]
        refine ⟨hact, rfl, ?_, Or.inl ?_⟩
        · rw [hfrs]
          rfl
        · rw [hfrs]
          exact ⟨rfl, hunit, rfl, rfl⟩
      | error =>
        have hfrs : frames parseUnit (s.pending.drop offset) = ([], s.pending.drop offset) :=
          frames_stuck (fun n received hok => by rw [hunit] at hok; cases hok)
        obtain ⟨s', hone, hsame, hcalls⟩ := parseOne_error hserver hact hunit
        rw [hone]
        refine ⟨hsame.active.trans hact, hsame.pendingCap, ?_, Or.inr ?_⟩
        · rw [hfrs]
          exact hcalls
        · rw [hfrs]
          exact ⟨Or.inr hunit, rfl, hsame.pending, rfl⟩
      | ok n received =>
        have hpos := parseUnit_progress _ _ _ hunit
        have hfits := parseUnit_stable.fits hunit
        rw [length_drop] at hfits
        have hfrs := frames_ok parseUnit_stable parseUnit_progress hunit
        rw [drop_drop] at hfrs
        obtain ⟨hsame, hcalls, hok⟩ := dispatch_spec hserver hact received
        rw [parseOne_ok hunit]
        dsimp only
        cases hanswers : answers server s.calls received with
        | true =>
          have hserved : served server s.calls (frames parseUnit (s.pending.drop offset)).1 =
              served server (dispatch server s received).1.calls
                (frames parseUnit (s.pending.drop (offset + n))).1 := by
            rw [hfrs, served, if_pos hanswers, hcalls]
          have hrest : (frames parseUnit (s.pending.drop offset)).2 =
              (frames parseUnit (s.pending.drop (offset + n))).2 := by
            rw [hfrs]
          have hstat : (if (dispatch server s received).2 then (0 : ℤ) else -1) = 0 := by
            rw [hok, hanswers]
            rfl
          have hloop : Parsed server (dispatch server s received).1
              ((dispatch server s received).1.pending.drop (offset + n))
              (parsePending server fuel (dispatch server s received).1 (offset + n)) :=
            ih (hsame.active.trans hact) (by rw [hsame.pending]; omega)
              (by rw [hsame.pending]; omega)
          rw [hstat, if_neg (by omega), if_neg (by omega)]
          rw [hsame.pending] at hloop
          refine ⟨hloop.active, hloop.pendingCap.trans hsame.pendingCap, ?_, ?_⟩
          · rw [hserved]
            exact hloop.calls
          · have hlast := hloop.rest
            rw [hsame.pending] at hlast
            rw [hserved, hrest]
            exact hlast
        | false =>
          have hserved : served server s.calls (frames parseUnit (s.pending.drop offset)).1 =
              (callsWith server s.calls received, false) := by
            rw [hfrs, served, if_neg (by rw [hanswers]; simp)]
          have hstat : (if (dispatch server s received).2 then (0 : ℤ) else -1) = -1 := by
            rw [hok, hanswers]
            rfl
          rw [hstat, if_neg (by omega), if_pos (Or.inl (by omega))]
          refine ⟨hsame.active.trans hact, hsame.pendingCap, ?_, Or.inr ?_⟩
          · rw [hserved]
            exact hcalls
          · rw [hserved]
            exact ⟨Or.inl rfl, rfl, hsame.pending, rfl⟩
    · have hend : s.pending.drop offset = [] := drop_eq_nil_of_le (not_lt.mp hmore)
      have hfrs : frames parseUnit ([] : List UInt8) = ([], []) := rfl
      rw [if_neg hmore, hend]
      refine ⟨hact, rfl, ?_, Or.inl ?_⟩
      · rw [hfrs]
        rfl
      · rw [hfrs]
        exact ⟨rfl, parseUnit_nil, rfl, rfl⟩

theorem growCapacity_some {pendingLen size capacity : ℕ}
    (hsize : pendingLen + size ≤ maxPendingBytes) (hpos : 0 < capacity)
    (hlow : pendingLen ≤ capacity) (hhigh : capacity ≤ maxPendingBytes)
    (hfuel : maxPendingBytes - capacity < fuel) :
    ∃ grown, growCapacity pendingLen size fuel capacity = some grown ∧
      pendingLen + size ≤ grown ∧ grown ≤ maxPendingBytes := by
  induction fuel generalizing capacity with
  | zero => omega
  | succ fuel ih =>
    rw [growCapacity]
    split_ifs with hshort hfull hhalf
    · omega
    · exact ih (by omega) (by omega) le_rfl (by omega)
    · exact ih (by omega) (by omega) (by omega) (by omega)
    · exact ⟨capacity, rfl, by omega, hhigh⟩

/-- The pending bytes are within the capacity, and this within its limit. -/
structure Roomy (s : ServerSession) : Prop where
  active : s.active = true
  low : s.pending.length ≤ s.pendingCap
  high : s.pendingCap ≤ maxPendingBytes

theorem capacityFor_some {size : ℕ} (h : Roomy s)
    (hsize : s.pending.length + size ≤ maxPendingBytes) :
    ∃ grown, capacityFor s size = some grown ∧ s.pending.length + size ≤ grown ∧
      grown ≤ maxPendingBytes := by
  have hmax : maxPendingBytes = 65539 := rfl
  have hlow := h.low
  have hhigh := h.high
  rw [capacityFor]
  split_ifs with hshort hcap
  · exact growCapacity_some hsize (Nat.pos_of_ne_zero hcap) hlow hhigh (by omega)
  · rw [not_not] at hcap
    exact growCapacity_some hsize (by omega) (by omega) (by omega) (by omega)
  · exact ⟨s.pendingCap, rfl, by omega, hhigh⟩

/-- The bytes that are pending have not been dispatched: the session is not to be closed, or
what it was closed for stands at their beginning. -/
def Undispatched (s : ServerSession) : Prop :=
  s.closeAfterFlush = false ∨ parseUnit s.pending = .error

/-- The chunk fits behind the pending bytes, and none of these has been dispatched. -/
def Admissible (s : ServerSession) (chunk : List UInt8) : Prop :=
  chunk.length ≤ maxPendingBytes - s.pending.length ∧ Undispatched s

/-- A session that has been given this stream. -/
structure Serving (server : RtspServer) (stream : List UInt8) (s : ServerSession) : Prop where
  roomy : Roomy s
  calls : s.calls = (served server [] (frames parseUnit stream).1).1
  pending : Undispatched s → s.pending = (frames parseUnit stream).2 ∧
    (served server [] (frames parseUnit stream).1).2 = true

theorem sessionAppend_spec {chunk : List UInt8} (hserver : server.Obliging) (hroomy : Roomy s)
    (hchunk : chunk ≠ []) (hfits : chunk.length ≤ maxPendingBytes - s.pending.length) :
    ∃ grown, (s.pending ++ chunk).length ≤ grown ∧ grown ≤ maxPendingBytes ∧
      Parsed server { s with pending := s.pending ++ chunk, pendingCap := grown }
        (s.pending ++ chunk) (sessionAppend server s chunk) := by
  have hlow := hroomy.low
  have hhigh := hroomy.high
  obtain ⟨grown, hgrown, hle, hmax⟩ : ∃ grown, capacityFor s chunk.length = some grown ∧
      s.pending.length + chunk.length ≤ grown ∧ grown ≤ maxPendingBytes :=
    capacityFor_some hroomy (by omega)
  refine ⟨grown, by rw [length_append]; exact hle, hmax, ?_⟩
  rw [sessionAppend, hgrown, if_neg]
  · exact parsePending_spec (s := { s with pending := s.pending ++ chunk, pendingCap := grown })
      hserver hroomy.active (Nat.zero_le _) (Nat.lt_succ_self _)
  · simp only [hroomy.active, hchunk, not_or, not_lt, gt_iff_lt]
    exact ⟨by simp, not_false, hfits⟩

theorem Serving.append {stream chunk : List UInt8} (hserver : server.Obliging)
    (h : Serving server stream s) (hchunk : chunk ≠ []) (hadm : Admissible s chunk) :
    Serving server (stream ++ chunk) (sessionAppend server s chunk).1 := by
  obtain ⟨hfits, hundispatched⟩ := hadm
  obtain ⟨hpend, hok⟩ := h.pending hundispatched
  obtain ⟨grown, hgrown, hmax, hparsed⟩ := sessionAppend_spec hserver h.roomy hchunk hfits
  have hfrs := frames_append parseUnit_stable parseUnit_progress stream chunk
  rw [← hpend] at hfrs
  have hserved : served server [] (frames parseUnit (stream ++ chunk)).1 =
      served server s.calls (frames parseUnit (s.pending ++ chunk)).1 := by
    rw [hfrs, served_append, if_pos hok, ← h.calls]
  have hlen : (frames parseUnit (s.pending ++ chunk)).2.length ≤ (s.pending ++ chunk).length :=
    frames_left_length parseUnit_stable parseUnit_progress _
  refine ⟨⟨hparsed.active, ?_, ?_⟩, ?_, ?_⟩
  · rw [hparsed.pendingCap]
    rcases hparsed.rest with ⟨_, _, _, hleft⟩ | ⟨_, _, hleft, _⟩
    · rw [hleft]
      exact hlen.trans hgrown
    · rw [hleft]
      exact hgrown
  · rw [hparsed.pendingCap]
    exact hmax
  · rw [hserved]
    exact hparsed.calls
  · intro hnext
    rw [hserved, hfrs]
    rcases hparsed.rest with ⟨hall, _, _, hleft⟩ | ⟨_, _, hleft, hclose⟩
    · exact ⟨hleft, hall⟩
    · have herr : parseUnit (s.pending ++ chunk) = .error := by
        rcases hnext with hopen | herr
        · rw [hclose] at hopen
          cases hopen
        · rw [hleft] at herr
          exact herr
      have hstuck : frames parseUnit (s.pending ++ chunk) = ([], s.pending ++ chunk) :=
        frames_stuck (fun n received hunit => by rw [herr] at hunit; cases hunit)
      rw [hstuck]
      exact ⟨hleft, rfl⟩

end Append

variable {server : RtspServer} {s : ServerSession} {chunks : List (List UInt8)}

def serverMachine (server : RtspServer) : Machine ServerSession (List UInt8) ℤ where
  step := sessionAppend server

def afterChunks (server : RtspServer) (chunks : List (List UInt8)) : ServerSession :=
  (serverMachine server).run ServerSession.initial chunks

/-- What a stream is dispatched as, message by message. -/
def expectedCalls (server : RtspServer) (stream : List UInt8) : List Received :=
  (frames parseUnit stream).1.filter (handled server)

/-- No chunk is empty, and none is longer than what may be pending. -/
def Chunked (chunks : List (List UInt8)) : Prop :=
  ∀ chunk ∈ chunks, chunk ≠ [] ∧ chunk.length ≤ maxPendingBytes

theorem serving_run {stream : List UInt8} (hserver : server.Obliging) (h : Serving server stream s)
    (hchunks : Chunked chunks) (hadm : (serverMachine server).Along Admissible s chunks) :
    Serving server (stream ++ chunks.flatten) ((serverMachine server).run s chunks) := by
  induction chunks generalizing s stream with
  | nil =>
    rw [flatten_nil, append_nil]
    exact h
  | cons chunk chunks ih =>
    obtain ⟨hchunk, hrest⟩ := forall_mem_cons.mp hchunks
    have hnext := h.append hserver hchunk.1 hadm.1
    rw [flatten_cons, ← append_assoc]
    exact ih hnext hrest hadm.2

theorem serving_initial (server : RtspServer) : Serving server [] ServerSession.initial :=
  ⟨⟨rfl, le_rfl, Nat.zero_le _⟩, rfl, fun _ => ⟨rfl, rfl⟩⟩

theorem afterChunks_calls (hserver : server.Obliging) (hchunks : Chunked chunks)
    (hadm : (serverMachine server).Along Admissible ServerSession.initial chunks) :
    (afterChunks server chunks).calls = (served server [] (frames parseUnit chunks.flatten).1).1 :=
  (serving_run hserver (serving_initial server) hchunks hadm).calls

/-- **Chunks do not matter.**  Where every chunk fits and nothing that was dispatched is left
pending, a session dispatches what its stream begins with, each message once, and does the same
for every other such cutting. -/
theorem chunks_dispatched (hserver : server.Obliging) (hchunks : Chunked chunks)
    (hadmissible : (serverMachine server).Along Admissible ServerSession.initial chunks) :
    (afterChunks server chunks).calls <+: expectedCalls server chunks.flatten ∧
      ∀ other, other.flatten = chunks.flatten → Chunked other →
        (serverMachine server).Along Admissible ServerSession.initial other →
        (afterChunks server other).calls = (afterChunks server chunks).calls := by
  have hcalls := afterChunks_calls hserver hchunks hadmissible
  constructor
  · rw [hcalls]
    exact served_prefix [] _
  · intro other hsame hchunked hother
    rw [hcalls, afterChunks_calls hserver hchunked hother, hsame]

instance (s : ServerSession) (chunk : List UInt8) : Decidable (Admissible s chunk) :=
  inferInstanceAs (Decidable (_ ∧ (_ ∨ _)))

/-- A server whose handlers leave the response as it is. -/
def plainServer : RtspServer :=
  ⟨text "turbo", text "OPTIONS", fun _ => some (fun _ _ response => (0, response)),
    some (fun _ _ => 0), fun _ _ => true⟩

theorem plainServer_obliging : plainServer.Obliging := by
  refine ⟨?_, ?_, fun _ _ => rfl⟩
  · intro method handler h calls message response
    cases h
    rfl
  · intro handler h calls frame
    cases h
    rfl

/-- A request that comes in two chunks, with a frame behind it. -/
theorem chunks_dispatched_sample :
    (afterChunks plainServer [text "OPTIONS * RTSP/1.0\r\nCS",
        text "eq: 1\r\n\r\n" ++ [dollar, 0, 0, 1, 7]]).calls <+:
      expectedCalls plainServer [text "OPTIONS * RTSP/1.0\r\nCS",
        text "eq: 1\r\n\r\n" ++ [dollar, 0, 0, 1, 7]].flatten := by
  refine (chunks_dispatched plainServer_obliging ?_ ?_).1
  · intro chunk hin
    revert chunk
    decide
  · refine ⟨?_, ?_, trivial⟩
    · decide +kernel
    · decide +kernel

/-- What was dispatched before a malformed request is dispatched again with the next chunk. -/
theorem dispatched_twice :
    ¬∀ server : RtspServer, server.Obliging → ∀ chunks, Chunked chunks →
      (afterChunks server chunks).calls <+: expectedCalls server chunks.flatten := by
  intro h
  have hprefix := h plainServer plainServer_obliging
    [text "OPTIONS * RTSP/1.0\r\n\r\n" ++ text "X\r\n\r\n", text "Y"]
    (by intro chunk hin; revert chunk; decide)
  have htwice : (afterChunks plainServer
      [text "OPTIONS * RTSP/1.0\r\n\r\n" ++ text "X\r\n\r\n", text "Y"]).calls.length = 2 := by
    decide +kernel
  have honce : (expectedCalls plainServer
      [text "OPTIONS * RTSP/1.0\r\n\r\n" ++ text "X\r\n\r\n", text "Y"].flatten).length = 1 := by
    decide +kernel
  have hle := hprefix.length_le
  omega

end TurboMedia.Rtsp
