import TurboMedia.Rtsp.Response

/-!
# Framing of requests and responses

**Input.**  Any buffer.

**Method.**  Both parsers look for the first empty line and read the block before it; whatever
they read there, they are delimited parsers, and these are stable.
-/

namespace TurboMedia.Rtsp

open Framing

open Framing (Outcome Stable Progress)

/-- What a request is made of, once its header block is read. -/
def messageOf (ctx : ParseCtx) (body : List UInt8) : RtspMessage :=
  ⟨ctx.request, ctx.headers, body⟩

def responseOf (head : ℕ × List UInt8 × List HeaderView × Option ℕ) (body : List UInt8) :
    ResponseView :=
  ⟨head.1, head.2.1, head.2.2.1, body⟩

theorem parseMessage_eq (buffer : List UInt8) :
    parseMessage buffer = delimited blankLine
      (fun block => (parseBlock block).map (fun ctx => (ctx.contentLength.getD 0, ctx)))
      messageOf buffer := by
  rw [parseMessage, findHeaderEnd, delimited]
  cases findMark blankLine buffer with
  | none => rfl
  | some i =>
    dsimp only [Option.map_some]
    cases hblock : parseBlock (buffer.take (i + 4)) with
    | none | some ctx =>
      rw [show blankLine.length = 4 from rfl, hblock]
      rfl

theorem parseResponse_eq (buffer : List UInt8) :
    parseResponse buffer = delimited blankLine
      (fun block => (responseBlock block).map (fun head => (head.2.2.2.getD 0, head)))
      responseOf buffer := by
  rw [parseResponse, findHeaderEnd, delimited]
  cases findMark blankLine buffer with
  | none => rfl
  | some i =>
    dsimp only [Option.map_some]
    cases hblock : responseBlock (buffer.take (i + 4)) with
    | none | some head =>
      rw [show blankLine.length = 4 from rfl, hblock]
      rfl

theorem delimited_progress {α γ : Type} (read : List UInt8 → Option (ℕ × γ))
    (make : γ → List UInt8 → α) : Progress (delimited blankLine read make) := by
  intro b n a h
  obtain ⟨i, size, head, _, _, _, rfl, _⟩ := delimited_eq_ok.mp h
  rw [show blankLine.length = 4 from rfl]
  omega

theorem parseMessage_stable : Stable parseMessage ∧ Progress parseMessage := by
  rw [funext parseMessage_eq]
  exact ⟨delimited_stable (by decide), delimited_progress _ _⟩

theorem parseResponse_stable : Stable parseResponse ∧ Progress parseResponse := by
  rw [funext parseResponse_eq]
  exact ⟨delimited_stable (by decide), delimited_progress _ _⟩

/-- The outcome depends on the message alone, and messages one after the other are found
again. -/
def Frames {α : Type} (parse : List UInt8 → Outcome α) : Prop :=
  Stable parse ∧
    ∀ messages : List (List UInt8 × α), (∀ m ∈ messages, parse m.1 = .ok m.1.length m.2) →
      frames parse (messages.map Prod.fst).flatten = (messages.map Prod.snd, [])

/-- **Framing is stable.**  For both parsers, what is behind a message does not matter, a part
of it is not enough, an error stays an error, and a stream of messages is cut where they
end. -/
theorem parsers_prefix_stable : Frames parseMessage ∧ Frames parseResponse := by
  obtain ⟨hmessage, hmessages⟩ := parseMessage_stable
  obtain ⟨hresponse, hresponses⟩ := parseResponse_stable
  exact ⟨⟨hmessage, fun _ h => frames_flatten hmessage hmessages h⟩,
    hresponse, fun _ h => frames_flatten hresponse hresponses h⟩

end TurboMedia.Rtsp
