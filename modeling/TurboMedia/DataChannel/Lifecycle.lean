import TurboMedia.DataChannel.ChannelTable

/-!
# The history of a channel

The order in which the callbacks of a channel are made, its opening, its close and the
release of its record.

**Input.**  The steps that the calls of a peer are made of, in any state that is reached.

**Method.**  `Follows past e` says when the event `e` may come after `past`; a log is `LawfulLog`
if each of its events follows those before it.  `History` ties the log to the records and to
the stack: what a record says of itself is what the log says of it, and the callbacks that
have started and not returned are the frames.
-/

namespace TurboMedia.DataChannel

open List Event Peer

section Law

def Event.handle? : Event → Option ℕ
  | .created h _ => some h
  | .openSent h => some h
  | .ackArrived _ => none
  | .reserved h _ => some h
  | .ackAccepted h => some h
  | .ackRefused h => some h
  | .opens h => some h
  | .messageSent h => some h
  | .streamReset _ h => some h
  | .closing h => some h
  | .started _ h => some h
  | .returned _ h => some h
  | .released h => some h

def Frame.scope : Frame → CallbackKind × ℕ
  | .onChannel h => (.channel, h)
  | .onOpen h => (.opened, h)
  | .onMessage h => (.message, h)
  | .onClose h _ _ _ => (.closed, h)

/-- The channel may be open: it was created here, SCTP has taken its `OPEN` and an `ACK` has
come on its stream after that; or the other side opened it and SCTP has taken its `ACK`. -/
def Caused (past : List Event) (h : ℕ) : Prop :=
  ∃ id, (.created h id ∈ past ∧
    ∃ before after, past = before ++ .ackArrived id :: after ∧ .openSent h ∈ before) ∨
      (.reserved h id ∈ past ∧ .ackAccepted h ∈ past)

def MayStart (past : List Event) (kind : CallbackKind) (h : ℕ) : Prop :=
  .returned .closed h ∉ past ∧ .ackRefused h ∉ past ∧ .released h ∉ past ∧
    match kind with
    | .channel => .started .channel h ∉ past ∧ .closing h ∉ past ∧ .opens h ∈ past ∧ Caused past h
    | .opened => .started .opened h ∉ past ∧ .closing h ∉ past ∧ .opens h ∈ past ∧ Caused past h
    | .message => .opens h ∈ past ∧ .started .closed h ∉ past
    | .closed => .started .closed h ∉ past ∧ .closing h ∈ past

/-- An event may come after `past`. -/
def Follows (past : List Event) : Event → Prop
  | .created h _ => ∀ e ∈ past, e.handle? ≠ some h
  | .reserved h _ => ∀ e ∈ past, e.handle? ≠ some h
  | .opens h => .opens h ∉ past ∧ .closing h ∉ past ∧ Caused past h
  | .closing h => .closing h ∉ past
  | .ackRefused h => ∀ kind, .started kind h ∉ past
  | .started kind h => MayStart past kind h
  | .released h =>
    .released h ∉ past ∧ ∀ kind, past.count (.started kind h) = past.count (.returned kind h)
  | _ => True

/-- Each event may come after those before it. -/
def LawfulLog (log : List Event) : Prop :=
  ∀ past e, past ++ [e] <+: log → Follows past e

variable {log past : List Event} {e : Event} {h : ℕ}

theorem lawfulLog_nil : LawfulLog [] := by
  intro past e hpre
  simp at hpre

theorem LawfulLog.concat (hlaw : LawfulLog log) (hfol : Follows log e) :
    LawfulLog (log ++ [e]) := by
  intro past e' hpre
  rcases prefix_concat_iff.mp hpre with heq | hold
  · obtain ⟨rfl, he⟩ := append_inj' heq rfl
    cases he
    exact hfol
  · exact hlaw past e' hold

theorem Caused.mono (hcaused : Caused past h) (hpre : past <+: log) : Caused log h := by
  obtain ⟨rest, rfl⟩ := hpre
  obtain ⟨id, ⟨hcreated, before, after, rfl, hsent⟩ | ⟨hrsv, hacc⟩⟩ := hcaused
  · exact ⟨id, .inl ⟨mem_append_left _ hcreated, before, after ++ rest, by simp, hsent⟩⟩
  · exact ⟨id, .inr ⟨mem_append_left _ hrsv, mem_append_left _ hacc⟩⟩

theorem LawfulLog.of_mem (hlaw : LawfulLog log) (hmem : e ∈ log) :
    ∃ past, past <+: log ∧ Follows past e := by
  obtain ⟨past, rest, rfl⟩ := append_of_mem hmem
  have hpre : past ++ [e] <+: past ++ e :: rest := ⟨rest, by simp⟩
  exact ⟨past, prefix_append _ _, hlaw past e hpre⟩

theorem LawfulLog.caused (hlaw : LawfulLog log) (hopens : .opens h ∈ log) : Caused log h := by
  obtain ⟨past, hpre, hfol⟩ := hlaw.of_mem hopens
  exact hfol.2.2.mono hpre

theorem LawfulLog.count_le_one (hlaw : LawfulLog log)
    (honce : ∀ past, Follows past e → e ∉ past) : log.count e ≤ 1 := by
  induction log using reverseRecOn with
  | nil => simp
  | append_singleton log e' ih =>
    have hrest : LawfulLog log := fun past e'' hpre =>
      hlaw past e'' (hpre.trans (prefix_append _ _))
    rw [count_append, count_singleton]
    split
    next heq =>
      rw [beq_iff_eq] at heq
      subst heq
      have hnone := honce log (hlaw log e' prefix_rfl)
      rw [count_eq_zero.mpr hnone]
    next => exact ih hrest

def Event.scoped : Event → Bool
  | .started _ _ => true
  | .returned _ _ => true
  | _ => false

theorem count_unscoped (events : List Event) (hnone : ∀ e ∈ events, e.scoped = false)
    (kind : CallbackKind) (h : ℕ) :
    events.count (.started kind h) = 0 ∧ events.count (.returned kind h) = 0 := by
  constructor <;> rw [count_eq_zero] <;> intro hmem <;> cases hnone _ hmem

/-- Events that start and return no callback leave the scopes as they are. -/
theorem scopes_append {events : List Event} {f : CallbackKind → ℕ → ℕ}
    (hold : ∀ kind h, log.count (.started kind h) = log.count (.returned kind h) + f kind h)
    (hnone : ∀ e ∈ events, e.scoped = false) (kind : CallbackKind) (h : ℕ) :
    log.count (.started kind h) + events.count (.started kind h) =
      log.count (.returned kind h) + events.count (.returned kind h) + f kind h := by
  obtain ⟨hstart, hret⟩ := count_unscoped events hnone kind h
  rw [hstart, hret]
  exact hold kind h

end Law

section Data

/-- What the log of a peer has to do with its records and its stack. -/
structure History (p : Peer) : Prop where
  lawful : LawfulLog p.log
  known : ∀ e ∈ p.log, ∀ h, e.handle? = some h → h < p.records.length
  gone : ∀ h, .released h ∈ p.log ↔ h < p.records.length ∧ p.channel? h = none
  born : ∀ h c, p.channel? h = some c → .created h c.id ∈ p.log ∨ .reserved h c.id ∈ p.log
  opens : ∀ h c, p.channel? h = some c → c.isOpen = true →
    .opens h ∈ p.log ∧ c.closing = false
  once : ∀ h c, p.channel? h = some c → .opens h ∈ p.log → c.closing = false → c.isOpen = true
  remote : ∀ h c, p.channel? h = some c → .reserved h c.id ∈ p.log → c.closing = false →
    c.isOpen = true
  sent : ∀ h c, p.channel? h = some c → c.dcepSent = true → .openSent h ∈ p.log
  closes : ∀ h c, p.channel? h = some c → (c.closing = true ↔ .closing h ∈ p.log)
  refused : ∀ h, .ackRefused h ∈ p.log → p.channel? h = none
  scopes : ∀ kind h, p.log.count (.started kind h) =
    p.log.count (.returned kind h) + (p.stack.map Frame.scope).count (kind, h)
  pending : ∀ h, .onChannel h ∈ p.stack → .started .opened h ∉ p.log ∧ .opens h ∈ p.log

variable {p q : Peer} {h : ℕ} {c : Channel}

theorem history_create (isDtlsServer sctpDisabled : Bool) :
    History (.create isDtlsServer sctpDisabled) := by
  constructor <;> simp [create, channel?, lawfulLog_nil]

theorem History.of_records (hhist : History p) (hlog : q.log = p.log)
    (hstack : q.stack = p.stack) (hlen : q.records.length = p.records.length)
    (hnone : ∀ h, q.channel? h = none ↔ p.channel? h = none)
    (hrecords : ∀ h c', q.channel? h = some c' → ∃ c, p.channel? h = some c ∧
      c'.id = c.id ∧ c'.isOpen = c.isOpen ∧ c'.closing = c.closing ∧ c'.dcepSent = c.dcepSent) :
    History q := by
  obtain ⟨h1, h2, h3, h4, h5, h6, h7, h8, h9, h10, h11, h12⟩ := hhist
  constructor <;> simp only [hlog, hstack, hlen, hnone] <;> grind

theorem History.setFields {c' : Channel} (hhist : History p) (hc : p.channel? h = some c)
    (hsame : c'.id = c.id ∧ c'.isOpen = c.isOpen ∧ c'.closing = c.closing ∧
      c'.dcepSent = c.dcepSent) : History (p.setChannel h c') := by
  have hlook := fun h' => @channel?_setChannel p _ h' c' (channel?_lt hc)
  refine hhist.of_records rfl rfl (by simp [setChannel]) ?_ ?_ <;>
    intro h' <;> rw [hlook] <;> grind

/-- Events that neither records nor frames tell of. -/
def Event.quiet : Event → Bool
  | .openSent _ => true
  | .ackArrived _ => true
  | .ackAccepted _ => true
  | .messageSent _ => true
  | .streamReset _ _ => true
  | _ => false

theorem History.note_quiet (hhist : History p) (hquiet : e.quiet = true)
    (hknown : ∀ h, e.handle? = some h → h < p.records.length) : History (p.note [e]) := by
  have hfol : Follows p.log e := by
    cases e <;> trivial
  have hlook : ∀ h, (p.note [e]).channel? h = p.channel? h := fun _ => rfl
  have hlog : (p.note [e]).log = p.log ++ [e] := rfl
  have hstack : (p.note [e]).stack = p.stack := rfl
  have hlen : (p.note [e]).records.length = p.records.length := rfl
  have hcount := count_unscoped [e] (by
    rintro e' hmem
    rw [mem_singleton.mp hmem]
    cases e <;> first | rfl | cases hquiet)
  obtain ⟨h1, h2, h3, h4, h5, h6, h7, h8, h9, h10, h11, h12⟩ := hhist
  constructor <;>
    simp [hlook, hlog, hstack, hlen, (hcount _ _).1, (hcount _ _).2]
  case lawful => exact h1.concat hfol
  all_goals grind [quiet]

end Data

section Steps

variable {p : Peer} {held : List ℕ} {h : ℕ} {c : Channel}

variable (hhist : History p)
include hhist

theorem History.opening (hc : p.channel? h = some c)
    (hclos : c.closing = false) (hopen : c.isOpen = false) (hcaused : Caused p.log h) :
    History ((p.setChannel h { c with isOpen := true }).note [.opens h]) := by
  obtain ⟨c', hc'⟩ : ∃ c', c' = { c with isOpen := true } := ⟨_, rfl⟩
  have hsame : c'.id = c.id ∧ c'.isOpen = true ∧ c'.closing = c.closing ∧
      c'.dcepSent = c.dcepSent := by
    subst hc'
    exact ⟨rfl, rfl, rfl, rfl⟩
  rw [← hc']
  have hlt := channel?_lt hc
  obtain ⟨q, hq, hlook, hlog, hstack, hlen⟩ : ∃ q : Peer,
      q = (p.setChannel h c').note [.opens h] ∧
      (∀ h', q.channel? h' = if h' = h then some c' else p.channel? h') ∧
      q.log = p.log ++ [.opens h] ∧ q.stack = p.stack ∧ q.records.length = p.records.length :=
    ⟨_, rfl, fun _ => channel?_setChannel hlt, rfl, rfl, length_set⟩
  have hnew : .opens h ∉ p.log := fun hmem => by
    have := hhist.once h c hc hmem hclos
    rw [hopen] at this
    cases this
  have hnever : .closing h ∉ p.log := fun hmem => by
    have := (hhist.closes h c hc).mpr hmem
    rw [hclos] at this
    cases this
  rw [← hq]
  obtain ⟨h1, h2, h3, h4, h5, h6, h7, h8, h9, h10, h11, h12⟩ := hhist
  constructor <;>
    simp only [hlook, hlog, hstack, hlen, mem_append, mem_singleton, count_append]
  case lawful => exact h1.concat ⟨hnew, hnever, hcaused⟩
  case scopes => exact scopes_append h11 (by simp [Event.scoped])
  all_goals grind [Event.handle?]

theorem History.start {kind : CallbackKind} {frame : Frame}
    (hlt : h < p.records.length) (hscope : frame.scope = (kind, h)) (hmay : MayStart p.log kind h)
    (hchannel : kind = .channel → .started .opened h ∉ p.log ∧ .opens h ∈ p.log)
    (hopened : kind = .opened → .onChannel h ∉ p.stack) : History (p.start kind h frame) := by
  have hlook : ∀ h', (p.start kind h frame).channel? h' = p.channel? h' := fun _ => rfl
  have hlog : (p.start kind h frame).log = p.log ++ [.started kind h] := rfl
  have hstack : (p.start kind h frame).stack = frame :: p.stack := rfl
  have hlen : (p.start kind h frame).records.length = p.records.length := rfl
  obtain ⟨h1, h2, h3, h4, h5, h6, h7, h8, h9, h10, h11, h12⟩ := hhist
  constructor <;>
    simp only [hlook, hlog, hstack, hlen, mem_append, mem_singleton, count_append]
  case lawful => exact h1.concat hmay
  case scopes =>
    intro kind' h'
    rw [count_eq_zero.mpr (show .returned kind' h' ∉ [started kind h] by simp),
      h11 kind' h', count_singleton, map_cons, count_cons, hscope]
    have heq : (started kind h == .started kind' h') = ((kind, h) == (kind', h')) := by
      rw [Bool.eq_iff_iff, beq_iff_eq, beq_iff_eq, started.injEq, Prod.mk.injEq]
    rw [heq]
    omega
  case pending =>
    intro h' hmem
    rcases mem_cons.mp hmem with rfl | hmem
    · cases hscope
      obtain ⟨hnone, hopens⟩ := hchannel rfl
      exact ⟨by simp [hnone], .inl hopens⟩
    · obtain ⟨hnone, hopens⟩ := h12 h' hmem
      refine ⟨?_, .inl hopens⟩
      rintro (hold | hnew)
      · exact hnone hold
      · cases hnew
        exact hopened rfl hmem
  all_goals grind [handle?]

theorem History.pop {frame : Frame} {stack : List Frame}
    (hstack : p.stack = frame :: stack) (hlt : frame.scope.2 < p.records.length) :
    History (({ p with stack := stack } : Peer).note
      [.returned frame.scope.1 frame.scope.2]) := by
  obtain ⟨q, hq, hlook, hlog, hstack', hlen⟩ : ∃ q : Peer,
      q = ({ p with stack := stack } : Peer).note [.returned frame.scope.1 frame.scope.2] ∧
      (∀ h', q.channel? h' = p.channel? h') ∧
      q.log = p.log ++ [.returned frame.scope.1 frame.scope.2] ∧ q.stack = stack ∧
      q.records.length = p.records.length := ⟨_, rfl, fun _ => rfl, rfl, rfl, rfl⟩
  rw [← hq]
  obtain ⟨h1, h2, h3, h4, h5, h6, h7, h8, h9, h10, h11, h12⟩ := hhist
  constructor <;>
    simp only [hlook, hlog, hstack', hlen, mem_append, mem_singleton, count_append]
  case lawful => exact h1.concat trivial
  case scopes =>
    intro kind h'
    have hbef := h11 kind h'
    rw [hstack, map_cons, count_cons] at hbef
    rw [count_eq_zero.mpr
      (show .started kind h' ∉ [returned frame.scope.1 frame.scope.2] by simp),
      count_singleton]
    have heq : (returned frame.scope.1 frame.scope.2 == .returned kind h') =
        (frame.scope == (kind, h')) := by
      rw [Bool.eq_iff_iff, beq_iff_eq, beq_iff_eq, returned.injEq, Prod.ext_iff]
    rw [heq]
    omega
  case pending =>
    intro h' hmem
    obtain ⟨hnone, hopens⟩ := h12 h' (hstack ▸ mem_cons_of_mem _ hmem)
    exact ⟨by simp [hnone], .inl hopens⟩
  all_goals grind [handle?]

/-- SCTP has taken the `OPEN` of a channel. -/
theorem History.sending (hc : p.channel? h = some c)
    (hsent : .openSent h ∈ p.log) : History (p.setChannel h { c with dcepSent := true }) := by
  obtain ⟨c', hc'⟩ : ∃ c', c' = { c with dcepSent := true } := ⟨_, rfl⟩
  have hsame : c'.id = c.id ∧ c'.isOpen = c.isOpen ∧ c'.closing = c.closing := by
    subst hc'
    exact ⟨rfl, rfl, rfl⟩
  rw [← hc']
  have hlook := fun h' => @channel?_setChannel p _ h' c' (channel?_lt hc)
  have hlog : (p.setChannel h c').log = p.log := rfl
  have hstack : (p.setChannel h c').stack = p.stack := rfl
  have hlen : (p.setChannel h c').records.length = p.records.length := length_set
  obtain ⟨h1, h2, h3, h4, h5, h6, h7, h8, h9, h10, h11, h12⟩ := hhist
  constructor <;> simp only [hlook, hlog, hstack, hlen]
  case lawful => exact h1
  case scopes => exact h11
  all_goals grind

theorem History.closeBegins {resetOutgoing : Bool}
    (hc : p.channel? h = some c) (hopen : c.closing = false) :
    History (p.beginClose h c resetOutgoing) := by
  have hlt := channel?_lt hc
  obtain ⟨c', hc'⟩ : ∃ c', c' = { c with
    closing := true, isOpen := false, callbackRefs := c.callbackRefs + 1 } := ⟨_, rfl⟩
  have hsame : c'.id = c.id ∧ c'.isOpen = false ∧ c'.closing = true ∧
      c'.dcepSent = c.dcepSent := by
    subst hc'
    exact ⟨rfl, rfl, rfl, rfl⟩
  obtain ⟨q, hq, hlook, hlog, hstack, hlen⟩ : ∃ q : Peer, q = ({ p.setChannel h c' with
    channels :=
      if p.getChannel c.id = some h then p.channels.filter (fun entry => entry.1 != c.id)
      else p.channels } : Peer).note [.closing h] ∧
      (∀ h', q.channel? h' = if h' = h then some c' else p.channel? h') ∧
      q.log = p.log ++ [.closing h] ∧ q.stack = p.stack ∧ q.records.length = p.records.length :=
    ⟨_, rfl, fun _ => channel?_setChannel hlt, rfl, rfl, length_set⟩
  have hnever : .closing h ∉ p.log := fun hmem => by
    have := (hhist.closes h c hc).mpr hmem
    rw [hopen] at this
    cases this
  have hclosed : History q := by
    obtain ⟨h1, h2, h3, h4, h5, h6, h7, h8, h9, h10, h11, h12⟩ := hhist
    constructor <;>
      simp only [hlook, hlog, hstack, hlen, mem_append, mem_singleton, count_append]
    case lawful => exact h1.concat hnever
    case scopes => exact scopes_append h11 (by simp [Event.scoped])
    all_goals grind [Event.handle?]
  by_cases hreset : resetOutgoing ∧ p.hasSocket
  · have heq : p.beginClose h c resetOutgoing = q.note [.streamReset c.id h] := by
      rw [hq, hc', beginClose, if_pos hreset]
      simp [note]
    rw [heq]
    refine hclosed.note_quiet rfl ?_
    rintro h' ⟨⟩
    rw [hlen]
    exact hlt
  · have heq : p.beginClose h c resetOutgoing = q := by
      rw [hq, hc', beginClose, if_neg hreset]
    rw [heq]
    exact hclosed

omit hhist

/-- Every callback that has not returned holds a reference of its channel. -/
theorem scope_handles (frame : Frame) : frame.scope.2 ∈ frame.handles := by
  cases frame <;> simp [Frame.scope, Frame.handles]

theorem scopes_of_handles (hnone : h ∉ p.handles) (kind : CallbackKind) :
    (p.stack.map Frame.scope).count (kind, h) = 0 := by
  rw [count_eq_zero, mem_map]
  rintro ⟨frame, hframe, hscope⟩
  refine hnone (mem_flatMap.mpr ⟨frame, hframe, ?_⟩)
  have hmem := scope_handles frame
  rwa [hscope] at hmem

theorem History.release (hhist : History p) (htable : Table p (h :: held)) :
    History (p.release h) := by
  obtain ⟨c, hc⟩ := htable.holds h (.inr mem_cons_self)
  have hlt := channel?_lt hc
  have hcount := htable.refs h c hc
  rw [count_cons_self] at hcount
  rw [Peer.release, hc]
  dsimp only
  split
  next hlast =>
    obtain ⟨hclos, hzero⟩ := hlast
    obtain ⟨q, hq, hlog, hstack, hlen⟩ : ∃ q : Peer, q = { p with
        channelIds := p.channelIds.erase c.id
        records := p.records.set h none
        log := p.log ++ [.released h] } ∧ q.log = p.log ++ [.released h] ∧
      q.stack = p.stack ∧ q.records.length = p.records.length := ⟨_, rfl, rfl, rfl, length_set⟩
    have hlook : ∀ h', q.channel? h' = if h' = h then none else p.channel? h' := by
      intro h'
      rw [hq]
      split
      next heq =>
        subst heq
        exact channel?_set_self hlt none
      next hne => exact channel?_set_other hne none
    have hhandles : h ∉ p.handles := by
      rw [← count_eq_zero]
      omega
    have hlive : .released h ∉ p.log := fun hmem => by
      have hnone := ((hhist.gone h).mp hmem).2
      rw [hc] at hnone
      cases hnone
    rw [← hq]
    obtain ⟨h1, h2, h3, h4, h5, h6, h7, h8, h9, h10, h11, h12⟩ := hhist
    constructor <;>
      simp only [hlook, hlog, hstack, hlen, mem_append, mem_singleton, count_append]
    case lawful =>
      refine h1.concat ⟨hlive, fun kind => ?_⟩
      rw [h11 kind h, scopes_of_handles hhandles kind, Nat.add_zero]
    case scopes => exact scopes_append h11 (by simp [Event.scoped])
    all_goals grind [Event.handle?]
  next => exact hhist.setFields hc ⟨rfl, rfl, rfl, rfl⟩

end Steps

variable {p q : Peer} {id : UInt16} {c : Channel}

theorem History.unborn (hhist : History p) :
    (∀ e ∈ p.log, e.handle? ≠ some p.records.length) ∧ p.channel? p.records.length = none := by
  refine ⟨fun e he heq => absurd (hhist.known e he _ heq) (lt_irrefl _), ?_⟩
  rw [channel?, getElem?_eq_none le_rfl]
  rfl

theorem History.unborn_count (hhist : History p) (kind : CallbackKind) :
    p.log.count (.started kind p.records.length) =
      p.log.count (.returned kind p.records.length) := by
  rw [count_eq_zero.mpr fun hmem => hhist.unborn.1 _ hmem rfl,
    count_eq_zero.mpr fun hmem => hhist.unborn.1 _ hmem rfl]

theorem History.created (hhist : History p)
    (hlook : ∀ h, q.channel? h = if h = p.records.length then some c else p.channel? h)
    (hblank : c.id = id ∧ c.isOpen = false ∧ c.closing = false ∧ c.dcepSent = false)
    (hlog : q.log = p.log ++ [.created p.records.length id]) (hstack : q.stack = p.stack)
    (hlen : q.records.length = p.records.length + 1) : History q := by
  obtain ⟨hfresh, hnone⟩ := hhist.unborn
  obtain ⟨h1, h2, h3, h4, h5, h6, h7, h8, h9, h10, h11, h12⟩ := hhist
  constructor <;>
    simp only [hlook, hlog, hstack, hlen, mem_append, mem_singleton, count_append]
  case lawful => exact h1.concat hfresh
  case scopes => exact scopes_append h11 (by simp [Event.scoped])
  all_goals grind [Event.handle?]

/-- A channel of the other side is published, its `ACK` is taken, and it opens. -/
theorem History.accepted (hhist : History p)
    (hlook : ∀ h, q.channel? h = if h = p.records.length then some c else p.channel? h)
    (hopen : c.id = id ∧ c.isOpen = true ∧ c.closing = false ∧ c.dcepSent = false)
    (hlog : q.log = p.log ++ [.reserved p.records.length id] ++
      [.ackAccepted p.records.length] ++ [.opens p.records.length]) (hstack : q.stack = p.stack)
    (hlen : q.records.length = p.records.length + 1) : History q := by
  obtain ⟨hfresh, hnone⟩ := hhist.unborn
  obtain ⟨h1, h2, h3, h4, h5, h6, h7, h8, h9, h10, h11, h12⟩ := hhist
  constructor <;>
    simp only [hlook, hlog, hstack, hlen, append_assoc, cons_append,
      nil_append, mem_append, mem_cons, not_mem_nil, or_false,
      count_append]
  case lawful =>
    have hlaw := ((h1.concat (e := .reserved p.records.length id) hfresh).concat
      (e := .ackAccepted p.records.length) trivial).concat (e := .opens p.records.length)
        ⟨by grind [Event.handle?], by grind [Event.handle?], id, .inr ⟨by simp, by simp⟩⟩
    simpa using hlaw
  case scopes => exact scopes_append h11 (by simp [Event.scoped])
  all_goals grind [Event.handle?]

/-- A channel of the other side whose `ACK` is not taken. -/
theorem History.refusal (hhist : History p) (hlook : ∀ h, q.channel? h = p.channel? h)
    (hlog : q.log = p.log ++ [.reserved p.records.length id] ++
        [.ackRefused p.records.length] ++ [.released p.records.length] ∨
      q.log = p.log ++ [.reserved p.records.length id] ++ [.ackRefused p.records.length] ++
        [.streamReset id p.records.length] ++ [.released p.records.length])
    (hstack : q.stack = p.stack) (hlen : q.records.length = p.records.length + 1) : History q := by
  obtain ⟨hfresh, hnone⟩ := hhist.unborn
  have hcounts := hhist.unborn_count
  obtain ⟨h1, h2, h3, h4, h5, h6, h7, h8, h9, h10, h11, h12⟩ := hhist
  have hlaw := (h1.concat (e := .reserved p.records.length id) hfresh).concat
    (e := .ackRefused p.records.length) (fun kind => by grind [Event.handle?])
  rcases hlog with hlog | hlog <;> constructor <;>
    simp only [hlook, hlog, hstack, hlen, append_assoc, cons_append,
      nil_append, mem_append, mem_cons, not_mem_nil, or_false,
      count_append]
  case inl.lawful =>
    have := hlaw.concat (e := .released p.records.length)
      ⟨by grind [Event.handle?], fun kind => by simp [count_append, hcounts kind]⟩
    simpa using this
  case inr.lawful =>
    have := (hlaw.concat (e := .streamReset id p.records.length) trivial).concat
      (e := .released p.records.length)
        ⟨by grind [Event.handle?], fun kind => by simp [count_append, hcounts kind]⟩
    simpa using this
  case inl.scopes => exact scopes_append h11 (by simp [Event.scoped])
  case inr.scopes => exact scopes_append h11 (by simp [Event.scoped])
  all_goals grind [Event.handle?]

theorem LawfulLog.releases {log : List Event} {hs : List ℕ} (hlaw : LawfulLog log)
    (hnodup : hs.Nodup)
    (hdone : ∀ h ∈ hs, .released h ∉ log ∧
      ∀ kind, log.count (.started kind h) = log.count (.returned kind h)) :
    LawfulLog (log ++ hs.map .released) := by
  induction hs generalizing log with
  | nil => simpa using hlaw
  | cons h rest ih =>
    obtain ⟨hother, hrest⟩ := nodup_cons.mp hnodup
    have hnext := hlaw.concat (e := .released h) (hdone h mem_cons_self)
    rw [map_cons, append_cons]
    refine ih hnext hrest fun h' hmem => ?_
    obtain ⟨hnone, hcount⟩ := hdone h' (mem_cons_of_mem _ hmem)
    refine ⟨?_, fun kind => by simpa [count_append] using hcount kind⟩
    rw [mem_append, mem_singleton]
    rintro (hold | heq)
    · exact hnone hold
    · cases heq
      exact hother hmem

end TurboMedia.DataChannel
