import TurboMedia.DataChannel.Lifecycle

/-!
# The life of a channel

For every channel of a peer and every order of its calls, with calls made from any callback:
when its callbacks may start, and when its record is released.

**Input.**  Any sequence of steps of a peer.

**Method.**  `Sound p held` is the table and the history of a peer in a call that holds the
references `held`.  Each call is a sequence of the steps for which these are known to be
kept; a close of several channels is an induction on the channels that are left.
-/

namespace TurboMedia.DataChannel

open List Peer Channel

variable {p q : Peer} {held : List ℕ} {h : ℕ} {c : Channel}

section Sound

/-- The invariant of a peer in a call that holds `held`. -/
structure Sound (p : Peer) (held : List ℕ) : Prop where
  table : Table p held
  history : History p

variable {held' : List ℕ}

theorem sound_create (isDtlsServer sctpDisabled : Bool) :
    Sound (.create isDtlsServer sctpDisabled) [] :=
  ⟨table_create isDtlsServer sctpDisabled, history_create isDtlsServer sctpDisabled⟩

theorem Sound.perm (hsound : Sound p held) (hperm : held'.Perm held) : Sound p held' :=
  ⟨hsound.table.of_same (fun _ => rfl) ⟨rfl, rfl⟩ rfl hperm, hsound.history⟩

theorem Sound.of_same (hsound : Sound p held) (hrecords : q.records = p.records)
    (hchannels : q.channels = p.channels ∧ q.channelIds = p.channelIds) (hstack : q.stack = p.stack)
    (hlog : q.log = p.log) : Sound q held := by
  have hlook : ∀ h, q.channel? h = p.channel? h := by
    intro h
    rw [channel?, hrecords]
    rfl
  refine ⟨hsound.table.of_same hlook hchannels hstack (.refl _), ?_⟩
  refine hsound.history.of_records hlog hstack (by rw [hrecords]) (fun h => by rw [hlook]) ?_
  intro h c hc
  exact ⟨c, by rwa [← hlook], rfl, rfl, rfl, rfl⟩

theorem Sound.note_quiet {e : Event} (hsound : Sound p held) (hquiet : e.quiet = true)
    (hknown : ∀ h, e.handle? = some h → h < p.records.length) : Sound (p.note [e]) held :=
  ⟨hsound.table.of_same (fun _ => rfl) ⟨rfl, rfl⟩ rfl (.refl _),
    hsound.history.note_quiet hquiet hknown⟩

theorem Sound.hold (hsound : Sound p held) (hc : p.channel? h = some c) :
    Sound (p.setChannel h { c with callbackRefs := c.callbackRefs + 1 }) (h :: held) :=
  ⟨hsound.table.hold hc, hsound.history.setFields hc ⟨rfl, rfl, rfl, rfl⟩⟩

theorem Sound.release (hsound : Sound p (h :: held)) : Sound (p.release h) held :=
  ⟨hsound.table.release, hsound.history.release hsound.table⟩

/-- `dc_channel_admit` gives a channel that is not closing. -/
theorem Sound.channelAdmit {id : UInt16} (hsound : Sound p held)
    (hent : p.channelAdmit id = some (h, q)) :
    Sound q (h :: held) ∧ q.log = p.log ∧
      ∃ c, q.channel? h = some c ∧ c.closing = false ∧ c.id = id := by
  rw [Peer.channelAdmit] at hent
  split at hent
  · cases hent
  · rw [Option.bind_eq_some_iff] at hent
    obtain ⟨h', hfind, hent⟩ := hent
    rw [Option.bind_eq_some_iff] at hent
    obtain ⟨c, hc, hent⟩ := hent
    split at hent
    next hopen =>
      cases hent
      refine ⟨hsound.hold hc, rfl, _,
        (channel?_setChannel (channel?_lt hc)).trans (if_pos rfl), hopen.1, ?_⟩
      obtain ⟨c', hc', hid, -⟩ := hsound.table.entry _ _ (getChannel_mem hfind)
      rw [hc] at hc'
      cases hc'
      exact hid
    next => cases hent

theorem History.quietClose (hhist : History p) (hc : p.channel? h = some c)
    (hopen : c.closing = false) :
    .closing h ∉ p.log ∧ .started .closed h ∉ p.log ∧ .returned .closed h ∉ p.log ∧
      .ackRefused h ∉ p.log ∧ .released h ∉ p.log := by
  have hclos : .closing h ∉ p.log := fun hmem => by
    have := (hhist.closes h c hc).mpr hmem
    rw [hopen] at this
    cases this
  have hstart : .started .closed h ∉ p.log := fun hmem => by
    obtain ⟨past, hpre, hfol⟩ := hhist.lawful.of_mem hmem
    exact hclos (hpre.mem hfol.2.2.2.2)
  refine ⟨hclos, hstart, fun hmem => ?_, fun hmem => ?_, fun hmem => ?_⟩
  · have hcount := hhist.scopes .closed h
    rw [count_eq_zero.mpr hstart] at hcount
    have hpos := count_pos_iff.mpr hmem
    omega
  · rw [hhist.refused h hmem] at hc
    cases hc
  · rw [((hhist.gone h).mp hmem).2] at hc
    cases hc

theorem Sound.start {kind : CallbackKind} {frame : Frame} (hsound : Sound p (frame.handles ++ held))
    (hscope : frame.scope = (kind, h)) (hmay : MayStart p.log kind h)
    (hchannel : kind = .channel → .started .opened h ∉ p.log ∧ .opens h ∈ p.log)
    (hopened : kind = .opened → .onChannel h ∉ p.stack) : Sound (p.start kind h frame) held := by
  have hmem : h ∈ frame.handles := by
    have := scope_handles frame
    rwa [hscope] at this
  obtain ⟨c, hc⟩ := hsound.table.holds h (.inr (mem_append_left _ hmem))
  exact ⟨hsound.table.push, hsound.history.start (channel?_lt hc) hscope hmay hchannel hopened⟩

end Sound

section Closing

theorem Sound.beginClose {resetOutgoing : Bool} (hsound : Sound p held) (hc : p.channel? h = some c)
    (hopen : c.closing = false) : Sound (p.beginClose h c resetOutgoing) (h :: held) :=
  ⟨hsound.table.beginClose hc hopen, hsound.history.closeBegins hc hopen⟩

/-- `on_close` may start once the close has begun. -/
theorem mayStart_closed {resetOutgoing : Bool} (hhist : History p) (hc : p.channel? h = some c)
    (hopen : c.closing = false) : MayStart (p.beginClose h c resetOutgoing).log .closed h := by
  obtain ⟨-, hstart, hret, href, hreleased⟩ := hhist.quietClose hc hopen
  have hlog : (p.beginClose h c resetOutgoing).log = p.log ++
      (.closing h :: if resetOutgoing ∧ p.hasSocket then [.streamReset c.id h] else []) := rfl
  have hnew : ∀ e, e ∈ (p.beginClose h c resetOutgoing).log →
      e ∈ p.log ∨ e = .closing h ∨ e = .streamReset c.id h := by
    intro e he
    rw [hlog, mem_append, mem_cons] at he
    refine he.imp_right (Or.imp_right fun he => ?_)
    split at he
    · exact mem_singleton.mp he
    · cases he
  refine ⟨?_, ?_, ?_, ?_, by rw [hlog]; simp⟩ <;> intro hmem <;>
    rcases hnew _ hmem with hold | heq | heq <;> contradiction

theorem Sound.endClose {admitted : Bool}
    (hsound : Sound p (h :: (if admitted then h :: held else held))) :
    Sound (p.endClose h admitted) held := by
  rw [Peer.endClose]
  cases admitted with
  | false => exact hsound.release
  | true => exact hsound.release.release

theorem Sound.closeAll {resetOutgoing : Bool} {hs : List ℕ} (hsound : Sound p (hs ++ held)) :
    Sound (p.closeAll resetOutgoing hs) held := by
  induction hs generalizing p with
  | nil => exact hsound
  | cons h rest ih =>
    obtain ⟨c, hc⟩ := hsound.table.holds h (.inr mem_cons_self)
    rw [closeAll, hc]
    dsimp only
    cases hclos : c.closing with
    | true =>
      rw [if_pos rfl]
      exact ih hsound.release
    | false =>
      rw [if_neg (by simp)]
      have hbegun := @Sound.beginClose _ _ _ _ resetOutgoing hsound hc hclos
      split
      · exact hbegun.start (h := h)
          rfl
          (mayStart_closed hsound.history hc hclos) (by simp) (by simp)
      · exact ih (hbegun.endClose)

theorem Sound.closeChannel (hsound : Sound p held) (h : ℕ) : Sound (p.closeChannel h) held := by
  rw [Peer.closeChannel]
  split
  next => exact hsound
  next c hc =>
    split
    next => exact hsound
    next hclos =>
      rw [Bool.not_eq_true] at hclos
      have hbegun := @Sound.beginClose _ _ _ _ true hsound hc hclos
      split
      · exact hbegun.start (h := h) rfl
          (mayStart_closed hsound.history hc hclos) (by simp) (by simp)
      · exact hbegun.endClose

theorem Sound.handleStreamReset (hsound : Sound p held) (id : UInt16) (resetOutgoing : Bool) :
    Sound (p.handleStreamReset id resetOutgoing) held := by
  rw [Peer.handleStreamReset]
  split
  next => exact hsound
  next h q hent => exact (hsound.channelAdmit hent).1.closeAll

theorem Sound.retain {hs : List ℕ} (hsound : Sound p held)
    (hlive : ∀ h ∈ hs, ∃ c, p.channel? h = some c) : Sound (p.retain hs) (hs ++ held) := by
  induction hs generalizing p held with
  | nil => exact hsound
  | cons h rest ih =>
    obtain ⟨c, hc⟩ := hlive h mem_cons_self
    rw [retain, foldl_cons, hc]
    have hheld := hsound.hold hc
    refine (ih hheld fun h' hmem => ?_).perm perm_middle.symm
    rw [channel?_setChannel (channel?_lt hc)]
    split
    · exact ⟨_, rfl⟩
    · exact hlive h' (mem_cons_of_mem _ hmem)

theorem Sound.handleAllStreamsReset (hsound : Sound p held) (walk : List ℕ)
    (resetOutgoing memory : Bool) :
    Sound (p.handleAllStreamsReset walk resetOutgoing memory) held := by
  rw [Peer.handleAllStreamsReset]
  split
  · refine (hsound.retain fun h hmem => ?_).closeAll
    rw [Peer.snapshot, mem_filter, Option.any_eq_true] at hmem
    obtain ⟨c, hc, -⟩ := hmem.2
    exact ⟨c, hc⟩
  · exact hsound

end Closing

section Opening

/-- `on_open` of a channel that is open. -/
theorem Sound.callOnOpen {wanted : Bool} (hsound : Sound p (h :: held))
    (hopen : wanted = true → ∃ c, p.channel? h = some c ∧ c.closing = false)
    (hopens : .opens h ∈ p.log) (hnew : .started .opened h ∉ p.log ∧ .onChannel h ∉ p.stack) :
    Sound (p.callOnOpen h wanted) held := by
  rw [Peer.callOnOpen]
  split
  next hwanted =>
    obtain ⟨c, hc, hclos⟩ := hopen hwanted
    obtain ⟨hclose, -, hret, href, hreleased⟩ := hsound.history.quietClose hc hclos
    exact hsound.start (h := h) rfl ⟨hret, href, hreleased, hnew.1, hclose, hopens,
        hsound.history.lawful.caused hopens⟩
      (by simp) (fun _ => hnew.2)
  next => exact hsound.release

theorem Sound.afterOnChannel (hsound : Sound p (h :: held)) (hopens : .opens h ∈ p.log)
    (hnew : .started .opened h ∉ p.log ∧ .onChannel h ∉ p.stack) :
    Sound (p.afterOnChannel h) held := by
  rw [Peer.afterOnChannel]
  refine hsound.callOnOpen (fun hwanted => ?_) hopens hnew
  rw [Option.any_eq_true] at hwanted
  obtain ⟨c, hc, hwanted⟩ := hwanted
  simp only [Bool.and_eq_true, Bool.not_eq_true'] at hwanted
  exact ⟨c, hc, hwanted.1.1⟩

theorem Sound.handleAck (hsound : Sound p held) (id : UInt16) : Sound (p.handleAck id) held := by
  have hnoted : Sound (p.note [.ackArrived id]) held :=
    hsound.note_quiet rfl (by rintro h ⟨⟩)
  rw [Peer.handleAck]
  split
  next => exact hnoted
  next h q hent =>
    obtain ⟨hq, hlog, c, hc, hclos, hid⟩ := hnoted.channelAdmit hent
    rw [hc]
    dsimp only
    split
    next hready =>
      obtain ⟨-, -, hsent, hopen⟩ := hready
      have hcreated : .created h c.id ∈ q.log := by
        refine (hq.history.born h c hc).resolve_right fun hrsv => ?_
        rw [hq.history.remote h c hc hrsv hclos] at hopen
        cases hopen
      have hold : ∀ e : Event, e ∈ q.log → e ≠ .ackArrived id → e ∈ p.log := by
        intro e he hne
        rw [hlog] at he
        exact (mem_append.mp he).resolve_right fun hmem => hne (mem_singleton.mp hmem)
      have hcaused : Caused q.log h :=
        ⟨c.id, .inl ⟨hcreated, p.log, [], by rw [hlog, hid]; rfl,
          hold _ (hq.history.sent h c hc hsent) (by simp)⟩⟩
      have hnever : .opens h ∉ q.log := fun hmem => by
        rw [hq.history.once h c hc hmem hclos] at hopen
        cases hopen
      have hnew : .started .opened h ∉ q.log ∧ .onChannel h ∉ q.stack := by
        refine ⟨fun hmem => ?_, fun hmem => hnever (hq.history.pending h hmem).2⟩
        obtain ⟨past, hpre, hfol⟩ := hq.history.lawful.of_mem hmem
        exact hnever (hpre.mem hfol.2.2.2.2.2.1)
      have hopened : Sound ((q.setChannel h { c with isOpen := true }).note [.opens h])
          (h :: held) :=
        ⟨(@Table.setFields _ _ _ _ { c with isOpen := true } hq.table hc ⟨rfl, rfl, rfl⟩).of_same
            (fun _ => rfl) ⟨rfl, rfl⟩ rfl (.refl _),
          hq.history.opening hc hclos hopen hcaused⟩
      refine hopened.callOnOpen (fun _ => ?_) (by simp [Peer.note]) ?_
      · exact ⟨_, (channel?_setChannel (channel?_lt hc)).trans (if_pos rfl), hclos⟩
      · exact ⟨by simpa [Peer.note, Peer.setChannel] using hnew.1, hnew.2⟩
    next => exact hq.release

/-- The peer after an `OPEN` whose `ACK` was taken, before `on_channel`. -/
def Peer.accepted (p : Peer) (id : UInt16) (request : OpenRequest) : Peer :=
  { p with
    channelIds := id :: p.channelIds
    channels := (id, p.records.length) :: p.channels
    records := p.records ++ [some { blank id request 1 with isOpen := true }]
    log := p.log ++ [.reserved p.records.length id] ++ [.ackAccepted p.records.length] ++
      [.opens p.records.length] }

theorem channel?_reserve (id : UInt16) (request : OpenRequest) :
    (p.reserve id request).channel? p.records.length = some (.blank id request 1) :=
  (channel?_append p.records _ _).trans (if_pos rfl)

variable {id : UInt16} {request : OpenRequest}

theorem commitOpen_eq (hlive : p.destroying = false) :
    (p.reserve id request).commitOpen p.records.length =
      if p.onChannel then
        (p.accepted id request).start .channel p.records.length (.onChannel p.records.length)
      else (p.accepted id request).afterOnChannel p.records.length := by
  have hset : (p.records ++ [some (blank id request 1)]).set p.records.length
      (some { blank id request 1 with isOpen := true }) =
        p.records ++ [some { blank id request 1 with isOpen := true }] := by
    rw [set_append_right _ _ le_rfl]
    simp
  have hopened : (((p.reserve id request).note [.ackAccepted p.records.length]).setChannel
      p.records.length { blank id request 1 with isOpen := true }).note
        [.opens p.records.length] = p.accepted id request := by
    rw [setChannel, accepted]
    simp only [note, reserve]
    rw [hset]
  rw [commitOpen, channel?_reserve]
  dsimp only
  rw [if_pos ⟨rfl, hlive⟩, hopened]
  rfl

theorem Sound.accepted (hsound : Sound p held)
    (hfree : id ∉ p.channelIds) : Sound (p.accepted id request) (p.records.length :: held) :=
  ⟨hsound.table.publish hfree,
    hsound.history.accepted (c := { blank id request 1 with isOpen := true })
      (channel?_append p.records _) ⟨rfl, rfl, rfl, rfl⟩ rfl rfl (by simp [Peer.accepted])⟩

/-- The peer after an `OPEN` whose `ACK` was not taken. -/
theorem rollBack_eq (hnone : p.getChannel id = none) :
    (p.reserve id request).rollBack p.records.length = { p with
        records := p.records ++ [none]
        log := p.log ++ [.reserved p.records.length id] ++ [.ackRefused p.records.length] ++
          (if p.destroying = false ∧ p.hasSocket then
            [.streamReset id p.records.length] else []) ++ [.released p.records.length] } := by
  have hfilter : p.channels.filter (fun entry => entry.1 != id) = p.channels := by
    rw [filter_eq_self]
    intro entry hmem
    rw [getChannel, Option.map_eq_none_iff, find?_eq_none] at hnone
    simpa using hnone entry hmem
  have hfound : (p.reserve id request).getChannel id = some p.records.length := by
    simp [getChannel, reserve]
  have hset : ∀ slot slot' : Option Channel, (p.records ++ [slot]).set p.records.length slot' =
      p.records ++ [slot'] := by
    intro slot slot'
    rw [set_append_right _ _ le_rfl]
    simp
  rw [rollBack, channel?_reserve]
  dsimp only [blank]
  rw [if_pos hfound]
  obtain ⟨reset, hreset⟩ : ∃ reset : List Event, reset =
    if p.destroying = false ∧ p.hasSocket then [.streamReset id p.records.length] else [] :=
      ⟨_, rfl⟩
  have hsame : (if (p.reserve id request).destroying = false ∧
      (p.reserve id request).hasSocket = true then [Event.streamReset id p.records.length]
        else []) = reset := hreset.symm
  rw [hsame, ← hreset, release]
  simp only [note, setChannel, reserve, channel?, hset]
  simp [hfilter]

variable (hsound : Sound p held)
include hsound

theorem Sound.handleOpen (id : UInt16) (request : OpenRequest)
    (memory acked : Bool) : Sound (p.handleOpen id request memory acked) held := by
  rw [Peer.handleOpen]
  split
  next => exact hsound
  next hready =>
    simp only [not_or, Bool.not_eq_true, contains_eq_mem, decide_eq_false_iff_not,
      Option.isSome_eq_false_iff, Option.isNone_iff_eq_none] at hready
    obtain ⟨-, hlive, hfree, hnone⟩ := hready
    obtain ⟨hfresh, hunborn⟩ := hsound.history.unborn
    split
    · rw [commitOpen_eq hlive]
      have hacc := @Sound.accepted _ _ _ request hsound hfree
      have hopens : .opens p.records.length ∈ (p.accepted id request).log := by
        simp [Peer.accepted]
      have hold : ∀ e ∈ (p.accepted id request).log, e.handle? = some p.records.length →
          e = .reserved p.records.length id ∨ e = .ackAccepted p.records.length ∨
            e = .opens p.records.length := by
        intro e he heq
        simp only [Peer.accepted, append_assoc, mem_append, mem_singleton] at he
        exact he.resolve_left fun hmem => hfresh e hmem heq
      have hnever : ∀ kind, .started kind p.records.length ∉ (p.accepted id request).log :=
        fun kind hmem => by rcases hold _ hmem rfl with heq | heq | heq <;> cases heq
      have hframe : .onChannel p.records.length ∉ (p.accepted id request).stack := by
        intro hmem
        exact hfresh _ (hsound.history.pending _ hmem).2 rfl
      split
      · refine hacc.start (h := p.records.length)
          rfl ⟨?_, ?_, ?_, hnever _, ?_, hopens,
            hacc.history.lawful.caused hopens⟩ (fun _ => ⟨hnever _, hopens⟩) (by simp)
        all_goals
          intro hmem
          rcases hold _ hmem rfl with heq | heq | heq <;> cases heq
      · exact hacc.afterOnChannel hopens ⟨hnever _, hframe⟩
    · rw [rollBack_eq hnone]
      have hlook : ∀ h, (p.records ++ [none])[h]?.join = p.channel? h := by
        intro h
        rw [channel?_append]
        split
        next heq => rw [heq, hunborn]
        next => rfl
      refine ⟨hsound.table.of_same hlook ⟨rfl, rfl⟩ rfl (.refl _), ?_⟩
      refine @History.refusal _ _ id hsound.history hlook ?_ rfl (by simp)
      split
      · exact .inr rfl
      · exact .inl (by simp)

theorem Sound.handleMessage (id : UInt16) :
    Sound (p.handleMessage id) held := by
  rw [Peer.handleMessage]
  split
  next => exact hsound
  next h q hent =>
    obtain ⟨hq, -, c, hc, hclos, -⟩ := hsound.channelAdmit hent
    rw [hc]
    dsimp only
    split
    next hready =>
      obtain ⟨-, hstart, hret, href, hreleased⟩ := hq.history.quietClose hc hclos
      exact hq.start (h := h) rfl
        ⟨hret, href, hreleased, (hq.history.opens h c hc hready.2.1).1, hstart⟩
        (by simp) (by simp)
    next => exact hq.release

theorem Sound.createChannel (label : List UInt8)
    (config : Option (ChannelConfig × List UInt8)) (memory : Bool) :
    Sound (p.createChannel label config memory) held := by
  rw [Peer.createChannel]
  split
  next => exact hsound
  next =>
    split
    next request id hreq halloc =>
      split
      · have hfree : id ∉ p.channelIds := (firstFree_some halloc).1
        have hfilter : p.channels.filter (fun e => e.1 != id) = p.channels := by
          rw [filter_eq_self]
          rintro ⟨id', h⟩ hmem
          obtain ⟨c, hc, rfl, -⟩ := hsound.table.entry _ _ hmem
          have hid := hsound.table.ids h c hc
          rw [bne_iff_ne]
          rintro rfl
          exact hfree hid
        rw [hfilter]
        exact ⟨hsound.table.publish hfree, hsound.history.created (c := .blank id request 0)
            (channel?_append p.records _) ⟨rfl, rfl, rfl, rfl⟩ rfl rfl (by simp)⟩
      · exact hsound
    next => exact hsound

theorem Sound.openChannel (h : ℕ) (sent : Bool) :
    Sound (p.openChannel h sent) held := by
  rw [Peer.openChannel]
  split
  next => exact hsound
  next c hc =>
    split
    · exact hsound
    · split
      · have hnoted : Sound (p.note [.openSent h]) held :=
          hsound.note_quiet rfl (by rintro h' ⟨⟩; exact channel?_lt hc)
        have hset := @Table.setFields _ _ _ _ { c with dcepSent := true } hnoted.table hc
          ⟨rfl, rfl, rfl⟩
        exact ⟨hset, hnoted.history.sending hc (by simp [Peer.note])⟩
      · exact hsound

theorem Sound.sendMessage (h : ℕ) (sent : Bool) :
    Sound (p.sendMessage h sent) held := by
  rw [Peer.sendMessage]
  split
  next => exact hsound
  next c hc =>
    split
    · refine hsound.note_quiet rfl ?_
      rintro h' ⟨⟩
      exact channel?_lt hc
    · exact hsound

end Opening

section System

theorem Sound.pop {frame : Frame} {stack : List Frame} (hsound : Sound p held)
    (hstack : p.stack = frame :: stack) :
    Sound (({ p with stack := stack } : Peer).note [.returned frame.scope.1 frame.scope.2])
      (frame.handles ++ held) := by
  have hmem : frame.scope.2 ∈ p.handles := by
    rw [handles, hstack, flatMap_cons]
    exact mem_append_left _ (scope_handles frame)
  obtain ⟨c, hc⟩ := hsound.table.holds _ (.inl hmem)
  exact ⟨hsound.table.pop hstack, hsound.history.pop hstack (channel?_lt hc)⟩

/-- `on_channel` is made once for a channel. -/
theorem History.onChannel_once {stack : List Frame} (hhist : History p)
    (hstack : p.stack = .onChannel h :: stack) : .onChannel h ∉ stack := by
  intro hmem
  have honce : p.log.count (.started .channel h) ≤ 1 :=
    hhist.lawful.count_le_one fun past hfol => hfol.2.2.2.1
  have hcount := hhist.scopes .channel h
  have hscope : (CallbackKind.channel, h) ∈ stack.map Frame.scope :=
    mem_map.mpr ⟨_, hmem, rfl⟩
  have hpos := count_pos_iff.mpr hscope
  rw [hstack, map_cons, Frame.scope, count_cons_self] at hcount
  omega

theorem Sound.ret (hsound : Sound p held) : Sound p.ret held := by
  rw [Peer.ret]
  split
  next => exact hsound
  next frame stack hstack =>
    have hpop := hsound.pop hstack
    cases frame with
    | onChannel h =>
      obtain ⟨hnone, hopens⟩ := hsound.history.pending h (hstack ▸ mem_cons_self)
      exact hpop.afterOnChannel (by simp [Peer.note, hopens])
        ⟨by simp [Peer.note, hnone], hsound.history.onChannel_once hstack⟩
    | onOpen h | onMessage h => exact hpop.release
    | onClose h admitted rest resetOutgoing =>
      refine Sound.closeAll (Sound.endClose (hpop.perm ?_))
      cases admitted <;> exact .refl _

theorem Sound.setHandlers (hsound : Sound p held) (h : ℕ) (onOpen onMessage onClose : Bool) :
    Sound (p.setHandlers h onOpen onMessage onClose) held := by
  rw [Peer.setHandlers]
  split
  next => exact hsound
  next c hc =>
    split
    · exact hsound
    · exact ⟨hsound.table.setFields hc ⟨rfl, rfl, rfl⟩,
        hsound.history.setFields hc ⟨rfl, rfl, rfl, rfl⟩⟩

theorem foldl_set_none (channels : List (UInt16 × ℕ)) (records : List (Option Channel)) (h : ℕ) :
    (channels.foldl (fun records e => records.set e.2 none) records)[h]?.join =
      if h ∈ channels.map Prod.snd then none else records[h]?.join := by
  induction channels generalizing records with
  | nil => simp
  | cons e channels ih =>
    rw [foldl_cons, ih, map_cons]
    split
    next hmem => rw [if_pos (mem_cons_of_mem _ hmem)]
    next hmem =>
      rw [getElem?_set]
      by_cases heq : e.2 = h
      · subst heq
        rw [if_pos rfl, if_pos mem_cons_self]
        split <;> rfl
      · rw [if_neg heq, if_neg (by simpa [Ne.symm heq] using hmem)]

theorem foldl_set_length (channels : List (UInt16 × ℕ)) (records : List (Option Channel)) :
    (channels.foldl (fun records e => records.set e.2 none) records).length =
      records.length := by
  induction channels generalizing records with
  | nil => rfl
  | cons e channels ih => rw [foldl_cons, ih, length_set]

/-- Once no callback is left, the live records are those of the hash map. -/
theorem Sound.mapped_of_idle (hsound : Sound p []) (hidle : p.stack = [])
    (hc : p.channel? h = some c) : h ∈ p.channels.map Prod.snd := by
  have hzero : c.callbackRefs = 0 := by
    rw [hsound.table.refs h c hc, handles, hidle]
    rfl
  have hopen : c.closing = false := by
    rw [← Bool.not_eq_true]
    exact fun hclos => hsound.table.closed h c hc hclos hzero
  exact mem_map.mpr ⟨_, hsound.table.mapped h c hc hopen, rfl⟩

theorem Sound.destroyResources (hsound : Sound p []) :
    Sound p.destroyResources [] ∧ (p.destroying = true → p.stack = [] →
        ∀ h, h < p.records.length → .released h ∈ p.destroyResources.log) := by
  rw [Peer.destroyResources]
  split
  next hidle =>
    obtain ⟨-, hidle⟩ := hidle
    have hnodup := hsound.table.nodup
    obtain ⟨q, hq⟩ : ∃ q : Peer, q = { p with
      channels := []
      channelIds := []
      hasSocket := false
      records := p.channels.foldl (fun records e => records.set e.2 none) p.records
      log := p.log ++ p.channels.map (fun e => .released e.2) } := ⟨_, rfl⟩
    have hnone : ∀ h, q.channel? h = none := by
      intro h
      have hlook : q.channel? h =
          if h ∈ p.channels.map Prod.snd then none else p.channel? h := by
        rw [hq]
        exact foldl_set_none p.channels p.records h
      rw [hlook]
      split
      · rfl
      next hout =>
        cases hc : p.channel? h with
        | none => rfl
        | some c => exact absurd (hsound.mapped_of_idle hidle hc) hout
    have hlog : q.log = p.log ++ (p.channels.map Prod.snd).map .released := by
      rw [hq, map_map]
      rfl
    have hlen : q.records.length = p.records.length := by
      rw [hq]
      exact foldl_set_length p.channels p.records
    have hstack : q.stack = [] := by
      rw [hq]
      exact hidle
    have hlive : ∀ h ∈ p.channels.map Prod.snd, ∃ c, p.channel? h = some c := by
      intro h hmem
      obtain ⟨entry, hent, rfl⟩ := mem_map.mp hmem
      obtain ⟨c, hc, -⟩ := hsound.table.entry _ _ hent
      exact ⟨c, hc⟩
    have hall : ∀ h, h < p.records.length → .released h ∈ q.log := by
      intro h hlt
      rw [hlog, mem_append]
      cases hc : p.channel? h with
      | none => exact .inl ((hsound.history.gone h).mpr ⟨hlt, hc⟩)
      | some c => exact .inr (mem_map.mpr ⟨h, hsound.mapped_of_idle hidle hc, rfl⟩)
    have hmem : ∀ e ∈ q.log, e ∈ p.log ∨ ∃ h ∈ p.channels.map Prod.snd, e = .released h := by
      intro e he
      rw [hlog, mem_append, mem_map] at he
      exact he.imp_right fun ⟨h, hmem, heq⟩ => ⟨h, hmem, heq.symm⟩
    rw [← hq]
    refine ⟨⟨?_, ?_⟩, fun _ _ => hall⟩
    · have hchannels : q.channels = [] ∧ q.channelIds = [] := by
        rw [hq]
        exact ⟨rfl, rfl⟩
      constructor <;> simp [hnone, hchannels, Peer.handles, hstack]
    · obtain ⟨h1, h2, h3, h4, h5, h6, h7, h8, h9, h10, h11, h12⟩ := hsound.history
      constructor
      case lawful =>
        rw [hlog]
        refine h1.releases hnodup fun h hmem => ⟨fun hgone => ?_, fun kind => ?_⟩
        · obtain ⟨c, hc⟩ := hlive h hmem
          rw [((h3 h).mp hgone).2] at hc
          cases hc
        · rw [h11 kind h, hidle]
          rfl
      case known =>
        intro e he h heq
        rw [hlen]
        rcases hmem e he with hold | ⟨h', hmem', rfl⟩
        · exact h2 e hold h heq
        · cases heq
          obtain ⟨c, hc⟩ := hlive _ hmem'
          exact channel?_lt hc
      case gone =>
        intro h
        rw [hlen]
        refine ⟨fun hgone => ⟨?_, hnone h⟩, fun hlt => hall h hlt.1⟩
        rcases hmem _ hgone with hold | ⟨h', hmem', heq⟩
        · exact ((h3 h).mp hold).1
        · cases heq
          obtain ⟨c, hc⟩ := hlive _ hmem'
          exact channel?_lt hc
      case scopes =>
        intro kind h
        have hcount := count_unscoped ((p.channels.map Prod.snd).map .released)
          (fun e he => by obtain ⟨h', -, rfl⟩ := mem_map.mp he; rfl) kind h
        rw [hlog, count_append, count_append, hcount.1, hcount.2, hstack, h11 kind h, hidle]
        rfl
      case pending =>
        intro h hmem
        rw [hstack] at hmem
        cases hmem
      case refused => exact fun h _ => hnone h
      all_goals
        intro h c hc
        rw [hnone h] at hc
        cases hc
  next hbusy => exact ⟨hsound, fun hdestroying hidle => absurd ⟨hdestroying, hidle⟩ hbusy⟩

theorem sound_step (hsound : Sound p []) (step : PeerStep) : Sound (p.step step) [] := by
  have hflag : ∀ q : Peer, q.records = p.records → (q.channels = p.channels ∧
      q.channelIds = p.channelIds) → q.stack = p.stack → q.log = p.log → Sound q [] :=
    fun q hrecords hchannels hstack hlog => hsound.of_same hrecords hchannels hstack hlog
  cases step with
  | ret => exact hsound.ret
  | destroyResources => exact hsound.destroyResources.1
  | beginDestroy | setLink connected hasSocket | setOnChannel onChannel =>
    exact hflag _ rfl ⟨rfl, rfl⟩ rfl rfl
  | setHandlers h onOpen onMessage onClose =>
    rw [step]
    split
    · exact hsound
    · exact hsound.setHandlers h onOpen onMessage onClose
  | create label config memory =>
    rw [step]
    split
    · exact hsound
    · exact hsound.createChannel label config memory
  | openChannel h sent =>
    rw [step]
    split
    · exact hsound
    · exact hsound.openChannel h sent
  | send h sent =>
    rw [step]
    split
    · exact hsound
    · exact hsound.sendMessage h sent
  | close h =>
    rw [step]
    split
    · exact hsound
    · exact hsound.closeChannel h
  | dcep id data memory acked =>
    rw [step]
    split
    · exact hsound
    · change Sound (p.handleDcep id data memory acked) []
      rw [handleDcep]
      split
      · exact hsound.handleOpen id _ memory acked
      · exact hsound.handleAck id
      · exact hsound
  | message id =>
    rw [step]
    split
    · exact hsound
    · exact hsound.handleMessage id
  | streamReset id resetOutgoing =>
    rw [step]
    split
    · exact hsound
    · exact hsound.handleStreamReset id resetOutgoing
  | allStreamsReset walk resetOutgoing memory =>
    rw [step]
    split
    · exact hsound
    · exact hsound.handleAllStreamsReset walk resetOutgoing memory

end System

/-- **The life of a channel.**  In the log of every run each event follows those before it:
`on_open` comes once, after the channel was caused to open and has opened, `on_message` after
that and before `on_close`, `on_close` once, no callback once `on_close` has returned, none
for a channel whose `ACK` was refused, and a record is released once, when each callback that
has started has returned.  A channel that was closed and that no callback holds is released,
and so is every channel once the peer is destroyed. -/
theorem channel_lifecycle (isDtlsServer sctpDisabled : Bool) (steps : List PeerStep) :
    let p := peerMachine.run (.create isDtlsServer sctpDisabled) steps
    LawfulLog p.log ∧ (∀ h ∈ p.handles, .released h ∉ p.log) ∧
      (∀ h, .closing h ∈ p.log ∨ .ackRefused h ∈ p.log → h ∉ p.handles → .released h ∈ p.log) ∧
      (p.destroying = true → p.stack = [] →
        ∀ h, h < p.records.length → .released h ∈ (p.step .destroyResources).log) := by
  intro p
  have hsound : Sound p [] :=
    peerMachine.run_invariant (P := fun p => Sound p []) (fun _ step h => sound_step h step)
      (sound_create isDtlsServer sctpDisabled) steps
  refine ⟨hsound.history.lawful, fun h hmem hgone => ?_, fun h hclosed hfree => ?_,
    hsound.destroyResources.2⟩
  · obtain ⟨c, hc⟩ := hsound.table.holds h (.inl hmem)
    rw [((hsound.history.gone h).mp hgone).2] at hc
    cases hc
  · have hlt : h < p.records.length := by
      rcases hclosed with hmem | hmem <;> exact hsound.history.known _ hmem h rfl
    refine (hsound.history.gone h).mpr ⟨hlt, ?_⟩
    cases hc : p.channel? h with
    | none => rfl
    | some c =>
      have hclosing : c.closing = true := by
        rcases hclosed with hmem | hmem
        · exact (hsound.history.closes h c hc).mpr hmem
        · rw [hsound.history.refused h hmem] at hc
          cases hc
      refine absurd ?_ (hsound.table.closed h c hc hclosing)
      rw [hsound.table.refs h c hc, count_eq_zero.mpr hfree]
      rfl

end TurboMedia.DataChannel
