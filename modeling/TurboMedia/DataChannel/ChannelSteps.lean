import TurboMedia.DataChannel.LifecycleLaw

/-!
# What a call does to the channels of a peer

The records that a call keeps, and what a peer sends about which channel.

**Input.**  Any call of a peer, in any state.

**Method.**  `Evolves p q` holds when no record is added, a record keeps its stream id and
never stops closing, and each event that is added was caused by a record of `p`
(`Sourced`).  It is transitive, so a call is followed through its parts.

**Results.**  `evolves_step`: every call evolves a peer, apart from the two that add a record,
`createChannel_cases` and `handleOpen_cases`.
-/

namespace TurboMedia.DataChannel

open Peer List

section Data

def Sourced (p : Peer) : Event → Prop
  | .created _ _ => False
  | .reserved _ _ => False
  | .ackAccepted _ => False
  | .openSent h => ∃ c, p.channel? h = some c
  | .messageSent h => ∃ c, p.channel? h = some c ∧ c.closing = false
  | .streamReset id h => ∃ c, p.channel? h = some c ∧ c.closing = false ∧ c.id = id
  | _ => True

/-- A call that adds no record. -/
structure Evolves (p q : Peer) : Prop where
  role : q.isDtlsServer = p.isDtlsServer
  length : q.records.length = p.records.length
  records : ∀ h c', q.channel? h = some c' →
    ∃ c, p.channel? h = some c ∧ c'.id = c.id ∧ (c'.closing = false → c.closing = false)
  log : ∃ news, q.log = p.log ++ news ∧ ∀ e ∈ news, Sourced p e

variable {p q r : Peer} {h : ℕ} {c c' : Channel}

theorem Evolves.of_same (hrole : q.isDtlsServer = p.isDtlsServer) (hrecords : q.records = p.records)
    (hlog : q.log = p.log) : Evolves p q := by
  refine ⟨hrole, by rw [hrecords], fun h c hc => ⟨c, ?_, rfl, id⟩, [], by rw [hlog]; simp, by simp⟩
  rwa [channel?, hrecords] at hc

theorem Evolves.refl (p : Peer) : Evolves p p :=
  .of_same rfl rfl rfl

theorem Evolves.sourced {e : Event} (hev : Evolves p q) (hsourced : Sourced q e) :
    Sourced p e := by
  cases e <;> try exact hsourced
  case openSent h =>
    obtain ⟨c', hc'⟩ := hsourced
    obtain ⟨c, hc, -⟩ := hev.records h c' hc'
    exact ⟨c, hc⟩
  case messageSent h =>
    obtain ⟨c', hc', hopen⟩ := hsourced
    obtain ⟨c, hc, -, hclos⟩ := hev.records h c' hc'
    exact ⟨c, hc, hclos hopen⟩
  case streamReset id h =>
    obtain ⟨c', hc', hopen, hid⟩ := hsourced
    obtain ⟨c, hc, hsame, hclos⟩ := hev.records h c' hc'
    exact ⟨c, hc, hclos hopen, hsame.symm.trans hid⟩

theorem Evolves.trans (hpq : Evolves p q) (hqr : Evolves q r) : Evolves p r := by
  obtain ⟨news, hnews, hsourced⟩ := hpq.log
  obtain ⟨more, hmore, hcaused⟩ := hqr.log
  refine ⟨hqr.role.trans hpq.role, hqr.length.trans hpq.length, fun h c'' hc'' => ?_,
    news ++ more, by rw [hmore, hnews, append_assoc], fun e he => ?_⟩
  · obtain ⟨c', hc', hid', hclos'⟩ := hqr.records h c'' hc''
    obtain ⟨c, hc, hid, hclos⟩ := hpq.records h c' hc'
    exact ⟨c, hc, hid'.trans hid, fun hopen => hclos (hclos' hopen)⟩
  · rcases mem_append.mp he with hold | hnew
    · exact hsourced e hold
    · exact hpq.sourced (hcaused e hnew)

theorem Evolves.note {events : List Event} (hsourced : ∀ e ∈ events, Sourced p e) :
    Evolves p (p.note events) :=
  ⟨rfl, rfl, fun _ c hc => ⟨c, hc, rfl, id⟩, events, rfl, hsourced⟩

theorem Evolves.setChannel (hc : p.channel? h = some c) (hid : c'.id = c.id)
    (hclos : c'.closing = false → c.closing = false) : Evolves p (p.setChannel h c') := by
  refine ⟨rfl, length_set, fun h' d hd => ?_, [], (append_nil _).symm, by simp⟩
  rw [channel?_setChannel (channel?_lt hc)] at hd
  split at hd
  next heq =>
    subst heq
    cases hd
    exact ⟨c, hc, hid, hclos⟩
  next => exact ⟨d, hd, rfl, id⟩

end Data

section Calls

variable {p q : Peer} {h : ℕ} {c : Channel}

theorem evolves_release (p : Peer) (h : ℕ) : Evolves p (p.release h) := by
  rw [release]
  split
  next => exact .refl p
  next c hc =>
    dsimp only
    split
    · refine ⟨rfl, length_set, fun h' c' hc' => ?_, [.released h], rfl, ?_⟩
      · refine ⟨c', ?_, rfl, id⟩
        change (p.records.set h none)[h']?.join = some c' at hc'
        by_cases heq : h' = h
        · subst heq
          rw [channel?_set_self (channel?_lt hc)] at hc'
          cases hc'
        · rwa [channel?_set_other heq] at hc'
      · intro e he
        rw [mem_singleton.mp he]
        trivial
    · exact .setChannel hc rfl id

theorem evolves_start (p : Peer) (kind : CallbackKind) (h : ℕ) (frame : Frame) :
    Evolves p (p.start kind h frame) := by
  refine ⟨rfl, rfl, fun _ c hc => ⟨c, hc, rfl, id⟩, [.started kind h], rfl, ?_⟩
  intro e he
  rw [mem_singleton.mp he]
  trivial

theorem evolves_endClose (p : Peer) (h : ℕ) (admitted : Bool) :
    Evolves p (p.endClose h admitted) := by
  rw [endClose]
  split
  · exact (evolves_release p h).trans (evolves_release _ h)
  · exact evolves_release p h

theorem evolves_beginClose {resetOutgoing : Bool} (hc : p.channel? h = some c)
    (hopen : c.closing = false) : Evolves p (p.beginClose h c resetOutgoing) := by
  refine ⟨rfl, length_set, fun h' c' hc' => ?_,
    .closing h :: if resetOutgoing ∧ p.hasSocket then [.streamReset c.id h] else [], rfl, ?_⟩
  · change (p.setChannel h _).channel? h' = some c' at hc'
    rw [channel?_setChannel (channel?_lt hc)] at hc'
    split at hc'
    next heq =>
      subst heq
      cases hc'
      exact ⟨c, hc, rfl, by simp⟩
    next => exact ⟨c', hc', rfl, id⟩
  · intro e he
    rcases mem_cons.mp he with rfl | he
    · trivial
    · split at he
      · rw [mem_singleton.mp he]
        exact ⟨c, hc, hopen, rfl⟩
      · cases he

theorem evolves_closeAll (p : Peer) (resetOutgoing : Bool) (hs : List ℕ) :
    Evolves p (p.closeAll resetOutgoing hs) := by
  induction hs generalizing p with
  | nil => exact .refl p
  | cons h rest ih =>
    rw [closeAll]
    split
    next => exact ih p
    next c hc =>
      split
      next => exact (evolves_release p h).trans (ih _)
      next hclos =>
        rw [Bool.not_eq_true] at hclos
        have hbegun := @evolves_beginClose _ _ _ resetOutgoing hc hclos
        split
        · exact hbegun.trans (evolves_start _ .closed h _)
        · exact hbegun.trans ((evolves_endClose _ h true).trans (ih _))

theorem evolves_closeChannel (p : Peer) (h : ℕ) : Evolves p (p.closeChannel h) := by
  rw [closeChannel]
  split
  next => exact .refl p
  next c hc =>
    split
    next => exact .refl p
    next hclos =>
      rw [Bool.not_eq_true] at hclos
      have hbegun := @evolves_beginClose _ _ _ true hc hclos
      split
      · exact hbegun.trans (evolves_start _ .closed h _)
      · exact hbegun.trans (evolves_endClose _ h false)

theorem evolves_channelAdmit {id : UInt16} (hent : p.channelAdmit id = some (h, q)) :
    Evolves p q ∧ p.getChannel id = some h ∧ q.log = p.log := by
  rw [channelAdmit] at hent
  split at hent
  · cases hent
  · rw [Option.bind_eq_some_iff] at hent
    obtain ⟨h', hfind, hent⟩ := hent
    rw [Option.bind_eq_some_iff] at hent
    obtain ⟨c, hc, hent⟩ := hent
    split at hent
    · cases hent
      exact ⟨.setChannel hc rfl (fun hopen => hopen), hfind, rfl⟩
    · cases hent

theorem evolves_handleStreamReset (p : Peer) (id : UInt16) (resetOutgoing : Bool) :
    Evolves p (p.handleStreamReset id resetOutgoing) := by
  rw [handleStreamReset]
  split
  next => exact .refl p
  next h q hent =>
    exact (evolves_channelAdmit hent).1.trans (evolves_closeAll q resetOutgoing [h])

theorem evolves_retain (p : Peer) (hs : List ℕ) : Evolves p (p.retain hs) := by
  induction hs generalizing p with
  | nil => exact .refl p
  | cons h rest ih =>
    rw [retain, foldl_cons]
    refine Evolves.trans ?_ (ih _)
    split
    next => exact .refl p
    next c hc => exact .setChannel hc rfl (fun hopen => hopen)

theorem evolves_handleAllStreamsReset (p : Peer) (walk : List ℕ) (resetOutgoing memory : Bool) :
    Evolves p (p.handleAllStreamsReset walk resetOutgoing memory) := by
  rw [handleAllStreamsReset]
  split
  · exact (evolves_retain p _).trans (evolves_closeAll _ resetOutgoing _)
  · exact .refl p

theorem evolves_openChannel (p : Peer) (h : ℕ) (sent : Bool) :
    Evolves p (p.openChannel h sent) := by
  rw [openChannel]
  split
  next => exact .refl p
  next c hc =>
    split
    · exact .refl p
    · split
      · refine (@Evolves.setChannel _ _ _ { c with dcepSent := true } hc rfl
          (fun hopen => hopen)).trans (.note ?_)
        intro e he
        rw [mem_singleton.mp he]
        exact ⟨_, (channel?_setChannel (channel?_lt hc)).trans (if_pos rfl)⟩
      · exact .refl p

theorem evolves_sendMessage (p : Peer) (h : ℕ) (sent : Bool) :
    Evolves p (p.sendMessage h sent) := by
  rw [sendMessage]
  split
  next => exact .refl p
  next c hc =>
    split
    next hready =>
      refine .note fun e he => ?_
      rw [mem_singleton.mp he]
      exact ⟨c, hc, hready.2.1⟩
    next => exact .refl p

theorem evolves_callOnOpen (p : Peer) (h : ℕ) (wanted : Bool) :
    Evolves p (p.callOnOpen h wanted) := by
  rw [callOnOpen]
  split
  · exact evolves_start p .opened h _
  · exact evolves_release p h

theorem evolves_handleAck (p : Peer) (id : UInt16) : Evolves p (p.handleAck id) := by
  have hnoted : Evolves p (p.note [.ackArrived id]) :=
    .note fun e he => by rw [mem_singleton.mp he]; trivial
  rw [handleAck]
  split
  next => exact hnoted
  next h q hent =>
    refine hnoted.trans ((evolves_channelAdmit hent).1.trans ?_)
    split
    next => exact .refl q
    next c hc =>
      split
      · refine (@Evolves.setChannel _ _ _ { c with isOpen := true } hc rfl
          (fun hopen => hopen)).trans ((Evolves.note ?_).trans (evolves_callOnOpen _ h _))
        intro e he
        rw [mem_singleton.mp he]
        trivial
      · exact evolves_release q h

theorem evolves_handleMessage (p : Peer) (id : UInt16) : Evolves p (p.handleMessage id) := by
  rw [handleMessage]
  split
  next => exact .refl p
  next h q hent =>
    refine (evolves_channelAdmit hent).1.trans ?_
    split
    next => exact .refl q
    next c hc =>
      split
      · exact evolves_start q .message h _
      · exact evolves_release q h

theorem evolves_ret (p : Peer) : Evolves p p.ret := by
  rw [ret]
  split
  next => exact .refl p
  next frame stack hstack =>
    have hpop : ∀ kind h, Evolves p (({ p with stack := stack } : Peer).note
        [.returned kind h]) := by
      intro kind h
      refine (Evolves.of_same (p := p) (q := { p with stack := stack }) rfl rfl rfl).trans
        (.note ?_)
      intro e he
      rw [mem_singleton.mp he]
      trivial
    cases frame with
    | onChannel h => exact (hpop .channel h).trans (evolves_callOnOpen _ h _)
    | onOpen h => exact (hpop .opened h).trans (evolves_release _ h)
    | onMessage h => exact (hpop .message h).trans (evolves_release _ h)
    | onClose h admitted rest resetOutgoing =>
      exact (hpop .closed h).trans
        ((evolves_endClose _ h admitted).trans (evolves_closeAll _ resetOutgoing rest))

theorem evolves_setHandlers (p : Peer) (h : ℕ) (onOpen onMessage onClose : Bool) :
    Evolves p (p.setHandlers h onOpen onMessage onClose) := by
  rw [setHandlers]
  split
  next => exact .refl p
  next c hc =>
    split
    · exact .refl p
    · exact .setChannel hc rfl (fun hopen => hopen)

theorem evolves_destroyResources (p : Peer) : Evolves p p.destroyResources := by
  rw [destroyResources]
  split
  · refine ⟨rfl, foldl_set_length p.channels p.records, fun h c hc => ?_,
      p.channels.map (fun e => .released e.2), rfl, ?_⟩
    · refine ⟨c, ?_, rfl, id⟩
      change (p.channels.foldl _ p.records)[h]?.join = some c at hc
      rw [foldl_set_none] at hc
      split at hc
      · cases hc
      · exact hc
    · intro e he
      obtain ⟨entry, -, rfl⟩ := mem_map.mp he
      trivial
  · exact .refl p

end Calls

section Additions

variable {p q : Peer} {id : UInt16}

/-- A call that adds one record. -/
structure Adds (p q : Peer) (slot : Option Channel) (news : List Event) : Prop where
  role : q.isDtlsServer = p.isDtlsServer
  length : q.records.length = p.records.length + 1
  records : ∀ h, q.channel? h = if h = p.records.length then slot else p.channel? h
  log : q.log = p.log ++ news

/-- `dc_channel_create_owner_impl` adds a record under an allocated id, or nothing. -/
theorem createChannel_cases (p : Peer) (label : List UInt8)
    (config : Option (ChannelConfig × List UInt8)) (memory : Bool) :
    p.createChannel label config memory = p ∨ ∃ id request, p.allocChannelId = some id ∧
      Adds p (p.createChannel label config memory) (some (.blank id request 0))
        [.created p.records.length id] := by
  rw [createChannel]
  split
  · exact .inl rfl
  · split
    next request id hreq halloc =>
      split
      · exact .inr ⟨id, request, halloc, rfl, by simp, channel?_append p.records _, rfl⟩
      · exact .inl rfl
    next => exact .inl rfl

/-- `dcep_handle_message` on an `OPEN` adds a channel that is open, or one that is gone at
once, or nothing. -/
theorem handleOpen_cases (p : Peer) (id : UInt16) (request : OpenRequest) (memory acked : Bool) :
    let n := p.records.length
    p.handleOpen id request memory acked = p ∨ (id ∉ p.channelIds ∧
        Adds p (p.accepted id request) (some { Channel.blank id request 1 with isOpen := true })
          [.reserved n id, .ackAccepted n, .opens n] ∧
        Evolves (p.accepted id request) (p.handleOpen id request memory acked)) ∨
      (∃ reset : List Event, (∀ e ∈ reset, e = .streamReset id n) ∧
        Adds p (p.handleOpen id request memory acked) none
          ([.reserved n id, .ackRefused n] ++ reset ++ [.released n])) := by
  intro n
  rw [handleOpen]
  split
  next => exact .inl rfl
  next hready =>
    simp only [not_or, Bool.not_eq_true, contains_eq_mem, decide_eq_false_iff_not,
      Option.isSome_eq_false_iff, Option.isNone_iff_eq_none] at hready
    obtain ⟨-, hlive, hfree, hnone⟩ := hready
    split
    · refine .inr (.inl ⟨hfree, ⟨rfl, by simp [accepted], channel?_append p.records _,
        by simp [accepted, n]⟩, ?_⟩)
      rw [commitOpen_eq hlive]
      split
      · exact evolves_start _ .channel _ _
      · exact evolves_callOnOpen _ _ _
    · refine .inr (.inr ⟨if p.destroying = false ∧ p.hasSocket then [.streamReset id n] else [],
        ?_, ?_⟩)
      · intro e he
        split at he
        · exact mem_singleton.mp he
        · cases he
      · rw [rollBack_eq hnone]
        exact ⟨rfl, by simp, channel?_append p.records none, by simp [n]⟩

/-- A step that neither creates a channel nor handles a message of the protocol. -/
theorem evolves_step (p : Peer) (step : PeerStep)
    (hcreate : ∀ label config memory, step ≠ .create label config memory)
    (hdcep : ∀ id data memory acked, step ≠ .dcep id data memory acked) :
    Evolves p (p.step step) := by
  cases step with
  | ret => exact evolves_ret p
  | destroyResources => exact evolves_destroyResources p
  | beginDestroy | setLink connected hasSocket | setOnChannel onChannel =>
    exact .of_same rfl rfl rfl
  | create label config memory => exact absurd rfl (hcreate label config memory)
  | dcep id data memory acked => exact absurd rfl (hdcep id data memory acked)
  | setHandlers h onOpen onMessage onClose =>
    rw [step]
    split
    · exact .refl p
    · exact evolves_setHandlers p h onOpen onMessage onClose
  | openChannel h sent =>
    rw [step]
    split
    · exact .refl p
    · exact evolves_openChannel p h sent
  | send h sent =>
    rw [step]
    split
    · exact .refl p
    · exact evolves_sendMessage p h sent
  | close h =>
    rw [step]
    split
    · exact .refl p
    · exact evolves_closeChannel p h
  | message id =>
    rw [step]
    split
    · exact .refl p
    · exact evolves_handleMessage p id
  | streamReset id resetOutgoing =>
    rw [step]
    split
    · exact .refl p
    · exact evolves_handleStreamReset p id resetOutgoing
  | allStreamsReset walk resetOutgoing memory =>
    rw [step]
    split
    · exact .refl p
    · exact evolves_handleAllStreamsReset p walk resetOutgoing memory

end Additions

variable {p q : Peer} {id : UInt16} {h h' : ℕ}

theorem release_log (p : Peer) (h : ℕ) :
    (p.release h).log = p.log ∨ (p.release h).log = p.log ++ [.released h] := by
  rw [release]
  split
  · exact .inl rfl
  · dsimp only
    split
    · exact .inr rfl
    · exact .inl rfl

/-- An incoming reset closes the channel that is found under its id, and no other. -/
theorem handleStreamReset_closing {resetOutgoing : Bool}
    (hclos : .closing h' ∈ (p.handleStreamReset id resetOutgoing).log) :
    .closing h' ∈ p.log ∨ p.getChannel id = some h' := by
  rw [handleStreamReset] at hclos
  split at hclos
  next => exact .inl hclos
  next h q hent =>
    obtain ⟨-, hfound, hlog⟩ := evolves_channelAdmit hent
    have hrel : ∀ r : Peer, .closing h' ∈ (r.release h).log → .closing h' ∈ r.log := by
      intro r hmem
      rcases release_log r h with hsame | hreleased
      · rwa [hsame] at hmem
      · rw [hreleased] at hmem
        exact (mem_append.mp hmem).resolve_right (by simp)
    rw [closeAll] at hclos
    split at hclos
    next => exact .inl (hlog ▸ hclos)
    next c hc =>
      split at hclos
      next => exact .inl (hlog ▸ hrel q hclos)
      next =>
        have hbegun : .closing h' ∈ (q.beginClose h c resetOutgoing).log := by
          split at hclos
          · exact (mem_append.mp hclos).resolve_right (by simp)
          · exact hrel _ (hrel _ hclos)
        have hnews : (q.beginClose h c resetOutgoing).log = q.log ++
          (.closing h :: if resetOutgoing ∧ q.hasSocket then [.streamReset c.id h] else []) := rfl
        rw [hnews, hlog, mem_append, mem_cons] at hbegun
        rcases hbegun with hold | heq | hreset
        · exact .inl hold
        · cases heq
          exact .inr hfound
        · split at hreset
          · cases mem_singleton.mp hreset
          · cases hreset

/-- A message is delivered to the channel that is found under its id, and to no other. -/
theorem handleMessage_started (p : Peer) (id : UInt16) :
    ∃ news, (p.handleMessage id).log = p.log ++ news ∧
      ∀ h, .started .message h ∈ news → p.getChannel id = some h := by
  rw [handleMessage]
  split
  next => exact ⟨[], by simp, by simp⟩
  next h q hent =>
    obtain ⟨-, hfound, hlog⟩ := evolves_channelAdmit hent
    split
    next => exact ⟨[], by simp [hlog], by simp⟩
    next c hc =>
      split
      · refine ⟨[.started .message h], by rw [← hlog]; rfl, fun h' hmem => ?_⟩
        cases mem_singleton.mp hmem
        exact hfound
      · rcases release_log q h with hsame | hreleased
        · exact ⟨[], by rw [hsame, hlog, append_nil], by simp⟩
        · exact ⟨[.released h], by rw [hreleased, hlog], by simp⟩

end TurboMedia.DataChannel
