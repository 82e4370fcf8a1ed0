import TurboMedia.DataChannel.TwoPeers

/-!
# Streams are reused for one generation after the other

Two channels of a peer never share a stream, a stream has the parity of the role that created
its channel, and what was sent for a channel reaches the channel that it was sent to.

**Input.**  Any run of two peers in which a channel is created only on a stream that is quiet.

**Method.**  `Latest` is the last channel that a peer has created on a stream.  For the streams
of one role (`owns`), `Generations` says that what is on its way, and the channel of the other
side, belong to it; the `OPEN` of a channel separates what was sent before in its queue.  A
call of either peer keeps it by what is known of every call (`Evolves`, `Adds`).
-/

namespace TurboMedia.DataChannel

open List Link Function Item

section Data

def owns (b : Bool) (id : UInt16) : Prop :=
  decide (id &&& 1 = 0) = !b

/-- The last channel that a peer has created on a stream. -/
def Peer.Latest (p : Peer) (id : UInt16) (h : ℕ) : Prop :=
  .created h id ∈ p.log ∧ ∀ h', .created h' id ∈ p.log → h' ≤ h

/-- What holds of each peer. -/
structure PeerLaw (b : Bool) (p : Peer) : Prop where
  sound : Sound p []
  role : p.isDtlsServer = b
  mine : ∀ h id, .created h id ∈ p.log → owns b id
  theirs : ∀ h id, .reserved h id ∈ p.log → owns (!b) id

/-- What holds of the streams of the peer `X` in the role `b`, which sends `out` to `Y` and
is sent `back`. -/
structure Generations (b : Bool) (X Y : Peer) (out back : List Item) (partner : ℕ → Option ℕ) :
    Prop where
  opening : ∀ item ∈ out, owns b item.streamId → item.content.isOpening = true →
    X.Latest item.streamId item.sender
  mapped : ∀ k c, Y.channel? k = some c → owns b c.id → c.closing = false →
    ∃ h, partner k = some h ∧ X.Latest c.id h
  answers : ∀ item ∈ back, owns b item.streamId → item.content.isOpening = false →
    ∃ h, partner item.sender = some h ∧ X.Latest item.streamId h
  ordered : ∀ item ∈ out, owns b item.streamId → ∀ k c, Y.channel? k = some c →
    c.id = item.streamId → c.closing = false → X.Latest item.streamId item.sender
  after : out.Pairwise (fun first item => owns b item.streamId →
    first.streamId = item.streamId → first.content.isOpening = true →
      X.Latest item.streamId item.sender)
  live : ∀ h c, X.channel? h = some c → owns b c.id → X.Latest c.id h
  senders : ∀ item ∈ back, item.sender < Y.records.length

variable {b : Bool} {X X' Y Y' : Peer} {out back : List Item} {partner : ℕ → Option ℕ}
  {id : UInt16} {h : ℕ}

theorem not_owns (howns : owns b id) : ¬ owns (!b) id := by
  rw [owns] at howns ⊢
  rw [howns]
  cases b <;> simp

theorem owns_or (b : Bool) (id : UInt16) : owns b id ∨ owns (!b) id := by
  rw [owns, owns]
  cases b <;> cases decide (id &&& 1 = 0) <;> simp

theorem sentItems_sourced {item : Item} (hev : Evolves X X') (hitem : item ∈ sentItems X X') :
    ∃ c, X.channel? item.sender = some c ∧ c.id = item.streamId ∧
      (item.content.isOpening = false → c.closing = false) := by
  obtain ⟨news, hlog, hsourced⟩ := hev.log
  rw [sentItems, hlog, drop_left, mem_filterMap] at hitem
  obtain ⟨e, he, hsent⟩ := hitem
  have hcause := hsourced e he
  cases e <;> simp only [sentItem, reduceCtorEq] at hsent
  case openSent h =>
    rw [Option.bind_eq_some_iff] at hsent
    obtain ⟨c', hc', hsent⟩ := hsent
    obtain ⟨c, hc, hid, -⟩ := hev.records h c' hc'
    obtain ⟨data, -, rfl⟩ := Option.map_eq_some_iff.mp hsent
    exact ⟨c, hc, hid.symm, by simp [Content.isOpening]⟩
  case ackAccepted h => exact hcause.elim
  case messageSent h =>
    obtain ⟨c', hc', rfl⟩ := Option.map_eq_some_iff.mp hsent
    obtain ⟨c, hc, hopen⟩ := hcause
    obtain ⟨d, hd, hid, -⟩ := hev.records h c' hc'
    rw [hc] at hd
    cases hd
    exact ⟨c, hc, hid.symm, fun _ => hopen⟩
  case streamReset id h =>
    cases hsent
    obtain ⟨c, hc, hopen, hid⟩ := hcause
    exact ⟨c, hc, hid, fun _ => hopen⟩

theorem Evolves.created_iff (hev : Evolves X X') :
    .created h id ∈ X'.log ↔ .created h id ∈ X.log := by
  obtain ⟨news, hlog, hsourced⟩ := hev.log
  rw [hlog, mem_append]
  exact ⟨fun hmem => hmem.resolve_right fun hnew => hsourced _ hnew, .inl⟩

theorem Evolves.latest_iff (hev : Evolves X X') : X'.Latest id h ↔ X.Latest id h := by
  simp [Peer.Latest, hev.created_iff]

end Data

section Steps

variable {b : Bool} {X X' Y Y' : Peer} {out back : List Item} {partner : ℕ → Option ℕ}
  {id : UInt16} {h : ℕ}

variable (hgen : Generations b X Y out back partner)
include hgen

theorem Generations.callOut (hev : Evolves X X') :
    Generations b X' Y (out ++ sentItems X X') back partner := by
  have hnew : ∀ item ∈ sentItems X X', owns b item.streamId →
      X.Latest item.streamId item.sender := by
    intro item hitem howns
    obtain ⟨c, hc, hid, -⟩ := sentItems_sourced hev hitem
    rw [← hid] at howns ⊢
    exact hgen.live _ c hc howns
  obtain ⟨h1, h2, h3, h4, h5, h6, h7⟩ := hgen
  constructor
  case senders => exact h7
  all_goals simp only [hev.latest_iff]
  case opening =>
    intro item hitem howns hopn
    rcases mem_append.mp hitem with hold | hsent
    · exact h1 item hold howns hopn
    · exact hnew item hsent howns
  case mapped => exact h2
  case answers => exact h3
  case ordered =>
    intro item hitem howns k c hc hid hopen
    rcases mem_append.mp hitem with hold | hsent
    · exact h4 item hold howns k c hc hid hopen
    · exact hnew item hsent howns
  case after =>
    refine pairwise_append.mpr ⟨h5, ?_, fun _ _ item hsent howns _ _ => hnew item hsent howns⟩
    exact pairwise_of_forall_mem_list fun _ _ item hsent howns _ _ => hnew item hsent howns
  case live =>
    intro h c' hc' howns
    obtain ⟨c, hc, hid, -⟩ := hev.records h c' hc'
    rw [hid] at howns ⊢
    exact h6 h c hc howns

theorem Generations.callBack (hev : Evolves Y Y') :
    Generations b X Y' out (back ++ sentItems Y Y') partner := by
  obtain ⟨h1, h2, h3, h4, h5, h6, h7⟩ := hgen
  constructor
  case opening => exact h1
  case mapped =>
    intro k c' hc' howns hopen
    obtain ⟨c, hc, hid, hclos⟩ := hev.records k c' hc'
    rw [hid] at howns ⊢
    exact h2 k c hc howns (hclos hopen)
  case answers =>
    intro item hitem howns hopn
    rcases mem_append.mp hitem with hold | hsent
    · exact h3 item hold howns hopn
    · obtain ⟨c, hc, hid, hopen⟩ := sentItems_sourced hev hsent
      rw [← hid] at howns ⊢
      exact h2 _ c hc howns (hopen hopn)
  case ordered =>
    intro item hitem howns k c' hc' hid' hopen
    obtain ⟨c, hc, hid, hclos⟩ := hev.records k c' hc'
    exact h4 item hitem howns k c hc (hid.symm.trans hid') (hclos hopen)
  case after => exact h5
  case live => exact h6
  case senders =>
    intro item hitem
    rw [hev.length]
    rcases mem_append.mp hitem with hold | hsent
    · exact h7 item hold
    · obtain ⟨c, hc, -⟩ := sentItems_sourced hev hsent
      exact channel?_lt hc

theorem Generations.shrink {out' back' : List Item}
    (hout : out'.Sublist out) (hback : back'.Sublist back) :
    Generations b X Y out' back' partner := by
  obtain ⟨h1, h2, h3, h4, h5, h6, h7⟩ := hgen
  exact ⟨fun item hitem => h1 item (hout.subset hitem), h2,
    fun item hitem => h3 item (hback.subset hitem),
    fun item hitem => h4 item (hout.subset hitem), h5.sublist hout, h6,
    fun item hitem => h7 item (hback.subset hitem)⟩

theorem Generations.create {request : OpenRequest}
    (hX : Sound X []) (hY : Sound Y []) (hfree : id ∉ X.channelIds)
    (hadds : Adds X X' (some (.blank id request 0)) [.created X.records.length id])
    (hout : ∀ item ∈ out, item.streamId = id → item.content.isOpening = false)
    (hback : ∀ item ∈ back, item.streamId = id → item.content.isOpening = true)
    (hnone : Y.getChannel id = none) : Generations b X' Y out back partner := by
  have hnew : X'.Latest id X.records.length := by
    refine ⟨by simp [hadds.log], fun h' hmem => ?_⟩
    rw [hadds.log, mem_append, mem_singleton] at hmem
    rcases hmem with hold | heq
    · exact (hX.history.known _ hold h' rfl).le
    · cases heq
      exact le_rfl
  have hother : ∀ id' h, id' ≠ id → X.Latest id' h → X'.Latest id' h := by
    intro id' h hne hlatest
    refine ⟨by rw [hadds.log]; exact mem_append_left _ hlatest.1, fun h' hmem => ?_⟩
    rw [hadds.log, mem_append, mem_singleton] at hmem
    rcases hmem with hold | heq
    · exact hlatest.2 h' hold
    · cases heq
      exact absurd rfl hne
  have hquiet : ∀ k c, Y.channel? k = some c → c.closing = false → c.id ≠ id := by
    rintro k c hc hopen rfl
    rw [hY.table.getChannel_eq hc hopen] at hnone
    cases hnone
  obtain ⟨h1, h2, h3, h4, h5, h6, h7⟩ := hgen
  constructor
  case opening =>
    intro item hitem howns hopn
    refine hother _ _ (fun heq => ?_) (h1 item hitem howns hopn)
    rw [hout item hitem heq] at hopn
    cases hopn
  case mapped =>
    intro k c hc howns hopen
    obtain ⟨h, hpartner, hlatest⟩ := h2 k c hc howns hopen
    exact ⟨h, hpartner, hother _ _ (hquiet k c hc hopen) hlatest⟩
  case answers =>
    intro item hitem howns hopn
    obtain ⟨h, hpartner, hlatest⟩ := h3 item hitem howns hopn
    refine ⟨h, hpartner, hother _ _ (fun heq => ?_) hlatest⟩
    rw [hback item hitem heq] at hopn
    cases hopn
  case ordered =>
    intro item hitem howns k c hc hid hopen
    exact hother _ _ (hid ▸ hquiet k c hc hopen) (h4 item hitem howns k c hc hid hopen)
  case after =>
    refine List.Pairwise.imp_of_mem ?_ h5
    intro first item hfirst hitem hlatest howns hsame hopn
    refine hother _ _ (fun heq => ?_) (hlatest howns hsame hopn)
    rw [hout first hfirst (hsame.trans heq)] at hopn
    cases hopn
  case live =>
    intro h c hc howns
    rw [hadds.records] at hc
    split at hc
    next heq =>
      cases hc
      rw [heq]
      exact hnew
    next =>
      refine hother _ _ (fun heq => hfree ?_) (h6 h c hc howns)
      rw [← heq]
      exact hX.table.ids h c hc
  case senders => exact h7

/-- The initiator takes a channel of the other side, on a stream that is not its own. -/
theorem Generations.addOut {slot : Option Channel} {news : List Event} {more : List Item}
    (hadds : Adds X X' slot news)
    (hslot : ∀ c, slot = some c → owns (!b) c.id) (hnews : ∀ h id, .created h id ∉ news)
    (hmore : ∀ item ∈ more, owns (!b) item.streamId) :
    Generations b X' Y (out ++ more) back partner := by
  have hlatest : ∀ id h, X'.Latest id h ↔ X.Latest id h := by
    intro id h
    simp [Peer.Latest, hadds.log, hnews]
  have hapart : ∀ item ∈ more, ¬ owns b item.streamId := fun item hitem howns =>
    not_owns howns (hmore item hitem)
  obtain ⟨h1, h2, h3, h4, h5, h6, h7⟩ := hgen
  constructor
  case senders => exact h7
  all_goals simp only [hlatest]
  case opening =>
    intro item hitem howns hopn
    rcases mem_append.mp hitem with hold | hsent
    · exact h1 item hold howns hopn
    · exact absurd howns (hapart item hsent)
  case mapped => exact h2
  case answers => exact h3
  case ordered =>
    intro item hitem howns
    rcases mem_append.mp hitem with hold | hsent
    · exact h4 item hold howns
    · exact absurd howns (hapart item hsent)
  case after =>
    refine pairwise_append.mpr ⟨h5, ?_, fun _ _ item hsent howns =>
      absurd howns (hapart item hsent)⟩
    exact pairwise_of_forall_mem_list fun _ _ item hsent howns =>
      absurd howns (hapart item hsent)
  case live =>
    intro h c hc howns
    rw [hadds.records] at hc
    split at hc
    · exact absurd (hslot c hc) (not_owns howns)
    · exact h6 h c hc howns

theorem Generations.addBack {c : Channel} {news : List Event} (hadds : Adds Y Y' (some c) news)
    (hother : owns (!b) c.id) : Generations b X Y' out back partner := by
  obtain ⟨h1, h2, h3, h4, h5, h6, h7⟩ := hgen
  refine ⟨h1, fun k d hd howns hopen => ?_, h3, fun item hitem howns k d hd hid hopen => ?_, h5,
    h6, fun item hitem => ?_⟩
  · rw [hadds.records] at hd
    split at hd
    · cases hd
      exact absurd hother (not_owns howns)
    · exact h2 k d hd howns hopen
  · rw [hadds.records] at hd
    split at hd
    · cases hd
      rw [hid] at hother
      exact absurd hother (not_owns howns)
    · exact h4 item hitem howns k d hd hid hopen
  · rw [hadds.length]
    exact Nat.lt_succ_of_lt (h7 item hitem)

omit hgen

/-- The other side takes the `OPEN` of a channel, and may answer for the record that it
adds. -/
theorem Generations.receive
    {pre post more : List Item} {item : Item} {slot : Option Channel} {news : List Event}
    (hgen : Generations b X Y (pre ++ item :: post) back partner)
    (hfirst : ∀ before ∈ pre, before.streamId ≠ item.streamId)
    (hopn : item.content.isOpening = true) (howns : owns b item.streamId)
    (hadds : Adds Y Y' slot news) (hslot : ∀ c, slot = some c → c.id = item.streamId)
    (hmore : ∀ answer ∈ more, answer.streamId = item.streamId ∧ answer.sender = Y.records.length) :
    Generations b X Y' (pre ++ post) (back ++ more)
      (update partner Y.records.length (some item.sender)) := by
  have hsub : (pre ++ post).Sublist (pre ++ item :: post) :=
    List.Sublist.append_left (sublist_cons_self _ _) _
  obtain ⟨h1, h2, h3, h4, h5, h6, h7⟩ := hgen
  have hlatest : X.Latest item.streamId item.sender := h1 item (by simp) howns hopn
  have hlt : ∀ k c, Y.channel? k = some c → k ≠ Y.records.length := fun k c hc heq =>
    absurd (channel?_lt hc) (by omega)
  constructor
  case opening => exact fun item' hitem => h1 item' (hsub.subset hitem)
  case mapped =>
    intro k c hc howns' hopen
    rw [hadds.records] at hc
    split at hc
    next heq =>
      rw [hslot c hc, heq, update_self]
      exact ⟨_, rfl, hlatest⟩
    next hne =>
      rw [update_of_ne hne]
      exact h2 k c hc howns' hopen
  case answers =>
    intro answer hans howns' hbody
    rcases mem_append.mp hans with hold | hnew
    · rw [update_of_ne (h7 answer hold).ne]
      exact h3 answer hold howns' hbody
    · obtain ⟨hid, hsender⟩ := hmore answer hnew
      rw [hid, hsender, update_self]
      exact ⟨_, rfl, hlatest⟩
  case ordered =>
    intro item' hitem howns' k c hc hid hopen
    rw [hadds.records] at hc
    split at hc
    next heq =>
      have hsame : item.streamId = item'.streamId := (hslot c hc).symm.trans hid
      rcases mem_append.mp hitem with hpre | hpost
      · exact absurd hsame.symm (hfirst item' hpre)
      · have hafter := (pairwise_append.mp h5).2.1
        exact (pairwise_cons.mp hafter).1 item' hpost howns' hsame hopn
    next => exact h4 item' (hsub.subset hitem) howns' k c hc hid hopen
  case after => exact h5.sublist hsub
  case live => exact h6
  case senders =>
    intro answer hans
    rw [hadds.length]
    rcases mem_append.mp hans with hold | hnew
    · exact Nat.lt_succ_of_lt (h7 answer hold)
    · rw [(hmore answer hnew).2]
      exact Nat.lt_succ_self _

end Steps

section Peers

variable {b : Bool} {p q : Peer} {id : UInt16}

/-- The sends of a call that adds a record come before those of its rest. -/
theorem sentItems_adds {p' : Peer} {slot : Option Channel} {news : List Event}
    (hadds : Adds p p' slot news) (hev : Evolves p' q) :
    sentItems p q = news.filterMap (sentItem q) ++ sentItems p' q := by
  obtain ⟨more, hmore, -⟩ := hev.log
  have hlog : q.log = p.log ++ (news ++ more) := by
    rw [hmore, hadds.log, append_assoc]
  rw [sentItems, sentItems, hlog, drop_left, filterMap_append]
  congr 2
  rw [hadds.log, ← append_assoc, drop_left]

/-- A call that takes the `OPEN` of a channel on a stream. -/
structure Receives (id : UInt16) (p q : Peer) : Prop where
  parts : ∃ p' slot news, Adds p p' slot news ∧ Evolves p' q ∧
    (∀ c, slot = some c → c.id = id) ∧
      (∀ h id', .created h id' ∉ news) ∧ (∀ h id', .reserved h id' ∈ news → id' = id) ∧
        ∀ item ∈ news.filterMap (sentItem q), item.streamId = id ∧ item.sender = p.records.length

theorem handleOpen_receives (p : Peer) (id : UInt16) (request : OpenRequest) (memory acked : Bool) :
    p.handleOpen id request memory acked = p ∨
      Receives id p (p.handleOpen id request memory acked) := by
  rcases handleOpen_cases p id request memory acked with
    hsame | ⟨-, hadds, hev⟩ | ⟨reset, hreset, hadds⟩
  · exact .inl hsame
  · refine .inr ⟨_, _, _, hadds, hev, ?_, by simp, by simp, ?_⟩
    · rintro c ⟨⟩
      rfl
    · intro item hitem
      simp only [filterMap_cons, sentItem, filterMap_nil] at hitem
      cases hc : (p.handleOpen id request memory acked).channel? p.records.length with
      | none => simp [hc] at hitem
      | some c =>
        rw [hc] at hitem
        obtain ⟨c', hc', hid, -⟩ := hev.records _ _ hc
        rw [hadds.records, if_pos rfl] at hc'
        cases hc'
        rw [mem_singleton.mp hitem]
        exact ⟨hid, rfl⟩
  · refine .inr ⟨_, _, _, hadds, .refl _, by simp, ?_, ?_, ?_⟩
    · intro h id' hmem
      simp only [mem_append, mem_cons, not_mem_nil, reduceCtorEq, or_false, false_or] at hmem
      cases hreset _ hmem
    · intro h id' hmem
      simp only [mem_append, mem_cons, not_mem_nil, Event.reserved.injEq,
        reduceCtorEq, or_false] at hmem
      rcases hmem with heq | hmem
      · exact heq.2
      · cases hreset _ hmem
    · intro item hitem
      obtain ⟨e, he, hsent⟩ := mem_filterMap.mp hitem
      simp only [mem_append, mem_cons, not_mem_nil, or_false] at he
      rcases he with ((rfl | rfl) | hmem) | rfl
      · cases hsent
      · cases hsent
      · rw [hreset _ hmem] at hsent
        cases hsent
        exact ⟨rfl, rfl⟩
      · cases hsent

theorem handleDcep_cases (p : Peer) (id : UInt16) (data : List UInt8) (memory acked : Bool) :
    Evolves p (p.step (.dcep id data memory acked)) ∨
      (owns (!p.isDtlsServer) id ∧ Receives id p (p.step (.dcep id data memory acked))) := by
  rw [Peer.step]
  split
  · exact .inl (.refl p)
  · rw [Peer.handleDcep]
    split
    next request hread =>
      rcases handleOpen_receives p id request memory acked with hsame | hrecv
      · rw [hsame]
        exact .inl (.refl p)
      · refine .inr ⟨?_, hrecv⟩
        rw [owns, (readDcep_opening hread).1, Bool.not_not]
    next => exact .inl (evolves_handleAck p id)
    next => exact .inl (.refl p)

theorem PeerLaw.evolves (hlaw : PeerLaw b p) (hev : Evolves p q) (hsound : Sound q []) :
    PeerLaw b q := by
  obtain ⟨news, hlog, hsourced⟩ := hev.log
  refine ⟨hsound, hev.role.trans hlaw.role, fun h id hmem => ?_, fun h id hmem => ?_⟩ <;>
    rw [hlog] at hmem <;> rcases mem_append.mp hmem with hold | hnew
  · exact hlaw.mine h id hold
  · exact (hsourced _ hnew).elim
  · exact hlaw.theirs h id hold
  · exact (hsourced _ hnew).elim

theorem PeerLaw.receives (hlaw : PeerLaw b p) (hrecv : Receives id p q) (howns : owns (!b) id)
    (hsound : Sound q []) : PeerLaw b q := by
  obtain ⟨p', slot, news, hadds, hev, -, hcreated, hrsv, -⟩ := hrecv
  obtain ⟨more, hmore, hsourced⟩ := hev.log
  refine ⟨hsound, hev.role.trans (hadds.role.trans hlaw.role), fun h id' hmem => ?_,
    fun h id' hmem => ?_⟩ <;> rw [hmore, hadds.log] at hmem <;>
    rcases mem_append.mp hmem with hmem | hnew
  · exact hlaw.mine h id' ((mem_append.mp hmem).resolve_right (hcreated h id'))
  · exact (hsourced _ hnew).elim
  · rcases mem_append.mp hmem with hold | hnew
    · exact hlaw.theirs h id' hold
    · rw [hrsv h id' hnew]
      exact howns
  · exact (hsourced _ hnew).elim

end Peers

section Links

variable {s t : Link} {b : Bool} {q : Peer} {i : ℕ} {item : Item}

/-- The invariant of two peers. -/
structure Apart (s : Link) : Prop where
  law : ∀ b, PeerLaw b (s.peer b)
  gen : ∀ b, Generations b (s.peer b) (s.peer (!b)) (s.queue b) (s.queue (!b)) (s.partner (!b))

theorem apart_create (sctpDisabled : Bool) : Apart (.create sctpDisabled) := by
  refine ⟨fun b => ⟨sound_create b sctpDisabled, rfl, ?_, ?_⟩, fun b => ?_⟩
  · simp [create, Peer.create]
  · simp [create, Peer.create]
  · constructor <;> simp [create, Peer.create, Peer.channel?]

theorem Apart.of_sides (b : Bool) (hlaw : PeerLaw b (s.peer b))
    (hother : PeerLaw (!b) (s.peer (!b)))
    (hout : Generations b (s.peer b) (s.peer (!b)) (s.queue b) (s.queue (!b)) (s.partner (!b)))
    (hback : Generations (!b) (s.peer (!b)) (s.peer b) (s.queue (!b)) (s.queue b)
      (s.partner b)) : Apart s := by
  have hb : ∀ b', b' = b ∨ b' = !b := by
    intro b'
    cases b <;> cases b' <;> simp
  refine ⟨fun b' => ?_, fun b' => ?_⟩ <;> rcases hb b' with rfl | rfl
  · exact hlaw
  · exact hother
  · exact hout
  · rw [Bool.not_not]
    exact hback

theorem Apart.back (hapart : Apart s) (b : Bool) :
    Generations (!b) (s.peer (!b)) (s.peer b) (s.queue (!b)) (s.queue b) (s.partner b) := by
  have hback := hapart.gen (!b)
  rwa [Bool.not_not] at hback

@[simp] theorem perform_sides (s : Link) (b : Bool) (q : Peer) :
    (s.perform b q).peer b = q ∧ (s.perform b q).peer (!b) = s.peer (!b) ∧
      (s.perform b q).queue b = s.queue b ++ sentItems (s.peer b) q ∧
        (s.perform b q).queue (!b) = s.queue (!b) ∧ (s.perform b q).partner = s.partner := by
  simp [perform]

@[simp] theorem take_sides (s : Link) (b : Bool) (i : ℕ) (item : Item) (q : Peer) :
    (s.take b i item q).peer b = q ∧ (s.take b i item q).peer (!b) = s.peer (!b) ∧
      (s.take b i item q).queue b = s.queue b ++ sentItems (s.peer b) q ∧
        (s.take b i item q).queue (!b) = (s.queue (!b)).eraseIdx i := by
  simp [Link.take, perform]

theorem Apart.perform (hapart : Apart s) (hev : Evolves (s.peer b) q) (hsound : Sound q []) :
    Apart (s.perform b q) := by
  obtain ⟨hpeer, hother, hq, hback, hpartner⟩ := perform_sides s b q
  refine .of_sides b ?_ ?_ ?_ ?_ <;> simp only [hpeer, hother, hq, hback, hpartner]
  · exact (hapart.law b).evolves hev hsound
  · exact hapart.law (!b)
  · exact (hapart.gen b).callOut hev
  · exact (hapart.back b).callBack hev

theorem Apart.create {id : UInt16} {request : OpenRequest} (hapart : Apart s)
    (halloc : (s.peer b).allocChannelId = some id) (hquiet : s.Quiet b id)
    (hadds : Adds (s.peer b) q (some (.blank id request 0))
      [.created (s.peer b).records.length id]) (hsound : Sound q []) : Apart (s.perform b q) := by
  obtain ⟨hpeer, hother, hq, hback, hpartner⟩ := perform_sides s b q
  have howns : owns b id := by
    rw [owns, allocChannelId_parity halloc, (hapart.law b).role]
  have hnone : sentItems (s.peer b) q = [] := by
    rw [sentItems, hadds.log, drop_left]
    rfl
  refine .of_sides b ?_ ?_ ?_ ?_ <;>
    simp [hother, hback, hnone]
  · refine ⟨hsound, hadds.role.trans (hapart.law b).role, fun h id' hmem => ?_,
      fun h id' hmem => ?_⟩ <;> rw [hadds.log] at hmem <;>
      rcases mem_append.mp hmem with hold | hnew
    · exact (hapart.law b).mine h id' hold
    · cases mem_singleton.mp hnew
      exact howns
    · exact (hapart.law b).theirs h id' hold
    · cases mem_singleton.mp hnew
  · exact hapart.law (!b)
  · exact (hapart.gen b).create (hapart.law b).sound (hapart.law (!b)).sound
      (firstFree_some halloc).1 hadds hquiet.1 hquiet.2.1 hquiet.2.2
  · refine (hapart.back b).addBack hadds ?_
    rw [Bool.not_not]
    exact howns

theorem first_some (hfirst : s.first b i = some item) :
    ∃ pre post, s.queue (!b) = pre ++ item :: post ∧
      (s.queue (!b)).eraseIdx i = pre ++ post ∧
        ∀ before ∈ pre, before.streamId ≠ item.streamId := by
  rw [first, Option.filter_eq_some_iff] at hfirst
  obtain ⟨hget, hall⟩ := hfirst
  obtain ⟨hlt, hitem⟩ := List.getElem?_eq_some_iff.mp hget
  refine ⟨(s.queue (!b)).take i, (s.queue (!b)).drop (i + 1), ?_, eraseIdx_eq_take_drop_succ _ _,
    fun before hmem => ?_⟩
  · rw [← hitem, cons_getElem_drop_succ, take_append_drop]
  · simpa using all_eq_true.mp hall before hmem

theorem Apart.take (hapart : Apart s) (hev : Evolves (s.peer b) q) (hsound : Sound q []) :
    Apart (s.take b i item q) := by
  obtain ⟨hpeer, hother, hq, hback⟩ := take_sides s b i item q
  have hpartner : (s.take b i item q).partner = s.partner := by
    rw [Link.take]
    exact if_neg fun hgrown => absurd hgrown.2 (by rw [hev.length]; exact lt_irrefl _)
  have hsub : ((s.queue (!b)).eraseIdx i).Sublist (s.queue (!b)) := eraseIdx_sublist _ _
  refine .of_sides b ?_ ?_ ?_ ?_ <;> simp only [hpeer, hother, hq, hback, hpartner]
  · exact (hapart.law b).evolves hev hsound
  · exact hapart.law (!b)
  · exact ((hapart.gen b).callOut hev).shrink (.refl _) hsub
  · exact ((hapart.back b).callBack hev).shrink hsub (.refl _)

/-- The `OPEN` of a channel arrives. -/
theorem Apart.receive (hapart : Apart s) (hfirst : s.first b i = some item)
    (hopn : item.content.isOpening = true) (howns : owns (!b) item.streamId)
    (hrecv : Receives item.streamId (s.peer b) q) (hsound : Sound q []) :
    Apart (s.take b i item q) := by
  obtain ⟨hpeer, hother, hq, hback⟩ := take_sides s b i item q
  obtain ⟨pre, post, hpre, herase, hbef⟩ := first_some hfirst
  have hlaw := (hapart.law b).receives hrecv howns hsound
  obtain ⟨p', slot, news, hadds, hev, hslot, hcreated, -, hmore⟩ := hrecv
  have hlen : (s.peer b).records.length < q.records.length := by
    rw [hev.length, hadds.length]
    exact Nat.lt_succ_self _
  have hpartner : (s.take b i item q).partner = update s.partner b
      (update (s.partner b) (s.peer b).records.length (some item.sender)) := by
    rw [Link.take]
    exact if_pos ⟨hopn, hlen⟩
  have hsub : ((s.queue (!b)).eraseIdx i).Sublist (s.queue (!b)) := eraseIdx_sublist _ _
  have hsent := sentItems_adds hadds hev
  refine .of_sides b ?_ ?_ ?_ ?_ <;> simp only [hpeer, hother, hq, hback, hpartner]
  · exact hlaw
  · exact hapart.law (!b)
  · rw [hsent, ← append_assoc, update_of_ne (Bool.not_ne_self b)]
    refine (((hapart.gen b).addOut hadds (fun c hc => ?_) hcreated ?_).callOut hev).shrink
      (.refl _) hsub
    · rw [hslot c hc]
      exact howns
    · intro answer hans
      rw [(hmore answer hans).1]
      exact howns
  · rw [hsent, ← append_assoc, update_self, herase]
    have hgen := hapart.back b
    rw [hpre] at hgen
    exact (hgen.receive hbef hopn howns hadds hslot hmore).callBack hev

theorem createChannel_refused {p : Peer} {label : List UInt8}
    {config : Option (ChannelConfig × List UInt8)} {memory : Bool}
    (hrefused : ¬ p.creates label config memory = true) :
    p.createChannel label config memory = p := by
  rw [Peer.creates] at hrefused
  grind [Peer.createChannel]

theorem apart_step {step : LinkStep} (hquiet : ReusesQuietly s step) (hapart : Apart s) :
    Apart (linkMachine.next s step) := by
  have hsound : ∀ b step, Sound ((s.peer b).step step) [] := fun b step =>
    sound_step (hapart.law b).sound step
  cases step with
  | app b step =>
    change Apart (if step.isLocal then s.perform b ((s.peer b).step step) else s)
    split
    next hlocal =>
      cases step with
      | create label config memory =>
        have hstep := hsound b (.create label config memory)
        rw [Peer.step] at hstep ⊢
        split
        · exact hapart.perform (.refl _) (hapart.law b).sound
        next hlive =>
          rw [if_neg hlive] at hstep
          by_cases hcreates : (s.peer b).creates label config memory = true
          · rcases createChannel_cases (s.peer b) label config memory with
              hsame | ⟨id, request, halloc, hadds⟩
            · exact hapart.perform (by rw [hsame]; exact .refl _) hstep
            · exact hapart.create halloc (hquiet hcreates id halloc) hadds hstep
          · exact hapart.perform (by rw [createChannel_refused hcreates]; exact .refl _) hstep
      | dcep id data memory acked => cases hlocal
      | _ => exact hapart.perform (evolves_step _ _ (by simp) (by simp)) (hsound b _)
    next => exact hapart
  | deliver b i memory acked resetOutgoing =>
    change Apart (s.step (.deliver b i memory acked resetOutgoing))
    rw [step]
    split
    next => exact hapart
    next item hfirst =>
      have hstep := hsound b (item.arrival memory acked resetOutgoing)
      cases hbody : item.content with
      | opening data =>
        have harrival : item.arrival memory acked resetOutgoing =
            .dcep item.streamId data memory acked := by
          rw [arrival, hbody]
        rw [harrival] at hstep ⊢
        rcases handleDcep_cases (s.peer b) item.streamId data memory acked with
          hev | ⟨howns, hrecv⟩
        · exact hapart.take hev hstep
        · rw [(hapart.law b).role] at howns
          exact hapart.receive hfirst (by rw [hbody]; rfl) howns hrecv hstep
      | ack =>
        have harrival : item.arrival memory acked resetOutgoing =
            .dcep item.streamId [dataChannelAck] memory acked := by
          rw [arrival, hbody]
        rw [harrival] at hstep ⊢
        refine hapart.take ?_ hstep
        rw [Peer.step]
        split
        · exact .refl _
        · exact evolves_handleAck _ _
      | message | reset =>
        exact hapart.take (evolves_step _ _ (by simp [arrival, hbody])
          (by simp [arrival, hbody])) hstep

end Links

variable {s : Link} {b : Bool} {i : ℕ} {item : Item} {h : ℕ}

/-- Channel `h` of the peer `b` and channel `k` of the other peer are the ends of one
channel: the `OPEN` of one of them has made the other. -/
def Link.Paired (s : Link) (b : Bool) (h k : ℕ) : Prop :=
  s.partner b h = some k ∨ s.partner (!b) k = some h

/-- A message or a reset that arrives finds the channel that it was sent to. -/
theorem Apart.paired (hapart : Apart s) (hfirst : s.first b i = some item)
    (hbody : item.content.isOpening = false)
    (hfound : (s.peer b).getChannel item.streamId = some h) : s.Paired b h item.sender := by
  obtain ⟨c, hc, hid, hopen⟩ := (hapart.law b).sound.table.entry _ _ (getChannel_mem hfound)
  obtain ⟨pre, post, hpre, -⟩ := first_some hfirst
  have hitem : item ∈ s.queue (!b) := by rw [hpre]; simp
  rcases owns_or b item.streamId with howns | howns
  · obtain ⟨h', hpartner, hlatest⟩ := (hapart.gen b).answers item hitem howns hbody
    have hlive := (hapart.gen b).live h c hc (hid ▸ howns)
    rw [hid] at hlive
    refine .inr (hpartner.trans (congrArg some ?_))
    exact Nat.le_antisymm (hlive.2 h' hlatest.1) (hlatest.2 h hlive.1)
  · obtain ⟨h', hpartner, hlatest⟩ := (hapart.back b).mapped h c hc (hid ▸ howns) hopen
    have hsender := (hapart.back b).ordered item hitem howns h c hc hid hopen
    rw [hid] at hlatest
    refine .inl (hpartner.trans (congrArg some ?_))
    exact Nat.le_antisymm (hsender.2 h' hlatest.1) (hlatest.2 item.sender hsender.1)

theorem deliver_eq {memory acked resetOutgoing : Bool} (hfirst : s.first b i = some item) :
    ((s.step (.deliver b i memory acked resetOutgoing)).peer b) =
      (s.peer b).step (item.arrival memory acked resetOutgoing) := by
  rw [step, hfirst]
  exact (take_sides s b i item _).1

/-- **The generations of a stream.**  In a run in which a channel is created only on a stream
where nothing of an earlier channel is left: two channels of a peer never share a stream id, a
channel that was created here has a stream of the peer's role and one that the other side
opened has not, a reset closes no channel but the one that it was sent to, and a message is
delivered to no other. -/
theorem generations_apart {sctpDisabled : Bool} {steps : List LinkStep}
    (hquiet : linkMachine.Along ReusesQuietly (.create sctpDisabled) steps)
    (hs : s = linkMachine.run (.create sctpDisabled) steps) :
    (∀ b h h' c c', (s.peer b).channel? h = some c → (s.peer b).channel? h' = some c' →
      c.id = c'.id → h = h') ∧ (∀ b h id, (.created h id ∈ (s.peer b).log → owns b id) ∧
      (.reserved h id ∈ (s.peer b).log → owns (!b) id)) ∧
    ∀ b i item memory acked resetOutgoing, s.first b i = some item →
      let after := (s.step (.deliver b i memory acked resetOutgoing)).peer b
      (item.content = .reset → ∀ h, .closing h ∉ (s.peer b).log → .closing h ∈ after.log →
        s.Paired b h item.sender) ∧
      (item.content = .message → ∃ news, after.log = (s.peer b).log ++ news ∧
        ∀ h, .started .message h ∈ news → s.Paired b h item.sender) := by
  have hapart : Apart s := by
    rw [hs]
    exact linkMachine.run_invariant_along (fun _ _ hstep h => apart_step hstep h)
      (apart_create sctpDisabled) hquiet
  refine ⟨fun b => (hapart.law b).sound.table.apart, fun b h id =>
    ⟨(hapart.law b).mine h id, (hapart.law b).theirs h id⟩, ?_⟩
  intro b i item memory acked resetOutgoing hfirst after
  have hafter : after = (s.peer b).step (item.arrival memory acked resetOutgoing) :=
    deliver_eq hfirst
  refine ⟨fun hcontent h hnot hclosing => ?_, fun hcontent => ?_⟩
  · have hreset : after = if (s.peer b).destroying then s.peer b
        else (s.peer b).handleStreamReset item.streamId resetOutgoing := by
      rw [hafter, arrival, hcontent]
      rfl
    rw [hreset] at hclosing
    split at hclosing
    · exact absurd hclosing hnot
    · refine hapart.paired hfirst (by rw [hcontent]; rfl) ?_
      exact (handleStreamReset_closing hclosing).resolve_left hnot
  · have hmessage : after = if (s.peer b).destroying then s.peer b
        else (s.peer b).handleMessage item.streamId := by
      rw [hafter, arrival, hcontent]
      rfl
    rw [hmessage]
    split
    · exact ⟨[], by simp, by simp⟩
    · obtain ⟨news, hnews, hstarted⟩ := handleMessage_started (s.peer b) item.streamId
      exact ⟨news, hnews, fun h hmem =>
        hapart.paired hfirst (by rw [hcontent]; rfl) (hstarted h hmem)⟩

/-- A channel is opened by both sides and closed. -/
def openAndClose : List LinkStep :=
  [.app false (.setLink true true), .app true (.setLink true true),
    .app false (.create [97] none true), .app false (.openChannel 0 true),
    .deliver true 0 true true true, .deliver false 0 true true true, .app false (.close 0),
    .deliver true 0 true true true]

/-- The answer to the reset arrives, and the stream gets a second channel. -/
def openAgain : List LinkStep :=
  openAndClose ++ [.deliver false 0 true true true, .app false (.create [98] none true),
    .app false (.openChannel 1 true), .deliver true 0 true true true,
    .deliver false 0 true true true, .app false (.close 1)]

/-- The reset of the second channel closes the second channel of the other peer. -/
theorem generations_apart_closed :
    ∃ s, s = linkMachine.run (.create false) openAgain ∧ s.first true 0 = some ⟨0, .reset, 1⟩ ∧
      .closing 1 ∈ ((s.step (.deliver true 0 true true true)).peer true).log ∧
        s.Paired true 1 1 := by
  refine ⟨_, rfl, by decide, by decide, ?_⟩
  obtain ⟨-, -, harrive⟩ := @generations_apart _ false openAgain (by decide) rfl
  exact (harrive true 0 ⟨0, .reset, 1⟩ true true true (by decide)).1 rfl 1 (by decide) (by decide)

/-- A channel is created while the answer to the reset of the last channel of its stream is
on its way: the answer closes it. -/
theorem reuse_closes_next :
    ∃ s, s = linkMachine.run (.create false)
        (openAndClose ++ [.app false (.create [98] none true)]) ∧
      s.first false 0 = some ⟨0, .reset, 0⟩ ∧ .closing 1 ∉ (s.peer false).log ∧
          .closing 1 ∈ ((s.step (.deliver false 0 true true true)).peer false).log ∧
            ¬ s.Paired false 1 0 := by
  refine ⟨_, rfl, by decide, by decide, by decide, ?_⟩
  rw [Link.Paired]
  decide

end TurboMedia.DataChannel
