import TurboMedia.DataChannel.Channels

/-!
# The invariant of the channel table

What holds of the records, the hash map, the bitmap and the callback references of a peer.

**Input.**  The steps that the calls of a peer are made of, in a peer whose callbacks may be
on the stack.

**Method.**  A reference of a channel belongs to a frame of the stack (`Frame.handles`) or to
the call that is being carried out; `Table p held` lists the latter.  A call that admits a
channel moves its handle into `held`, the start of a callback moves it to the stack, and a
release takes it away.

**Results.**  Each step keeps the table; two records never have the same stream id
(`Table.apart`), and a record whose references are counted is there (`Table.holds`).
-/

namespace TurboMedia.DataChannel

open List Peer

section Data

/-- The references that the caller of a callback holds. -/
def Frame.handles : Frame → List ℕ
  | .onChannel h => [h]
  | .onOpen h => [h]
  | .onMessage h => [h]
  | .onClose h admitted rest _ => h :: (if admitted then h :: rest else rest)

/-- The references that are held by the frames of the stack. -/
def Peer.handles (p : Peer) : List ℕ :=
  p.stack.flatMap Frame.handles

/-- What holds of the channel table of a peer in a call that holds `held`. -/
structure Table (p : Peer) (held : List ℕ) : Prop where
  refs : ∀ h c, p.channel? h = some c → c.callbackRefs = p.handles.count h + held.count h
  holds : ∀ h, h ∈ p.handles ∨ h ∈ held → ∃ c, p.channel? h = some c
  closed : ∀ h c, p.channel? h = some c → c.closing = true → c.callbackRefs ≠ 0
  entry : ∀ id h, (id, h) ∈ p.channels →
    ∃ c, p.channel? h = some c ∧ c.id = id ∧ c.closing = false
  mapped : ∀ h c, p.channel? h = some c → c.closing = false → (c.id, h) ∈ p.channels
  ids : ∀ h c, p.channel? h = some c → c.id ∈ p.channelIds
  apart : ∀ h h' c c', p.channel? h = some c → p.channel? h' = some c' → c.id = c'.id → h = h'
  nodup : (p.channels.map Prod.snd).Nodup

variable {p q : Peer} {held held' : List ℕ} {h : ℕ} {c : Channel}

theorem table_create (isDtlsServer sctpDisabled : Bool) :
    Table (.create isDtlsServer sctpDisabled) [] := by
  constructor <;> simp [create, channel?, handles]

theorem Table.of_same (htable : Table p held) (hrecords : ∀ h, q.channel? h = p.channel? h)
    (hchannels : q.channels = p.channels ∧ q.channelIds = p.channelIds) (hstack : q.stack = p.stack)
    (hheld : held'.Perm held) : Table q held' := by
  obtain ⟨h1, h2, h3, h4, h5, h6, h7, h8⟩ := htable
  constructor <;>
    simp only [handles, hrecords, hchannels, hstack, hheld.count_eq, hheld.mem_iff] <;>
    assumption

theorem getChannel_mem {id : UInt16} (h' : p.getChannel id = some h) : (id, h) ∈ p.channels := by
  rw [getChannel, Option.map_eq_some_iff] at h'
  obtain ⟨entry, hfind, hent⟩ := h'
  have hid := find?_some hfind
  have hmem := mem_of_find?_eq_some hfind
  rw [beq_iff_eq] at hid
  rwa [← hid, ← hent]

theorem Table.getChannel_eq (htable : Table p held) (hc : p.channel? h = some c)
    (hopen : c.closing = false) : p.getChannel c.id = some h := by
  have hmem := htable.mapped h c hc hopen
  cases hfind : p.getChannel c.id with
  | none =>
    rw [getChannel, Option.map_eq_none_iff, find?_eq_none] at hfind
    exact absurd (beq_self_eq_true c.id) (hfind _ hmem)
  | some h' =>
    obtain ⟨c', hc', hid, -⟩ := htable.entry _ _ (getChannel_mem hfind)
    rw [htable.apart h' h c' c hc' hc hid]

end Data

variable {p : Peer} {held : List ℕ} {h : ℕ} {c c' : Channel}

theorem Table.setFields (htable : Table p held) (hc : p.channel? h = some c)
    (hsame : c'.id = c.id ∧ c'.closing = c.closing ∧ c'.callbackRefs = c.callbackRefs) :
    Table (p.setChannel h c') held := by
  have hlook := fun h' => @channel?_setChannel p _ h' c' (channel?_lt hc)
  obtain ⟨h1, h2, h3, h4, h5, h6, h7, h8⟩ := htable
  have hhandles : (p.setChannel h c').handles = p.handles := rfl
  have hchannels : (p.setChannel h c').channels = p.channels := rfl
  have hids : (p.setChannel h c').channelIds = p.channelIds := rfl
  constructor <;> simp only [hlook, hhandles, hchannels, hids] <;> grind

theorem Table.hold (htable : Table p held) (hc : p.channel? h = some c) :
    Table (p.setChannel h { c with callbackRefs := c.callbackRefs + 1 }) (h :: held) := by
  have hlook := fun h' =>
    @channel?_setChannel p _ h' { c with callbackRefs := c.callbackRefs + 1 } (channel?_lt hc)
  generalize hc' : { c with callbackRefs := c.callbackRefs + 1 } = c' at hlook ⊢
  have hsame : c'.id = c.id ∧ c'.closing = c.closing ∧ c'.callbackRefs = c.callbackRefs + 1 := by
    subst hc'
    exact ⟨rfl, rfl, rfl⟩
  obtain ⟨h1, h2, h3, h4, h5, h6, h7, h8⟩ := htable
  have hhandles : (p.setChannel h c').handles = p.handles := rfl
  have hchannels : (p.setChannel h c').channels = p.channels := rfl
  have hids : (p.setChannel h c').channelIds = p.channelIds := rfl
  constructor <;>
    simp only [hlook, hhandles, hchannels, hids, count_cons, mem_cons] <;>
    grind

/-- `dc_channel_release` gives back a reference of the call. -/
theorem Table.release (htable : Table p (h :: held)) : Table (p.release h) held := by
  obtain ⟨c, hc⟩ := htable.holds h (.inr mem_cons_self)
  have hlt := channel?_lt hc
  have hcount := htable.refs h c hc
  rw [count_cons_self] at hcount
  rw [Peer.release, hc]
  dsimp only
  split
  next hlast =>
    obtain ⟨hclos, hzero⟩ := hlast
    obtain ⟨q, hq⟩ : ∃ q : Peer, q = { p with
      channelIds := p.channelIds.erase c.id
      records := p.records.set h none
      log := p.log ++ [.released h] } := ⟨_, rfl⟩
    have hlook : ∀ h', q.channel? h' = if h' = h then none else p.channel? h' := by
      intro h'
      rw [hq]
      split
      next heq =>
        subst heq
        exact channel?_set_self hlt none
      next hne => exact channel?_set_other hne none
    have hhandles : q.handles = p.handles := by rw [hq]; rfl
    have hchannels : q.channels = p.channels := by rw [hq]
    have hids : q.channelIds = p.channelIds.erase c.id := by rw [hq]
    rw [← hq]
    have hnone : h ∉ p.handles ∧ h ∉ held := by
      rw [← count_eq_zero, ← count_eq_zero]
      omega
    obtain ⟨h1, h2, h3, h4, h5, h6, h7, h8⟩ := htable
    constructor <;> simp only [hlook, hhandles, hchannels, hids]
    case refs =>
      intro h' c' hc'
      split at hc'
      · cases hc'
      next hne => rw [h1 h' c' hc', count_cons_of_ne (Ne.symm hne)]
    case holds =>
      intro h' hmem
      rw [if_neg]
      · exact h2 h' (hmem.imp_right (mem_cons_of_mem _))
      · rintro rfl
        exact hmem.elim hnone.1 hnone.2
    case ids =>
      intro h' c' hc'
      split at hc'
      · cases hc'
      next hne =>
        refine (mem_erase_of_ne ?_).mpr (h6 h' c' hc')
        exact fun heq => hne (h7 h' h c' c hc' hc heq)
    all_goals grind
  next hmore =>
    generalize hc' : { c with callbackRefs := c.callbackRefs - 1 } = c'
    have hsame : c'.id = c.id ∧ c'.closing = c.closing ∧
        c'.callbackRefs = c.callbackRefs - 1 := by
      subst hc'
      exact ⟨rfl, rfl, rfl⟩
    have hlook := fun h' => @channel?_setChannel p _ h' c' hlt
    obtain ⟨h1, h2, h3, h4, h5, h6, h7, h8⟩ := htable
    have hhandles : (p.setChannel h c').handles = p.handles := rfl
    have hchannels : (p.setChannel h c').channels = p.channels := rfl
    have hids : (p.setChannel h c').channelIds = p.channelIds := rfl
    simp only [count_cons, mem_cons] at h1 h2
    constructor <;> simp only [hlook, hhandles, hchannels, hids] <;> grind

/-- The start of a callback: its frame takes over references of the call. -/
theorem Table.push {frame : Frame} {log : List Event} (htable : Table p (frame.handles ++ held)) :
    Table { p with stack := frame :: p.stack, log := log } held := by
  obtain ⟨h1, h2, h3, h4, h5, h6, h7, h8⟩ := htable
  constructor
  case refs =>
    intro h c hc
    rw [h1 h c hc, handles, handles, flatMap_cons, count_append, count_append]
    omega
  case holds =>
    intro h hmem
    refine h2 h ?_
    rw [handles, flatMap_cons, mem_append] at hmem
    rw [mem_append]
    tauto
  case closed => exact h3
  case entry => exact h4
  case mapped => exact h5
  case ids => exact h6
  case apart => exact h7
  case nodup => exact h8

theorem Table.pop {frame : Frame} {stack : List Frame} {log : List Event} (htable : Table p held)
    (hstack : p.stack = frame :: stack) :
    Table { p with stack := stack, log := log } (frame.handles ++ held) := by
  obtain ⟨h1, h2, h3, h4, h5, h6, h7, h8⟩ := htable
  have hhandles : p.handles = frame.handles ++ stack.flatMap Frame.handles := by
    rw [handles, hstack, flatMap_cons]
  constructor
  case refs =>
    intro h c hc
    rw [h1 h c hc, hhandles, count_append, count_append]
    change _ = (stack.flatMap Frame.handles).count h + _
    omega
  case holds =>
    intro h hmem
    refine h2 h ?_
    rw [hhandles]
    rw [mem_append] at hmem ⊢
    tauto
  case closed => exact h3
  case entry => exact h4
  case mapped => exact h5
  case ids => exact h6
  case apart => exact h7
  case nodup => exact h8

theorem Table.beginClose {resetOutgoing : Bool} (htable : Table p held) (hc : p.channel? h = some c)
    (hopen : c.closing = false) : Table (p.beginClose h c resetOutgoing) (h :: held) := by
  have hfound := htable.getChannel_eq hc hopen
  have hlook : ∀ h', (p.beginClose h c resetOutgoing).channel? h' =
      if h' = h then
        some { c with closing := true, isOpen := false, callbackRefs := c.callbackRefs + 1 }
      else p.channel? h' := fun h' => channel?_setChannel (channel?_lt hc)
  have hchannels : (p.beginClose h c resetOutgoing).channels =
      p.channels.filter (fun entry => entry.1 != c.id) := by
    change (if p.getChannel c.id = some h then _ else _) = _
    rw [if_pos hfound]
  have hhandles : (p.beginClose h c resetOutgoing).handles = p.handles := rfl
  have hids : (p.beginClose h c resetOutgoing).channelIds = p.channelIds := rfl
  generalize hc' : { c with
    closing := true, isOpen := false, callbackRefs := c.callbackRefs + 1 } = c' at hlook
  have hsame : c'.id = c.id ∧ c'.closing = true ∧ c'.callbackRefs = c.callbackRefs + 1 := by
    subst hc'
    exact ⟨rfl, rfl, rfl⟩
  have hnodup : ((p.channels.filter (fun entry => entry.1 != c.id)).map Prod.snd).Nodup :=
    htable.nodup.sublist ((filter_sublist).map _)
  obtain ⟨h1, h2, h3, h4, h5, h6, h7, h8⟩ := htable
  constructor <;>
    simp only [hlook, hhandles, hchannels, hids, count_cons, mem_cons, mem_filter, bne_iff_ne] <;>
    grind

theorem Table.publish
    {id : UInt16} {request : OpenRequest} {refs : ℕ} {isOpen : Bool} {log : List Event}
    (htable : Table p held) (hfree : id ∉ p.channelIds) :
    Table { p with
      channelIds := id :: p.channelIds
      channels := (id, p.records.length) :: p.channels
      records := p.records ++ [some { Channel.blank id request refs with isOpen := isOpen }]
      log := log } (replicate refs p.records.length ++ held) := by
  obtain ⟨c', hc'⟩ : ∃ c', c' = { Channel.blank id request refs with isOpen := isOpen } :=
    ⟨_, rfl⟩
  have hsame : c'.id = id ∧ c'.closing = false ∧ c'.callbackRefs = refs := by
    subst hc'
    exact ⟨rfl, rfl, rfl⟩
  rw [← hc']
  obtain ⟨q, hq⟩ : ∃ q : Peer, q = { p with
    channelIds := id :: p.channelIds
    channels := (id, p.records.length) :: p.channels
    records := p.records ++ [some c']
    log := log } := ⟨_, rfl⟩
  have hlook : ∀ h', q.channel? h' =
      if h' = p.records.length then some c' else p.channel? h' := by
    rw [hq]
    exact channel?_append p.records (some c')
  have hhandles : q.handles = p.handles := by rw [hq]; rfl
  have hmap : q.channels = (id, p.records.length) :: p.channels := by rw [hq]
  have hids : q.channelIds = id :: p.channelIds := by rw [hq]
  rw [← hq]
  have hlt : ∀ h c, p.channel? h = some c → h < p.records.length := fun h c => channel?_lt
  have hnodup : (((id, p.records.length) :: p.channels).map Prod.snd).Nodup := by
    rw [map_cons, nodup_cons, mem_map]
    refine ⟨?_, htable.nodup⟩
    rintro ⟨⟨id', h⟩, hmem, rfl⟩
    obtain ⟨c, hc, -⟩ := htable.entry _ _ hmem
    exact absurd (hlt _ _ hc) (lt_irrefl _)
  have hzero : p.handles.count p.records.length = 0 ∧ held.count p.records.length = 0 := by
    rw [count_eq_zero, count_eq_zero]
    constructor <;> intro hmem
    · obtain ⟨c, hc⟩ := htable.holds _ (.inl hmem)
      exact absurd (hlt _ _ hc) (lt_irrefl _)
    · obtain ⟨c, hc⟩ := htable.holds _ (.inr hmem)
      exact absurd (hlt _ _ hc) (lt_irrefl _)
  obtain ⟨h1, h2, h3, h4, h5, h6, h7, h8⟩ := htable
  constructor <;>
    simp only [hlook, hhandles, hmap, hids, count_append, count_replicate,
      mem_append, mem_replicate, mem_cons] <;>
    grind

end TurboMedia.DataChannel
