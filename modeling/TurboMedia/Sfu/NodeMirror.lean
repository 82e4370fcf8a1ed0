import TurboMedia.Lib.Keyed
import TurboMedia.Sfu.Node
import TurboMedia.Sfu.Registry

/-!
# A room and its forwarding unit

**Input.**  Any run of calls on a new node.

**Method.**  Membership is kept twice, in the tables of a room and in the slots of its
forwarding unit.  The two agree (`Mirrors`) as long as nobody leaves with tracks, from a slot
that the lookup does not reach, or so that the owner of a track gets out of its reach
(`Room.MayLeave`), and as long as no participant publishes the same SSRC twice
(`Room.MayPublish`).  What carries this is that the streams of a participant are its tracks,
in the same order (`RoomSound`).
-/

namespace TurboMedia.Sfu

open List Room Answer Keyed Context

/-- The main SSRCs of the tracks of a participant. -/
def ssrcsIn (tracks : List NodeTrack) (id : ParticipantId) : List UInt32 :=
  (tracks.filter (fun t => decide (t.participantId = id))).map NodeTrack.mainSsrc

/-- A participant with this id is active in the slot. -/
def Context.ActiveAs (sfu : Context) (i : Slot) (id : ParticipantId) : Prop :=
  (sfu.participants i).active = true ∧ (sfu.participants i).id = id

/-- Somebody has a session under this participant id. -/
def Room.HasSession (room : Room) (id : ParticipantId) : Prop :=
  ∃ s ∈ room.sessions, s.participantId = id

/-- The room mirrors its forwarding unit. -/
structure Mirrors (room : Room) : Prop where
  members : ∀ id, room.HasSession id ↔ ∃ i, room.sfu.ActiveAs i id
  once : (room.sessions.map NodeSession.participantId).Nodup ∧
    ∀ i j id, room.sfu.ActiveAs i id → room.sfu.ActiveAs j id → i = j
  tracks : ∀ t ∈ room.tracks, room.HasSession t.participantId ∧
    ∃ i, room.sfu.ActiveAs i t.participantId ∧
      (room.sfu.participants i).streams.countP (fun s => s.active && s.ssrc == t.mainSsrc) = 1
  subscriptions : ∀ u ∈ room.subscriptions, room.HasSession u.receiverParticipantId ∧
    ∃ t ∈ room.tracks, t.trackId = u.trackId
  released : ∀ t ∈ room.tracks, (room.unregisterPublishedTrack t.trackId).2 = 0 ∧
    ∀ layers n, ((room.unregisterPublishedTrack t.trackId).1.registerPublishedTrack
      t.participantId t.trackId t.mainSsrc layers n).2 = 0

/-- The participant can leave: it has no tracks, the lookup reaches it, and afterwards it
still reaches every owner of a track. -/
def Room.MayLeave (room : Room) (id : ParticipantId) : Prop :=
  (∀ t ∈ room.tracks, t.participantId ≠ id) ∧
    (∀ i, room.sfu.ActiveAs i id → i.val < room.sfu.participantCount) ∧
    ∀ t ∈ room.tracks, ∀ i, room.sfu.ActiveAs i t.participantId →
      i.val + 1 < room.sfu.participantCount

/-- A new track has an SSRC that is not that of another track of its participant. -/
def Room.MayPublish (room : Room) (id : ParticipantId) (trackId : List UInt8) (ssrc : UInt32) :
    Prop :=
  identifierFits trackId trackIdMax = true → room.findTrack trackId = none →
    (ssrcsIn room.tracks id).length < 4 → ssrc ∉ ssrcsIn room.tracks id

def Node.roomOf (node : Node) (roomId : List UInt8) : Option Room :=
  (node.findRoom roomId).bind (fun i => node.rooms[i]?)

def Room.sessionOf (room : Room) (sessionId : List UInt8) : Option NodeSession :=
  (room.findSessionById sessionId).bind (fun i => room.sessions[i]?)

def Undisturbed (node : Node) : NodeOp → Prop
  | .removeSession roomId sessionId =>
    ∀ room, node.roomOf roomId = some room → ∀ s, room.sessionOf sessionId = some s →
      room.MayLeave s.participantId
  | .registerPublishedTrack roomId participantId trackId mainSsrc _ _ =>
    ∀ room, node.roomOf roomId = some room → room.MayPublish participantId trackId mainSsrc
  | _ => True

section Streams

variable {sfu : Context} {id : ParticipantId} {ssrc : UInt32} {i : Slot}

theorem newStream_ssrc (ssrc : UInt32) (layers : Option (List UInt32)) (n : ℤ) :
    (newStream ssrc layers n).ssrc = ssrc ∧ (newStream ssrc layers n).active = true := by
  cases layers with
  | none => exact ⟨rfl, rfl⟩
  | some ls =>
    rw [newStream.eq_def]
    split_ifs <;> exact ⟨rfl, rfl⟩

theorem addStream_cases (sfu : Context) (id : ParticipantId) (ssrc : UInt32)
    (layers : Option (List UInt32)) (n : ℤ) :
    addStream sfu id ssrc layers n = (sfu, .failed) ∨
      ∃ i, findParticipant sfu id = some i ∧ (sfu.participants i).streams.length < 4 ∧
        addStream sfu id ssrc layers n = (sfu.setParticipant i { sfu.participants i with
          streams := (sfu.participants i).streams ++ [newStream ssrc layers n] }, .done) := by
  rw [addStream]
  cases hfind : findParticipant sfu id with
  | none => exact .inl rfl
  | some i =>
    dsimp only
    split
    · exact .inl rfl
    next hfull => exact .inr ⟨i, rfl, not_le.mp hfull, rfl⟩

theorem addStream_done (hfind : findParticipant sfu id = some i)
    (hroom : (sfu.participants i).streams.length < 4) (ssrc : UInt32)
    (layers : Option (List UInt32)) (n : ℤ) : (addStream sfu id ssrc layers n).2 = .done := by
  rw [addStream, hfind]
  dsimp only
  rw [if_neg (not_le.mpr hroom)]

theorem removeStream_done {k : ℕ} (hfind : findParticipant sfu id = some i)
    (hstream : (sfu.participants i).streams.findIdx? (fun s => s.active && s.ssrc == ssrc) =
      some k) :
    removeStream sfu id ssrc = (sfu.setParticipant i { sfu.participants i with
      streams := (sfu.participants i).streams.eraseIdx k }, .done) := by
  rw [removeStream, hfind]
  dsimp only
  rw [hstream]

theorem removeStream_cases (sfu : Context) (id : ParticipantId) (ssrc : UInt32) :
    removeStream sfu id ssrc = (sfu, .failed) ∨
      ∃ sfu', removeStream sfu id ssrc = (sfu', .done) := by
  rw [removeStream]
  split
  · exact .inl rfl
  · dsimp only
    split
    · exact .inl rfl
    · exact .inr ⟨_, rfl⟩

theorem setReceiverStreamPolicy_cases (sfu : Context) (receiver sender : ParticipantId)
    (ssrc : UInt32) (enabled : Bool) (layer : ℤ) :
    setReceiverStreamPolicy sfu receiver sender ssrc enabled layer = (sfu, .failed) ∨
      ∃ i k, findParticipant sfu sender = some i ∧ ∃ policy : Stream → Stream,
        (∀ s, (policy s).ssrc = s.ssrc ∧ (policy s).active = s.active) ∧
        setReceiverStreamPolicy sfu receiver sender ssrc enabled layer =
          (sfu.setParticipant i { sfu.participants i with
            streams := (sfu.participants i).streams.modify k policy }, .done) := by
  rw [setReceiverStreamPolicy]
  split_ifs
  · exact .inl rfl
  · split
    · next r i hreceiver hsender =>
        dsimp only
        split
        · exact .inl rfl
        · next k hk =>
            refine .inr ⟨i, k, hsender, _, ?_, rfl⟩
            exact fun s => ⟨rfl, rfl⟩
    · exact .inl rfl

end Streams

variable {room : Room} {id : ParticipantId} {i : Slot} {t : NodeTrack}

section Soundness

/-- The two sides of a room agree: the streams of a participant are its tracks, in the same
order, and the lookup reaches every owner of a track. -/
structure RoomSound (room : Room) : Prop where
  members : ∀ id, room.HasSession id ↔ ∃ i, room.sfu.ActiveAs i id
  once : (room.sessions.map NodeSession.participantId).Nodup
  unique : ∀ i j id, room.sfu.ActiveAs i id → room.sfu.ActiveAs j id → i = j
  counted : Counted room.sfu
  streams : ∀ i id, room.sfu.ActiveAs i id →
    (room.sfu.participants i).streams.map Stream.ssrc = ssrcsIn room.tracks id
  live : ∀ i id, room.sfu.ActiveAs i id → ∀ s ∈ (room.sfu.participants i).streams, s.active = true
  few : ∀ i id, room.sfu.ActiveAs i id → (room.sfu.participants i).streams.length ≤ 4
  distinct : ∀ id, (ssrcsIn room.tracks id).Nodup
  owners : ∀ t ∈ room.tracks, ∃ i, room.sfu.ActiveAs i t.participantId ∧
    i.val < room.sfu.participantCount
  trackIds : (room.tracks.map NodeTrack.trackId).Nodup
  valid : ∀ t ∈ room.tracks, identifierFits t.participantId participantIdMax = true ∧
    identifierFits t.trackId trackIdMax = true
  subscriptions : ∀ u ∈ room.subscriptions, room.HasSession u.receiverParticipantId ∧
    ∃ t ∈ room.tracks, t.trackId = u.trackId

theorem activeAs_setParticipant {sfu : Context} {j : Slot} (p : Participant) :
    (sfu.setParticipant i p).ActiveAs j id ↔
      if j = i then p.active = true ∧ p.id = id else sfu.ActiveAs j id := by
  split
  next hj =>
    rw [hj]
    simp [Context.ActiveAs, setParticipant]
  next hj => simp [Context.ActiveAs, setParticipant, hj]

theorem activeAs_streams {sfu : Context} {j : Slot} (streams : List Stream) :
    (sfu.setParticipant i { sfu.participants i with streams := streams }).ActiveAs j id ↔
      sfu.ActiveAs j id := by
  rw [activeAs_setParticipant]
  by_cases hj : j = i
  · rw [if_pos hj, hj]
    exact Iff.rfl
  · rw [if_neg hj]

theorem findParticipant_activeAs {sfu : Context} (h : findParticipant sfu id = some i) :
    sfu.ActiveAs i id ∧ i.val < sfu.participantCount := by
  obtain ⟨hlt, hact, hid⟩ := findParticipant_some h
  exact ⟨⟨hact, hid⟩, hlt⟩

theorem RoomSound.find_owner (h : RoomSound room) (ht : t ∈ room.tracks) :
    ∃ i, findParticipant room.sfu t.participantId = some i ∧
      room.sfu.ActiveAs i t.participantId := by
  obtain ⟨j, hact, hlt⟩ := h.owners t ht
  obtain ⟨i, hi⟩ := Option.isSome_iff_exists.mp (findParticipant_isSome.mpr ⟨j, hlt, hact⟩)
  exact ⟨i, hi, (findParticipant_activeAs hi).1⟩

theorem mem_ssrcsIn (ht : t ∈ room.tracks) : t.mainSsrc ∈ ssrcsIn room.tracks t.participantId :=
  mem_map_of_mem (mem_filter.mpr ⟨ht, by simp⟩)

/-- The streams of one participant change along with its tracks. -/
theorem RoomSound.restream
    {streams : List Stream} {tracks : List NodeTrack} {subscriptions : List TrackSubscription}
    (h : RoomSound room) (hact : room.sfu.ActiveAs i id)
    (hstreams : streams.map Stream.ssrc = ssrcsIn tracks id)
    (hlive : ∀ s ∈ streams, s.active = true) (hfew : streams.length ≤ 4)
    (hothers : ∀ id', id' ≠ id → ssrcsIn tracks id' = ssrcsIn room.tracks id')
    (hdist : (ssrcsIn tracks id).Nodup)
    (howners : ∀ t ∈ tracks, t ∈ room.tracks ∨
      t.participantId = id ∧ i.val < room.sfu.participantCount)
    (htrackIds : (tracks.map NodeTrack.trackId).Nodup)
    (hvalid : ∀ t ∈ tracks, identifierFits t.participantId participantIdMax = true ∧
      identifierFits t.trackId trackIdMax = true)
    (hsubscriptions : ∀ u ∈ subscriptions, room.HasSession u.receiverParticipantId ∧
      ∃ t ∈ tracks, t.trackId = u.trackId) :
    RoomSound { room with
      sfu := room.sfu.setParticipant i { room.sfu.participants i with streams := streams }
      tracks := tracks
      subscriptions := subscriptions } := by
  have hslots : activeSlots (room.sfu.setParticipant i
      { room.sfu.participants i with streams := streams }) = activeSlots room.sfu := by
    rw [activeSlots_join { room.sfu.participants i with streams := streams } hact.1]
    exact Finset.insert_eq_of_mem (mem_activeSlots.mpr hact.1)
  have hself : ((room.sfu.setParticipant i
      { room.sfu.participants i with streams := streams }).participants i).streams = streams := by
    simp [setParticipant]
  have hother : ∀ j, j ≠ i → (room.sfu.setParticipant i
      { room.sfu.participants i with streams := streams }).participants j =
        room.sfu.participants j := by
    intro j hj
    simp [setParticipant, hj]
  constructor
  · intro id'
    refine (h.members id').trans ?_
    exact exists_congr (fun j => (activeAs_streams streams).symm)
  · exact h.once
  · intro j k id' hj hk
    exact h.unique j k id' ((activeAs_streams streams).mp hj) ((activeAs_streams streams).mp hk)
  · refine ⟨?_, h.counted.bounded, h.counted.fits⟩
    rw [hslots]
    exact h.counted.count
  · intro j id' hj
    have hj' := (activeAs_streams streams).mp hj
    by_cases hji : j = i
    · subst hji
      have hid : id' = id := hj'.2.symm.trans hact.2
      rw [hid]
      rw [hself]
      exact hstreams
    · have hid : id' ≠ id := by
        rintro rfl
        exact hji (h.unique j i id' hj' hact)
      rw [hother j hji, hothers id' hid]
      exact h.streams j id' hj'
  · intro j id' hj s hs
    have hj' := (activeAs_streams streams).mp hj
    by_cases hji : j = i
    · subst hji
      rw [hself] at hs
      exact hlive s hs
    · dsimp only at hs
      rw [hother j hji] at hs
      exact h.live j id' hj' s hs
  · intro j id' hj
    have hj' := (activeAs_streams streams).mp hj
    by_cases hji : j = i
    · subst hji
      rw [hself]
      exact hfew
    · dsimp only
      rw [hother j hji]
      exact h.few j id' hj'
  · intro id'
    by_cases hid : id' = id
    · rw [hid]
      exact hdist
    · dsimp only
      rw [hothers id' hid]
      exact h.distinct id'
  · intro t ht
    rcases howners t ht with hin | ⟨hid, hlt⟩
    · obtain ⟨j, hj, hlt⟩ := h.owners t hin
      exact ⟨j, (activeAs_streams streams).mpr hj, hlt⟩
    · rw [hid]
      exact ⟨i, (activeAs_streams streams).mpr hact, hlt⟩
  · exact htrackIds
  · exact hvalid
  · exact hsubscriptions

end Soundness

section Sessions

theorem copyString_of_fits {value : List UInt8} {capacity : ℕ}
    (h : identifierFits value capacity = true) : copyString capacity value = value := by
  rw [identifierFits, decide_eq_true_eq] at h
  exact take_of_length_le (by omega)

theorem findSessionByParticipant_isNone :
    room.findSessionByParticipant id = none ↔ ¬room.HasSession id := by
  rw [findSessionByParticipant, Keyed.findIdx?_eq_none_iff, Room.HasSession]
  push Not
  exact Iff.rfl

/-- A new session takes a free place. -/
theorem RoomSound.join (h : RoomSound room) (hnew : ¬room.HasSession id)
    (hfree : freeSlot room.sfu = some i)
    (hroom : room.sfu.participantCount < room.sfu.maxParticipants) (session : NodeSession)
    (hsess : session.participantId = id) :
    RoomSound { room with
      sfu := { room.sfu.setParticipant i (newParticipant id) with
        participantCount := room.sfu.participantCount + 1 }
      sessions := room.sessions ++ [session] } := by
  obtain ⟨hinactive, _⟩ := freeSlot_some hfree
  have hidle : ∀ id', ¬room.sfu.ActiveAs i id' := by
    rintro id' ⟨hact, _⟩
    rw [hinactive] at hact
    cases hact
  have hunknown : ∀ j, ¬room.sfu.ActiveAs j id :=
    fun j hj => hnew ((h.members id).mpr ⟨j, hj⟩)
  have hact : ∀ j id', ({ room.sfu.setParticipant i (newParticipant id) with
      participantCount := room.sfu.participantCount + 1 } : Context).ActiveAs j id' ↔
        if j = i then id = id' else room.sfu.ActiveAs j id' := by
    intro j id'
    refine (activeAs_setParticipant (newParticipant id)).trans ?_
    by_cases hj : j = i
    · rw [if_pos hj, if_pos hj]
      exact and_iff_right rfl
    · rw [if_neg hj, if_neg hj]
  have hothers : ∀ j, j ≠ i → (room.sfu.setParticipant i (newParticipant id)).participants j =
      room.sfu.participants j := by
    intro j hj
    simp [setParticipant, hj]
  have hself : ((room.sfu.setParticipant i (newParticipant id)).participants i).streams = [] := by
    simp [setParticipant, newParticipant, Participant.zero]
  have hnotracks : ssrcsIn room.tracks id = [] := by
    rw [ssrcsIn, map_eq_nil_iff, filter_eq_nil_iff]
    intro t ht hid
    obtain ⟨j, hj, _⟩ := h.owners t ht
    rw [decide_eq_true_eq] at hid
    rw [hid] at hj
    exact hunknown j hj
  constructor
  · intro id'
    have hmem : (∃ s ∈ room.sessions ++ [session], s.participantId = id') ↔
        room.HasSession id' ∨ id = id' := by
      simp only [mem_append, mem_singleton, Room.HasSession, ← hsess]
      constructor
      · rintro ⟨s, hs | rfl, heq⟩
        · exact .inl ⟨s, hs, heq⟩
        · exact .inr heq
      · rintro (⟨s, hs, heq⟩ | heq)
        · exact ⟨s, .inl hs, heq⟩
        · exact ⟨session, .inr rfl, heq⟩
    refine hmem.trans ?_
    rw [h.members id']
    constructor
    · rintro (⟨j, hj⟩ | heq)
      · refine ⟨j, (hact j id').mpr ?_⟩
        rw [if_neg]
        · exact hj
        · rintro rfl
          exact hidle id' hj
      · exact ⟨i, (hact i id').mpr (by rw [if_pos rfl]; exact heq)⟩
    · rintro ⟨j, hj⟩
      rw [hact] at hj
      split_ifs at hj
      · exact .inr hj
      · exact .inl ⟨j, hj⟩
  · dsimp only
    rw [map_append, map_singleton, hsess, nodup_append]
    refine ⟨h.once, nodup_singleton _, ?_⟩
    intro a ha b hb hab
    rw [mem_singleton] at hb
    obtain ⟨s, hs, hsa⟩ := mem_map.mp ha
    exact hnew ⟨s, hs, hsa.trans (hab.trans hb)⟩
  · intro j k id' hj hk
    rw [hact] at hj hk
    split_ifs at hj hk with hji hki hki
    · rw [hji, hki]
    · subst hj
      exact absurd hk (hunknown k)
    · subst hk
      exact absurd hj (hunknown j)
    · exact h.unique j k id' hj hk
  · refine ⟨?_, hroom, h.counted.fits⟩
    show room.sfu.participantCount + 1 =
      (activeSlots (room.sfu.setParticipant i (newParticipant id))).card
    have hmem : i ∉ activeSlots room.sfu := by
      simp [hinactive]
    rw [activeSlots_join (newParticipant id) rfl, Finset.card_insert_of_notMem hmem,
      h.counted.count]
  · intro j id' hj
    rw [hact] at hj
    split_ifs at hj with hji
    · subst hj
      rw [hji]
      rw [hself, hnotracks]
      rfl
    · dsimp only
      rw [hothers j hji]
      exact h.streams j id' hj
  · intro j id' hj s hs
    rw [hact] at hj
    split_ifs at hj with hji
    · rw [hji] at hs
      rw [hself] at hs
      exact absurd hs not_mem_nil
    · dsimp only at hs
      rw [hothers j hji] at hs
      exact h.live j id' hj s hs
  · intro j id' hj
    rw [hact] at hj
    split_ifs at hj with hji
    · rw [hji]
      rw [hself]
      exact Nat.zero_le _
    · dsimp only
      rw [hothers j hji]
      exact h.few j id' hj
  · exact h.distinct
  · intro t ht
    obtain ⟨j, hj, hlt⟩ := h.owners t ht
    refine ⟨j, (hact j _).mpr ?_, hlt.trans (Nat.lt_succ_self _)⟩
    rw [if_neg]
    · exact hj
    · rintro rfl
      exact hidle _ hj
  · exact h.trackIds
  · exact h.valid
  · intro u hu
    obtain ⟨⟨s, hs, heq⟩, htrack⟩ := h.subscriptions u hu
    exact ⟨⟨s, mem_append_left _ hs, heq⟩, htrack⟩

theorem RoomSound.addSession (h : RoomSound room) (participantId : ParticipantId)
    (sessionId : List UInt8) (pc : Option ℕ) :
    RoomSound (room.addSession participantId sessionId pc).1 := by
  rw [Room.addSession]
  split_ifs with hids hknown
  · exact h
  · exact h
  · dsimp only
    rw [not_or] at hids hknown
    have hnew : ¬room.HasSession participantId := by
      rw [← findSessionByParticipant_isNone]
      exact Option.not_isSome_iff_eq_none.mp hknown.2
    rcases addParticipant_cases room.sfu participantId with heq | ⟨i, hfree, _, hroom, heq⟩
    · rw [heq, if_pos (by simp [failed])]
      exact h
    · rw [heq, if_neg (by simp)]
      refine h.join hnew hfree hroom _ ?_
      exact copyString_of_fits (by simpa using hids.1)

/-- A session without tracks goes with its subscriptions. -/
theorem RoomSound.leave {k : ℕ} {session : NodeSession} (h : RoomSound room)
    (hsess : room.sessions[k]? = some session) (hleave : room.MayLeave session.participantId) :
    RoomSound { room with
      subscriptions := room.subscriptions.filter (fun s =>
        !(s.receiverParticipantId == session.participantId ||
          s.senderParticipantId == session.participantId))
      sfu := (removeParticipant room.sfu session.participantId).1
      sessions := room.sessions.eraseIdx k } := by
  obtain ⟨hnotracks, hreached, howners⟩ := hleave
  obtain ⟨j, hj⟩ := (h.members session.participantId).mp ⟨session, mem_of_getElem? hsess, rfl⟩
  obtain ⟨i, hfind⟩ := Option.isSome_iff_exists.mp
    (findParticipant_isSome.mpr ⟨j, hreached j hj, hj⟩)
  obtain ⟨hi, _⟩ := findParticipant_activeAs hfind
  rw [removeParticipant, hfind, eraseIdx_eq_filter h.once hsess]
  have hact : ∀ j id', ({ room.sfu.setParticipant i
      { room.sfu.participants i with active := false } with
        participantCount := room.sfu.participantCount - 1 } : Context).ActiveAs j id' ↔
          j ≠ i ∧ room.sfu.ActiveAs j id' := by
    intro j id'
    refine (activeAs_setParticipant _).trans ?_
    split
    next hji => simp [hji]
    next hji => simp [hji]
  have hothers : ∀ j, j ≠ i → (room.sfu.setParticipant i
      { room.sfu.participants i with active := false }).participants j =
        room.sfu.participants j := by
    intro j hji
    simp [setParticipant, hji]
  have hne : ∀ j id', room.sfu.ActiveAs j id' → (j ≠ i ↔ id' ≠ session.participantId) := by
    intro j id' hj'
    constructor
    · rintro hji rfl
      exact hji (h.unique j i _ hj' hi)
    · rintro hid rfl
      exact hid (hj'.2.symm.trans hi.2)
  have hkept : ∀ id', (∃ s ∈ room.sessions.filter
      (fun s => decide (s.participantId ≠ session.participantId)), s.participantId = id') ↔
        room.HasSession id' ∧ id' ≠ session.participantId := by
    intro id'
    simp only [mem_filter, decide_eq_true_eq, Room.HasSession]
    constructor
    · rintro ⟨s, ⟨hs, hsne⟩, rfl⟩
      exact ⟨⟨s, hs, rfl⟩, hsne⟩
    · rintro ⟨⟨s, hs, rfl⟩, hsne⟩
      exact ⟨s, ⟨hs, hsne⟩, rfl⟩
  constructor
  · intro id'
    refine (hkept id').trans ?_
    rw [h.members id']
    constructor
    · rintro ⟨⟨j, hj'⟩, hid⟩
      exact ⟨j, (hact j id').mpr ⟨(hne j id' hj').mpr hid, hj'⟩⟩
    · rintro ⟨j, hj'⟩
      obtain ⟨hji, hj'⟩ := (hact j id').mp hj'
      exact ⟨⟨j, hj'⟩, (hne j id' hj').mp hji⟩
  · exact h.once.sublist (filter_sublist.map _)
  · intro j k id' hj' hk
    exact h.unique j k id' ((hact j id').mp hj').2 ((hact k id').mp hk).2
  · refine ⟨?_, (Nat.sub_le _ _).trans h.counted.bounded, h.counted.fits⟩
    show room.sfu.participantCount - 1 = (activeSlots (room.sfu.setParticipant i
      { room.sfu.participants i with active := false })).card
    rw [activeSlots_leave { room.sfu.participants i with active := false } rfl,
      Finset.card_erase_of_mem (mem_activeSlots.mpr hi.1), h.counted.count]
  · intro j id' hj'
    obtain ⟨hji, hj'⟩ := (hact j id').mp hj'
    rw [hothers j hji]
    exact h.streams j id' hj'
  · intro j id' hj' s hs
    obtain ⟨hji, hj'⟩ := (hact j id').mp hj'
    rw [hothers j hji] at hs
    exact h.live j id' hj' s hs
  · intro j id' hj'
    obtain ⟨hji, hj'⟩ := (hact j id').mp hj'
    rw [hothers j hji]
    exact h.few j id' hj'
  · exact h.distinct
  · intro t ht
    obtain ⟨j, hj', _⟩ := h.owners t ht
    refine ⟨j, (hact j _).mpr ⟨(hne j _ hj').mpr (hnotracks t ht), hj'⟩, ?_⟩
    have hlt := howners t ht j hj'
    show j.val < room.sfu.participantCount - 1
    omega
  · exact h.trackIds
  · exact h.valid
  · intro u hu
    obtain ⟨hu, hkeep⟩ := mem_filter.mp hu
    obtain ⟨hsess', htrack⟩ := h.subscriptions u hu
    refine ⟨(hkept _).mpr ⟨hsess', ?_⟩, htrack⟩
    intro heq
    simp [heq] at hkeep

theorem RoomSound.removeSession (h : RoomSound room) (sessionId : List UInt8)
    (hleave : ∀ s, room.sessionOf sessionId = some s → room.MayLeave s.participantId) :
    RoomSound (room.removeSession sessionId).1 := by
  rw [Room.removeSession]
  cases hfind : room.findSessionById sessionId with
  | none => exact h
  | some k =>
    dsimp only
    cases hsess : room.sessions[k]? with
    | none => exact h
    | some session =>
      refine h.leave hsess (hleave session ?_)
      rw [Room.sessionOf, hfind]
      exact hsess

end Sessions

section Tracks

variable {track : NodeTrack}

theorem ssrcsIn_append (tracks : List NodeTrack) (track : NodeTrack) (id : ParticipantId) :
    ssrcsIn (tracks ++ [track]) id =
      ssrcsIn tracks id ++ if track.participantId = id then [track.mainSsrc] else [] := by
  rw [ssrcsIn, ssrcsIn, filter_append, map_append]
  split
  next hid =>
    rw [filter_cons_of_pos (by simpa using hid)]
    rfl
  next hid =>
    rw [filter_cons_of_neg (by simpa using hid)]
    rfl

variable (h : RoomSound room)
include h

/-- A new track adds its stream. -/
theorem RoomSound.publish {layers : Option (List UInt32)} {n : ℤ}
    (hfind : findParticipant room.sfu track.participantId = some i)
    (hroom : (room.sfu.participants i).streams.length < 4)
    (hnew : ∀ t ∈ room.tracks, t.trackId ≠ track.trackId)
    (hfresh : track.mainSsrc ∉ ssrcsIn room.tracks track.participantId)
    (hvalid : identifierFits track.participantId participantIdMax = true ∧
      identifierFits track.trackId trackIdMax = true) :
    RoomSound { room with
      sfu := room.sfu.setParticipant i { room.sfu.participants i with
        streams := (room.sfu.participants i).streams ++ [newStream track.mainSsrc layers n] }
      tracks := room.tracks ++ [track] } := by
  obtain ⟨hact, hlt⟩ := findParticipant_activeAs hfind
  obtain ⟨hssrc, hstream⟩ := newStream_ssrc track.mainSsrc layers n
  have hself : ssrcsIn (room.tracks ++ [track]) track.participantId =
      ssrcsIn room.tracks track.participantId ++ [track.mainSsrc] := by
    rw [ssrcsIn_append, if_pos rfl]
  refine h.restream hact ?_ ?_ ?_ ?_ ?_ ?_ ?_ ?_ ?_
  · rw [map_append, map_singleton, hssrc, h.streams i _ hact, hself]
  · intro s hs
    rcases mem_append.mp hs with hs | hs
    · exact h.live i _ hact s hs
    · rw [mem_singleton.mp hs]
      exact hstream
  · rw [length_append, length_singleton]
    exact hroom
  · intro id' hid
    rw [ssrcsIn_append, if_neg (Ne.symm hid), append_nil]
  · rw [hself, nodup_append]
    refine ⟨h.distinct _, nodup_singleton _, ?_⟩
    rintro a ha b hb rfl
    rw [mem_singleton.mp hb] at ha
    exact hfresh ha
  · intro t ht
    rcases mem_append.mp ht with ht | ht
    · exact .inl ht
    · rw [mem_singleton.mp ht]
      exact .inr ⟨rfl, hlt⟩
  · rw [map_append, map_singleton, nodup_append]
    refine ⟨h.trackIds, nodup_singleton _, ?_⟩
    rintro a ha b hb rfl
    obtain ⟨t, ht, hta⟩ := mem_map.mp ha
    exact hnew t ht (hta.trans (mem_singleton.mp hb))
  · intro t ht
    rcases mem_append.mp ht with ht | ht
    · exact h.valid t ht
    · rw [mem_singleton.mp ht]
      exact hvalid
  · intro u hu
    obtain ⟨hsess, t, ht, heq⟩ := h.subscriptions u hu
    exact ⟨hsess, t, mem_append_left _ ht, heq⟩

theorem RoomSound.registerPublishedTrack (participantId : ParticipantId)
    (trackId : List UInt8) (mainSsrc : UInt32) (layers : Option (List UInt32)) (n : ℤ)
    (hpublish : room.MayPublish participantId trackId mainSsrc) :
    RoomSound (room.registerPublishedTrack participantId trackId mainSsrc layers n).1 := by
  rw [Room.registerPublishedTrack]
  split_ifs with hids hknown
  · exact h
  · exact h
  · dsimp only
    simp only [not_or, Bool.not_eq_false] at hids
    rcases addStream_cases room.sfu participantId mainSsrc layers n with
      heq | ⟨i, hfind, hroom, heq⟩
    · rw [heq, if_pos (by simp [failed])]
      exact h
    · rw [heq, if_neg (by simp [done]), copyString_of_fits hids.1,
        copyString_of_fits hids.2.1]
      have hnone : room.findTrack trackId = none := Option.not_isSome_iff_eq_none.mp hknown
      have hlen : (ssrcsIn room.tracks participantId).length < 4 := by
        rw [← h.streams i _ (findParticipant_activeAs hfind).1, length_map]
        exact hroom
      have hnew : ∀ t ∈ room.tracks,
          t.trackId ≠ (⟨trackId, participantId, mainSsrc⟩ : NodeTrack).trackId :=
        findIdx?_eq_none_iff.mp hnone
      exact h.publish hfind hroom hnew (hpublish hids.2.1 hnone hlen) ⟨hids.1, hids.2.1⟩

/-- The owner of a track has its stream. -/
theorem RoomSound.find_stream (htrack : track ∈ room.tracks)
    (hact : room.sfu.ActiveAs i track.participantId) :
    ∃ m s, (room.sfu.participants i).streams.findIdx?
        (fun s => s.active && s.ssrc == track.mainSsrc) = some m ∧
      (room.sfu.participants i).streams[m]? = some s ∧ s.ssrc = track.mainSsrc := by
  have hmem := mem_ssrcsIn htrack
  rw [← h.streams i _ hact] at hmem
  obtain ⟨s, hs, hssrc⟩ := mem_map.mp hmem
  have hsome : ((room.sfu.participants i).streams.findIdx?
      (fun s => s.active && s.ssrc == track.mainSsrc)).isSome = true := by
    rw [findIdx?_isSome, any_eq_true]
    exact ⟨s, hs, by simp [h.live i _ hact s hs, hssrc]⟩
  obtain ⟨m, hm⟩ := Option.isSome_iff_exists.mp hsome
  obtain ⟨hlt, hp, _⟩ := findIdx?_eq_some_iff_getElem.mp hm
  rw [Bool.and_eq_true, beq_iff_eq] at hp
  exact ⟨m, _, hm, getElem?_eq_getElem hlt, hp.2⟩

theorem RoomSound.ssrcsIn_filter (htrack : track ∈ room.tracks)
    (id : ParticipantId) :
    ssrcsIn (room.tracks.filter (fun t => decide (t.trackId ≠ track.trackId))) id =
      if id = track.participantId then
        (ssrcsIn room.tracks id).filter (fun ssrc => decide (ssrc ≠ track.mainSsrc))
      else ssrcsIn room.tracks id := by
  have hsame : ∀ t ∈ room.tracks, t.trackId = track.trackId → t = track :=
    fun t ht heq => eq_of_key_eq h.trackIds ht htrack heq
  by_cases hid : id = track.participantId
  · subst hid
    rw [if_pos rfl, ssrcsIn, ssrcsIn, filter_map, filter_filter, filter_filter]
    refine congrArg (List.map NodeTrack.mainSsrc) (filter_congr (fun t ht => ?_))
    rw [← Bool.decide_and, Function.comp_apply, ← Bool.decide_and, decide_eq_decide]
    constructor
    · rintro ⟨hid, hne⟩
      refine ⟨fun hssrc => hne ?_, hid⟩
      have heq : t = track := by
        refine eq_of_key_eq (h.distinct track.participantId) ?_ ?_ hssrc
        · exact mem_filter.mpr ⟨ht, by simpa using hid⟩
        · exact mem_filter.mpr ⟨htrack, by simp⟩
      rw [heq]
    · rintro ⟨hne, hid⟩
      refine ⟨hid, fun heq => hne ?_⟩
      rw [hsame t ht heq]
  · rw [if_neg hid, ssrcsIn, ssrcsIn, filter_filter]
    refine congrArg (List.map NodeTrack.mainSsrc) (filter_congr (fun t ht => ?_))
    rw [← Bool.decide_and, decide_eq_decide]
    constructor
    · exact fun hboth => hboth.1
    · intro heq
      refine ⟨heq, fun hsameId => hid ?_⟩
      rw [← heq, hsame t ht hsameId]

/-- A track goes with its stream. -/
theorem RoomSound.unpublish {k m : ℕ} {s : Stream}
    (htrack : room.tracks[k]? = some track) (hact : room.sfu.ActiveAs i track.participantId)
    (hstream : (room.sfu.participants i).streams[m]? = some s) (hssrc : s.ssrc = track.mainSsrc) :
    RoomSound { room with
      sfu := room.sfu.setParticipant i { room.sfu.participants i with
        streams := (room.sfu.participants i).streams.eraseIdx m }
      subscriptions := room.subscriptions.filter (fun s => !(s.trackId == track.trackId))
      tracks := room.tracks.eraseIdx k } := by
  have hmem := mem_of_getElem? htrack
  have hnodup : ((room.sfu.participants i).streams.map Stream.ssrc).Nodup := by
    rw [h.streams i _ hact]
    exact h.distinct _
  rw [eraseIdx_eq_filter hnodup hstream, eraseIdx_eq_filter h.trackIds htrack, hssrc]
  have hself : ssrcsIn (room.tracks.filter (fun t => decide (t.trackId ≠ track.trackId)))
      track.participantId = (ssrcsIn room.tracks track.participantId).filter
        (fun ssrc => decide (ssrc ≠ track.mainSsrc)) := by
    rw [h.ssrcsIn_filter hmem, if_pos rfl]
  refine h.restream hact ?_ ?_ ?_ ?_ ?_ ?_ ?_ ?_ ?_
  · rw [hself, ← h.streams i _ hact, filter_map]
    rfl
  · exact fun s hs => h.live i _ hact s (mem_of_mem_filter hs)
  · exact (length_filter_le _ _).trans (h.few i _ hact)
  · intro id' hid
    rw [h.ssrcsIn_filter hmem, if_neg hid]
  · rw [hself]
    exact (h.distinct _).filter _
  · exact fun t ht => .inl (mem_of_mem_filter ht)
  · exact h.trackIds.sublist (filter_sublist.map _)
  · exact fun t ht => h.valid t (mem_of_mem_filter ht)
  · intro u hu
    obtain ⟨hu, hkeep⟩ := mem_filter.mp hu
    obtain ⟨hsess, t, ht, heq⟩ := h.subscriptions u hu
    refine ⟨hsess, t, mem_filter.mpr ⟨ht, ?_⟩, heq⟩
    rw [decide_eq_true_eq, heq]
    simpa using hkeep

theorem RoomSound.unregister_eq {trackId : List UInt8} {k : ℕ}
    (hfind : room.findTrack trackId = some k) :
    ∃ track i m s, room.tracks[k]? = some track ∧ track.trackId = trackId ∧
      room.sfu.ActiveAs i track.participantId ∧
      (room.sfu.participants i).streams[m]? = some s ∧ s.ssrc = track.mainSsrc ∧
      room.unregisterPublishedTrack trackId = ({ room with
        sfu := room.sfu.setParticipant i { room.sfu.participants i with
          streams := (room.sfu.participants i).streams.eraseIdx m }
        subscriptions := room.subscriptions.filter (fun s => !(s.trackId == trackId))
        tracks := room.tracks.eraseIdx k }, 0) := by
  obtain ⟨track, htrack, hid⟩ := getElem?_of_findIdx? hfind
  have hmem := mem_of_getElem? htrack
  obtain ⟨i, hi, hact⟩ := h.find_owner hmem
  obtain ⟨m, s, hm, hs, hssrc⟩ := h.find_stream hmem hact
  refine ⟨track, i, m, s, htrack, hid, hact, hs, hssrc, ?_⟩
  rw [unregisterPublishedTrack, hfind]
  dsimp only
  rw [htrack]
  dsimp only
  rw [removeStream_done hi hm, if_neg (by simp [done])]

theorem RoomSound.unregisterPublishedTrack (trackId : List UInt8) :
    RoomSound (room.unregisterPublishedTrack trackId).1 := by
  cases hfind : room.findTrack trackId with
  | none =>
    rw [Room.unregisterPublishedTrack, hfind]
    exact h
  | some k =>
    obtain ⟨track, i, m, s, htrack, hid, hact, hs, hssrc, heq⟩ := h.unregister_eq hfind
    rw [heq, ← hid]
    exact h.unpublish htrack hact hs hssrc

omit h

theorem map_ssrc_modify {policy : Stream → Stream} (streams : List Stream) (k : ℕ)
    (hpolicy : ∀ s, (policy s).ssrc = s.ssrc) :
    (streams.modify k policy).map Stream.ssrc = streams.map Stream.ssrc := by
  induction streams generalizing k with
  | nil => cases k <;> rfl
  | cons s streams ih =>
    cases k with
    | zero => rw [modify_zero_cons, map_cons, map_cons, hpolicy]
    | succ k => rw [modify_succ_cons, map_cons, map_cons, ih]

theorem mem_modify {α : Type} {f : α → α} {xs : List α} {k : ℕ} {x : α} (h : x ∈ xs.modify k f) :
    x ∈ xs ∨ ∃ y ∈ xs, x = f y := by
  induction xs generalizing k with
  | nil => cases k <;> exact absurd h not_mem_nil
  | cons y ys ih =>
    cases k with
    | zero =>
      rcases mem_cons.mp h with rfl | h
      · exact .inr ⟨y, mem_cons_self, rfl⟩
      · exact .inl (mem_cons_of_mem _ h)
    | succ k =>
      rcases mem_cons.mp h with rfl | h
      · exact .inl mem_cons_self
      · rcases ih h with hmem | ⟨z, hz, heq⟩
        · exact .inl (mem_cons_of_mem _ hmem)
        · exact .inr ⟨z, mem_cons_of_mem _ hz, heq⟩

theorem RoomSound.applyTrackSubscription (h : RoomSound room) (config : TrackSubscription) :
    RoomSound (room.applyTrackSubscription config).1 := by
  rw [Room.applyTrackSubscription]
  split_ifs with hids
  · exact h
  · simp only [not_or, Bool.not_eq_false] at hids
    obtain ⟨hreceiver, htrackId, hsess⟩ := hids
    have hhas : room.HasSession config.receiverParticipantId := by
      by_contra hnone
      rw [← findSessionByParticipant_isNone] at hnone
      exact hsess (by rw [hnone]; rfl)
    cases hfind : room.findTrack config.trackId with
    | none => exact h
    | some k =>
      obtain ⟨track, htrack, hid⟩ := getElem?_of_findIdx? hfind
      have hmem := mem_of_getElem? htrack
      dsimp only
      rw [htrack]
      cases hlayer : sfuMaxLayer (resolveMaxLayer config) with
      | none => exact h
      | some layer =>
        dsimp only
        rcases setReceiverStreamPolicy_cases room.sfu config.receiverParticipantId
          track.participantId track.mainSsrc (config.enabled && !config.muted) layer with
          heq | ⟨i, m, hi, policy, hpolicy, heq⟩
        · rw [heq, if_pos (by simp [failed])]
          exact h
        · rw [heq, if_neg (by simp [done])]
          obtain ⟨hact, _⟩ := findParticipant_activeAs hi
          refine h.restream hact ?_ ?_ ?_ (fun _ _ => rfl) (h.distinct _)
            (fun _ ht => .inl ht) h.trackIds h.valid ?_
          · rw [map_ssrc_modify _ _ (fun s => (hpolicy s).1)]
            exact h.streams i _ hact
          · intro s hs
            rcases mem_modify hs with hs | ⟨s', hs', rfl⟩
            · exact h.live i _ hact s hs
            · rw [(hpolicy s').2]
              exact h.live i _ hact s' hs'
          · rw [length_modify]
            exact h.few i _ hact
          · intro u hu
            cases hsub : room.findTrackSubscription config.receiverParticipantId config.trackId with
            | none =>
              rw [hsub] at hu
              rcases mem_append.mp hu with hu | hu
              · exact h.subscriptions u hu
              · rw [mem_singleton.mp hu]
                refine ⟨?_, track, hmem, ?_⟩
                · show room.HasSession (copyString participantIdMax _)
                  rw [copyString_of_fits hreceiver]
                  exact hhas
                · show track.trackId = copyString trackIdMax _
                  rw [copyString_of_fits htrackId]
                  exact hid
            | some j =>
              rw [hsub] at hu
              rcases mem_modify hu with hu | ⟨u', hu', rfl⟩
              · exact h.subscriptions u hu
              · exact h.subscriptions u' hu'

end Tracks

variable {node : Node}

theorem RoomSound.new (roomId : List UInt8) (maxParticipants : ℤ) :
    RoomSound (newRoom roomId maxParticipants) := by
  have hidle : ∀ i id, ¬(create maxParticipants).ActiveAs i id := by
    rintro i id ⟨hact, _⟩
    cases hact
  constructor
  · intro id
    refine iff_of_false ?_ (fun hex => hidle hex.choose id hex.choose_spec)
    rintro ⟨s, hs, _⟩
    exact absurd hs not_mem_nil
  · exact nodup_nil
  · exact fun i j id hi => absurd hi (hidle i id)
  · exact counted_run maxParticipants []
  · exact fun i id hi => absurd hi (hidle i id)
  · exact fun i id hi => absurd hi (hidle i id)
  · exact fun i id hi => absurd hi (hidle i id)
  · exact fun id => nodup_nil
  · exact fun t ht => absurd ht not_mem_nil
  · exact nodup_nil
  · exact fun t ht => absurd ht not_mem_nil
  · exact fun u hu => absurd hu not_mem_nil

theorem RoomSound.one_stream {track : NodeTrack} {i : Slot} (h : RoomSound room)
    (htrack : track ∈ room.tracks) (hact : room.sfu.ActiveAs i track.participantId) :
    (room.sfu.participants i).streams.countP (fun s => s.active && s.ssrc ==
      track.mainSsrc) = 1 := by
  have hcount : (room.sfu.participants i).streams.countP
      (fun s => s.active && s.ssrc == track.mainSsrc) =
        ((room.sfu.participants i).streams.map Stream.ssrc).count track.mainSsrc := by
    rw [count_eq_countP, countP_map]
    refine countP_congr (fun s hs => ?_)
    rw [h.live i _ hact s hs, Bool.true_and, Function.comp_apply]
  rw [hcount, h.streams i _ hact]
  exact count_eq_one_of_mem (h.distinct _) (mem_ssrcsIn htrack)

/-- A track that is withdrawn can be published again. -/
theorem RoomSound.released {track : NodeTrack} (h : RoomSound room) (htrack : track ∈ room.tracks) :
    (room.unregisterPublishedTrack track.trackId).2 = 0 ∧
      ∀ layers n, ((room.unregisterPublishedTrack track.trackId).1.registerPublishedTrack
        track.participantId track.trackId track.mainSsrc layers n).2 = 0 := by
  obtain ⟨k, hfind⟩ := Option.isSome_iff_exists.mp
    (Keyed.findIdx?_isSome_iff.mpr ⟨track, htrack, rfl⟩ :
      (room.findTrack track.trackId).isSome = true)
  obtain ⟨track', i, m, s, htrack', hid, hact, hs, hssrc, heq⟩ := h.unregister_eq hfind
  obtain rfl : track' = track :=
    Keyed.eq_of_key_eq h.trackIds (mem_of_getElem? htrack') htrack hid
  have hm : m < (room.sfu.participants i).streams.length := (List.getElem?_eq_some_iff.mp hs).1
  obtain ⟨hpart, htrackId⟩ := h.valid track' htrack
  have hsess : room.findSessionByParticipant track'.participantId ≠ none := by
    rw [Ne, findSessionByParticipant_isNone, not_not]
    exact (h.members _).mpr ⟨i, hact⟩
  rw [heq]
  refine ⟨rfl, fun layers n => ?_⟩
  rw [Room.registerPublishedTrack, if_neg, if_neg]
  · dsimp only
    obtain ⟨i', hi', hact'⟩ := h.find_owner htrack
    obtain rfl : i' = i := h.unique i' i _ hact' hact
    obtain ⟨j, hj⟩ := Option.isSome_iff_exists.mp (findParticipant_isSome.mpr
      ⟨i', (findParticipant_activeAs hi').2, (activeAs_streams _).mpr hact⟩ :
        (findParticipant (room.sfu.setParticipant i' { room.sfu.participants i' with
          streams := (room.sfu.participants i').streams.eraseIdx m })
            track'.participantId).isSome = true)
    obtain rfl : j = i' := h.unique j i' _
      ((activeAs_streams _).mp (findParticipant_activeAs hj).1) hact
    have hroom : ((room.sfu.setParticipant j { room.sfu.participants j with
        streams := (room.sfu.participants j).streams.eraseIdx m }).participants j).streams.length <
          4 := by
      have hlen := length_eraseIdx_of_lt hm
      have hfew := h.few j _ hact
      simp only [setParticipant, Function.update_self]
      omega
    rw [addStream_done hj hroom, if_neg (by simp [done])]
  · rw [Bool.not_eq_true, Option.isSome_eq_false_iff, Option.isNone_iff_eq_none]
    refine Keyed.findIdx?_eq_none_iff.mpr (fun t ht => ?_)
    rw [Keyed.eraseIdx_eq_filter h.trackIds htrack'] at ht
    simpa using (mem_filter.mp ht).2
  · rw [hpart, htrackId]
    simp only [Bool.true_eq_false, false_or, Option.isNone_iff_eq_none]
    exact hsess

theorem RoomSound.mirrors (h : RoomSound room) : Mirrors room := by
  refine ⟨h.members, ⟨h.once, h.unique⟩, fun t ht => ?_, h.subscriptions,
    fun t ht => h.released ht⟩
  obtain ⟨i, hact, _⟩ := h.owners t ht
  exact ⟨(h.members _).mpr ⟨i, hact⟩, i, hact, h.one_stream ht hact⟩

theorem onRoom_cases (node : Node) (roomId : List UInt8) (f : Room → Room × ℤ) :
    node.onRoom roomId f = (node, -1) ∨
      ∃ i room, node.roomOf roomId = some room ∧ node.rooms[i]? = some room ∧
        node.onRoom roomId f = ({ node with rooms := node.rooms.set i (f room).1 },
          (f room).2) := by
  rw [Node.onRoom]
  cases hfind : node.findRoom roomId with
  | none => exact .inl rfl
  | some i =>
    dsimp only
    cases hroom : node.rooms[i]? with
    | none => exact .inl rfl
    | some room =>
      refine .inr ⟨i, room, ?_, hroom, rfl⟩
      rw [Node.roomOf, hfind]
      exact hroom

theorem onRoom_sound {f : Room → Room × ℤ} (h : ∀ room ∈ node.rooms, RoomSound room)
    (roomId : List UInt8)
    (hf : ∀ room, node.roomOf roomId = some room → RoomSound room → RoomSound (f room).1) :
    ∀ room ∈ (node.onRoom roomId f).1.rooms, RoomSound room := by
  rcases onRoom_cases node roomId f with heq | ⟨i, room, hof, hroom, heq⟩
  · rw [heq]
    exact h
  · rw [heq]
    intro room' hmem
    rcases mem_or_eq_of_mem_set hmem with hmem | rfl
    · exact h room' hmem
    · exact hf room hof (h room (mem_of_getElem? hroom))

/-- Each call keeps the rooms sound. -/
theorem nodeStep_sound {op : NodeOp} (hop : Undisturbed node op)
    (h : ∀ room ∈ node.rooms, RoomSound room) :
    ∀ room ∈ (nodeMachine.next node op).rooms, RoomSound room := by
  cases op with
  | attachRoom roomId maxParticipants =>
    show ∀ room ∈ (node.attachRoom roomId maxParticipants).1.rooms, RoomSound room
    rw [Node.attachRoom]
    split
    · exact h
    · split
      · exact h
      · intro room hroom
        rcases mem_append.mp hroom with hroom | hroom
        · exact h room hroom
        · rw [mem_singleton.mp hroom]
          exact RoomSound.new _ _
  | addSession roomId participantId sessionId pc =>
    exact onRoom_sound h roomId (fun room _ hroom => hroom.addSession participantId sessionId pc)
  | removeSession roomId sessionId =>
    exact onRoom_sound h roomId (fun room hof hroom =>
      hroom.removeSession sessionId (hop room hof))
  | registerPublishedTrack roomId participantId trackId mainSsrc layers n =>
    exact onRoom_sound h roomId (fun room hof hroom =>
      hroom.registerPublishedTrack participantId trackId mainSsrc layers n (hop room hof))
  | unregisterPublishedTrack roomId trackId =>
    exact onRoom_sound h roomId (fun room _ hroom => hroom.unregisterPublishedTrack trackId)
  | applyTrackSubscription roomId config =>
    exact onRoom_sound h roomId (fun room _ hroom => hroom.applyTrackSubscription config)

theorem Room.refused (room : Room) :
    (∀ participantId sessionId pc, (room.addSession participantId sessionId pc).2 = -1 →
        (room.addSession participantId sessionId pc).1 = room) ∧
      (∀ sessionId, (room.removeSession sessionId).2 = -1 →
        (room.removeSession sessionId).1 = room) ∧ (∀ participantId trackId ssrc layers n,
        (room.registerPublishedTrack participantId trackId ssrc layers n).2 = -1 →
        (room.registerPublishedTrack participantId trackId ssrc layers n).1 = room) ∧
      (∀ trackId, (room.unregisterPublishedTrack trackId).2 = -1 →
        (room.unregisterPublishedTrack trackId).1 = room) ∧
      ∀ config, (room.applyTrackSubscription config).2 = -1 →
        (room.applyTrackSubscription config).1 = room := by
  refine ⟨fun participantId sessionId pc => ?_, fun sessionId => ?_,
    fun participantId trackId ssrc layers n => ?_, fun trackId => ?_, fun config => ?_⟩
  · rw [addSession]
    rcases addParticipant_cases room.sfu participantId with heq | ⟨i, _, _, _, heq⟩
    · rw [heq]
      split_ifs <;> simp [failed] at *
    · rw [heq]
      split_ifs <;> simp at *
  · rw [removeSession]
    split
    · exact fun _ => rfl
    · split
      · exact fun _ => rfl
      · simp
  · rw [registerPublishedTrack]
    rcases addStream_cases room.sfu participantId ssrc layers n with heq | ⟨i, _, _, heq⟩
    · rw [heq]
      split_ifs <;> simp [failed] at *
    · rw [heq]
      split_ifs <;> simp [done] at *
  · rw [unregisterPublishedTrack]
    split
    · exact fun _ => rfl
    · split
      · exact fun _ => rfl
      · next track _ =>
          rcases removeStream_cases room.sfu track.participantId track.mainSsrc with
            heq | ⟨sfu, heq⟩
          · rw [heq]
            simp [failed]
          · rw [heq]
            simp [done]
  · rw [applyTrackSubscription]
    split
    · exact fun _ => rfl
    · split
      · exact fun _ => rfl
      · split
        · exact fun _ => rfl
        · next track _ =>
            split
            · exact fun _ => rfl
            · next layer _ =>
                rcases setReceiverStreamPolicy_cases room.sfu config.receiverParticipantId
                  track.participantId track.mainSsrc (config.enabled && !config.muted) layer with
                  heq | ⟨i, m, _, policy, _, heq⟩
                · rw [heq]
                  simp [failed]
                · rw [heq]
                  simp [done]

theorem onRoom_refused {f : Room → Room × ℤ} (roomId : List UInt8)
    (hf : ∀ room, (f room).2 = -1 → (f room).1 = room) (hcode : (node.onRoom roomId f).2 = -1) :
    (node.onRoom roomId f).1 = node := by
  rcases onRoom_cases node roomId f with heq | ⟨i, room, _, hroom, heq⟩
  · rw [heq]
  · rw [heq] at hcode ⊢
    have hset : node.rooms.set i (f room).1 = node.rooms := by
      obtain ⟨hlt, heq⟩ := List.getElem?_eq_some_iff.mp hroom
      rw [hf room hcode, ← heq]
      exact set_getElem_self hlt
    rw [hset]

/-- A call that fails changes nothing. -/
theorem nodeStep_refused {op : NodeOp} (hcode : nodeMachine.answer node op = -1) :
    nodeMachine.next node op = node := by
  cases op with
  | attachRoom roomId maxParticipants =>
    have hattach : (node.attachRoom roomId maxParticipants).2 = -1 := hcode
    show (node.attachRoom roomId maxParticipants).1 = node
    rw [Node.attachRoom] at hattach ⊢
    split_ifs at hattach ⊢ <;> rfl
  | addSession roomId participantId sessionId pc =>
    exact onRoom_refused roomId (fun room => room.refused.1 participantId sessionId pc) hcode
  | removeSession roomId sessionId =>
    exact onRoom_refused roomId (fun room => room.refused.2.1 sessionId) hcode
  | registerPublishedTrack roomId participantId trackId mainSsrc layers n =>
    exact onRoom_refused roomId
      (fun room => room.refused.2.2.1 participantId trackId mainSsrc layers n) hcode
  | unregisterPublishedTrack roomId trackId =>
    exact onRoom_refused roomId (fun room => room.refused.2.2.2.1 trackId) hcode
  | applyTrackSubscription roomId config =>
    exact onRoom_refused roomId (fun room => room.refused.2.2.2.2 config) hcode

/-- **A room mirrors its forwarding unit.**  After every run of undisturbed calls on a new
node; and a call that is refused changes nothing. -/
theorem node_mirrors (config : Option NodeConfig) (ops : List NodeOp)
    (hops : nodeMachine.Along Undisturbed (nodeCreate config) ops) (node : Node)
    (hnode : node = nodeMachine.run (nodeCreate config) ops) :
    (∀ room ∈ node.rooms, Mirrors room) ∧
      ∀ op, nodeMachine.answer node op = -1 → nodeMachine.next node op = node := by
  have hsound : ∀ room ∈ node.rooms, RoomSound room := by
    rw [hnode]
    refine nodeMachine.run_invariant_along (P := fun node => ∀ room ∈ node.rooms, RoomSound room)
      (fun _ _ hop h => nodeStep_sound hop h) (fun room hroom => ?_) hops
    cases config <;> exact absurd hroom not_mem_nil
  exact ⟨fun room hroom => (hsound room hroom).mirrors, fun _ => nodeStep_refused⟩

def onePublisher : List NodeOp :=
  [.attachRoom [114] 4, .addSession [114] [97] [49] none,
    .registerPublishedTrack [114] [97] [116] 7 none 0]

theorem node_mirrors_publisher : (nodeMachine.run (nodeCreate none) onePublisher).rooms.length = 1 ∧
      ∀ room ∈ (nodeMachine.run (nodeCreate none) onePublisher).rooms, Mirrors room := by
  refine ⟨rfl, (node_mirrors none onePublisher ⟨trivial, trivial, ?_, trivial⟩ _ rfl).1⟩
  intro room hroom
  cases hroom
  exact fun _ _ _ => not_mem_nil

/-- Two participants, the second with a track; the first leaves, and the track can not be
taken out any more. -/
def firstLeaves : List NodeOp :=
  [.attachRoom [114] 4, .addSession [114] [97] [49] none, .addSession [114] [98] [50] none,
    .registerPublishedTrack [114] [98] [116] 7 none 0, .removeSession [114] [49]]

theorem node_loses_track :
    ¬ ∀ (config : Option NodeConfig) (ops : List NodeOp),
      ∀ room ∈ (nodeMachine.run (nodeCreate config) ops).rooms, Mirrors room := by
  intro h
  have hroom : ∀ room, (nodeMachine.run (nodeCreate none) firstLeaves).rooms[0]? = some room →
      ⟨[116], [98], 7⟩ ∈ room.tracks ∧ (room.unregisterPublishedTrack [116]).2 = -1 := by
    intro room hroom
    cases hroom
    exact ⟨by decide, by decide⟩
  obtain ⟨room, hget⟩ : ∃ room,
      (nodeMachine.run (nodeCreate none) firstLeaves).rooms[0]? = some room := ⟨_, rfl⟩
  obtain ⟨htrack, hcode⟩ := hroom room hget
  have hreleased := ((h none firstLeaves room (mem_of_getElem? hget)).released _ htrack).1
  rw [hcode] at hreleased
  exact absurd hreleased (by decide)

end TurboMedia.Sfu
