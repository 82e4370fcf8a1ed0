import TurboMedia.Conference.RoomService
import TurboMedia.Lib.Keyed
import TurboMedia.Lib.Roster

/-!
# Referential integrity of rooms

What a room's entries refer to.

**Input.**  Any run of calls of the room service on a fresh service.

**Method.**  The names in a room form a roster: participants own tracks, subscribe to
tracks of others, and five ids point to participants.  Each call changes the roster in one
of the ways of `Lib.Roster`, or leaves it as it is.
-/

namespace TurboMedia.Conference

open List Room Option

variable {room : Room} {agents : List AgentStateEntry} {id : CStr}

section Roster

def Room.memberIds (room : Room) : List CStr :=
  room.participants.map RoomParticipant.participantId

/-- The five ids of a room that name a participant. -/
def Room.pointers (room : Room) : List CStr :=
  [room.activeSpeakerParticipantId, room.pinnedParticipantId,
    room.callCenterCustomerParticipantId, room.callCenterAgentParticipantId,
    room.callCenterConsultAgentParticipantId]

/-- The names of a room and what they refer to; an empty pointer names nobody. -/
def Room.roster (room : Room) : Roster CStr CStr where
  members := room.memberIds
  items := room.tracks.map (fun t => (t.trackId, t.ownerParticipantId))
  links := room.subscriptions.map (fun s => (s.subscriberParticipantId, s.trackId))
  pointers := room.pointers.filter (fun id => id ≠ [])

/-- Participant ids, track ids and pairs of subscriber and track are distinct; owners,
subscribers and the named ids are participants; subscribed tracks are there and belong to
another participant. -/
def Room.Intact (room : Room) : Prop :=
  room.roster.Intact

instance (room : Room) : Decidable room.Intact :=
  inferInstanceAs (Decidable room.roster.Intact)

/-- An intact room, in which nobody has a call-center role before the first call. -/
structure Room.Sound (room : Room) : Prop where
  intact : room.Intact
  idle : room.callCenterState = .none →
    room.callCenterCustomerParticipantId = [] ∧ room.callCenterAgentParticipantId = []

theorem findParticipant_isSome_iff :
    (room.findParticipant id).isSome = true ↔ id ∈ room.memberIds := by
  rw [findParticipant, find?_isSome]
  simp [memberIds]

theorem mem_of_findParticipant {p : RoomParticipant} (h : room.findParticipant id = some p) :
    id ∈ room.memberIds :=
  findParticipant_isSome_iff.mp (by rw [h]; rfl)

theorem findParticipant_id {p : RoomParticipant} (h : room.findParticipant id = some p) :
    p.participantId = id := by
  simpa using find?_some h

theorem findParticipant_none (h : room.findParticipant id = none) : id ∉ room.memberIds := by
  intro hmem
  rw [← findParticipant_isSome_iff, h] at hmem
  exact Bool.false_ne_true hmem

theorem mem_of_hasRole {role : ParticipantRole} (h : room.hasRole id role = true) :
    id ∈ room.memberIds := by
  cases hfind : room.findParticipant id with
  | none =>
    rw [hasRole, hfind] at h
    exact absurd h Bool.false_ne_true
  | some p => exact mem_of_findParticipant hfind

theorem mem_of_canPublish (h : room.canPublish id = true) : id ∈ room.memberIds := by
  cases hfind : room.findParticipant id with
  | none =>
    rw [canPublish, hfind] at h
    exact absurd h Bool.false_ne_true
  | some p => exact mem_of_findParticipant hfind

theorem mem_pointers {p : CStr} : p ∈ room.roster.pointers ↔ p ≠ [] ∧ p ∈ room.pointers := by
  simp [roster, and_comm]

/-- A pointer that is set names a participant. -/
theorem Room.Intact.pointer (h : room.Intact) (hmem : id ∈ room.pointers) (hne : id ≠ []) :
    id ∈ room.memberIds :=
  h.pointers id (mem_pointers.mpr ⟨hne, hmem⟩)

theorem Room.Sound.same {room' : Room} (h : room.Sound) (hroster : room'.roster = room.roster)
    (hstate : room'.callCenterState = room.callCenterState)
    (hcustomer : room'.callCenterCustomerParticipantId = room.callCenterCustomerParticipantId)
    (hagent : room'.callCenterAgentParticipantId = room.callCenterAgentParticipantId) :
    room'.Sound where
  intact := by
    rw [Room.Intact, hroster]
    exact h.intact
  idle := by
    rw [hstate, hcustomer, hagent]
    exact h.idle

/-- Only pointers change, and those that are set name participants. -/
theorem Room.Sound.point {room' : Room} (h : room.Sound)
    (hmembers : room'.memberIds = room.memberIds) (hitems : room'.roster.items = room.roster.items)
    (hlinks : room'.roster.links = room.roster.links)
    (hpointers : ∀ p ∈ room'.pointers, p ≠ [] → p ∈ room.memberIds)
    (hidle : room'.callCenterState = .none →
      room'.callCenterCustomerParticipantId = [] ∧ room'.callCenterAgentParticipantId = []) :
    room'.Sound where
  intact := by
    have hroster : room'.roster = { room.roster with pointers := room'.roster.pointers } :=
      Roster.ext hmembers hitems hlinks rfl
    rw [Room.Intact, hroster]
    exact h.intact.point _ (fun p hp =>
      hpointers p (mem_pointers.mp hp).2 (mem_pointers.mp hp).1)
  idle := hidle

end Roster

section Calls

theorem updateActivity_roster :
    room.updateActivity.bumpVersion.roster = room.roster ∧
      room.updateActivity.bumpVersion.callCenterState = room.callCenterState ∧
      room.updateActivity.bumpVersion.callCenterCustomerParticipantId =
        room.callCenterCustomerParticipantId ∧
      room.updateActivity.bumpVersion.callCenterAgentParticipantId =
        room.callCenterAgentParticipantId := by
  rw [updateActivity]
  split <;> exact ⟨rfl, rfl, rfl, rfl⟩

variable (h : room.Sound)
include h

theorem Room.Sound.activity : room.updateActivity.bumpVersion.Sound := by
  obtain ⟨hroster, hstate, hcustomer, hagent⟩ := @updateActivity_roster room
  exact h.same hroster hstate hcustomer hagent

theorem closeRoom_sound : (closeRoom room agents).room.Sound := by
  rw [closeRoom]
  split_ifs with hact
  · split
    · exact h
    · split
      · exact h
      · exact ⟨h.intact, fun hnone => absurd hnone (by simp)⟩
  · exact h.same rfl rfl rfl rfl

theorem assignSfuNode_sound {nodeId : Option CStr} :
    (assignSfuNode room agents nodeId).room.Sound := by
  rw [assignSfuNode]
  split_ifs
  · exact h.same rfl rfl rfl rfl
  · exact h

theorem addParticipant_sound {config : ParticipantConfig} :
    (addParticipant room agents config).room.Sound := by
  rw [addParticipant]
  split_ifs
  · cases hfind : room.findParticipant (config.participantId.getD []) with
    | some p => exact h
    | none =>
      refine Room.Sound.activity ⟨?_, h.idle⟩
      have hjoin := h.intact.join (findParticipant_none hfind)
      have hroster : Roster.Intact
          { room.roster with members := room.memberIds ++ [config.participantId.getD []] } :=
        hjoin
      rw [Room.Intact, roster, memberIds, map_append]
      exact hroster
  · exact h

theorem onParticipant_sound {change : RoomParticipant → RoomParticipant}
    (hchange : ∀ p, (change p).participantId = p.participantId) :
    (onParticipant room agents id change).room.Sound := by
  rw [onParticipant]
  cases room.participants.findIdx? (fun p => p.participantId == id) with
  | none => exact h
  | some i =>
    refine h.same ?_ rfl rfl rfl
    exact Roster.ext (Keyed.map_modify_same hchange _ _) rfl rfl rfl

theorem setParticipantSessionState_sound {sessionState : ℤ} :
    (setParticipantSessionState room agents id sessionState).room.Sound := by
  rw [setParticipantSessionState]
  split_ifs
  · exact h
  · exact onParticipant_sound h (fun _ => rfl)

theorem setParticipantBandwidth_sound {bandwidthBps : ℤ} :
    (setParticipantBandwidth room agents id bandwidthBps).room.Sound := by
  rw [setParticipantBandwidth]
  split_ifs
  · exact h
  · exact onParticipant_sound h (fun _ => rfl)

end Calls

section Leaving

/-- No id names the participant after it has left. -/
def Room.LeavesNoTrace (room : Room) (id : CStr) : Prop :=
  room.activeSpeakerParticipantId ≠ id ∧ room.pinnedParticipantId ≠ id ∧
    (room.callCenterState = .completed →
      room.callCenterCustomerParticipantId ≠ id ∧ room.callCenterAgentParticipantId ≠ id)

theorem leaveCallCenter_roster (room : Room) (id : CStr) :
    (leaveCallCenter room id).participants = room.participants ∧
      (leaveCallCenter room id).tracks = room.tracks ∧
      (leaveCallCenter room id).subscriptions = room.subscriptions := by
  rw [leaveCallCenter]
  split_ifs <;> exact ⟨rfl, rfl, rfl⟩

theorem leaveCallCenter_idle (h : room.Sound) :
    (leaveCallCenter room id).callCenterState = .none →
      (leaveCallCenter room id).callCenterCustomerParticipantId = [] ∧
        (leaveCallCenter room id).callCenterAgentParticipantId = [] := by
  rw [leaveCallCenter]
  split_ifs
  · intro hnone
    exact absurd hnone (by simp)
  · exact h.idle
  · exact h.idle

/-- Nothing points at the participant who has left the call center. -/
theorem leaveCallCenter_pointers (h : room.Sound)
    (hsafe : id ∈ room.memberIds → room.LeavesNoTrace id) {p : CStr}
    (hp : p ∈ (leaveCallCenter room id).pointers) (hne : p ≠ []) : p ∈ room.pointers ∧ p ≠ id := by
  have hfar : p ∈ room.pointers → p = id → room.LeavesNoTrace id := by
    intro hmem heq
    exact hsafe (heq ▸ h.intact.pointer hmem hne)
  have hspeaker : p = room.activeSpeakerParticipantId → p ∈ room.pointers ∧ p ≠ id := by
    intro heq
    have hmem : p ∈ room.pointers := by simp [pointers, heq]
    exact ⟨hmem, fun hid => (hfar hmem hid).1 (heq.symm.trans hid)⟩
  have hpinned : p = room.pinnedParticipantId → p ∈ room.pointers ∧ p ≠ id := by
    intro heq
    have hmem : p ∈ room.pointers := by simp [pointers, heq]
    exact ⟨hmem, fun hid => (hfar hmem hid).2.1 (heq.symm.trans hid)⟩
  rw [leaveCallCenter] at hp
  split_ifs at hp with hprimary hconsult
  · simp only [pointers, mem_cons, hne, not_mem_nil, or_false] at hp
    exact hp.elim hspeaker hpinned
  all_goals
    have hkept : p = room.callCenterCustomerParticipantId ∨
        p = room.callCenterAgentParticipantId → p ∈ room.pointers ∧ p ≠ id := by
      intro heq
      have hmem : p ∈ room.pointers := by
        rcases heq with heq | heq <;> simp [pointers, heq]
      refine ⟨hmem, ?_⟩
      rintro rfl
      have hstate : room.callCenterState = .completed := by
        by_contra hopen
        refine hprimary (decide_eq_true ⟨heq.imp Eq.symm Eq.symm, ?_, hopen⟩)
        intro hnone
        rcases heq with heq | heq
        · exact hne (heq.trans (h.idle hnone).1)
        · exact hne (heq.trans (h.idle hnone).2)
      obtain ⟨hcustomer, hagent⟩ := (hfar hmem rfl).2.2 hstate
      exact heq.elim (fun heq => hcustomer heq.symm) (fun heq => hagent heq.symm)
  · simp only [pointers, mem_cons, hne, not_mem_nil, or_false] at hp
    rcases hp with heq | heq | heq | heq
    · exact hspeaker heq
    · exact hpinned heq
    · exact hkept (.inl heq)
    · exact hkept (.inr heq)
  · simp only [pointers, mem_cons, not_mem_nil, or_false] at hp
    rcases hp with heq | heq | heq | heq | heq
    · exact hspeaker heq
    · exact hpinned heq
    · exact hkept (.inl heq)
    · exact hkept (.inr heq)
    · refine ⟨by simp [pointers, heq], ?_⟩
      intro hid
      exact hconsult (heq.symm.trans hid)

/-- The tracks of who leaves go, and the subscriptions to and of them. -/
theorem dropMedia_intact {members : List CStr} {pointers : List CStr} (h : room.Intact)
    (hsub : members.Sublist room.memberIds) (hstay : ∀ m ∈ room.memberIds, m ≠ id → m ∈ members)
    (hpointers : ∀ p ∈ pointers, p ∈ room.memberIds ∧ p ≠ id) :
    Roster.Intact
      ⟨members, (room.dropMedia id).roster.items, (room.dropMedia id).roster.links, pointers⟩ := by
  refine h.shrink hsub (filter_sublist.map _) (filter_sublist.map _) ?_ ?_ ?_ ?_
  · rintro i hi
    obtain ⟨t, ht, rfl⟩ := mem_map.mp hi
    obtain ⟨hmem, howner⟩ := mem_filter.mp ht
    exact hstay _ (h.owners _ (mem_map_of_mem hmem)) (by simpa using howner)
  · intro l hl
    obtain ⟨s, hs, rfl⟩ := mem_map.mp hl
    obtain ⟨hmem, hfree⟩ := mem_filter.mp hs
    refine hstay _ (h.linkers _ (mem_map_of_mem hmem)) ?_
    intro heq
    rw [concerns, show s.subscriberParticipantId = id from heq] at hfree
    simp at hfree
  · intro l hl owner howner
    obtain ⟨s, hs, rfl⟩ := mem_map.mp hl
    obtain ⟨-, hfree⟩ := mem_filter.mp hs
    obtain ⟨t, ht, heq⟩ := mem_map.mp howner
    rw [Prod.mk.injEq] at heq
    obtain ⟨hid, rfl⟩ := heq
    obtain ⟨t', hfind⟩ : ∃ t', room.findTrack s.trackId = some t' := by
      rw [← isSome_iff_exists, findTrack, find?_isSome]
      exact ⟨t, ht, by simpa using hid⟩
    have hsame : t'.ownerParticipantId = t.ownerParticipantId := by
      have hid' : t'.trackId = s.trackId := by simpa using find?_some hfind
      have hmem' := mem_map_of_mem
        (f := fun t : RoomTrack => (t.trackId, t.ownerParticipantId))
        (mem_of_find?_eq_some hfind)
      rw [hid'] at hmem'
      exact h.owner_unique hmem' howner
    refine mem_map.mpr ⟨t, mem_filter.mpr ⟨ht, ?_⟩, by rw [hid]⟩
    rw [← hsame]
    simp only [concerns, hfind, map_some, getD_some, Bool.not_eq_true',
      Bool.or_eq_false_iff] at hfree
    simpa using hfree.2
  · intro p hp
    exact hstay p (hpointers p hp).1 (hpointers p hp).2

/-- Leaving is sound where no id names who has left. -/
theorem removeParticipant_sound (h : room.Sound)
    (hsafe : id ∈ room.memberIds → room.LeavesNoTrace id) :
    (removeParticipant room agents id).room.Sound := by
  obtain ⟨hparticipants, htracks, hsubscriptions⟩ := leaveCallCenter_roster room id
  have hpointers : ∀ p ∈ (leaveCallCenter room id).roster.pointers,
      p ∈ (leaveCallCenter room id).memberIds ∧ p ≠ id := by
    intro p hp
    obtain ⟨hne, hp⟩ := mem_pointers.mp hp
    obtain ⟨hmem, hid⟩ := leaveCallCenter_pointers h hsafe hp hne
    rw [memberIds, hparticipants]
    exact ⟨h.intact.pointer hmem hne, hid⟩
  have hleft : (leaveCallCenter room id).Sound := by
    refine h.point ?_ ?_ ?_ ?_ (leaveCallCenter_idle h)
    · rw [memberIds, memberIds, hparticipants]
    · rw [roster, roster, htracks]
    · rw [roster, roster, hsubscriptions]
    · intro p hp hne
      exact h.intact.pointer (leaveCallCenter_pointers h hsafe hp hne).1 hne
  rw [removeParticipant]
  split
  · exact ⟨dropMedia_intact hleft.intact (.refl _) (fun m hm _ => hm) hpointers, hleft.idle⟩
  · refine Room.Sound.activity ⟨dropMedia_intact hleft.intact ?_ ?_ hpointers, hleft.idle⟩
    · exact eraseP_sublist.map _
    · intro m hm hne
      obtain ⟨p, hp, rfl⟩ := mem_map.mp hm
      refine mem_map_of_mem ((mem_eraseP_of_neg ?_).mpr hp)
      simpa using hne

end Leaving

section Media

theorem findTrackIndex_some {i : ℕ} (h : room.findTrackIndex id = some i) :
    ∃ t, room.tracks[i]? = some t ∧ t.trackId = id := by
  obtain ⟨hlt, hkey, -⟩ := findIdx?_eq_some_iff_getElem.mp h
  exact ⟨room.tracks[i], getElem?_eq_getElem hlt, by simpa using hkey⟩

theorem findTrackIndex_none (h : room.findTrackIndex id = none) :
    ∀ t ∈ room.tracks, t.trackId ≠ id := by
  simpa [findTrackIndex] using h

/-- No subscriber of the track becomes its owner. -/
def Room.MayOwn (room : Room) (owner trackId : CStr) : Prop :=
  ∀ s ∈ room.subscriptions, s.trackId = trackId → s.subscriberParticipantId ≠ owner

/-- A track may change its owner to one who is not subscribed to it. -/
theorem publishTrack_sound {config : TrackConfig} (h : room.Sound)
    (hsafe : config.fits = true → room.canPublish (config.ownerParticipantId.getD []) = true →
      room.MayOwn (config.ownerParticipantId.getD []) (config.trackId.getD [])) :
    (publishTrack room agents config).room.Sound := by
  rw [publishTrack]
  split_ifs with hguard
  · rw [Bool.and_eq_true] at hguard
    obtain ⟨hfits, hpublish⟩ := hguard
    have howner := mem_of_canPublish hpublish
    split
    next i hfind =>
      obtain ⟨t, hget, hid⟩ := findTrackIndex_some hfind
      refine Room.Sound.mk ?_ h.idle
      have hitem : room.roster.items[i]? = some (t.trackId, t.ownerParticipantId) := by
        simp [roster, hget]
      have hset := h.intact.setOwner hitem howner (by
        intro hlink
        obtain ⟨s, hs, heq⟩ := mem_map.mp hlink
        rw [Prod.mk.injEq] at heq
        exact hsafe hfits hpublish s hs (heq.2.trans hid) heq.1)
      have hroster : (({ room with tracks := room.tracks.modify i config.fill } :
          Room).bumpVersion).roster =
          { room.roster with
            items := room.roster.items.set i
              (t.trackId, config.ownerParticipantId.getD []) } := by
        rw [Keyed.modify_eq_set _ hget]
        exact Roster.ext rfl map_set rfl rfl
      rw [Room.Intact, hroster]
      exact hset
    next hfind =>
      refine Room.Sound.mk ?_ h.idle
      have hadd := h.intact.addItem (t := config.trackId.getD []) (by
        intro i hi
        obtain ⟨t, ht, rfl⟩ := mem_map.mp hi
        exact findTrackIndex_none hfind t ht) howner
      have hroster : (({ room with
          tracks := room.tracks ++ [config.fill (newTrack (config.trackId.getD []))] } :
          Room).bumpVersion).roster =
          { room.roster with
            items := room.roster.items ++
              [(config.trackId.getD [], config.ownerParticipantId.getD [])] } :=
        Roster.ext rfl map_append rfl rfl
      rw [Room.Intact, hroster]
      exact hadd
  · exact h

theorem unpublishTrack_sound (h : room.Sound) : (unpublishTrack room agents id).room.Sound := by
  have hdrop : ∀ {items : List (CStr × CStr)}, items.Sublist room.roster.items →
      (∀ i ∈ room.roster.items, i.1 ≠ id → i ∈ items) →
      Roster.Intact
        ⟨room.memberIds, items, (room.subscriptions.filter (fun s => s.trackId != id)).map
          (fun s => (s.subscriberParticipantId, s.trackId)), room.roster.pointers⟩ := by
    intro items hsub hstay
    refine h.intact.shrink (.refl _) hsub (filter_sublist.map _)
      (fun i hi => h.intact.owners i (hsub.subset hi)) ?_ ?_ h.intact.pointers
    · intro l hl
      exact h.intact.linkers l ((filter_sublist.map _).subset hl)
    · intro l hl owner howner
      obtain ⟨s, hs, rfl⟩ := mem_map.mp hl
      exact hstay _ howner (by simpa using (mem_filter.mp hs).2)
  rw [unpublishTrack]
  split
  · exact ⟨hdrop (.refl _) (fun i hi _ => hi), h.idle⟩
  · refine Room.Sound.mk (hdrop (eraseP_sublist.map _) ?_) h.idle
    intro i hi hne
    obtain ⟨t, ht, rfl⟩ := mem_map.mp hi
    refine mem_map_of_mem ((mem_eraseP_of_neg ?_).mpr ht)
    simpa using hne

theorem setTrackMuted_sound {muted : Bool} (h : room.Sound) :
    (setTrackMuted room agents id muted).room.Sound := by
  rw [setTrackMuted]
  split
  · exact h
  · refine h.same ?_ rfl rfl rfl
    have hitem : ∀ t : RoomTrack, ((t.mute muted).trackId, (t.mute muted).ownerParticipantId) =
          (t.trackId, t.ownerParticipantId) :=
      fun _ => rfl
    exact Roster.ext rfl (Keyed.map_modify_same hitem _ _) rfl rfl

theorem findSubscription_none {subscriber : CStr} (h : room.findSubscription subscriber id = none) :
    (subscriber, id) ∉ room.roster.links := by
  intro hmem
  obtain ⟨s, hs, heq⟩ := mem_map.mp hmem
  rw [Prod.mk.injEq] at heq
  rw [findSubscription, findIdx?_eq_none_iff] at h
  have := h s hs
  simp [heq.1, heq.2] at this

theorem Room.Intact.subscribe {subscription : RoomSubscription} {track : RoomTrack}
    (h : room.Intact) (hmember : subscription.subscriberParticipantId ∈ room.memberIds)
    (htrack : track ∈ room.tracks) (hid : track.trackId = subscription.trackId)
    (hother : track.ownerParticipantId ≠ subscription.subscriberParticipantId)
    (hnew : room.findSubscription subscription.subscriberParticipantId subscription.trackId =
      none) : Room.Intact { room with subscriptions := room.subscriptions ++ [subscription] } := by
  have hitem : (subscription.trackId, track.ownerParticipantId) ∈ room.roster.items := by
    rw [← hid]
    exact mem_map_of_mem htrack
  have hadd := h.addLink hmember hitem hother (findSubscription_none hnew)
  have hroster : roster { room with subscriptions := room.subscriptions ++ [subscription] } =
      { room.roster with
        links := room.roster.links ++
          [(subscription.subscriberParticipantId, subscription.trackId)] } :=
    Roster.ext rfl rfl map_append rfl
  rw [Room.Intact, hroster]
  exact hadd

/-- The track of that id belongs to somebody else. -/
def Room.MaySubscribe (room : Room) (subscriber trackId : CStr) : Prop :=
  ∀ t ∈ room.tracks, t.trackId = trackId → t.ownerParticipantId ≠ subscriber

/-- Subscribing is sound to the tracks of others. -/
theorem setSubscription_sound {config : SubscriptionConfig} (h : room.Sound)
    (hsafe : config.fits = true →
      room.MaySubscribe (config.subscriberParticipantId.getD []) (config.trackId.getD [])) :
    (setSubscription room agents config).room.Sound := by
  rw [setSubscription]
  split_ifs with hguard
  · rw [Bool.and_eq_true, Bool.and_eq_true] at hguard
    obtain ⟨⟨hfits, hsubscriber⟩, htrack⟩ := hguard
    split
    · refine h.same ?_ rfl rfl rfl
      have hlink : ∀ s, ((config.fill s).subscriberParticipantId, (config.fill s).trackId) =
          (s.subscriberParticipantId, s.trackId) :=
        fun _ => rfl
      exact Roster.ext rfl rfl (Keyed.map_modify_same hlink _ _) rfl
    next hfind =>
      obtain ⟨track, htrack⟩ := isSome_iff_exists.mp htrack
      have hid : track.trackId = config.trackId.getD [] := by
        simpa using find?_some htrack
      have hmem := mem_of_find?_eq_some htrack
      exact ⟨h.intact.subscribe (findParticipant_isSome_iff.mp hsubscriber) hmem hid
        (hsafe hfits track hmem hid) hfind, h.idle⟩
  · exact h

theorem removeSubscription_sound {subscriber : CStr} (h : room.Sound) :
    (removeSubscription room agents subscriber id).room.Sound := by
  rw [removeSubscription]
  split
  · exact h
  · refine ⟨h.intact.shrink (.refl _) (.refl _) ((eraseIdx_sublist _ _).map _)
      h.intact.owners ?_ (fun _ _ _ hmem => hmem) h.intact.pointers, h.idle⟩
    intro l hl
    exact h.intact.linkers l (((eraseIdx_sublist _ _).map _).subset hl)

end Media

section Pointing

theorem canPoint_member {participantId : Option CStr} (h : room.canPoint participantId = true)
    (hne : participantId.getD [] ≠ []) : participantId.getD [] ∈ room.memberIds := by
  rw [canPoint, Bool.and_eq_true, Bool.or_eq_true, decide_eq_true_eq] at h
  exact findParticipant_isSome_iff.mp (h.2.resolve_left hne)

variable (h : room.Sound)
include h

theorem Room.Sound.repoint {room' : Room} {id : CStr}
    (hmembers : room'.memberIds = room.memberIds) (hitems : room'.roster.items = room.roster.items)
    (hlinks : room'.roster.links = room.roster.links)
    (hpointers : ∀ p ∈ room'.pointers, p = id ∨ p = [] ∨ p ∈ room.pointers)
    (hid : id ≠ [] → id ∈ room.memberIds)
    (hidle : room'.callCenterState = .none →
      room'.callCenterCustomerParticipantId = [] ∧ room'.callCenterAgentParticipantId = []) :
    room'.Sound := by
  refine h.point hmembers hitems hlinks ?_ hidle
  intro p hp hne
  rcases hpointers p hp with rfl | rfl | hold
  · exact hid hne
  · exact absurd rfl hne
  · exact h.intact.pointer hold hne

theorem setActiveSpeaker_sound {participantId : Option CStr} :
    (setActiveSpeaker room agents participantId).room.Sound := by
  rw [setActiveSpeaker]
  split_ifs with hguard
  · refine h.repoint rfl rfl rfl ?_ (canPoint_member hguard) h.idle
    intro p hp
    simp only [pointers, bumpVersion, mem_cons, not_mem_nil, or_false] at hp ⊢
    tauto
  · exact h

theorem pinParticipant_sound {participantId : Option CStr} :
    (pinParticipant room agents participantId).room.Sound := by
  rw [pinParticipant]
  split_ifs with hguard
  · refine h.repoint rfl rfl rfl ?_ (canPoint_member hguard) h.idle
    intro p hp
    simp only [pointers, bumpVersion, mem_cons, not_mem_nil, or_false] at hp ⊢
    tauto
  · exact h

theorem startCallCenterRoom_sound {customer agent : Option CStr} :
    (startCallCenterRoom room agents customer agent).room.Sound := by
  rw [startCallCenterRoom]
  split_ifs with hguard
  · split
    · exact h
    · simp only [canStart, Bool.and_eq_true] at hguard
      refine h.point rfl rfl rfl ?_ (fun hnone => absurd hnone (by simp))
      intro p hp hne
      simp only [pointers, bumpCallCenterVersion, mem_cons, hne, not_mem_nil,
        or_false] at hp
      rcases hp with rfl | rfl | rfl | rfl
      · exact h.intact.pointer (by simp [pointers]) hne
      · exact h.intact.pointer (by simp [pointers]) hne
      · exact mem_of_hasRole hguard.1.2
      · exact mem_of_hasRole hguard.2
  · exact h

theorem setCallCenterConsultAgent_sound {consultAgent : Option CStr} :
    (setCallCenterConsultAgent room agents consultAgent).room.Sound := by
  rw [setCallCenterConsultAgent]
  split_ifs with hguard
  · have hmember : consultAgent.getD [] ∈ room.memberIds := by
      simp only [canConsult, Bool.and_eq_true] at hguard
      exact mem_of_hasRole hguard.1.2
    split
    · exact h
    · split
      · exact h
      · refine h.repoint rfl rfl rfl ?_ (fun _ => hmember) h.idle
        intro p hp
        simp only [pointers, bumpCallCenterVersion, mem_cons, not_mem_nil,
          or_false] at hp ⊢
        tauto
  · exact h

theorem completeCallCenterTransfer_sound {released : AgentState} :
    (completeCallCenterTransfer room agents released).room.Sound := by
  rw [completeCallCenterTransfer]
  split_ifs with hguard
  · split
    · exact h
    · split
      · exact h
      · simp only [canTransfer, Bool.and_eq_true, decide_eq_true_eq] at hguard
        refine h.repoint rfl rfl rfl ?_ (fun _ => mem_of_hasRole hguard.2)
          (fun hnone => ?_)
        · intro p hp
          simp only [pointers, bumpCallCenterVersion, mem_cons, not_mem_nil,
            or_false] at hp ⊢
          tauto
        · have hact : room.callCenterState = .active := hguard.1.1.2
          exact absurd (hact.symm.trans hnone) (by simp)
  · exact h

theorem finalizeCallCenterRoom_sound
    {state : CallCenterState} {dispositionCode : Option CStr} {agentState : AgentState} :
    (finalizeCallCenterRoom room agents state dispositionCode agentState).room.Sound := by
  rw [finalizeCallCenterRoom]
  split_ifs with hguard
  · split
    · exact h
    · refine h.point rfl rfl rfl (fun p hp hne => h.intact.pointer hp hne) ?_
      rintro rfl
      simp [canFinalize, finalAgentState] at hguard
  · exact h

end Pointing

section Reconciling

/-- The subscriptions have changed, the rest of the room has not. -/
structure Reconciled (room room' : Room) : Prop where
  sound : room'.Sound
  participants : room'.participants = room.participants
  tracks : room'.tracks = room.tracks

variable {room' : Room}

theorem applyPolicy_reconciled {policy : SubscriptionPolicy} {i : ℕ}
    (h : Reconciled room room') : Reconciled room (room'.applyPolicy i policy).1 := by
  rw [applyPolicy]
  split
  · exact h
  next subscription hget =>
    refine ⟨h.sound.same ?_ rfl rfl rfl, h.participants, h.tracks⟩
    refine Roster.ext rfl rfl ?_ rfl
    refine ext_getElem? ?_
    intro j
    have hnames : ∀ e p l1 l2 m s,
        (subscription.setFields e p l1 l2 m s).1.subscriberParticipantId =
            subscription.subscriberParticipantId ∧
          (subscription.setFields e p l1 l2 m s).1.trackId = subscription.trackId := by
      intro e p l1 l2 m s
      rw [RoomSubscription.setFields]
      split_ifs <;> exact ⟨rfl, rfl⟩
    simp only [roster, getElem?_map, getElem?_set]
    split_ifs with hij hlt
    · rw [← hij, hget, map_some, map_some, (hnames _ _ _ _ _ _).1,
        (hnames _ _ _ _ _ _).2]
    · exact absurd (List.getElem?_eq_some_iff.mp hget).1 hlt
    · rfl

variable {pair : RoomParticipant × RoomTrack}

theorem ensureSubscription_reconciled
    (h : Reconciled room room') (hpair : pair ∈ room.participants ×ˢ room.tracks)
    (hother : pair.2.ownerParticipantId ≠ pair.1.participantId) :
    Reconciled room (room'.ensureSubscription pair.1.participantId pair.2.trackId).1 := by
  obtain ⟨hpart, htrack⟩ := mem_product.mp hpair
  rw [ensureSubscription]
  split
  · exact h
  next hfind =>
    refine ⟨⟨h.sound.intact.subscribe ?_ (h.tracks ▸ htrack) rfl hother hfind, h.sound.idle⟩,
      h.participants, h.tracks⟩
    rw [memberIds, h.participants]
    exact mem_map_of_mem hpart

variable {acc : Room × Bool}

theorem reconcilePair_reconciled
    (h : Reconciled room acc.1) (hpair : pair ∈ room.participants ×ˢ room.tracks) :
    Reconciled room (reconcilePair acc pair).1 := by
  rw [reconcilePair]
  split_ifs with hself
  · exact h
  · have hensured := ensureSubscription_reconciled h hpair (fun heq => hself heq.symm)
    split
    · exact applyPolicy_reconciled hensured
    · exact applyPolicy_reconciled hensured
    · exact hensured

variable {mode : SupervisorMode}

theorem callCenterSubscriptionAllowed_other
    {subscriber : RoomParticipant} {track : RoomTrack} {name : CStr}
    (h : room.callCenterSubscriptionAllowed subscriber
      (room.findParticipant track.ownerParticipantId) track mode = some name) :
    track.ownerParticipantId ≠ subscriber.participantId := by
  cases hfind : room.findParticipant track.ownerParticipantId with
  | none =>
    rw [hfind] at h
    exact absurd h (by simp [callCenterSubscriptionAllowed])
  | some owner =>
    intro heq
    rw [hfind, callCenterSubscriptionAllowed] at h
    rw [if_pos (heq.symm.trans (findParticipant_id hfind).symm)] at h
    exact absurd h (by simp)

theorem reconcileCallCenterPair_reconciled
    (h : Reconciled room acc.1) (hpair : pair ∈ room.participants ×ˢ room.tracks) :
    Reconciled room (reconcileCallCenterPair mode acc pair).1 := by
  rw [reconcileCallCenterPair]
  split
  · exact h
  next name hallowed =>
    exact applyPolicy_reconciled
      (ensureSubscription_reconciled h hpair (callCenterSubscriptionAllowed_other hallowed))

/-- A pass over the pairs keeps what each of them keeps. -/
theorem foldl_reconciled {step : Room × Bool → RoomParticipant × RoomTrack → Room × Bool}
    (hstep : ∀ acc, ∀ pair ∈ room.participants ×ˢ room.tracks, Reconciled room acc.1 →
      Reconciled room (step acc pair).1) {pairs : List (RoomParticipant × RoomTrack)}
    (hpairs : pairs ⊆ room.participants ×ˢ room.tracks)
    (h : Reconciled room acc.1) : Reconciled room (pairs.foldl step acc).1 := by
  induction pairs generalizing acc with
  | nil => exact h
  | cons pair pairs ih =>
    rw [cons_subset] at hpairs
    exact ih hpairs.2 (hstep acc pair hpairs.1 h)

theorem Reconciled.bump {changed : Bool} (h : Reconciled room room') :
    (if changed then room'.bumpVersion else room').Sound := by
  split_ifs
  · exact h.sound.same rfl rfl rfl rfl
  · exact h.sound

theorem reconcileSubscriptions_sound (h : room.Sound) :
    (reconcileSubscriptions room agents).room.Sound := by
  rw [reconcileSubscriptions]
  exact (foldl_reconciled (fun _ _ hpair hacc => reconcilePair_reconciled hacc hpair)
    (List.Subset.refl _) ⟨h, rfl, rfl⟩).bump

theorem reconcileCallCenterSubscriptions_sound (h : room.Sound) :
    (reconcileCallCenterSubscriptions room agents mode).room.Sound := by
  rw [reconcileCallCenterSubscriptions]
  refine Reconciled.bump (foldl_reconciled
    (fun _ _ hpair hacc => reconcileCallCenterPair_reconciled hacc hpair)
    (List.Subset.refl _) ⟨⟨?_, h.idle⟩, rfl, rfl⟩)
  refine h.intact.shrink (.refl _) (.refl _) (filter_sublist.map _) h.intact.owners ?_
    (fun _ _ _ hmem => hmem) h.intact.pointers
  intro l hl
  exact h.intact.linkers l ((filter_sublist.map _).subset hl)

end Reconciling

/-- The call leaves nothing behind that refers to nobody: who leaves is not named
afterwards, a track does not go to one of its subscribers, and nobody subscribes to an own
track. -/
def RoomCall.KeepsReferences (room : Room) : RoomCall → Prop
  | .removeParticipant id => id ∈ room.memberIds → room.LeavesNoTrace id
  | .publishTrack config =>
    config.fits = true → room.canPublish (config.ownerParticipantId.getD []) = true →
      room.MayOwn (config.ownerParticipantId.getD []) (config.trackId.getD [])
  | .setSubscription config =>
    config.fits = true →
      room.MaySubscribe (config.subscriberParticipantId.getD []) (config.trackId.getD [])
  | _ => True

/-- `RoomCall.KeepsReferences` of the room that the call is for. -/
def ServiceCall.KeepsReferences (s : RoomService) : ServiceCall → Prop
  | .onRoom roomId call => ∀ room ∈ s.room? roomId, call.KeepsReferences room
  | _ => True

instance (room : Room) (id : CStr) : Decidable (room.LeavesNoTrace id) :=
  inferInstanceAs (Decidable (_ ∧ _ ∧ _))

instance (room : Room) (owner trackId : CStr) : Decidable (room.MayOwn owner trackId) :=
  inferInstanceAs (Decidable (∀ s ∈ room.subscriptions, _ → _ ≠ owner))

instance (room : Room) (subscriber trackId : CStr) :
    Decidable (room.MaySubscribe subscriber trackId) :=
  inferInstanceAs (Decidable (∀ t ∈ room.tracks, _ → _ ≠ subscriber))

instance (room : Room) (call : RoomCall) : Decidable (call.KeepsReferences room) :=
  match call with
  | .removeParticipant id =>
    decidable_of_iff (room.memberIds.contains id = true → room.LeavesNoTrace id)
      (by rw [contains_iff_mem]; exact Iff.rfl)
  | .publishTrack config =>
    inferInstanceAs (Decidable (config.fits = true →
      room.canPublish (config.ownerParticipantId.getD []) = true → _))
  | .setSubscription config => inferInstanceAs (Decidable (config.fits = true → _))
  | .closeRoom | .assignSfuNode _ | .addParticipant _ | .setParticipantSessionState _ _
  | .setParticipantBandwidth _ _ | .unpublishTrack _ | .setTrackMuted _ _
  | .removeSubscription _ _ | .startRecording _ _ | .stopRecording | .setLayoutMode _
  | .setActiveSpeaker _ | .pinParticipant _ | .reconcileSubscriptions
  | .reconcileCallCenterSubscriptions _ | .startCallCenterRoom _ _
  | .setCallCenterConsultAgent _ | .completeCallCenterTransfer _
  | .finalizeCallCenterRoom _ _ _ => inferInstanceAs (Decidable True)

instance (s : RoomService) (call : ServiceCall) : Decidable (call.KeepsReferences s) :=
  match call with
  | .onRoom roomId call =>
    inferInstanceAs (Decidable (∀ room ∈ s.room? roomId, call.KeepsReferences room))
  | .createRoom _ | .discardUnassignedRoom _ => inferInstanceAs (Decidable True)

/-- Each call keeps a sound room sound. -/
theorem apply_sound {agents : List AgentStateEntry} {call : RoomCall} (h : room.Sound)
    (hsafe : call.KeepsReferences room) : (call.apply room agents).room.Sound := by
  cases call with
  | closeRoom => exact closeRoom_sound h
  | assignSfuNode nodeId => exact assignSfuNode_sound h
  | addParticipant config => exact addParticipant_sound h
  | removeParticipant id => exact removeParticipant_sound h hsafe
  | setParticipantSessionState id state => exact setParticipantSessionState_sound h
  | setParticipantBandwidth id bps => exact setParticipantBandwidth_sound h
  | publishTrack config => exact publishTrack_sound h hsafe
  | unpublishTrack id => exact unpublishTrack_sound h
  | setTrackMuted id muted => exact setTrackMuted_sound h
  | setSubscription config => exact setSubscription_sound h hsafe
  | removeSubscription subscriber id => exact removeSubscription_sound h
  | startRecording id mode =>
    rw [RoomCall.apply, startRecording]
    split
    · exact h.same rfl rfl rfl rfl
    · exact h
  | stopRecording =>
    rw [RoomCall.apply, stopRecording]
    split
    · exact h.same rfl rfl rfl rfl
    · exact h
  | setLayoutMode mode =>
    rw [RoomCall.apply, setLayoutMode]
    split
    · exact h
    · exact h.same rfl rfl rfl rfl
  | setActiveSpeaker id => exact setActiveSpeaker_sound h
  | pinParticipant id => exact pinParticipant_sound h
  | reconcileSubscriptions => exact reconcileSubscriptions_sound h
  | reconcileCallCenterSubscriptions mode => exact reconcileCallCenterSubscriptions_sound h
  | startCallCenterRoom customer agent => exact startCallCenterRoom_sound h
  | setCallCenterConsultAgent consult => exact setCallCenterConsultAgent_sound h
  | completeCallCenterTransfer released => exact completeCallCenterTransfer_sound h
  | finalizeCallCenterRoom state code agentState => exact finalizeCallCenterRoom_sound h

theorem newRoom_sound (config : RoomConfig) : (newRoom config).Sound :=
  ⟨Roster.Intact.empty, fun _ => ⟨rfl, rfl⟩⟩

variable {s : RoomService} {roomId : CStr}

theorem room?_some (h : s.room? roomId = some room) :
    ∃ i, s.findRoom roomId = some i ∧ s.rooms[i]? = some room := by
  rw [RoomService.room?, bind_eq_some_iff] at h
  exact h

theorem onRoom_found {i : ℕ}
    (hfind : s.findRoom roomId = some i) (hget : s.rooms[i]? = some room) (call : RoomCall) :
    onRoom s roomId call = (⟨s.rooms.set i (call.apply room s.agentStates).room,
        (call.apply room s.agentStates).agents⟩, (call.apply room s.agentStates).ok) := by
  have hroom : s.room? roomId = some room := by
    rw [RoomService.room?, hfind]
    exact hget
  rw [onRoom, hfind, hroom]

theorem onRoom_missing (h : s.room? roomId = none)
    (call : RoomCall) : onRoom s roomId call = (s, false) := by
  rw [onRoom, h]
  cases s.findRoom roomId <;> rfl

/-- Each call of the service keeps all rooms sound. -/
theorem step_sound (s : RoomService) (call : ServiceCall) (hsafe : call.KeepsReferences s)
    (h : ∀ room ∈ s.rooms, room.Sound) :
    ∀ room ∈ (roomServiceMachine.next s call).rooms, room.Sound := by
  intro room hroom
  cases call with
  | createRoom config =>
    simp only [Machine.next, roomServiceMachine, createRoom] at hroom
    split at hroom
    · rcases mem_append.mp hroom with hold | hnew
      · exact h room hold
      · rw [mem_singleton.mp hnew]
        exact newRoom_sound config
    · exact h room hroom
  | discardUnassignedRoom roomId =>
    simp only [Machine.next, roomServiceMachine, discardUnassignedRoom] at hroom
    split at hroom
    · exact h room hroom
    · split at hroom
      · exact h room hroom
      · exact h room ((eraseIdx_sublist _ _).subset hroom)
  | onRoom roomId call =>
    simp only [Machine.next, roomServiceMachine] at hroom
    cases hfind : s.room? roomId with
    | none =>
      rw [onRoom_missing hfind] at hroom
      exact h room hroom
    | some found =>
      obtain ⟨i, hidx, hget⟩ := room?_some hfind
      rw [onRoom_found hidx hget] at hroom
      rcases mem_or_eq_of_mem_set hroom with hold | rfl
      · exact h room hold
      · exact apply_sound (h found (mem_of_getElem? hget)) (hsafe found hfind)

theorem addParticipant_new {agents : List AgentStateEntry} {config : ParticipantConfig}
    (h : (addParticipant room agents config).ok = true) :
    config.participantId.getD [] ≠ [] ∧ config.participantId.getD [] ∉ room.memberIds ∧
      (addParticipant room agents config).room.pointers = room.pointers := by
  rw [addParticipant] at h ⊢
  split_ifs at h ⊢ with hfits
  · have hne : config.participantId.getD [] ≠ [] := by
      intro hempty
      cases hid : config.participantId with
      | none => simp [hid, stringFits] at hfits
      | some bytes =>
        rw [hid, getD_some] at hempty
        simp [hid, hempty, stringFits] at hfits
    cases hfind : room.findParticipant (config.participantId.getD []) with
    | some p =>
      rw [hfind] at h
      exact absurd h Bool.false_ne_true
    | none =>
      refine ⟨hne, findParticipant_none hfind, ?_⟩
      dsimp only
      rw [updateActivity]
      split <;> rfl
  · exact absurd h Bool.false_ne_true

/-- **Referential integrity.**  In every run in which nobody leaves while named, no track
goes to one of its subscribers and nobody subscribes to an own track, all rooms are intact
after every call, and whoever joins is named by no id of the room. -/
theorem rooms_referentially_intact {calls : List ServiceCall}
    (h : roomServiceMachine.Along (fun s call => call.KeepsReferences s) .fresh calls) :
    (∀ room ∈ (roomServiceMachine.run .fresh calls).rooms, room.Intact) ∧
      ∀ before roomId config after room agents,
        calls = before ++ .onRoom roomId (.addParticipant config) :: after →
        (roomServiceMachine.run .fresh before).room? roomId = some room →
        (addParticipant room agents config).ok = true →
        config.participantId.getD [] ∉ (addParticipant room agents config).room.pointers := by
  have hsound : ∀ {calls}, roomServiceMachine.Along (fun s call => call.KeepsReferences s)
      .fresh calls → ∀ room ∈ (roomServiceMachine.run .fresh calls).rooms, room.Sound := by
    intro calls halong
    exact roomServiceMachine.run_invariant_along (P := fun s => ∀ room ∈ s.rooms, room.Sound)
      step_sound (by simp [RoomService.fresh]) halong
  refine ⟨fun room hroom => (hsound h room hroom).intact, ?_⟩
  rintro before roomId config after room agents rfl hroom hok hpointer
  obtain ⟨i, -, hget⟩ := room?_some hroom
  have hbefore := hsound (roomServiceMachine.along_append_left h) room (mem_of_getElem? hget)
  obtain ⟨hne, hnew, hpointers⟩ := addParticipant_new hok
  rw [hpointers] at hpointer
  exact hnew (hbefore.intact.pointer hpointer hne)

def aRoom : RoomConfig := ⟨some [1], 1, 1⟩

def aParticipant (id : UInt8) (role : ParticipantRole) : ServiceCall :=
  .onRoom [1] (.addParticipant ⟨some [id], 1, none, none, role⟩)

def aTrack (owner : UInt8) : ServiceCall :=
  .onRoom [1] (.publishTrack ⟨some [9], some [owner], .audio, .mic, none, false, 7, []⟩)

def aSubscription (subscriber : UInt8) : ServiceCall :=
  .onRoom [1] (.setSubscription ⟨some [subscriber], some [9], true, 0, .none, .none, false, none⟩)

def pinnedLeaves : List ServiceCall :=
  [.createRoom aRoom, aParticipant 1 .guest, .onRoom [1] (.pinParticipant (some [1])),
    .onRoom [1] (.removeParticipant [1])]

def speakerLeaves : List ServiceCall :=
  [.createRoom aRoom, aParticipant 1 .guest, .onRoom [1] (.setActiveSpeaker (some [1])),
    .onRoom [1] (.removeParticipant [1])]

/-- The agent leaves after the call has been finalized. -/
def agentLeavesFinished : List ServiceCall :=
  [.createRoom aRoom, aParticipant 1 .customer, aParticipant 2 .agent,
    .onRoom [1] (.startCallCenterRoom (some [1]) (some [2])),
    .onRoom [1] (.finalizeCallCenterRoom .completed none .available),
    .onRoom [1] (.removeParticipant [2])]

def subscriberPublishes : List ServiceCall :=
  [.createRoom aRoom, aParticipant 1 .guest, aParticipant 2 .guest, aTrack 1, aSubscription 2,
    aTrack 2]

/-- A participant subscribes to an own track. -/
def ownerSubscribes : List ServiceCall :=
  [.createRoom aRoom, aParticipant 1 .guest, aTrack 1, aSubscription 1]

/-- Somebody leaves whom nobody names any more, and joins again. -/
def leavesAndReturns : List ServiceCall :=
  [.createRoom aRoom, aParticipant 1 .guest, aParticipant 2 .guest, aTrack 1, aSubscription 2,
    .onRoom [1] (.pinParticipant (some [1])), .onRoom [1] (.pinParticipant none),
    .onRoom [1] (.removeParticipant [1]), aParticipant 1 .guest]

theorem leavesAndReturns_intact :
    roomServiceMachine.Along (fun s call => call.KeepsReferences s) .fresh leavesAndReturns ∧
      ∀ room ∈ (roomServiceMachine.run .fresh leavesAndReturns).rooms, room.Intact :=
  have h : roomServiceMachine.Along (fun s call => call.KeepsReferences s) .fresh
      leavesAndReturns := by decide
  ⟨h, (rooms_referentially_intact h).1⟩

/-- Each call that leaves a name behind breaks a room. -/
theorem rooms_not_intact :
    (∃ room ∈ (roomServiceMachine.run .fresh pinnedLeaves).rooms, ¬ room.Intact) ∧
      (∃ room ∈ (roomServiceMachine.run .fresh speakerLeaves).rooms, ¬ room.Intact) ∧
      (∃ room ∈ (roomServiceMachine.run .fresh agentLeavesFinished).rooms, ¬ room.Intact) ∧
      (∃ room ∈ (roomServiceMachine.run .fresh subscriberPublishes).rooms, ¬ room.Intact) ∧
      ∃ room ∈ (roomServiceMachine.run .fresh ownerSubscribes).rooms, ¬ room.Intact := by
  decide

end TurboMedia.Conference
