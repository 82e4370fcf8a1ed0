import TurboMedia.Conference.RoomIntegrity
import TurboMedia.Ivr.ConferenceControl

/-!
# Call generations and sequence numbers

What joining and leaving over the control plane do to the calls of a room and to their
sequence numbers.

**Input.**  Any run of room creations and commands on a fresh adapter.

**Method.**  The table holds one entry for each key under which a command has changed a
room (`SeqHolds`); a key is room, call and generation.  One inversion lemma says all that a
command can do (`Outcome`).
-/

namespace TurboMedia.Ivr

open List Conference SlotTable RoomCommandResult Room CallSeq ConferenceControl Bool
open Option hiding sequence

open Conference (RoomService Room RoomParticipant RoomAnswer RoomCall onRoom)

section Table

/-- Room, call and generation. -/
abbrev CallKey := CStr × CStr × UInt64

def CallSeq.key (entry : CallSeq) : CallKey :=
  (entry.roomId, entry.callId, entry.callGeneration)

def ConferenceCommand.key (cmd : ConferenceCommand) : CallKey :=
  (cmd.roomId, cmd.callId, cmd.callGeneration)

/-- The last sequence number under a key; 0 without an entry. -/
def sequenceOf (entries : SeqTable) (key : CallKey) : UInt64 :=
  match findOccupied (fun entry => entry.key = key) entries with
  | some (_, entry) => entry.lastSequence
  | none => 0

/-- The entries are those of the keys in `seen`, one each, and have counted something. -/
structure SeqHolds (seen : List CallKey) (entries : SeqTable) : Prop where
  perm : (entries.reduceOption.map key).Perm seen
  nodup : seen.Nodup
  positive : ∀ entry ∈ entries.reduceOption, entry.lastSequence ≠ 0

variable {seen : List CallKey} {entries : SeqTable} {cmd : ConferenceCommand} {i : ℕ}
  {entry : CallSeq}

theorem isFor_eq : isFor cmd = fun entry => decide (entry.key = cmd.key) := by
  funext entry
  rw [Bool.eq_iff_iff]
  simp only [isFor, key, ConferenceCommand.key, Bool.and_eq_true, beq_iff_eq,
    decide_eq_true_eq, Prod.mk.injEq]
  tauto

theorem seqCurrent_eq : seqCurrent entries cmd = sequenceOf entries cmd.key := by
  rw [seqCurrent, isFor_eq]
  rfl

variable (h : SeqHolds seen entries)
include h

theorem SeqHolds.keys_nodup :
    (entries.reduceOption.map key).Nodup :=
  h.perm.nodup_iff.mpr h.nodup

theorem SeqHolds.mem_iff {key : CallKey} :
    key ∈ seen ↔ ∃ entry ∈ entries.reduceOption, entry.key = key := by
  rw [← h.perm.mem_iff, List.mem_map]

theorem SeqHolds.find_some (hmem : cmd.key ∈ seen) :
    ∃ i entry, findOccupied (isFor cmd) entries = some (i, entry) ∧
      entries[i]? = some (some entry) ∧ entry.key = cmd.key := by
  obtain ⟨entry, hent, hkey⟩ := h.mem_iff.mp hmem
  obtain ⟨⟨i, found⟩, hfind⟩ := findOccupied_isSome
    (p := isFor cmd) hent (by simp [isFor_eq, hkey])
  obtain ⟨hget, hp⟩ := findOccupied_some hfind
  exact ⟨i, found, hfind, hget, by simpa [isFor_eq] using hp⟩

theorem SeqHolds.find_none (hmem : cmd.key ∉ seen) :
    findOccupied (isFor cmd) entries = none := by
  refine findOccupied_eq_none ?_
  intro entry hent
  rw [isFor_eq, decide_eq_false_iff_not]
  exact fun hkey => hmem (h.mem_iff.mpr ⟨entry, hent, hkey⟩)

omit h

theorem sequenceOf_mem (hnodup : (entries.reduceOption.map key).Nodup)
    (hmem : entry ∈ entries.reduceOption) : sequenceOf entries entry.key = entry.lastSequence := by
  obtain ⟨⟨i, found⟩, hfind⟩ := findOccupied_isSome
    (p := fun e : CallSeq => e.key = entry.key) hmem (by simp)
  obtain ⟨hget, hkey⟩ := findOccupied_some hfind
  have hsame := inj_on_of_nodup_map hnodup (mem_of_getElem? hget) hmem
    (by simpa using hkey)
  rw [sequenceOf, hfind, hsame]

theorem sequenceOf_none {key : CallKey} (h : ∀ entry ∈ entries.reduceOption, entry.key ≠ key) :
    sequenceOf entries key = 0 := by
  rw [sequenceOf, findOccupied_eq_none (fun e he => by simpa using h e he)]

theorem sequenceOf_set {o : Option CallSeq} {key own : CallKey}
    (hnodup : (entries.reduceOption.map CallSeq.key).Nodup)
    (hnodup' : ((entries.set i (some entry)).reduceOption.map CallSeq.key).Nodup)
    (hget : entries[i]? = some o) (hown : entry.key = own) (ho : ∀ old ∈ o, old.key = own) :
    sequenceOf (entries.set i (some entry)) key =
      if key = own then entry.lastSequence else sequenceOf entries key := by
  subst hown
  have hwritten : ∀ e, e ∈ (entries.set i (some entry)).reduceOption ↔
      e = entry ∨ e ∈ (entries.set i none).reduceOption := by
    intro e
    rw [(perm_set hget (some entry)).mem_iff]
    simp
  have hbef : ∀ e, e ∈ entries.reduceOption ↔
      e ∈ o ∨ e ∈ (entries.set i none).reduceOption := by
    intro e
    rw [(perm_expose hget).mem_iff]
    simp
  split_ifs with hkey
  · rw [hkey]
    exact sequenceOf_mem hnodup' ((hwritten entry).mpr (.inl rfl))
  · by_cases hthere : ∃ e ∈ entries.reduceOption, e.key = key
    · obtain ⟨e, he, rfl⟩ := hthere
      rw [sequenceOf_mem hnodup he]
      refine sequenceOf_mem hnodup' ((hwritten e).mpr (.inr ?_))
      exact ((hbef e).mp he).resolve_left (fun hold => hkey (ho e hold))
    · push Not at hthere
      rw [sequenceOf_none hthere, sequenceOf_none]
      intro e he heq
      rcases (hwritten e).mp he with rfl | hrest
      · exact hkey heq.symm
      · exact hthere e ((hbef e).mpr (.inr hrest)) heq

/-- The next number under a key that has one. -/
structure Advances (seen : List CallKey) (entries : SeqTable) (cmd : ConferenceCommand)
    (seen' : List CallKey) : Prop where
  holds : SeqHolds seen' (seqNext entries cmd).1
  length : (seqNext entries cmd).1.length = entries.length
  number : (seqNext entries cmd).2 = sequenceOf entries cmd.key + 1
  nonzero : (seqNext entries cmd).2 ≠ 0
  fits : sequenceOf entries cmd.key ≠ -1
  counted : ∀ key, sequenceOf (seqNext entries cmd).1 key =
    if key = cmd.key then (seqNext entries cmd).2 else sequenceOf entries key
  rollback : seqRollback (seqNext entries cmd).1 cmd = entries

theorem toNat_succ {n : UInt64} (h : n ≠ -1) : (n + 1).toNat = n.toNat + 1 := by
  rw [← UInt64.toNat_inj.ne] at h
  have hlt := n.toNat_lt
  simp at h ⊢
  omega

theorem succ_ne_zero {n : UInt64} (h : n ≠ -1) : n + 1 ≠ 0 := by
  intro hzero
  have hnat := toNat_succ h
  rw [hzero] at hnat
  simp at hnat

theorem advances_known (h : SeqHolds seen entries) (hmem : cmd.key ∈ seen)
    (hmax : sequenceOf entries cmd.key ≠ -1) : Advances seen entries cmd seen := by
  obtain ⟨i, entry, hfind, hget, hkey⟩ := h.find_some hmem
  have hin := SlotTable.mem_of_getElem? hget
  have hlast : sequenceOf entries cmd.key = entry.lastSequence := by
    rw [← hkey]
    exact sequenceOf_mem h.keys_nodup hin
  rw [hlast] at hmax
  have hne := succ_ne_zero hmax
  have hnext : seqNext entries cmd =
      (entries.set i (some { entry with lastSequence := entry.lastSequence + 1 }),
        entry.lastSequence + 1) := by
    rw [seqNext, hfind]
    exact if_neg hne
  have hperm : ((entries.set i
      (some { entry with lastSequence := entry.lastSequence + 1 })).reduceOption.map
        key).Perm (entries.reduceOption.map key) := by
    refine ((SlotTable.perm_set hget _).map _).trans ?_
    exact ((SlotTable.perm_expose hget).map key).symm
  have hhold : SeqHolds seen (seqNext entries cmd).1 := by
    rw [hnext]
    refine ⟨hperm.trans h.perm, h.nodup, ?_⟩
    intro e he
    rcases mem_append.mp ((SlotTable.perm_set hget _).mem_iff.mp he) with hnew | hold
    · simp only [toList_some, mem_singleton] at hnew
      rw [hnew]
      exact hne
    · exact h.positive e ((SlotTable.set_none_subperm hget).subset hold)
  refine ⟨hhold, by rw [hnext, length_set], by rw [hnext, hlast], by rw [hnext]; exact hne,
    by rwa [hlast], ?_, ?_⟩
  · intro key
    have hnodup' := hhold.keys_nodup
    rw [hnext] at hnodup' ⊢
    exact sequenceOf_set h.keys_nodup hnodup' hget hkey (by simpa using hkey)
  · obtain ⟨j, found, hfound, hgot, hsame⟩ := hhold.find_some hmem
    have hwritten : (seqNext entries cmd).1[i]? =
        some (some { entry with lastSequence := entry.lastSequence + 1 }) := by
      rw [hnext]
      exact getElem?_set_self (List.getElem?_eq_some_iff.mp hget).1
    have hij : i = j :=
      SlotTable.index_unique hhold.keys_nodup hwritten hgot (hsame.trans hkey.symm)
    subst hij
    rw [hwritten, some.injEq, some.injEq] at hgot
    subst hgot
    have hpos : entry.lastSequence ≠ 0 := h.positive entry hin
    have hlt : 1 < entry.lastSequence + 1 := by
      rw [UInt64.lt_iff_toNat_lt]
      have hlt := entry.lastSequence.toNat_lt
      rw [← UInt64.toNat_inj.ne] at hpos hmax
      simp at hpos hmax ⊢
      omega
    rw [seqRollback, hfound]
    dsimp only
    rw [if_pos hlt, hnext, set_set]
    simpa using SlotTable.set_getElem? hget

theorem advances_new (h : SeqHolds seen entries) (hmem : cmd.key ∉ seen)
    (hfree : seen.length < entries.length) (hroom : cmd.roomId.length < 64)
    (hcall : cmd.callId.length < 64) : Advances seen entries cmd (seen ++ [cmd.key]) := by
  have hfind := h.find_none hmem
  have hlen : entries.reduceOption.length = seen.length := by
    rw [← h.perm.length_eq, length_map]
  obtain ⟨i, hi⟩ : ∃ i, entries.findIdx? isNone = some i := by
    cases hcase : entries.findIdx? isNone with
    | none =>
      have hfull := length_of_full hcase
      omega
    | some i => exact ⟨i, rfl⟩
  obtain ⟨o, hget, hnone⟩ := findIdx?_getElem? hi
  rw [isNone_iff_eq_none] at hnone
  subst hnone
  have hkey : (firstSequence cmd).key = cmd.key := by
    rw [firstSequence, key, ConferenceCommand.key, take_of_length_le (by omega),
      take_of_length_le (by omega)]
  have hnext : seqNext entries cmd = (entries.set i (some (firstSequence cmd)), 1) := by
    rw [seqNext, hfind]
    rw [seqTakeFree, hi]
  have hsame : (entries.set i none).reduceOption = entries.reduceOption := by
    rw [set_getElem? hget]
  have hperm := perm_set hget (some (firstSequence cmd))
  rw [hsame] at hperm
  have hnodup : (seen ++ [cmd.key]).Nodup := by
    rw [nodup_append]
    refine ⟨h.nodup, nodup_singleton _, ?_⟩
    intro a ha b hb heq
    rw [mem_singleton] at hb
    exact hmem (hb ▸ heq ▸ ha)
  have hhold : SeqHolds (seen ++ [cmd.key]) (seqNext entries cmd).1 := by
    rw [hnext]
    refine ⟨?_, hnodup, ?_⟩
    · refine (hperm.map key).trans ?_
      rw [map_append, toList_some, map_singleton, hkey]
      exact (h.perm.append_left _).trans perm_append_comm
    · intro e he
      rcases mem_append.mp (hperm.mem_iff.mp he) with hnew | hold
      · simp only [toList_some, mem_singleton] at hnew
        rw [hnew]
        exact (by decide : (1 : UInt64) ≠ 0)
      · exact h.positive e hold
  have habs : sequenceOf entries cmd.key = 0 :=
    sequenceOf_none (fun e he heq => hmem (h.mem_iff.mpr ⟨e, he, heq⟩))
  refine ⟨hhold, by rw [hnext, length_set], by rw [hnext, habs]; rfl,
    by rw [hnext]; exact (by decide : (1 : UInt64) ≠ 0), by rw [habs]; decide, ?_, ?_⟩
  · intro key
    have hnodup' := hhold.keys_nodup
    rw [hnext] at hnodup' ⊢
    exact sequenceOf_set h.keys_nodup hnodup' hget hkey (by simp)
  · obtain ⟨j, found, hfound, hgot, hsame'⟩ := hhold.find_some
      (mem_append_right seen (mem_singleton_self cmd.key))
    have hwritten : (seqNext entries cmd).1[i]? = some (some (firstSequence cmd)) := by
      rw [hnext]
      exact getElem?_set_self (List.getElem?_eq_some_iff.mp hget).1
    have hij : i = j :=
      index_unique hhold.keys_nodup hwritten hgot (hsame'.trans hkey.symm)
    subst hij
    rw [hwritten, some.injEq, some.injEq] at hgot
    subst hgot
    rw [seqRollback, hfound]
    dsimp only
    rw [if_neg (by exact (by decide : ¬ (1 : UInt64) < 1)), hnext, set_set]
    exact set_getElem? hget

theorem seqNext_full (h : SeqHolds seen entries) (hmem : cmd.key ∉ seen)
    (hfull : entries.length ≤ seen.length) : seqNext entries cmd = (entries, 0) := by
  have hlen : entries.reduceOption.length = seen.length := by
    rw [← h.perm.length_eq, length_map]
  have hnone : entries.findIdx? isNone = none := by
    cases hcase : entries.findIdx? isNone with
    | none => rfl
    | some i =>
      obtain ⟨o, hget, hisNone⟩ := findIdx?_getElem? hcase
      have hall := reduceOption_length_eq_iff.mp
        (le_antisymm (reduceOption_length_le _) (hlen ▸ hfull)) o
        (mem_of_getElem? hget)
      rw [isNone_iff_eq_none] at hisNone
      rw [hisNone] at hall
      exact absurd hall false_ne_true
  rw [seqNext, h.find_none hmem]
  rw [seqTakeFree, hnone]

end Table

section Members

variable {s : RoomService} {room : Room} {roomId : CStr}

theorem room?_eq_find? : s.room? roomId = s.rooms.find? (fun r => r.roomId == roomId) := by
  rw [RoomService.room?, RoomService.findRoom]
  cases hfind : s.rooms.findIdx? (fun r => r.roomId == roomId) with
  | none =>
    rw [findIdx?_eq_none_iff] at hfind
    rw [bind_none, List.find?_eq_none.mpr (by simpa using hfind)]
  | some i =>
    obtain ⟨hlt, hkey, hfirst⟩ := findIdx?_eq_some_iff_getElem.mp hfind
    rw [bind_some, getElem?_eq_getElem hlt]
    symm
    rw [find?_eq_some_iff_getElem]
    exact ⟨hkey, i, hlt, rfl, fun j hj => by simpa using hfirst j hj⟩

theorem room?_id (h : s.room? roomId = some room) : room.roomId = roomId ∧ room ∈ s.rooms := by
  rw [room?_eq_find?] at h
  exact ⟨by simpa using find?_some h, mem_of_find?_eq_some h⟩

theorem room?_onRoom (call : RoomCall) (other : CStr) (h : s.room? roomId = some room)
    (hid : (call.apply room s.agentStates).room.roomId = room.roomId) :
    (onRoom s roomId call).1.room? other =
      if other == roomId then some (call.apply room s.agentStates).room
      else s.room? other := by
  obtain ⟨i, hfind, hget⟩ := room?_some h
  have hown := (room?_id h).1
  rw [onRoom_found hfind hget, room?_eq_find?, room?_eq_find?]
  exact Keyed.find?_set hfind (hid.trans hown)

theorem updateActivity_same (room : Room) :
    room.updateActivity.bumpVersion.roomId = room.roomId ∧
      room.updateActivity.bumpVersion.participants = room.participants := by
  rw [updateActivity]
  split <;> exact ⟨rfl, rfl⟩

theorem addParticipant_ok
    {agents : List Conference.AgentStateEntry} {config : Conference.ParticipantConfig}
    (h : (addParticipant room agents config).ok = true) :
    (addParticipant room agents config).room.roomId = room.roomId ∧
      ∃ p, (addParticipant room agents config).room.participants =
          room.participants ++ [p] ∧ p.participantId = config.participantId.getD [] ∧
        p.callGeneration = config.callGeneration := by
  rw [addParticipant] at h ⊢
  split at h
  · rw [if_pos ‹_›]
    split at h
    · exact absurd h false_ne_true
    · dsimp only
      rw [(updateActivity_same _).1, (updateActivity_same _).2]
      exact ⟨rfl, _, rfl, rfl, rfl⟩
  · exact absurd h false_ne_true

theorem addParticipant_refused
    {agents : List Conference.AgentStateEntry} {config : Conference.ParticipantConfig}
    (h : (addParticipant room agents config).ok = false) :
    addParticipant room agents config = refused room agents := by
  rw [addParticipant] at h ⊢
  split at h
  · rw [if_pos ‹_›]
    split at h
    · rfl
    · exact absurd h.symm false_ne_true
  next hfits => rw [if_neg hfits]

theorem removeParticipant_ok (agents : List Conference.AgentStateEntry)
    {id : CStr} {p : RoomParticipant} (h : room.findParticipant id = some p) :
    (removeParticipant room agents id).ok = true ∧
      (removeParticipant room agents id).room.roomId = room.roomId ∧
      (removeParticipant room agents id).room.participants =
        room.participants.eraseP (fun q => q.participantId == id) := by
  have hleave : (leaveCallCenter room id).roomId = room.roomId := by
    rw [leaveCallCenter]
    split_ifs <;> rfl
  have hsame := (leaveCallCenter_roster room id).1
  have hfind : ((leaveCallCenter room id).dropMedia id).findParticipant id =
      some p := by
    rw [findParticipant, dropMedia, hsame]
    exact h
  rw [removeParticipant]
  rw [hfind]
  rw [(updateActivity_same _).1, (updateActivity_same _).2]
  refine ⟨rfl, hleave, ?_⟩
  rw [dropMedia, hsame]

/-- The calls in the rooms have their keys in `seen`, and rooms have short names. -/
def CallsSeen (seen : List CallKey) (s : RoomService) : Prop :=
  ∀ room ∈ s.rooms, room.roomId.length < 64 ∧
    ∀ p ∈ room.participants, (room.roomId, p.participantId, p.callGeneration) ∈ seen

theorem CallsSeen.participant {seen : List CallKey} {callId : CStr} {p : RoomParticipant}
    (h : CallsSeen seen s) (hp : participant? s roomId callId = some p) :
    roomId.length < 64 ∧ (roomId, callId, p.callGeneration) ∈ seen := by
  rw [participant?, bind_eq_some_iff] at hp
  obtain ⟨room, hroom, hfind⟩ := hp
  obtain ⟨rfl, hmem⟩ := room?_id hroom
  obtain ⟨hshort, hcalls⟩ := h room hmem
  have hp := hcalls p (mem_of_find?_eq_some hfind)
  rw [findParticipant_id hfind] at hp
  exact ⟨hshort, hp⟩

/-- What a command that changes a room does to the calls that are there. -/
structure Moved (s s' : RoomService) (key : CallKey) : Prop where
  changed : s' ≠ s
  seen : ∀ {seen seen' : List CallKey}, CallsSeen seen s → seen ⊆ seen' → key ∈ seen' →
    CallsSeen seen' s'
  stays : ∀ {roomId callId : CStr} {p : RoomParticipant}, participant? s roomId callId = some p →
    participant? s' roomId callId = some p ∨ p.callGeneration = key.2.2

/-- A call on a room by which calls stay, leave under the key or come under it. -/
theorem moved_onRoom {call : RoomCall} {key : CallKey} (h : s.room? roomId = some room)
    (hid : (call.apply room s.agentStates).room.roomId = room.roomId)
    (hchanged : (call.apply room s.agentStates).room.participants ≠ room.participants)
    (hnew : ∀ p ∈ (call.apply room s.agentStates).room.participants,
      p ∈ room.participants ∨ (roomId, p.participantId, p.callGeneration) = key)
    (hstays : ∀ {callId p}, room.findParticipant callId = some p →
      (call.apply room s.agentStates).room.findParticipant callId = some p ∨
        p.callGeneration = key.2.2) :
    Moved s (onRoom s roomId call).1 key where
  changed := by
    intro heq
    have hroom := room?_onRoom call roomId h hid
    rw [heq, h, if_pos (beq_self_eq_true roomId), some.injEq] at hroom
    exact hchanged (by rw [← hroom])
  seen := by
    intro seen seen' hseen hsub hkey other hother
    obtain ⟨i, hfind, hget⟩ := room?_some h
    obtain ⟨rfl, hroom⟩ := room?_id h
    rw [onRoom_found hfind hget] at hother
    rcases mem_or_eq_of_mem_set hother with hold | rfl
    · exact ⟨(hseen other hold).1, fun p hp => hsub ((hseen other hold).2 p hp)⟩
    · rw [hid]
      refine ⟨(hseen room hroom).1, ?_⟩
      intro p hp
      rcases hnew p hp with hold | hadded
      · exact hsub ((hseen room hroom).2 p hold)
      · rw [hadded]
        exact hkey
  stays := by
    intro other callId p hp
    rw [participant?, bind_eq_some_iff] at hp
    obtain ⟨found, hfound, hfind⟩ := hp
    rw [participant?, room?_onRoom call other h hid]
    by_cases hsame : other = roomId
    · subst hsame
      rw [h, some.injEq] at hfound
      subst hfound
      rw [if_pos (beq_self_eq_true other), bind_some]
      exact hstays hfind
    · rw [if_neg (by simpa using hsame), hfound]
      exact .inl hfind

theorem joined_moved (config : Conference.ParticipantConfig) (hroom : s.room? roomId = some room)
    (hnone : room.findParticipant (config.participantId.getD []) = none)
    (hok : (addParticipant room s.agentStates config).ok = true) :
    Moved s (onRoom s roomId (.addParticipant config)).1
        (roomId, config.participantId.getD [], config.callGeneration) ∧
      ∃ p, participant? (onRoom s roomId (.addParticipant config)).1 roomId
          (config.participantId.getD []) = some p ∧ p.callGeneration = config.callGeneration := by
  obtain ⟨hid, p, hparticipants, hpid, hgen⟩ := addParticipant_ok hok
  constructor
  · refine moved_onRoom hroom hid ?_ ?_ ?_
    · rw [RoomCall.apply, hparticipants]
      simp
    · rw [RoomCall.apply, hparticipants]
      intro q hq
      rcases mem_append.mp hq with hold | hadded
      · exact .inl hold
      · rw [mem_singleton.mp hadded, hpid, hgen]
        exact .inr rfl
    · intro callId q hq
      rw [RoomCall.apply, findParticipant, hparticipants, find?_append]
      rw [findParticipant] at hq
      rw [hq]
      exact .inl rfl
  · refine ⟨p, ?_, hgen⟩
    rw [participant?, room?_onRoom (.addParticipant config) roomId hroom hid,
      if_pos (beq_self_eq_true roomId), bind_some, RoomCall.apply, findParticipant, hparticipants,
        find?_append]
    rw [findParticipant] at hnone
    rw [hnone]
    simp [hpid]

theorem left_moved {callId : CStr} {p : RoomParticipant} (hroom : s.room? roomId = some room)
    (hfind : room.findParticipant callId = some p) :
    (onRoom s roomId (.removeParticipant callId)).2 = true ∧
      Moved s (onRoom s roomId (.removeParticipant callId)).1
        (roomId, callId, p.callGeneration) := by
  obtain ⟨hok, hid, hparticipants⟩ := removeParticipant_ok s.agentStates hfind
  constructor
  · obtain ⟨i, hidx, hget⟩ := room?_some hroom
    rw [onRoom_found hidx hget]
    exact hok
  · refine moved_onRoom hroom hid ?_ ?_ ?_
    · rw [RoomCall.apply, hparticipants]
      intro heq
      have hlen := congrArg List.length heq
      rw [length_eraseP_of_mem (mem_of_find?_eq_some hfind) (find?_some hfind)] at hlen
      have hpos := length_pos_of_mem (mem_of_find?_eq_some hfind)
      omega
    · rw [RoomCall.apply, hparticipants]
      exact fun q hq => .inl (mem_of_mem_eraseP hq)
    · intro other q hq
      by_cases hsame : other = callId
      · subst hsame
        rw [hfind, some.injEq] at hq
        exact .inr (by rw [← hq])
      · refine .inl ?_
        rw [RoomCall.apply, findParticipant, hparticipants]
        exact (Keyed.find?_eraseP hsame).trans hq

end Members

section Commands

def ConferenceControl.joinedCalls (a : ConferenceControl) : ℕ :=
  (a.service.rooms.map (fun room => room.participants.length)).sum

/-- A command keeps to its own generation, a refusal consumes no number, and a join finds
room in the table while fewer calls are joined than the table has slots. -/
structure CommandFenced (a : ConferenceControl) (cmd : ConferenceCommand) : Prop where
  stays : ∀ roomId callId p, participant? a.service roomId callId = some p →
    participant? (applyCommand a cmd).1.service roomId callId = some p ∨
      p.callGeneration = cmd.callGeneration
  joined : cmd.command = .join → (applyCommand a cmd).2.statusCode = .ok →
    ∃ p, participant? (applyCommand a cmd).1.service cmd.roomId cmd.callId = some p ∧
      p.callGeneration = cmd.callGeneration
  refused : (applyCommand a cmd).2.statusCode ≠ .ok →
    (applyCommand a cmd).1.seqEntries = a.seqEntries
  room : cmd.command = .join → (applyCommand a cmd).2.statusCode = .enospc →
    a.seqEntries.length ≤ a.joinedCalls

variable (seen : List CallKey)

variable (a : ConferenceControl)

/-- The table has no slot for the key, and as many calls are joined as it has slots. -/
def ConferenceCommand.Crowded
    (cmd : ConferenceCommand) : Prop :=
  cmd.key ∉ seen ∧ a.seqEntries.length ≤ seen.length ∧ a.seqEntries.length ≤ a.joinedCalls

/-- The key has a number below the largest, or the table a slot for it. -/
def ConferenceCommand.HasNumber
    (cmd : ConferenceCommand) : Prop :=
  if cmd.key ∈ seen then seqCurrent a.seqEntries cmd ≠ -1
  else seen.length < a.seqEntries.length

/-- A join that is not refused for its role or its room: a call that is there is joined
again under its generation; a new call has an id that fits, and a number. -/
def ConferenceCommand.JoinsInOrder
    (cmd : ConferenceCommand) : Prop :=
  ∀ role ∈ controlRoleFor cmd.participantRole, roomVersion a.service cmd.roomId ≠ 0 →
    (∀ p ∈ participant? a.service cmd.roomId cmd.callId, p.role = role →
      p.callGeneration = cmd.callGeneration) ∧
    (participant? a.service cmd.roomId cmd.callId = none →
      cmd.Crowded seen a ∨ cmd.callId.length < 64 ∧ cmd.HasNumber seen a)

/-- A call that is there leaves under its generation, unless the table refuses. -/
def ConferenceCommand.LeavesInOrder
    (cmd : ConferenceCommand) : Prop :=
  ∀ p ∈ participant? a.service cmd.roomId cmd.callId,
    p.callGeneration = cmd.callGeneration ∧ seqCurrent a.seqEntries cmd ≠ -1 ∨
      cmd.key ∉ seen ∧ a.seqEntries.length ≤ seen.length

/-- The condition on an authorized command; `seen` are the keys that have changed a room. -/
def ConferenceCommand.InOrder
    (cmd : ConferenceCommand) : Prop :=
  refusal a cmd = none →
    match cmd.command with
    | .join => cmd.JoinsInOrder seen a
    | .leave => cmd.LeavesInOrder seen a
    | .snapshot => True

/-- The table holds the keys that have changed a room, among them those of the calls. -/
structure AdapterHolds (seen : List CallKey) (a : ConferenceControl) : Prop where
  entries : SeqHolds seen a.seqEntries
  calls : CallsSeen seen a.service

/-- What a command does: nothing to the rooms and the numbers, or a change of a room with
the next number under its key. -/
inductive Outcome (seen : List CallKey) (a : ConferenceControl) (cmd : ConferenceCommand)
    (out : ConferenceControl × RoomCommandResult) : Prop where
  | kept
      (service : out.1.service = a.service)
      (entries : out.1.seqEntries = a.seqEntries)
      (joined : cmd.command = .join → out.2.statusCode = .ok →
        ∃ p, participant? a.service cmd.roomId cmd.callId = some p ∧
          p.callGeneration = cmd.callGeneration)
      (room : cmd.command = .join → out.2.statusCode = .enospc →
        a.seqEntries.length ≤ a.joinedCalls)
  | changed
      (advances : Advances seen a.seqEntries cmd
        (if cmd.key ∈ seen then seen else seen ++ [cmd.key]))
      (entries : out.1.seqEntries = (seqNext a.seqEntries cmd).1)
      (moved : Moved a.service out.1.service cmd.key)
      (ok : out.2.statusCode = .ok)
      (sequence : out.2.sequence = (seqNext a.seqEntries cmd).2)
      (joined : cmd.command = .join →
        ∃ p, participant? out.1.service cmd.roomId cmd.callId = some p ∧
          p.callGeneration = cmd.callGeneration)

variable {seen : List CallKey} {a : ConferenceControl} {cmd : ConferenceCommand}

theorem Outcome.refuse {a' : ConferenceControl} {result : RoomCommandResult}
    (hservice : a'.service = a.service) (hentries : a'.seqEntries = a.seqEntries)
    (hok : result.statusCode ≠ .ok) (hroom : result.statusCode ≠ .enospc) :
    Outcome seen a cmd (a', result) :=
  .kept hservice hentries (fun _ heq => absurd heq hok) (fun _ heq => absurd heq hroom)

variable (h : AdapterHolds seen a)
include h

theorem AdapterHolds.advances (hroom : cmd.roomId.length < 64)
    (hcall : cmd.key ∉ seen → cmd.callId.length < 64) (hnumber : cmd.HasNumber seen a) :
    Advances seen a.seqEntries cmd (if cmd.key ∈ seen then seen else seen ++ [cmd.key]) := by
  rw [ConferenceCommand.HasNumber] at hnumber
  split_ifs at hnumber ⊢ with hmem
  · rw [seqCurrent_eq] at hnumber
    exact advances_known h.entries hmem hnumber
  · exact advances_new h.entries hmem hnumber hroom (hcall hmem)

theorem AdapterHolds.current_ne_zero {p : RoomParticipant}
    (hp : participant? a.service cmd.roomId cmd.callId = some p)
    (hgen : p.callGeneration = cmd.callGeneration) :
    cmd.key ∈ seen ∧ seqCurrent a.seqEntries cmd ≠ 0 := by
  have hmem : cmd.key ∈ seen := by
    rw [ConferenceCommand.key, ← hgen]
    exact (h.calls.participant hp).2
  obtain ⟨entry, hent, hkey⟩ := h.entries.mem_iff.mp hmem
  refine ⟨hmem, ?_⟩
  rw [seqCurrent_eq, ← hkey, sequenceOf_mem h.entries.keys_nodup hent]
  exact h.entries.positive entry hent

theorem joinAgain_outcome {p : RoomParticipant}
    (hp : participant? a.service cmd.roomId cmd.callId = some p)
    (hgen : p.callGeneration = cmd.callGeneration) : Outcome seen a cmd (joinAgain a cmd) := by
  rw [joinAgain]
  rw [if_neg (h.current_ne_zero hp hgen).2]
  exact .kept rfl rfl (fun _ _ => ⟨p, hp, hgen⟩) (fun _ heq => absurd heq (by simp [applied,
    zero]))

theorem joinNew_outcome {role : Conference.ParticipantRole}
    (hroom : roomVersion a.service cmd.roomId ≠ 0)
    (hnone : participant? a.service cmd.roomId cmd.callId = none)
    (horder : cmd.Crowded seen a ∨ cmd.callId.length < 64 ∧ cmd.HasNumber seen a) :
    Outcome seen a cmd (joinNew a cmd role) := by
  rw [joinNew]
  dsimp only
  rcases horder with ⟨hnew, hfull, hjoined⟩ | ⟨hcall, hnumber⟩
  · rw [seqNext_full h.entries hnew hfull, if_pos rfl]
    exact .kept rfl rfl (fun _ heq => absurd heq (by simp [fail]))
      (fun _ _ => hjoined)
  · obtain ⟨room, hfound⟩ : ∃ room, a.service.room? cmd.roomId = some room := by
      rw [roomVersion] at hroom
      cases hcase : a.service.room? cmd.roomId with
      | none =>
        rw [hcase] at hroom
        exact absurd rfl hroom
      | some room => exact ⟨room, rfl⟩
    obtain ⟨hid, hmem⟩ := room?_id hfound
    have hshort : cmd.roomId.length < 64 := hid ▸ (h.calls room hmem).1
    have hadvances := h.advances hshort (fun _ => hcall) hnumber
    rw [if_neg hadvances.nonzero]
    have habs : room.findParticipant cmd.callId = none := by
      rw [participant?, hfound] at hnone
      exact hnone
    obtain ⟨i, hfind, hget⟩ := room?_some hfound
    split
    next hok =>
      rw [onRoom_found hfind hget] at hok
      obtain ⟨hmoved, hjoined⟩ :=
        joined_moved (joinConfig cmd role) hfound habs hok
      exact .changed hadvances rfl hmoved rfl rfl (fun _ => hjoined)
    next hok =>
      have hsame : (onRoom a.service cmd.roomId (.addParticipant (joinConfig cmd role))).1 =
          a.service := by
        rw [onRoom_found hfind hget] at hok ⊢
        have href : RoomCall.apply room a.service.agentStates
            (.addParticipant (joinConfig cmd role)) =
            refused room a.service.agentStates :=
          addParticipant_refused (not_eq_true _ ▸ hok)
        rw [href, refused]
        obtain ⟨hlt, rfl⟩ := List.getElem?_eq_some_iff.mp hget
        rw [set_getElem_self]
      exact .refuse hsame hadvances.rollback (by simp [fail])
        (by simp [fail])

theorem applyJoin_outcome (horder : cmd.JoinsInOrder seen a) :
    Outcome seen a cmd (applyJoin a cmd) := by
  rw [applyJoin]
  split
  · exact .refuse rfl rfl (by simp [fail]) (by simp [fail])
  next role hrole =>
    split_ifs with hver
    · exact .refuse rfl rfl (by simp [fail])
        (by simp [fail])
    · obtain ⟨hagain, hnew⟩ := horder role hrole hver
      split
      next p hp =>
        split_ifs with hother
        · exact .refuse rfl rfl (by simp [fail])
            (by simp [fail])
        · exact joinAgain_outcome h hp (hagain p hp (not_not.mp hother))
      next hnone => exact joinNew_outcome h hver hnone (hnew hnone)

theorem applyLeave_outcome (hleave : cmd.command = .leave)
    (horder : cmd.LeavesInOrder seen a) : Outcome seen a cmd (applyLeave a cmd) := by
  have hnotJoin : cmd.command ≠ .join := by simp [hleave]
  rw [applyLeave]
  split
  · exact .refuse rfl rfl (by simp [fail]) (by simp [fail])
  next p hp =>
    rcases horder p hp with ⟨hgen, hmax⟩ | ⟨hnew, hfull⟩
    · obtain ⟨hmem, -⟩ := h.current_ne_zero hp hgen
      have hadvances := h.advances (h.calls.participant hp).1 (fun hnew => absurd hmem hnew)
        (by rw [ConferenceCommand.HasNumber, if_pos hmem]; exact hmax)
      rw [if_neg hadvances.nonzero]
      rw [participant?, bind_eq_some_iff] at hp
      obtain ⟨room, hroom, hfind⟩ := hp
      obtain ⟨hok, hmoved⟩ := left_moved hroom hfind
      rw [if_pos hok]
      rw [hgen] at hmoved
      exact .changed hadvances rfl hmoved rfl rfl (fun hjoin => absurd hjoin hnotJoin)
    · rw [seqNext_full h.entries hnew hfull, if_pos rfl]
      exact .kept rfl rfl (fun hjoin => absurd hjoin hnotJoin)
        (fun hjoin => absurd hjoin hnotJoin)

theorem applyCommand_outcome (horder : cmd.InOrder seen a) :
    Outcome seen a cmd (applyCommand a cmd) := by
  rw [applyCommand]
  split
  · exact .refuse rfl rfl (by simp [fail]) (by simp [fail])
  next hauth =>
    have hcmd := horder hauth
    split
    next hkind =>
      rw [hkind] at hcmd
      exact applyJoin_outcome h hcmd
    next hkind =>
      rw [hkind] at hcmd
      exact applyLeave_outcome h hkind hcmd
    next hkind =>
      have hnotJoin : cmd.command ≠ .join := by simp [hkind]
      rw [applySnapshot]
      split_ifs
      · exact .refuse rfl rfl (by simp [fail])
          (by simp [fail])
      · exact .kept rfl rfl (fun hjoin => absurd hjoin hnotJoin)
          (fun hjoin => absurd hjoin hnotJoin)

omit h

theorem Outcome.fenced (h : Outcome seen a cmd (applyCommand a cmd)) : CommandFenced a cmd := by
  cases h with
  | kept hservice hentries hjoined hroom =>
    refine ⟨?_, ?_, fun _ => hentries, hroom⟩
    · intro roomId callId p hp
      rw [hservice]
      exact .inl hp
    · rw [hservice]
      exact hjoined
  | changed hadvances hentries hmoved hok hseq hjoined =>
    refine ⟨fun _ _ _ hp => hmoved.stays hp, fun hjoin _ => hjoined hjoin,
      fun hne => absurd hok hne, fun _ heq => absurd (hok.symm.trans heq) (by simp)⟩

end Commands

/-- The keys that have changed a room, after one more call. -/
def seenAfter (seen : List CallKey) (a : ConferenceControl) : ConferenceCall → List CallKey
  | .createRoom _ => seen
  | .apply cmd =>
    if (applyCommand a cmd).1.service = a.service ∨ cmd.key ∈ seen then seen
    else seen ++ [cmd.key]

/-- Every command of the run meets its condition. -/
def InOrder : List CallKey → ConferenceControl → List ConferenceCall → Prop
  | _, _, [] => True
  | seen, a, .createRoom config :: calls =>
    InOrder seen (conferenceMachine.next a (.createRoom config)) calls
  | seen, a, .apply cmd :: calls =>
    cmd.InOrder seen a ∧
      InOrder (seenAfter seen a (.apply cmd)) (conferenceMachine.next a (.apply cmd)) calls

/-- The sequence numbers that the commands under a key have returned when they changed a
room. -/
def sequencesUnder (key : CallKey) : ConferenceControl → List ConferenceCall → List UInt64
  | _, [] => []
  | a, .createRoom config :: calls =>
    sequencesUnder key (conferenceMachine.next a (.createRoom config)) calls
  | a, .apply cmd :: calls =>
    if cmd.key = key ∧ (applyCommand a cmd).1.service ≠ a.service then
      (applyCommand a cmd).2.sequence ::
        sequencesUnder key (conferenceMachine.next a (.apply cmd)) calls
    else sequencesUnder key (conferenceMachine.next a (.apply cmd)) calls

variable {seen : List CallKey} {a : ConferenceControl} {cmd : ConferenceCommand}

theorem next_apply : conferenceMachine.next a (.apply cmd) = (applyCommand a cmd).1 :=
  rfl

variable (h : AdapterHolds seen a)
include h

theorem Outcome.step (hout : Outcome seen a cmd (applyCommand a cmd)) :
    AdapterHolds (seenAfter seen a (.apply cmd)) (applyCommand a cmd).1 ∧
      ∀ key, sequenceOf (applyCommand a cmd).1.seqEntries key =
          (if cmd.key = key ∧ (applyCommand a cmd).1.service ≠ a.service then
            (applyCommand a cmd).2.sequence
          else sequenceOf a.seqEntries key) ∧
        (cmd.key = key ∧ (applyCommand a cmd).1.service ≠ a.service →
          (applyCommand a cmd).2.sequence = sequenceOf a.seqEntries key + 1 ∧
            sequenceOf a.seqEntries key ≠ -1) := by
  cases hout with
  | kept hservice hentries hjoined hroom =>
    rw [seenAfter, if_pos (.inl hservice)]
    refine ⟨⟨hentries ▸ h.entries, hservice ▸ h.calls⟩, ?_⟩
    intro key
    rw [if_neg (fun hkey => hkey.2 hservice), hentries]
    exact ⟨rfl, fun hkey => absurd hservice hkey.2⟩
  | changed hadvances hentries hmoved hok hseq hjoined =>
    have hseen : seenAfter seen a (.apply cmd) =
        if cmd.key ∈ seen then seen else seen ++ [cmd.key] := by
      rw [seenAfter]
      by_cases hmem : cmd.key ∈ seen
      · rw [if_pos (.inr hmem), if_pos hmem]
      · rw [if_neg (fun hor => hor.elim hmoved.changed hmem), if_neg hmem]
    rw [hseen]
    refine ⟨⟨hentries ▸ hadvances.holds, hmoved.seen h.calls ?_ ?_⟩, ?_⟩
    · split_ifs
      · exact List.Subset.refl _
      · exact subset_append_left _ _
    · split_ifs with hmem
      · exact hmem
      · simp
    · intro key
      rw [hentries, hadvances.counted, hseq]
      by_cases hkey : cmd.key = key
      · subst hkey
        rw [if_pos rfl, if_pos ⟨rfl, hmoved.changed⟩]
        exact ⟨rfl, fun _ => ⟨hadvances.number, hadvances.fits⟩⟩
      · rw [if_neg (fun heq => hkey heq.symm), if_neg (fun hand => hkey hand.1)]
        exact ⟨rfl, fun hand => absurd hand.1 hkey⟩

theorem createRoom_holds {config : Conference.RoomConfig} :
    AdapterHolds seen (conferenceMachine.next a (.createRoom config)) := by
  refine ⟨h.entries, ?_⟩
  intro room hroom
  simp only [Machine.next, conferenceMachine, createRoom] at hroom
  split at hroom
  next hfits =>
    rcases mem_append.mp hroom with hold | hnew
    · exact h.calls room hold
    · rw [mem_singleton.mp hnew]
      refine ⟨?_, by simp [newRoom]⟩
      have hlen := hfits.1
      cases hid : config.roomId with
      | none => simp [hid, stringFits] at hlen
      | some bytes =>
        rw [hid, stringFits, and_eq_true, decide_eq_true_eq] at hlen
        rw [newRoom, hid]
        exact hlen.1
  · exact h.calls room hroom

theorem run_fenced {calls : List ConferenceCall} (horder : InOrder seen a calls) :
    ∀ before cmd after, calls = before ++ .apply cmd :: after →
      CommandFenced (conferenceMachine.run a before) cmd := by
  induction calls generalizing seen a with
  | nil =>
    intro before cmd after heq
    simp at heq
  | cons call calls ih =>
    intro before cmd after heq
    cases before with
    | nil =>
      rw [nil_append, cons.injEq] at heq
      obtain ⟨rfl, rfl⟩ := heq
      exact (applyCommand_outcome h horder.1).fenced
    | cons first before =>
      rw [cons_append, cons.injEq] at heq
      obtain ⟨rfl, rfl⟩ := heq
      cases call with
      | createRoom config => exact ih (createRoom_holds h) horder before cmd after rfl
      | apply first =>
        have hout := applyCommand_outcome h horder.1
        exact ih (hout.step h).1 horder.2 before cmd after rfl

theorem run_sequences {calls : List ConferenceCall}
    (horder : InOrder seen a calls) (key : CallKey) :
    (sequencesUnder key a calls).map UInt64.toNat =
      range' ((sequenceOf a.seqEntries key).toNat + 1)
        (sequencesUnder key a calls).length := by
  induction calls generalizing seen a with
  | nil => rfl
  | cons call calls ih =>
    cases call with
    | createRoom config => exact ih (createRoom_holds h) horder
    | apply cmd =>
      obtain ⟨hhold, hcount⟩ := (applyCommand_outcome h horder.1).step h
      have hrest := ih hhold horder.2
      obtain ⟨hafter, hnumber⟩ := hcount key
      rw [sequencesUnder, next_apply]
      split_ifs with hkey
      · obtain ⟨hnext, hmax⟩ := hnumber hkey
        rw [if_pos hkey] at hafter
        rw [map_cons, length_cons, range'_succ, hrest, hafter, hnext, toNat_succ hmax]
      · rw [if_neg hkey] at hafter
        rw [hrest, hafter]

omit h

theorem create_holds (acls : List AclEntry) (contentPackage : CStr) (seqCapacity : ℕ) :
    AdapterHolds [] (.create acls contentPackage seqCapacity) where
  entries := by
    refine ⟨?_, nodup_nil, ?_⟩
    · simp [create]
    · simp [create]
  calls := by
    intro room hroom
    simp [create, RoomService.fresh] at hroom

/-- **Fencing and sequencing.**  In every run in which the commands for a call that is there
carry its generation, new calls have ids that fit, and a new key comes while the table has a
slot for it or is full of joined calls, every command keeps to its generation, a refusal
consumes no number, a join is refused by the table only when it is full of joined calls, and
the numbers under every key are 1, 2, 3, …. -/
theorem calls_fenced_and_sequenced {acls : List AclEntry} {contentPackage : CStr} {seqCapacity : ℕ}
    {calls : List ConferenceCall} (h : InOrder [] (.create acls contentPackage seqCapacity) calls) :
    (∀ before cmd after, calls = before ++ .apply cmd :: after →
      CommandFenced (conferenceMachine.run (.create acls contentPackage seqCapacity) before) cmd) ∧
      ∀ key, (sequencesUnder key (.create acls contentPackage seqCapacity) calls).map UInt64.toNat =
        range' 1
          (sequencesUnder key (.create acls contentPackage seqCapacity) calls).length := by
  have hcreate := create_holds acls contentPackage seqCapacity
  refine ⟨run_fenced hcreate h, ?_⟩
  intro key
  have hzero : sequenceOf (create acls contentPackage seqCapacity).seqEntries
      key = 0 := by
    refine sequenceOf_none (fun entry hentry => ?_)
    simp [create] at hentry
  have hrun := run_sequences hcreate h key
  rw [hzero] at hrun
  exact hrun

instance (seen : List CallKey) (a : ConferenceControl) (cmd : ConferenceCommand) :
    Decidable (cmd.Crowded seen a) :=
  inferInstanceAs (Decidable (_ ∧ _ ∧ _))

instance (seen : List CallKey) (a : ConferenceControl) (cmd : ConferenceCommand) :
    Decidable (cmd.HasNumber seen a) :=
  inferInstanceAs (Decidable (if cmd.key ∈ seen then seqCurrent a.seqEntries cmd ≠ -1
    else seen.length < a.seqEntries.length))

instance (seen : List CallKey) (a : ConferenceControl) (cmd : ConferenceCommand) :
    Decidable (cmd.JoinsInOrder seen a) :=
  inferInstanceAs (Decidable (∀ role ∈ controlRoleFor cmd.participantRole, _ → _ ∧ _))

instance (seen : List CallKey) (a : ConferenceControl) (cmd : ConferenceCommand) :
    Decidable (cmd.LeavesInOrder seen a) :=
  inferInstanceAs (Decidable (∀ p ∈ participant? a.service cmd.roomId cmd.callId, _ ∨ _))

instance (seen : List CallKey) (a : ConferenceControl) (cmd : ConferenceCommand) :
    Decidable (cmd.InOrder seen a) := by
  unfold ConferenceCommand.InOrder
  cases cmd.command <;> infer_instance

instance decidableInOrder :
    ∀ seen a calls, Decidable (InOrder seen a calls)
  | _, _, [] => .isTrue trivial
  | seen, a, .createRoom config :: calls =>
    decidableInOrder seen (conferenceMachine.next a (.createRoom config)) calls
  | seen, a, .apply cmd :: calls =>
    haveI := decidableInOrder (seenAfter seen a (.apply cmd))
      (conferenceMachine.next a (.apply cmd)) calls
    inferInstanceAs (Decidable (_ ∧ _))

def aJoin (call : UInt8) (generation : UInt64) : ConferenceCommand :=
  ⟨.join, [7], [1], [call], generation, Conference.literal "caller"⟩

def aLeave (call : UInt8) (generation : UInt64) : ConferenceCommand :=
  ⟨.leave, [7], [1], [call], generation, []⟩

def inRoom (cmds : List ConferenceCommand) : List ConferenceCall :=
  .createRoom ⟨some [1], 1, 1⟩ :: cmds.map .apply

/-- An adapter for two keys, without access control. -/
def twoKeys : ConferenceControl :=
  .create [] [] 2

/-- A call that is joined under a generation. -/
def aCaller (call : UInt8) (generation : UInt64) : RoomParticipant :=
  ⟨[call], generation, [], [call], .customer, 1, 0, false, 1⟩

/-- Two calls come and go, one of them twice. -/
def comesAndGoes : List ConferenceCall :=
  inRoom [aJoin 1 1, aJoin 2 1, aLeave 1 1, aJoin 1 1, aJoin 1 1, aLeave 2 1]

theorem comesAndGoes_sequenced :
    InOrder [] (.create [] [] 2) comesAndGoes ∧
      ∀ key, (sequencesUnder key (.create [] [] 2) comesAndGoes).map UInt64.toNat =
        range' 1 (sequencesUnder key (.create [] [] 2) comesAndGoes).length :=
  have h : InOrder [] (.create [] [] 2) comesAndGoes := by decide
  ⟨h, (calls_fenced_and_sequenced h).2⟩

/-- A late leave removes a later generation; a join under another generation leaves the old
one; a join with a long id uses a slot up; calls that have left keep theirs; and a repeated
join under another generation uses a number up. -/
theorem calls_not_fenced :
    ¬ CommandFenced (conferenceMachine.run twoKeys (inRoom [aJoin 1 2])) (aLeave 1 1) ∧
      ¬ CommandFenced (conferenceMachine.run twoKeys (inRoom [aJoin 1 1])) (aJoin 1 2) ∧
      ¬ CommandFenced (conferenceMachine.run twoKeys (inRoom []))
        { aJoin 1 1 with callId := replicate 64 1 } ∧
      ¬ CommandFenced (conferenceMachine.run twoKeys
        (inRoom [aJoin 1 1, aLeave 1 1, aJoin 2 1, aLeave 2 1])) (aJoin 3 1) ∧
      (sequencesUnder ([1], [1], 2) twoKeys
        (inRoom [aJoin 1 1, aJoin 1 2, aLeave 1 1, aJoin 1 2])).map UInt64.toNat = [2] := by
  refine ⟨?_, ?_, ?_, ?_, by decide⟩
  · intro h
    have hstays := h.stays [1] [1] (aCaller 1 2) (by decide)
    exact absurd hstays (by decide)
  · intro h
    obtain ⟨p, hp, hgeneration⟩ := h.joined rfl (by decide)
    have hold : participant? (applyCommand (conferenceMachine.run twoKeys (inRoom [aJoin 1 1]))
        (aJoin 1 2)).1.service [1] [1] = some (aCaller 1 1) := by
      decide
    have hsame : p = aCaller 1 1 := some.inj (hp.symm.trans hold)
    rw [hsame] at hgeneration
    exact absurd hgeneration (by decide)
  · intro h
    exact absurd (h.refused (by decide)) (by decide)
  · intro h
    exact absurd (h.room rfl (by decide)) (by decide)

end TurboMedia.Ivr
