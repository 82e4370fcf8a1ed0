import TurboMedia.Conference.RoomIntegrity
import TurboMedia.Lib.Occupancy

/-!
# Agent availability

Which agents are busy, and in which calls.

**Input.**  Any run of calls of the room service on a fresh service; agent states change
only through the call-center calls.

**Method.**  The rooms are places that hold the agents of their active call, BUSY is the
mark of those that are held (`Lib.Occupancy`).  `Settled` says what one call has to do to
the agents of its room and to the agent states.
-/

namespace TurboMedia.Conference

open List Option Room RoomCall

section Engagement

def Room.engaged (room : Room) : List CStr :=
  if room.callCenterState = .active then
    [room.callCenterAgentParticipantId, room.callCenterConsultAgentParticipantId].filter
      (fun id => id ≠ [])
  else []

def Busy (agents : List AgentStateEntry) (id : CStr) : Prop :=
  agentEffectiveState agents id = .busy

instance (agents : List AgentStateEntry) (id : CStr) : Decidable (Busy agents id) :=
  inferInstanceAs (Decidable (_ = _))

/-- Whoever is engaged in an active call is busy and engaged in no other room, and whoever
is busy is engaged in an active call. -/
structure AgentsAgree (s : RoomService) : Prop where
  engaged : ∀ (i : ℕ) (room : Room), s.rooms[i]? = some room → ∀ id ∈ room.engaged,
    Busy s.agentStates id ∧
      ∀ (j : ℕ) (other : Room), s.rooms[j]? = some other → id ∈ other.engaged → j = i
  busy : ∀ id, Busy s.agentStates id → ∃ room ∈ s.rooms, id ∈ room.engaged

variable {room : Room} {agents agents' : List AgentStateEntry} {id x : CStr}

theorem mem_engaged (h : room.callCenterState = .active) :
    id ∈ room.engaged ↔ id ≠ [] ∧ (id = room.callCenterAgentParticipantId ∨
      id = room.callCenterConsultAgentParticipantId) := by
  rw [engaged, if_pos h]
  simp [and_comm]

theorem engaged_idle (h : room.callCenterState ≠ .active) : room.engaged = [] := by
  rw [engaged, if_neg h]

theorem engaged_congr {room' : Room} (hstate : room'.callCenterState = room.callCenterState)
    (hagent : room'.callCenterAgentParticipantId = room.callCenterAgentParticipantId)
    (hconsult : room'.callCenterConsultAgentParticipantId =
      room.callCenterConsultAgentParticipantId) : room'.engaged = room.engaged := by
  rw [engaged, engaged, hstate, hagent, hconsult]

theorem Busy.ne_nil (h : Busy agents id) : id ≠ [] := by
  rintro rfl
  simp [Busy, agentEffectiveState] at h

end Engagement

section AgentStates

variable {agents agents' : List AgentStateEntry} {id x : CStr} {state : AgentState}

theorem setAgentState_none (h : setAgentState agents id state = none) : id = [] := by
  rw [setAgentState] at h
  split_ifs at h with hempty
  · exact hempty
  · split at h <;> exact absurd h (by simp)

/-- The state that was set last counts. -/
theorem agentEffectiveState_set (h : setAgentState agents id state = some agents') :
    agentEffectiveState agents' x =
      if x = id then state else agentEffectiveState agents x := by
  rw [setAgentState] at h
  split_ifs at h with hempty
  rw [findAgentState, if_neg hempty] at h
  by_cases hx : x = []
  · rw [if_neg (fun heq => hempty (heq.symm.trans hx)), agentEffectiveState, if_pos hx,
      agentEffectiveState, if_pos hx]
  rw [agentEffectiveState, if_neg hx, agentEffectiveState, if_neg hx]
  split at h
  next hfind =>
    rw [some.injEq] at h
    subst h
    rw [find?_append]
    split_ifs with hsame
    · subst hsame
      rw [List.find?_eq_none.mpr (by simpa using hfind)]
      simp
    · have hother : (id == x) = false := by simpa using fun heq => hsame heq.symm
      simp [hother]
  next i hfind =>
    rw [some.injEq] at h
    subst h
    have hkey : ∀ e : AgentStateEntry, (if e.state = state then e
          else { e with state := state, version := e.version + 1 }).endpointId =
          e.endpointId := by
      intro e
      split <;> rfl
    rw [Keyed.find?_modify hkey hfind]
    by_cases hsame : x = id
    · subst hsame
      rw [if_pos (beq_self_eq_true x), if_pos rfl]
      have hthere : (agents.find? (fun e => e.endpointId == x)).isSome = true := by
        obtain ⟨e, hget, heq⟩ := Keyed.getElem?_of_findIdx? hfind
        rw [find?_isSome]
        exact ⟨e, mem_of_getElem? hget, by simpa using heq⟩
      obtain ⟨e, he⟩ := isSome_iff_exists.mp hthere
      rw [he, map_some, map_some, getD_some]
      split_ifs with hstate
      · exact hstate
      · rfl
    · rw [if_neg (by simpa using hsame), if_neg hsame]

theorem busy_set_busy (h : setAgentState agents id .busy = some agents') :
    Busy agents' x ↔ x = id ∨ Busy agents x := by
  rw [Busy, agentEffectiveState_set h]
  split_ifs with hx
  · simp [hx]
  · simp [hx, Busy]

theorem busy_set_free (hstate : state ≠ .busy) (h : setAgentState agents id state = some agents') :
    Busy agents' x ↔ Busy agents x ∧ x ≠ id := by
  rw [Busy, agentEffectiveState_set h]
  split_ifs with hx
  · simp [hx, hstate]
  · simp [hx, Busy]

theorem busy_try_free (hstate : state ≠ .busy) :
    Busy (trySetAgentState agents id state) x ↔ Busy agents x ∧ x ≠ id := by
  rw [trySetAgentState]
  cases hset : setAgentState agents id state with
  | none =>
    rw [getD_none, setAgentState_none hset]
    exact ⟨fun h => ⟨h, h.ne_nil⟩, fun h => h.1⟩
  | some agents1 =>
    rw [getD_some]
    exact busy_set_free hstate hset

theorem busy_try_busy (hne : id ≠ []) :
    Busy (trySetAgentState agents id .busy) x ↔ x = id ∨ Busy agents x := by
  rw [trySetAgentState]
  cases hset : setAgentState agents id .busy with
  | none => exact absurd (setAgentState_none hset) hne
  | some agents1 =>
    rw [getD_some]
    exact busy_set_busy hset

theorem setPresentAgentState_eq :
    setPresentAgentState agents id state = some (trySetAgentState agents id state) := by
  rw [setPresentAgentState, trySetAgentState]
  split_ifs with hempty
  · rw [setAgentState, if_pos hempty, getD_none]
  · cases hset : setAgentState agents id state with
    | none => exact absurd (setAgentState_none hset) hempty
    | some agents1 => rfl

theorem Busy.entry (h : Busy agents id) : ∃ e ∈ agents, e.endpointId = id := by
  have hne := h.ne_nil
  rw [Busy, agentEffectiveState, if_neg hne] at h
  cases hfind : agents.find? (fun e => e.endpointId == id) with
  | none =>
    rw [hfind] at h
    exact absurd h (by simp)
  | some e => exact ⟨e, mem_of_find?_eq_some hfind, by simpa using find?_some hfind⟩

/-- Agreement by places, as it can be decided. -/
theorem agentsAgree_iff {s : RoomService} :
    AgentsAgree s ↔ (∀ i : Fin s.rooms.length, ∀ id ∈ s.rooms[i].engaged, Busy s.agentStates id ∧
        ∀ j : Fin s.rooms.length, id ∈ s.rooms[j].engaged → j = i) ∧
      ∀ e ∈ s.agentStates, Busy s.agentStates e.endpointId →
        ∃ room ∈ s.rooms, e.endpointId ∈ room.engaged := by
  constructor
  · intro h
    refine ⟨?_, fun e _ hbusy => h.busy e.endpointId hbusy⟩
    intro i id hid
    obtain ⟨hbusy, honly⟩ := h.engaged i _ (getElem?_eq_getElem i.2) id hid
    refine ⟨hbusy, fun j hj => Fin.ext ?_⟩
    exact honly j _ (getElem?_eq_getElem j.2) hj
  · rintro ⟨hengaged, hbusy⟩
    refine ⟨?_, ?_⟩
    · intro i room hget id hid
      obtain ⟨hlt, rfl⟩ := List.getElem?_eq_some_iff.mp hget
      obtain ⟨hbusy, honly⟩ := hengaged ⟨i, hlt⟩ id hid
      refine ⟨hbusy, ?_⟩
      intro j other hother hmem
      obtain ⟨hjlt, rfl⟩ := List.getElem?_eq_some_iff.mp hother
      exact congrArg Fin.val (honly ⟨j, hjlt⟩ hmem)
    · intro id hid
      obtain ⟨e, he, rfl⟩ := hid.entry
      exact hbusy e he hid

instance (s : RoomService) : Decidable (AgentsAgree s) :=
  decidable_of_iff _ agentsAgree_iff.symm

end AgentStates

section Calls

variable {room : Room} {agents : List AgentStateEntry} {id : CStr}

/-- What a call does to the agents of its room and to the agent states: nobody is engaged
twice, whoever becomes engaged was not busy, and the busy ones follow. -/
structure Settled (room : Room) (agents : List AgentStateEntry) (answer : RoomAnswer) :
    Prop where
  nodup : answer.room.engaged.Nodup
  free : ∀ a ∈ answer.room.engaged, a ∈ room.engaged ∨ ¬ Busy agents a
  busy : ∀ a, Busy answer.agents a ↔
    a ∈ answer.room.engaged ∨ Busy agents a ∧ a ∉ room.engaged

/-- The agents of the room are two, and busy. -/
structure Engaged (room : Room) (agents : List AgentStateEntry) : Prop where
  nodup : room.engaged.Nodup
  busy : ∀ a ∈ room.engaged, Busy agents a

/-- A call that touches neither calls nor agents. -/
theorem Engaged.keep {answer : RoomAnswer} (h : Engaged room agents)
    (hengaged : answer.room.engaged = room.engaged)
    (hbusy : ∀ a, Busy answer.agents a ↔ Busy agents a) :
    Settled room agents answer where
  nodup := hengaged ▸ h.nodup
  free := fun a ha => .inl (hengaged ▸ ha)
  busy := by
    intro a
    rw [hbusy, hengaged]
    by_cases ha : a ∈ room.engaged
    · simp [ha, h.busy a ha]
    · simp [ha]

theorem Engaged.refused (h : Engaged room agents) : Settled room agents (refused room agents) :=
  h.keep rfl (fun _ => Iff.rfl)

/-- A call that ends the call of the room frees all its agents. -/
theorem Settled.release {answer : RoomAnswer} (hengaged : answer.room.engaged = [])
    (hbusy : ∀ a, Busy answer.agents a ↔ Busy agents a ∧ a ∉ room.engaged) :
    Settled room agents answer where
  nodup := by simp [hengaged]
  free := by simp [hengaged]
  busy := by simp [hengaged, hbusy]

theorem stringFits_ne {value : Option CStr} {capacity : ℕ}
    (h : stringFits value capacity false = true) : value.getD [] ≠ [] := by
  cases value with
  | none => exact absurd h Bool.false_ne_true
  | some bytes =>
    rw [stringFits, Bool.and_eq_true, Bool.false_or, decide_eq_true_eq, decide_eq_true_eq] at h
    exact h.2

theorem engaged_agent (hstate : room.callCenterState = .active)
    (hconsult : room.callCenterConsultAgentParticipantId = []) :
    ∀ a, a ∈ room.engaged ↔ a ≠ [] ∧ a = room.callCenterAgentParticipantId := by
  intro a
  rw [mem_engaged hstate, hconsult]
  tauto

theorem engaged_nodup
    (h : room.callCenterConsultAgentParticipantId ≠ [] →
      room.callCenterAgentParticipantId ≠ room.callCenterConsultAgentParticipantId) :
    room.engaged.Nodup := by
  rw [engaged]
  split_ifs
  · by_cases hconsult : room.callCenterConsultAgentParticipantId = []
    · rw [hconsult]
      by_cases hagent : room.callCenterAgentParticipantId = []
      · simp [hagent]
      · simp [hagent]
    · refine List.Nodup.filter _ ?_
      simpa using h hconsult
  · exact nodup_nil

theorem Engaged.agent_ne_consult (h : Engaged room agents) (hstate : room.callCenterState = .active)
    (hconsult : room.callCenterConsultAgentParticipantId ≠ []) :
    room.callCenterAgentParticipantId ≠ room.callCenterConsultAgentParticipantId := by
  intro heq
  have hnodup := h.nodup
  rw [engaged, if_pos hstate, heq] at hnodup
  simp [hconsult] at hnodup

theorem Engaged.agent_busy (h : Engaged room agents) (hstate : room.callCenterState = .active)
    (hagent : room.callCenterAgentParticipantId ≠ []) :
    Busy agents room.callCenterAgentParticipantId :=
  h.busy _ ((mem_engaged hstate).mpr ⟨hagent, .inl rfl⟩)

theorem busy_not_engaged {a : CStr} (hstate : room.callCenterState = .active) :
    Busy agents a ∧ a ∉ room.engaged ↔ (Busy agents a ∧ a ≠ room.callCenterAgentParticipantId) ∧
        a ≠ room.callCenterConsultAgentParticipantId := by
  rw [mem_engaged hstate]
  constructor
  · rintro ⟨hbusy, hnot⟩
    refine ⟨⟨hbusy, ?_⟩, ?_⟩
    · exact fun heq => hnot ⟨hbusy.ne_nil, .inl heq⟩
    · exact fun heq => hnot ⟨hbusy.ne_nil, .inr heq⟩
  · rintro ⟨⟨hbusy, hagent⟩, hconsult⟩
    exact ⟨hbusy, fun hmem => hmem.2.elim hagent hconsult⟩

theorem closeRoom_settled (h : Engaged room agents) :
    Settled room agents (closeRoom room agents) := by
  rw [closeRoom]
  split_ifs with hact
  · rw [setPresentAgentState_eq]
    dsimp only
    rw [setPresentAgentState_eq]
    refine Settled.release (engaged_idle (by simp)) ?_
    intro a
    rw [busy_try_free (by decide), busy_try_free (by decide), busy_not_engaged hact]
  · exact h.keep (engaged_congr rfl rfl rfl) (fun _ => Iff.rfl)

/-- Somebody leaves; where nobody is engaged any more, the agents that are set free were not
busy elsewhere. -/
def Room.MayLose (room : Room) (agents : List AgentStateEntry) (id : CStr) : Prop :=
  room.callCenterState = .wrapUp → room.losesEndpoint id = true →
    ¬ Busy agents room.callCenterAgentParticipantId ∧
      ¬ Busy agents room.callCenterConsultAgentParticipantId

theorem busy_releaseEndpoints {a : CStr} (h : room.losesEndpoint id = true) :
    Busy (releaseEndpoints room agents id) a ↔
      (Busy agents a ∧ a ≠ room.callCenterAgentParticipantId) ∧
        a ≠ room.callCenterConsultAgentParticipantId := by
  rw [releaseEndpoints, if_pos h]
  split_ifs with hsame
  · rw [busy_try_free (by decide), busy_try_free (by decide)]
  · rw [busy_try_free (by decide)]
    rw [not_not] at hsame
    rw [hsame]
    tauto

theorem busy_releaseConsult {a : CStr} :
    Busy (releaseConsult room agents id) a ↔
      Busy agents a ∧ ¬ (a = id ∧ room.callCenterConsultAgentParticipantId = id ∧
        room.callCenterState = .active) := by
  rw [releaseConsult]
  split_ifs with hconsult
  · rw [busy_try_free (by decide)]
    tauto
  · tauto

/-- The agents follow the room when a participant leaves the call. -/
theorem leaveCallCenter_settled (h : Engaged room agents) (hsafe : room.MayLose agents id) :
    Settled room agents ⟨leaveCallCenter room id, leaveAgentStates room agents id, true⟩ := by
  have hconsult : room.callCenterState = .active → ∀ a,
      (Busy agents a ∧ ¬ (a = id ∧ room.callCenterConsultAgentParticipantId = id ∧
          room.callCenterState = .active)) ∧
        a ≠ room.callCenterConsultAgentParticipantId ↔
      Busy agents a ∧ a ≠ room.callCenterConsultAgentParticipantId := by
    intro hact a
    constructor
    · rintro ⟨⟨hbusy, _⟩, hne⟩
      exact ⟨hbusy, hne⟩
    · rintro ⟨hbusy, hne⟩
      exact ⟨⟨hbusy, fun hc => hne (hc.1.trans hc.2.1.symm)⟩, hne⟩
  by_cases hloses : room.losesEndpoint id = true
  · have hidle : (leaveCallCenter room id).engaged = [] := by
      rw [leaveCallCenter, if_pos hloses]
      exact engaged_idle (by simp)
    refine Settled.release hidle ?_
    intro a
    rw [leaveAgentStates, busy_releaseEndpoints hloses, busy_releaseConsult]
    by_cases hact : room.callCenterState = .active
    · rw [busy_not_engaged hact]
      have := hconsult hact a
      tauto
    · have hwrap : room.callCenterState = .wrapUp := by
        simp only [losesEndpoint, decide_eq_true_eq] at hloses
        cases hstate : room.callCenterState with
        | none => exact absurd hstate hloses.2.1
        | active => exact absurd hstate hact
        | wrapUp => rfl
        | completed => exact absurd hstate hloses.2.2
      obtain ⟨hagent, hcons⟩ := hsafe hwrap hloses
      rw [engaged_idle hact]
      constructor
      · rintro ⟨⟨⟨hbusy, _⟩, _⟩, _⟩
        exact ⟨hbusy, not_mem_nil⟩
      · rintro ⟨hbusy, _⟩
        refine ⟨⟨⟨hbusy, fun hc => hact hc.2.2⟩, ?_⟩, ?_⟩
        · rintro rfl
          exact hagent hbusy
        · rintro rfl
          exact hcons hbusy
  · have hagents : ∀ a, Busy (leaveAgentStates room agents id) a ↔
        Busy agents a ∧ ¬ (a = id ∧ room.callCenterConsultAgentParticipantId = id ∧
          room.callCenterState = .active) := by
      intro a
      rw [leaveAgentStates, releaseEndpoints, if_neg hloses, busy_releaseConsult]
    rw [leaveCallCenter, if_neg hloses]
    split_ifs with hid
    · by_cases hact : room.callCenterState = .active
      · have hmem : ∀ a, a ∈ engaged
            { room with callCenterConsultAgentParticipantId := [] } ↔
              a ≠ [] ∧ a = room.callCenterAgentParticipantId :=
          engaged_agent hact rfl
        refine ⟨engaged_nodup (fun hne => absurd rfl hne), ?_, ?_⟩
        · intro a ha
          obtain ⟨hne, heq⟩ := (hmem a).mp ha
          exact .inl ((mem_engaged hact).mpr ⟨hne, .inl heq⟩)
        · intro a
          rw [hagents, hmem, busy_not_engaged hact]
          constructor
          · rintro ⟨hbusy, hnot⟩
            by_cases ha : a = room.callCenterAgentParticipantId
            · exact .inl ⟨hbusy.ne_nil, ha⟩
            · exact .inr ⟨⟨hbusy, ha⟩, fun heq => hnot ⟨heq.trans hid, hid, hact⟩⟩
          · rintro (⟨hne, rfl⟩ | ⟨⟨hbusy, _⟩, hconsult⟩)
            · refine ⟨h.agent_busy hact hne, ?_⟩
              rintro ⟨heq, hid, _⟩
              refine h.agent_ne_consult hact ?_ (heq.trans hid.symm)
              exact fun hempty => hne (heq.trans (hid.symm.trans hempty))
            · exact ⟨hbusy, fun hc => hconsult (hc.1.trans hc.2.1.symm)⟩
      · refine h.keep ?_ ?_
        · rw [engaged_idle hact]
          exact engaged_idle hact
        · intro a
          rw [hagents]
          tauto
    · refine h.keep rfl ?_
      intro a
      rw [hagents]
      tauto

theorem removeParticipant_settled (h : Engaged room agents) (hsafe : room.MayLose agents id) :
    Settled room agents (removeParticipant room agents id) := by
  have hleave := leaveCallCenter_settled h hsafe
  have hsame : ∀ answer : RoomAnswer, answer.agents = leaveAgentStates room agents id →
      answer.room.engaged = (leaveCallCenter room id).engaged →
      Settled room agents answer := by
    intro answer hagents hengaged
    refine ⟨?_, ?_, ?_⟩
    · rw [hengaged]
      exact hleave.nodup
    · rw [hengaged]
      exact hleave.free
    · rw [hengaged, hagents]
      exact hleave.busy
  rw [removeParticipant]
  dsimp only
  split
  · exact hsame _ rfl (engaged_congr rfl rfl rfl)
  · refine hsame _ rfl ?_
    rw [updateActivity]
    split
    · exact engaged_congr rfl rfl rfl
    · exact engaged_congr rfl rfl rfl

/-- A call starts: nobody of the room's old call is left behind, and the agent is not in
another call. -/
def Room.MayStart (room : Room) (agents : List AgentStateEntry) (agent : CStr) : Prop :=
  (∀ a ∈ room.engaged, a = agent) ∧ (agent ∈ room.engaged ∨ ¬ Busy agents agent)

/-- A call that starts makes its agent busy. -/
theorem startCallCenterRoom_settled {customer agent : Option CStr} (h : Engaged room agents)
    (hsafe : room.canStart customer agent = true → room.MayStart agents (agent.getD [])) :
    Settled room agents (startCallCenterRoom room agents customer agent) := by
  rw [startCallCenterRoom]
  split_ifs with hguard
  · obtain ⟨hold, hfree⟩ := hsafe hguard
    split
    · exact h.refused
    next agents1 hset =>
      have hne : agent.getD [] ≠ [] := by
        intro hempty
        rw [setAgentState, if_pos hempty] at hset
        exact absurd hset (by simp)
      refine ⟨engaged_nodup (fun hne => absurd rfl hne), ?_, ?_⟩
      · intro a ha
        obtain ⟨-, rfl⟩ := (engaged_agent rfl rfl a).mp ha
        exact hfree
      · intro a
        rw [busy_set_busy hset, engaged_agent rfl rfl]
        constructor
        · rintro (rfl | hbusy)
          · exact .inl ⟨hne, rfl⟩
          · by_cases ha : a ∈ room.engaged
            · exact .inl ⟨hbusy.ne_nil, hold a ha⟩
            · exact .inr ⟨hbusy, ha⟩
        · exact Or.imp (fun ha => ha.2) (fun ha => ha.1)
  · exact h.refused

theorem setPreviousConsult_eq (room : Room) (agents : List AgentStateEntry) (consult : CStr) :
    ∃ agents1, setPreviousConsult room agents consult .available = some agents1 ∧
      ∀ a, Busy agents1 a ↔ Busy agents a ∧ (room.callCenterConsultAgentParticipantId = consult ∨
          a ≠ room.callCenterConsultAgentParticipantId) := by
  rw [setPreviousConsult]
  split_ifs with hsame
  · rw [setPresentAgentState_eq]
    refine ⟨_, rfl, ?_⟩
    intro a
    rw [busy_try_free (by decide)]
    tauto
  · refine ⟨_, rfl, ?_⟩
    intro a
    tauto

theorem setCallCenterConsultAgent_settled {consultAgent : Option CStr} (h : Engaged room agents)
    (hsafe : room.canConsult consultAgent = true →
      consultAgent.getD [] = room.callCenterConsultAgentParticipantId ∨
        ¬ Busy agents (consultAgent.getD [])) :
    Settled room agents (setCallCenterConsultAgent room agents consultAgent) := by
  rw [setCallCenterConsultAgent]
  split_ifs with hguard
  · have hfree := hsafe hguard
    simp only [canConsult, Bool.and_eq_true, decide_eq_true_eq] at hguard
    obtain ⟨⟨⟨⟨hfits, hact⟩, hagent⟩, -⟩, hother⟩ := hguard
    have hne := stringFits_ne hfits
    obtain ⟨agents1, hprev, hbusy1⟩ :=
      setPreviousConsult_eq room agents (consultAgent.getD [])
    rw [hprev]
    dsimp only
    split
    next hset => exact absurd (setAgentState_none hset) hne
    next agents2 hset =>
      have hmem : ∀ a, a ∈ engaged
          { room.bumpCallCenterVersion with
            callCenterConsultAgentParticipantId := consultAgent.getD [] } ↔
            a ≠ [] ∧ (a = room.callCenterAgentParticipantId ∨ a = consultAgent.getD []) :=
        fun a => mem_engaged hact
      refine ⟨engaged_nodup (fun _ => hother), ?_, ?_⟩
      · intro a ha
        obtain ⟨hempty, rfl | rfl⟩ := (hmem a).mp ha
        · exact .inl ((mem_engaged hact).mpr ⟨hempty, .inl rfl⟩)
        · refine hfree.imp_left (fun heq => ?_)
          exact (mem_engaged hact).mpr ⟨hempty, .inr heq⟩
      · intro a
        have hprimary := h.agent_busy hact hagent
        rw [busy_set_busy hset, hbusy1, hmem, busy_not_engaged hact]
        constructor
        · rintro (rfl | ⟨hbusy, hkept⟩)
          · exact .inl ⟨hne, .inr rfl⟩
          · by_cases ha : a = room.callCenterAgentParticipantId ∨ a = consultAgent.getD []
            · exact .inl ⟨hbusy.ne_nil, ha⟩
            · rw [not_or] at ha
              refine .inr ⟨⟨hbusy, ha.1⟩, fun heq => ?_⟩
              exact hkept.elim (fun hsame => ha.2 (heq.trans hsame)) (fun hne => hne heq)
        · rintro (⟨hempty, rfl | rfl⟩ | ⟨⟨hbusy, _⟩, hnot⟩)
          · refine .inr ⟨hprimary, ?_⟩
            by_cases hconsult : room.callCenterConsultAgentParticipantId = []
            · exact .inr (fun heq => hempty (heq.trans hconsult))
            · exact .inr (h.agent_ne_consult hact hconsult)
          · exact .inl rfl
          · exact .inr ⟨hbusy, .inr hnot⟩
  · exact h.refused

/-- A transfer frees the agent and keeps the consulted one busy. -/
theorem completeCallCenterTransfer_settled {released : AgentState} (h : Engaged room agents) :
    Settled room agents (completeCallCenterTransfer room agents released) := by
  rw [completeCallCenterTransfer]
  split_ifs with hguard
  · simp only [canTransfer, Bool.and_eq_true, decide_eq_true_eq] at hguard
    obtain ⟨⟨⟨hstate, hact⟩, -⟩, -⟩ := hguard
    have hreleased : released ≠ .busy := by
      rintro rfl
      simp at hstate
    split
    · exact h.refused
    next agents1 hset =>
      have hbusy1 : ∀ a, Busy agents1 a ↔ Busy agents a ∧ a ≠ room.callCenterAgentParticipantId :=
        fun a => busy_set_free hreleased hset
      have hagent : room.callCenterAgentParticipantId ≠ [] := by
        intro hempty
        rw [setAgentState, if_pos hempty] at hset
        exact absurd hset (by simp)
      have hprimary := h.agent_busy hact hagent
      split
      · refine h.keep rfl ?_
        intro a
        rw [refused, busy_try_busy hagent, hbusy1]
        constructor
        · rintro (rfl | ⟨hbusy, -⟩)
          · exact hprimary
          · exact hbusy
        · intro hbusy
          by_cases ha : a = room.callCenterAgentParticipantId
          · exact .inl ha
          · exact .inr ⟨hbusy, ha⟩
      next agents2 hset2 =>
        have hconsult : room.callCenterConsultAgentParticipantId ≠ [] := by
          intro hempty
          rw [setAgentState, if_pos hempty] at hset2
          exact absurd hset2 (by simp)
        have hmem : ∀ a, a ∈ engaged
            { room.bumpCallCenterVersion with
              callCenterAgentParticipantId := room.callCenterConsultAgentParticipantId
              callCenterConsultAgentParticipantId := [] } ↔
            a ≠ [] ∧ a = room.callCenterConsultAgentParticipantId := by
          refine engaged_agent ?_ rfl
          exact hact
        refine ⟨engaged_nodup (fun hne => absurd rfl hne), ?_, ?_⟩
        · intro a ha
          obtain ⟨hempty, heq⟩ := (hmem a).mp ha
          exact .inl ((mem_engaged hact).mpr ⟨hempty, .inr heq⟩)
        · intro a
          rw [busy_set_busy hset2, hbusy1, hmem, busy_not_engaged hact]
          constructor
          · rintro (rfl | ⟨hbusy, hnot⟩)
            · exact .inl ⟨hconsult, rfl⟩
            · by_cases ha : a = room.callCenterConsultAgentParticipantId
              · exact .inl ⟨hbusy.ne_nil, ha⟩
              · exact .inr ⟨⟨hbusy, hnot⟩, ha⟩
          · rintro (⟨-, rfl⟩ | ⟨⟨hbusy, hnot⟩, -⟩)
            · exact .inl rfl
            · exact .inr ⟨hbusy, hnot⟩
  · exact h.refused

/-- A call gets a new state: nobody but its agent is engaged when it ends, and an agent
whose state is set is in no other call. -/
def Room.MayFinalize (room : Room) (agents : List AgentStateEntry) (state : CallCenterState)
    (agentState : AgentState) : Prop :=
  (state = .active → agentState = .busy) ∧ ((state = .active ↔ room.callCenterState = .active) ∨
      room.callCenterConsultAgentParticipantId = []) ∧
    (room.callCenterState ≠ .active → ¬ Busy agents room.callCenterAgentParticipantId)

theorem finalizeCallCenterRoom_settled
    {state : CallCenterState} {dispositionCode : Option CStr} {agentState : AgentState}
    (h : Engaged room agents)
    (hsafe : room.canFinalize state dispositionCode agentState = true →
      room.MayFinalize agents state agentState) :
    Settled room agents (finalizeCallCenterRoom room agents state dispositionCode agentState) := by
  rw [finalizeCallCenterRoom]
  split_ifs with hguard
  · obtain ⟨hbusyState, hconsult, hidle⟩ := hsafe hguard
    simp only [canFinalize, Bool.and_eq_true, decide_eq_true_eq] at hguard
    obtain ⟨⟨⟨-, hstate⟩, -⟩, hagent⟩ := hguard
    split
    · exact h.refused
    next agents1 hset =>
      by_cases hact : state = .active
      · subst hact
        rw [hbusyState rfl] at hset
        by_cases hroom : room.callCenterState = .active
        · refine h.keep (engaged_congr hroom.symm rfl rfl) ?_
          intro a
          rw [busy_set_busy hset]
          constructor
          · rintro (rfl | hbusy)
            · exact h.agent_busy hroom hagent
            · exact hbusy
          · exact .inr
        · have hnone := hconsult.resolve_left (fun hiff => hroom (hiff.mp rfl))
          have hmem : ∀ a, a ∈ engaged
              { room.bumpCallCenterVersion with
                callCenterState := .active
                callCenterDispositionCode := dispositionCode.getD [] } ↔
              a ≠ [] ∧ a = room.callCenterAgentParticipantId := by
            refine engaged_agent rfl ?_
            exact hnone
          refine ⟨engaged_nodup (fun hne => absurd hnone hne), ?_, ?_⟩
          · intro a ha
            obtain ⟨-, rfl⟩ := (hmem a).mp ha
            exact .inr (hidle hroom)
          · intro a
            rw [busy_set_busy hset, hmem, engaged_idle hroom]
            constructor
            · rintro (rfl | hbusy)
              · exact .inl ⟨hagent, rfl⟩
              · exact .inr ⟨hbusy, not_mem_nil⟩
            · exact Or.imp (fun ha => ha.2) (fun ha => ha.1)
      · have hfree : agentState ≠ .busy := by
          rintro rfl
          cases state <;> simp [finalAgentState] at hstate hact
        refine Settled.release (engaged_idle hact) ?_
        intro a
        rw [busy_set_free hfree hset]
        by_cases hroom : room.callCenterState = .active
        · have hnone := hconsult.resolve_left (fun hiff => hact (hiff.mpr hroom))
          rw [busy_not_engaged hroom, hnone]
          constructor
          · exact fun hbusy => ⟨hbusy, hbusy.1.ne_nil⟩
          · exact fun hbusy => hbusy.1
        · rw [engaged_idle hroom]
          constructor
          · exact fun hbusy => ⟨hbusy.1, not_mem_nil⟩
          · rintro ⟨hbusy, -⟩
            exact ⟨hbusy, fun heq => hidle hroom (heq ▸ hbusy)⟩
  · exact h.refused

end Calls

section Bystanders

variable {room : Room} {agents : List AgentStateEntry}

/-- The call-center side of the room is the same. -/
structure Unmoved (room room' : Room) : Prop where
  state : room'.callCenterState = room.callCenterState
  agent : room'.callCenterAgentParticipantId = room.callCenterAgentParticipantId
  consult : room'.callCenterConsultAgentParticipantId = room.callCenterConsultAgentParticipantId

theorem Unmoved.refl (room : Room) : Unmoved room room :=
  ⟨rfl, rfl, rfl⟩

theorem Unmoved.settled {answer : RoomAnswer} (hroom : Unmoved room answer.room)
    (hagents : answer.agents = agents) (h : Engaged room agents) : Settled room agents answer :=
  h.keep (engaged_congr hroom.state hroom.agent hroom.consult) (fun a => by rw [hagents])

theorem unmoved_updateActivity {room' : Room} (h : Unmoved room room') :
    Unmoved room room'.updateActivity.bumpVersion := by
  rw [updateActivity]
  split <;> exact ⟨h.state, h.agent, h.consult⟩

theorem unmoved_applyPolicy {room' : Room} {i : ℕ} {policy : SubscriptionPolicy}
    (h : Unmoved room room') : Unmoved room (room'.applyPolicy i policy).1 := by
  rw [applyPolicy]
  split
  · exact h
  · exact ⟨h.state, h.agent, h.consult⟩

theorem unmoved_ensureSubscription {room' : Room} {subscriber trackId : CStr}
    (h : Unmoved room room') : Unmoved room (room'.ensureSubscription subscriber trackId).1 := by
  rw [ensureSubscription]
  split
  · exact h
  · exact ⟨h.state, h.agent, h.consult⟩

theorem unmoved_foldl {step : Room × Bool → RoomParticipant × RoomTrack → Room × Bool}
    (hstep : ∀ acc pair, Unmoved room acc.1 → Unmoved room (step acc pair).1)
    (pairs : List (RoomParticipant × RoomTrack)) {acc : Room × Bool} (h : Unmoved room acc.1) :
    Unmoved room (pairs.foldl step acc).1 := by
  induction pairs generalizing acc with
  | nil => exact h
  | cons pair pairs ih => exact ih (hstep acc pair h)

theorem Unmoved.bump {room' : Room} {changed : Bool} (h : Unmoved room room') :
    Unmoved room (if changed then room'.bumpVersion else room') := by
  split
  · exact ⟨h.state, h.agent, h.consult⟩
  · exact h

theorem reconcilePair_unmoved {acc : Room × Bool} {pair : RoomParticipant × RoomTrack}
    (h : Unmoved room acc.1) : Unmoved room (reconcilePair acc pair).1 := by
  rw [reconcilePair]
  split
  · exact h
  · dsimp only
    split
    · exact unmoved_applyPolicy (unmoved_ensureSubscription h)
    · exact unmoved_applyPolicy (unmoved_ensureSubscription h)
    · exact unmoved_ensureSubscription h

theorem reconcileCallCenterPair_unmoved
    {mode : SupervisorMode} {acc : Room × Bool} {pair : RoomParticipant × RoomTrack}
    (h : Unmoved room acc.1) : Unmoved room (reconcileCallCenterPair mode acc pair).1 := by
  rw [reconcileCallCenterPair]
  split
  · exact h
  · exact unmoved_applyPolicy (unmoved_ensureSubscription h)

theorem onParticipant_unmoved {id : CStr} {change : RoomParticipant → RoomParticipant} :
    Unmoved room (onParticipant room agents id change).room ∧
      (onParticipant room agents id change).agents = agents := by
  rw [onParticipant]
  split
  · exact ⟨.refl room, rfl⟩
  · exact ⟨⟨rfl, rfl, rfl⟩, rfl⟩

end Bystanders

section Deciding

variable (room : Room) (agents : List AgentStateEntry)

instance (id : CStr) : Decidable (room.MayLose agents id) :=
  inferInstanceAs (Decidable (_ → _ → _ ∧ _))

instance (agent : CStr) : Decidable (room.MayStart agents agent) :=
  inferInstanceAs (Decidable (_ ∧ _))

instance (state : CallCenterState) (agentState : AgentState) :
    Decidable (room.MayFinalize agents state agentState) :=
  inferInstanceAs (Decidable (_ ∧ _ ∧ _))

end Deciding

/-- No agent drops out of a call without being released, and none is engaged twice. -/
def RoomCall.KeepsAgents (room : Room) (agents : List AgentStateEntry) : RoomCall → Prop
  | .removeParticipant id => room.MayLose agents id
  | .startCallCenterRoom customer agent =>
    room.canStart customer agent = true → room.MayStart agents (agent.getD [])
  | .setCallCenterConsultAgent consultAgent =>
    room.canConsult consultAgent = true →
      consultAgent.getD [] = room.callCenterConsultAgentParticipantId ∨
        ¬ Busy agents (consultAgent.getD [])
  | .finalizeCallCenterRoom state dispositionCode agentState =>
    room.canFinalize state dispositionCode agentState = true →
      room.MayFinalize agents state agentState
  | _ => True

/-- `RoomCall.KeepsAgents` of the room that the call is for; a room that is discarded has no
active call. -/
def ServiceCall.KeepsAgents (s : RoomService) : ServiceCall → Prop
  | .createRoom _ => True
  | .discardUnassignedRoom roomId =>
    ∀ room ∈ s.room? roomId, room.assignedSfuNode = [] → room.callCenterState ≠ .active
  | .onRoom roomId call => ∀ room ∈ s.room? roomId, call.KeepsAgents room s.agentStates

instance (room : Room) (agents : List AgentStateEntry) (call : RoomCall) :
    Decidable (call.KeepsAgents room agents) := by
  cases call with
  | removeParticipant id => exact inferInstanceAs (Decidable (room.MayLose agents id))
  | startCallCenterRoom customer agent =>
    exact inferInstanceAs (Decidable (room.canStart customer agent = true → _))
  | setCallCenterConsultAgent consultAgent =>
    exact inferInstanceAs (Decidable (room.canConsult consultAgent = true → _ ∨ ¬ _))
  | finalizeCallCenterRoom state dispositionCode agentState =>
    exact inferInstanceAs (Decidable (room.canFinalize state dispositionCode agentState = true → _))
  | _ => exact inferInstanceAs (Decidable True)

instance (s : RoomService) (call : ServiceCall) : Decidable (call.KeepsAgents s) := by
  cases call with
  | createRoom config => exact inferInstanceAs (Decidable True)
  | discardUnassignedRoom roomId =>
    exact inferInstanceAs (Decidable (∀ room ∈ s.room? roomId, _ = _ → _ ≠ _))
  | onRoom roomId call =>
    exact inferInstanceAs (Decidable (∀ room ∈ s.room? roomId, call.KeepsAgents room s.agentStates))

variable {room : Room} {agents : List AgentStateEntry}

/-- Each call settles the agents of its room and no others. -/
theorem apply_settled {call : RoomCall} (h : Engaged room agents)
    (hsafe : call.KeepsAgents room agents) : Settled room agents (call.apply room agents) := by
  cases call with
  | closeRoom => exact closeRoom_settled h
  | addParticipant config =>
    rw [apply, addParticipant]
    split
    · split
      · exact h.refused
      · refine Unmoved.settled (unmoved_updateActivity ?_) rfl h
        exact ⟨rfl, rfl, rfl⟩
    · exact h.refused
  | removeParticipant id => exact removeParticipant_settled h hsafe
  | setParticipantSessionState id state =>
    rw [apply, setParticipantSessionState]
    split
    · exact h.refused
    · exact onParticipant_unmoved.1.settled onParticipant_unmoved.2 h
  | setParticipantBandwidth id bps =>
    rw [apply, setParticipantBandwidth]
    split
    · exact h.refused
    · exact onParticipant_unmoved.1.settled onParticipant_unmoved.2 h
  | assignSfuNode | publishTrack | unpublishTrack | setTrackMuted | setSubscription
  | removeSubscription | startRecording | stopRecording | setLayoutMode | setActiveSpeaker
  | pinParticipant =>
    -- none of these changes who is engaged
    simp only [apply, assignSfuNode, publishTrack, unpublishTrack, setTrackMuted,
      setSubscription, removeSubscription, startRecording, stopRecording, setLayoutMode,
      setActiveSpeaker, pinParticipant]
    repeat' split
    all_goals first
      | exact h.refused
      | exact Unmoved.settled ⟨rfl, rfl, rfl⟩ rfl h
  | reconcileSubscriptions =>
    refine Unmoved.settled (Unmoved.bump ?_) rfl h
    exact unmoved_foldl (fun _ _ hacc => reconcilePair_unmoved hacc) _ (.refl room)
  | reconcileCallCenterSubscriptions mode =>
    refine Unmoved.settled (Unmoved.bump ?_) rfl h
    exact unmoved_foldl (fun _ _ hacc => reconcileCallCenterPair_unmoved hacc) _
      ⟨rfl, rfl, rfl⟩
  | startCallCenterRoom customer agent => exact startCallCenterRoom_settled h hsafe
  | setCallCenterConsultAgent consult => exact setCallCenterConsultAgent_settled h hsafe
  | completeCallCenterTransfer released => exact completeCallCenterTransfer_settled h
  | finalizeCallCenterRoom state code agentState => exact finalizeCallCenterRoom_settled h hsafe

/-- The busy agents are those of the active calls, and each is in one. -/
def AgentsHeld (s : RoomService) : Prop :=
  Occupancy (s.rooms.map engaged) (Busy s.agentStates)

theorem AgentsHeld.at_room {s : RoomService} {i : ℕ} (h : AgentsHeld s)
    (hget : s.rooms[i]? = some room) :
    (s.rooms.map engaged)[i]? = some room.engaged ∧ Engaged room s.agentStates := by
  have hmap : (s.rooms.map engaged)[i]? = some room.engaged := by
    rw [getElem?_map, hget, map_some]
  exact ⟨hmap, h.nodup_of_mem hmap, fun a ha => h.marked_of_mem hmap ha⟩

theorem AgentsHeld.agree {s : RoomService} (h : AgentsHeld s) :
    AgentsAgree s where
  engaged := by
    intro i room hget id hid
    refine ⟨(AgentsHeld.at_room h hget).2.busy id hid, ?_⟩
    intro j other hother hmem
    exact h.place_unique (AgentsHeld.at_room h hother).1 (AgentsHeld.at_room h hget).1 hmem hid
  busy := by
    intro id hbusy
    obtain ⟨place, hplace, hid⟩ := mem_flatten.mp ((h.marked_iff id).mp hbusy)
    obtain ⟨room, hroom, rfl⟩ := mem_map.mp hplace
    exact ⟨room, hroom, hid⟩

/-- Each call of the service keeps rooms and agents in agreement. -/
theorem step_held (s : RoomService) (call : ServiceCall) (hsafe : call.KeepsAgents s)
    (h : AgentsHeld s) : AgentsHeld (roomServiceMachine.next s call) := by
  cases call with
  | createRoom config =>
    simp only [Machine.next, roomServiceMachine, createRoom]
    split
    · rw [AgentsHeld, map_append]
      exact h.append_empty
    · exact h
  | discardUnassignedRoom roomId =>
    simp only [Machine.next, roomServiceMachine, discardUnassignedRoom]
    split
    · exact h
    next i hfind =>
      split
      · exact h
      next hassigned =>
        obtain ⟨room, hget, -⟩ := Keyed.getElem?_of_findIdx? hfind
        have hfound : s.room? roomId = some room := by
          rw [RoomService.room?, hfind]
          exact hget
        rw [hfound] at hassigned
        have hempty := engaged_idle (hsafe room hfound (not_not.mp hassigned))
        rw [AgentsHeld, ← eraseIdx_map]
        exact h.eraseIdx_empty (hempty ▸ (AgentsHeld.at_room h hget).1)
  | onRoom roomId call =>
    simp only [Machine.next, roomServiceMachine]
    cases hfound : s.room? roomId with
    | none =>
      rw [onRoom_missing hfound]
      exact h
    | some room =>
      obtain ⟨i, hidx, hget⟩ := room?_some hfound
      obtain ⟨hmap, hengaged⟩ := AgentsHeld.at_room h hget
      have hsettled := apply_settled hengaged (hsafe room hfound)
      rw [onRoom_found hidx hget, AgentsHeld, map_set]
      exact h.set hmap hsettled.nodup hsettled.free hsettled.busy

/-- **Agent availability.**  In every run in which no agent drops out of a call unreleased
and none is engaged twice, the agents of the active calls are busy, each in one room, and
nobody else is. -/
theorem agents_agree_with_rooms {calls : List ServiceCall}
    (h : roomServiceMachine.Along (fun s call => call.KeepsAgents s) .fresh calls) :
    AgentsAgree (roomServiceMachine.run .fresh calls) := by
  have hfresh : AgentsHeld .fresh :=
    Occupancy.empty (fun a hbusy => by
      have hne := hbusy.ne_nil
      simp [Busy, agentEffectiveState, RoomService.fresh, hne] at hbusy)
  exact (roomServiceMachine.run_invariant_along (P := AgentsHeld) step_held hfresh h).agree

def callCenterRoom : List ServiceCall :=
  [.createRoom aRoom, aParticipant 1 .customer, aParticipant 2 .agent, aParticipant 3 .agent]

def startCall (roomId agent : UInt8) : ServiceCall :=
  .onRoom [roomId] (.startCallCenterRoom (some [1]) (some [agent]))

def consult (agent : UInt8) : ServiceCall :=
  .onRoom [1] (.setCallCenterConsultAgent (some [agent]))

def finalize (state : CallCenterState) (agentState : AgentState) : ServiceCall :=
  .onRoom [1] (.finalizeCallCenterRoom state none agentState)

/-- The same customer and the first agent in a second room. -/
def secondRoom : List ServiceCall :=
  [.createRoom ⟨some [2], 1, 1⟩, .onRoom [2] (.addParticipant ⟨some [1], 1, none, none, .customer⟩),
    .onRoom [2] (.addParticipant ⟨some [2], 1, none, none, .agent⟩)]

/-- The call starts again with another agent. -/
def restarted : List ServiceCall :=
  callCenterRoom ++ [startCall 1 2, startCall 1 3]

def endsConsulting : List ServiceCall :=
  callCenterRoom ++ [startCall 1 2, consult 3, finalize .completed .available]

def discarded : List ServiceCall :=
  callCenterRoom ++ [startCall 1 2, .discardUnassignedRoom [1]]

def engagedTwice : List ServiceCall :=
  callCenterRoom ++ secondRoom ++ [startCall 1 2, startCall 2 2]

/-- The call goes on and its agent is available. -/
def finalizedActive : List ServiceCall :=
  callCenterRoom ++ [startCall 1 2, finalize .active .available]

/-- The wrap-up of one call ends during the next one. -/
def wrapsUpLate : List ServiceCall :=
  callCenterRoom ++ secondRoom ++
    [startCall 1 2, finalize .wrapUp .wrapUp, startCall 2 2, finalize .completed .available]

/-- A consultation, a transfer, the end of the call, and the next call. -/
def transferred : List ServiceCall :=
  callCenterRoom ++ secondRoom ++
    [startCall 1 2, consult 3, .onRoom [1] (.completeCallCenterTransfer .available),
      startCall 2 2, finalize .wrapUp .wrapUp, finalize .completed .available,
      .onRoom [2] .closeRoom]

theorem transferred_agree :
    roomServiceMachine.Along (fun s call => call.KeepsAgents s) .fresh transferred ∧
      AgentsAgree (roomServiceMachine.run .fresh transferred) :=
  have h : roomServiceMachine.Along (fun s call => call.KeepsAgents s) .fresh transferred := by
    decide
  ⟨h, agents_agree_with_rooms h⟩

/-- Each call that breaks the rule breaks the agreement. -/
theorem agents_disagree_with_rooms :
    ¬ AgentsAgree (roomServiceMachine.run .fresh restarted) ∧
      ¬ AgentsAgree (roomServiceMachine.run .fresh endsConsulting) ∧
      ¬ AgentsAgree (roomServiceMachine.run .fresh discarded) ∧
      ¬ AgentsAgree (roomServiceMachine.run .fresh engagedTwice) ∧
      ¬ AgentsAgree (roomServiceMachine.run .fresh finalizedActive) ∧
      ¬ AgentsAgree (roomServiceMachine.run .fresh wrapsUpLate) := by
  decide

end TurboMedia.Conference
