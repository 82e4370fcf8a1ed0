import Mathlib.Data.Fintype.Fin
import TurboMedia.Sfu.Context

/-!
# Participant registry

Who is registered, as the lookups see it.

**Input.**  Any run of calls on a fresh context, and beside it the set of ids
that were added successfully and not removed since.

**Method.**  A step either leaves the registry alone, or takes a free slot, or
frees an occupied one (`step_registry`).  The lookup of most calls scans only
the first `participantCount` slots, so it agrees with the set exactly as long
as the occupied slots are the first ones (`Compact`); this survives a leave
exactly when the participant in the last occupied slot leaves.
-/

namespace TurboMedia.Sfu

open Function Context

section Lookups

variable {sfu : Context} {id : ParticipantId} {i : Slot}

def activeSlots (sfu : Context) : Finset Slot :=
  Finset.univ.filter (fun i => (sfu.participants i).active = true)

@[simp] theorem mem_activeSlots : i ∈ activeSlots sfu ↔ (sfu.participants i).active = true := by
  simp [activeSlots]

theorem occupiedBy_iff :
    sfu.occupiedBy id i = true ↔
      (sfu.participants i).active = true ∧ (sfu.participants i).id = id := by
  simp [occupiedBy]

theorem mem_take_finRange {n : ℕ} : i ∈ (List.finRange 50).take n ↔ i.val < n := by
  rw [List.mem_iff_getElem]
  constructor
  · rintro ⟨k, hk, rfl⟩
    rw [List.length_take] at hk
    simp
    omega
  · intro h
    exact ⟨i.val, by simp [h], by simp⟩

theorem findParticipant_some (h : findParticipant sfu id = some i) :
    i.val < sfu.participantCount ∧ (sfu.participants i).active = true ∧
      (sfu.participants i).id = id := by
  have hmem := mem_take_finRange.mp (List.mem_of_find?_eq_some h)
  exact ⟨hmem, occupiedBy_iff.mp (List.find?_some h)⟩

theorem findParticipant_isSome :
    (findParticipant sfu id).isSome ↔
      ∃ i : Slot, i.val < sfu.participantCount ∧ (sfu.participants i).active = true ∧
        (sfu.participants i).id = id := by
  rw [findParticipant, List.find?_isSome]
  constructor
  · rintro ⟨i, hmem, hocc⟩
    exact ⟨i, mem_take_finRange.mp hmem, occupiedBy_iff.mp hocc⟩
  · rintro ⟨i, hlt, hocc⟩
    exact ⟨i, mem_take_finRange.mpr hlt, occupiedBy_iff.mpr hocc⟩

theorem getParticipantIndex_isSome :
    (getParticipantIndex sfu id).isSome ↔
      ∃ i : Slot, (sfu.participants i).active = true ∧ (sfu.participants i).id = id := by
  rw [getParticipantIndex, List.find?_isSome]
  constructor
  · rintro ⟨i, _, hocc⟩
    exact ⟨i, occupiedBy_iff.mp hocc⟩
  · rintro ⟨i, hocc⟩
    exact ⟨i, List.mem_finRange i, occupiedBy_iff.mpr hocc⟩

theorem freeSlot_some (h : freeSlot sfu = some i) :
    (sfu.participants i).active = false ∧ ∀ j < i, (sfu.participants j).active = true := by
  obtain ⟨hfree, hbef⟩ := List.find?_eq_some_iff_getElem.mp h
  refine ⟨by simpa using hfree, ?_⟩
  obtain ⟨k, hk, hget, hall⟩ := hbef
  intro j hj
  have hki : k = i.val := by
    have := congrArg Fin.val hget
    simpa using this
  have hjk : j.val < k := by
    rw [hki]
    exact hj
  have := hall j.val hjk
  simpa using this

end Lookups

/-- The calls other than joins and leaves keep all that the lookups read. -/
structure SameRegistry (s t : Context) : Prop where
  count : t.participantCount = s.participantCount
  max : t.maxParticipants = s.maxParticipants
  active : ∀ i, (t.participants i).active = (s.participants i).active
  id : ∀ i, (t.participants i).id = (s.participants i).id

namespace SameRegistry

theorem refl (s : Context) : SameRegistry s s where
  count := rfl
  max := rfl
  active := fun _ => rfl
  id := fun _ => rfl

theorem trans {s t u : Context} (h : SameRegistry s t) (h' : SameRegistry t u) :
    SameRegistry s u where
  count := h'.count.trans h.count
  max := h'.max.trans h.max
  active := fun i => (h'.active i).trans (h.active i)
  id := fun i => (h'.id i).trans (h.id i)

theorem setParticipant (s : Context) (i : Slot) {p : Participant}
    (hact : p.active = (s.participants i).active) (hid : p.id = (s.participants i).id) :
    SameRegistry s (s.setParticipant i p) where
  count := rfl
  max := rfl
  active := by
    intro j
    by_cases hj : j = i
    · subst hj
      simpa [Context.setParticipant] using hact
    · simp [Context.setParticipant, hj]
  id := by
    intro j
    by_cases hj : j = i
    · subst hj
      simpa [Context.setParticipant] using hid
    · simp [Context.setParticipant, hj]

theorem withParticipant (s : Context) (id : ParticipantId) {f : Participant → Participant}
    (hact : ∀ p, (f p).active = p.active) (hid : ∀ p, (f p).id = p.id) :
    SameRegistry s (withParticipant s id f) := by
  rw [Sfu.withParticipant]
  cases findParticipant s id with
  | none => exact refl s
  | some i => exact setParticipant s i (hact _) (hid _)

theorem decideLayer (st : ForwardState) (out : Outgoing) (i : Slot) :
    SameRegistry st.sfu (decideLayer st out i).sfu := by
  rw [Sfu.decideLayer]
  split_ifs
  · exact { count := rfl, max := rfl, active := fun _ => rfl, id := fun _ => rfl }
  · exact refl _

theorem deliver (st : ForwardState) (out : Outgoing) (i : Slot) :
    SameRegistry st.sfu (deliver st out i).sfu :=
  setParticipant st.sfu i rfl rfl

theorem forwardTo (out : Outgoing) (st : ForwardState) (i : Slot) :
    SameRegistry st.sfu (forwardTo out st i).sfu := by
  rw [Sfu.forwardTo]
  dsimp only
  split_ifs
  · exact (decideLayer st out i).trans (deliver _ out i)
  · exact decideLayer st out i
  · exact refl _

theorem foldl_forwardTo (out : Outgoing) (slots : List Slot) (st : ForwardState) :
    SameRegistry st.sfu (slots.foldl (Sfu.forwardTo out) st).sfu := by
  induction slots generalizing st with
  | nil => exact refl _
  | cons i slots ih => exact (forwardTo out st i).trans (ih _)

theorem forwardAll (s : Context) (stream : Stream) (out : Outgoing) :
    SameRegistry s (forwardAll s stream out).sfu := by
  exact foldl_forwardTo out (List.finRange 50)
    { sfu := s, stream := stream, events := [], forwarded := 0 }

theorem afterLoop (st : ForwardState) (out : Outgoing) (k : ℕ) :
    SameRegistry st.sfu (afterLoop st out k) := by
  have h : SameRegistry st.sfu (st.sfu.setParticipant out.sender
      { st.sfu.participants out.sender with
        streams := (st.sfu.participants out.sender).streams.set k st.stream }) :=
    setParticipant st.sfu out.sender rfl rfl
  exact { count := h.count, max := h.max, active := h.active, id := h.id }

theorem forwardPacket (s : Context) (id : ParticipantId) (packet : List UInt8) (now : ℤ) :
    SameRegistry s (forwardPacket s id packet now).1 := by
  rw [Sfu.forwardPacket]
  split
  · next j ssrc _ _ =>
      split
      · exact refl s
      · next k _ =>
          dsimp only
          split
          · exact refl s
          · next stream _ =>
              have hcount : SameRegistry s
                  (s.setParticipant j (countReceived (s.participants j) k packet.length)) :=
                setParticipant s j rfl rfl
              exact hcount.trans ((forwardAll _ stream _).trans (afterLoop _ _ k))
  · exact refl s

end SameRegistry

def Op.isMembership : Op → Bool
  | .addParticipant _ => true
  | .removeParticipant _ => true
  | _ => false

theorem sameRegistry_of_not_membership (s : Context) {op : Op} (h : op.isMembership = false) :
    SameRegistry s (machine.next s op) := by
  cases op with
  | addParticipant id | removeParticipant id => cases h
  | setParticipantBandwidth id bw now =>
    change SameRegistry s (setParticipantBandwidth s id bw now)
    exact SameRegistry.withParticipant s id (fun _ => rfl) (fun _ => rfl)
  | setParticipantCallback id cb =>
    change SameRegistry s (setParticipantCallback s id cb)
    exact SameRegistry.withParticipant s id (fun _ => rfl) (fun _ => rfl)
  | setParticipantKeyframeCallback id cb =>
    change SameRegistry s (setParticipantKeyframeCallback s id cb)
    exact SameRegistry.withParticipant s id (fun _ => rfl) (fun _ => rfl)
  | addStream id ssrc layers n =>
    change SameRegistry s (addStream s id ssrc layers n).1
    rw [addStream]
    split
    · exact SameRegistry.refl s
    · dsimp only
      split_ifs
      · exact SameRegistry.refl s
      · exact SameRegistry.setParticipant s _ rfl rfl
  | removeStream id ssrc =>
    change SameRegistry s (removeStream s id ssrc).1
    rw [removeStream]
    split
    · exact SameRegistry.refl s
    · dsimp only
      split
      · exact SameRegistry.refl s
      · exact SameRegistry.setParticipant s _ rfl rfl
  | setReceiverStreamPolicy r id ssrc enabled maxLayer =>
    change SameRegistry s (setReceiverStreamPolicy s r id ssrc enabled maxLayer).1
    rw [setReceiverStreamPolicy]
    split_ifs
    · exact SameRegistry.refl s
    · split
      · dsimp only
        split
        · exact SameRegistry.refl s
        · exact SameRegistry.setParticipant s _ rfl rfl
      · exact SameRegistry.refl s
  | forwardPacket id packet now => exact SameRegistry.forwardPacket s id packet now
  | requestKeyframe id ssrc =>
    change SameRegistry s (requestKeyframe s id ssrc).1
    rw [requestKeyframe]
    split
    · exact SameRegistry.refl s
    · split
      · exact SameRegistry.refl s
      · exact SameRegistry.refl s
  | setSimulcastEnabled enabled | setBandwidthAdaptationEnabled enabled =>
    exact { count := rfl, max := rfl, active := fun _ => rfl, id := fun _ => rfl }

/-- The set of ids added successfully and not removed since, after one call. -/
def joinedAfter (joined : Finset ParticipantId) (op : Op) (answer : Answer) :
    Finset ParticipantId :=
  match op with
  | .addParticipant id => if answer.code = 0 then insert id joined else joined
  | .removeParticipant id => if answer.code = 0 then joined.erase id else joined
  | _ => joined

/-- The machine with that set beside the context. -/
def history : Machine (Context × Finset ParticipantId) Op Answer where
  step := fun s op =>
    ((machine.next s.1 op, joinedAfter s.2 op (machine.answer s.1 op)), machine.answer s.1 op)

/-- What the registry promises: the lookups find exactly the ids that joined
and did not leave, no id has two slots, and the count is that of the active
slots and within the limit. -/
structure Faithful (s : Context) (joined : Finset ParticipantId) : Prop where
  found : ∀ id, (findParticipant s id).isSome ↔ id ∈ joined
  indexed : ∀ id, (getParticipantIndex s id).isSome ↔ id ∈ joined
  removable : ∀ id, (removeParticipant s id).2.code = 0 ↔ id ∈ joined
  unique : ∀ i j, (s.participants i).active = true → (s.participants j).active = true →
    (s.participants i).id = (s.participants j).id → i = j
  count : s.participantCount = (activeSlots s).card
  bounded : s.participantCount ≤ s.maxParticipants

/-- When a call removes a participant, it is the one in the last of the first
`participantCount` slots. -/
def LastLeaves (s : Context) : Op → Prop
  | .removeParticipant id =>
    ∀ i, (s.participants i).active = true → (s.participants i).id = id →
      i.val + 1 = s.participantCount
  | _ => True

/-- The occupied slots are the first ones. -/
structure Compact (s : Context) (joined : Finset ParticipantId) : Prop where
  active_iff : ∀ i, (s.participants i).active = true ↔ i.val < s.participantCount
  unique : ∀ i j, (s.participants i).active = true → (s.participants j).active = true →
    (s.participants i).id = (s.participants j).id → i = j
  members : ∀ id, id ∈ joined ↔
    ∃ i, (s.participants i).active = true ∧ (s.participants i).id = id
  bounded : s.participantCount ≤ s.maxParticipants
  fits : s.maxParticipants ≤ 50

variable {s : Context} {joined : Finset ParticipantId}

theorem removeParticipant_code {id : ParticipantId} :
    (removeParticipant s id).2.code = 0 ↔ (findParticipant s id).isSome := by
  rw [removeParticipant]
  cases findParticipant s id with
  | none => simp [Answer.failed]
  | some i => simp

theorem addParticipant_cases (s : Context) (id : ParticipantId) :
    addParticipant s id = (s, .failed) ∨ ∃ i, freeSlot s = some i ∧ findParticipant s id = none ∧
        s.participantCount < s.maxParticipants ∧ addParticipant s id =
          ({ s.setParticipant i (newParticipant id) with
              participantCount := s.participantCount + 1 },
            { code := 0, events := [.joined id] }) := by
  rw [addParticipant]
  split_ifs with hvalid hfound hfull
  · exact .inl rfl
  · exact .inl rfl
  · exact .inl rfl
  · cases hfree : freeSlot s with
    | none => exact .inl rfl
    | some i => exact .inr ⟨i, rfl, by simpa using hfound, by omega, rfl⟩

variable (h : Compact s joined)
include h

theorem Compact.faithful : Faithful s joined := by
  have hfound : ∀ id, (findParticipant s id).isSome ↔ id ∈ joined := by
    intro id
    rw [findParticipant_isSome, h.members]
    constructor
    · rintro ⟨i, _, hocc⟩
      exact ⟨i, hocc⟩
    · rintro ⟨i, hact, hid⟩
      exact ⟨i, (h.active_iff i).mp hact, hact, hid⟩
  refine
    { found := hfound
      indexed := fun id => by rw [getParticipantIndex_isSome, h.members]
      removable := fun id => removeParticipant_code.trans (hfound id)
      unique := h.unique
      count := ?_
      bounded := h.bounded }
  have hslots : activeSlots s = Finset.univ.filter (fun i : Slot => i.val <
      s.participantCount) := by
    ext i
    simp [h.active_iff]
  have hfits := h.fits
  have hbounded := h.bounded
  rw [hslots, Fin.card_filter_val_lt]
  omega

theorem Compact.of_sameRegistry {t : Context} (hsame : SameRegistry s t) :
    Compact t joined where
  active_iff := by
    intro i
    rw [hsame.active, hsame.count]
    exact h.active_iff i
  unique := by
    intro i j hi hj hid
    rw [hsame.active] at hi hj
    rw [hsame.id, hsame.id] at hid
    exact h.unique i j hi hj hid
  members := by
    intro id
    simp only [hsame.active, hsame.id]
    exact h.members id
  bounded := by
    rw [hsame.count, hsame.max]
    exact h.bounded
  fits := by
    rw [hsame.max]
    exact h.fits

theorem Compact.freeSlot_eq {i : Slot} (hfree : freeSlot s = some i) :
    i.val = s.participantCount := by
  obtain ⟨hinactive, hbef⟩ := freeSlot_some hfree
  have hge : ¬ i.val < s.participantCount := by
    intro hlt
    rw [(h.active_iff i).mpr hlt] at hinactive
    cases hinactive
  by_contra hne
  have hlt : s.participantCount < i.val := by omega
  have hslot : s.participantCount < 50 := hlt.trans i.isLt
  have hact := (h.active_iff ⟨s.participantCount, hslot⟩).mp
    (hbef ⟨s.participantCount, hslot⟩ hlt)
  exact lt_irrefl _ hact

theorem Compact.add {i : Slot} {id : ParticipantId}
    (hfree : freeSlot s = some i) (hnew : findParticipant s id = none)
    (hroom : s.participantCount < s.maxParticipants) :
    Compact
      { s.setParticipant i (newParticipant id) with participantCount := s.participantCount + 1 }
      (insert id joined) := by
  have hi := h.freeSlot_eq hfree
  have hinactive := (freeSlot_some hfree).1
  have habs : id ∉ joined := by
    intro hmem
    have := (h.faithful.found id).mpr hmem
    simp [hnew] at this
  have hother : ∀ j, (s.participants j).active = true → (s.participants j).id ≠ id :=
    fun j hj hid => habs ((h.members id).mpr ⟨j, hj, hid⟩)
  refine
    { active_iff := ?_
      unique := ?_
      members := ?_
      bounded := hroom
      fits := h.fits }
  · intro j
    by_cases hj : j = i
    · subst hj
      simp [setParticipant, newParticipant, hi]
    · have hval : j.val ≠ s.participantCount := by
        rw [← hi]
        exact fun heq => hj (Fin.ext heq)
      simp only [setParticipant, update_of_ne hj, h.active_iff]
      omega
  · intro j k hj hk hid
    by_cases hji : j = i <;> by_cases hki : k = i
    · rw [hji, hki]
    · subst hji
      simp only [setParticipant, update_self, update_of_ne hki] at hk hid
      exact absurd hid.symm (hother k hk)
    · subst hki
      simp only [setParticipant, update_self, update_of_ne hji] at hj hid
      exact absurd hid (hother j hj)
    · simp only [setParticipant, update_of_ne hji,
        update_of_ne hki] at hj hk hid
      exact h.unique j k hj hk hid
  · intro id'
    rw [Finset.mem_insert, h.members]
    constructor
    · rintro (rfl | ⟨j, hj, hid⟩)
      · exact ⟨i, by simp [setParticipant, newParticipant]⟩
      · have hji : j ≠ i := by
          rintro rfl
          rw [hinactive] at hj
          cases hj
        exact ⟨j, by simp [setParticipant, hji, hj, hid]⟩
    · rintro ⟨j, hj, hid⟩
      by_cases hji : j = i
      · subst hji
        left
        simpa [setParticipant, newParticipant] using hid.symm
      · right
        simp only [setParticipant, update_of_ne hji] at hj hid
        exact ⟨j, hj, hid⟩

theorem Compact.remove {i : Slot} {id : ParticipantId}
    (hfound : findParticipant s id = some i) (hlast : i.val + 1 = s.participantCount) :
    Compact { s.setParticipant i { s.participants i with active := false } with
        participantCount := s.participantCount - 1 }
      (joined.erase id) := by
  obtain ⟨_, hact, hid⟩ := findParticipant_some hfound
  refine
    { active_iff := ?_
      unique := ?_
      members := ?_
      bounded := (Nat.sub_le _ _).trans h.bounded
      fits := h.fits }
  · intro j
    by_cases hj : j = i
    · subst hj
      simp only [setParticipant, update_self, Bool.false_eq_true, false_iff]
      omega
    · have hval : j.val ≠ i.val := fun heq => hj (Fin.ext heq)
      simp only [setParticipant, update_of_ne hj, h.active_iff]
      omega
  · intro j k hj hk hjk
    have hji : j ≠ i := by
      rintro rfl
      simp [setParticipant] at hj
    have hki : k ≠ i := by
      rintro rfl
      simp [setParticipant] at hk
    simp only [setParticipant, update_of_ne hji, update_of_ne hki] at hj hk hjk
    exact h.unique j k hj hk hjk
  · intro id'
    rw [Finset.mem_erase, h.members]
    constructor
    · rintro ⟨hne, j, hj, hjid⟩
      have hji : j ≠ i := by
        rintro rfl
        exact hne (hjid.symm.trans hid)
      exact ⟨j, by simp [setParticipant, hji, hj, hjid]⟩
    · rintro ⟨j, hj, hjid⟩
      have hji : j ≠ i := by
        rintro rfl
        simp [setParticipant] at hj
      simp only [setParticipant, update_of_ne hji] at hj hjid
      refine ⟨?_, j, hj, hjid⟩
      rintro rfl
      exact hji (h.unique j i hj hact (hjid.trans hid.symm))

omit h

/-- The first slots stay the occupied ones as long as the last one leaves. -/
theorem Compact.step (p : Context × Finset ParticipantId) (op : Op) (hlast : LastLeaves p.1 op)
    (h : Compact p.1 p.2) : Compact (history.next p op).1 (history.next p op).2 := by
  obtain ⟨s, joined⟩ := p
  by_cases hop : op.isMembership = false
  · have hsame := h.of_sameRegistry (sameRegistry_of_not_membership s hop)
    cases op with
    | addParticipant id | removeParticipant id => cases hop
    | _ => exact hsame
  · cases op with
    | addParticipant id =>
      change Compact (addParticipant s id).1
        (joinedAfter joined (.addParticipant id) (addParticipant s id).2)
      obtain heq | ⟨i, hfree, hnew, hroom, heq⟩ := addParticipant_cases s id
      · rw [heq]
        exact h
      · rw [heq]
        exact h.add hfree hnew hroom
    | removeParticipant id =>
      change Compact (removeParticipant s id).1
        (joinedAfter joined (.removeParticipant id) (removeParticipant s id).2)
      rw [removeParticipant]
      cases hfound : findParticipant s id with
      | none => exact h
      | some i =>
        obtain ⟨_, hact, hid⟩ := findParticipant_some hfound
        exact h.remove hfound (hlast i hact hid)
    | _ => simp [Op.isMembership] at hop

theorem Compact.create (maxParticipants : ℤ) :
    Compact (create maxParticipants) ∅ where
  active_iff := by
    intro i
    simp [Sfu.create, Participant.zero]
  unique := by
    intro i j hi
    simp [Sfu.create, Participant.zero] at hi
  members := by
    intro id
    simp [Sfu.create, Participant.zero]
  bounded := Nat.zero_le _
  fits := by
    simp only [Sfu.create]
    split_ifs with h
    · omega
    · exact le_rfl

/-- Where the lookups are faithful, the occupied slots are the first ones. -/
theorem Faithful.active_lt {j : Slot} (h : Faithful s joined)
    (hj : (s.participants j).active = true) : j.val < s.participantCount := by
  have hmem := (h.indexed (s.participants j).id).mp (getParticipantIndex_isSome.mpr ⟨j, hj, rfl⟩)
  obtain ⟨i, hlt, hi, hid⟩ := findParticipant_isSome.mp ((h.found _).mpr hmem)
  rw [← h.unique i j hi hj hid]
  exact hlt

theorem Faithful.activeSlots_eq (h : Faithful s joined) :
    activeSlots s = Finset.univ.filter (fun i : Slot => i.val < s.participantCount) := by
  apply Finset.eq_of_subset_of_card_le
  · intro i hi
    exact Finset.mem_filter.mpr ⟨Finset.mem_univ i, h.active_lt (mem_activeSlots.mp hi)⟩
  · rw [Fin.card_filter_val_lt, ← h.count]
    exact min_le_right _ _

theorem Faithful.lastLeaves {p : Context × Finset ParticipantId} {op : Op} (h : Faithful p.1 p.2)
    (hnext : Faithful (history.next p op).1 (history.next p op).2) : LastLeaves p.1 op := by
  obtain ⟨s, joined⟩ := p
  cases op with
  | removeParticipant id =>
    intro i hact hid
    have hlt : i.val < s.participantCount := h.active_lt hact
    by_contra hne
    have hcount : s.participantCount ≤ 50 := by
      have hcard := Finset.card_le_univ (activeSlots s)
      rw [← h.count] at hcard
      simpa using hcard
    let j : Slot := ⟨s.participantCount - 1, by omega⟩
    have hji : j ≠ i := by
      intro heq
      have := congrArg Fin.val heq
      simp only [j] at this
      change ¬ i.val + 1 = s.participantCount at hne
      omega
    have hjactive : (s.participants j).active = true := by
      have hmem : j ∈ activeSlots s := by
        rw [h.activeSlots_eq, Finset.mem_filter]
        exact ⟨Finset.mem_univ j, by simp only [j]; omega⟩
      exact mem_activeSlots.mp hmem
    obtain ⟨i', hi'⟩ := Option.isSome_iff_exists.mp (findParticipant_isSome.mpr ⟨i, hlt, hact, hid⟩)
    obtain ⟨_, hact', hid'⟩ := findParticipant_some hi'
    obtain rfl : i' = i := h.unique i' i hact' hact (hid'.trans hid.symm)
    have hstate : (history.next (s, joined) (.removeParticipant id)).1 =
        { s.setParticipant i' { s.participants i' with active := false } with
          participantCount := s.participantCount - 1 } := by
      change (removeParticipant s id).1 = _
      rw [removeParticipant, hi']
    have hjlt : j.val < s.participantCount - 1 := by
      have := hnext.active_lt (j := j) (by
        rw [hstate]
        simp [setParticipant, hji, hjactive])
      rw [hstate] at this
      exact this
    exact lt_irrefl _ hjlt
  | _ => trivial

theorem lastLeaves_along_of_faithful (p : Context × Finset ParticipantId) (ops : List Op)
    (h : ∀ k ≤ ops.length, Faithful (history.stateAt p ops k).1 (history.stateAt p ops k).2) :
    history.Along (fun p op => LastLeaves p.1 op) p ops := by
  induction ops generalizing p with
  | nil => trivial
  | cons op ops ih =>
    refine ⟨?_, ?_⟩
    · exact (h 0 (Nat.zero_le _)).lastLeaves (h 1 (by simp))
    · apply ih
      intro k hk
      exact h (k + 1) (by simpa using hk)

/-- **The registry is faithful as long as the last participant is the one that
leaves.**  After every prefix of a run the lookups find exactly the ids added
and not removed since, with one slot each, if and only if every call that
removes a participant removes the one in slot `participantCount - 1`. -/
theorem registry_faithful_iff_last_leaves (maxParticipants : ℤ) (ops : List Op) :
    (∀ k ≤ ops.length, Faithful (history.stateAt (create maxParticipants, ∅) ops k).1
        (history.stateAt (create maxParticipants, ∅) ops k).2) ↔
      history.Along (fun p op => LastLeaves p.1 op) (create maxParticipants, ∅) ops := by
  constructor
  · exact lastLeaves_along_of_faithful _ ops
  · intro halong k _
    rw [← List.take_append_drop k ops] at halong
    have hcompact : Compact (history.stateAt (create maxParticipants, ∅) ops k).1
        (history.stateAt (create maxParticipants, ∅) ops k).2 :=
      history.run_invariant_along (P := fun p => Compact p.1 p.2) Compact.step
        (Compact.create maxParticipants) (history.along_append_left halong)
    exact hcompact.faithful

/-- Two participants join and the first leaves: the second is in slot 1, beyond
the one slot the lookup scans. -/
theorem registry_loses_last_participant :
    ¬ ∀ (maxParticipants : ℤ) (ops : List Op), ∀ k ≤ ops.length,
      Faithful (history.stateAt (create maxParticipants, ∅) ops k).1
        (history.stateAt (create maxParticipants, ∅) ops k).2 := by
  intro h
  have hfaithful := h 10
    [.addParticipant [97], .addParticipant [98], .removeParticipant [97]] 3 (by decide)
  have hjoined : ([98] : ParticipantId) ∈ (history.stateAt (create 10, ∅)
        [.addParticipant [97], .addParticipant [98], .removeParticipant [97]] 3).2 := by
    decide
  have hfound := (hfaithful.found [98]).mpr hjoined
  revert hfound
  decide

/-- The part of the registry that no order of leaves can break. -/
structure Counted (s : Context) : Prop where
  count : s.participantCount = (activeSlots s).card
  bounded : s.participantCount ≤ s.maxParticipants
  fits : s.maxParticipants ≤ 50

theorem activeSlots_join {i : Slot} (p : Participant) (hp : p.active = true) :
    activeSlots (s.setParticipant i p) = insert i (activeSlots s) := by
  ext j
  by_cases hj : j = i
  · subst hj
    simp [setParticipant, hp]
  · simp [setParticipant, hj]

theorem activeSlots_leave {i : Slot} (p : Participant) (hp : p.active = false) :
    activeSlots (s.setParticipant i p) = (activeSlots s).erase i := by
  ext j
  by_cases hj : j = i
  · subst hj
    simp [setParticipant, hp]
  · simp [setParticipant, hj]

theorem Counted.step (s : Context) (op : Op) (h : Counted s) : Counted (machine.next s op) := by
  by_cases hop : op.isMembership = false
  · have hsame := sameRegistry_of_not_membership s hop
    have hslots : activeSlots (machine.next s op) = activeSlots s := by
      ext i
      simp [hsame.active]
    exact
      { count := by rw [hsame.count, hslots, h.count]
        bounded := by rw [hsame.count, hsame.max]; exact h.bounded
        fits := by rw [hsame.max]; exact h.fits }
  · cases op with
    | addParticipant id =>
      change Counted (addParticipant s id).1
      obtain heq | ⟨i, hfree, _, hroom, heq⟩ := addParticipant_cases s id
      · rw [heq]
        exact h
      · rw [heq]
        have hinactive := (freeSlot_some hfree).1
        have hmem : i ∉ activeSlots s := by
          simp [hinactive]
        refine { count := ?_, bounded := hroom, fits := h.fits }
        change s.participantCount + 1 = (activeSlots (s.setParticipant i (newParticipant id))).card
        rw [activeSlots_join (newParticipant id) rfl, Finset.card_insert_of_notMem hmem, h.count]
    | removeParticipant id =>
      change Counted (removeParticipant s id).1
      rw [removeParticipant]
      cases hfound : findParticipant s id with
      | none => exact h
      | some i =>
        obtain ⟨_, hact, _⟩ := findParticipant_some hfound
        have hmem : i ∈ activeSlots s := by
          simp [hact]
        refine
          { count := ?_, bounded := (Nat.sub_le _ _).trans h.bounded, fits := h.fits }
        change s.participantCount - 1 = (activeSlots
          (s.setParticipant i { s.participants i with active := false })).card
        rw [activeSlots_leave { s.participants i with active := false } rfl,
          Finset.card_erase_of_mem hmem, h.count]
    | _ => simp [Op.isMembership] at hop

/-- **Counting is right on every run.**  Whoever leaves, `participantCount` is
the number of active slots and at most the limit. -/
theorem counted_run (maxParticipants : ℤ) (ops : List Op) :
    Counted (machine.run (create maxParticipants) ops) := by
  apply machine.run_invariant Counted.step
  have hcompact := Compact.create maxParticipants
  exact
    { count := hcompact.faithful.count
      bounded := hcompact.bounded
      fits := hcompact.fits }

end TurboMedia.Sfu
