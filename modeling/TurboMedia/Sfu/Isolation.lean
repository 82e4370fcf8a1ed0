import TurboMedia.Lib.Related
import TurboMedia.Sfu.Context

/-!
# Isolation of receivers that share a slot

The entry of a receiver lives in every stream of every sender, under the
receiver's slot number.  Joins and leaves touch the participant record only, so
a slot is handed on together with the entries of whoever left it.

**Input.**  Two runs that end in contexts which differ only in what earlier
occupants of slot `i` left behind, and any common continuation, in which
somebody joins in slot `i`.

**Method.**  Two entries of a stream with `n` layers behave alike when they agree
on the enabled flag, on the layer allowed and on the current layer as far as the
stream has it, and on the switch time while the current layer is below the top
one (`EntryAlike`).  Contexts that are alike entry by entry stay alike under
every call and hand the same packets to the same receivers.
-/

namespace TurboMedia.Sfu

open SimulcastLayer Related Function

section Entries

variable {n : ℕ} {e e' : ReceiverEntry}

/-- Two entries that no packet of a stream with `n` layers can tell apart. -/
structure EntryAlike (n : ℕ) (e e' : ReceiverEntry) : Prop where
  enabled : e.enabled = e'.enabled
  allowed : min e.maxLayer.value (n - 1) = min e'.maxLayer.value (n - 1)
  current : min e.currentLayer.value (n - 1) = min e'.currentLayer.value (n - 1)
  switched : e.currentLayer.value < n - 1 → e.lastLayerSwitchUs = e'.lastLayerSwitchUs

theorem EntryAlike.refl (n : ℕ) (e : ReceiverEntry) :
    EntryAlike n e e where
  enabled := rfl
  allowed := rfl
  current := rfl
  switched := fun _ => rfl

theorem SimulcastLayer.value_injective {l l' : SimulcastLayer} (h : l.value = l'.value) :
    l = l' := by
  cases l <;> cases l' <;> simp_all [value]

theorem SimulcastLayer.value_ofValue {k : ℕ} (h : k ≤ 2) :
    (ofValue k).value = k := by
  interval_cases k <;> rfl

theorem targetLayer_le (hn : n ≤ 3) (adaptation : Bool) (bandwidth : ℤ)
    (maxLayer : SimulcastLayer) : (targetLayer adaptation n bandwidth maxLayer).value ≤ n - 1 := by
  have htop : (ofValue (n - 1)).value = n - 1 :=
    value_ofValue (by omega)
  simp only [targetLayer]
  split_ifs <;> omega

theorem targetLayer_alike (hn : n ≤ 3) (adaptation : Bool) (bandwidth : ℤ) {l l' : SimulcastLayer}
    (h : min l.value (n - 1) = min l'.value (n - 1)) :
    targetLayer adaptation n bandwidth l = targetLayer adaptation n bandwidth l' := by
  have htop : (ofValue (n - 1)).value = n - 1 :=
    value_ofValue (by omega)
  have hallowed :
      (if l.value > (ofValue (n - 1)).value then ofValue (n - 1)
        else l) =
      (if l'.value > (ofValue (n - 1)).value then ofValue (n - 1)
        else l') := by
    apply value_injective
    split_ifs <;> omega
  simp [targetLayer, hallowed]

theorem updateLayer_top (hn : n ≤ 3) (hmany : 1 < n) (htop : n - 1 ≤ e.currentLayer.value)
    (adaptation : Bool) (bandwidth now : ℤ) :
    let target := targetLayer adaptation n bandwidth e.maxLayer
    let e₁ := (updateLayer e adaptation n bandwidth now).1
    e₁.currentLayer = target ∧ e₁.enabled = e.enabled ∧ e₁.maxLayer = e.maxLayer ∧
      (target.value < n - 1 → e₁.lastLayerSwitchUs = now) := by
  intro target e₁
  have hle : target.value ≤ n - 1 := targetLayer_le hn adaptation bandwidth e.maxLayer
  have hcases : e₁ = if shouldSwitchLayer e target now then
      { e with currentLayer := target, lastLayerSwitchUs := now } else e := by
    simp only [e₁, updateLayer, gt_iff_lt, if_pos hmany]
    split_ifs <;> rfl
  by_cases heq : target = e.currentLayer
  · have hstay : e₁ = e := by
      rw [hcases, shouldSwitchLayer, if_pos heq]
      rfl
    rw [hstay]
    refine ⟨heq.symm, rfl, rfl, ?_⟩
    intro hlt
    rw [heq] at hlt
    omega
  · have hne : target.value ≠ e.currentLayer.value :=
      fun h => heq (value_injective h)
    have hlt : target.value < e.currentLayer.value := by omega
    have hswitch : e₁ = { e with currentLayer := target, lastLayerSwitchUs := now } := by
      rw [hcases, shouldSwitchLayer, if_neg heq, if_pos hlt]
      rfl
    rw [hswitch]
    exact ⟨rfl, rfl, rfl, fun _ => rfl⟩

/-- Alike entries stay alike under the layer decision, and stand on the same
layer after it. -/
theorem EntryAlike.updateLayer (hn : n ≤ 3) (h : EntryAlike n e e') (adaptation : Bool)
    (bandwidth now : ℤ) :
    EntryAlike n (updateLayer e adaptation n bandwidth now).1
        (updateLayer e' adaptation n bandwidth now).1 ∧
      (1 < n → (Sfu.updateLayer e adaptation n bandwidth now).1.currentLayer =
        (Sfu.updateLayer e' adaptation n bandwidth now).1.currentLayer) := by
  by_cases hmany : 1 < n
  · have htarget := targetLayer_alike hn adaptation bandwidth h.allowed
    have hcur := h.current
    by_cases hbelow : e.currentLayer.value < n - 1
    · have hlayer : e.currentLayer = e'.currentLayer :=
        value_injective (by omega)
      have hswitched := h.switched hbelow
      have hshould : shouldSwitchLayer e (targetLayer adaptation n bandwidth e.maxLayer) now =
          shouldSwitchLayer e' (targetLayer adaptation n bandwidth e'.maxLayer) now := by
        rw [shouldSwitchLayer, shouldSwitchLayer, htarget, hlayer, hswitched]
      simp only [Sfu.updateLayer, gt_iff_lt, if_pos hmany, hshould]
      split_ifs
      · refine ⟨?_, fun _ => htarget⟩
        exact
          { enabled := h.enabled
            allowed := h.allowed
            current := by rw [htarget]
            switched := fun _ => rfl }
      · exact ⟨h, fun _ => hlayer⟩
    · have htop : n - 1 ≤ e.currentLayer.value := by omega
      have htop' : n - 1 ≤ e'.currentLayer.value := by omega
      obtain ⟨hc, he, hm, hs⟩ := updateLayer_top hn hmany htop adaptation bandwidth now
      obtain ⟨hc', he', hm', hs'⟩ := updateLayer_top hn hmany htop' adaptation bandwidth now
      have hlayer := (hc.trans htarget).trans hc'.symm
      refine ⟨?_, fun _ => hlayer⟩
      exact
        { enabled := by rw [he, he', h.enabled]
          allowed := by rw [hm, hm', h.allowed]
          current := by rw [hlayer]
          switched := by
            intro hlt
            rw [hc] at hlt
            have hlt' := hlt
            rw [htarget] at hlt'
            rw [hs hlt, hs' hlt'] }
  · refine ⟨?_, fun hlt => absurd hlt hmany⟩
    simp only [Sfu.updateLayer, gt_iff_lt, if_neg hmany]
    exact h

end Entries

section Contexts

/-- Streams with the same SSRCs whose entries are alike for every receiver. -/
structure StreamAlike (s t : Stream) : Prop where
  ssrc : s.ssrc = t.ssrc
  active : s.active = t.active
  layerSsrcs : s.layerSsrcs = t.layerSsrcs
  layerCount : s.layerCount = t.layerCount
  byReceiver : ∀ r, EntryAlike s.layerCount (s.byReceiver r) (t.byReceiver r)

/-- Participants that differ at most in statistics and in what their streams
keep for receivers, and there they are alike. -/
structure ParticipantAlike (p q : Participant) : Prop where
  id : p.id = q.id
  active : p.active = q.active
  streams : List.Forall₂ StreamAlike p.streams q.streams
  availableBandwidth : p.availableBandwidth = q.availableBandwidth
  onPacket : p.onPacket = q.onPacket
  onKeyframeRequest : p.onKeyframeRequest = q.onKeyframeRequest

/-- Contexts that hand the same packets to the same receivers from now on. -/
structure Alike (s t : Context) : Prop where
  count : s.participantCount = t.participantCount
  max : s.maxParticipants = t.maxParticipants
  adaptation : s.enableBandwidthAdaptation = t.enableBandwidthAdaptation
  active : ∀ i, (s.participants i).active = (t.participants i).active
  participants : ∀ i, (s.participants i).active = true →
    ParticipantAlike (s.participants i) (t.participants i)

/-- Packets handed out, among the events of a call. -/
def packets (events : List Event) : List (Slot × ℕ × List UInt8) :=
  events.filterMap (fun ev =>
    match ev with
    | .packet i cb bytes => some (i, cb, bytes)
    | _ => none)

@[simp] theorem packets_append (xs ys : List Event) :
    packets (xs ++ ys) = packets xs ++ packets ys := by
  simp [packets]

variable {s t : Context}

theorem StreamAlike.refl (s : Stream) :
    StreamAlike s s where
  ssrc := rfl
  active := rfl
  layerSsrcs := rfl
  layerCount := rfl
  byReceiver := fun r => EntryAlike.refl s.layerCount (s.byReceiver r)

theorem StreamAlike.carries {a b : Stream} (h : StreamAlike a b) (ssrc : UInt32) :
    a.carries ssrc = b.carries ssrc := by
  simp [Stream.carries, Stream.layers, h.ssrc, h.active, h.layerSsrcs, h.layerCount]

theorem StreamAlike.setReceiver {a b : Stream} {e e' : ReceiverEntry} (h : StreamAlike a b)
    (r : Slot) (he : EntryAlike a.layerCount e e') :
    StreamAlike (a.setReceiver r e) (b.setReceiver r e') where
  ssrc := h.ssrc
  active := h.active
  layerSsrcs := h.layerSsrcs
  layerCount := h.layerCount
  byReceiver := by
    intro r'
    by_cases hr : r' = r
    · subst hr
      simpa [Stream.setReceiver] using he
    · simpa [Stream.setReceiver, hr] using h.byReceiver r'

namespace Alike

variable (h : Alike s t)
include h

theorem occupiedBy (id : ParticipantId) : s.occupiedBy id = t.occupiedBy id := by
  funext i
  rw [Context.occupiedBy, Context.occupiedBy, ← h.active i]
  cases hact : (s.participants i).active with
  | false => rfl
  | true => rw [(h.participants i hact).id]

theorem findParticipant (id : ParticipantId) :
    findParticipant s id = findParticipant t id := by
  rw [Sfu.findParticipant, Sfu.findParticipant, h.count, h.occupiedBy]

theorem getParticipantIndex (id : ParticipantId) :
    getParticipantIndex s id = getParticipantIndex t id := by
  rw [Sfu.getParticipantIndex, Sfu.getParticipantIndex, h.occupiedBy]

theorem freeSlot : freeSlot s = freeSlot t := by
  rw [Sfu.freeSlot, Sfu.freeSlot]
  simp [h.active]

theorem of_found {id : ParticipantId} {i : Slot} (hfound : Sfu.findParticipant s id = some i) :
    ParticipantAlike (s.participants i) (t.participants i) := by
  apply h.participants i
  have hocc := List.find?_some hfound
  simp only [Context.occupiedBy, Bool.and_eq_true] at hocc
  exact hocc.1

theorem setParticipant {p q : Participant} (i : Slot)
    (hact : p.active = q.active) (hpq : p.active = true → ParticipantAlike p q) :
    Alike (s.setParticipant i p) (t.setParticipant i q) where
  count := h.count
  max := h.max
  adaptation := h.adaptation
  active := by
    intro j
    by_cases hj : j = i
    · subst hj
      simpa [Context.setParticipant] using hact
    · simpa [Context.setParticipant, hj] using h.active j
  participants := by
    intro j hj
    by_cases hji : j = i
    · subst hji
      simp only [Context.setParticipant, update_self] at hj ⊢
      exact hpq hj
    · simp only [Context.setParticipant, update_of_ne hji] at hj ⊢
      exact h.participants j hj

end Alike

end Contexts

/-- The loop states of two alike contexts. -/
structure ForwardAlike (st st' : ForwardState) : Prop where
  sfu : Alike st.sfu st'.sfu
  stream : StreamAlike st.stream st'.stream
  packets : packets st.events = packets st'.events

/-- The entry of receiver `i` after the layer decision for a packet. -/
def decided (st : ForwardState) (out : Outgoing) (i : Slot) : ReceiverEntry :=
  (updateLayer (st.stream.byReceiver i) st.sfu.enableBandwidthAdaptation st.stream.layerCount
    (st.sfu.participants i).availableBandwidth out.nowUs).1

theorem updateLayer_unswitched {e : ReceiverEntry} {adaptation : Bool} {n : ℕ} {bandwidth now : ℤ}
    (h : (updateLayer e adaptation n bandwidth now).2 = false) :
    (updateLayer e adaptation n bandwidth now).1 = e := by
  simp only [updateLayer] at h ⊢
  split_ifs at h ⊢
  · rfl
  · rfl

theorem decideLayer_stream (st : ForwardState) (out : Outgoing) (i : Slot) :
    (decideLayer st out i).stream = st.stream.setReceiver i (decided st out i) := by
  rw [decideLayer]
  split_ifs with hswitch
  · rfl
  · rw [decided, updateLayer_unswitched (by simpa using hswitch), Stream.setReceiver,
      update_eq_self]

theorem decideLayer_packets (st : ForwardState) (out : Outgoing) (i : Slot) :
    packets (decideLayer st out i).events = packets st.events := by
  rw [decideLayer]
  split_ifs
  · cases (st.sfu.participants out.sender).onKeyframeRequest with
    | none => simp
    | some cb => simp [packets]
  · rfl

theorem decideLayer_sfu (st : ForwardState) (out : Outgoing) (i : Slot) :
    ∃ k, (decideLayer st out i).sfu = { st.sfu with totalLayerSwitches := k } := by
  rw [decideLayer]
  split_ifs
  · exact ⟨_, rfl⟩
  · exact ⟨st.sfu.totalLayerSwitches, rfl⟩

theorem Alike.with_totals {s t : Context} (h : Alike s t) (a b c a' b' c' : ℕ) :
    Alike { s with totalLayerSwitches := a, totalPacketsRouted := b, totalBytesRouted := c }
      { t with totalLayerSwitches := a', totalPacketsRouted := b', totalBytesRouted := c' } where
  count := h.count
  max := h.max
  adaptation := h.adaptation
  active := h.active
  participants := h.participants

namespace ForwardAlike

variable {st st' : ForwardState}

variable (h : ForwardAlike st st')
include h

theorem eligible (sender i : Slot) :
    eligible st.sfu st.stream sender i = eligible st'.sfu st'.stream sender i := by
  simp only [Sfu.eligible, ← h.sfu.active i, ← (h.stream.byReceiver i).enabled]
  cases hact : (st.sfu.participants i).active with
  | false => rfl
  | true => rw [(h.sfu.participants i hact).onPacket]

variable (out : Outgoing)
include out

theorem decided {i : Slot} (hact : (st.sfu.participants i).active = true) :
    EntryAlike st.stream.layerCount (decided st out i) (decided st' out i) ∧
      (1 < st.stream.layerCount →
        (Sfu.decided st out i).currentLayer = (Sfu.decided st' out i).currentLayer) := by
  rw [Sfu.decided, Sfu.decided, ← h.sfu.adaptation, ← h.stream.layerCount,
    ← (h.sfu.participants i hact).availableBandwidth]
  exact (h.stream.byReceiver i).updateLayer st.stream.layerCount_le _ _ _

theorem decideLayer {i : Slot} (hact : (st.sfu.participants i).active = true) :
    ForwardAlike (decideLayer st out i) (decideLayer st' out i) where
  sfu := by
    obtain ⟨k, hk⟩ := decideLayer_sfu st out i
    obtain ⟨k', hk'⟩ := decideLayer_sfu st' out i
    rw [hk, hk']
    exact h.sfu.with_totals k _ _ k' _ _
  stream := by
    rw [decideLayer_stream, decideLayer_stream]
    exact h.stream.setReceiver i (h.decided out hact).1
  packets := by
    rw [decideLayer_packets, decideLayer_packets]
    exact h.packets

theorem shouldForward {i : Slot} (hact : (st.sfu.participants i).active = true) :
    shouldForward (Sfu.decideLayer st out i).stream
        ((Sfu.decideLayer st out i).stream.byReceiver i) out.ssrc =
      shouldForward (Sfu.decideLayer st' out i).stream
        ((Sfu.decideLayer st' out i).stream.byReceiver i) out.ssrc := by
  rw [decideLayer_stream, decideLayer_stream]
  simp only [Sfu.shouldForward, Stream.setReceiver, update_self, ← h.stream.layerCount,
    ← h.stream.layerSsrcs]
  split_ifs with hone
  · rfl
  · have hpos := st.stream.layerCount_pos
    rw [(h.decided out hact).2 (by omega)]

theorem deliver {i : Slot} (hact : (st.sfu.participants i).active = true) :
    ForwardAlike (deliver st out i) (deliver st' out i) where
  sfu := by
    have hp := h.sfu.participants i hact
    exact h.sfu.setParticipant i hp.active (fun _ =>
      { id := hp.id
        active := hp.active
        streams := hp.streams
        availableBandwidth := hp.availableBandwidth
        onPacket := hp.onPacket
        onKeyframeRequest := hp.onKeyframeRequest })
  stream :=
    { ssrc := h.stream.ssrc
      active := h.stream.active
      layerSsrcs := h.stream.layerSsrcs
      layerCount := h.stream.layerCount
      byReceiver := h.stream.byReceiver }
  packets := by
    simp [Sfu.deliver, h.packets, (h.sfu.participants i hact).onPacket]

theorem forwardTo (i : Slot) :
    ForwardAlike (forwardTo out st i) (forwardTo out st' i) := by
  rw [Sfu.forwardTo, Sfu.forwardTo, ← h.eligible out.sender i]
  cases heligible : Sfu.eligible st.sfu st.stream out.sender i with
  | false => exact h
  | true =>
    have hact : (st.sfu.participants i).active = true := by
      simp only [Sfu.eligible, Bool.and_eq_true] at heligible
      exact heligible.1.1.1
    have hact' : ((Sfu.decideLayer st out i).sfu.participants i).active = true := by
      obtain ⟨k, hk⟩ := decideLayer_sfu st out i
      rw [hk]
      exact hact
    have hdecided := h.decideLayer out hact
    rw [if_pos rfl, if_pos rfl]
    dsimp only
    rw [← h.shouldForward out hact]
    split_ifs
    · exact hdecided.deliver out hact'
    · exact hdecided

theorem foldl (slots : List Slot) :
    ForwardAlike (slots.foldl (Sfu.forwardTo out) st) (slots.foldl (Sfu.forwardTo out) st') := by
  induction slots generalizing st st' with
  | nil => exact h
  | cons i slots ih => exact ih (h.forwardTo out i)

omit out

omit h

theorem forwardAll {s t : Context} {a b : Stream} (h : Alike s t) (hab : StreamAlike a b)
    (out : Outgoing) : ForwardAlike (forwardAll s a out) (forwardAll t b out) := by
  rw [Sfu.forwardAll, Sfu.forwardAll]
  apply ForwardAlike.foldl
  exact { sfu := h, stream := hab, packets := rfl }

end ForwardAlike

section Calls

variable {s t : Context}

/-- Two results with alike contexts and the same packets. -/
def SameOutcome (r r' : Context × Answer) : Prop :=
  Alike r.1 r'.1 ∧ packets r.2.events = packets r'.2.events

namespace Alike

variable (h : Alike s t)
include h

theorem addParticipant (id : ParticipantId) :
    SameOutcome (addParticipant s id) (addParticipant t id) := by
  rw [Sfu.addParticipant, Sfu.addParticipant, ← h.findParticipant, ← h.count, ← h.max, ← h.freeSlot]
  split_ifs
  · exact ⟨h, rfl⟩
  · exact ⟨h, rfl⟩
  · exact ⟨h, rfl⟩
  · cases Sfu.freeSlot s with
    | none => exact ⟨h, rfl⟩
    | some i =>
      refine ⟨?_, rfl⟩
      have hset := h.setParticipant (p := newParticipant id) (q := newParticipant id) i rfl
        (fun _ =>
          { id := rfl
            active := rfl
            streams := .nil
            availableBandwidth := rfl
            onPacket := rfl
            onKeyframeRequest := rfl })
      exact
        { count := rfl
          max := hset.max
          adaptation := hset.adaptation
          active := hset.active
          participants := hset.participants }

theorem removeParticipant (id : ParticipantId) :
    SameOutcome (removeParticipant s id) (removeParticipant t id) := by
  rw [Sfu.removeParticipant, Sfu.removeParticipant, ← h.findParticipant]
  cases Sfu.findParticipant s id with
  | none => exact ⟨h, rfl⟩
  | some i =>
    refine ⟨?_, rfl⟩
    have hset := h.setParticipant (p := { s.participants i with active := false })
      (q := { t.participants i with active := false }) i rfl (fun hfalse => by cases hfalse)
    exact
      { count := by rw [h.count]
        max := hset.max
        adaptation := hset.adaptation
        active := hset.active
        participants := hset.participants }

theorem withParticipant {f g : Participant → Participant} (id : ParticipantId)
    (hfg : ∀ p q, ParticipantAlike p q → ParticipantAlike (f p) (g q)) :
    Alike (withParticipant s id f) (withParticipant t id g) := by
  rw [Sfu.withParticipant, Sfu.withParticipant, ← h.findParticipant]
  cases hfound : Sfu.findParticipant s id with
  | none => exact h
  | some i =>
    have hp := hfg _ _ (h.of_found hfound)
    exact h.setParticipant i hp.active (fun _ => hp)

theorem setStreams {id : ParticipantId} {i : Slot} {xs ys : List Stream}
    (hfound : Sfu.findParticipant s id = some i) (hstreams : List.Forall₂ StreamAlike xs ys) :
    Alike (s.setParticipant i { s.participants i with streams := xs })
      (t.setParticipant i { t.participants i with streams := ys }) := by
  have hp := h.of_found hfound
  exact h.setParticipant i hp.active (fun _ =>
    { id := hp.id
      active := hp.active
      streams := hstreams
      availableBandwidth := hp.availableBandwidth
      onPacket := hp.onPacket
      onKeyframeRequest := hp.onKeyframeRequest })

theorem addStream (id : ParticipantId) (ssrc : UInt32)
    (layers : Option (List UInt32)) (n : ℤ) :
    SameOutcome (addStream s id ssrc layers n) (addStream t id ssrc layers n) := by
  rw [Sfu.addStream, Sfu.addStream, ← h.findParticipant]
  cases hfound : Sfu.findParticipant s id with
  | none => exact ⟨h, rfl⟩
  | some i =>
    have hstreams := (h.of_found hfound).streams
    dsimp only
    rw [← hstreams.length_eq]
    split_ifs
    · exact ⟨h, rfl⟩
    · exact ⟨h.setStreams hfound
        (List.rel_append hstreams (.cons (StreamAlike.refl _) .nil)), rfl⟩

theorem removeStream (id : ParticipantId) (ssrc : UInt32) :
    SameOutcome (removeStream s id ssrc) (removeStream t id ssrc) := by
  rw [Sfu.removeStream, Sfu.removeStream, ← h.findParticipant]
  cases hfound : Sfu.findParticipant s id with
  | none => exact ⟨h, rfl⟩
  | some i =>
    have hstreams := (h.of_found hfound).streams
    have hidx := findIdx?_eq
      (p := fun s => s.active && s.ssrc == ssrc) (q := fun s => s.active && s.ssrc == ssrc)
      (fun a b hab => by rw [hab.active, hab.ssrc]) hstreams
    dsimp only
    rw [← hidx]
    split
    · exact ⟨h, rfl⟩
    · exact ⟨h.setStreams hfound (eraseIdx hstreams _), rfl⟩

omit h

theorem findStreamBySsrc {p q : Participant} (h : ParticipantAlike p q) (ssrc : UInt32) :
    findStreamBySsrc p ssrc = findStreamBySsrc q ssrc :=
  findIdx?_eq (fun _ _ hab => hab.carries ssrc) h.streams

theorem setReceiverStreamPolicy (h : Alike s t) (receiverId senderId : ParticipantId)
    (ssrc : UInt32) (enabled : Bool) (maxLayer : ℤ) :
    SameOutcome (setReceiverStreamPolicy s receiverId senderId ssrc enabled maxLayer)
      (setReceiverStreamPolicy t receiverId senderId ssrc enabled maxLayer) := by
  rw [Sfu.setReceiverStreamPolicy, Sfu.setReceiverStreamPolicy, ← h.getParticipantIndex,
    ← h.findParticipant]
  split_ifs
  · exact ⟨h, rfl⟩
  · cases Sfu.getParticipantIndex s receiverId with
    | none => exact ⟨h, rfl⟩
    | some r =>
      cases hfound : Sfu.findParticipant s senderId with
      | none => exact ⟨h, rfl⟩
      | some j =>
        have hp := h.of_found hfound
        dsimp only
        rw [← findStreamBySsrc hp ssrc]
        split
        · exact ⟨h, rfl⟩
        · refine ⟨h.setStreams hfound (modify ?_ hp.streams _), rfl⟩
          intro a b hab
          have hent := hab.byReceiver r
          exact hab.setReceiver r
            { enabled := rfl
              allowed := rfl
              current := hent.current
              switched := hent.switched }

theorem afterLoop {st st' : ForwardState} (h : ForwardAlike st st') (out : Outgoing) (k : ℕ) :
    Alike (afterLoop st out k) (afterLoop st' out k) := by
  have hset : Alike (st.sfu.setParticipant out.sender
        { st.sfu.participants out.sender with
          streams := (st.sfu.participants out.sender).streams.set k st.stream })
      (st'.sfu.setParticipant out.sender
        { st'.sfu.participants out.sender with
          streams := (st'.sfu.participants out.sender).streams.set k st'.stream }) := by
    refine h.sfu.setParticipant out.sender ?_ ?_
    · exact h.sfu.active out.sender
    intro hact
    have hp := h.sfu.participants out.sender hact
    exact
      { id := hp.id
        active := hp.active
        streams := set h.stream hp.streams k
        availableBandwidth := hp.availableBandwidth
        onPacket := hp.onPacket
        onKeyframeRequest := hp.onKeyframeRequest }
  exact
    { count := hset.count
      max := hset.max
      adaptation := hset.adaptation
      active := hset.active
      participants := hset.participants }

theorem countReceived {p q : Participant} (h : ParticipantAlike p q) (k len : ℕ) :
    ParticipantAlike (countReceived p k len) (countReceived q k len) where
  id := h.id
  active := h.active
  streams := by
    apply modify _ h.streams
    intro a b hab
    exact
      { ssrc := hab.ssrc
        active := hab.active
        layerSsrcs := hab.layerSsrcs
        layerCount := hab.layerCount
        byReceiver := hab.byReceiver }
  availableBandwidth := h.availableBandwidth
  onPacket := h.onPacket
  onKeyframeRequest := h.onKeyframeRequest

theorem forwardPacket (h : Alike s t) (id : ParticipantId) (packet : List UInt8) (now : ℤ) :
    SameOutcome (forwardPacket s id packet now) (forwardPacket t id packet now) := by
  rw [Sfu.forwardPacket, Sfu.forwardPacket, ← h.findParticipant]
  cases hfound : Sfu.findParticipant s id with
  | none => exact ⟨h, rfl⟩
  | some j =>
    cases parseRtpSsrc packet with
    | none => exact ⟨h, rfl⟩
    | some ssrc =>
      have hp := h.of_found hfound
      dsimp only
      rw [← findStreamBySsrc hp ssrc]
      cases Sfu.findStreamBySsrc (s.participants j) ssrc with
      | none => exact ⟨h, rfl⟩
      | some k =>
        have hcount := countReceived hp k packet.length
        dsimp only
        obtain ⟨hnone, hnone'⟩ | ⟨a, b, ha, hb, hab⟩ := getElem? hcount.streams k
        · rw [hnone, hnone']
          exact ⟨h, rfl⟩
        · rw [ha, hb]
          have hloop := ForwardAlike.forwardAll
            (h.setParticipant j hcount.active (fun _ => hcount)) hab
            { sender := j, packet := packet, ssrc := ssrc, nowUs := now }
          refine ⟨?_, ?_⟩
          · exact afterLoop hloop _ k
          · dsimp only
            exact hloop.packets

theorem requestKeyframe (h : Alike s t) (id : ParticipantId) (ssrc : UInt32) :
    SameOutcome (requestKeyframe s id ssrc) (requestKeyframe t id ssrc) := by
  rw [Sfu.requestKeyframe, Sfu.requestKeyframe, ← h.findParticipant]
  cases hfound : Sfu.findParticipant s id with
  | none => exact ⟨h, rfl⟩
  | some i =>
    dsimp only
    rw [← (h.of_found hfound).onKeyframeRequest]
    split <;> exact ⟨h, rfl⟩

theorem step (s t : Context) (op : Op) (h : Alike s t) :
    Alike (machine.next s op) (machine.next t op) ∧
      packets (machine.answer s op).events = packets (machine.answer t op).events := by
  cases op with
  | addParticipant id => exact h.addParticipant id
  | removeParticipant id => exact h.removeParticipant id
  | setParticipantBandwidth id bw now =>
    refine ⟨?_, rfl⟩
    change Alike (setParticipantBandwidth s id bw now) (setParticipantBandwidth t id bw now)
    apply h.withParticipant id
    intro p q hpq
    exact { hpq with availableBandwidth := rfl }
  | setParticipantCallback id cb =>
    refine ⟨?_, rfl⟩
    change Alike (setParticipantCallback s id cb) (setParticipantCallback t id cb)
    apply h.withParticipant id
    intro p q hpq
    exact { hpq with onPacket := rfl }
  | setParticipantKeyframeCallback id cb =>
    refine ⟨?_, rfl⟩
    change Alike (setParticipantKeyframeCallback s id cb) (setParticipantKeyframeCallback t id cb)
    apply h.withParticipant id
    intro p q hpq
    exact { hpq with onKeyframeRequest := rfl }
  | addStream id ssrc layers n => exact h.addStream id ssrc layers n
  | removeStream id ssrc => exact h.removeStream id ssrc
  | setReceiverStreamPolicy r id ssrc enabled maxLayer =>
    exact h.setReceiverStreamPolicy r id ssrc enabled maxLayer
  | forwardPacket id packet now => exact h.forwardPacket id packet now
  | requestKeyframe id ssrc => exact h.requestKeyframe id ssrc
  | setSimulcastEnabled enabled => exact ⟨{ h with }, rfl⟩
  | setBandwidthAdaptationEnabled enabled => exact ⟨{ h with adaptation := rfl }, rfl⟩

end Alike

end Calls

variable {i : Slot} {s t : Context}

/-- Streams that agree on everything but the entry of slot `i`. -/
structure StreamAgree (i : Slot) (a b : Stream) : Prop where
  ssrc : a.ssrc = b.ssrc
  active : a.active = b.active
  layerSsrcs : a.layerSsrcs = b.layerSsrcs
  layerCount : a.layerCount = b.layerCount
  byReceiver : ∀ r, r ≠ i → a.byReceiver r = b.byReceiver r

/-- Contexts in which slot `i` is free and which differ only in what earlier
occupants of that slot left behind: its dead record, the entries that streams
keep for it, and statistics. -/
structure AgreeOutside (i : Slot) (s t : Context) : Prop where
  count : s.participantCount = t.participantCount
  max : s.maxParticipants = t.maxParticipants
  adaptation : s.enableBandwidthAdaptation = t.enableBandwidthAdaptation
  free : (s.participants i).active = false
  active : ∀ j, (s.participants j).active = (t.participants j).active
  id : ∀ j, (s.participants j).active = true → (s.participants j).id = (t.participants j).id
  availableBandwidth : ∀ j, (s.participants j).active = true →
    (s.participants j).availableBandwidth = (t.participants j).availableBandwidth
  onPacket : ∀ j, (s.participants j).active = true →
    (s.participants j).onPacket = (t.participants j).onPacket
  onKeyframeRequest : ∀ j, (s.participants j).active = true →
    (s.participants j).onKeyframeRequest = (t.participants j).onKeyframeRequest
  streams : ∀ j, (s.participants j).active = true →
    List.Forall₂ (StreamAgree i) (s.participants j).streams (t.participants j).streams

/-- The entry says nothing that a fresh one would not say: enabled, allowed up
to the top layer of the stream, and on that layer. -/
def AsNew (n : ℕ) (e : ReceiverEntry) : Prop :=
  e.enabled = true ∧ n - 1 ≤ e.maxLayer.value ∧ n - 1 ≤ e.currentLayer.value

instance (n : ℕ) (e : ReceiverEntry) : Decidable (AsNew n e) :=
  inferInstanceAs (Decidable (_ ∧ _))

/-- No stream of a participant present still holds a policy or a layer for slot
`i`. -/
def NoTrace (i : Slot) (s : Context) : Prop :=
  ∀ j, (s.participants j).active = true →
    ∀ a ∈ (s.participants j).streams, AsNew a.layerCount (a.byReceiver i)

/-- Packets handed to slot `i` along a run. -/
def deliveredTo (i : Slot) (s : Context) (ops : List Op) : List (ℕ × List UInt8) :=
  machine.observe (fun answer => (packets answer.events).filterMap
      (fun d => if d.1 = i then some d.2 else none)) s ops

theorem AsNew.alike {n : ℕ} {e e' : ReceiverEntry} (h : AsNew n e) (h' : AsNew n e') :
    EntryAlike n e e' where
  enabled := h.1.trans h'.1.symm
  allowed := by
    rw [min_eq_right h.2.1, min_eq_right h'.2.1]
  current := by
    rw [min_eq_right h.2.2, min_eq_right h'.2.2]
  switched := fun hlt => absurd h.2.2 (by omega)

theorem AgreeOutside.alike (h : AgreeOutside i s t) (hs : NoTrace i s) (ht : NoTrace i t) :
    Alike s t where
  count := h.count
  max := h.max
  adaptation := h.adaptation
  active := h.active
  participants := by
    intro j hj
    refine
      { id := h.id j hj
        active := h.active j
        streams := ?_
        availableBandwidth := h.availableBandwidth j hj
        onPacket := h.onPacket j hj
        onKeyframeRequest := h.onKeyframeRequest j hj }
    have hj' : (t.participants j).active = true := by
      rw [← h.active j]
      exact hj
    have hagree := h.streams j hj
    rw [List.forall₂_iff_get] at hagree ⊢
    refine ⟨hagree.1, ?_⟩
    intro k hk hk'
    have hab := hagree.2 k hk hk'
    have hnew := hs j hj _ (List.get_mem _ ⟨k, hk⟩)
    have hnew' := ht j hj' _ (List.get_mem _ ⟨k, hk'⟩)
    refine
      { ssrc := hab.ssrc
        active := hab.active
        layerSsrcs := hab.layerSsrcs
        layerCount := hab.layerCount
        byReceiver := ?_ }
    intro r
    by_cases hr : r = i
    · subst hr
      rw [← hab.layerCount] at hnew'
      exact hnew.alike hnew'
    · rw [hab.byReceiver r hr]
      exact EntryAlike.refl _ _

/-- **Receivers are isolated where the slot was left without a trace.**  Take two
runs whose contexts differ only in what earlier occupants of slot `i` left
behind, and let the same calls follow, in which somebody joins in slot `i`.
If no stream still held a policy or a layer for the slot, the newcomer gets the
same packets after both. -/
theorem receiver_isolated_of_noTrace (maxParticipants : ℤ) (earlier earlier' later : List Op)
    (i : Slot)
    (hagree : AgreeOutside i (machine.run (create maxParticipants) earlier)
      (machine.run (create maxParticipants) earlier'))
    (hclean : NoTrace i (machine.run (create maxParticipants) earlier))
    (hclean' : NoTrace i (machine.run (create maxParticipants) earlier')) :
    deliveredTo i (machine.run (create maxParticipants) earlier) later =
      deliveredTo i (machine.run (create maxParticipants) earlier') later := by
  apply machine.observe_eq_of_related (R := Alike)
  · intro s t op h
    obtain ⟨hnext, hpackets⟩ := Alike.step s t op h
    refine ⟨hnext, ?_⟩
    rw [hpackets]
  · exact hagree.alike hclean hclean'

/-- Somebody sends one stream of a single layer. -/
def senderPresent : List Op :=
  [.addParticipant [83], .addStream [83] 1 none 0]

/-- After that, somebody else comes, gets a policy for the stream and leaves. -/
def visitorLeft (enabled : Bool) : List Op :=
  senderPresent ++ [.addParticipant [65], .setReceiverStreamPolicy [65] [83] 1 enabled 2,
      .removeParticipant [65]]

/-- Then a newcomer joins, and a packet of the stream is forwarded. -/
def newcomerWaits : List Op :=
  [.addParticipant [66], .setParticipantCallback [66] (some 7),
    .forwardPacket [83] [0x80, 0, 0, 0, 0, 0, 0, 0, 0, 0, 0, 1] 5000000]

theorem visitor_agreeOutside (enabled : Bool) :
    AgreeOutside ⟨1, by decide⟩ (machine.run (create 10) senderPresent)
      (machine.run (create 10) (visitorLeft enabled)) := by
  have honly : ∀ j : Slot, ((machine.run (create 10) senderPresent).participants j).active = true →
        j = ⟨0, by decide⟩ := by
    decide
  cases enabled <;>
  exact
    { count := by decide
      max := by decide
      adaptation := by decide
      free := by decide
      active := by decide
      id := by decide
      availableBandwidth := by decide
      onPacket := by decide
      onKeyframeRequest := by decide
      streams := by
        intro j hj
        rw [honly j hj]
        exact .cons ⟨by decide, by decide, rfl, by decide, by decide⟩ .nil }

/-- A visitor whom a policy kept from the stream leaves that policy to the
newcomer in the same slot: no packet reaches it. -/
theorem newcomer_inherits_policy :
    ¬ ∀ (maxParticipants : ℤ) (earlier earlier' later : List Op) (i : Slot),
      AgreeOutside i (machine.run (create maxParticipants) earlier)
        (machine.run (create maxParticipants) earlier') →
      deliveredTo i (machine.run (create maxParticipants) earlier) later =
        deliveredTo i (machine.run (create maxParticipants) earlier') later := by
  intro h
  have hsame := h 10 senderPresent (visitorLeft false) newcomerWaits ⟨1, by decide⟩
    (visitor_agreeOutside false)
  revert hsame
  decide +kernel

/-- A visitor who was allowed everything leaves no trace. -/
theorem receiver_isolated_after_visitor :
    deliveredTo ⟨1, by decide⟩ (machine.run (create 10) senderPresent) newcomerWaits =
      deliveredTo ⟨1, by decide⟩ (machine.run (create 10) (visitorLeft true)) newcomerWaits := by
  have honly : ∀ j : Slot,
      ((machine.run (create 10) (visitorLeft true)).participants j).active = true →
        j = ⟨0, by decide⟩ := by
    decide
  apply receiver_isolated_of_noTrace 10 senderPresent (visitorLeft true) newcomerWaits
  · exact visitor_agreeOutside true
  · intro j hj
    rw [(visitor_agreeOutside true).active j] at hj
    rw [honly j hj]
    decide
  · intro j hj
    rw [honly j hj]
    decide

end TurboMedia.Sfu
