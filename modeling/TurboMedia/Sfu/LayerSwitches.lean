import TurboMedia.Sfu.Isolation

/-!
# Layer switches

A receiver that looks at a packet of a stream with layers gets it exactly when it comes on
the layer that was chosen for the receiver, and two switches to a higher layer are two
seconds apart.

**Method.**  The turns of the loop concern different receivers, so each receiver gets what
a turn from the state before the loop gives it (`Turned`).  Over a run the times of the
switches upward are kept beside each stream (`Watched`).
-/

namespace TurboMedia.Sfu

open List Function Context

section Loop

/-- The packets that are handed to receiver `i`. -/
def received (i : Slot) (events : List Event) : List (Slot × ℕ × List UInt8) :=
  (packets events).filter (fun p => p.1 == i)

/-- The entry of receiver `i` behind the loop. -/
def entryAfter (sfu : Context) (s : Stream) (out : Outgoing) (i : Slot) : ReceiverEntry :=
  if eligible sfu s out.sender i then
    (updateLayer (s.byReceiver i) sfu.enableBandwidthAdaptation s.layerCount
      (sfu.participants i).availableBandwidth out.nowUs).1
  else s.byReceiver i

/-- What receiver `i` is handed in the loop. -/
def handed (sfu : Context) (s : Stream) (out : Outgoing) (i : Slot) :
    List (Slot × ℕ × List UInt8) :=
  if eligible sfu s out.sender i ∧ shouldForward s (entryAfter sfu s out i) out.ssrc then
    ((sfu.participants i).onPacket.map (fun cb => (i, cb, out.packet))).toList
  else []

/-- What no turn of the loop changes. -/
structure Kept (st st' : ForwardState) : Prop where
  layerCount : st'.stream.layerCount = st.stream.layerCount
  layerSsrcs : st'.stream.layerSsrcs = st.stream.layerSsrcs
  adaptation : st'.sfu.enableBandwidthAdaptation = st.sfu.enableBandwidthAdaptation
  participant : ∀ i, (st'.sfu.participants i).active = (st.sfu.participants i).active ∧
    (st'.sfu.participants i).onPacket = (st.sfu.participants i).onPacket ∧
    (st'.sfu.participants i).availableBandwidth = (st.sfu.participants i).availableBandwidth

variable {st st' : ForwardState} {out : Outgoing} {i n : Slot}

/-- The loop had its turn for the receivers of `slots`. -/
structure Turned (st st' : ForwardState) (out : Outgoing) (slots : List Slot) : Prop
    extends Kept st st' where
  streams : ∀ n, (st'.sfu.participants n).streams = (st.sfu.participants n).streams
  entry : ∀ n, st'.stream.byReceiver n =
    if n ∈ slots then entryAfter st.sfu st.stream out n else st.stream.byReceiver n
  received : ∀ n, received n st'.events = received n st.events ++
    if n ∈ slots then handed st.sfu st.stream out n else []

theorem Kept.trans {st'' : ForwardState} (h : Kept st st') (h' : Kept st' st'') : Kept st st'' where
  layerCount := h'.layerCount.trans h.layerCount
  layerSsrcs := h'.layerSsrcs.trans h.layerSsrcs
  adaptation := h'.adaptation.trans h.adaptation
  participant := fun n => ⟨(h'.participant n).1.trans (h.participant n).1,
    (h'.participant n).2.1.trans (h.participant n).2.1,
    (h'.participant n).2.2.trans (h.participant n).2.2⟩

theorem Kept.eligible (h : Kept st st')
    (hent : st'.stream.byReceiver n = st.stream.byReceiver n) (sender : Slot) :
    eligible st'.sfu st'.stream sender n = eligible st.sfu st.stream sender n := by
  obtain ⟨hact, hpkt, -⟩ := h.participant n
  rw [Sfu.eligible, Sfu.eligible, hact, hpkt, hent]

theorem Kept.entryAfter (h : Kept st st')
    (hent : st'.stream.byReceiver n = st.stream.byReceiver n) (out : Outgoing) :
    entryAfter st'.sfu st'.stream out n = entryAfter st.sfu st.stream out n := by
  rw [Sfu.entryAfter, Sfu.entryAfter, h.eligible hent, hent, h.adaptation, h.layerCount,
    (h.participant n).2.2]

theorem Kept.handed (h : Kept st st')
    (hent : st'.stream.byReceiver n = st.stream.byReceiver n) (out : Outgoing) :
    handed st'.sfu st'.stream out n = handed st.sfu st.stream out n := by
  rw [Sfu.handed, Sfu.handed, h.eligible hent, h.entryAfter hent, shouldForward,
    shouldForward, h.layerCount, h.layerSsrcs, (h.participant n).2.1]

theorem turned_nil (st : ForwardState) (out : Outgoing) : Turned st st out [] where
  layerCount := rfl
  layerSsrcs := rfl
  adaptation := rfl
  participant := fun _ => ⟨rfl, rfl, rfl⟩
  streams := fun _ => rfl
  entry := fun _ => rfl
  received := fun _ => (append_nil _).symm

theorem decideLayer_kept (st : ForwardState) (out : Outgoing) (i : Slot) :
    Kept st (decideLayer st out i) ∧ ∀ n, ((decideLayer st out i).sfu.participants n).streams =
        (st.sfu.participants n).streams := by
  obtain ⟨k, hsfu⟩ := decideLayer_sfu st out i
  have hstream := decideLayer_stream st out i
  refine ⟨⟨?_, ?_, ?_, fun n => ?_⟩, fun n => by rw [hsfu]⟩
  · rw [hstream]
    rfl
  · rw [hstream]
    rfl
  · rw [hsfu]
  · rw [hsfu]
    exact ⟨rfl, rfl, rfl⟩

theorem deliver_kept (st : ForwardState) (out : Outgoing) (i : Slot) :
    Kept st (deliver st out i) ∧
      ∀ n, ((deliver st out i).sfu.participants n).streams = (st.sfu.participants n).streams := by
  have hsame : ∀ n, ((deliver st out i).sfu.participants n) = st.sfu.participants n ∨ n = i := by
    intro n
    by_cases hn : n = i
    · exact .inr hn
    · exact .inl (update_of_ne hn ..)
  have hself : (deliver st out i).sfu.participants i = { st.sfu.participants i with
      totalPacketsSent := (st.sfu.participants i).totalPacketsSent + 1
      totalBytesSent := (st.sfu.participants i).totalBytesSent + out.packet.length } :=
    update_self ..
  refine ⟨⟨rfl, rfl, rfl, fun n => ?_⟩, fun n => ?_⟩
  · rcases hsame n with hn | rfl
    · rw [hn]
      exact ⟨rfl, rfl, rfl⟩
    · rw [hself]
      exact ⟨rfl, rfl, rfl⟩
  · rcases hsame n with hn | rfl
    · rw [hn]
    · rw [hself]

theorem received_deliver (st : ForwardState) (out : Outgoing) (i n : Slot) :
    received n (deliver st out i).events = received n st.events ++ if n ∈ [i] then
      ((st.sfu.participants i).onPacket.map (fun cb => (i, cb, out.packet))).toList else [] := by
  rw [received, received, deliver, packets_append, filter_append]
  congr 1
  cases (st.sfu.participants i).onPacket with
  | none => simp [packets]
  | some cb =>
    by_cases hn : n = i
    · simp [packets, hn]
    · simp [packets, hn, Ne.symm hn]

theorem turned_one (st : ForwardState) (out : Outgoing) (i : Slot) :
    Turned st (forwardTo out st i) out [i] := by
  obtain ⟨hkept, hstreams⟩ := decideLayer_kept st out i
  have hrecv : ∀ n, received n (decideLayer st out i).events = received n st.events :=
    fun n => congrArg (List.filter _) (decideLayer_packets st out i)
  rw [forwardTo]
  by_cases heligible : eligible st.sfu st.stream out.sender i = true
  · have hnow : entryAfter st.sfu st.stream out i = decided st out i := if_pos heligible
    have hent : ∀ n, (decideLayer st out i).stream.byReceiver n =
        if n ∈ [i] then entryAfter st.sfu st.stream out n else st.stream.byReceiver n := by
      intro n
      rw [decideLayer_stream]
      split
      next hn =>
        cases mem_singleton.mp hn
        rw [hnow]
        exact update_self ..
      next hn => exact update_of_ne (fun h => hn (mem_singleton.mpr h)) ..
    have hforward : shouldForward (decideLayer st out i).stream
        ((decideLayer st out i).stream.byReceiver i) out.ssrc =
        shouldForward st.stream (entryAfter st.sfu st.stream out i) out.ssrc := by
      rw [hent, if_pos (mem_singleton_self i), shouldForward, shouldForward,
        hkept.layerCount, hkept.layerSsrcs]
    rw [if_pos heligible]
    dsimp only
    rw [hforward]
    split
    next hpass =>
      obtain ⟨hdel, hstreams'⟩ := deliver_kept (decideLayer st out i) out i
      refine ⟨hkept.trans hdel, fun n => (hstreams' n).trans (hstreams n), hent,
        fun n => ?_⟩
      rw [received_deliver, hrecv, (hkept.participant i).2.1]
      by_cases hn : n ∈ [i]
      · rw [if_pos hn, if_pos hn]
        cases mem_singleton.mp hn
        rw [handed, if_pos ⟨heligible, hpass⟩]
      · rw [if_neg hn, if_neg hn]
    next hpass =>
      refine ⟨hkept, hstreams, hent, fun n => ?_⟩
      rw [hrecv]
      split
      next hn =>
        cases mem_singleton.mp hn
        rw [handed, if_neg (fun h => hpass h.2), append_nil]
      · rw [append_nil]
  · rw [if_neg heligible]
    refine ⟨(turned_nil st out).toKept, fun _ => rfl, fun n => ?_, fun n => ?_⟩
    · split_ifs with hn
      · cases mem_singleton.mp hn
        exact (if_neg heligible).symm
      · rfl
    · split_ifs with hn
      · cases mem_singleton.mp hn
        rw [handed, if_neg (fun h => heligible h.1), append_nil]
      · rw [append_nil]

theorem Turned.append {xs ys : List Slot} {st'' : ForwardState} (h : Turned st st' out xs)
    (h' : Turned st' st'' out ys) (hapart : ∀ n ∈ ys, n ∉ xs) : Turned st st'' out (xs ++ ys) := by
  have hsame : ∀ n ∈ ys, st'.stream.byReceiver n = st.stream.byReceiver n := by
    intro n hn
    rw [h.entry, if_neg (hapart n hn)]
  constructor
  · exact h.toKept.trans h'.toKept
  · exact fun n => (h'.streams n).trans (h.streams n)
  · intro n
    rw [h'.entry]
    split
    next hn => rw [if_pos (mem_append_right _ hn), h.toKept.entryAfter (hsame n hn)]
    next hn =>
      rw [h.entry]
      simp [hn]
  · intro n
    rw [h'.received, h.received, append_assoc]
    by_cases hn : n ∈ ys
    · rw [if_pos hn, if_neg (hapart n hn), if_pos (mem_append_right _ hn),
        h.toKept.handed (hsame n hn), nil_append]
    · simp [hn]

theorem turned_foldl {slots : List Slot} (h : slots.Nodup) (st : ForwardState) (out : Outgoing) :
    Turned st (slots.foldl (forwardTo out) st) out slots := by
  induction slots generalizing st with
  | nil => exact turned_nil st out
  | cons i slots ih =>
    rw [nodup_cons] at h
    refine (turned_one st out i).append (ih h.2 _) (fun n hn hsame => ?_)
    rw [mem_singleton.mp hsame] at hn
    exact h.1 hn

end Loop

section Packets

variable {sfu : Context} {out : Outgoing} {i j : Slot} {k : ℕ} {s s' : Stream}

/-- What a packet of the stream `s` does: the stream becomes `s'`. -/
structure Forwarded (sfu : Context) (out : Outgoing) (k : ℕ) (s s' : Stream)
    (r : Context × Answer) : Prop where
  streams : ∀ i, (r.1.participants i).streams = if i = out.sender then
    (sfu.participants i).streams.set k s' else (sfu.participants i).streams
  layerCount : s'.layerCount = s.layerCount
  layerSsrcs : s'.layerSsrcs = s.layerSsrcs
  entry : ∀ i, s'.byReceiver i = entryAfter sfu s out i
  received : ∀ i, received i r.2.events = handed sfu s out i

theorem forwardPacket_found {id : ParticipantId} {packet : List UInt8} {ssrc : UInt32}
    (hj : findParticipant sfu id = some j) (hssrc : parseRtpSsrc packet = some ssrc)
    (hk : findStreamBySsrc (sfu.participants j) ssrc = some k)
    (hs : (sfu.participants j).streams[k]? = some s) (now : ℤ) :
    ∃ s', Forwarded sfu ⟨j, packet, ssrc, now⟩ k s s' (forwardPacket sfu id packet now) := by
  have hcnt : (countReceived (sfu.participants j) k packet.length).streams[k]? = some
      { s with
        packetsReceived := s.packetsReceived + 1
        bytesReceived := s.bytesReceived + packet.length } := by
    rw [countReceived, getElem?_modify_eq, hs]
    rfl
  have hbef : Kept ⟨sfu, s, [], 0⟩
      ⟨sfu.setParticipant j (countReceived (sfu.participants j) k packet.length), { s with
        packetsReceived := s.packetsReceived + 1
        bytesReceived := s.bytesReceived + packet.length }, [], 0⟩ := by
    refine ⟨rfl, rfl, rfl, fun n => ?_⟩
    rw [setParticipant]
    dsimp only
    by_cases hn : n = j
    · subst hn
      rw [update_self]
      exact ⟨rfl, rfl, rfl⟩
    · rw [update_of_ne hn]
      exact ⟨rfl, rfl, rfl⟩
  have hloop := turned_foldl (nodup_finRange 50)
    ⟨sfu.setParticipant j (countReceived (sfu.participants j) k packet.length), { s with
        packetsReceived := s.packetsReceived + 1
        bytesReceived := s.bytesReceived + packet.length }, [], 0⟩ ⟨j, packet, ssrc, now⟩
  rw [forwardPacket, hj, hssrc]
  dsimp only
  rw [hk]
  dsimp only
  rw [hcnt]
  dsimp only
  rw [forwardAll]
  generalize (finRange 50).foldl _ _ = st at hloop ⊢
  refine ⟨st.stream, fun n => ?_, hloop.layerCount, hloop.layerSsrcs, fun n => ?_, fun n => ?_⟩
  · rw [afterLoop, setParticipant]
    dsimp only
    by_cases hn : n = j
    · subst hn
      rw [if_pos rfl, update_self]
      rw [hloop.streams, setParticipant]
      dsimp only
      rw [update_self, countReceived]
      refine ext_getElem? (fun m => ?_)
      by_cases hm : m = k
      · simp [hm, getElem?_set]
      · simp [Ne.symm hm]
    · rw [if_neg hn, update_of_ne hn, hloop.streams, setParticipant]
      dsimp only
      rw [update_of_ne hn]
  · rw [hloop.entry, if_pos (mem_finRange n)]
    exact hbef.entryAfter rfl _
  · have hrecv := hloop.received n
    rw [if_pos (mem_finRange n)] at hrecv
    exact hrecv.trans (hbef.handed rfl _)

theorem targetLayer_allowed (adaptation : Bool) (n : ℕ) (bandwidth : ℤ)
    (maxLayer : SimulcastLayer) :
    (targetLayer adaptation n bandwidth maxLayer).value ≤ maxLayer.value := by
  simp only [targetLayer]
  split_ifs <;> omega

/-- A switch upward is two seconds after the last one. -/
structure Switches (now : ℤ) (e e' : ReceiverEntry) : Prop where
  policy : e'.maxLayer = e.maxLayer ∧ e'.enabled = e.enabled
  time : e'.lastLayerSwitchUs = e.lastLayerSwitchUs ∨ e'.lastLayerSwitchUs = now
  up : e.currentLayer.value < e'.currentLayer.value →
    e.lastLayerSwitchUs + 2000000 ≤ now ∧ e'.lastLayerSwitchUs = now

theorem updateLayer_settles {n : ℕ} (hmany : 1 < n) (hn : n ≤ 3) (e : ReceiverEntry)
    (adaptation : Bool) (bandwidth now : ℤ) :
    (updateLayer e adaptation n bandwidth now).1.currentLayer.value < n ∧
      (updateLayer e adaptation n bandwidth now).1.currentLayer.value ≤ e.maxLayer.value := by
  have hle := targetLayer_le hn adaptation bandwidth e.maxLayer
  have hallowed := targetLayer_allowed adaptation n bandwidth e.maxLayer
  rw [updateLayer, if_pos hmany]
  dsimp only
  split_ifs with hswitch
  · exact ⟨by dsimp only; omega, hallowed⟩
  · have hkept : e.currentLayer.value ≤
        (targetLayer adaptation n bandwidth e.maxLayer).value := by
      by_contra hlt
      rw [not_le] at hlt
      refine hswitch ?_
      rw [shouldSwitchLayer, if_neg (fun h => hlt.ne (congrArg _ h)), if_pos hlt]
    exact ⟨by dsimp only; omega, hkept.trans hallowed⟩

theorem Switches.refl (now : ℤ) (e : ReceiverEntry) : Switches now e e :=
  ⟨⟨rfl, rfl⟩, .inl rfl, fun h => absurd h (lt_irrefl _)⟩

theorem updateLayer_switches (e : ReceiverEntry) (adaptation : Bool) (n : ℕ)
    (bandwidth now : ℤ) : Switches now e (updateLayer e adaptation n bandwidth now).1 := by
  rw [updateLayer]
  split_ifs with hmany
  · dsimp only
    split_ifs with hswitch
    · refine ⟨⟨rfl, rfl⟩, .inr rfl, fun hup => ⟨?_, rfl⟩⟩
      rw [shouldSwitchLayer] at hswitch
      split_ifs at hswitch with hsame hdown hsoon
      · exact absurd hup (not_lt.mpr hdown.le)
      · omega
    · exact .refl now e
  · exact .refl now e

theorem Forwarded.switches {r : Context × Answer} (h : Forwarded sfu out k s s' r) (i : Slot) :
    Switches out.nowUs (s.byReceiver i) (s'.byReceiver i) := by
  rw [h.entry, entryAfter]
  split_ifs
  · exact updateLayer_switches _ _ _ _ _
  · exact .refl _ _

/-- The layer of a receiver that looks at a packet is one of the stream and allowed by its
policy, and the packet is handed to it exactly when it is enabled and the packet is on that
layer. -/
def LayersRight (sfu : Context) (id : ParticipantId) (packet : List UInt8) (now : ℤ) : Prop :=
  ∀ j ssrc k s, findParticipant sfu id = some j → parseRtpSsrc packet = some ssrc →
    findStreamBySsrc (sfu.participants j) ssrc = some k →
    (sfu.participants j).streams[k]? = some s → 1 < s.layerCount →
    ∃ s', (((forwardPacket sfu id packet now).1.participants j).streams)[k]? = some s' ∧
      s'.layerCount = s.layerCount ∧ s'.layerSsrcs = s.layerSsrcs ∧
      ∀ i cb, (sfu.participants i).active = true → i ≠ j → (sfu.participants i).onPacket = some cb →
        (s'.byReceiver i).maxLayer = (s.byReceiver i).maxLayer ∧
        ((s.byReceiver i).enabled = true → (s'.byReceiver i).currentLayer.value < s.layerCount ∧
          (s'.byReceiver i).currentLayer.value ≤ (s.byReceiver i).maxLayer.value) ∧
        received i (forwardPacket sfu id packet now).2.events =
          if (s.byReceiver i).enabled = true ∧
            ssrc = s.layerSsrcs (s'.byReceiver i).currentLayer then [(i, cb, packet)] else []

theorem layersRight (sfu : Context) (id : ParticipantId) (packet : List UInt8) (now : ℤ) :
    LayersRight sfu id packet now := by
  intro j ssrc k s hj hssrc hk hs hmany
  obtain ⟨s', h⟩ := forwardPacket_found hj hssrc hk hs now
  have hget : (((forwardPacket sfu id packet now).1.participants j).streams)[k]? = some s' := by
    rw [h.streams, if_pos rfl, getElem?_set_self (List.getElem?_eq_some_iff.mp hs).1]
  refine ⟨s', hget, h.layerCount, h.layerSsrcs, fun i cb hact hne hpkt => ?_⟩
  have heligible : eligible sfu s j i = (s.byReceiver i).enabled := by
    simp [eligible, hact, hne, hpkt]
  refine ⟨(h.switches i).policy.1, fun henabled => ?_, ?_⟩
  · have hsettles := updateLayer_settles hmany s.layerCount_le (s.byReceiver i)
      sfu.enableBandwidthAdaptation (sfu.participants i).availableBandwidth now
    rw [h.entry, entryAfter, if_pos (heligible.trans henabled)]
    exact hsettles
  · rw [h.received, handed, ← h.entry, heligible, hpkt, shouldForward,
      if_neg (by omega : s.layerCount ≠ 1)]
    simp only [beq_iff_eq]
    rfl

end Packets

/-- A context, and beside each stream the times at which it went up for each receiver. -/
structure Watched where
  sfu : Context
  ups : Slot → List (Slot → List ℤ)
  clock : ℤ

def noteUps (before after : List Stream) (now : ℤ) (logs : List (Slot → List ℤ)) :
    List (Slot → List ℤ) :=
  logs.mapIdx (fun k log r =>
    match before[k]?, after[k]? with
    | some s, some s' =>
      if (s.byReceiver r).currentLayer.value < (s'.byReceiver r).currentLayer.value then
        log r ++ [now]
      else log r
    | _, _ => log r)

/-- The logs of a participant after a call; `before` and `after` are its streams. -/
def keepLogs (before after : List Stream) (logs : List (Slot → List ℤ)) :
    Op → List (Slot → List ℤ)
  | .forwardPacket _ _ now => noteUps before after now logs
  | .addParticipant _ => logs.take after.length
  | .addStream _ _ _ _ => if after.length = logs.length then logs
    else logs ++ [(fun _ => [] : Slot → List ℤ)]
  | .removeStream _ ssrc =>
    if after.length = logs.length then logs
    else logs.eraseIdx (before.findIdx (fun s => s.active && s.ssrc == ssrc))
  | _ => logs

def Watched.tick (w : Watched) : Op → ℤ
  | .forwardPacket _ _ now => now
  | _ => w.clock

def watchMachine : Machine Watched Op Answer where
  step := fun w op =>
    let r := Sfu.step w.sfu op
    (⟨r.1, fun j => keepLogs (w.sfu.participants j).streams (r.1.participants j).streams
      (w.ups j) op, w.tick op⟩, r.2)

/-- The clock does not go back. -/
def Timely (w : Watched) (op : Op) : Prop :=
  w.clock ≤ w.tick op

instance (w : Watched) (op : Op) : Decidable (Timely w op) :=
  inferInstanceAs (Decidable (_ ≤ _))

structure Logged (clock : ℤ) (s : Stream) (log : Slot → List ℤ) : Prop where
  spaced : ∀ r, (log r).Pairwise (fun a b => a + 2000000 ≤ b)
  last : ∀ r, ∀ t ∈ log r, t ≤ (s.byReceiver r).lastLayerSwitchUs ∧ t ≤ clock

/-- The streams of a participant and their logs. -/
structure Logs (clock : ℤ) (streams : List Stream) (logs : List (Slot → List ℤ)) : Prop where
  length : logs.length = streams.length
  logged : ∀ (k : ℕ) s log, streams[k]? = some s → logs[k]? = some log → Logged clock s log

variable {clock now : ℤ} {before after : List Stream} {logs : List (Slot → List ℤ)}

theorem Logs.note (h : Logs clock before logs) (hclock : clock ≤ now)
    (hlen : after.length = before.length)
    (hmoves : ∀ (k : ℕ) s s', before[k]? = some s → after[k]? = some s' →
      ∀ r, Switches now (s.byReceiver r) (s'.byReceiver r)) :
    Logs now after (noteUps before after now logs) := by
  refine ⟨by rw [noteUps, length_mapIdx, h.length, hlen], fun k s' log' hs' hlog' => ?_⟩
  rw [noteUps, getElem?_mapIdx, Option.map_eq_some_iff] at hlog'
  obtain ⟨log, hlog, rfl⟩ := hlog'
  obtain ⟨s, hs⟩ : ∃ s, before[k]? = some s := by
    have hlt := (List.getElem?_eq_some_iff.mp hs').1
    exact ⟨_, getElem?_eq_getElem (hlen ▸ hlt)⟩
  obtain ⟨hspaced, hlast⟩ := h.logged k s log hs hlog
  have hswitches := hmoves k s s' hs hs'
  have hlater : ∀ r, ∀ t ∈ log r, t ≤ (s'.byReceiver r).lastLayerSwitchUs ∧ t ≤ now := by
    intro r t ht
    obtain ⟨hle, hpast⟩ := hlast r t ht
    rcases (hswitches r).time with htime | htime <;> omega
  simp only [hs, hs']
  constructor
  · intro r
    split_ifs with hup
    · rw [pairwise_append]
      refine ⟨hspaced r, pairwise_singleton .., fun t ht t' ht' => ?_⟩
      have hgap := ((hswitches r).up hup).1
      have hle := (hlast r t ht).1
      rw [mem_singleton.mp ht']
      omega
    · exact hspaced r
  · intro r t ht
    split_ifs at ht with hup
    · rcases mem_append.mp ht with ht | ht
      · exact hlater r t ht
      · rw [mem_singleton.mp ht, ((hswitches r).up hup).2]
        exact ⟨le_rfl, le_rfl⟩
    · exact hlater r t ht

theorem streams_setParticipant (sfu : Context) (i : Slot) (p : Participant) (j : Slot) :
    ((sfu.setParticipant i p).participants j).streams = (sfu.participants j).streams ∨
      j = i ∧ ((sfu.setParticipant i p).participants j).streams = p.streams := by
  rw [setParticipant]
  dsimp only
  by_cases hj : j = i
  · rw [hj, update_self]
    exact .inr ⟨rfl, rfl⟩
  · rw [update_of_ne hj]
    exact .inl rfl

theorem streams_withParticipant (sfu : Context) (id : ParticipantId)
    (f : Participant → Participant) (hf : ∀ p, (f p).streams = p.streams) (j : Slot) :
    ((withParticipant sfu id f).participants j).streams = (sfu.participants j).streams := by
  rw [withParticipant]
  split
  · rfl
  · next i _ =>
    rcases streams_setParticipant sfu i (f (sfu.participants i)) j with hsame | ⟨rfl, hset⟩
    · exact hsame
    · exact hset.trans (hf _)

variable (h : Logs clock before logs)
include h

theorem Logs.same (hsame : after = before) : Logs clock after logs :=
  hsame ▸ h

theorem Logs.add (s : Stream) :
    Logs clock (before ++ [s]) (logs ++ [(fun _ => [] : Slot → List ℤ)]) := by
  refine ⟨by simp [h.length], fun k s log hs hlog => ?_⟩
  by_cases hk : k < logs.length
  · rw [getElem?_append_left (h.length ▸ hk)] at hs
    rw [getElem?_append_left hk] at hlog
    exact h.logged k s log hs hlog
  · rw [getElem?_append_right (not_lt.mp hk)] at hlog
    cases mem_singleton.mp (mem_of_getElem? hlog)
    exact ⟨fun _ => .nil, fun _ => nofun⟩

theorem Logs.erase (k : ℕ) :
    Logs clock (before.eraseIdx k) (logs.eraseIdx k) := by
  refine ⟨?_, fun m s log hs hlog => ?_⟩
  · rw [length_eraseIdx, length_eraseIdx, h.length]
  · rw [getElem?_eraseIdx] at hs hlog
    split_ifs at hs hlog with hm
    · exact h.logged m s log hs hlog
    · exact h.logged (m + 1) s log hs hlog

theorem Logs.modify (k : ℕ) {f : Stream → Stream}
    (hf : ∀ s r, ((f s).byReceiver r).lastLayerSwitchUs = (s.byReceiver r).lastLayerSwitchUs) :
    Logs clock (before.modify k f) logs := by
  refine ⟨by rw [length_modify, h.length], fun m s log hs hlog => ?_⟩
  rw [getElem?_modify] at hs
  obtain ⟨old, hold, rfl⟩ := Option.map_eq_some_iff.mp hs
  obtain ⟨hspaced, hlast⟩ := h.logged m old log hold hlog
  refine ⟨hspaced, fun r t ht => ?_⟩
  split_ifs
  · rw [hf]
    exact hlast r t ht
  · exact hlast r t ht

omit h

theorem streams_forwardPacket (sfu : Context) (id : ParticipantId) (packet : List UInt8) (now : ℤ)
    (j : Slot) :
    ((forwardPacket sfu id packet now).1.participants j).streams.length =
        (sfu.participants j).streams.length ∧
      ∀ (k : ℕ) s s', (sfu.participants j).streams[k]? = some s →
        ((forwardPacket sfu id packet now).1.participants j).streams[k]? = some s' →
        ∀ r, Switches now (s.byReceiver r) (s'.byReceiver r) := by
  have hstill : ∀ (k : ℕ) s s', (sfu.participants j).streams[k]? = some s →
      (sfu.participants j).streams[k]? = some s' →
      ∀ r, Switches now (s.byReceiver r) (s'.byReceiver r) := by
    intro k s s' hs hs' r
    cases hs.symm.trans hs'
    exact .refl now _
  by_cases hfound : ∃ i ssrc k s, findParticipant sfu id = some i ∧
      parseRtpSsrc packet = some ssrc ∧ findStreamBySsrc (sfu.participants i) ssrc = some k ∧
      (sfu.participants i).streams[k]? = some s
  · obtain ⟨i, ssrc, k, s, hi, hssrc, hk, hs⟩ := hfound
    obtain ⟨s', h⟩ := forwardPacket_found hi hssrc hk hs now
    rw [h.streams]
    split_ifs with hj
    · cases hj
      refine ⟨length_set .., fun m old new hold hnew => ?_⟩
      by_cases hm : m = k
      · subst hm
        rw [getElem?_set_self (List.getElem?_eq_some_iff.mp hs).1] at hnew
        cases hnew
        cases hold.symm.trans hs
        exact h.switches
      · rw [getElem?_set_ne (Ne.symm hm)] at hnew
        exact hstill m old new hold hnew
    · exact ⟨rfl, hstill⟩
  · have hfail : forwardPacket sfu id packet now = (sfu, .failed) := by
      rw [forwardPacket]
      split
      · next i ssrc hi hssrc =>
        split
        · rfl
        · next k hk =>
          obtain ⟨hlt, -⟩ := List.findIdx?_eq_some_iff_findIdx_eq.mp hk
          exact absurd ⟨i, ssrc, k, _, hi, hssrc, hk, getElem?_eq_getElem hlt⟩ hfound
      · rfl
    rw [hfail]
    exact ⟨rfl, hstill⟩

def Watched.Sound (w : Watched) : Prop :=
  ∀ j, Logs w.clock (w.sfu.participants j).streams (w.ups j)

theorem Watched.Sound.step {w : Watched} (h : w.Sound) {op : Op} (htimely : Timely w op) :
    (watchMachine.next w op).Sound := by
  intro j
  change Logs (w.tick op) ((Sfu.step w.sfu op).1.participants j).streams
    (keepLogs (w.sfu.participants j).streams ((Sfu.step w.sfu op).1.participants j).streams
      (w.ups j) op)
  have hj := h j
  cases op with
  | addParticipant id =>
    have hcases : ((addParticipant w.sfu id).1.participants j).streams =
        (w.sfu.participants j).streams ∨
        ((addParticipant w.sfu id).1.participants j).streams = [] := by
      rw [addParticipant]
      split_ifs
      iterate 3 exact .inl rfl
      split
      · exact .inl rfl
      · exact (streams_setParticipant w.sfu _ _ j).imp_right And.right
    rw [keepLogs, Sfu.step]
    rcases hcases with hsame | hnil
    · rw [hsame, take_of_length_le hj.length.le]
      exact hj
    · rw [hnil]
      exact ⟨rfl, by rintro _ _ _ ⟨⟩⟩
  | removeParticipant id =>
    refine hj.same ?_
    rw [Sfu.step, removeParticipant]
    split
    · rfl
    · next i _ =>
      rcases streams_setParticipant w.sfu i { w.sfu.participants i with active := false } j with
        hsame | ⟨rfl, hset⟩
      · exact hsame
      · exact hset
  | setParticipantBandwidth id bandwidth now | setParticipantCallback id callback
  | setParticipantKeyframeCallback id callback =>
    exact hj.same (streams_withParticipant _ id _ (by intro; rfl) j)
  | addStream id ssrc layers n =>
    have hcases : ((addStream w.sfu id ssrc layers n).1.participants j).streams =
        (w.sfu.participants j).streams ∨ ∃ s,
        ((addStream w.sfu id ssrc layers n).1.participants j).streams =
          (w.sfu.participants j).streams ++ [s] := by
      rw [addStream]
      split
      · exact .inl rfl
      · dsimp only
        split_ifs
        · exact .inl rfl
        · refine (streams_setParticipant w.sfu _ _ j).imp_right ?_
          rintro ⟨rfl, hset⟩
          exact ⟨_, hset⟩
    rw [keepLogs, Sfu.step]
    rcases hcases with hset | ⟨s, hset⟩
    · rw [hset, if_pos hj.length.symm]
      exact hj
    · rw [hset, if_neg (by simp [hj.length])]
      exact hj.add s
  | removeStream id ssrc =>
    have hcases : ((removeStream w.sfu id ssrc).1.participants j).streams =
        (w.sfu.participants j).streams ∨ ∃ k < (w.sfu.participants j).streams.length,
        (w.sfu.participants j).streams.findIdx (fun s => s.active && s.ssrc == ssrc) = k ∧
          ((removeStream w.sfu id ssrc).1.participants j).streams =
            (w.sfu.participants j).streams.eraseIdx k := by
      rw [removeStream]
      split
      · exact .inl rfl
      · dsimp only
        split
        · exact .inl rfl
        · next i _ _ k hk =>
          refine (streams_setParticipant w.sfu i _ j).imp_right ?_
          rintro ⟨rfl, hset⟩
          obtain ⟨hlt, hidx⟩ := findIdx?_eq_some_iff_findIdx_eq.mp hk
          exact ⟨k, hlt, hidx, hset⟩
    rw [keepLogs, Sfu.step]
    rcases hcases with hset | ⟨k, hlt, rfl, hset⟩
    · rw [hset, if_pos hj.length.symm]
      exact hj
    · rw [hset, if_neg (by rw [length_eraseIdx_of_lt hlt, hj.length]; omega)]
      exact hj.erase _
  | setReceiverStreamPolicy receiver sender ssrc enabled maxLayer =>
    change Logs w.clock (((setReceiverStreamPolicy w.sfu receiver sender ssrc enabled
      maxLayer).1.participants j).streams) (w.ups j)
    rw [setReceiverStreamPolicy]
    split_ifs
    · exact hj
    · split
      · next r i _ _ =>
        dsimp only
        split
        · exact hj
        · next k _ =>
          rcases streams_setParticipant w.sfu i _ j with hset | ⟨rfl, hset⟩
          · exact hj.same hset
          · refine (hj.modify k (fun s n => ?_)).same hset
            rw [Stream.setReceiver]
            dsimp only
            by_cases hn : n = r
            · rw [hn, update_self]
            · rw [update_of_ne hn]
      · exact hj
  | forwardPacket id packet now =>
    obtain ⟨hlen, hmoves⟩ := streams_forwardPacket w.sfu id packet now j
    exact hj.note htimely hlen hmoves
  | requestKeyframe id ssrc =>
    refine hj.same ?_
    rw [Sfu.step, requestKeyframe]
    split
    · rfl
    · split <;> rfl
  | setSimulcastEnabled enabled | setBandwidthAdaptationEnabled enabled => exact hj

/-- **Layers.**  In every state that a run on a clock reaches, the layers of a packet are
right, and a stream has gone up for a receiver at times that are two seconds apart. -/
theorem layers_settled (maxParticipants start : ℤ) (ops : List Op)
    (hops : watchMachine.Along Timely ⟨create maxParticipants, fun _ => [], start⟩ ops)
    (w : Watched) (hw : w = watchMachine.run ⟨create maxParticipants, fun _ => [], start⟩ ops) :
    (∀ id packet now, LayersRight w.sfu id packet now) ∧
      ∀ j, (w.ups j).length = (w.sfu.participants j).streams.length ∧
        ∀ log ∈ w.ups j, ∀ r, (log r).Pairwise (fun a b => a + 2000000 ≤ b) := by
  refine ⟨layersRight w.sfu, fun j => ?_⟩
  have hsound : w.Sound := by
    rw [hw]
    refine watchMachine.run_invariant_along (fun w op hop h => h.step hop) (fun j => ?_) hops
    exact ⟨rfl, nofun⟩
  refine ⟨(hsound j).length, fun log hlog => ?_⟩
  obtain ⟨k, hk⟩ := getElem?_of_mem hlog
  have hlt := (List.getElem?_eq_some_iff.mp hk).1
  rw [(hsound j).length] at hlt
  exact ((hsound j).logged k _ log (getElem?_eq_getElem hlt) hk).spaced

/-- A receiver of a stream of two layers goes down and, two seconds later, up again. -/
def downAndUp : List Op :=
  [.addParticipant [97], .addParticipant [98], .setParticipantCallback [98] (some 1),
    .addStream [97] 7 (some [7, 8]) 2, .setParticipantBandwidth [98] 500000 0,
    .forwardPacket [97] [128, 0, 0, 0, 0, 0, 0, 0, 0, 0, 0, 7] 10,
    .setParticipantBandwidth [98] 3000000 10,
    .forwardPacket [97] [128, 0, 0, 0, 0, 0, 0, 0, 0, 0, 0, 8] 2000010]

theorem layers_settled_downAndUp :
    ∃ w, w = watchMachine.run ⟨create 2, fun _ => [], 0⟩ downAndUp ∧
      (w.ups 0).map (fun log => log 1) = [[2000010]] ∧
      ∀ log ∈ w.ups 0, ∀ r, (log r).Pairwise (fun a b => a + 2000000 ≤ b) := by
  exact ⟨_, rfl, by decide +kernel,
    ((layers_settled 2 0 downAndUp (by decide +kernel) _ rfl).2 0).2⟩

end TurboMedia.Sfu
