import TurboMedia.Auth.RevocationFanout
import TurboMedia.Security.ControlPlaneRuns

/-!
# Revocation fan-out agreement

The producer's history says which digests are revoked at each version.  As long
as every accepted publication is canonical, a target that the coordinator
counts as synchronized at a version has reached a trusted state at that
version, its digests were the canonical ones, and since then it has never
cleared a revoked digest unless a later canonical snapshot dropped it.

The proof has two invariants.  One is about each target and its node: whatever
arrived was sent, whatever was sent was published, and a recorded version was
reached.  The other is about the history of accepted publications: versions
only grow, and a digest leaves the canonical set by a snapshot only.
-/

namespace TurboMedia.RevocationFanout

open List Version Revocation

open Revocation (Digest digestSet)

section Nodes

def Arrived (node : Node) : Prop :=
  ∀ op ∈ node.received, ∃ request ∈ node.sent, ∃ memory, op = request.op memory

/-- At some point the node was trusted and had version `v`. -/
def Reached (node : Node) (v : Version) : Prop :=
  ∃ earlier later, node.received = earlier ++ later ∧
    (Revocation.machine.run node.start earlier).synchronized = true ∧
    (Revocation.machine.run node.start earlier).version = v

/-- The node got more requests, all of them satisfying `P`, and more arrivals. -/
structure Grown (P : Request → Prop) (node node' : Node) : Prop where
  start : node'.start = node.start
  received : ∃ more, node'.received = node.received ++ more
  sent : ∀ request ∈ node'.sent, request ∈ node.sent ∨ P request
  arrived : Arrived node → Arrived node'

variable {P : Request → Prop} {node node' node'' : Node}

theorem Grown.refl (P : Request → Prop) (node : Node) : Grown P node node :=
  ⟨rfl, ⟨[], by simp⟩, fun _ h => Or.inl h, id⟩

theorem Grown.trans (h : Grown P node node') (h' : Grown P node' node'') : Grown P node node'' := by
  obtain ⟨more, hmore⟩ := h.received
  obtain ⟨more', hmore'⟩ := h'.received
  refine ⟨h'.start.trans h.start, ⟨more ++ more', ?_⟩, ?_, fun ha => h'.arrived (h.arrived ha)⟩
  · rw [hmore', hmore, append_assoc]
  · intro request hreq
    rcases h'.sent request hreq with hs | hs
    · exact h.sent request hs
    · exact Or.inr hs

theorem Reached.grown {v : Version} (h : Reached node v) (hgrown : Grown P node node') :
    Reached node' v := by
  obtain ⟨earlier, later, hsplit, hsync, hver⟩ := h
  obtain ⟨more, hmore⟩ := hgrown.received
  refine ⟨earlier, later ++ more, ?_, ?_, ?_⟩
  · rw [hmore, hsplit, append_assoc]
  · rw [hgrown.start]
    exact hsync
  · rw [hgrown.start]
    exact hver

theorem reached_now (h : node.state.synchronized = true) : Reached node node.state.version :=
  ⟨node.received, [], by simp, h, rfl⟩

theorem send_grown {request : Request} (h : P request) :
    Grown P node { node with sent := node.sent ++ [request] } := by
  refine ⟨rfl, ⟨[], by simp⟩, ?_, ?_⟩
  · intro r hr
    rw [mem_append, mem_singleton] at hr
    rcases hr with hr | rfl
    · exact Or.inl hr
    · exact Or.inr h
  · intro ha op hop
    obtain ⟨r, hr, hmemory⟩ := ha op hop
    exact ⟨r, mem_append_left _ hr, hmemory⟩

theorem receive_grown {request : Request} (h : request ∈ node.sent) (memory : Bool) :
    Grown P node { node with received := node.received ++ [request.op memory] } := by
  refine ⟨rfl, ⟨[request.op memory], rfl⟩, fun _ hr => Or.inl hr, ?_⟩
  intro ha op hop
  rw [mem_append, mem_singleton] at hop
  rcases hop with hop | rfl
  · exact ha op hop
  · exact ⟨request, h, memory, rfl⟩

theorem deliver_grown (node : Node) (delivery : Delivery) :
    Grown P node (node.deliver delivery) := by
  unfold Node.deliver
  cases hget : node.sent[delivery.index]? with
  | none => exact Grown.refl P node
  | some request => exact receive_grown (mem_of_getElem? hget) delivery.memory

theorem deliverAll_grown (node : Node) (deliveries : List Delivery) :
    Grown P node (deliveries.foldl Node.deliver node) := by
  induction deliveries generalizing node with
  | nil => exact Grown.refl P node
  | cons delivery rest ih => exact (deliver_grown node delivery).trans (ih _)

theorem deliver_sent (node : Node) (delivery : Delivery) :
    (node.deliver delivery).sent = node.sent := by
  unfold Node.deliver
  cases node.sent[delivery.index]? <;> rfl

theorem deliverAll_sent (node : Node) (deliveries : List Delivery) :
    (deliveries.foldl Node.deliver node).sent = node.sent := by
  induction deliveries generalizing node with
  | nil => rfl
  | cons delivery rest ih => rw [foldl_cons, ih, deliver_sent]

/-- One attempt grows the node, and an answer that says synchronized gives a
version the node has reached. -/
theorem transmit_spec {request : Request} (hP : P request) (node : Node) (exchange : Exchange) :
    Grown P node (transmit node request exchange).1 ∧
      ((transmit node request exchange).2.2.synchronized = true →
        Reached (transmit node request exchange).1
          (of (transmit node request exchange).2.2.epoch
            (transmit node request exchange).2.2.sequence)) := by
  unfold transmit
  have hsend : Grown P node (exchange.before.foldl Node.deliver
      { node with sent := node.sent ++ [request] }) :=
    (send_grown hP).trans (deliverAll_grown _ _)
  have hmem : request ∈ (exchange.before.foldl Node.deliver
      { node with sent := node.sent ++ [request] }).sent := by
    rw [deliverAll_sent]
    simp
  generalize exchange.before.foldl Node.deliver
    { node with sent := node.sent ++ [request] } = mid at hsend hmem
  cases exchange.arrives with
  | none => exact ⟨hsend.trans (deliverAll_grown _ _), by simp [Response.zero]⟩
  | some memory =>
    have hreceive := receive_grown (P := P) hmem memory
    have hafter := deliverAll_grown (P := P)
      { mid with received := mid.received ++ [request.op memory] } exchange.after
    have hgrown := hsend.trans (hreceive.trans hafter)
    split_ifs
    · exact ⟨hgrown, fun hsync => (reached_now hsync).grown hafter⟩
    · exact ⟨hgrown, by simp [Response.zero]⟩

/-- The retry loop grows the node, and a covering answer gives a version the
node has reached, not below the version sent. -/
theorem sendLoop_spec {request : Request} (hP : P request)
    (epoch sequence : UInt64) (net : ℕ → Exchange)
    (remaining attempt : ℕ) (result : TransportResult) (node : Node) :
    Grown P node (sendLoop request epoch sequence net remaining attempt result node).node ∧
      ∀ response ∈ (sendLoop request epoch sequence net remaining attempt result node).covered,
        Reached (sendLoop request epoch sequence net remaining attempt result node).node
            (of response.epoch response.sequence) ∧
          of epoch sequence ≤ of response.epoch response.sequence := by
  induction remaining generalizing attempt result node with
  | zero => exact ⟨Grown.refl P node, by simp [sendLoop]⟩
  | succ remaining ih =>
    obtain ⟨hgrown, hreached⟩ := transmit_spec hP node (net attempt)
    rw [sendLoop]
    split_ifs with hcovered hfinal
    · refine ⟨hgrown, ?_⟩
      intro response hresp
      obtain rfl := Option.some.inj hresp
      simp only [responseCovers, versionLess, Bool.and_eq_true, Bool.not_eq_true'] at hcovered
      refine ⟨hreached hcovered.2.1, ?_⟩
      rw [← not_lt, ← revocationVersionLess_iff, hcovered.2.2]
      simp
    · exact ⟨hgrown, by simp⟩
    · obtain ⟨hrest, hcover⟩ := ih (attempt + 1) _ _
      exact ⟨hgrown.trans hrest, hcover⟩

end Nodes

section Targets

/-- Requests sent to the target satisfy `P`, arrivals were sent, and a recorded
version was reached. -/
structure TargetOk (P : Request → Prop) (target : Target) : Prop where
  created : ∃ maxEntries, stateCreate maxEntries = some target.targetContext.start
  sent : ∀ request ∈ target.targetContext.sent, P request
  arrived : Arrived target.targetContext
  recorded : countedSynchronized target = true →
    Reached target.targetContext (of target.epoch target.sequence)

variable {P : Request → Prop} {target : Target}

variable (h : TargetOk P target)
include h

theorem TargetOk.mono {Q : Request → Prop}
    (hPQ : ∀ request, P request → Q request) : TargetOk Q target :=
  ⟨h.created, fun request hr => hPQ request (h.sent request hr), h.arrived, h.recorded⟩

/-- A target whose node has grown, with a recorded version that was reached. -/
theorem TargetOk.grown {target' : Target}
    (hgrown : Grown P target.targetContext target'.targetContext)
    (hrecorded : countedSynchronized target' = true →
      Reached target'.targetContext (of target'.epoch target'.sequence)) :
    TargetOk P target' := by
  refine ⟨?_, ?_, hgrown.arrived h.arrived, hrecorded⟩
  · rw [hgrown.start]
    exact h.created
  · intro request hreq
    rcases hgrown.sent request hreq with hs | hs
    · exact h.sent request hs
    · exact hs

theorem TargetOk.sendSnapshotBounded {epoch sequence : UInt64} {sha256Hex : List CStr}
    (hP : P (.snapshot epoch sequence sha256Hex))
    (maxAttempts : ℕ) (successState : TargetState) (net : ℕ → Exchange) :
    TargetOk P (sendSnapshotBounded maxAttempts target epoch sequence sha256Hex
      successState net).1 := by
  obtain ⟨hgrown, hcovered⟩ := sendLoop_spec hP epoch sequence net
    maxAttempts 1 .fatal target.targetContext
  unfold RevocationFanout.sendSnapshotBounded
  dsimp only
  cases hres : (sendLoop (.snapshot epoch sequence sha256Hex) epoch sequence net
      maxAttempts 1 .fatal target.targetContext).covered with
  | none => exact h.grown hgrown (by simp [targetMarkFailed, countedSynchronized])
  | some response => exact h.grown hgrown (fun _ => (hcovered response hres).1)

theorem TargetOk.sendRevokeBounded {epoch sequence : UInt64} {sha256Hex : CStr}
    (hP : P (.revoke epoch sequence sha256Hex))
    (maxAttempts : ℕ) (net : ℕ → Exchange) :
    TargetOk P (sendRevokeBounded maxAttempts target epoch sequence sha256Hex net).1 := by
  obtain ⟨hgrown, hcovered⟩ := sendLoop_spec hP epoch sequence net
    maxAttempts 1 .fatal target.targetContext
  unfold RevocationFanout.sendRevokeBounded
  dsimp only
  cases hres : (sendLoop (.revoke epoch sequence sha256Hex) epoch sequence net
      maxAttempts 1 .fatal target.targetContext).covered with
  | none => exact h.grown hgrown (fun hcnt => (h.recorded hcnt).grown hgrown)
  | some response => exact h.grown hgrown (fun _ => (hcovered response hres).1)

theorem TargetOk.publishRevokeTo {epoch sequence : UInt64} {sha256Hex : CStr} {covering : List CStr}
    (hrevoke : P (.revoke epoch sequence sha256Hex))
    (hcovering : P (.snapshot epoch sequence covering))
    (maxAttempts : ℕ) (previousEpoch previousSequence : UInt64)
    (eventNet snapshotNet : ℕ → Exchange) :
    TargetOk P (publishRevokeTo maxAttempts target previousEpoch previousSequence
      epoch sequence sha256Hex covering eventNet snapshotNet).1 := by
  unfold RevocationFanout.publishRevokeTo
  have hevent := h.sendRevokeBounded hrevoke maxAttempts eventNet
  dsimp only
  split_ifs
  · exact hevent
  · exact hevent.sendSnapshotBounded hcovering maxAttempts .recovered snapshotNet
  · exact h.sendSnapshotBounded hcovering maxAttempts .recovered snapshotNet

end Targets

section History

/-- An accepted publish call. -/
inductive Publication where
  | snapshot (epoch sequence : UInt64) (sha256Hex : List CStr)
  | revoke (epoch sequence : UInt64) (sha256Hex : CStr) (covering : List CStr)
deriving DecidableEq

def Publication.version : Publication → Version
  | .snapshot epoch sequence _ => of epoch sequence
  | .revoke epoch sequence _ _ => of epoch sequence

/-- Lists are the canonical sets of their version, and an event adds its digest
to the set of the version before. -/
def Publication.Canonical (canon : Version → Set Digest) : Publication → Prop
  | .snapshot epoch sequence sha256Hex => digestSet sha256Hex = canon (of epoch sequence)
  | .revoke epoch sequence sha256Hex covering =>
    canon (of epoch sequence) =
        canon (of epoch (sequence - 1)) ∪ digestSet [sha256Hex] ∧
      digestSet covering = canon (of epoch sequence)

/-- The publication made by a step, when the call does not return -1. -/
def accepted (fanout : Fanout) : Op → Option Publication
  | .publishSnapshot epoch sequence sha256Hex net =>
    if (publishSnapshot fanout epoch sequence sha256Hex net).2.code == -1 then none
    else some (.snapshot epoch sequence (sha256Hex.getD []))
  | .publishRevoke epoch sequence sha256Hex covering eventNet snapshotNet =>
    if (publishRevoke fanout epoch sequence sha256Hex covering
        eventNet snapshotNet).2.code == -1 then
      none
    else some (.revoke epoch sequence sha256Hex (covering.getD []))
  | .deliver _ _ => none

/-- The accepted publications of a run, in order. -/
def published (fanout : Fanout) : List Op → List Publication
  | [] => []
  | op :: ops => (accepted fanout op).toList ++ published (machine.next fanout op) ops

def Fanout.canonical (fanout : Fanout) : Version :=
  of fanout.canonicalEpoch fanout.canonicalSequence

/-- A later snapshot, not after version `v`, dropped the digest. -/
def Dropped (history : List Publication) (since v : Version) (digest : Digest) : Prop :=
  ∃ epoch sequence sha256Hex, Publication.snapshot epoch sequence sha256Hex ∈ history ∧
    since < of epoch sequence ∧ of epoch sequence ≤ v ∧
    digest ∉ digestSet sha256Hex

theorem Dropped.mono {history history' : List Publication} {since v v' : Version} {digest : Digest}
    (h : Dropped history since v digest) (hsub : history ⊆ history') (hle : v ≤ v') :
    Dropped history' since v' digest := by
  obtain ⟨epoch, sequence, sha256Hex, hmem, hlt, hv, hnot⟩ := h
  exact ⟨epoch, sequence, sha256Hex, hsub hmem, hlt, le_trans hv hle, hnot⟩

/-- Publications are canonical, their versions end at the canonical one, and a
digest leaves the canonical sets by a snapshot only. -/
structure HistoryOk
    (canon : Version → Set Digest) (history : List Publication) (fanout : Fanout) : Prop where
  canonical : ∀ publication ∈ history, publication.Canonical canon
  le : ∀ publication ∈ history,
    fanout.canonicalInitialized = true ∧ publication.version ≤ fanout.canonical
  current : fanout.canonicalInitialized = true →
    ∃ publication ∈ history, publication.version = fanout.canonical
  dropped : ∀ first ∈ history, ∀ digest ∈ canon first.version,
    ∀ last ∈ history, first.version ≤ last.version →
      digest ∈ canon last.version ∨ Dropped history first.version last.version digest

variable {canon : Version → Set Digest} {history : List Publication} {fanout fanout' : Fanout}

/-- Appending a publication at the new canonical version keeps the history,
when it drops digests as a snapshot or drops none since the old version. -/
theorem HistoryOk.append {new : Publication} (h : HistoryOk canon history fanout)
    (hcanonical : new.Canonical canon) (hinit : fanout'.canonicalInitialized = true)
    (hver : new.version = fanout'.canonical)
    (hge : fanout.canonicalInitialized = true → fanout.canonical ≤ new.version)
    (hkeeps : ∀ digest, digest ∉ canon new.version → Dropped [new] ⊥ new.version digest ∨
        fanout.canonicalInitialized = true ∧ digest ∉ canon fanout.canonical) :
    HistoryOk canon (history ++ [new]) fanout' := by
  have hleNew : ∀ publication ∈ history, publication.version ≤ new.version := by
    intro publication hp
    obtain ⟨hin, hle⟩ := h.le publication hp
    exact le_trans hle (hge hin)
  have hsub : history ⊆ history ++ [new] := subset_append_left _ _
  refine ⟨?_, ?_, ?_, ?_⟩
  · intro publication hp
    rw [mem_append, mem_singleton] at hp
    rcases hp with hp | rfl
    · exact h.canonical publication hp
    · exact hcanonical
  · intro publication hp
    rw [mem_append, mem_singleton] at hp
    refine ⟨hinit, ?_⟩
    rcases hp with hp | rfl
    · rw [← hver]
      exact hleNew publication hp
    · exact hver.le
  · intro _
    exact ⟨new, by simp, hver⟩
  · intro first hfirst digest hdigest last hlast hle
    rw [mem_append, mem_singleton] at hfirst hlast
    rcases hlast with hlast | rfl
    · rcases hfirst with hfirst | rfl
      · rcases h.dropped first hfirst digest hdigest last hlast hle with hd | hd
        · exact Or.inl hd
        · exact Or.inr (hd.mono hsub le_rfl)
      · rw [le_antisymm (hleNew last hlast) hle]
        exact Or.inl hdigest
    · by_cases hstill : digest ∈ canon last.version
      · exact Or.inl hstill
      right
      have hlt : first.version < last.version := by
        refine lt_of_le_of_ne hle ?_
        intro heq
        rw [heq] at hdigest
        exact hstill hdigest
      rcases hkeeps digest hstill with
        ⟨epoch, sequence, sha256Hex, hmem, _, hv, hnot⟩ | ⟨hin, hgone⟩
      · rw [mem_singleton] at hmem
        refine ⟨epoch, sequence, sha256Hex, by simp [hmem], ?_, hv, hnot⟩
        rw [← hmem] at hlt
        exact hlt
      · rcases hfirst with hfirst | rfl
        · obtain ⟨current, hcur, hcv⟩ := h.current hin
          have hfle : first.version ≤ current.version := by
            rw [hcv]
            exact (h.le first hfirst).2
          rcases h.dropped first hfirst digest hdigest current hcur hfle with hd | hd
          · rw [hcv] at hd
            exact absurd hd hgone
          · refine hd.mono hsub ?_
            rw [hcv]
            exact hge hin
        · exact absurd hdigest hstill

end History

section Publish

/-- A request that belongs to the history: its version was published, and what
it tells a node is canonical. -/
def Sent (canon : Version → Set Digest) (history : List Publication) (request : Request) : Prop :=
  (∃ publication ∈ history, publication.version = request.version) ∧
    ∀ memory, (request.op memory).Canonical canon

/-- The history is canonical and every target belongs to it. -/
structure Sound
    (canon : Version → Set Digest) (history : List Publication) (fanout : Fanout) : Prop where
  ordered : HistoryOk canon history fanout
  targets : ∀ target ∈ fanout.targets, TargetOk (Sent canon history) target

variable {canon : Version → Set Digest} {history : List Publication} {fanout : Fanout}

theorem Sent.mono {history' : List Publication} {request : Request} (h : Sent canon history request)
    (hsub : history ⊆ history') : Sent canon history' request := by
  obtain ⟨⟨publication, hmem, hver⟩, hcanonical⟩ := h
  exact ⟨⟨publication, hsub hmem, hver⟩, hcanonical⟩

theorem finishPublish_code
    (fanout : Fanout) (epoch sequence : UInt64) (outs : List (Target × Bool)) :
    (finishPublish fanout epoch sequence outs).2.code ≠ -1 := by
  simp only [finishPublish]
  split_ifs <;> decide

/-- Everything `publish_snapshot` can do. -/
theorem publishSnapshot_cases
    (fanout : Fanout) (epoch sequence : UInt64) (sha256Hex : Option (List CStr))
    (net : ℕ → ℕ → Exchange) :
    publishSnapshot fanout epoch sequence sha256Hex net = (fanout, ⟨-1, none⟩) ∨ epoch ≠ 0 ∧
      (publishSnapshot fanout epoch sequence sha256Hex net).2.code ≠ -1 ∧
      (fanout.canonicalInitialized = true → fanout.canonical ≤ of epoch sequence) ∧
      (publishSnapshot fanout epoch sequence sha256Hex net).1.canonicalInitialized = true ∧
      (publishSnapshot fanout epoch sequence sha256Hex net).1.canonical =
        of epoch sequence ∧
      (publishSnapshot fanout epoch sequence sha256Hex net).1.targets =
        (fanout.targets.mapIdx (fun index target =>
          sendSnapshotBounded fanout.maxAttempts target epoch sequence
            (sha256Hex.getD []) .synchronized (net index))).map Prod.fst := by
  by_cases hbad : epoch == 0 || !snapshotPayloadValid sha256Hex ||
      (fanout.canonicalInitialized &&
        versionLess epoch sequence fanout.canonicalEpoch fanout.canonicalSequence)
  · left
    rw [publishSnapshot, if_pos hbad]
  · right
    rw [publishSnapshot, if_neg hbad]
    simp only [Bool.or_eq_true, Bool.and_eq_true, not_or, not_and, versionLess,
      revocationVersionLess_iff, beq_iff_eq, not_lt] at hbad
    obtain ⟨⟨hepoch, _⟩, hge⟩ := hbad
    refine ⟨hepoch, finishPublish_code _ _ _ _, hge, ?_⟩
    split_ifs with hnew
    · exact ⟨rfl, rfl, rfl⟩
    · simp only [Bool.or_eq_true, Bool.not_eq_true', not_or, Bool.not_eq_false, versionLess,
        revocationVersionLess_iff, not_lt] at hnew
      exact ⟨hnew.1, le_antisymm (hge hnew.1) hnew.2, rfl⟩

/-- Everything `publish_revoke` can do. -/
theorem publishRevoke_cases (fanout : Fanout) (epoch sequence : UInt64) (sha256Hex : CStr)
    (covering : Option (List CStr)) (eventNet snapshotNet : ℕ → ℕ → Exchange) :
    publishRevoke fanout epoch sequence sha256Hex covering eventNet snapshotNet =
        (fanout, ⟨-1, none⟩) ∨
      (publishRevoke fanout epoch sequence sha256Hex covering eventNet snapshotNet).2.code ≠ -1 ∧
      fanout.canonicalInitialized = true ∧ fanout.canonical = of epoch (sequence - 1) ∧
      fanout.canonical < of epoch sequence ∧
      (publishRevoke fanout epoch sequence sha256Hex covering
        eventNet snapshotNet).1.canonicalInitialized = true ∧
      (publishRevoke fanout epoch sequence sha256Hex covering
        eventNet snapshotNet).1.canonical = of epoch sequence ∧
      (publishRevoke fanout epoch sequence sha256Hex covering eventNet snapshotNet).1.targets =
        (fanout.targets.mapIdx (fun index target =>
          publishRevokeTo fanout.maxAttempts target fanout.canonicalEpoch
            fanout.canonicalSequence epoch sequence sha256Hex (covering.getD [])
            (eventNet index) (snapshotNet index))).map Prod.fst := by
  unfold publishRevoke
  split_ifs with hbad
  · exact Or.inl rfl
  · right
    simp only [Bool.or_eq_true, Bool.not_eq_true', beq_iff_eq, bne_iff_ne, ne_eq,
      not_or, Bool.not_eq_false, not_not] at hbad
    obtain ⟨⟨⟨⟨⟨⟨_, hinit⟩, hepoch⟩, hmax⟩, hseq⟩, _⟩, _⟩ := hbad
    have hprev : fanout.canonical = of epoch (sequence - 1) := by
      rw [hseq, UInt64.add_sub_cancel, hepoch]
      rfl
    have hlt : fanout.canonical < of epoch sequence := by
      rw [Fanout.canonical, of_lt_of_iff]
      refine Or.inr ⟨hepoch.symm, ?_⟩
      rw [hseq, UInt64.lt_iff_toNat_lt, UInt64.toNat_add]
      have hne : fanout.canonicalSequence.toNat ≠ 2 ^ 64 - 1 := by
        intro heq
        apply hmax
        apply UInt64.toNat_inj.mp
        rw [heq]
        rfl
      have hbound := fanout.canonicalSequence.toNat_lt
      simp only [UInt64.toNat_ofNat]
      omega
    refine ⟨finishPublish_code _ _ _ _, hinit, hprev, hlt, hinit, ?_, rfl⟩
    rw [hepoch]
    rfl

variable (h : Sound canon history fanout)
include h

theorem Sound.publishSnapshot_step
    {epoch sequence : UInt64} {sha256Hex : Option (List CStr)} {net : ℕ → ℕ → Exchange}
    (hop : ∀ publication ∈ accepted fanout (.publishSnapshot epoch sequence sha256Hex net),
      publication.Canonical canon) :
    Sound canon
      (history ++ (accepted fanout (.publishSnapshot epoch sequence sha256Hex net)).toList)
      (publishSnapshot fanout epoch sequence sha256Hex net).1 := by
  rcases publishSnapshot_cases fanout epoch sequence sha256Hex net with
    href | ⟨hepoch, hcode, hge, hinit, hver, htargets⟩
  · simpa [accepted, href] using h
  have hacc : accepted fanout (.publishSnapshot epoch sequence sha256Hex net) =
      some (.snapshot epoch sequence (sha256Hex.getD [])) := by
    simp [accepted, hcode]
  rw [hacc] at hop ⊢
  have hcanonical := hop _ rfl
  have hnew : Publication.version (.snapshot epoch sequence (sha256Hex.getD [])) =
      of epoch sequence := rfl
  constructor
  · refine h.ordered.append hcanonical hinit hver.symm hge ?_
    intro digest hdigest
    left
    refine ⟨epoch, sequence, sha256Hex.getD [], by simp,
      bot_lt_of sequence hepoch, le_rfl, ?_⟩
    rw [hcanonical]
    exact hdigest
  · intro target htarget
    rw [htargets, mem_map] at htarget
    obtain ⟨out, hout, rfl⟩ := htarget
    obtain ⟨index, hidx, rfl⟩ := mem_mapIdx.mp hout
    have hold := h.targets _ (getElem_mem hidx)
    refine TargetOk.sendSnapshotBounded
      (hold.mono (fun _ hs => hs.mono (subset_append_left _ _))) ?_ _ _ _
    exact ⟨⟨_, by simp, hnew⟩, fun _ => hcanonical⟩

theorem Sound.publishRevoke_step
    {epoch sequence : UInt64} {sha256Hex : CStr} {covering : Option (List CStr)}
    {eventNet snapshotNet : ℕ → ℕ → Exchange}
    (hop : ∀ publication ∈ accepted fanout
        (.publishRevoke epoch sequence sha256Hex covering eventNet snapshotNet),
      publication.Canonical canon) :
    Sound canon (history ++ (accepted fanout
        (.publishRevoke epoch sequence sha256Hex covering eventNet snapshotNet)).toList)
      (publishRevoke fanout epoch sequence sha256Hex covering eventNet snapshotNet).1 := by
  rcases publishRevoke_cases fanout epoch sequence sha256Hex covering eventNet snapshotNet with
    href | ⟨hcode, hwas, hprev, hlt, hinit, hver, htargets⟩
  · simpa [accepted, href] using h
  have hacc : accepted fanout
      (.publishRevoke epoch sequence sha256Hex covering eventNet snapshotNet) =
      some (.revoke epoch sequence sha256Hex (covering.getD [])) := by
    simp [accepted, hcode]
  rw [hacc] at hop ⊢
  have hcanonical := hop _ rfl
  obtain ⟨hadds, hcovering⟩ := hcanonical
  have hnew : Publication.version (.revoke epoch sequence sha256Hex (covering.getD [])) =
      of epoch sequence := rfl
  constructor
  · refine h.ordered.append ⟨hadds, hcovering⟩ hinit hver.symm (fun _ => hlt.le) ?_
    intro digest hdigest
    refine Or.inr ⟨hwas, ?_⟩
    intro hmem
    apply hdigest
    rw [hnew, hadds, ← hprev]
    exact Set.mem_union_left _ hmem
  · intro target htarget
    rw [htargets, mem_map] at htarget
    obtain ⟨out, hout, rfl⟩ := htarget
    obtain ⟨index, hidx, rfl⟩ := mem_mapIdx.mp hout
    have hold := h.targets _ (getElem_mem hidx)
    refine TargetOk.publishRevokeTo
      (hold.mono (fun _ hs => hs.mono (subset_append_left _ _))) ?_ ?_ _ _ _ _ _
    · exact ⟨⟨_, by simp, hnew⟩, fun _ => hadds⟩
    · exact ⟨⟨_, by simp, hnew⟩, fun _ => hcovering⟩

theorem Sound.deliver_step (index : ℕ) (delivery : Delivery) :
    Sound canon history (deliverTo fanout index delivery) := by
  refine ⟨⟨h.ordered.canonical, h.ordered.le, h.ordered.current, h.ordered.dropped⟩, ?_⟩
  intro target htarget
  obtain ⟨position, hpos⟩ := mem_iff_getElem?.mp htarget
  simp only [deliverTo, getElem?_modify] at hpos
  cases hget : fanout.targets[position]? with
  | none => simp [hget] at hpos
  | some old =>
    have hold := h.targets old (mem_of_getElem? hget)
    simp only [hget, Option.map_eq_map, Option.map_some, Option.some.injEq] at hpos
    split_ifs at hpos
    · rw [← hpos]
      have hgrown := deliver_grown (P := Sent canon history) old.targetContext delivery
      exact hold.grown hgrown (fun hcnt => (hold.recorded hcnt).grown hgrown)
    · rw [← hpos]
      exact hold

theorem Sound.step {op : Op}
    (hop : ∀ publication ∈ accepted fanout op, publication.Canonical canon) :
    Sound canon (history ++ (accepted fanout op).toList) (machine.next fanout op) := by
  cases op with
  | publishSnapshot epoch sequence sha256Hex net => exact h.publishSnapshot_step hop
  | publishRevoke epoch sequence sha256Hex covering eventNet snapshotNet =>
    exact h.publishRevoke_step hop
  | deliver index delivery =>
    rw [accepted, Option.toList_none, append_nil]
    exact h.deliver_step index delivery

theorem Sound.run {ops : List Op}
    (hops : ∀ publication ∈ published fanout ops, publication.Canonical canon) :
    Sound canon (history ++ published fanout ops) (machine.run fanout ops) := by
  induction ops generalizing history fanout with
  | nil => simpa [published] using h
  | cons op ops ih =>
    rw [published] at hops ⊢
    rw [← append_assoc]
    apply ih
    · apply h.step
      intro publication hp
      exact hops publication (mem_append_left _ (Option.mem_toList.mpr hp))
    · intro publication hp
      exact hops publication (mem_append_right _ hp)

end Publish

variable {canon : Version → Set Digest} {history : List Publication}

theorem create_sound {maxAttempts : ℕ} {targets : List (CStr × Node)} {fanout : Fanout}
    (hcreate : create maxAttempts targets = some fanout)
    (hnodes : ∀ entry ∈ targets, entry.2.sent = [] ∧ entry.2.received = [] ∧
      ∃ maxEntries, stateCreate maxEntries = some entry.2.start) :
    Sound canon [] fanout := by
  unfold create at hcreate
  split_ifs at hcreate
  rw [← Option.some.inj hcreate]
  refine ⟨⟨by simp, by simp, by simp, by simp⟩, ?_⟩
  intro target htarget
  obtain ⟨entry, hent, rfl⟩ := mem_map.mp htarget
  obtain ⟨hsent, hrecv, hstart⟩ := hnodes entry hent
  refine ⟨hstart, by simp [hsent], ?_, by simp [countedSynchronized]⟩
  intro op hop
  simp [hrecv] at hop

theorem created_wellFormed {maxEntries : ℕ} {state : Revocation.State}
    (h : stateCreate maxEntries = some state) : state.toCursor.view.WellFormed := by
  unfold stateCreate at h
  split_ifs at h
  rw [← Option.some.inj h]
  exact Cursor.create_wellFormed

def versions (history : List Publication) : Set Version :=
  {v | ∃ publication ∈ history, publication.version = v}

theorem TargetOk.agrees {target : Target} {earlier later : List Revocation.Op}
    (h : TargetOk (Sent canon history) target)
    (hsplit : target.targetContext.received = earlier ++ later) :
    Revocation.Agrees canon (versions history)
      (Revocation.machine.run target.targetContext.start earlier) := by
  obtain ⟨maxEntries, hcreate⟩ := h.created
  refine run_agrees hcreate ?_
  intro op hop
  obtain ⟨request, hreq, memory, rfl⟩ := h.arrived op (by simp [hsplit, hop])
  obtain ⟨hpub, hcanonical⟩ := h.sent request hreq
  refine ⟨hcanonical memory, ?_⟩
  cases request with
  | snapshot epoch sequence sha256Hex | revoke epoch sequence sha256Hex => exact hpub

theorem TargetOk.agrees_now {target : Target} (h : TargetOk (Sent canon history) target) :
    Revocation.Agrees canon (versions history) target.targetContext.state := by
  have hsplit : target.targetContext.received = target.targetContext.received ++ [] := by
    simp
  exact h.agrees hsplit

theorem TargetOk.reached_le {target : Target} {v : Version}
    (h : TargetOk (Sent canon history) target) (hreached : Reached target.targetContext v) :
    v ≤ target.targetContext.state.version := by
  obtain ⟨earlier, later, hsplit, _, rfl⟩ := hreached
  obtain ⟨maxEntries, hcreate⟩ := h.created
  have htracks := ControlPlaneRuns.revocationMachine_tracks
  have hmid := htracks.wellFormed_run (created_wellFormed hcreate) earlier
  have hle := htracks.current_le_run hmid later
  rw [← Machine.run_append, ← hsplit] at hle
  exact hle

/-- **Fan-out agreement.**  In every run whose accepted publications are
canonical, over a transport that loses, repeats and delays requests and loses
answers: a target counted as synchronized at a version has reached a trusted
state with exactly the canonical digests of its version, which is not below the
recorded one; and the target clears a digest that was revoked at or before the
recorded version only if a later canonical snapshot dropped it. -/
theorem fanout_agreement {maxAttempts : ℕ} {targets : List (CStr × Node)} {f₀ : Fanout}
    (hcreate : create maxAttempts targets = some f₀)
    (hnodes : ∀ entry ∈ targets, entry.2.sent = [] ∧ entry.2.received = [] ∧
      ∃ maxEntries, Revocation.stateCreate maxEntries = some entry.2.start)
    (canon : Version → Set Digest) (ops : List Op)
    (hcanon : ∀ publication ∈ published f₀ ops, publication.Canonical canon) :
    ∀ target ∈ (machine.run f₀ ops).targets, countedSynchronized target = true →
      (∃ earlier later, target.targetContext.received = earlier ++ later ∧
        (Revocation.machine.run target.targetContext.start earlier).synchronized = true ∧
        {digest | digest ∈ (Revocation.machine.run target.targetContext.start earlier).digests} =
          canon (Revocation.machine.run target.targetContext.start earlier).version ∧
        of target.epoch target.sequence ≤
          (Revocation.machine.run target.targetContext.start earlier).version) ∧
      ∀ publication ∈ published f₀ ops, ∀ digest ∈ canon publication.version,
        publication.version ≤ of target.epoch target.sequence →
        Revocation.checkDigest target.targetContext.state (some digest) = .clear →
          Dropped (published f₀ ops) publication.version
            target.targetContext.state.version digest := by
  have hstart : Sound canon [] f₀ := create_sound hcreate hnodes
  have hsound := hstart.run hcanon
  rw [nil_append] at hsound
  intro target htarget hcounted
  have hok := hsound.targets target htarget
  have hrecorded := hok.recorded hcounted
  constructor
  · obtain ⟨earlier, later, hsplit, hsync, hversion⟩ := hrecorded
    have hagrees := hok.agrees hsplit hsync
    exact ⟨earlier, later, hsplit, hsync, hagrees.1, hversion.ge⟩
  · intro publication hpublication digest hdigest hle hclear
    obtain ⟨hsync, habsent⟩ := checkDigest_clear hclear
    obtain ⟨hdigests, last, hlast, hlastVersion⟩ := hok.agrees_now hsync
    have hgone : digest ∉ canon target.targetContext.state.version := by
      rw [← hdigests]
      exact habsent
    have hafter : publication.version ≤ last.version := by
      rw [hlastVersion]
      exact le_trans hle (hok.reached_le hrecorded)
    rcases hsound.ordered.dropped publication hpublication digest hdigest last hlast hafter with
      hstill | hdropped
    · rw [hlastVersion] at hstill
      exact absurd hstill hgone
    · rw [hlastVersion] at hdropped
      exact hdropped

/-- The first answer of each exchange is lost. -/
def lossyNet : ℕ → ℕ → Exchange :=
  fun _ attempt => ⟨[], some true, decide (attempt ≠ 1), []⟩

/-- The digest with all bytes zero, in hexadecimal. -/
def zeroHex : CStr :=
  replicate 64 48

/-- An empty snapshot, and one revoked digest at the next version. -/
def lossyRun : List Op :=
  [.publishSnapshot 1 1 (some []) lossyNet,
    .publishRevoke 1 2 zeroHex (some [zeroHex]) lossyNet lossyNet]

/-- The history of `lossyRun`. -/
def zeroRevoked (v : Version) : Set Digest :=
  {digest | v = of 1 2 ∧ digest = replicate 32 0}

theorem digestSet_zeroHex : digestSet [zeroHex] = zeroRevoked (of 1 2) := by
  have hparse : revocationParseDigest zeroHex = some (replicate 32 0) := by
    decide +kernel
  ext digest
  simp [digestSet, zeroRevoked, hparse, eq_comm]

theorem lossyRun_canonical {publication : Publication}
    (h : publication ∈ [Publication.snapshot 1 1 [], .revoke 1 2 zeroHex [zeroHex]]) :
    publication.Canonical zeroRevoked := by
  have hempty : zeroRevoked (of 1 1) = ∅ := by
    have hne : of 1 1 ≠ of 1 2 := by decide
    ext digest
    simp [zeroRevoked, hne]
  simp only [mem_cons, not_mem_nil, or_false] at h
  rcases h with rfl | rfl
  · change digestSet [] = zeroRevoked (of 1 1)
    rw [hempty]
    simp [digestSet]
  · have hprev : zeroRevoked (of 1 (2 - 1)) = ∅ := hempty
    refine ⟨?_, digestSet_zeroHex⟩
    rw [hprev, Set.empty_union, digestSet_zeroHex]

def lossyFanout : Fanout :=
  ⟨2, [⟨[97], ⟨{ Cursor.create with maxEntries := 4, digests := [] }, [], []⟩,
    .unknown, .fatal, 0, 0, 0⟩], false, 0, 0⟩

/-- The retried event is answered STALE and the target counts as synchronized
at (1, 2). -/
theorem fanout_agreement_lossyRun :
    (machine.run lossyFanout lossyRun).targets.length = 1 ∧
    ∀ target ∈ (machine.run lossyFanout lossyRun).targets, target.lastTransportResult = .stale ∧
      ∃ earlier later, target.targetContext.received = earlier ++ later ∧ {digest | digest ∈
            (Revocation.machine.run target.targetContext.start earlier).digests} =
          zeroRevoked (Revocation.machine.run target.targetContext.start earlier).version ∧
        of target.epoch target.sequence ≤
          (Revocation.machine.run target.targetContext.start earlier).version := by
  have hcreate : create 2 [([97],
      ⟨{ Cursor.create with maxEntries := 4, digests := [] }, [], []⟩)] =
        some lossyFanout := by
    decide
  have hpublished : published lossyFanout lossyRun =
      [.snapshot 1 1 [], .revoke 1 2 zeroHex [zeroHex]] := by
    decide +kernel
  have hall : (machine.run lossyFanout lossyRun).targets.all (fun target =>
      countedSynchronized target && target.lastTransportResult == .stale) = true := by
    decide +kernel
  refine ⟨by decide +kernel, ?_⟩
  intro target htarget
  have hboth := all_eq_true.mp hall target htarget
  rw [Bool.and_eq_true, beq_iff_eq] at hboth
  refine ⟨hboth.2, ?_⟩
  obtain ⟨earlier, later, hsplit, _, hdigests, hle⟩ :=
    (fanout_agreement hcreate (by
        intro entry hentry
        rw [mem_singleton] at hentry
        subst hentry
        exact ⟨rfl, rfl, 4, rfl⟩)
      zeroRevoked lossyRun (by
        intro publication hp
        rw [hpublished] at hp
        exact lossyRun_canonical hp) target htarget hboth.1).1
  exact ⟨earlier, later, hsplit, hdigests, hle⟩

end TurboMedia.RevocationFanout
