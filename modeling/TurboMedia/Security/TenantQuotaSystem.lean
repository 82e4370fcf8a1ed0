import TurboMedia.Security.TenantQuotaLedger

/-!
# Allocator and nodes together

One allocator, any number of node projections with distinct node ids, the node
snapshots in flight and one shared clock.  Snapshots are delivered in any
order, lost, or delivered again: they stay in flight for ever and a delivery
picks any of them.

The allocator frees the budget of a lease as soon as it withdraws it (revoke,
replacement, covering snapshot), while the node honours the lease until a later
snapshot reaches it.  The limits honoured by all nodes can therefore exceed the
policy.  What holds is the bound for the leases that are not superseded: not
withdrawn by the allocator at a version the node has not applied yet.

`withdrawn` is a ghost field.  It records the live leases that an allocator
call removed, with the version of that call.
-/

namespace TurboMedia.TenantQuotaSystem

open List SlotTable TenantQuota ControlPlaneRuns

open TenantQuota (Lease Slot Projection Resource)
open TenantQuotaAllocator (Allocator NodeSnapshot machine_funded unexpired committedLimits
  allocatorFindPolicy Funded create_funded)

/-- Allocator, nodes, messages and clock. -/
structure System where
  allocator : Allocator
  nodes : List Projection
  inFlight : List NodeSnapshot
  nowUnixMs : UInt64
  withdrawn : List (Lease × Version)

inductive Op where
  | allocate (call : TenantQuotaAllocator.Op)
  | deliver (index : ℕ) (memory : Bool)
  | reserve (nodeId tenantId : CStr) (resource : Option Resource) (amount : UInt32)
  | release (nodeId tenantId : CStr) (resource : Option Resource) (amount : UInt32)
  | advance (toUnixMs : UInt64)

/-- The allocator call made at the time of the shared clock. -/
def atClock (nowUnixMs : UInt64) : TenantQuotaAllocator.Op → TenantQuotaAllocator.Op
  | .applySnapshot epoch sequence policies leases _ memory =>
    .applySnapshot epoch sequence policies leases nowUnixMs memory
  | .setPolicy epoch sequence policy _ => .setPolicy epoch sequence policy nowUnixMs
  | .grant epoch sequence lease _ => .grant epoch sequence lease nowUnixMs
  | .revoke epoch sequence tenantId nodeId _ => .revoke epoch sequence tenantId nodeId nowUnixMs
  | .buildNodeSnapshot nodeId _ capacity => .buildNodeSnapshot nodeId nowUnixMs capacity
  | .commitment tenantId _ => .commitment tenantId nowUnixMs

/-- Node snapshot that a call put on the wire. -/
def sentSnapshot : TenantQuotaAllocator.Answer → Option NodeSnapshot
  | .nodeSnapshot snapshot => snapshot
  | _ => none

/-- Live leases that were issued before a call and are not issued after it. -/
def removedLeases (nowUnixMs : UInt64) (before after : Allocator) : List Lease :=
  before.leases.reduceOption.filter (fun lease =>
    unexpired nowUnixMs lease && !decide (lease ∈ after.leases.reduceOption))

def updateNode (nodes : List Projection) (nodeId : CStr) (f : Projection → Projection) :
    List Projection :=
  nodes.map (fun p => if p.nodeId = nodeId then f p else p)

def receive (snapshot : NodeSnapshot) (memory : Bool) (p : Projection) : Projection :=
  (applySnapshot p snapshot.epoch snapshot.sequence (some snapshot.leases) memory).1

def next (s : System) : Op → System
  | .allocate call =>
    let out := TenantQuotaAllocator.machine.step s.allocator (atClock s.nowUnixMs call)
    { s with
      allocator := out.1
      inFlight := (sentSnapshot out.2).toList ++ s.inFlight
      withdrawn :=
        (removedLeases s.nowUnixMs s.allocator out.1).map (fun lease => (lease, out.1.version)) ++
          s.withdrawn }
  | .deliver index memory =>
    match s.inFlight[index]? with
    | none => s
    | some snapshot =>
      { s with nodes := updateNode s.nodes snapshot.nodeId (receive snapshot memory) }
  | .reserve nodeId tenantId resource amount =>
    { s with
      nodes := updateNode s.nodes nodeId
        (fun p => (reserve p tenantId resource amount s.nowUnixMs).1) }
  | .release nodeId tenantId resource amount =>
    { s with
      nodes := updateNode s.nodes nodeId
        (fun p => (release p tenantId resource amount).1) }
  | .advance toUnixMs =>
    { s with nowUnixMs := if s.nowUnixMs ≤ toUnixMs then toUnixMs else s.nowUnixMs }

def machine : Machine System Op Unit where
  step s op := (next s op, ())

def initial (a : Allocator) (nodes : List Projection) (nowUnixMs : UInt64) : System :=
  ⟨a, nodes, [], nowUnixMs, []⟩

def slotLease (p : Projection) (slot : Slot) : Lease :=
  ⟨slot.tenantId, p.nodeId, slot.expiresAtUnixMs, slot.limits⟩

/-- Lease that a node honours in `reserve` at the given time. -/
def honoured (p : Projection) (tenantId : CStr) (nowUnixMs : UInt64) : Option Lease :=
  match quotaFindSlot p tenantId with
  | none => none
  | some (_, slot) =>
    if p.synchronized && slot.hasLease && decide (nowUnixMs < slot.expiresAtUnixMs) then
      some (slotLease p slot)
    else none

/-- The allocator withdrew the lease at a version the node has not applied. -/
def superseded (s : System) (p : Projection) (lease : Lease) : Bool :=
  !decide (lease ∈ s.allocator.leases.reduceOption) &&
    s.withdrawn.any (fun e => e.1 == lease && decide (p.version < e.2))

/-- Policy limit of a tenant at the allocator, zero without a policy. -/
def policyLimit (a : Allocator) (tenantId : CStr) (r : Resource) : ℕ :=
  match allocatorFindPolicy a tenantId with
  | none => 0
  | some (_, policy) => (policy.limits r).toNat

/-- Sum over the nodes of the limits they honour. -/
def honouredTotal (s : System) (tenantId : CStr) (r : Resource) : ℕ :=
  ((s.nodes.filterMap (fun p => honoured p tenantId s.nowUnixMs)).map
    (fun lease => (lease.limits r).toNat)).sum

def currentTotal (s : System) (tenantId : CStr) (r : Resource) : ℕ :=
  ((s.nodes.filterMap (fun p =>
      (honoured p tenantId s.nowUnixMs).filter (fun lease => !superseded s p lease))).map
    (fun lease => (lease.limits r).toNat)).sum

section AllocatorCalls

open TenantQuotaAllocator

variable {a : Allocator} {op : TenantQuotaAllocator.Op}

theorem unapplied_keeps {lease : Lease}
    (happ : allocatorMachine.applied op
      (TenantQuotaAllocator.machine.answer a op) = false) (hmem : lease ∈ a.leases.reduceOption)
    (hlive : unexpired (callTime op) lease = true) :
    lease ∈ (TenantQuotaAllocator.machine.next a op).leases.reduceOption := by
  have hprune : lease ∈
      (allocatorPruneExpired a (callTime op)).leases.reduceOption := by
    rw [allocatorPruneExpired, reduceOption_map_filter, mem_filter]
    exact ⟨hmem, hlive⟩
  have hcall := call_outcome a op
  generalize TenantQuotaAllocator.machine.next a op = b,
    TenantQuotaAllocator.machine.answer a op = answer at happ hcall ⊢
  cases hcall with
  | snapshot hop hout =>
    subst hop
    cases hout with
    | applied _ _ _ _ _ _ _ => simp [allocatorMachine] at happ
    | _ => exact hmem
  | update _ _ hout =>
    cases hout with
    | rejected _ _ => exact hprune
    | applied _ _ _ _ => simp [allocator_applied_result] at happ
    | _ => exact hmem
  | query hb _ =>
    rcases hb with rfl | rfl
    · exact hmem
    · exact hprune

theorem version_lt_of_removed {lease : Lease}
    (hwell : a.toCursor.view.WellFormed) (hmem : lease ∈ a.leases.reduceOption)
    (hlive : unexpired (callTime op) lease = true)
    (hgone : lease ∉ (TenantQuotaAllocator.machine.next a op).leases.reduceOption) :
    a.version < (TenantQuotaAllocator.machine.next a op).version := by
  cases happ : allocatorMachine.applied op
      (TenantQuotaAllocator.machine.answer a op) with
  | true => exact allocatorMachine_tracks.applied_lt hwell happ
  | false => exact absurd (unapplied_keeps happ hmem hlive) hgone

theorem sentSnapshot_spec {snapshot : NodeSnapshot}
    (h : sentSnapshot (TenantQuotaAllocator.machine.answer a op) = some snapshot) :
    Version.of snapshot.epoch snapshot.sequence = (TenantQuotaAllocator.machine.next a op).version ∧
      ∀ lease ∈ snapshot.leases, lease.nodeId = snapshot.nodeId ∧
          lease ∈ (TenantQuotaAllocator.machine.next a op).leases.reduceOption := by
  cases op with
  | buildNodeSnapshot nodeId nowUnixMs capacity =>
    simp only [Machine.answer, Machine.next, TenantQuotaAllocator.machine, Prod.map,
      sentSnapshot, buildNodeSnapshot] at h ⊢
    split_ifs at h ⊢ with hbad hroom
    obtain rfl := Option.some.inj h
    refine ⟨rfl, ?_⟩
    intro lease hlease
    rw [mem_filter, beq_iff_eq] at hlease
    exact ⟨hlease.2, hlease.1⟩
  | _ => simp [Machine.answer, TenantQuotaAllocator.machine, sentSnapshot] at h

end AllocatorCalls

section Invariant

/-- A lease known at version `v` is issued, expired, or was withdrawn later. -/
def Backed (s : System) (v : Version) (lease : Lease) : Prop :=
  lease ∈ s.allocator.leases.reduceOption ∨ lease.expiresAtUnixMs ≤ s.nowUnixMs ∨
    ∃ w, (lease, w) ∈ s.withdrawn ∧ v < w

/-- Every lease on the wire or at a node is backed at its own version. -/
structure Sound (ids : List CStr) (s : System) : Prop where
  wellFormed : s.allocator.toCursor.view.WellFormed
  funded : Funded s.allocator
  sent_le : ∀ m ∈ s.inFlight, Version.of m.epoch m.sequence ≤ s.allocator.version
  sent_node : ∀ m ∈ s.inFlight, ∀ lease ∈ m.leases, lease.nodeId = m.nodeId
  sent_backed : ∀ m ∈ s.inFlight, ∀ lease ∈ m.leases,
    Backed s (Version.of m.epoch m.sequence) lease
  node_le : ∀ p ∈ s.nodes, p.version ≤ s.allocator.version
  node_backed : ∀ p ∈ s.nodes, ∀ slot ∈ p.slots.reduceOption,
    slot.hasLease = true → Backed s p.version (slotLease p slot)
  node_ids : s.nodes.map Projection.nodeId = ids

variable {nodeId : CStr} {f : Projection → Projection}

theorem mem_updateNode {nodes : List Projection} {q : Projection}
    (h : q ∈ updateNode nodes nodeId f) : q ∈ nodes ∨ ∃ p ∈ nodes, p.nodeId = nodeId ∧ q = f p := by
  rw [updateNode, mem_map] at h
  obtain ⟨p, hp, hq⟩ := h
  split_ifs at hq with hid
  · exact Or.inr ⟨p, hp, hid, hq.symm⟩
  · exact Or.inl (hq ▸ hp)

theorem updateNode_ids {nodes : List Projection} (hf : ∀ p, (f p).nodeId = p.nodeId) :
    (updateNode nodes nodeId f).map Projection.nodeId = nodes.map Projection.nodeId := by
  rw [updateNode, map_map]
  apply map_congr_left
  intro p _
  simp only [Function.comp_apply]
  split_ifs
  · exact hf p
  · rfl

/-- Every lease of `p'` is a lease of `p`, and the version is the same. -/
structure SameLeases (p p' : Projection) : Prop where
  nodeId : p'.nodeId = p.nodeId
  version : p'.version = p.version
  leases : ∀ slot' ∈ p'.slots.reduceOption, slot'.hasLease = true →
    ∃ slot ∈ p.slots.reduceOption, slot.hasLease = true ∧ slotLease p' slot' = slotLease p slot

theorem SameLeases.refl (p : Projection) : SameLeases p p :=
  ⟨rfl, rfl, fun slot hslot hlease => ⟨slot, hslot, hlease, rfl⟩⟩

theorem sameLeases_set {p : Projection} {index : ℕ} {slot : Slot} {content : Option Slot}
    (hget : p.slots[index]? = some (some slot))
    (hbody : ∀ new ∈ content, ∃ used, new = { slot with used := used }) :
    SameLeases p { p with slots := p.slots.set index content } := by
  refine ⟨rfl, rfl, ?_⟩
  intro slot' hslot' hlease
  rw [(perm_set hget content).mem_iff, mem_append] at hslot'
  rcases hslot' with hnew | hold
  · rw [Option.mem_toList] at hnew
    obtain ⟨used, rfl⟩ := hbody slot' hnew
    exact ⟨slot, mem_of_getElem? hget, hlease, rfl⟩
  · exact ⟨slot', (set_none_subperm hget).subset hold, hlease, rfl⟩

theorem reserve_sameLeases (p : Projection) (tenantId : CStr) (resource : Option Resource)
    (amount : UInt32) (nowUnixMs : UInt64) :
    SameLeases p (reserve p tenantId resource amount nowUnixMs).1 := by
  have hout := reserve_outcome p tenantId resource amount nowUnixMs
  generalize reserve p tenantId resource amount nowUnixMs = out at hout
  cases hout with
  | denied _ _ => exact SameLeases.refl p
  | ok _ _ hfind _ _ =>
    refine sameLeases_set (findOccupied_some hfind).1 ?_
    intro new hnew
    exact ⟨_, (Option.some.inj hnew).symm⟩

theorem release_sameLeases
    (p : Projection) (tenantId : CStr) (resource : Option Resource) (amount : UInt32) :
    SameLeases p (release p tenantId resource amount).1 := by
  have hout := release_outcome p tenantId resource amount
  generalize release p tenantId resource amount = out at hout
  cases hout with
  | denied => exact SameLeases.refl p
  | ok _ hfind _ hbody =>
    refine sameLeases_set (findOccupied_some hfind).1 ?_
    intro new hnew
    rcases hbody with rfl | ⟨rfl, _⟩
    · exact ⟨_, (Option.some.inj hnew).symm⟩
    · simp at hnew

variable {ids : List CStr} {s : System}

theorem Sound.nodes_step (h : Sound ids s) (hf : ∀ p, SameLeases p (f p)) :
    Sound ids { s with nodes := updateNode s.nodes nodeId f } where
  wellFormed := h.wellFormed
  funded := h.funded
  sent_le := h.sent_le
  sent_node := h.sent_node
  sent_backed := h.sent_backed
  node_le q hq := by
    rcases mem_updateNode hq with hq | ⟨p, hp, _, rfl⟩
    · exact h.node_le q hq
    · rw [(hf p).version]
      exact h.node_le p hp
  node_backed q hq slot' hslot' hlease := by
    rcases mem_updateNode hq with hq | ⟨p, hp, _, rfl⟩
    · exact h.node_backed q hq slot' hslot' hlease
    · obtain ⟨slot, hslot, hlease, heq⟩ := (hf p).leases slot' hslot' hlease
      rw [heq, (hf p).version]
      exact h.node_backed p hp slot hslot hlease
  node_ids := by
    rw [updateNode_ids (fun p => (hf p).nodeId)]
    exact h.node_ids

theorem receive_nodeId (m : NodeSnapshot) (memory : Bool) (p : Projection) :
    (receive m memory p).nodeId = p.nodeId := by
  have hout := applySnapshot_outcome p m.epoch m.sequence (some m.leases) memory
  unfold receive
  generalize applySnapshot p m.epoch m.sequence (some m.leases) memory = out at hout
  cases hout <;> rfl

/-- After a delivery a node has its old leases at its old version, or the
leases of the snapshot at the version of the snapshot. -/
theorem receive_cases (m : NodeSnapshot) (memory : Bool) (p : Projection) :
    SameLeases p (receive m memory p) ∨
      (receive m memory p).version = Version.of m.epoch m.sequence ∧
        ∀ slot ∈ (receive m memory p).slots.reduceOption, slot.hasLease = true →
          ∃ lease ∈ m.leases, slot.tenantId = lease.tenantId ∧
            slot.expiresAtUnixMs = lease.expiresAtUnixMs ∧ slot.limits = lease.limits := by
  have hout := applySnapshot_outcome p m.epoch m.sequence (some m.leases) memory
  unfold receive
  generalize applySnapshot p m.epoch m.sequence (some m.leases) memory = out at hout
  cases hout with
  | refused _ | stale => exact Or.inl (SameLeases.refl p)
  | asked _ _ _ _ =>
    refine Or.inl ⟨rfl, ?_, fun slot hslot hlease => ⟨slot, hslot, hlease, rfl⟩⟩
    have hview := Cursor.requireSnapshot_view p.toCursor m.epoch m.sequence
    exact congrArg Watermark.current hview
  | @applied entries _ _ heq _ _ =>
    refine Or.inr ⟨rfl, ?_⟩
    intro slot hslot hlease
    obtain rfl := Option.some.inj heq
    rw [reduceOption_fill, replacementSlots, mem_append,
      mem_map, mem_map] at hslot
    rcases hslot with ⟨lease, hmem, rfl⟩ | ⟨old, _, rfl⟩
    · exact ⟨lease, hmem, rfl, rfl, rfl⟩
    · simp [tombstone] at hlease

theorem Sound.deliver_step {m : NodeSnapshot} (h : Sound ids s) (hm : m ∈ s.inFlight)
    (memory : Bool) :
    Sound ids { s with nodes := updateNode s.nodes m.nodeId (receive m memory) } where
  wellFormed := h.wellFormed
  funded := h.funded
  sent_le := h.sent_le
  sent_node := h.sent_node
  sent_backed := h.sent_backed
  node_le q hq := by
    rcases mem_updateNode hq with hq | ⟨p, hp, _, rfl⟩
    · exact h.node_le q hq
    · rcases receive_cases m memory p with hsame | ⟨hver, _⟩
      · rw [hsame.version]
        exact h.node_le p hp
      · rw [hver]
        exact h.sent_le m hm
  node_backed q hq slot hslot hlease := by
    rcases mem_updateNode hq with hq | ⟨p, hp, hid, rfl⟩
    · exact h.node_backed q hq slot hslot hlease
    · rcases receive_cases m memory p with hsame | ⟨hver, hleases⟩
      · obtain ⟨old, hold, holdLease, heq⟩ := hsame.leases slot hslot hlease
        rw [heq, hsame.version]
        exact h.node_backed p hp old hold holdLease
      · obtain ⟨lease, hmem, htenant, hexp, hlim⟩ := hleases slot hslot hlease
        have heq : slotLease (receive m memory p) slot = lease := by
          simp [slotLease, receive_nodeId, hid, htenant, hexp, hlim, ← h.sent_node m hm lease hmem]
        rw [heq, hver]
        exact h.sent_backed m hm lease hmem
  node_ids := by
    rw [updateNode_ids (receive_nodeId m memory)]
    exact h.node_ids

/-- Backing survives every allocator call: a lease that leaves the table is
expired or withdrawn at a higher version. -/
theorem Backed.allocate {call : TenantQuotaAllocator.Op} {v : Version} {lease : Lease}
    (hwell : s.allocator.toCursor.view.WellFormed) (hv : v ≤ s.allocator.version)
    (h : Backed s v lease) : Backed (next s (.allocate call)) v lease := by
  rcases h with hmem | hexp | ⟨w, hw, hlt⟩
  · by_cases hlive : unexpired s.nowUnixMs lease = true
    · by_cases hgone : lease ∈ (next s (.allocate call)).allocator.leases.reduceOption
      · exact Or.inl hgone
      · refine Or.inr (Or.inr ⟨(next s (.allocate call)).allocator.version, ?_, ?_⟩)
        · have hrem : lease ∈ removedLeases s.nowUnixMs s.allocator
              (next s (.allocate call)).allocator := by
            rw [removedLeases, mem_filter, Bool.and_eq_true]
            exact ⟨hmem, hlive, by simpa using hgone⟩
          exact mem_append_left _ (mem_map.mpr ⟨lease, hrem, rfl⟩)
        · refine lt_of_le_of_lt hv (version_lt_of_removed hwell hmem ?_ hgone)
          cases call <;> exact hlive
    · right
      left
      have hexp : lease.expiresAtUnixMs ≤ s.nowUnixMs := by
        simpa [unexpired] using hlive
      exact hexp
  · exact Or.inr (Or.inl hexp)
  · refine Or.inr (Or.inr ⟨w, ?_, hlt⟩)
    simp only [next, mem_append]
    exact Or.inr hw

theorem Sound.allocate_step (h : Sound ids s) (call : TenantQuotaAllocator.Op) :
    Sound ids (next s (.allocate call)) := by
  have htracks := allocatorMachine_tracks
  have hle : s.allocator.version ≤ (next s (.allocate call)).allocator.version :=
    htracks.current_le h.wellFormed (atClock s.nowUnixMs call)
  have hsent : ∀ m ∈ (next s (.allocate call)).inFlight, m ∈ s.inFlight ∨
      sentSnapshot (TenantQuotaAllocator.machine.answer s.allocator
        (atClock s.nowUnixMs call)) = some m := by
    intro m hm
    simp only [next, mem_append, Option.mem_toList] at hm
    exact hm.symm
  refine ⟨?_, ?_, ?_, ?_, ?_, ?_, ?_, h.node_ids⟩
  · exact htracks.wellFormed_run h.wellFormed [atClock s.nowUnixMs call]
  · exact machine_funded h.funded _
  · intro m hm
    rcases hsent m hm with hm | hm
    · exact le_trans (h.sent_le m hm) hle
    · exact (sentSnapshot_spec hm).1.le
  · intro m hm lease hlease
    rcases hsent m hm with hm | hm
    · exact h.sent_node m hm lease hlease
    · exact ((sentSnapshot_spec hm).2 lease hlease).1
  · intro m hm lease hlease
    rcases hsent m hm with hm | hm
    · exact (h.sent_backed m hm lease hlease).allocate h.wellFormed (h.sent_le m hm)
    · exact Or.inl ((sentSnapshot_spec hm).2 lease hlease).2
  · intro p hp
    exact le_trans (h.node_le p hp) hle
  · intro p hp slot hslot hlease
    exact (h.node_backed p hp slot hslot hlease).allocate h.wellFormed (h.node_le p hp)

theorem Backed.later {v : Version} {lease : Lease} {nowUnixMs : UInt64} (h : Backed s v lease)
    (hle : s.nowUnixMs ≤ nowUnixMs) : Backed { s with nowUnixMs := nowUnixMs } v lease := by
  rcases h with hmem | hexp | hw
  · exact Or.inl hmem
  · exact Or.inr (Or.inl (UInt64.le_trans hexp hle))
  · exact Or.inr (Or.inr hw)

theorem Sound.later {nowUnixMs : UInt64} (h : Sound ids s) (hle : s.nowUnixMs ≤ nowUnixMs) :
    Sound ids { s with nowUnixMs := nowUnixMs } :=
  ⟨h.wellFormed, h.funded, h.sent_le, h.sent_node,
    fun m hm lease hlease => (h.sent_backed m hm lease hlease).later hle,
    h.node_le,
    fun p hp slot hslot hlease => (h.node_backed p hp slot hslot hlease).later hle,
    h.node_ids⟩

theorem Sound.step (h : Sound ids s) (op : Op) : Sound ids (next s op) := by
  cases op with
  | allocate call => exact h.allocate_step call
  | deliver index memory =>
    simp only [next]
    cases hget : s.inFlight[index]? with
    | none => exact h
    | some m => exact h.deliver_step (mem_of_getElem? hget) memory
  | reserve nodeId tenantId resource amount =>
    exact h.nodes_step (fun p => reserve_sameLeases p tenantId resource amount _)
  | release nodeId tenantId resource amount =>
    exact h.nodes_step (fun p => release_sameLeases p tenantId resource amount)
  | advance toUnixMs =>
    simp only [next]
    split_ifs with hle
    · exact h.later hle
    · exact h

end Invariant

theorem committed_le_policyLimit {a : Allocator} (h : Funded a)
    (tenantId : CStr) (r : Resource) :
    committedLimits a.leases.reduceOption tenantId r ≤
      policyLimit a tenantId r := by
  unfold policyLimit
  cases hfind : allocatorFindPolicy a tenantId with
  | none =>
    have hnone := findOccupied_none hfind
    apply le_of_eq
    apply Ledger.committed_eq_zero
    intro lease hlease heq
    obtain ⟨policy, hpolicy, hacc⟩ := h.owned lease hlease
    have hkey := hnone policy hpolicy
    simp only [beq_eq_false_iff_ne, ne_eq] at hkey
    exact hkey (hacc.trans heq)
  | some e =>
    obtain ⟨row, policy⟩ := e
    obtain ⟨hget, hkey⟩ := findOccupied_some hfind
    have hcovered := h.covered policy (mem_of_getElem? hget) r
    have htenant : policy.tenantId = tenantId := by simpa using hkey
    rw [← htenant]
    exact hcovered

theorem honoured_spec {p : Projection} {tenantId : CStr} {nowUnixMs : UInt64} {lease : Lease}
    (h : honoured p tenantId nowUnixMs = some lease) :
    lease.tenantId = tenantId ∧ lease.nodeId = p.nodeId ∧ nowUnixMs < lease.expiresAtUnixMs ∧
      ∃ slot ∈ p.slots.reduceOption, slot.hasLease = true ∧ lease = slotLease p slot := by
  unfold honoured at h
  cases hfind : quotaFindSlot p tenantId with
  | none => simp [hfind] at h
  | some e =>
    obtain ⟨index, slot⟩ := e
    simp only [hfind] at h
    split_ifs at h with hlive
    obtain ⟨hget, hkey⟩ := findOccupied_some hfind
    simp only [Bool.and_eq_true, decide_eq_true_eq] at hlive
    have heq := Option.some.inj h
    refine ⟨?_, ?_, ?_, slot, mem_of_getElem? hget, hlive.1.2, heq.symm⟩
    · rw [← heq]
      simpa [slotLease] using hkey
    · rw [← heq]
      rfl
    · rw [← heq]
      exact hlive.2

/-- In a sound system a lease that is honoured and not superseded is issued. -/
theorem Sound.honoured_issued
    {ids : List CStr} {s : System} {p : Projection} {tenantId : CStr} {lease : Lease}
    (h : Sound ids s) (hp : p ∈ s.nodes) (hhon : honoured p tenantId s.nowUnixMs = some lease)
    (hcur : superseded s p lease = false) : lease ∈ s.allocator.leases.reduceOption := by
  obtain ⟨_, _, hlive, slot, hslot, hlease, heq⟩ := honoured_spec hhon
  have hback := h.node_backed p hp slot hslot hlease
  rw [← heq] at hback
  rcases hback with hmem | hexp | ⟨w, hw, hlt⟩
  · exact hmem
  · exact absurd hexp (UInt64.not_le.mpr hlive)
  · by_contra hgone
    have hsup : superseded s p lease = true := by
      simp only [superseded, Bool.and_eq_true, Bool.not_eq_true', decide_eq_false_iff_not,
        any_eq_true, beq_iff_eq, decide_eq_true_eq]
      exact ⟨hgone, (lease, w), hw, rfl, hlt⟩
    simp [hcur] at hsup

theorem Sound.currentTotal_le {ids : List CStr} {s : System} (h : Sound ids s) (hids : ids.Nodup)
    (tenantId : CStr) (r : Resource) :
    currentTotal s tenantId r ≤ policyLimit s.allocator tenantId r := by
  have hspec : ∀ p lease,
      (honoured p tenantId s.nowUnixMs).filter (fun lease => !superseded s p lease) =
          some lease →
        honoured p tenantId s.nowUnixMs = some lease ∧ superseded s p lease = false := by
    intro p lease hg
    simpa [Option.filter_eq_some_iff] using hg
  let current := s.nodes.filterMap (fun p =>
    (honoured p tenantId s.nowUnixMs).filter (fun lease => !superseded s p lease))
  have hmem : ∀ lease ∈ current,
      lease ∈ s.allocator.leases.reduceOption ∧ lease.tenantId = tenantId := by
    intro lease hlease
    obtain ⟨p, hp, hg⟩ := mem_filterMap.mp hlease
    obtain ⟨hhon, hcur⟩ := hspec p lease hg
    exact ⟨h.honoured_issued hp hhon hcur, (honoured_spec hhon).1⟩
  have hnodup : current.Nodup := by
    have hsub : (current.map Lease.nodeId).Sublist (s.nodes.map Projection.nodeId) := by
      apply map_filterMap_sublist
      intro p lease hg
      exact (honoured_spec (hspec p lease hg).1).2.1
    apply List.Nodup.of_map Lease.nodeId
    apply hsub.nodup
    rw [h.node_ids]
    exact hids
  have hsubperm : current.Subperm s.allocator.leases.reduceOption :=
    subperm_of_subset hnodup (fun lease hlease => (hmem lease hlease).1)
  have hsum : currentTotal s tenantId r =
      committedLimits current tenantId r := by
    have hall : current.filter (fun lease => lease.tenantId = tenantId) = current := by
      rw [filter_eq_self]
      intro lease hlease
      simpa using (hmem lease hlease).2
    unfold committedLimits Ledger.committed
    change _ = ((current.filter (fun lease => lease.tenantId = tenantId)).map _).sum
    rw [hall]
    rfl
  calc
    currentTotal s tenantId r = committedLimits current tenantId r := hsum
    _ ≤ committedLimits s.allocator.leases.reduceOption tenantId r :=
        Ledger.committed_le_of_subperm hsubperm tenantId r
    _ ≤ policyLimit s.allocator tenantId r := committed_le_policyLimit h.funded tenantId r

theorem initial_sound {maxTenants maxIssuedLeases : ℕ} {a : Allocator} {nodes : List Projection}
    (ha : TenantQuotaAllocator.create maxTenants maxIssuedLeases = some a)
    (hnodes : ∀ p ∈ nodes, ∃ maxSlots,
      projectionCreate p.nodeId maxSlots = some p) (nowUnixMs : UInt64) :
    Sound (nodes.map Projection.nodeId) (initial a nodes nowUnixMs) := by
  have hcursor : a.toCursor = Cursor.create := by
    unfold TenantQuotaAllocator.create at ha
    split_ifs at ha
    rw [← Option.some.inj ha]
  have hnode : ∀ p ∈ nodes, p.toCursor = Cursor.create ∧ p.slots.reduceOption = [] := by
    intro p hp
    obtain ⟨maxSlots, hcreate⟩ := hnodes p hp
    unfold projectionCreate at hcreate
    split_ifs at hcreate
    rw [← Option.some.inj hcreate]
    exact ⟨rfl, by simp⟩
  refine ⟨?_, create_funded ha, by simp [initial], by simp [initial],
    by simp [initial], ?_, ?_, rfl⟩
  · simpa [initial, hcursor] using Cursor.create_wellFormed
  · intro p hp
    simp [initial, Cursor.version, (hnode p hp).1, hcursor]
  · intro p hp slot hslot
    rw [(hnode p hp).2] at hslot
    simp at hslot

/-- **Tenant-wide bound across nodes.**  In every state reached by allocator
calls, deliveries in any order with loss and repetition, local reservations and
releases, and the shared clock: the limits that the nodes honour for a tenant,
superseded leases left out, add up to at most the tenant's policy limit. -/
theorem honoured_limits_within_policy
    {maxTenants maxIssuedLeases : ℕ} {a : Allocator} {nodes : List Projection}
    (ha : TenantQuotaAllocator.create maxTenants maxIssuedLeases = some a)
    (hnodes : ∀ p ∈ nodes, ∃ maxSlots, projectionCreate p.nodeId maxSlots = some p)
    (hids : (nodes.map Projection.nodeId).Nodup) (nowUnixMs : UInt64) (ops : List Op)
    (tenantId : CStr) (r : Resource) :
    currentTotal (machine.run (initial a nodes nowUnixMs) ops) tenantId r ≤
      policyLimit (machine.run (initial a nodes nowUnixMs) ops).allocator tenantId r := by
  have hsound : Sound (nodes.map Projection.nodeId) (machine.run (initial a nodes nowUnixMs) ops) :=
    machine.run_invariant (P := Sound (nodes.map Projection.nodeId))
      (fun _ op h => h.step op) (initial_sound ha hnodes nowUnixMs) ops
  exact hsound.currentTotal_le hids tenantId r

/-- A tenant's ten rooms go to node `a`, are revoked, and go to node `b`. -/
def movedLeaseRun : List Op :=
  [.allocate (.applySnapshot 1 1 (some [⟨[116], fun _ => 10⟩]) (some []) 0 ⟨true, true⟩),
    .allocate (.grant 1 2 (some ⟨[116], [97], 100, fun _ => 10⟩) 0),
    .allocate (.buildNodeSnapshot [97] 0 1),
    .deliver 0 true,
    .allocate (.revoke 1 3 [116] [97] 0),
    .allocate (.grant 1 4 (some ⟨[116], [98], 100, fun _ => 10⟩) 0),
    .allocate (.buildNodeSnapshot [98] 0 1),
    .deliver 0 true]

/-- Before node `a` hears of the revocation both nodes honour ten rooms. -/
theorem honoured_limits_exceed_policy :
    ∃ a p q, TenantQuotaAllocator.create 1 2 = some a ∧
      projectionCreate [97] 1 = some p ∧ projectionCreate [98] 1 = some q ∧
      policyLimit (machine.run (initial a [p, q] 0) movedLeaseRun).allocator [116] .rooms = 10 ∧
      honouredTotal (machine.run (initial a [p, q] 0) movedLeaseRun) [116] .rooms = 20 := by
  refine ⟨_, _, _, rfl, rfl, rfl, ?_, ?_⟩
  · decide
  · decide

theorem honoured_limits_within_policy_movedLeaseRun :
    ∃ a p q, TenantQuotaAllocator.create 1 2 = some a ∧
      projectionCreate [97] 1 = some p ∧ projectionCreate [98] 1 = some q ∧
      currentTotal (machine.run (initial a [p, q] 0) movedLeaseRun) [116] .rooms ≤
        policyLimit (machine.run (initial a [p, q] 0) movedLeaseRun).allocator [116] .rooms := by
  refine ⟨_, _, _, rfl, rfl, rfl, ?_⟩
  refine honoured_limits_within_policy (by rfl : TenantQuotaAllocator.create 1 2 = some _)
    ?_ (by decide) 0 movedLeaseRun [116] .rooms
  intro p hp
  refine ⟨1, ?_⟩
  simp only [mem_cons, not_mem_nil, or_false] at hp
  rcases hp with rfl | rfl
  · rfl
  · rfl

end TurboMedia.TenantQuotaSystem
