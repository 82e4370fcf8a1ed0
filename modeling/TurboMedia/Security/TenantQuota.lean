import TurboMedia.Lib.SlotTable
import TurboMedia.Lib.Ledger
import TurboMedia.Security.ControlPlaneVersion

/-!
# Tenant quota projection of one node

Model of `turbo_media_tenant_quota.c`: the bounded, caller-serialized view a
node keeps of the leases assigned to it, with its local usage.

A slot is `none` when its memory is zeroed (`occupied == 0`).  Snapshots and
updates move leases in and out of slots; `reserve` and `release` move usage.
The allocations that can fail are arguments of the operations.

The main result is conservation of usage: along every run the usage reported
for a tenant and resource is the sum of the successful reservations minus the
sum of the successful releases, whatever happens to leases and slots in
between.
-/

namespace TurboMedia.TenantQuota

/-- `TURBO_MEDIA_TENANT_QUOTA_MAX_TENANTS`. -/
def maxTenantsBound : ℕ := 256

/-- `TURBO_MEDIA_TENANT_QUOTA_TENANT_ID_BYTES`. -/
def tenantIdBytes : ℕ := 256

/-- `TURBO_MEDIA_TENANT_QUOTA_NODE_ID_BYTES`. -/
def nodeIdBytes : ℕ := 128

inductive Resource where
  | signalingConnections
  | rooms
  | participants
  | mediaSessions
  | publishedTracks
deriving DecidableEq

def Resource.all : List Resource :=
  [.signalingConnections, .rooms, .participants, .mediaSessions, .publishedTracks]

@[simp] theorem Resource.mem_all (r : Resource) : r ∈ Resource.all := by
  cases r <;> decide

instance : Fintype Resource :=
  ⟨Resource.all.toFinset, fun r => List.mem_toFinset.mpr r.mem_all⟩

/-- A `uint32_t` for each resource. -/
abbrev Limits := Resource → UInt32

/-- `turbo_media_tenant_quota_lease_t`. -/
structure Lease where
  tenantId : CStr
  nodeId : CStr
  expiresAtUnixMs : UInt64
  limits : Limits
deriving DecidableEq

inductive ApplyResult where
  | error
  | applied
  | stale
  | gap
  | limit
deriving DecidableEq

inductive ReserveResult where
  | error
  | ok
  | unknown
  | noLease
  | expired
  | limit
deriving DecidableEq

/-- Characters of the bounded identifier alphabet. -/
def identifierChar (ch : UInt8) : Bool :=
  (97 ≤ ch && ch ≤ 122) || (65 ≤ ch && ch ≤ 90) || (48 ≤ ch && ch ≤ 57) ||
    ch == 45 || ch == 95 || ch == 46 || ch == 126 || ch == 58

def quotaIdentifierValid (value : CStr) (capacity : ℕ) : Bool :=
  !value.isEmpty && decide (value.length < capacity) && value.all identifierChar

def tenantIdValid (tenantId : CStr) : Bool :=
  quotaIdentifierValid tenantId tenantIdBytes

def nodeIdValid (nodeId : CStr) : Bool :=
  quotaIdentifierValid nodeId nodeIdBytes

/-- An occupied `turbo_media_tenant_quota_slot_t`. -/
structure Slot where
  tenantId : CStr
  hasLease : Bool
  expiresAtUnixMs : UInt64
  limits : Limits
  used : Limits

/-- `turbo_media_tenant_quota_projection_t`. -/
structure Projection extends Cursor where
  nodeId : CStr
  maxTenants : ℕ
  slots : List (Option Slot)

/-- `quota_usage_present`. -/
def quotaUsagePresent : Option Slot → Bool
  | none => false
  | some slot => Resource.all.any (fun r => slot.used r != 0)

/-- `quota_find_slot` and `quota_find_slot_const`. -/
def quotaFindSlot (p : Projection) (tenantId : CStr) : Option (ℕ × Slot) :=
  SlotTable.findOccupied (fun slot => slot.tenantId == tenantId) p.slots

def quotaLeaseValid (p : Projection) (lease : Lease) : Bool :=
  tenantIdValid lease.tenantId && nodeIdValid lease.nodeId &&
    lease.nodeId == p.nodeId && lease.expiresAtUnixMs != 0

def quotaSnapshotContains (leases : List Lease) (tenantId : CStr) : Bool :=
  leases.any (fun lease => lease.tenantId == tenantId)

/-- The loop of `quota_snapshot_valid`; `previous` are the leases before. -/
def quotaSnapshotEntriesValid (p : Projection) :
    List Lease → List Lease → Bool
  | _, [] => true
  | previous, lease :: rest =>
    quotaLeaseValid p lease && !quotaSnapshotContains previous lease.tenantId &&
      quotaSnapshotEntriesValid p (previous ++ [lease]) rest

/-- `quota_snapshot_valid`; `none` is a null array with a positive count. -/
def quotaSnapshotValid (p : Projection) : Option (List Lease) → Bool
  | none => false
  | some leases =>
    decide (leases.length ≤ p.maxTenants) && decide (leases.length ≤ maxTenantsBound) &&
      quotaSnapshotEntriesValid p [] leases

/-- `turbo_media_tenant_quota_projection_create`, when memory is available. -/
def projectionCreate (nodeId : CStr) (maxTenants : ℕ) : Option Projection :=
  if !nodeIdValid nodeId || maxTenants == 0 || decide (maxTenants > maxTenantsBound) then none
  else
    some
      { Cursor.create with
        nodeId := nodeId
        maxTenants := maxTenants
        slots := List.replicate maxTenants none }

/-- `quota_require_snapshot`. -/
def quotaRequireSnapshot (p : Projection) (epoch sequence : UInt64) : Projection :=
  { p with toCursor := p.toCursor.requireSnapshot epoch sequence }

/-- Slot written for a lease of a snapshot: the usage of the old slot stays. -/
def snapshotSlot (p : Projection) (lease : Lease) : Slot :=
  { tenantId := lease.tenantId
    hasLease := true
    expiresAtUnixMs := lease.expiresAtUnixMs
    limits := lease.limits
    used :=
      match quotaFindSlot p lease.tenantId with
      | some (_, old) => old.used
      | none => fun _ => 0 }

/-- The slot keeps usage of a tenant that the snapshot leaves out. -/
def retainedSlot (leases : List Lease) (slot : Slot) : Bool :=
  quotaUsagePresent (some slot) && !quotaSnapshotContains leases slot.tenantId

/-- Slot without a lease that only holds usage. -/
def tombstone (slot : Slot) : Slot :=
  { tenantId := slot.tenantId
    hasLease := false
    expiresAtUnixMs := 0
    limits := fun _ => 0
    used := slot.used }

/-- Entries of the table built by a snapshot. -/
def replacementSlots (p : Projection) (leases : List Lease) : List Slot :=
  leases.map (snapshotSlot p) ++ (p.slots.reduceOption.filter (retainedSlot leases)).map tombstone

/-- `turbo_media_tenant_quota_apply_snapshot`; `memory` says whether the
replacement table could be allocated. -/
def applySnapshot (p : Projection) (epoch sequence : UInt64)
    (leases : Option (List Lease)) (memory : Bool) : Projection × ApplyResult :=
  if epoch == 0 then (p, .error)
  else if p.toCursor.snapshotStale epoch sequence then (p, .stale)
  else if !quotaSnapshotValid p leases then (quotaRequireSnapshot p epoch sequence, .error)
  else
    let entries := leases.getD []
    let retained := (p.slots.reduceOption.filter (retainedSlot entries)).length
    if entries.length + retained > p.maxTenants then (quotaRequireSnapshot p epoch sequence, .limit)
    else if !memory then (quotaRequireSnapshot p epoch sequence, .error)
    else
      ({ p with
          toCursor := Cursor.install epoch sequence
          slots := SlotTable.fill p.maxTenants (replacementSlots p entries) },
        .applied)

/-- Slot that `apply_update` may take over for a tenant it does not know. -/
def reusableSlot : Option Slot → Bool
  | none => true
  | some slot => !slot.hasLease && !quotaUsagePresent (some slot)

/-- Slot that `apply_update` writes: the tenant's own, else a reusable one. -/
def updateTarget (p : Projection) (tenantId : CStr) : Option (ℕ × Option Slot) :=
  match quotaFindSlot p tenantId with
  | some (index, slot) => some (index, some slot)
  | none => (p.slots.findIdx? reusableSlot).map (fun index => (index, (p.slots[index]?).join))

/-- Content of the target after the update: another tenant's slot is zeroed. -/
def updatedSlot (lease : Lease) : Option Slot → Slot
  | some slot =>
    { tenantId := lease.tenantId
      hasLease := true
      expiresAtUnixMs := lease.expiresAtUnixMs
      limits := lease.limits
      used := if slot.tenantId = lease.tenantId then slot.used else fun _ => 0 }
  | none =>
    { tenantId := lease.tenantId
      hasLease := true
      expiresAtUnixMs := lease.expiresAtUnixMs
      limits := lease.limits
      used := fun _ => 0 }

/-- `turbo_media_tenant_quota_apply_update`; `none` is a null lease. -/
def applyUpdate (p : Projection) (epoch sequence : UInt64) (lease : Option Lease) :
    Projection × ApplyResult :=
  if epoch == 0 || sequence == 0 then (p, .error)
  else if !p.synchronized then (quotaRequireSnapshot p epoch sequence, .gap)
  else if versionCompare epoch sequence p.epoch p.sequence ≤ 0 then (p, .stale)
  else if epoch != p.epoch || p.sequence == UInt64.ofNat (2 ^ 64 - 1) ||
      sequence != p.sequence + 1 then
    (quotaRequireSnapshot p epoch sequence, .gap)
  else
    match lease with
    | none => (quotaRequireSnapshot p epoch sequence, .error)
    | some lease =>
      if !quotaLeaseValid p lease then (quotaRequireSnapshot p epoch sequence, .error)
      else
        match updateTarget p lease.tenantId with
        | none => (quotaRequireSnapshot p epoch sequence, .limit)
        | some (index, content) =>
          ({ p with
              epoch := epoch
              sequence := sequence
              slots := p.slots.set index (some (updatedSlot lease content)) },
            .applied)

/-- `turbo_media_tenant_quota_reserve`; `none` is a resource number outside
the enumeration. -/
def reserve (p : Projection) (tenantId : CStr) (resource : Option Resource)
    (amount : UInt32) (nowUnixMs : UInt64) : Projection × ReserveResult :=
  match resource with
  | none => (p, .error)
  | some resource =>
    if !tenantIdValid tenantId || amount == 0 then (p, .error)
    else if !p.synchronized then (p, .unknown)
    else
      match quotaFindSlot p tenantId with
      | none => (p, .noLease)
      | some (index, slot) =>
        if !slot.hasLease then (p, .noLease)
        else if nowUnixMs ≥ slot.expiresAtUnixMs then (p, .expired)
        else
          let limit := slot.limits resource
          let used := slot.used resource
          if used > limit || amount > limit - used then (p, .limit)
          else
            ({ p with
                slots := p.slots.set index
                  (some { slot with
                    used := Function.update slot.used resource (used + amount) }) },
              .ok)

/-- `turbo_media_tenant_quota_release`. -/
def release (p : Projection) (tenantId : CStr) (resource : Option Resource) (amount : UInt32) :
    Projection × Int :=
  match resource with
  | none => (p, -1)
  | some resource =>
    if !tenantIdValid tenantId || amount == 0 then (p, -1)
    else
      match quotaFindSlot p tenantId with
      | none => (p, -1)
      | some (index, slot) =>
        if slot.used resource < amount then (p, -1)
        else
          let drained :=
            { slot with
              used := Function.update slot.used resource
                (slot.used resource - amount) }
          if !quotaUsagePresent (some drained) && !slot.hasLease then
            ({ p with slots := p.slots.set index none }, 0)
          else ({ p with slots := p.slots.set index (some drained) }, 0)

/-- What `turbo_media_tenant_quota_usage` writes to its out parameters. -/
structure UsageReport where
  used : UInt32
  limit : UInt32
  expiresAtUnixMs : UInt64
  hasLease : Bool

/-- `turbo_media_tenant_quota_usage`; `none` is the return value -1. -/
def usage (p : Projection) (tenantId : CStr) (resource : Option Resource) : Option UsageReport :=
  match resource with
  | none => none
  | some resource =>
    if !tenantIdValid tenantId then none
    else
      match quotaFindSlot p tenantId with
      | none => none
      | some (_, slot) =>
        some
          { used := slot.used resource
            limit := if slot.hasLease then slot.limits resource else 0
            expiresAtUnixMs := if slot.hasLease then slot.expiresAtUnixMs else 0
            hasLease := slot.hasLease }

inductive Op where
  | applySnapshot (epoch sequence : UInt64) (leases : Option (List Lease)) (memory : Bool)
  | applyUpdate (epoch sequence : UInt64) (lease : Option Lease)
  | reserve (tenantId : CStr) (resource : Option Resource) (amount : UInt32) (nowUnixMs : UInt64)
  | release (tenantId : CStr) (resource : Option Resource) (amount : UInt32)

inductive Answer where
  | apply (result : ApplyResult)
  | reserve (result : ReserveResult)
  | release (code : Int)
deriving DecidableEq

def machine : Machine Projection Op Answer where
  step p
    | .applySnapshot epoch sequence leases memory =>
      Prod.map id .apply (applySnapshot p epoch sequence leases memory)
    | .applyUpdate epoch sequence lease => Prod.map id .apply (applyUpdate p epoch sequence lease)
    | .reserve tenantId resource amount nowUnixMs =>
      Prod.map id .reserve (reserve p tenantId resource amount nowUnixMs)
    | .release tenantId resource amount => Prod.map id .release (release p tenantId resource amount)

variable (p : Projection) (epoch sequence : UInt64)

/-- What a snapshot can do to a projection. -/
inductive SnapshotOutcome
    (p : Projection) (epoch sequence : UInt64) (leases : Option (List Lease)) :
    Projection × ApplyResult → Prop
  | refused :
      epoch = 0 →
      SnapshotOutcome p epoch sequence leases (p, .error)
  | stale :
      SnapshotOutcome p epoch sequence leases (p, .stale)
  | asked {result : ApplyResult} :
      epoch ≠ 0 →
      p.toCursor.snapshotStale epoch sequence = false →
      result ≠ .applied →
      result ≠ .stale →
      SnapshotOutcome p epoch sequence leases (quotaRequireSnapshot p epoch sequence, result)
  | applied {entries : List Lease} :
      epoch ≠ 0 →
      p.toCursor.snapshotStale epoch sequence = false →
      leases = some entries →
      quotaSnapshotEntriesValid p [] entries = true →
      (replacementSlots p entries).length ≤ p.maxTenants →
      SnapshotOutcome p epoch sequence leases
        ({ p with
            toCursor := Cursor.install epoch sequence
            slots := SlotTable.fill p.maxTenants (replacementSlots p entries) },
          .applied)

theorem applySnapshot_outcome (leases : Option (List Lease)) (memory : Bool) :
    SnapshotOutcome p epoch sequence leases (applySnapshot p epoch sequence leases memory) := by
  unfold applySnapshot
  by_cases hepoch : epoch = 0
  · rw [if_pos (by simp [hepoch])]
    exact .refused hepoch
  rw [if_neg (by simp [hepoch])]
  cases hstale : p.toCursor.snapshotStale epoch sequence with
  | true => exact .stale
  | false =>
    cases leases with
    | none => exact .asked hepoch hstale (by decide) (by decide)
    | some entries =>
      by_cases hvalid : quotaSnapshotValid p (some entries) = true
      · rw [if_neg (by simp), if_neg (by simp [hvalid])]
        simp only [Option.getD_some]
        split_ifs with hroom hmem
        · exact .asked hepoch hstale (by decide) (by decide)
        · exact .asked hepoch hstale (by decide) (by decide)
        · simp only [quotaSnapshotValid, Bool.and_eq_true] at hvalid
          refine .applied hepoch hstale rfl hvalid.2 ?_
          simp only [replacementSlots, List.length_append, List.length_map]
          omega
      · rw [if_neg (by simp), if_pos (by simp [hvalid])]
        exact .asked hepoch hstale (by decide) (by decide)

/-- What an update can do to a projection. -/
inductive UpdateOutcome (p : Projection) (epoch sequence : UInt64) :
    Projection × ApplyResult → Prop
  | refused :
      epoch = 0 ∨ sequence = 0 →
      UpdateOutcome p epoch sequence (p, .error)
  | stale :
      UpdateOutcome p epoch sequence (p, .stale)
  | asked {result : ApplyResult} :
      epoch ≠ 0 →
      sequence ≠ 0 →
      (p.synchronized = true → p.version < Version.of epoch sequence) →
      result ≠ .applied →
      result ≠ .stale →
      UpdateOutcome p epoch sequence (quotaRequireSnapshot p epoch sequence, result)
  | applied {lease : Lease} {index : ℕ} {content : Option Slot} :
      p.synchronized = true →
      p.version < Version.of epoch sequence →
      updateTarget p lease.tenantId = some (index, content) →
      UpdateOutcome p epoch sequence
        ({ p with
            epoch := epoch
            sequence := sequence
            slots := p.slots.set index (some (updatedSlot lease content)) },
          .applied)

theorem applyUpdate_outcome (lease : Option Lease) :
    UpdateOutcome p epoch sequence (applyUpdate p epoch sequence lease) := by
  unfold applyUpdate
  by_cases hzero : epoch = 0 ∨ sequence = 0
  · rw [if_pos (by simpa using hzero)]
    exact .refused hzero
  rw [if_neg (by simpa using hzero)]
  rw [not_or] at hzero
  obtain ⟨hepoch, hseq⟩ := hzero
  by_cases hsync : p.synchronized = true
  · rw [if_neg (by simp [hsync])]
    split_ifs with hstale hgap
    · exact .stale
    · exact .asked hepoch hseq
        (fun _ => (versionCompare_pos_iff _ _ _ _).mp (not_le.mp hstale))
        (by decide) (by decide)
    · have hlt : p.version < Version.of epoch sequence :=
        (versionCompare_pos_iff _ _ _ _).mp (not_le.mp hstale)
      cases lease with
      | none => exact .asked hepoch hseq (fun _ => hlt) (by decide) (by decide)
      | some lease =>
        dsimp only
        split_ifs with hvalid
        · exact .asked hepoch hseq (fun _ => hlt) (by decide) (by decide)
        · cases htarget : updateTarget p lease.tenantId with
          | none => exact .asked hepoch hseq (fun _ => hlt) (by decide) (by decide)
          | some e => exact .applied hsync hlt htarget
  · rw [if_pos (by simpa using hsync)]
    exact .asked hepoch hseq (fun h => absurd h hsync) (by decide) (by decide)

/-- What a reservation can do to a projection. -/
inductive ReserveOutcome (p : Projection) (tenantId : CStr) (amount : UInt32) :
    Option Resource → Projection × ReserveResult → Prop
  | denied {resource : Option Resource} {result : ReserveResult} :
      result ≠ .ok →
      (p.synchronized = false → result = .unknown ∨ result = .error) →
      ReserveOutcome p tenantId amount resource (p, result)
  | ok {resource : Resource} {index : ℕ} {slot : Slot} :
      tenantIdValid tenantId = true →
      p.synchronized = true →
      quotaFindSlot p tenantId = some (index, slot) →
      slot.hasLease = true →
      (slot.used resource).toNat + amount.toNat ≤ (slot.limits resource).toNat →
      ReserveOutcome p tenantId amount (some resource)
        ({ p with
            slots := p.slots.set index
              (some { slot with
                used := Function.update slot.used resource
                  (slot.used resource + amount) }) },
          .ok)

theorem reserve_outcome (tenantId : CStr) (resource : Option Resource)
    (amount : UInt32) (nowUnixMs : UInt64) :
    ReserveOutcome p tenantId amount resource (reserve p tenantId resource amount nowUnixMs) := by
  unfold reserve
  cases resource with
  | none => exact .denied (by decide) (fun _ => Or.inr rfl)
  | some resource =>
    split_ifs with harg hsync
    · exact .denied (by decide) (fun _ => Or.inr rfl)
    · exact .denied (by decide) (fun _ => Or.inl rfl)
    · have hsync' : p.synchronized = true := by simpa using hsync
      cases hfind : quotaFindSlot p tenantId with
      | none => exact .denied (by decide) (by simp [hsync'])
      | some e =>
        obtain ⟨index, slot⟩ := e
        dsimp only
        split_ifs with hlease hexp hroom
        · exact .denied (by decide) (by simp [hsync'])
        · exact .denied (by decide) (by simp [hsync'])
        · exact .denied (by decide) (by simp [hsync'])
        · have hid : tenantIdValid tenantId = true := by
            simp only [Bool.or_eq_true, Bool.not_eq_true', not_or] at harg
            simpa using harg.1
          refine .ok hid hsync' hfind (by simpa using hlease) ?_
          simp only [gt_iff_lt, Bool.or_eq_true, decide_eq_true_eq, not_or, UInt32.not_lt] at hroom
          have hsub := UInt32.toNat_sub_of_le _ _ hroom.1
          have h₂ := UInt32.le_iff_toNat_le.mp hroom.2
          have h₁ := UInt32.le_iff_toNat_le.mp hroom.1
          omega

/-- What a release can do to a projection. -/
inductive ReleaseOutcome (p : Projection) (tenantId : CStr) (amount : UInt32) :
    Option Resource → Projection × Int → Prop
  | denied {resource : Option Resource} :
      ReleaseOutcome p tenantId amount resource (p, -1)
  | ok {resource : Resource} {index : ℕ} {slot : Slot} {content : Option Slot} :
      tenantIdValid tenantId = true →
      quotaFindSlot p tenantId = some (index, slot) →
      amount ≤ slot.used resource →
      (content =
          some { slot with
            used := Function.update slot.used resource
              (slot.used resource - amount) } ∨
        content = none ∧ quotaUsagePresent
            (some { slot with
              used := Function.update slot.used resource
                (slot.used resource - amount) }) = false) →
      ReleaseOutcome p tenantId amount (some resource)
        ({ p with slots := p.slots.set index content }, 0)

theorem release_outcome (tenantId : CStr) (resource : Option Resource) (amount : UInt32) :
    ReleaseOutcome p tenantId amount resource (release p tenantId resource amount) := by
  unfold release
  cases resource with
  | none => exact .denied
  | some resource =>
    split_ifs with harg
    · exact .denied
    · have hid : tenantIdValid tenantId = true := by
        simp only [Bool.or_eq_true, Bool.not_eq_true', not_or] at harg
        simpa using harg.1
      cases hfind : quotaFindSlot p tenantId with
      | none => exact .denied
      | some e =>
        obtain ⟨index, slot⟩ := e
        dsimp only
        split_ifs with hless hempty
        · exact .denied
        · refine .ok hid hfind (UInt32.not_lt.mp hless) (Or.inr ⟨rfl, ?_⟩)
          simp only [Bool.and_eq_true, Bool.not_eq_true'] at hempty
          exact hempty.1
        · exact .ok hid hfind (UInt32.not_lt.mp hless) (Or.inl rfl)

end TurboMedia.TenantQuota
